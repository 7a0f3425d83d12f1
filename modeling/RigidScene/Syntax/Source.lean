import RigidScene.Syntax.Forms
import RigidScene.Syntax.Statements

/-!
Reading a source in one of the two notations.

`SourceForm.read` answers the tree of the whole source, whose root is a composite, or the place where
the reading stopped.  A reading that stops early stops behind the last thing it completed and the
layout there; an aborted one stops where digits are missing.
-/

namespace RigidScene.Syntax

open RigidScene.Text

/-- The ways to write a program. -/
inductive SourceForm where
  /-- Statements with infix operators. -/
  | statements
  /-- Parenthesised forms. -/
  | forms
  deriving DecidableEq, Repr

namespace SourceForm

/-- The name the notation goes by. -/
def name : SourceForm → String
  | statements => "text"
  | forms => "sexp"

/-- The notation with the given name. -/
def ofName? (n : String) : Option SourceForm :=
  [statements, forms].find? (·.name = n)

end SourceForm

/-- The error of a source that goes on behind its last readable part. -/
def stopped (source rest : List Char) : ParseError :=
  ParseError.atRest "unexpected input (End of file)" source rest

/-- The error of a number without the digits it needs. -/
def missingDigits (source rest : List Char) : ParseError :=
  ParseError.atRest "unexpected input (Digit)" source rest

/-- Everything `p` reads, if it reads the whole source. -/
def readAll {α : Type} (p : Parser α) (source : List Char) : Except ParseError α :=
  match p source with
  | .ok a [] => .ok a
  | .ok _ rest => .error (stopped source rest)
  | .fail => .error (stopped source source)
  | .abort rest => .error (missingDigits source rest)

/-- The forms as one tree: a single composite is the program itself. -/
def composite : List Tree → Tree
  | [.node "composite" text children] => .node "composite" text children
  | forms => Tree.branch "composite" forms

/-- The tree of a source. -/
def SourceForm.read (form : SourceForm) (source : List Char) : Except ParseError Tree :=
  match form with
  | .statements => Tree.branch "composite" <$> readAll Statements.program source
  | .forms => composite <$> readAll Forms.program source

end RigidScene.Syntax
