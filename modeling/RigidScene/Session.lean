import RigidScene.Config
import RigidScene.LiveWorld
import RigidScene.Program.OfTree
import RigidScene.Syntax.Source

/-!
Sessions: sources run one after another on one engine.

A source is read, turned into a program and run; only then is the engine touched.  The world of a
source replaces that of the one before.  Whatever fails before the engine is touched leaves the
world that is there; an engine that fails leaves none.
-/

namespace RigidScene

/-- Why a source has no world. -/
inductive SceneError where
  | parse (error : Text.ParseError)
  | tree (error : TreeError)
  | eval (error : EvalError)
  | build (error : BuildError)

/-- The error as one line of text. -/
def SceneError.message : SceneError → String
  | parse error => error.render
  | tree error => error.message
  | eval error => error.message
  | build error => error.message

/-- The program of a source. -/
def Node.ofSource (form : Syntax.SourceForm) (source : String) : Except SceneError Node := do
  let tree ← (form.read source.toList).mapError .parse
  (Node.ofTree tree).mapError .tree

/-- An engine with or without a world in it. -/
inductive Slot (σ : Type) where
  | idle (state : σ)
  | live (world : LiveWorld σ)

namespace Slot

variable {σ : Type}

/-- The state of the engine. -/
def state : Slot σ → σ
  | idle state => state
  | live world => world.state

/-- The world, if there is one. -/
def world? : Slot σ → Option (LiveWorld σ)
  | idle _ => none
  | live world => some world

/-- Removes the world, if there is one. -/
def stop (e : Engine σ) : Slot σ → Slot σ
  | idle state => idle state
  | live world => idle (world.stop e)

/-- Puts the world of a scene in place of what is there. -/
def run (e : Engine σ) (options : BuildOptions) (scene : Scene) : Slot σ →
    Except BuildError Unit × Slot σ
  | idle state =>
    match LiveWorld.launch e options scene state with
    | .ok world => (.ok (), live world)
    | .error (error, state) => (.error error, idle state)
  | live world =>
    match world.restart e scene with
    | .done next => (.ok (), live next)
    | .rejected error previous => (.error error, live previous)
    | .failed error state => (.error error, idle state)

end Slot

/-- A notation, settings, and an engine that may have a world in it. -/
structure Session (σ : Type) where
  form : Syntax.SourceForm
  config : Config
  /-- A run has been asked to stop. -/
  interrupted : Bool := false
  slot : Slot σ

namespace Session

variable {σ : Type}

/-- A session without a world. -/
def start (form : Syntax.SourceForm) (config : Config) (state : σ) : Session σ where
  form := form
  config := config
  slot := .idle state

/-- Asks for a stop. -/
def interrupt (s : Session σ) : Session σ :=
  { s with interrupted := true }

/-- Runs a source and puts its world in place of the one that is there.  A request to stop that is
left over from before is dropped once the source has become a program. -/
def run (e : Engine σ) (s : Session σ) (source : String) : Except SceneError Scene × Session σ :=
  match Node.ofSource s.form source with
  | .error error => (.error error, s)
  | .ok program =>
    match Scene.ofNode s.config.eval program {} with
    | (.error error, run) => (.error (.eval error), { s with interrupted := run.interrupted })
    | (.ok scene, run) =>
      match s.slot.run e s.config.build scene with
      | (.error error, slot) => (.error (.build error), { s with interrupted := run.interrupted, slot })
      | (.ok (), slot) => (.ok scene, { s with interrupted := run.interrupted, slot })

/-- Removes the world, if there is one. -/
def stop (e : Engine σ) (s : Session σ) : Session σ :=
  { s with slot := s.slot.stop e }

end Session

end RigidScene
