import RigidScene.Eval.Evaluate

/-!
Scenes: what a whole program makes.

The entities of the program's outermost block make up the root composite, whose number is zero and
which is not placed anywhere.
-/

namespace RigidScene

/-- The entities of a program and the value of its last statement. -/
structure Scene where
  root : Composite Value
  value : Value

namespace Scene

/-- How many bodies the scene has. -/
def bodyCount (s : Scene) : Nat :=
  s.root.bodyCount

/-- How many constraints the scene has. -/
def constraintCount (s : Scene) : Nat :=
  s.root.constraintCount

/-- The scene that a program makes in a given environment. -/
def ofNodeIn (settings : Settings) (program : Node) (env : Environment) : Eval Scene := do
  let (env, value) ← program.eval settings env
  return ⟨env.toComposite 0 .identity ∅, value⟩

/-- The scene that a program makes. -/
def ofNode (settings : Settings) (program : Node) : Eval Scene :=
  ofNodeIn settings program .empty

end Scene

end RigidScene
