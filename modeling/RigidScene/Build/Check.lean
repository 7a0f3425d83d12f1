import RigidScene.Build.Spec
import RigidScene.Scene
import RigidScene.World.Engine

/-!
Whether the constraints of a scene can be built, before anything is.

The check needs no engine: an end of a constraint is known when some body of the scene has its
number or its label.  Constraints are looked at composite by composite, each before the composites
in it, and of two composites side by side the later one first; the first constraint with an unknown
end decides the error.
-/

namespace RigidScene

namespace Composite

variable {V : Type}

mutual

/-- All constraints in the order of the check. -/
def edgesLastFirst : Composite V → List (Constraint V)
  | ⟨_, _, _, constraints, composites, _, _⟩ => constraints ++ edgesLastFirstAll composites

/-- The constraints of a list of composites, those of the last one first. -/
def edgesLastFirstAll : List (Composite V) → List (Constraint V)
  | [] => []
  | c :: cs => edgesLastFirstAll cs ++ edgesLastFirst c

end

/-- Some body of the composite is meant by the endpoint. -/
def knows (c : Composite V) : Endpoint → Bool
  | .id id => c.walk.any (·.id = id)
  | .label name => c.walk.any (·.label = some name)

end Composite

/-- The first of a constraint's ends that satisfies `p`. -/
def Constraint.endWhere? {V : Type} (c : Constraint V) (p : Endpoint → Bool) : Option Endpoint :=
  [c.source, c.target].find? p

namespace Scene

/-- The error of the first constraint with an unknown end. -/
def unresolved? (s : Scene) : Option BuildError :=
  s.root.edgesLastFirst.findSome? fun c =>
    (c.endWhere? fun e => !s.root.knows e).map (BuildError.unresolvedEndpoint c.id)

/-- Fails if constraints with unknown ends are forbidden and there is one. -/
def check (s : Scene) (options : BuildOptions) : Except BuildError Unit :=
  match options.endpointPolicy with
  | .lenient => .ok ()
  | .strict =>
    match s.unresolved? with
    | some e => .error e
    | none => .ok ()

end Scene

end RigidScene
