import RigidScene.Build.Check
import RigidScene.Build.Index

/-!
Building a world from a scene, in two passes.

The first pass makes bodies and groups, depth first: a composite's bodies, then each composite in it
with all its contents, its placement, and only then its place in the group around it.  The second
pass makes the constraints in the same order, between bodies that the first pass has entered into
the index.  So an end of a constraint may stand anywhere in the scene.
-/

namespace RigidScene

/-- The groups made for a composite and for those in it. -/
inductive GroupTree where
  | node (group : GroupHandle) (nested : List GroupTree)
  deriving Repr

namespace Engine

variable {σ : Type} (e : Engine σ) (options : BuildOptions)

/-- Makes bodies in a group. -/
def buildBodies (group : GroupHandle) : List (Body Value) → BodyIndex → Act σ BodyIndex
  | [], index => return index
  | b :: rest, index => do
    let handle ← e.createBody (.ofBody options b)
    e.addBody group handle
    buildBodies group rest (index.insert b handle)

/-- Places the bodies of a group. -/
def place (group : GroupHandle) (t : Transform) : Act σ Unit := do
  if !t.isIdentity then
    e.translateGroup group t.translate
    e.rotateGroup group (radians t.rotate) t.translate
    e.scaleGroup group t.scale t.translate

mutual

/-- Makes the contents of a composite in its group. -/
def buildGroup : Composite Value → GroupHandle → BodyIndex → Act σ (BodyIndex × GroupTree)
  | ⟨_, _, bodies, _, composites, _, _⟩, group, index => do
    let index ← e.buildBodies options group bodies index
    let (index, nested) ← buildGroups composites group index
    return (index, .node group nested)

/-- Makes a group for each composite, with its contents and in its place. -/
def buildGroups : List (Composite Value) → GroupHandle → BodyIndex →
    Act σ (BodyIndex × List GroupTree)
  | [], _, index => return (index, [])
  | c :: rest, parent, index => do
    let group ← e.createGroup c.label
    let (index, tree) ← buildGroup c group index
    e.place group c.transform
    e.addGroup parent group
    let (index, trees) ← buildGroups rest parent index
    return (index, tree :: trees)

end

/-- What to do about a constraint one of whose ends is not in the index. -/
def skip (index : BodyIndex) (c : Constraint Value) : Act σ Unit :=
  match options.endpointPolicy with
  | .lenient => return ()
  | .strict =>
    throw (.unresolvedEndpoint c.id (if (index.resolve? c.source).isNone then c.source else c.target))

/-- Makes constraints in a group. -/
def buildConstraints (index : BodyIndex) (group : GroupHandle) : List (Constraint Value) → Act σ Unit
  | [] => return ()
  | c :: rest => do
    match index.resolve? c.source, index.resolve? c.target with
    | some first, some second =>
      let handle ← e.createConstraint (.ofConstraint c first second)
      e.addConstraint group handle
    | _, _ => skip options index c
    buildConstraints index group rest

mutual

/-- Makes the constraints of a composite and of those in it. -/
def connect (index : BodyIndex) : Composite Value → GroupTree → Act σ Unit
  | ⟨_, _, _, constraints, composites, _, _⟩, .node group nested => do
    e.buildConstraints options index group constraints
    connectAll index composites nested

/-- Makes the constraints of each composite in its group. -/
def connectAll (index : BodyIndex) : List (Composite Value) → List GroupTree → Act σ Unit
  | c :: rest, tree :: trees => do
    connect index c tree
    connectAll index rest trees
  | _, _ => return ()

end

/-- Builds a scene and answers where its bodies are. -/
def build (scene : Scene) : Act σ BodyIndex := do
  let (index, tree) ← e.buildGroup options scene.root e.root .empty
  e.connect options index scene.root tree
  return index

end Engine

end RigidScene
