import RigidScene.World.Engine

/-!
A world at rest: the plainest engine.

It keeps what it is given and moves bodies when their group is moved; nothing else happens in it.
Handles are positions in its lists.  A group contains its own bodies and those of the groups in it,
and `World.bodiesUnder` lists them, a later group before an earlier one; a body that can be reached
in two ways is listed twice.  Groups may be made to contain each other in a ring; then there is no
such list.
-/

namespace RigidScene

/-- A body in a world. -/
structure WorldBody where
  spec : BodySpec
  position : Point
  /-- In radians. -/
  angle : Float
  scale : Float
  group : Option GroupHandle
  deriving Repr

/-- A group in a world. -/
structure WorldGroup where
  label : Option String := none
  bodies : List BodyHandle := []
  groups : List GroupHandle := []
  constraints : List ConstraintHandle := []
  parent : Option GroupHandle := none
  deriving Repr, DecidableEq

/-- A constraint in a world. -/
structure WorldConstraint where
  spec : ConstraintSpec
  group : Option GroupHandle
  deriving Repr

/-- Bodies, groups and constraints, each at the position that is its handle. -/
structure World where
  bodies : List WorldBody := []
  groups : List WorldGroup := [{}]
  constraints : List WorldConstraint := []
  /-- How often the world has been cleared. -/
  teardowns : Nat := 0
  deriving Repr

namespace WorldBody

/-- A body as it is made. -/
def ofSpec (spec : BodySpec) : WorldBody :=
  ⟨spec, spec.position, spec.angle, 1, none⟩

/-- The body moved. -/
def translate (offset : Point) (b : WorldBody) : WorldBody :=
  { b with position := b.position.shift offset }

/-- The body turned about a point. -/
def rotate (radians : Float) (about : Point) (b : WorldBody) : WorldBody :=
  let sin := radians.sin
  let cos := radians.cos
  let dx := b.position.x - about.x
  let dy := b.position.y - about.y
  { b with
    position := ⟨about.x + dx * cos - dy * sin, about.y + dx * sin + dy * cos⟩
    angle := b.angle + radians }

/-- The body scaled about a point. -/
def scaleBy (factor : Float) (about : Point) (b : WorldBody) : WorldBody :=
  { b with
    position := ⟨about.x + (b.position.x - about.x) * factor,
      about.y + (b.position.y - about.y) * factor⟩
    scale := b.scale * factor }

end WorldBody

namespace World

/-- Nothing but a root. -/
def empty : World := {}

/-- The world holds nothing but its root. -/
def isEmpty (w : World) : Bool :=
  w.bodies.isEmpty && w.constraints.isEmpty && w.groups.length = 1

/-- The number of groups besides the root. -/
def groupCount (w : World) : Nat :=
  w.groups.length - 1

/-- The position of the first body whose spec carries the label. -/
def bodyLabelled (w : World) (label : String) : Option BodyHandle :=
  w.bodies.findIdx? (·.spec.label = some label)

/-- The bodies of a group, if groups are nested at most `room` deep in it. -/
def bodiesWithin (w : World) : (room : Nat) → GroupHandle → Except EngineError (List BodyHandle)
  | 0, g => .error (.endless g)
  | room + 1, g =>
    match w.groups[g]? with
    | none => .error (.unknownGroup g)
    | some group => do
      let nested ← group.groups.reverse.mapM (w.bodiesWithin room)
      return group.bodies ++ nested.flatten

/-- The bodies of a group.  Nested groups without a ring are at most as deep as there are groups. -/
def bodiesUnder (w : World) (g : GroupHandle) : Except EngineError (List BodyHandle) :=
  w.bodiesWithin (w.groups.length + 1) g

/-- Fails with an engine's error. -/
def refuse {α : Type} (e : EngineError) : Act World α :=
  throw (.engine e)

/-- Changes a body. -/
def changeBody (handle : BodyHandle) (f : WorldBody → WorldBody) : Act World Unit := do
  if handle < (← get).bodies.length then
    modify fun w => { w with bodies := w.bodies.modify handle f }
  else refuse (.unknownBody handle)

/-- Changes a group. -/
def changeGroup (handle : GroupHandle) (f : WorldGroup → WorldGroup) : Act World Unit := do
  if handle < (← get).groups.length then
    modify fun w => { w with groups := w.groups.modify handle f }
  else refuse (.unknownGroup handle)

/-- Changes a constraint. -/
def changeConstraint (handle : ConstraintHandle) (f : WorldConstraint → WorldConstraint) :
    Act World Unit := do
  if handle < (← get).constraints.length then
    modify fun w => { w with constraints := w.constraints.modify handle f }
  else refuse (.unknownConstraint handle)

/-- Changes the bodies of a list in turn. -/
def changeBodies (f : WorldBody → WorldBody) : List BodyHandle → Act World Unit
  | [] => return ()
  | handle :: rest => do
    changeBody handle f
    changeBodies f rest

/-- Changes every body of a group. -/
def changeBodiesUnder (g : GroupHandle) (f : WorldBody → WorldBody) : Act World Unit := do
  match (← get).bodiesUnder g with
  | .error e => refuse e
  | .ok handles => changeBodies f handles

/-- Makes a body. -/
def createBody (spec : BodySpec) : Act World BodyHandle := do
  let w ← get
  set { w with bodies := w.bodies ++ [WorldBody.ofSpec spec] }
  return w.bodies.length

/-- Makes a group. -/
def createGroup (label : Option String) : Act World GroupHandle := do
  let w ← get
  set { w with groups := w.groups ++ [({ label } : WorldGroup)] }
  return w.groups.length

/-- Puts a body into a group. -/
def addBody (g : GroupHandle) (b : BodyHandle) : Act World Unit := do
  changeBody b ({ · with group := some g })
  changeGroup g fun group => { group with bodies := group.bodies ++ [b] }

/-- Puts a group into another one. -/
def addGroup (parent child : GroupHandle) : Act World Unit := do
  if parent = child then refuse (.ownMember child)
  changeGroup child ({ · with parent := some parent })
  changeGroup parent fun group => { group with groups := group.groups ++ [child] }

/-- Makes a constraint between two bodies. -/
def createConstraint (spec : ConstraintSpec) : Act World ConstraintHandle := do
  let w ← get
  if w.bodies.length ≤ spec.first then refuse (.unknownBody spec.first)
  if w.bodies.length ≤ spec.second then refuse (.unknownBody spec.second)
  set { w with constraints := w.constraints ++ [(⟨spec, none⟩ : WorldConstraint)] }
  return w.constraints.length

/-- Puts a constraint into a group. -/
def addConstraint (g : GroupHandle) (c : ConstraintHandle) : Act World Unit := do
  changeConstraint c ({ · with group := some g })
  changeGroup g fun group => { group with constraints := group.constraints ++ [c] }

/-- Removes everything but an empty root. -/
def teardown (w : World) : World :=
  { teardowns := w.teardowns + 1 }

/-- The world as an engine. -/
def engine : Engine World where
  root := 0
  createBody := createBody
  createGroup := createGroup
  addBody := addBody
  addGroup := addGroup
  translateGroup g offset := changeBodiesUnder g (WorldBody.translate offset)
  rotateGroup g radians about := changeBodiesUnder g (WorldBody.rotate radians about)
  scaleGroup g factor about := changeBodiesUnder g (WorldBody.scaleBy factor about)
  createConstraint := createConstraint
  addConstraint := addConstraint
  teardown := teardown

end World

end RigidScene
