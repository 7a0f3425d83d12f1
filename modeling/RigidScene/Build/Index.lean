import RigidScene.Entity
import RigidScene.World.Spec

/-!
Finding the bodies of a world by label and by number.

The first body that is entered with a label keeps it; the last one entered with a number has it.
-/

namespace RigidScene

/-- The handles of bodies by their labels and by their numbers. -/
structure BodyIndex where
  /-- In the order in which the labels were first entered. -/
  labels : NameMap BodyHandle := ∅
  /-- The latest entry first. -/
  ids : List (EntityId × BodyHandle) := []

namespace BodyIndex

/-- No bodies. -/
def empty : BodyIndex := {}

/-- The handle of the body with a label. -/
def ofLabel? (index : BodyIndex) (label : String) : Option BodyHandle :=
  index.labels.get? label

/-- The handle of the body with a number. -/
def ofId? (index : BodyIndex) (id : EntityId) : Option BodyHandle :=
  index.ids.lookup id

/-- The handle of the body at one end of a constraint. -/
def resolve? (index : BodyIndex) : Endpoint → Option BodyHandle
  | .id id => index.ofId? id
  | .label name => index.ofLabel? name

/-- How many numbers are known. -/
def size (index : BodyIndex) : Nat :=
  index.ids.length

/-- Enters a number and, unless it is taken, a label. -/
def enter (index : BodyIndex) (id : EntityId) (label : Option String) (handle : BodyHandle) :
    BodyIndex where
  ids := (id, handle) :: index.ids.filter (·.1 ≠ id)
  labels :=
    match label with
    | none => index.labels
    | some name => if index.labels.contains name then index.labels else index.labels.insert name handle

/-- Enters a body. -/
def insert {V : Type} (index : BodyIndex) (b : Body V) (handle : BodyHandle) : BodyIndex :=
  index.enter b.id b.label handle

/-- The handle that already has the label of a body. -/
def earlier? {V : Type} (index : BodyIndex) (b : Body V) : Option BodyHandle :=
  b.label.bind index.ofLabel?

end BodyIndex

end RigidScene
