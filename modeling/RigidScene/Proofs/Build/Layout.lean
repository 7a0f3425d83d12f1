import RigidScene.Build.Passes
import RigidScene.Proofs.Nesting
import RigidScene.World.Basic

/-!
The world of a scene, read off the scene.

Groups are numbered in the order of `Composite.nested`, bodies in that of `Composite.walk`, and
constraints in that of `Composite.edges`, those with an unknown end left out.  So what is in a
composite has handles without a gap, and each part of the world is a recursion over composites
that counts along: `g`, `b` and `k` are the next handles of a group, a body and a constraint.
-/

namespace RigidScene

/-- The handle that a list of bodies has for an endpoint: that of the last one with the number, or
of the first one with the label. -/
def Endpoint.locate? {V : Type} (bodies : List (Body V)) : Endpoint → Option BodyHandle
  | .id n => (bodies.zipIdx.reverse.find? (·.1.id = n)).map Prod.snd
  | .label name => (bodies.zipIdx.find? (·.1.label = some name)).map Prod.snd

/-- Both ends of a constraint are found. -/
def Constraint.joins {V : Type} (locate : Endpoint → Option BodyHandle) (c : Constraint V) : Bool :=
  (locate c.source).isSome && (locate c.target).isSome

/-- What a constraint becomes in a group: nothing, unless both its ends are found. -/
def Constraint.joint? (locate : Endpoint → Option BodyHandle) (group : GroupHandle)
    (c : Constraint Value) : Option WorldConstraint :=
  match locate c.source, locate c.target with
  | some first, some second => some ⟨.ofConstraint c first second, some group⟩
  | _, _ => none

/-- The bodies between which a constraint is made, if both its ends are found. -/
def Constraint.ends? {V : Type} (locate : Endpoint → Option BodyHandle) (c : Constraint V) :
    Option (BodyHandle × BodyHandle) := do
  let first ← locate c.source
  let second ← locate c.target
  return (first, second)

theorem joins_iff {V : Type} {locate : Endpoint → Option BodyHandle} {c : Constraint V} :
    c.joins locate = true ↔
      ∃ first second, locate c.source = some first ∧ locate c.target = some second := by
  simp [Constraint.joins, Option.isSome_iff_exists]

theorem joint?_none {locate : Endpoint → Option BodyHandle} {c : Constraint Value}
    (apart : c.joins locate = false) (group : GroupHandle) : c.joint? locate group = none := by
  unfold Constraint.joint?
  split
  · rename_i first second source target
    have joins := joins_iff.mpr ⟨first, second, source, target⟩
    rw [apart] at joins
    cases joins
  · rfl

/-- As many constraints are made as have both ends known. -/
theorem joints_length (locate : Endpoint → Option BodyHandle)
    (held : List (GroupHandle × Constraint Value)) :
    (held.filterMap fun h => h.2.joint? locate h.1).length =
      (held.map Prod.snd).countP (Constraint.joins locate) := by
  induction held with
  | nil => rfl
  | cons h held ih =>
    cases joins : h.2.joins locate with
    | true =>
      obtain ⟨first, second, source, target⟩ := joins_iff.mp joins
      have joint : h.2.joint? locate h.1 = some ⟨.ofConstraint h.2 first second, some h.1⟩ := by
        simp [Constraint.joint?, source, target]
      simp [joint, joins, ih]
    | false => simp [joint?_none joins, joins, ih]

/-- A body as it is made and put into a group. -/
def Body.made (options : BuildOptions) (group : GroupHandle) (b : Body Value) : WorldBody :=
  { WorldBody.ofSpec (.ofBody options b) with group := some group }

/-- Where a placement puts a body. -/
def Transform.settle (t : Transform) (b : WorldBody) : WorldBody :=
  if t.isIdentity then b
  else ((b.translate t.translate).rotate (radians t.rotate) t.translate).scaleBy t.scale t.translate

namespace Composite

section InGroups

variable {V α : Type}

mutual

/-- What composites hold themselves, with the groups that it belongs to. -/
def inGroups (own : Composite V → List α) : Composite V → (g : GroupHandle) →
    List (GroupHandle × α)
  | ⟨id, label, bodies, constraints, composites, transform, props⟩, g =>
    (own ⟨id, label, bodies, constraints, composites, transform, props⟩).map (g, ·) ++
      inGroupsAll own composites (g + 1)

/-- What the composites of a list hold, the first of which has the given group. -/
def inGroupsAll (own : Composite V → List α) : List (Composite V) → (g : GroupHandle) →
    List (GroupHandle × α)
  | [], _ => []
  | c :: cs, g => inGroups own c g ++ inGroupsAll own cs (g + c.span)

end

/-- The groups of the composites of a list. -/
def handles : List (Composite V) → (g : GroupHandle) → List GroupHandle
  | [], _ => []
  | c :: cs, g => g :: handles cs (g + c.span)

mutual

/-- The groups of a composite and of those inside it, as the first pass hands them to the second. -/
def groupTree : Composite V → (g : GroupHandle) → GroupTree
  | ⟨_, _, _, _, composites, _, _⟩, g => .node g (groupTrees composites (g + 1))

/-- The groups of the composites of a list. -/
def groupTrees : List (Composite V) → (g : GroupHandle) → List GroupTree
  | [], _ => []
  | c :: cs, g => groupTree c g :: groupTrees cs (g + c.span)

end

end InGroups

section Groups

variable {V : Type} (kept : Constraint V → Bool)

mutual

/-- The groups of a composite and of those inside it.  A group holds the bodies, the groups of the
composites and those of the constraints that are kept that its composite holds directly. -/
def groupsOf : Composite V → (parent : Option GroupHandle) → (g b k : Nat) → List WorldGroup
  | ⟨_, label, bodies, constraints, composites, _, _⟩, parent, g, b, k =>
    { label
      bodies := .range' b bodies.length
      groups := handles composites (g + 1)
      constraints := .range' k (constraints.countP kept)
      parent } ::
    groupsOfAll composites g (g + 1) (b + bodies.length) (k + constraints.countP kept)

/-- The groups of the composites of a list. -/
def groupsOfAll : List (Composite V) → (parent : GroupHandle) → (g b k : Nat) → List WorldGroup
  | [], _, _, _, _ => []
  | c :: cs, parent, g, b, k =>
    groupsOf c (some parent) g b k ++
      groupsOfAll cs parent (g + c.span) (b + c.walk.length) (k + c.edges.countP kept)

end

end Groups

section Settled

variable (options : BuildOptions)

mutual

/-- The bodies of a composite in its group: its own as they are made, and those of each composite
inside it moved by that composite's placement. -/
def settled : Composite Value → (g : GroupHandle) → List WorldBody
  | ⟨_, _, bodies, _, composites, _, _⟩, g =>
    bodies.map (Body.made options g) ++ settledAll composites (g + 1)

/-- The bodies of the composites of a list, each list of them in its place. -/
def settledAll : List (Composite Value) → (g : GroupHandle) → List WorldBody
  | [], _ => []
  | c :: cs, g => (settled c g).map c.transform.settle ++ settledAll cs (g + c.span)

end

end Settled

section Lengths

variable {V α : Type}

theorem inGroups_eq (own : Composite V → List α) (c : Composite V) (g : GroupHandle) :
    c.inGroups own g = (own c).map (g, ·) ++ inGroupsAll own c.composites (g + 1) := by
  cases c
  rw [inGroups]

theorem groupsOf_eq (kept : Constraint V → Bool) (c : Composite V) (parent : Option GroupHandle)
    (g b k : Nat) : c.groupsOf kept parent g b k =
      { label := c.label
        bodies := .range' b c.bodies.length
        groups := handles c.composites (g + 1)
        constraints := .range' k (c.constraints.countP kept)
        parent } ::
      groupsOfAll kept c.composites g (g + 1) (b + c.bodies.length)
        (k + c.constraints.countP kept) := by
  cases c
  rw [groupsOf]

/-- Before there are constraints, groups have none. -/
theorem groupsOf_bare (c : Composite V) (parent : Option GroupHandle) (g b k : Nat) :
    c.groupsOf (fun _ => false) parent g b k =
      { label := c.label
        bodies := .range' b c.bodies.length
        groups := handles c.composites (g + 1)
        parent } ::
      groupsOfAll (fun _ => false) c.composites g (g + 1) (b + c.bodies.length) k := by
  rw [groupsOf_eq, List.countP_false]
  rfl

theorem groupsOfAll_bare (c : Composite V) (cs : List (Composite V)) (parent : GroupHandle)
    (g b k : Nat) : groupsOfAll (fun _ => false) (c :: cs) parent g b k =
      c.groupsOf (fun _ => false) (some parent) g b k ++
        groupsOfAll (fun _ => false) cs parent (g + c.span) (b + c.walk.length) k := by
  rw [groupsOfAll, List.countP_false]
  rfl

theorem settled_eq (options : BuildOptions) (c : Composite Value) (g : GroupHandle) :
    c.settled options g =
      c.bodies.map (Body.made options g) ++ settledAll options c.composites (g + 1) := by
  cases c
  rw [settled]

theorem groupsOf_lengths (kept : Constraint V → Bool) :
    (∀ (c : Composite V) parent g b k, (c.groupsOf kept parent g b k).length = c.span) ∧
      ∀ (cs : List (Composite V)) parent g b k,
        (groupsOfAll kept cs parent g b k).length = spanAll cs := by
  apply nesting_induction
  · intro c inside parent g b k
    rw [groupsOf_eq, List.length_cons, inside, span_eq]
  · intro parent g b k
    rfl
  · intro c cs first rest parent g b k
    rw [groupsOfAll, List.length_append, first, rest, spanAll_cons]

theorem settled_lengths (options : BuildOptions) :
    (∀ (c : Composite Value) g, (c.settled options g).length = c.walk.length) ∧
      ∀ (cs : List (Composite Value)) g,
        (settledAll options cs g).length = (walkAll cs).length := by
  apply nesting_induction
  · intro c inside g
    rw [settled_eq, walk_eq, List.length_append, List.length_append, List.length_map, inside]
  · intro g
    rfl
  · intro c cs first rest g
    rw [settledAll, walkAll, List.length_append, List.length_append, List.length_map, first, rest]

/-- Groups carry the labels of their composites, in the order of the composites. -/
theorem groupsOf_labels (kept : Constraint V → Bool) :
    (∀ (c : Composite V) parent g b k, (c.groupsOf kept parent g b k).map (·.label) =
      c.label :: c.nested.map (·.label)) ∧
    ∀ (cs : List (Composite V)) parent g b k,
      (groupsOfAll kept cs parent g b k).map (·.label) = (nestedAll cs).map (·.label) := by
  apply nesting_induction
  · intro c inside parent g b k
    rw [groupsOf_eq, List.map_cons, inside, nested_eq]
  · intro parent g b k
    rfl
  · intro c cs first rest parent g b k
    rw [groupsOfAll, List.map_append, first, rest, nestedAll]
    simp only [List.map_cons, List.map_append, List.cons_append]

/-- What composites hold, without the groups, is a list that is put together in the same way. -/
theorem inGroups_flat {own : Composite V → List α} {flat : Composite V → List α}
    {flatAll : List (Composite V) → List α}
    (composite : ∀ c, flat c = own c ++ flatAll c.composites) (nil : flatAll [] = [])
    (cons : ∀ c cs, flatAll (c :: cs) = flat c ++ flatAll cs) :
    (∀ c g, (inGroups own c g).map Prod.snd = flat c) ∧
      ∀ cs g, (inGroupsAll own cs g).map Prod.snd = flatAll cs := by
  apply nesting_induction
  · intro c inside g
    rw [inGroups_eq, composite, List.map_append, inside, List.map_map]
    simp [Function.comp_def]
  · intro g
    rw [nil]
    rfl
  · intro c cs first rest g
    rw [inGroupsAll, cons, List.map_append, first, rest]

/-- The bodies of a composite with their groups are the bodies of the walk, in order. -/
theorem inGroups_bodies (c : Composite V) (g : GroupHandle) :
    (c.inGroups (·.bodies) g).map Prod.snd = c.walk :=
  (inGroups_flat walk_eq rfl fun _ _ => rfl).1 c g

/-- The constraints of a composite with their groups are all its constraints, in order. -/
theorem inGroups_constraints (c : Composite V) (g : GroupHandle) :
    (c.inGroups (·.constraints) g).map Prod.snd = c.edges :=
  (inGroups_flat edges_eq rfl fun _ _ => rfl).1 c g

end Lengths

theorem settle_spec (t : Transform) (b : WorldBody) : (t.settle b).spec = b.spec := by
  unfold Transform.settle
  split <;> rfl

theorem settle_group (t : Transform) (b : WorldBody) : (t.settle b).group = b.group := by
  unfold Transform.settle
  split <;> rfl

/-- Placements change neither the specs of bodies nor their groups. -/
theorem settled_specs (options : BuildOptions) :
    (∀ (c : Composite Value) g, (c.settled options g).map (fun b => (b.group, b.spec)) =
      (c.inGroups (·.bodies) g).map fun held => (some held.1, .ofBody options held.2)) ∧
    ∀ (cs : List (Composite Value)) g,
      (settledAll options cs g).map (fun b => (b.group, b.spec)) =
        (inGroupsAll (·.bodies) cs g).map fun held => (some held.1, .ofBody options held.2) := by
  apply nesting_induction
  · intro c inside g
    rw [settled_eq, inGroups_eq, List.map_append, List.map_append, inside, List.map_map,
      List.map_map]
    rfl
  · intro g
    rfl
  · intro c cs first rest g
    rw [settledAll, inGroupsAll, List.map_append, List.map_append, rest, List.map_map, ← first]
    simp only [Function.comp_def, settle_spec, settle_group]

end Composite

namespace Scene

/-- The handle that an endpoint has in the world of the scene. -/
def locate? (s : Scene) (e : Endpoint) : Option BodyHandle :=
  e.locate? s.root.walk

/-- The world of the scene.  Its root group has no label. -/
def world (s : Scene) (options : BuildOptions) : World where
  bodies := s.root.settled options 0
  groups := { s.root with label := none }.groupsOf (Constraint.joins s.locate?) none 0 0 0
  constraints := (s.root.inGroups (·.constraints) 0).filterMap fun held =>
    held.2.joint? s.locate? held.1

end Scene

end RigidScene
