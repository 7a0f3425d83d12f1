import Mathlib.Data.List.Nodup
import Mathlib.Data.List.Range
import RigidScene.Proofs.World.Containment

/-!
Listing the bodies below a group.

The list is made by a loop over pending groups that does not remember which groups it has been to:
`World.Lists`.  It comes to an end exactly if no ring is below the group it starts from; then it
makes the list of `World.bodiesUnder`, and the calls that move a group succeed.  Without a ring no
path has more groups than there are, which is the room that `World.bodiesUnder` begins with.
-/

namespace RigidScene

open Outcome Relation

/-- The group whose bodies a call moves. -/
def Call.moved? : Call → Option GroupHandle
  | translateGroup g _ | rotateGroup g _ _ | scaleGroup g _ _ => some g
  | _ => none

namespace World

/-- The loop that starts with the pending groups ends with the bodies.  It takes the first pending
group, lists its bodies and puts the groups in it before the rest, the last of them first. -/
inductive Lists (w : World) : List GroupHandle → List BodyHandle → Prop where
  | done : Lists w [] []
  | next {g group rest bodies} (known : w.groups[g]? = some group)
    (later : Lists w (group.groups.reverse ++ rest) bodies) :
    Lists w (g :: rest) (group.bodies ++ bodies)

/-- No ring is below the group. -/
def Unringed (w : World) (g : GroupHandle) : Prop :=
  ∀ h, ReflTransGen w.Contains g h → ¬ TransGen w.Contains h h

variable {w : World}

namespace Lists

variable {pending front back : List GroupHandle} {bodies bodies' : List BodyHandle}

theorem unique (one : w.Lists pending bodies) (two : w.Lists pending bodies') :
    bodies = bodies' := by
  induction one generalizing bodies' with
  | done =>
    cases two
    rfl
  | next known _ ih =>
    cases two with
    | next known' later =>
      cases known.symm.trans known'
      rw [ih later]

/-- The loop over two lists of groups is the loop over the first, then that over the second. -/
theorem append (one : w.Lists front bodies) (two : w.Lists back bodies') :
    w.Lists (front ++ back) (bodies ++ bodies') := by
  induction one with
  | done => exact two
  | @next g group rest bodies known _ ih =>
    rw [List.cons_append, List.append_assoc]
    refine .next known ?_
    rwa [List.append_assoc] at ih

/-- Every body in the list is there. -/
theorem known (listed : w.Lists pending bodies) (linked : w.Linked) :
    ∀ b ∈ bodies, b < w.bodies.length := by
  induction listed with
  | done => exact List.forall_mem_nil _
  | next known _ ih =>
    intro b member
    rcases List.mem_append.mp member with own | later
    · exact linked.bodies _ (List.mem_of_getElem? known) b own
    · exact ih b later

/-- A loop that ends has come to the end of everything below each of its groups. -/
theorem accessible (listed : w.Lists pending bodies) :
    ∀ g ∈ pending, Acc (fun h g => w.Contains g h) g := by
  induction listed with
  | done => exact List.forall_mem_nil _
  | @next g group rest bodies known _ ih =>
    intro h member
    rcases List.mem_cons.mp member with rfl | later
    · refine ⟨_, ?_⟩
      rintro child ⟨group', known', inside⟩
      cases known.symm.trans known'
      exact ih child (List.mem_append_left _ (List.mem_reverse.mpr inside))
    · exact ih h (List.mem_append_right _ later)

end Lists

/-- Where everything below is come to an end, there is no ring. -/
theorem unringed_of_accessible {g : GroupHandle} (ends : Acc (fun h g => w.Contains g h) g) :
    w.Unringed g := by
  intro h path
  have below : Acc (fun h g => w.Contains g h) h := by
    induction path with
    | refl => exact ends
    | tail _ step ih => exact ih.inv step
  clear path
  induction below with
  | intro h _ ih =>
    intro ring
    obtain ⟨next, step, back⟩ := TransGen.head'_iff.mp ring
    exact ih next step (.tail' back step)

/-- The list of a group's bodies is the one that the loop makes. -/
theorem bodiesWithin_lists {room : Nat} {g : GroupHandle} {bodies : List BodyHandle}
    (h : w.bodiesWithin room g = .ok bodies) : w.Lists [g] bodies := by
  induction room generalizing g bodies with
  | zero => cases h
  | succ room ih =>
    have all (pending : List GroupHandle) (lists : List (List BodyHandle))
        (each : pending.mapM (w.bodiesWithin room) = .ok lists) :
        w.Lists pending lists.flatten := by
      induction pending generalizing lists with
      | nil =>
        cases each
        exact .done
      | cons first rest more =>
        obtain ⟨own, others, here, later, rfl⟩ := mapM_cons_ok_iff.mp each
        exact (ih here).append (more others later)
    rw [bodiesWithin] at h
    cases known : w.groups[g]? with
    | none => simp [known] at h
    | some group =>
      rw [known] at h
      cases nested : group.groups.reverse.mapM (w.bodiesWithin room) with
      | error e => simp [nested, bind, Except.bind] at h
      | ok lists =>
        simp only [nested, bind, Except.bind, pure, Except.pure] at h
        cases h
        refine .next known ?_
        rw [List.append_nil]
        exact all _ lists nested

/-- Handles of groups that are all different are no more than there are groups. -/
theorem length_le_of_known {handles : List Nat} {count : Nat} (different : handles.Nodup)
    (known : ∀ h ∈ handles, h < count) : handles.length ≤ count := by
  have inside : handles ⊆ List.range count := fun h member => List.mem_range.mpr (known h member)
  simpa using different.length_le_of_subset inside

/-- A group without rings below it has a list, if there is room for a path through all groups but
those above it. -/
theorem bodiesWithin_ok (linked : w.Linked) {room : Nat} {above : List GroupHandle}
    {g : GroupHandle} (known : g < w.groups.length) (unringed : w.Unringed g)
    (different : above.Nodup) (leads : ∀ a ∈ above, a < w.groups.length ∧ TransGen w.Contains a g)
    (enough : w.groups.length < above.length + room) :
    ∃ bodies, w.bodiesWithin room g = .ok bodies := by
  induction room generalizing above g with
  | zero =>
    have few := length_le_of_known different fun a member => (leads a member).1
    omega
  | succ room ih =>
    obtain ⟨group, held⟩ : ∃ group, w.groups[g]? = some group :=
      ⟨_, List.getElem?_eq_getElem known⟩
    have inner (h : GroupHandle) (member : h ∈ group.groups) :
        ∃ bodies, w.bodiesWithin room h = .ok bodies := by
      have step : w.Contains g h := ⟨group, held, member⟩
      have fresh : g ∉ above := fun again => unringed g .refl (leads g again).2
      refine ih (linked.groups step)
        (fun x path => unringed x (.head step path)) (List.nodup_cons.mpr ⟨fresh, different⟩)
        ?_ ?_
      · rw [List.forall_mem_cons]
        refine ⟨⟨known, .single step⟩, fun a member => ?_⟩
        exact ⟨(leads a member).1, (leads a member).2.tail step⟩
      · rw [List.length_cons]
        omega
    obtain ⟨lists, nested⟩ : ∃ lists, group.groups.reverse.mapM (w.bodiesWithin room) = .ok lists :=
      mapM_ok fun h member => inner h (List.mem_reverse.mp member)
    refine ⟨group.bodies ++ lists.flatten, ?_⟩
    simp only [bodiesWithin, held, nested, bind, Except.bind, pure, Except.pure]

section Linked

variable {g : GroupHandle} {bodies : List BodyHandle}

/-- The bodies of a group are listed exactly if no ring is below it. -/
theorem bodiesUnder_iff (linked : w.Linked) (known : g < w.groups.length) :
    (∃ bodies, w.bodiesUnder g = .ok bodies) ↔ w.Unringed g := by
  constructor
  · rintro ⟨bodies, listed⟩
    exact unringed_of_accessible
      ((bodiesWithin_lists listed).accessible g (List.mem_singleton_self g))
  · intro unringed
    refine bodiesWithin_ok linked known unringed List.nodup_nil (List.forall_mem_nil _) ?_
    rw [List.length_nil]
    omega

/-- The loop makes this list and comes to an end where there is one. -/
theorem lists_iff (linked : w.Linked) (known : g < w.groups.length) :
    w.Lists [g] bodies ↔ w.bodiesUnder g = .ok bodies := by
  refine ⟨fun listed => ?_, bodiesWithin_lists⟩
  have unringed := unringed_of_accessible (listed.accessible g (List.mem_singleton_self g))
  obtain ⟨others, found⟩ := (bodiesUnder_iff linked known).mpr unringed
  rw [listed.unique (bodiesWithin_lists found)]
  exact found

/-- Bodies of the world are changed one after another. -/
theorem changeBodies_ok (f : WorldBody → WorldBody) {handles : List BodyHandle}
    (held : ∀ b ∈ handles, b < w.bodies.length) :
    ∃ w', changeBodies f handles w = (.ok (), w') := by
  induction handles generalizing w with
  | nil => exact ⟨w, rfl⟩
  | cons b rest ih =>
    rw [List.forall_mem_cons] at held
    obtain ⟨w', changed⟩ := ih (w := { w with bodies := w.bodies.modify b f }) fun x member => by
      rw [List.length_modify]
      exact held.2 x member
    exact ⟨w', (bind_of_ok (changeBody_run held.1 f)).trans changed⟩

/-- A group is moved exactly if no ring is below it. -/
theorem changeBodiesUnder_iff (linked : w.Linked) (known : g < w.groups.length)
    (f : WorldBody → WorldBody) :
    (∃ w', changeBodiesUnder g f w = (.ok (), w')) ↔ w.Unringed g := by
  rw [← bodiesUnder_iff linked known]
  rw [show changeBodiesUnder g f w = _ from bind_of_ok rfl]
  cases listed : w.bodiesUnder g with
  | error e =>
    constructor
    · rintro ⟨w', moved⟩
      cases moved
    · rintro ⟨bodies, other⟩
      cases other
  | ok handles =>
    refine ⟨fun _ => ⟨handles, rfl⟩, fun _ => changeBodies_ok f ?_⟩
    exact (bodiesWithin_lists listed).known linked

/-- A call that moves a group succeeds exactly if no ring is below the group. -/
theorem moves_iff (linked : w.Linked) (known : g < w.groups.length) {call : Call}
    (moves : call.moved? = some g) :
    (∃ w', engine.perform call w = (.ok none, w')) ↔ w.Unringed g := by
  have answered (f : WorldBody → WorldBody)
      (performs : engine.perform call = (fun _ => none) <$> changeBodiesUnder g f) :
      (∃ w', engine.perform call w = (.ok none, w')) ↔ w.Unringed g := by
    rw [← changeBodiesUnder_iff linked known f, performs, map_eq_pure_bind]
    simp only [bind_ok_iff, pure_ok_iff]
    constructor
    · rintro ⟨w', _, _, moved, _, rfl⟩
      exact ⟨_, moved⟩
    · rintro ⟨w', moved⟩
      exact ⟨w', (), w', moved, trivial, rfl⟩
  cases call with
  | translateGroup | rotateGroup | scaleGroup =>
    cases moves
    exact answered _ rfl
  | _ => cases moves

end Linked

/-- Whatever is called in whatever order, groups hold only what is there. -/
theorem after_linked (calls : List Call) : (empty.after calls).Linked := by
  induction calls using List.reverseRecOn with
  | nil => exact bare_linked rfl
  | append_singleton calls call ih =>
    have last : empty.after (calls ++ [call]) = (empty.after calls).performed call :=
      List.foldl_concat ..
    rw [last]
    exact performed_linked ih call

/-- The groups of a world in which anything has been called.  No group contains itself, at any
distance, exactly if since the world was cleared last none has been put into one that it contained
already.  The loop over the groups below a group ends exactly if no ring is below it; its list is
the one of the world, and then, and only then, the calls that move the group succeed. -/
theorem traversal_ends_iff (calls : List Call) :
    ((empty.after calls).Ringless ↔ ¬ ClosesRing calls) ∧
    ∀ g < (empty.after calls).groups.length,
      ((∃ bodies, (empty.after calls).Lists [g] bodies) ↔ (empty.after calls).Unringed g) ∧
      (∀ bodies, (empty.after calls).Lists [g] bodies ↔
        (empty.after calls).bodiesUnder g = .ok bodies) ∧
      ∀ call, call.moved? = some g →
        ((∃ w', engine.perform call (empty.after calls) = (.ok none, w')) ↔
          (empty.after calls).Unringed g) := by
  refine ⟨after_ringless calls, fun g known => ?_⟩
  have linked := after_linked calls
  refine ⟨?_, fun bodies => lists_iff linked known, fun call => moves_iff linked known⟩
  rw [← bodiesUnder_iff linked known]
  exact exists_congr fun bodies => lists_iff linked known

/-- A group is put into another one. -/
def oneInAnother : List Call :=
  [.createGroup none, .createGroup none, .addGroup 1 2]

/-- The outer group has a list of its bodies and can be moved. -/
theorem oneInAnother_ends : (empty.after oneInAnother).Lists [1] [] ∧
    (empty.after oneInAnother).Unringed 1 ∧
    ∃ w', engine.perform (.translateGroup 1 ⟨1, 0⟩) (empty.after oneInAnother) =
      (.ok none, w') := by
  have known : 1 < (empty.after oneInAnother).groups.length := by decide
  obtain ⟨ends, lists, moves⟩ := (traversal_ends_iff oneInAnother).2 1 known
  have listed := (lists []).mpr rfl
  have unringed := ends.mp ⟨[], listed⟩
  exact ⟨listed, unringed, (moves (.translateGroup 1 ⟨1, 0⟩) rfl).mpr unringed⟩

/-- Then the outer group is put into the inner one. -/
def eachInTheOther : List Call :=
  oneInAnother ++ [.addGroup 2 1]

/-- That is accepted; then the group contains itself, and its bodies have no list. -/
theorem eachInTheOther_ring : ¬ (empty.after eachInTheOther).Ringless ∧
    ¬ ∃ bodies, (empty.after eachInTheOther).Lists [1] bodies := by
  have first : (empty.after eachInTheOther).Contains 1 2 := ⟨_, rfl, by decide⟩
  have second : (empty.after eachInTheOther).Contains 2 1 := ⟨_, rfl, by decide⟩
  have ring : TransGen (empty.after eachInTheOther).Contains 1 1 := .tail (.single first) second
  refine ⟨fun ringless => ringless 1 ring, ?_⟩
  rintro ⟨bodies, listed⟩
  exact unringed_of_accessible (listed.accessible 1 (List.mem_singleton_self 1)) 1 .refl ring

end World

end RigidScene
