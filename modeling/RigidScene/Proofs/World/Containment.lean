import Mathlib.Data.List.Induction
import Mathlib.Logic.Relation
import RigidScene.Proofs.World.Actions
import RigidScene.Proofs.World.Replay

/-!
Which groups contain which.

Of all calls only `addGroup` puts a group into another one, and it compares nothing but the two
handles: `performed_contains`.  So a ring comes about exactly when a group is put into one that it
contains already, at any distance, and stays until the world is cleared: `after_ringless`.
-/

namespace RigidScene.World

open Outcome Relation

/-- The group holds the other one directly. -/
def Contains (w : World) (g h : GroupHandle) : Prop :=
  ∃ group, w.groups[g]? = some group ∧ h ∈ group.groups

/-- No group contains itself, at any distance. -/
def Ringless (w : World) : Prop :=
  ∀ g, ¬ TransGen w.Contains g g

/-- The groups and bodies that groups hold are there. -/
structure Linked (w : World) : Prop where
  groups : ∀ {g h}, w.Contains g h → h < w.groups.length
  bodies : ∀ group ∈ w.groups, ∀ b ∈ group.bodies, b < w.bodies.length

/-- The world behind a call, whether the call succeeds or fails. -/
def performed (w : World) (call : Call) : World :=
  (engine.perform call w).2

/-- The world behind calls one after another, whichever of them fail. -/
def after (w : World) (calls : List Call) : World :=
  calls.foldl performed w

/-- The first group can be given the second one. -/
def Accepts (w : World) (parent child : GroupHandle) : Prop :=
  parent ≠ child ∧ parent < w.groups.length ∧ child < w.groups.length

/-- The call puts a group into one that it contains already. -/
def Closes (w : World) (call : Call) : Prop :=
  ∃ parent child, call = .addGroup parent child ∧ w.Accepts parent child ∧
    ReflTransGen w.Contains child parent

theorem contains_congr {w w' : World} (same : w'.groups.map (·.groups) = w.groups.map (·.groups))
    (g h : GroupHandle) : w'.Contains g h ↔ w.Contains g h := by
  have listed (w : World) : w.Contains g h ↔
      ∃ held, (w.groups.map (·.groups))[g]? = some held ∧ h ∈ held := by
    simp [Contains]
  rw [listed, listed, same]

/-- Bodies in groups stay known if none is put into a group and none is lost. -/
theorem Linked.bodies_of_same {w w' : World} (linked : w.Linked)
    (same : w'.groups.map (·.bodies) = w.groups.map (·.bodies))
    (count : w.bodies.length ≤ w'.bodies.length) :
    ∀ group ∈ w'.groups, ∀ b ∈ group.bodies, b < w'.bodies.length := by
  intro group member b inside
  have listed : group.bodies ∈ w'.groups.map (·.bodies) := List.mem_map_of_mem member
  rw [same] at listed
  obtain ⟨old, held, equal⟩ := List.mem_map.mp listed
  exact Nat.lt_of_lt_of_le (linked.bodies old held b (equal ▸ inside)) count

/-- Nothing is put into a group, and no body is lost. -/
structure Keeps (w w' : World) : Prop where
  groups : w'.groups.map (·.groups) = w.groups.map (·.groups)
  bodies : w'.groups.map (·.bodies) = w.groups.map (·.bodies)
  count : w.bodies.length ≤ w'.bodies.length

/-- The same groups contain the same, and what groups hold stays there. -/
structure Steady (w w' : World) : Prop where
  contains : ∀ g h, w'.Contains g h ↔ w.Contains g h
  linked : w.Linked → w'.Linked

namespace Keeps

variable {w w' w'' : World}

theorem refl (w : World) : Keeps w w :=
  ⟨rfl, rfl, Nat.le_refl _⟩

theorem trans (one : Keeps w w') (two : Keeps w' w'') : Keeps w w'' :=
  ⟨two.groups.trans one.groups, two.bodies.trans one.bodies, Nat.le_trans one.count two.count⟩

theorem length (keeps : Keeps w w') : w'.groups.length = w.groups.length := by
  simpa using congrArg List.length keeps.groups

theorem steady (keeps : Keeps w w') : Steady w w' where
  contains := contains_congr keeps.groups
  linked linked := by
    refine ⟨fun contained => ?_, linked.bodies_of_same keeps.bodies keeps.count⟩
    rw [keeps.length]
    exact linked.groups ((contains_congr keeps.groups _ _).mp contained)

end Keeps

section States

variable {α β : Type} {w : World}

theorem map_state (f : α → β) (act : Act World α) (w : World) : ((f <$> act) w).2 = (act w).2 := by
  rw [map_eq_pure_bind]
  cases ran : act w with
  | mk answer w' =>
    cases answer with
    | error e => rw [bind_of_error ran]
    | ok a => exact congrArg Prod.snd (bind_of_ok ran)

/-- What each of two actions keeps, both keep one after the other. -/
theorem bind_keeps {act : Act World α} {next : α → Act World β} (first : Keeps w (act w).2)
    (rest : ∀ a w', Keeps w' (next a w').2) : Keeps w ((act >>= next) w).2 := by
  cases ran : act w with
  | mk answer w' =>
    rw [ran] at first
    cases answer with
    | error e =>
      rw [bind_of_error ran]
      exact first
    | ok a =>
      rw [bind_of_ok ran]
      exact first.trans (rest a w')

theorem map_modify_same {p : α → β} {f : α → α} (same : ∀ a, p (f a) = p a) (as : List α)
    (i : Nat) : (as.modify i f).map p = as.map p := by
  apply List.ext_getElem?
  intro j
  rw [List.getElem?_map, List.getElem?_map, List.getElem?_modify]
  by_cases here : i = j <;> simp [here, same, Function.comp_def]

theorem changeBody_refused {handle : BodyHandle} (unknown : ¬ handle < w.bodies.length)
    (f : WorldBody → WorldBody) :
    changeBody handle f w = (.error (.engine (.unknownBody handle)), w) := by
  refine (bind_of_ok rfl).trans ?_
  rw [if_neg unknown]
  rfl

theorem changeGroup_refused {handle : GroupHandle} (unknown : ¬ handle < w.groups.length)
    (f : WorldGroup → WorldGroup) :
    changeGroup handle f w = (.error (.engine (.unknownGroup handle)), w) := by
  refine (bind_of_ok rfl).trans ?_
  rw [if_neg unknown]
  rfl

theorem changeConstraint_refused {handle : ConstraintHandle}
    (unknown : ¬ handle < w.constraints.length) (f : WorldConstraint → WorldConstraint) :
    changeConstraint handle f w = (.error (.engine (.unknownConstraint handle)), w) := by
  refine (bind_of_ok rfl).trans ?_
  rw [if_neg unknown]
  rfl

theorem changeBody_keeps (handle : BodyHandle) (f : WorldBody → WorldBody) (w : World) :
    Keeps w (changeBody handle f w).2 := by
  by_cases known : handle < w.bodies.length
  · rw [changeBody_run known]
    exact ⟨rfl, rfl, Nat.le_of_eq (List.length_modify ..).symm⟩
  · rw [changeBody_refused known]
    exact .refl w

/-- A change to a group that puts nothing into it. -/
theorem changeGroup_keeps (handle : GroupHandle) {f : WorldGroup → WorldGroup}
    (groups : ∀ group, (f group).groups = group.groups)
    (bodies : ∀ group, (f group).bodies = group.bodies) (w : World) :
    Keeps w (changeGroup handle f w).2 := by
  by_cases known : handle < w.groups.length
  · rw [changeGroup_run known]
    exact ⟨map_modify_same groups _ _, map_modify_same bodies _ _, Nat.le_refl _⟩
  · rw [changeGroup_refused known]
    exact .refl w

theorem changeConstraint_keeps (handle : ConstraintHandle) (f : WorldConstraint → WorldConstraint)
    (w : World) : Keeps w (changeConstraint handle f w).2 := by
  by_cases known : handle < w.constraints.length
  · rw [changeConstraint_run known]
    exact ⟨rfl, rfl, Nat.le_refl _⟩
  · rw [changeConstraint_refused known]
    exact .refl w

theorem changeBodies_keeps (f : WorldBody → WorldBody) (handles : List BodyHandle) (w : World) :
    Keeps w (changeBodies f handles w).2 := by
  induction handles generalizing w with
  | nil => exact .refl w
  | cons h rest ih => exact bind_keeps (changeBody_keeps h f w) fun _ w' => ih w'

theorem changeBodiesUnder_keeps (g : GroupHandle) (f : WorldBody → WorldBody) (w : World) :
    Keeps w (changeBodiesUnder g f w).2 := by
  refine bind_keeps (.refl w) fun w₀ w' => ?_
  cases w₀.bodiesUnder g with
  | error e => exact .refl w'
  | ok handles => exact changeBodies_keeps f handles w'

theorem createConstraint_refused {spec : ConstraintSpec}
    (unknown : ¬ (spec.first < w.bodies.length ∧ spec.second < w.bodies.length)) :
    ∃ e, createConstraint spec w = (.error e, w) := by
  by_cases first : spec.first < w.bodies.length
  · have second : w.bodies.length ≤ spec.second := Nat.not_lt.mp fun known => unknown ⟨first, known⟩
    refine ⟨.engine (.unknownBody spec.second), (bind_of_ok rfl).trans ?_⟩
    rw [if_neg (Nat.not_le.mpr first), if_pos second]
    rfl
  · refine ⟨.engine (.unknownBody spec.first), (bind_of_ok rfl).trans ?_⟩
    rw [if_pos (Nat.not_lt.mp first)]
    rfl

theorem createConstraint_keeps (spec : ConstraintSpec) (w : World) :
    Keeps w (createConstraint spec w).2 := by
  by_cases known : spec.first < w.bodies.length ∧ spec.second < w.bodies.length
  · rw [createConstraint_run known.1 known.2]
    exact ⟨rfl, rfl, Nat.le_refl _⟩
  · obtain ⟨e, refused⟩ := createConstraint_refused known
    rw [refused]
    exact .refl w

theorem addConstraint_keeps (g : GroupHandle) (c : ConstraintHandle) (w : World) :
    Keeps w (addConstraint g c w).2 :=
  bind_keeps (changeConstraint_keeps c _ w) fun _ => changeGroup_keeps g (by simp) (by simp)

end States

/-- A group in a list of which one element has been changed. -/
theorem mem_modify {α : Type} {as : List α} {i : Nat} {f : α → α} {a : α}
    (member : a ∈ as.modify i f) :
    a ∈ as ∨ ∃ b, as[i]? = some b ∧ a = f b := by
  obtain ⟨j, place⟩ := List.mem_iff_getElem?.mp member
  rw [List.getElem?_modify] at place
  by_cases here : i = j
  · subst here
    obtain ⟨b, held, rfl⟩ := Option.map_eq_some_iff.mp place
    exact .inr ⟨b, held, by simp⟩
  · simp only [here, if_false, id_map'] at place
    exact .inl (List.mem_of_getElem? place)

section Calls

variable {w : World}

theorem createGroup_steady (label : Option String) (w : World) :
    Steady w (createGroup label w).2 := by
  rw [createGroup_run]
  have contains (g h : GroupHandle) :
      World.Contains { w with groups := w.groups ++ [({ label } : WorldGroup)] } g h ↔
        w.Contains g h := by
    constructor
    · rintro ⟨group, place, inside⟩
      rcases Nat.lt_or_ge g w.groups.length with before | behind
      · exact ⟨group, (List.getElem?_append_left before).symm.trans place, inside⟩
      · rw [List.getElem?_append_right behind, List.getElem?_singleton] at place
        split at place
        · cases place
          cases inside
        · cases place
    · rintro ⟨group, place, inside⟩
      have before := (List.getElem?_eq_some_iff.mp place).1
      exact ⟨group, (List.getElem?_append_left before).trans place, inside⟩
  refine ⟨contains, fun linked => ⟨fun contained => ?_, fun group member b inside => ?_⟩⟩
  · have known := linked.groups ((contains _ _).mp contained)
    rw [List.length_append]
    exact Nat.lt_add_right _ known
  · rcases List.mem_append.mp member with old | new
    · exact linked.bodies group old b inside
    · cases List.mem_singleton.mp new
      cases inside

/-- A body of the world is put into a group of the world, and else nothing is put anywhere. -/
theorem addBody_cases (g : GroupHandle) (b : BodyHandle) (w : World) :
    (b < w.bodies.length ∧ (addBody g b w).2 = { w with
      bodies := w.bodies.modify b ({ · with group := some g })
      groups := w.groups.modify g fun group => { group with bodies := group.bodies ++ [b] } }) ∨
    Keeps w (addBody g b w).2 := by
  unfold addBody
  by_cases body : b < w.bodies.length
  · rw [bind_of_ok (changeBody_run body _)]
    by_cases group : g < w.groups.length
    · refine .inl ⟨body, ?_⟩
      rw [changeGroup_run]
      exact group
    · refine .inr ?_
      rw [changeGroup_refused]
      · exact ⟨rfl, rfl, Nat.le_of_eq (List.length_modify ..).symm⟩
      · exact group
  · rw [bind_of_error (changeBody_refused body _)]
    exact .inr (.refl w)

theorem addBody_steady (g : GroupHandle) (b : BodyHandle) (w : World) :
    Steady w (addBody g b w).2 := by
  rcases addBody_cases g b w with ⟨known, put⟩ | keeps
  · rw [put]
    have contains (a h : GroupHandle) : World.Contains { w with
        bodies := w.bodies.modify b ({ · with group := some g })
        groups := w.groups.modify g fun group =>
          { group with bodies := group.bodies ++ [b] } } a h ↔
          w.Contains a h := contains_congr (map_modify_same (by simp) _ _) a h
    refine ⟨contains, fun linked => ⟨fun contained => ?_, fun group member x inside => ?_⟩⟩
    · rw [List.length_modify]
      exact linked.groups ((contains _ _).mp contained)
    · rw [List.length_modify]
      rcases mem_modify member with old | ⟨before, place, rfl⟩
      · exact linked.bodies group old x inside
      · rcases List.mem_append.mp inside with held | new
        · exact linked.bodies before (List.mem_of_getElem? place) x held
        · exact List.mem_singleton.mp new ▸ known
  · exact keeps.steady

/-- A group is put into another one where that one accepts it, and else nothing is put anywhere. -/
theorem addGroup_cases (parent child : GroupHandle) (w : World) :
    (w.Accepts parent child ∧ addGroup parent child w = (.ok (), { w with
      groups := (w.groups.modify child ({ · with parent := some parent })).modify parent
        fun group => { group with groups := group.groups ++ [child] } })) ∨
    ¬ w.Accepts parent child ∧ (∃ e, (addGroup parent child w).1 = .error e) ∧
      Keeps w (addGroup parent child w).2 := by
  unfold addGroup
  by_cases same : parent = child
  · rw [if_pos same]
    exact .inr ⟨fun accepts => accepts.1 same, ⟨_, rfl⟩, .refl w⟩
  · rw [if_neg same]
    dsimp only
    by_cases inner : child < w.groups.length
    · rw [bind_of_ok (changeGroup_run inner _)]
      have count : (w.groups.modify child ({ · with parent := some parent })).length =
          w.groups.length := List.length_modify ..
      by_cases outer : parent < w.groups.length
      · rw [changeGroup_run]
        · exact .inl ⟨⟨same, outer, inner⟩, rfl⟩
        · exact count.symm ▸ outer
      · rw [changeGroup_refused]
        · refine .inr ⟨fun accepts => outer accepts.2.1, ⟨_, rfl⟩, ?_⟩
          exact ⟨map_modify_same (by simp) _ _, map_modify_same (by simp) _ _, Nat.le_refl _⟩
        · exact count.symm ▸ outer
    · rw [bind_of_error (changeGroup_refused inner _)]
      exact .inr ⟨fun accepts => inner accepts.2.2, ⟨_, rfl⟩, .refl w⟩

/-- A group that has one more group in it. -/
theorem contains_push {w' : World} {parent child : GroupHandle} (known : parent < w.groups.length)
    (put : w'.groups = w.groups.modify parent fun group =>
      { group with groups := group.groups ++ [child] }) (g h : GroupHandle) :
    w'.Contains g h ↔ w.Contains g h ∨ (parent = g ∧ child = h) := by
  simp only [Contains, put, List.getElem?_modify]
  by_cases here : parent = g
  · subst here
    simp [List.getElem?_eq_getElem known, eq_comm]
  · simp [here]

theorem addGroup_contains (parent child g h : GroupHandle) :
    (addGroup parent child w).2.Contains g h ↔
      w.Contains g h ∨ (parent = g ∧ child = h) ∧ w.Accepts parent child := by
  rcases addGroup_cases parent child w with ⟨accepts, put⟩ | ⟨refuses, _, keeps⟩
  · have named : World.Contains { w with
        groups := w.groups.modify child ({ · with parent := some parent }) } g h ↔ w.Contains g h :=
      contains_congr (map_modify_same (by simp) _ _) g h
    have pushed := contains_push (w := { w with
      groups := w.groups.modify child ({ · with parent := some parent }) })
      (by rw [List.length_modify]; exact accepts.2.1)
      (congrArg (fun answer => answer.2.groups) put) g h
    rw [pushed, named]
    exact or_congr_right (and_iff_left accepts).symm
  · rw [keeps.steady.contains]
    exact ⟨.inl, fun held => held.resolve_right fun put => refuses put.2⟩

theorem addGroup_linked (linked : w.Linked) (parent child : GroupHandle) :
    (addGroup parent child w).2.Linked := by
  rcases addGroup_cases parent child w with ⟨accepts, put⟩ | ⟨_, _, keeps⟩
  · constructor
    · intro g h contained
      rw [put, List.length_modify, List.length_modify]
      rcases (addGroup_contains parent child g h).mp contained with old | ⟨⟨_, rfl⟩, _⟩
      · exact linked.groups old
      · exact accepts.2.2
    · refine linked.bodies_of_same ?_ ?_
      · rw [put]
        exact (map_modify_same (by simp) _ _).trans (map_modify_same (by simp) _ _)
      · exact Nat.le_of_eq (congrArg (·.2.bodies.length) put.symm)
  · exact keeps.steady.linked linked

end Calls

section Steps

variable {w : World}

theorem createBody_keeps (spec : BodySpec) (w : World) : Keeps w (createBody spec w).2 := by
  rw [createBody_run]
  refine ⟨rfl, rfl, ?_⟩
  rw [List.length_append]
  exact Nat.le_add_right _ _

/-- What a call does to groups: it puts one into another one, or clears the world, or changes
nothing about which groups contain which. -/
theorem performed_cases (w : World) (call : Call) :
    (∃ parent child, call = .addGroup parent child ∧
      w.performed call = (addGroup parent child w).2) ∨
    (call = .teardown ∧ w.performed call = w.teardown) ∨
    ((∀ parent child, call ≠ .addGroup parent child) ∧ call ≠ .teardown ∧
      Steady w (w.performed call)) := by
  have state {α : Type} {act : Act World α} {f : α → Option Handle}
      (performs : engine.perform call = f <$> act) : w.performed call = (act w).2 := by
    rw [performed, performs, map_state]
  cases call with
  | addGroup parent child => exact .inl ⟨parent, child, rfl, state rfl⟩
  | teardown => exact .inr (.inl ⟨rfl, rfl⟩)
  | createBody spec =>
    exact .inr (.inr ⟨nofun, nofun, state rfl ▸ (createBody_keeps spec w).steady⟩)
  | createGroup label => exact .inr (.inr ⟨nofun, nofun, state rfl ▸ createGroup_steady label w⟩)
  | addBody g b => exact .inr (.inr ⟨nofun, nofun, state rfl ▸ addBody_steady g b w⟩)
  | translateGroup g _ | rotateGroup g _ _ | scaleGroup g _ _ =>
    exact .inr (.inr ⟨nofun, nofun, state rfl ▸ (changeBodiesUnder_keeps g _ w).steady⟩)
  | createConstraint spec =>
    exact .inr (.inr ⟨nofun, nofun, state rfl ▸ (createConstraint_keeps spec w).steady⟩)
  | addConstraint g c =>
    exact .inr (.inr ⟨nofun, nofun, state rfl ▸ (addConstraint_keeps g c w).steady⟩)

/-- Nothing is in the root of a world that has just been made or cleared. -/
theorem bare_contains (bare : w.groups = [{}]) (g h : GroupHandle) : ¬ w.Contains g h := by
  rintro ⟨group, place, inside⟩
  rw [bare, List.getElem?_singleton] at place
  split at place
  · cases place
    cases inside
  · cases place

theorem bare_linked (bare : w.groups = [{}]) : w.Linked where
  groups contained := (bare_contains bare _ _ contained).elim
  bodies group member b inside := by
    rw [bare] at member
    cases List.mem_singleton.mp member
    cases inside

/-- Only `addGroup` with a group that accepts puts a group into another one. -/
theorem performed_contains (call : Call) (g h : GroupHandle) :
    (w.performed call).Contains g h ↔
      call ≠ .teardown ∧ (w.Contains g h ∨ call = .addGroup g h ∧ w.Accepts g h) := by
  obtain ⟨parent, child, rfl, state⟩ | ⟨rfl, state⟩ | ⟨other, stays, steady⟩ :=
    performed_cases w call
  · rw [state, addGroup_contains]
    simp only [ne_eq, reduceCtorEq, not_false_eq_true, true_and, Call.addGroup.injEq]
    refine or_congr_right (and_congr_right ?_)
    rintro ⟨rfl, rfl⟩
    rfl
  · rw [state]
    exact ⟨fun held => (bare_contains rfl g h held).elim, fun held => (held.1 rfl).elim⟩
  · rw [steady.contains]
    simp [stays, other]

/-- What groups hold stays there. -/
theorem performed_linked (linked : w.Linked) (call : Call) : (w.performed call).Linked := by
  obtain ⟨parent, child, _, state⟩ | ⟨_, state⟩ | ⟨_, _, steady⟩ := performed_cases w call
  · exact state ▸ addGroup_linked linked parent child
  · exact state ▸ bare_linked rfl
  · exact steady.linked linked

end Steps

section Rings

variable {w : World}

/-- Where a group has been put into another one, a path leads through it or was there before. -/
theorem path_through {α : Type} {r s : α → α → Prop} {parent child : α}
    (more : ∀ {a b}, s a b → r a b ∨ (parent = a ∧ child = b)) {a b : α}
    (path : ReflTransGen s a b) :
    ReflTransGen r a b ∨ (ReflTransGen r a parent ∧ ReflTransGen r child b) := by
  induction path with
  | refl => exact .inl .refl
  | tail _ step ih =>
    rcases more step with old | ⟨rfl, rfl⟩
    · exact ih.imp (·.tail old) fun through => ⟨through.1, through.2.tail old⟩
    · exact .inr ⟨ih.elim id (·.1), .refl⟩

/-- A ring that is there when a group has been put into another one was there before, or the group
contained the other one. -/
theorem ring_through {α : Type} {r s : α → α → Prop} {parent child : α}
    (more : ∀ {a b}, s a b → r a b ∨ (parent = a ∧ child = b)) {a : α} (ring : TransGen s a a) :
    TransGen r a a ∨ ReflTransGen r child parent := by
  obtain ⟨b, step, path⟩ := TransGen.head'_iff.mp ring
  rcases more step with old | ⟨rfl, rfl⟩
  · rcases path_through more path with before | ⟨up, down⟩
    · exact .inl (.head' old before)
    · exact .inr ((down.tail old).trans up)
  · rcases path_through more path with before | ⟨_, down⟩
    · exact .inr before
    · exact .inr down

/-- A call leaves a world without rings exactly if it clears the world, or if there were none and
the call does not close one. -/
theorem performed_ringless (w : World) (call : Call) :
    (w.performed call).Ringless ↔ call = .teardown ∨ w.Ringless ∧ ¬ w.Closes call := by
  have contains := fun g h => performed_contains (w := w) call g h
  by_cases clears : call = .teardown
  · have ringless : (w.performed call).Ringless := by
      intro g ring
      obtain ⟨h, step, _⟩ := TransGen.head'_iff.mp ring
      exact ((contains g h).mp step).1 clears
    exact ⟨fun _ => .inl clears, fun _ => ringless⟩
  · constructor
    · intro ringless
      have old (g h : GroupHandle) (held : w.Contains g h) : (w.performed call).Contains g h :=
        (contains g h).mpr ⟨clears, .inl held⟩
      refine .inr ⟨fun g ring => ringless g (TransGen.mono old g g ring), ?_⟩
      · rintro ⟨parent, child, put, accepts, path⟩
        have step := (contains parent child).mpr ⟨clears, .inr ⟨put, accepts⟩⟩
        exact ringless parent (.head' step (ReflTransGen.mono old child parent path))
    · rintro (clear | ⟨ringless, open_⟩) g ring
      · exact clears clear
      · by_cases puts : ∃ parent child, call = .addGroup parent child ∧ w.Accepts parent child
        · obtain ⟨parent, child, rfl, accepts⟩ := puts
          have more {a b : GroupHandle}
              (held : (w.performed (.addGroup parent child)).Contains a b) :
              w.Contains a b ∨ (parent = a ∧ child = b) := by
            refine ((contains a b).mp held).2.imp_right fun put => ?_
            simpa using put.1
          rcases ring_through more ring with before | closed
          · exact ringless g before
          · exact open_ ⟨parent, child, rfl, accepts, closed⟩
        · have old (a b : GroupHandle) (held : (w.performed call).Contains a b) : w.Contains a b :=
            ((contains a b).mp held).2.resolve_right fun put => puts ⟨a, b, put⟩
          exact ringless g (TransGen.mono old g g ring)

/-- Among the calls there is one, with no clearing behind it, that puts a group into one that it
contains already. -/
def ClosesRing (calls : List Call) : Prop :=
  ∃ front call back, calls = front ++ call :: back ∧ Call.teardown ∉ back ∧
    (empty.after front).Closes call

theorem closesRing_concat (calls : List Call) (call : Call) : ClosesRing (calls ++ [call]) ↔
    call ≠ .teardown ∧ (ClosesRing calls ∨ (empty.after calls).Closes call) := by
  constructor
  · rintro ⟨front, last, back, whole, kept, closes⟩
    rcases List.eq_nil_or_concat back with rfl | ⟨back, later, rfl⟩
    · obtain ⟨rfl, same⟩ := List.append_inj' whole rfl
      cases same
      refine ⟨?_, .inr closes⟩
      rintro rfl
      obtain ⟨_, _, put, _⟩ := closes
      cases put
    · rw [List.concat_eq_append] at whole kept
      rw [← List.cons_append, ← List.append_assoc] at whole
      obtain ⟨rfl, same⟩ := List.append_inj' whole rfl
      cases same
      rw [List.mem_append, List.mem_singleton, not_or] at kept
      exact ⟨Ne.symm kept.2, .inl ⟨front, last, back, rfl, kept.1, closes⟩⟩
  · rintro ⟨stays, ⟨front, last, back, rfl, kept, closes⟩ | closes⟩
    · refine ⟨front, last, back ++ [call], by simp, ?_, closes⟩
      rw [List.mem_append, List.mem_singleton, not_or]
      exact ⟨kept, Ne.symm stays⟩
    · exact ⟨calls, call, [], rfl, List.not_mem_nil, closes⟩

/-- No group contains itself, at any distance, exactly if since the world was cleared last none has
been put into one that it contained already. -/
theorem after_ringless (calls : List Call) : (empty.after calls).Ringless ↔ ¬ ClosesRing calls := by
  induction calls using List.reverseRecOn with
  | nil =>
    have none : ¬ ClosesRing [] := by
      rintro ⟨front, call, back, whole, _⟩
      cases front <;> cases whole
    refine ⟨fun _ => none, fun _ g ring => ?_⟩
    obtain ⟨h, step, _⟩ := TransGen.head'_iff.mp ring
    exact bare_contains rfl g h step
  | append_singleton calls call ih =>
    have last : empty.after (calls ++ [call]) = (empty.after calls).performed call :=
      List.foldl_concat ..
    rw [last, performed_ringless, ih, closesRing_concat]
    tauto

end Rings

end RigidScene.World
