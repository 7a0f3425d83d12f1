import RigidScene.Proofs.World.Containment

/-!
The two sides of being in a group.

What is in a group is written down twice: it has a group, its owner, and the group has a list.
Bodies, groups and constraints are all put into groups in the same way: the owner is written first,
then the list (`perform_puts`).
-/

namespace RigidScene

/-- The kinds of things that groups hold. -/
inductive Member where
  | body
  | group
  | constraint
  deriving DecidableEq, Repr

/-- What the call puts into a group: its kind, the group, and its handle. -/
def Call.puts? : Call → Option (Member × GroupHandle × Nat)
  | addBody g b => some (.body, g, b)
  | addGroup parent child => some (.group, parent, child)
  | addConstraint g c => some (.constraint, g, c)
  | _ => none

namespace World

open Outcome

/-- The group that each thing of a kind has been put into last. -/
def owners (w : World) : Member → List (Option GroupHandle)
  | .body => w.bodies.map (·.group)
  | .group => w.groups.map (·.parent)
  | .constraint => w.constraints.map (·.group)

/-- What each group holds of a kind. -/
def members (w : World) : Member → List (List Nat)
  | .body => w.groups.map (·.bodies)
  | .group => w.groups.map (·.groups)
  | .constraint => w.groups.map (·.constraints)

/-- The world with an owner written down. -/
def assign (w : World) (g : GroupHandle) (n : Nat) : Member → World
  | .body => { w with bodies := w.bodies.modify n ({ · with group := some g }) }
  | .group => { w with groups := w.groups.modify n ({ · with parent := some g }) }
  | .constraint => { w with constraints := w.constraints.modify n ({ · with group := some g }) }

/-- The world with a new entry in the list of a group. -/
def enlist (w : World) (g : GroupHandle) (n : Nat) : Member → World
  | .body => { w with groups := w.groups.modify g fun group =>
      { group with bodies := group.bodies ++ [n] } }
  | .group => { w with groups := w.groups.modify g fun group =>
      { group with groups := group.groups ++ [n] } }
  | .constraint => { w with groups := w.groups.modify g fun group =>
      { group with constraints := group.constraints ++ [n] } }

/-- The group and the thing are there, and it is not the group itself. -/
structure Admits (w : World) (kind : Member) (g : GroupHandle) (n : Nat) : Prop where
  group : g < w.groups.length
  member : n < (w.owners kind).length
  other : kind = .group → g ≠ n

variable {w : World} {call : Call} {kind other : Member} {g : GroupHandle} {n : Nat}

theorem modify_eq_self {α : Type} {f : α → α} {as : List α} {n : Nat}
    (same : ∀ a, as[n]? = some a → f a = a) : as.modify n f = as := by
  apply List.ext_getElem?
  intro i
  rw [List.getElem?_modify]
  cases held : as[i]? with
  | none => rfl
  | some a =>
    by_cases here : n = i
    · subst here
      simp [same a held]
    · simp [here]

theorem map_modify {α β : Type} {p : α → β} {f : α → α} {h : β → β} (same : ∀ a, p (f a) = h (p a))
    (as : List α) (n : Nat) : (as.modify n f).map p = (as.map p).modify n h := by
  apply List.ext_getElem?
  intro i
  rw [List.getElem?_map, List.getElem?_modify, List.getElem?_modify, List.getElem?_map]
  by_cases here : n = i <;> simp [here, same, Function.comp_def]

theorem owners_assign : (w.assign g n kind).owners other =
    if other = kind then (w.owners other).modify n fun _ => some g else w.owners other := by
  by_cases same : other = kind
  · subst same
    rw [if_pos rfl]
    cases other <;>
    · simp only [assign, owners]
      exact map_modify (by intro; rfl) _ _
  · rw [if_neg same]
    cases kind <;> cases other <;> first | rfl | exact absurd rfl same

theorem members_assign : (w.assign g n kind).members other = w.members other := by
  cases kind <;> cases other <;> first | rfl | exact map_modify_same (by simp) _ _

theorem owners_enlist : (w.enlist g n kind).owners other = w.owners other := by
  cases kind <;> cases other <;> first | rfl | exact map_modify_same (by simp) _ _

theorem members_enlist : (w.enlist g n kind).members other =
    if other = kind then (w.members other).modify g (· ++ [n]) else w.members other := by
  by_cases same : other = kind
  · subst same
    rw [if_pos rfl]
    cases other <;>
    · simp only [enlist, members]
      exact map_modify (by intro; rfl) _ _
  · rw [if_neg same]
    cases kind <;> cases other <;>
      first | exact absurd rfl same | exact map_modify_same (by simp) _ _

theorem count_members (w : World) (kind : Member) : (w.members kind).length = w.groups.length := by
  cases kind <;> exact List.length_map ..

theorem assign_groups : (w.assign g n kind).groups.length = w.groups.length := by
  cases kind <;> simp [assign]

/-- An owner is written down if the thing is there, and then the list if the group is there. -/
theorem write_both {first second : Act World Unit} {written listed : World} {count : Nat}
    {e e' : BuildError} (owner : n < count → first w = (.ok (), written))
    (stray : ¬ n < count → first w = (.error e, w))
    (list : g < w.groups.length → second written = (.ok (), listed))
    (lost : ¬ g < w.groups.length → second written = (.error e', written)) :
    (g < w.groups.length ∧ n < count ∧ (first >>= fun _ => second) w = (.ok (), listed)) ∨
    (n < count ∧ w.groups.length ≤ g ∧
      ∃ e, (first >>= fun _ => second) w = (.error e, written)) ∨
    (¬ n < count ∧ ∃ e, (first >>= fun _ => second) w = (.error e, w)) := by
  by_cases member : n < count
  · by_cases group : g < w.groups.length
    · exact .inl ⟨group, member, (bind_of_ok (owner member)).trans (list group)⟩
    · refine .inr (.inl ⟨member, Nat.not_lt.mp group, e', ?_⟩)
      exact (bind_of_ok (owner member)).trans (lost group)
  · exact .inr (.inr ⟨member, e, bind_of_error (stray member)⟩)

theorem count_owners : (w.owners kind).length = match kind with
    | .body => w.bodies.length
    | .group => w.groups.length
    | .constraint => w.constraints.length := by
  cases kind <;> exact List.length_map ..

/-- Puts a thing of a kind into a group. -/
def put (g : GroupHandle) (n : Nat) : Member → Act World Unit
  | .body => addBody g n
  | .group => addGroup g n
  | .constraint => addConstraint g n

theorem perform_eq_put (puts : call.puts? = some (kind, g, n)) :
    engine.perform call = (fun _ => none) <$> put g n kind := by
  cases call <;> cases puts <;> rfl

/-- The three ways in which putting something into a group ends: it is put there; its owner is
written down, but there is no such group; or there is no such thing to be put there. -/
theorem put_cases (w : World) (g : GroupHandle) (n : Nat) (kind : Member) :
    (w.Admits kind g n ∧ put g n kind w = (.ok (), (w.assign g n kind).enlist g n kind)) ∨
    (n < (w.owners kind).length ∧ w.groups.length ≤ g ∧
      ∃ e, put g n kind w = (.error e, w.assign g n kind)) ∨
    (¬ (n < (w.owners kind).length ∧ (kind = .group → g ≠ n)) ∧
      ∃ e, put g n kind w = (.error e, w)) := by
  have admits (group : g < w.groups.length) (member : n < (w.owners kind).length)
      (other : kind = .group → g ≠ n) : w.Admits kind g n := ⟨group, member, other⟩
  rw [count_owners] at admits ⊢
  cases kind with
  | body =>
    have both := write_both (w := w) (n := n) (g := g)
      (changeBody_run · ({ · with group := some g })) (changeBody_refused · _)
      (changeGroup_run (w := w.assign g n .body) · fun group =>
        { group with bodies := group.bodies ++ [n] })
      (changeGroup_refused (w := w.assign g n .body) · _)
    obtain ⟨group, member, done⟩ | unknown | ⟨stray, failed⟩ := both
    · exact .inl ⟨admits group member nofun, done⟩
    · exact .inr (.inl unknown)
    · exact .inr (.inr ⟨fun known => stray known.1, failed⟩)
  | constraint =>
    have both := write_both (w := w) (n := n) (g := g)
      (changeConstraint_run · ({ · with group := some g })) (changeConstraint_refused · _)
      (changeGroup_run (w := w.assign g n .constraint) · fun group =>
        { group with constraints := group.constraints ++ [n] })
      (changeGroup_refused (w := w.assign g n .constraint) · _)
    obtain ⟨group, member, done⟩ | unknown | ⟨stray, failed⟩ := both
    · exact .inl ⟨admits group member nofun, done⟩
    · exact .inr (.inl unknown)
    · exact .inr (.inr ⟨fun known => stray known.1, failed⟩)
  | group =>
    by_cases same : g = n
    · refine .inr (.inr ⟨fun known => known.2 rfl same, .engine (.ownMember n), ?_⟩)
      rw [put, addGroup, if_pos same]
      rfl
    have count : (w.assign g n .group).groups.length = w.groups.length := assign_groups
    have both := write_both (w := w) (n := n) (g := g)
      (changeGroup_run · ({ · with parent := some g })) (changeGroup_refused · _)
      (fun known => changeGroup_run (w := w.assign g n .group) (count.symm ▸ known) fun group =>
        { group with groups := group.groups ++ [n] })
      (fun unknown => changeGroup_refused (w := w.assign g n .group) (count.symm ▸ unknown) _)
    rw [put, addGroup, if_neg same]
    obtain ⟨group, member, done⟩ | unknown | ⟨stray, failed⟩ := both
    · exact .inl ⟨admits group member fun _ => same, done⟩
    · exact .inr (.inl unknown)
    · exact .inr (.inr ⟨fun known => stray known.1, failed⟩)

/-- The same of a call. -/
theorem perform_puts (puts : call.puts? = some (kind, g, n)) (w : World) :
    (w.Admits kind g n ∧ engine.perform call w = (.ok none, (w.assign g n kind).enlist g n kind)) ∨
    (n < (w.owners kind).length ∧ w.groups.length ≤ g ∧
      ∃ e, engine.perform call w = (.error e, w.assign g n kind)) ∨
    (¬ (n < (w.owners kind).length ∧ (kind = .group → g ≠ n)) ∧
      ∃ e, engine.perform call w = (.error e, w)) := by
  rw [perform_eq_put puts]
  obtain ⟨admits, done⟩ | ⟨known, unknown, e, failed⟩ | ⟨stray, e, failed⟩ := put_cases w g n kind
  · exact .inl ⟨admits, map_of_ok done⟩
  · exact .inr (.inl ⟨known, unknown, e, map_of_error failed⟩)
  · exact .inr (.inr ⟨stray, e, map_of_error failed⟩)

end World

end RigidScene
