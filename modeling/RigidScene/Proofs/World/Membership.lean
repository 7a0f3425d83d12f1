import RigidScene.Proofs.World.Links
import RigidScene.Proofs.World.Traversal

/-!
Owners and lists that agree.

The owner of a thing is the group that it was put into last, and the list of a group is all that was
ever put into it: nothing is taken out of a group again (`Records`).  So the two agree exactly as
long as nothing is put into a group twice, be it the same group or another one.  Every call keeps
the records (`performed_records`).
-/

namespace RigidScene

open Outcome

/-- The group and the handle, if the call puts a thing of this kind into a group. -/
def Call.entry? (call : Call) (kind : Member) : Option (GroupHandle × Nat) :=
  match call.puts? with
  | some (other, entry) => if other = kind then some entry else none
  | none => none

/-- What has been put into groups behind a call: clearing the world takes everything out. -/
def Call.log (kind : Member) (entries : List (GroupHandle × Nat)) : Call → List (GroupHandle × Nat)
  | .teardown => []
  | call => entries ++ (call.entry? kind).toList

/-- What has been put into which group since the world was cleared last, in this order. -/
def Call.entries (kind : Member) (calls : List Call) : List (GroupHandle × Nat) :=
  calls.foldl (Call.log kind) []

/-- What a call that moves a group does to each body below it. -/
def Call.motion : Call → WorldBody → WorldBody
  | translateGroup _ offset => WorldBody.translate offset
  | rotateGroup _ radians about => WorldBody.rotate radians about
  | scaleGroup _ factor about => WorldBody.scaleBy factor about
  | _ => id

theorem Call.motion_group (call : Call) (b : WorldBody) : (call.motion b).group = b.group := by
  cases call <;> rfl

namespace World

/-- A thing of this kind has the group for its owner exactly if the group lists it; there it stands
once, and in the list of no other group. -/
structure Consistent (w : World) (kind : Member) : Prop where
  listed : ∀ (n : Nat) (g : GroupHandle), (w.owners kind)[n]? = some (some g) ↔
    ∃ held, (w.members kind)[g]? = some held ∧ n ∈ held
  once : ∀ held ∈ w.members kind, held.Nodup
  alone : ∀ {g h : GroupHandle} {held held' : List Nat}, (w.members kind)[g]? = some held →
    (w.members kind)[h]? = some held' → ∀ n ∈ held, n ∈ held' → g = h

/-- Owners and lists are what these entries make of them, one after another. -/
structure Records (w : World) (kind : Member) (entries : List (GroupHandle × Nat)) : Prop where
  known : ∀ e ∈ entries, e.1 < w.groups.length ∧ e.2 < (w.owners kind).length
  owner : ∀ {n : Nat} {owner}, (w.owners kind)[n]? = some owner →
    owner = (entries.reverse.find? (·.2 = n)).map Prod.fst
  held : ∀ {g : GroupHandle} {held}, (w.members kind)[g]? = some held →
    held = (entries.filter (·.1 = g)).map Prod.snd

namespace Records

variable {w w' : World} {kind other : Member} {entries : List (GroupHandle × Nat)}
  {g : GroupHandle} {n : Nat}

/-- A world with nothing in its groups. -/
theorem bare (owners : ∀ owner ∈ w.owners kind, owner = none)
    (members : ∀ held ∈ w.members kind, held = []) : Records w kind [] where
  known := List.forall_mem_nil _
  owner held := owners _ (List.mem_of_getElem? held)
  held held := members _ (List.mem_of_getElem? held)

/-- New things are in no group, and new groups are empty. -/
theorem grow {a b : Nat} (records : Records w kind entries)
    (owners : w'.owners kind = w.owners kind ++ List.replicate a none)
    (members : w'.members kind = w.members kind ++ List.replicate b []) :
    Records w' kind entries where
  known e member := by
    obtain ⟨group, thing⟩ := records.known e member
    rw [← count_members w kind] at group
    rw [← count_members w' kind]
    rw [owners, members, List.length_append, List.length_append]
    exact ⟨Nat.lt_add_right _ group, Nat.lt_add_right _ thing⟩
  owner := by
    intro n owner held
    rw [owners] at held
    by_cases old : n < (w.owners kind).length
    · rw [List.getElem?_append_left old] at held
      exact records.owner held
    · rw [List.getElem?_append_right (Nat.not_lt.mp old)] at held
      rw [List.eq_of_mem_replicate (List.mem_of_getElem? held)]
      have fresh : entries.reverse.find? (·.2 = n) = none := by
        rw [List.find?_eq_none]
        intro e member same
        rw [List.mem_reverse] at member
        exact old (of_decide_eq_true same ▸ (records.known e member).2)
      rw [fresh]
      rfl
  held := by
    intro g held there
    rw [members] at there
    by_cases old : g < (w.members kind).length
    · rw [List.getElem?_append_left old] at there
      exact records.held there
    · rw [List.getElem?_append_right (Nat.not_lt.mp old)] at there
      rw [List.eq_of_mem_replicate (List.mem_of_getElem? there)]
      have fresh : entries.filter (·.1 = g) = [] := by
        rw [List.filter_eq_nil_iff]
        intro e member same
        rw [count_members] at old
        exact old (of_decide_eq_true same ▸ (records.known e member).1)
      rw [fresh]
      rfl

/-- A thing that is put into a group is one more entry. -/
theorem put (records : Records w kind entries) (admits : w.Admits kind g n) :
    Records ((w.assign g n kind).enlist g n kind) kind (entries ++ [(g, n)]) := by
  have owners : ((w.assign g n kind).enlist g n kind).owners kind = _ :=
    owners_enlist.trans (owners_assign.trans (if_pos rfl))
  have members : ((w.assign g n kind).enlist g n kind).members kind =
      (w.members kind).modify g (· ++ [n]) := by
    rw [members_enlist, if_pos rfl, members_assign]
  constructor
  · rw [← count_members _ kind, owners, members, List.length_modify, List.length_modify,
      count_members]
    simp only [List.forall_mem_append, List.forall_mem_singleton]
    exact ⟨records.known, admits.group, admits.member⟩
  · intro m owner held
    rw [owners, List.getElem?_modify] at held
    rw [List.reverse_append, List.reverse_singleton, List.singleton_append, List.find?_cons]
    by_cases here : n = m
    · subst here
      rw [List.getElem?_eq_getElem admits.member] at held
      simpa [eq_comm] using held
    · simp only [here, if_false, decide_false] at held ⊢
      exact records.owner (by simpa using held)
  · intro h held there
    rw [members, List.getElem?_modify] at there
    rw [List.filter_append, List.map_append]
    by_cases here : g = h
    · subst here
      obtain ⟨before, listed, rfl⟩ : ∃ before, (w.members kind)[g]? = some before ∧
          before ++ [n] = held := by simpa using there
      simp [records.held listed]
    · have before : (w.members kind)[h]? = some held := by simpa [here] using there
      refine (records.held before).trans ?_
      simp [here]

/-- What is put into a group of one kind is no entry of another kind. -/
theorem put_other (records : Records w other entries) (apart : other ≠ kind) :
    Records ((w.assign g n kind).enlist g n kind) other entries := by
  refine records.grow (a := 0) (b := 0) ?_ ?_
  · rw [owners_enlist, owners_assign, if_neg apart, List.replicate_zero, List.append_nil]
  · rw [members_enlist, if_neg apart, members_assign, List.replicate_zero, List.append_nil]

/-- What is listed in a group has been put there. -/
theorem mem_held (records : Records w kind entries) {held : List Nat}
    (there : (w.members kind)[g]? = some held) : n ∈ held ↔ (g, n) ∈ entries := by
  rw [records.held there]
  simp [List.mem_map, List.mem_filter, Prod.exists]

/-- Every group has a list. -/
theorem listed (known : g < w.groups.length) (kind : Member) :
    ∃ held, (w.members kind)[g]? = some held := by
  rw [← count_members w kind] at known
  exact ⟨_, List.getElem?_eq_getElem known⟩

/-- If owners and lists agree, nothing has been put into a group twice. -/
theorem nodup (records : Records w kind entries) (consistent : w.Consistent kind) :
    (entries.map Prod.snd).Nodup := by
  rw [List.Nodup, List.pairwise_map, List.pairwise_iff_forall_sublist]
  rintro ⟨g, n⟩ ⟨h, m⟩ both (rfl : n = m)
  have first := both.subset (List.mem_cons_self ..)
  have second := both.subset (List.mem_cons_of_mem _ (List.mem_cons_self ..))
  obtain ⟨held, there⟩ := listed (records.known _ first).1 kind
  obtain ⟨held', there'⟩ := listed (records.known _ second).1 kind
  obtain rfl : g = h := consistent.alone there there' n ((records.mem_held there).mpr first)
    ((records.mem_held there').mpr second)
  have twice : [n, n].Sublist held := by
    rw [records.held there]
    simpa using (both.filter (·.1 = g)).map Prod.snd
  have once := (consistent.once held (List.mem_of_getElem? there)).sublist twice
  simp at once

/-- If nothing has been put into a group twice, the last entry of a thing is its only one. -/
theorem find?_iff (once : (entries.map Prod.snd).Nodup) {e : GroupHandle × Nat} :
    entries.reverse.find? (·.2 = n) = some e ↔ e ∈ entries ∧ e.2 = n := by
  constructor
  · intro found
    have put := List.mem_reverse.mp (List.mem_of_find?_eq_some found)
    exact ⟨put, by simpa using List.find?_some found⟩
  · rintro ⟨member, rfl⟩
    have some : (entries.reverse.find? (·.2 = e.2)).isSome = true :=
      List.find?_isSome.mpr ⟨e, List.mem_reverse.mpr member, decide_eq_true rfl⟩
    obtain ⟨last, found⟩ := Option.isSome_iff_exists.mp some
    have same : last.2 = e.2 := by simpa using List.find?_some found
    have put := List.mem_reverse.mp (List.mem_of_find?_eq_some found)
    rw [found, List.inj_on_of_nodup_map once put member same]

/-- Then the owner of a thing is the group that it was put into. -/
theorem owner_iff (records : Records w kind entries) (once : (entries.map Prod.snd).Nodup) :
    (w.owners kind)[n]? = some (some g) ↔ (g, n) ∈ entries := by
  constructor
  · intro owner
    obtain ⟨e, found, rfl⟩ := Option.map_eq_some_iff.mp (records.owner owner).symm
    obtain ⟨member, rfl⟩ := (find?_iff once).mp found
    exact member
  · intro member
    have known := List.getElem?_eq_getElem (records.known _ member).2
    rw [known, records.owner known, (find?_iff once).mpr ⟨member, rfl⟩]
    rfl

/-- Owners and lists agree exactly if nothing has been put into a group twice. -/
theorem consistent_iff (records : Records w kind entries) :
    w.Consistent kind ↔ (entries.map Prod.snd).Nodup := by
  refine ⟨records.nodup, fun once => ?_⟩
  constructor
  · intro n g
    rw [records.owner_iff once]
    constructor
    · intro member
      obtain ⟨held, there⟩ := listed (records.known _ member).1 kind
      exact ⟨held, there, (records.mem_held there).mpr member⟩
    · rintro ⟨held, there, inside⟩
      exact (records.mem_held there).mp inside
  · intro held member
    obtain ⟨g, there⟩ := List.mem_iff_getElem?.mp member
    rw [records.held there]
    exact once.sublist (List.filter_sublist.map _)
  · intro g h held held' there there' n inside inside'
    have one := (records.mem_held there).mp inside
    have two := (records.mem_held there').mp inside'
    exact congrArg Prod.fst (List.inj_on_of_nodup_map once one two rfl)

end Records

section Calls

variable {w w' : World} {kind : Member} {entries : List (GroupHandle × Nat)} {call : Call}
  {made : Option Handle}

/-- A change of bodies that leaves each in its group leaves all owners and lists. -/
theorem changeBodies_links {f : WorldBody → WorldBody} (same : ∀ b, (f b).group = b.group)
    (handles : List BodyHandle) (w : World) (kind : Member) :
    (changeBodies f handles w).2.owners kind = w.owners kind ∧
      (changeBodies f handles w).2.members kind = w.members kind := by
  induction handles generalizing w with
  | nil => exact ⟨rfl, rfl⟩
  | cons h rest ih =>
    by_cases known : h < w.bodies.length
    · rw [show changeBodies f (h :: rest) w = _ from bind_of_ok (changeBody_run known f)]
      obtain ⟨owners, members⟩ := ih { w with bodies := w.bodies.modify h f }
      refine ⟨owners.trans ?_, members.trans ?_⟩
      · cases kind with
        | body => exact map_modify_same same _ _
        | group | constraint => rfl
      · cases kind <;> rfl
    · rw [show changeBodies f (h :: rest) w = _ from bind_of_error (changeBody_refused known f)]
      exact ⟨rfl, rfl⟩

theorem changeBodiesUnder_links {f : WorldBody → WorldBody} (same : ∀ b, (f b).group = b.group)
    (g : GroupHandle) (w : World) (kind : Member) :
    (changeBodiesUnder g f w).2.owners kind = w.owners kind ∧
      (changeBodiesUnder g f w).2.members kind = w.members kind := by
  rw [show changeBodiesUnder g f w = _ from bind_of_ok rfl]
  cases w.bodiesUnder g with
  | error e => exact ⟨rfl, rfl⟩
  | ok handles => exact changeBodies_links same handles w kind

theorem perform_eq_move {g : GroupHandle} (moves : call.moved? = some g) :
    engine.perform call = (fun _ => none) <$> changeBodiesUnder g call.motion := by
  cases call <;> cases moves <;> rfl

theorem moved_state {g : GroupHandle} (moves : call.moved? = some g)
    (performed : engine.perform call w = (.ok made, w')) :
    (changeBodiesUnder g call.motion w).2 = w' := by
  rw [← map_state (fun _ => (none : Option Handle)), ← perform_eq_move moves, performed]

/-- A call that neither puts anything into a group nor clears the world at most makes new things
that are in no group, and new groups with nothing in them. -/
theorem performed_grows (puts : call.puts? = none) (stays : call ≠ .teardown)
    (performed : engine.perform call w = (.ok made, w')) (kind : Member) :
    ∃ a b, w'.owners kind = w.owners kind ++ List.replicate a none ∧
      w'.members kind = w.members kind ++ List.replicate b [] := by
  have unchanged (w' : World) (owners : w'.owners kind = w.owners kind)
      (members : w'.members kind = w.members kind) : ∃ a b,
      w'.owners kind = w.owners kind ++ List.replicate a none ∧
        w'.members kind = w.members kind ++ List.replicate b [] :=
    ⟨0, 0, by simp [owners], by simp [members]⟩
  cases call with
  | addBody | addGroup | addConstraint => cases puts
  | teardown => exact absurd rfl stays
  | createBody =>
    cases performed
    cases kind with
    | body => exact ⟨1, 0, by simp [owners, WorldBody.ofSpec], by simp [members]⟩
    | group | constraint => exact unchanged _ rfl rfl
  | createGroup =>
    cases performed
    cases kind with
    | group => exact ⟨1, 1, by simp [owners], by simp [members]⟩
    | body | constraint => exact ⟨0, 1, by simp [owners], by simp [members]⟩
  | createConstraint spec =>
    by_cases known : spec.first < w.bodies.length ∧ spec.second < w.bodies.length
    · cases (map_of_ok (createConstraint_run known.1 known.2)).symm.trans performed
      cases kind with
      | constraint => exact ⟨1, 0, by simp [owners], by simp [members]⟩
      | body | group => exact unchanged _ rfl rfl
    · obtain ⟨_, refused⟩ := createConstraint_refused known
      cases (map_of_error refused).symm.trans performed
  | translateGroup | rotateGroup | scaleGroup =>
    obtain ⟨owners, members⟩ := changeBodiesUnder_links (Call.motion_group _) _ w kind
    have state := moved_state rfl performed
    exact unchanged w' (state ▸ owners) (state ▸ members)

theorem log_eq (stays : call ≠ .teardown) :
    call.log kind entries = entries ++ (call.entry? kind).toList := by
  cases call <;> first | rfl | exact absurd rfl stays

/-- What a call makes of owners and lists. -/
theorem performed_records (records : Records w kind entries)
    (performed : engine.perform call w = (.ok made, w')) :
    Records w' kind (call.log kind entries) := by
  by_cases clears : call = .teardown
  · subst clears
    cases performed
    exact .bare (by cases kind <;> simp [owners, engine, teardown])
      (by cases kind <;> simp [members, engine, teardown])
  rw [log_eq clears, Call.entry?]
  cases puts : call.puts? with
  | none =>
    obtain ⟨a, b, owners, members⟩ := performed_grows puts clears performed kind
    simpa using records.grow owners members
  | some entry =>
    obtain ⟨other, g, n⟩ := entry
    obtain ⟨admits, done⟩ | ⟨_, _, _, failed⟩ | ⟨_, _, failed⟩ := perform_puts puts w
    · cases done.symm.trans performed
      by_cases same : other = kind
      · subst same
        simpa using records.put admits
      · simpa [same] using records.put_other (Ne.symm same)
    · cases failed.symm.trans performed
    · cases failed.symm.trans performed

/-- What calls that all succeed make of owners and lists. -/
theorem replay_records {calls : List Call} {hs : List Handle} (records : Records w kind entries)
    (succeeded : engine.replay calls w = (.ok hs, w')) :
    Records w' kind (calls.foldl (Call.log kind) entries) := by
  induction calls generalizing w entries hs with
  | nil =>
    obtain ⟨_, rfl⟩ := pure_ok_iff.mp succeeded
    exact records
  | cons call rest ih =>
    simp only [Engine.replay, bind_ok_iff] at succeeded
    obtain ⟨_, mid, performed, _, _, later, ended⟩ := succeeded
    obtain ⟨_, rfl⟩ := pure_ok_iff.mp ended
    exact ih (performed_records records performed) later

theorem empty_records (kind : Member) : Records empty kind [] :=
  .bare (by cases kind <;> simp [owners, empty]) (by cases kind <;> simp [members, empty])

end Calls

end World

end RigidScene
