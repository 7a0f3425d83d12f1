import Mathlib.Data.List.Basic
import RigidScene.Proofs.Build.Layout

/-!
What the index knows after bodies have been entered one after another.

Of the bodies with one label the first keeps it, and of the bodies with one number the last has it:
so an index finds what `Endpoint.locate?` finds in the list of bodies.
-/

namespace RigidScene

namespace BodyIndex

variable {V : Type}

/-- Enters bodies with handles that count up. -/
def enterAll (index : BodyIndex) (first : Nat) : List (Body V) → BodyIndex
  | [] => index
  | b :: bodies => enterAll (index.insert b first) (first + 1) bodies

theorem enterAll_append (index : BodyIndex) (first : Nat) (front back : List (Body V)) :
    index.enterAll first (front ++ back) =
      (index.enterAll first front).enterAll (first + front.length) back := by
  induction front generalizing index first with
  | nil => rfl
  | cons b front ih =>
    rw [List.cons_append, enterAll, ih, enterAll, List.length_cons]
    congr 1
    omega

theorem lookup_filter_ne (id other : EntityId) (ids : List (EntityId × BodyHandle))
    (apart : other ≠ id) : (ids.filter (·.1 ≠ id)).lookup other = ids.lookup other := by
  induction ids with
  | nil => rfl
  | cons entry ids ih =>
    obtain ⟨n, h⟩ := entry
    by_cases same : n = id
    · subst same
      have skipped : (other == n) = false := by simpa using apart
      simpa [List.lookup_cons, skipped] using ih
    · have kept : ((n, h) :: ids).filter (·.1 ≠ id) = (n, h) :: ids.filter (·.1 ≠ id) := by
        simp [same]
      rw [kept, List.lookup_cons, List.lookup_cons, ih]

theorem ofId?_insert (index : BodyIndex) (b : Body V) (handle : BodyHandle) (n : EntityId) :
    (index.insert b handle).ofId? n = if b.id = n then some handle else index.ofId? n := by
  by_cases same : b.id = n
  · simp [insert, enter, ofId?, same]
  · have skipped : (n == b.id) = false := by simpa using Ne.symm same
    simp only [insert, enter, ofId?, List.lookup_cons, skipped, if_neg same]
    exact lookup_filter_ne b.id n index.ids (Ne.symm same)

theorem ofLabel?_insert (index : BodyIndex) (b : Body V) (handle : BodyHandle) (name : String) :
    (index.insert b handle).ofLabel? name =
      (index.ofLabel? name).or (if b.label = some name then some handle else none) := by
  unfold insert enter ofLabel?
  cases carried : b.label with
  | none => simp
  | some label =>
    cases known : index.labels.get? label with
    | some earlier =>
      have taken : index.labels.contains label = true := by simp [NameMap.contains, known]
      by_cases same : label = name
      · subst same
        simp [taken, known]
      · simp [taken, same]
    | none =>
      have free : index.labels.contains label = false := by simp [NameMap.contains, known]
      by_cases same : label = name
      · subst same
        simp [free, NameMap.get?_insert, known]
      · simp [free, NameMap.get?_insert, same, Ne.symm same]

theorem ofId?_enterAll (index : BodyIndex) (first : Nat) (bodies : List (Body V))
    (n : EntityId) : (index.enterAll first bodies).ofId? n =
      (((bodies.zipIdx first).reverse.find? (·.1.id = n)).map Prod.snd).or (index.ofId? n) := by
  induction bodies generalizing index first with
  | nil => rfl
  | cons b bodies ih =>
    rw [enterAll, ih, ofId?_insert, List.zipIdx_cons, List.reverse_cons, List.find?_append]
    cases (bodies.zipIdx (first + 1)).reverse.find? (·.1.id = n) with
    | some found => rfl
    | none => by_cases same : b.id = n <;> simp [same]

theorem ofLabel?_enterAll (index : BodyIndex) (first : Nat) (bodies : List (Body V))
    (name : String) : (index.enterAll first bodies).ofLabel? name =
      (index.ofLabel? name).or
        (((bodies.zipIdx first).find? (·.1.label = some name)).map Prod.snd) := by
  induction bodies generalizing index first with
  | nil => simp [enterAll]
  | cons b bodies ih =>
    rw [enterAll, ih, ofLabel?_insert, List.zipIdx_cons, List.find?_cons, Option.or_assoc]
    by_cases same : b.label = some name <;> simp [same]

/-- The index of a list of bodies finds what the list has. -/
theorem resolve?_enterAll (bodies : List (Body V)) (e : Endpoint) :
    (empty.enterAll 0 bodies).resolve? e = e.locate? bodies := by
  cases e with
  | id n => simpa [resolve?, Endpoint.locate?, ofId?, empty] using ofId?_enterAll empty 0 bodies n
  | label name =>
    have unknown : empty.ofLabel? name = none := rfl
    simpa [resolve?, Endpoint.locate?, unknown] using ofLabel?_enterAll empty 0 bodies name

end BodyIndex

/-- What is found is one of the bodies. -/
theorem Endpoint.locate?_lt {V : Type} {bodies : List (Body V)} {e : Endpoint} {handle : BodyHandle}
    (found : e.locate? bodies = some handle) : handle < bodies.length := by
  have bound {entry : Body V × Nat} (member : entry ∈ bodies.zipIdx) : entry.2 < bodies.length := by
    have := List.snd_lt_add_of_mem_zipIdx member
    omega
  cases e with
  | id n =>
    obtain ⟨entry, chosen, rfl⟩ := Option.map_eq_some_iff.mp found
    exact bound (List.mem_reverse.mp (List.mem_of_find?_eq_some chosen))
  | label name =>
    obtain ⟨entry, chosen, rfl⟩ := Option.map_eq_some_iff.mp found
    exact bound (List.mem_of_find?_eq_some chosen)

section Found

variable {V : Type} {bodies : List (Body V)} {b : Body V}

/-- A number that one body has leads to this body. -/
theorem Endpoint.locate?_id (member : b ∈ bodies) (only : ∀ x ∈ bodies, x.id = b.id → x = b) :
    ∃ handle, (Endpoint.id b.id).locate? bodies = some handle ∧ bodies[handle]? = some b := by
  obtain ⟨i, place⟩ := List.mem_iff_getElem?.mp member
  have listed : (b, i) ∈ bodies.zipIdx.reverse :=
    List.mem_reverse.mpr (List.mem_zipIdx_iff_getElem?.mpr place)
  have some_found : (bodies.zipIdx.reverse.find? (·.1.id = b.id)).isSome :=
    List.find?_isSome.mpr ⟨_, listed, decide_eq_true rfl⟩
  obtain ⟨⟨x, handle⟩, chosen⟩ := Option.isSome_iff_exists.mp some_found
  have own : x.id = b.id := by simpa using List.find?_some chosen
  have held : bodies[handle]? = some x :=
    List.mem_zipIdx_iff_getElem?.mp (List.mem_reverse.mp (List.mem_of_find?_eq_some chosen))
  rw [only x (List.mem_of_getElem? held) own] at held
  exact ⟨handle, congrArg (Option.map Prod.snd) chosen, held⟩

/-- A label leads to the first body that carries it. -/
theorem Endpoint.locate?_label {name : String}
    (first : bodies.find? (·.label = some name) = some b) :
    ∃ handle, (Endpoint.label name).locate? bodies = some handle ∧ bodies[handle]? = some b := by
  have plain : bodies.zipIdx.map Prod.fst = bodies := List.zipIdx_map_fst 0 bodies
  rw [← plain, List.find?_map] at first
  obtain ⟨⟨x, handle⟩, chosen, rfl⟩ := Option.map_eq_some_iff.mp first
  have held := List.mem_zipIdx_iff_getElem?.mp (List.mem_of_find?_eq_some chosen)
  exact ⟨handle, congrArg (Option.map Prod.snd) chosen, held⟩

end Found

end RigidScene
