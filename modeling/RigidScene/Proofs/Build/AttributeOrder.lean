import Mathlib.Data.List.Nodup
import RigidScene.Build.Spec
import RigidScene.Eval.Construct

/-!
Attributes in any order.

A map of attributes keeps the order in which they were written, and what reads the map runs through
it in that order.  Yet each attribute goes to a place of its own: two steps of such a run with
different keys can be exchanged (`withAttr_comm`, `withProp_comm`), save that the further numbers of
a body come in the order of its properties and that `static` and `isStatic` name one place.  The
placement of a block looks its keys up and never sees the order.
-/

namespace RigidScene

variable {props props' : NameMap Value}

/-! ## Placements -/

namespace Transform

/-- A placement depends on what the keys are bound to only. -/
theorem ofProps_congr (same : ∀ key, props.get? key = props'.get? key) :
    ofProps props = ofProps props' := by
  simp only [ofProps, numberAt, same]

/-- The attributes that are no part of the placement stay in their order. -/
theorem split_eq (props : NameMap Value) :
    split props = (fun t => (t, ⟨props.entries.filter fun e => e.1 ∉ keys⟩)) <$> ofProps props := by
  have rest : keys.foldl NameMap.erase props = ⟨props.entries.filter fun e => e.1 ∉ keys⟩ :=
    congrArg NameMap.mk (props.entries_eraseAll keys)
  simp only [split, rest, map_eq_pure_bind]

end Transform

/-! ## Specs -/

/-- A run through entries with different keys answers the same in any order, if any two of its steps
can be exchanged. -/
theorem foldl_entries_perm {σ : Type} {step : σ → String × Value → σ}
    {entries entries' : List (String × Value)} (different : (entries.map Prod.fst).Nodup)
    (same : entries.Perm entries')
    (exchange : ∀ e ∈ entries, ∀ e' ∈ entries, e.1 ≠ e'.1 →
      ∀ s, step (step s e) e' = step (step s e') e) (s : σ) :
    entries.foldl step s = entries'.foldl step s := by
  refine same.foldl_eq' (fun e member e' member' s => ?_) s
  by_cases key : e.1 = e'.1
  · rw [List.inj_on_of_nodup_map different member member' key]
  · exact exchange e member e' member' key s

namespace ConstraintSpec

theorem withAttr_comm (spec : ConstraintSpec) {key key' : String} (other : key ≠ key')
    (v v' : Value) :
    (spec.withAttr key v).withAttr key' v' = (spec.withAttr key' v').withAttr key v := by
  unfold withAttr
  split <;> split <;> simp_all

end ConstraintSpec

namespace BodySpec

/-- The spec without the further numbers. -/
def bare (spec : BodySpec) : BodySpec :=
  { spec with extra := [] }

/-- The further number that a property is. -/
def furtherNumber? (e : String × Value) : Option (String × Float) :=
  if e.1 ∈ reserved then none else e.2.number?.map fun x => (e.1, x)

/-- Nothing else in a spec depends on the further numbers. -/
theorem bare_withProp (spec : BodySpec) (key : String) (v : Value) :
    (spec.bare.withProp key v).bare = (spec.withProp key v).bare := by
  unfold withProp
  split <;> rfl

theorem withProp_comm (spec : BodySpec) {key key' : String} (other : key ≠ key')
    (fixed : ¬ (key ∈ ["static", "isStatic"] ∧ key' ∈ ["static", "isStatic"])) (v v' : Value) :
    ((spec.withProp key v).withProp key' v').bare =
      ((spec.withProp key' v').withProp key v).bare := by
  unfold withProp
  split <;> split <;> simp_all [bare]

theorem withProp_extra (spec : BodySpec) (key : String) (v : Value) :
    (spec.withProp key v).extra = spec.extra ++ (furtherNumber? (key, v)).toList := by
  unfold withProp furtherNumber? reserved
  split <;> simp_all

theorem foldl_extra (entries : List (String × Value)) (spec : BodySpec) :
    (entries.foldl (fun spec e => spec.withProp e.1 e.2) spec).extra =
      spec.extra ++ entries.filterMap furtherNumber? := by
  induction entries generalizing spec with
  | nil => simp
  | cons e entries ih =>
    rw [List.foldl_cons, ih, withProp_extra, List.append_assoc]
    cases further : furtherNumber? e <;> simp [further]

theorem ofBody_extra (options : BuildOptions) (b : Body Value) :
    (ofBody options b).extra = b.props.entries.filterMap furtherNumber? :=
  (foldl_extra b.props.entries (plain options b)).trans (List.nil_append _)

/-- The run through the properties, up to the further numbers, is a run of its own. -/
theorem foldl_bare (entries : List (String × Value)) (spec : BodySpec) :
    (entries.foldl (fun spec e => spec.withProp e.1 e.2) spec).bare =
      entries.foldl (fun spec e => (spec.withProp e.1 e.2).bare) spec.bare :=
  (List.foldl_hom bare fun spec e => bare_withProp spec e.1 e.2).symm

end BodySpec

/-- In another order the same attributes place a block alike and leave the same ones over.  They
make the same body, of which only the further numbers stand in the order of the properties, and the
same constraint. -/
theorem attributes_unordered (different : props.names.Nodup)
    (same : props.entries.Perm props'.entries) :
    ((∃ e, Transform.split props = .error e ∧ Transform.split props' = .error e) ∨
      ∃ t rest rest', Transform.split props = .ok (t, rest) ∧
        Transform.split props' = .ok (t, rest') ∧
        rest.entries = props.entries.filter (fun e => e.1 ∉ Transform.keys) ∧
        rest'.entries = props'.entries.filter (fun e => e.1 ∉ Transform.keys)) ∧
    (∀ (options : BuildOptions) (b : Body Value),
      (¬ ("static" ∈ props.names ∧ "isStatic" ∈ props.names) →
        (BodySpec.ofBody options { b with props := props' }).bare =
          (BodySpec.ofBody options { b with props }).bare) ∧
      (BodySpec.ofBody options { b with props }).extra =
        props.entries.filterMap BodySpec.furtherNumber? ∧
      (BodySpec.ofBody options { b with props := props' }).extra =
        props'.entries.filterMap BodySpec.furtherNumber? ∧
      (BodySpec.ofBody options { b with props := props' }).extra.Perm
        (BodySpec.ofBody options { b with props }).extra) ∧
    ∀ (c : Constraint Value) (first second : BodyHandle),
      ConstraintSpec.ofConstraint { c with attrs := props' } first second =
        ConstraintSpec.ofConstraint { c with attrs := props } first second := by
  refine ⟨?placement, fun options b => ⟨fun static => ?body, ?_, ?_, ?further⟩,
    fun c first second => ?constraint⟩
  case placement =>
    have placed := Transform.ofProps_congr (NameMap.get?_of_perm different same)
    rw [Transform.split_eq, Transform.split_eq, ← placed]
    cases Transform.ofProps props with
    | error e => exact .inl ⟨e, rfl, rfl⟩
    | ok t => exact .inr ⟨t, _, _, rfl, rfl, rfl, rfl⟩
  case body =>
    unfold BodySpec.ofBody
    rw [BodySpec.foldl_bare, BodySpec.foldl_bare]
    refine (foldl_entries_perm different same (fun e member e' member' other spec => ?_) _).symm
    have named : e.1 ∈ props.names := List.mem_map_of_mem member
    have named' : e'.1 ∈ props.names := List.mem_map_of_mem member'
    rw [BodySpec.bare_withProp, BodySpec.bare_withProp]
    apply BodySpec.withProp_comm _ other
    rintro ⟨fixed, fixed'⟩
    simp only [List.mem_cons, List.not_mem_nil, or_false] at fixed fixed'
    rcases fixed with key | key <;> rcases fixed' with key' | key' <;> simp_all
  case further =>
    rw [BodySpec.ofBody_extra, BodySpec.ofBody_extra]
    exact (same.filterMap _).symm
  case constraint =>
    apply Eq.symm
    exact foldl_entries_perm different same
      (fun e _ e' _ other spec => spec.withAttr_comm other e.2 e'.2) _
  all_goals exact BodySpec.ofBody_extra options _

/-- Keys of all three readers, in an order in which none of them looks for its own. -/
def mixed : NameMap Value :=
  ⟨[("scale", .number 2), ("length", .number 4), ("angle", .number 90), ("density", .number 3),
    ("static", .bool true), ("x", .number 1), ("color", .string "red"), ("rotate", .number 45),
    ("translate", .vector ⟨10, 0⟩)]⟩

/-- The same keys from the last one to the first one. -/
def mixedBack : NameMap Value :=
  ⟨mixed.entries.reverse⟩

theorem mixed_unordered : mixed.names.Nodup ∧ mixed.entries.Perm mixedBack.entries ∧
    ¬ ("static" ∈ mixed.names ∧ "isStatic" ∈ mixed.names) ∧
    (∃ t rest rest', Transform.split mixed = .ok (t, rest) ∧
      Transform.split mixedBack = .ok (t, rest') ∧
      rest.names = ["length", "density", "static", "color"] ∧
      rest'.names = ["color", "static", "density", "length"]) ∧
    (BodySpec.ofBody {} ⟨1, .circle, ∅, mixedBack, none⟩).bare =
      (BodySpec.ofBody {} ⟨1, .circle, ∅, mixed, none⟩).bare ∧
    (BodySpec.ofBody {} ⟨1, .circle, ∅, mixed, none⟩).extra.map Prod.fst =
      ["scale", "length", "density", "x", "rotate"] ∧
    ConstraintSpec.ofConstraint ⟨2, .id 1, .spring, .label "b", mixedBack⟩ 0 1 =
      ConstraintSpec.ofConstraint ⟨2, .id 1, .spring, .label "b", mixed⟩ 0 1 := by
  have different : mixed.names.Nodup := by decide
  have same : mixed.entries.Perm mixedBack.entries := (List.reverse_perm _).symm
  have static : ¬ ("static" ∈ mixed.names ∧ "isStatic" ∈ mixed.names) := by decide
  obtain ⟨placement, bodies, constraints⟩ := attributes_unordered different same
  obtain ⟨body, further, _⟩ := bodies {} ⟨1, .circle, ∅, ∅, none⟩
  refine ⟨different, same, static, ?_, body static, ?_,
    constraints ⟨2, .id 1, .spring, .label "b", ∅⟩ 0 1⟩
  · obtain ⟨e, failed, _⟩ | ⟨t, rest, rest', ok, ok', left, left'⟩ := placement
    · cases failed
    · refine ⟨t, rest, rest', ok, ok', ?_, ?_⟩
      · rw [NameMap.names, left]
        decide
      · rw [NameMap.names, left']
        decide
  · rw [further]
    rfl

end RigidScene
