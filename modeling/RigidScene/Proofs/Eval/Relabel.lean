import RigidScene.Eval.Evaluate

/-!
What naming an entity does to a block.

`updateLast?_ok` finds the element that changes: it satisfies the predicate and nothing behind it
does.  `relabel_cases` and `declare_cases` say everything that naming can do: a body, a composite
or nothing at all changes, and of what changes only the label.
-/

namespace RigidScene

section UpdateLast

variable {α : Type} {p : α → Bool} {f : α → α}

theorem updateLast?_none_iff {as : List α} :
    updateLast? p f as = none ↔ ∀ a ∈ as, p a = false := by
  induction as with
  | nil => simp [updateLast?]
  | cons a as ih =>
    cases later : updateLast? p f as with
    | some found =>
      have some_later := mt ih.mpr (by simp [later])
      simp only [updateLast?, later, reduceCtorEq, List.mem_cons, forall_eq_or_imp, false_iff,
        not_and]
      exact fun _ => some_later
    | none =>
      have none_later := ih.mp later
      cases holds : p a with
      | true => simp [updateLast?, later, holds]
      | false => simpa [updateLast?, later, holds] using none_later

/-- The last element that satisfies the predicate is the one that changes. -/
theorem updateLast?_ok {as as' : List α} {b : α} (h : updateLast? p f as = some (b, as')) :
    ∃ front a back, as = front ++ a :: back ∧ p a = true ∧ (∀ x ∈ back, p x = false) ∧
      b = f a ∧ as' = front ++ f a :: back := by
  induction as generalizing as' with
  | nil => cases h
  | cons a as ih =>
    cases later : updateLast? p f as with
    | some found =>
      obtain ⟨c, rest⟩ := found
      simp only [updateLast?, later, Option.some.injEq, Prod.mk.injEq] at h
      obtain ⟨rfl, rfl⟩ := h
      obtain ⟨front, a₁, back, rfl, holds, last, same, rfl⟩ := ih later
      exact ⟨a :: front, a₁, back, rfl, holds, last, same, rfl⟩
    | none =>
      simp only [updateLast?, later, Option.ite_none_right_eq_some, Option.some.injEq,
        Prod.mk.injEq] at h
      obtain ⟨holds, rfl, rfl⟩ := h
      exact ⟨[], a, as, rfl, holds, updateLast?_none_iff.mp later, rfl, rfl⟩

/-- An element of the list changes, and in nothing that `f` leaves alone. -/
theorem updateLast?_mem {β : Type} {as as' : List α} {b : α}
    (h : updateLast? p f as = some (b, as')) (g : α → β) (alone : ∀ a, g (f a) = g a) :
    as'.map g = as.map g ∧ ∃ a ∈ as, p a = true ∧ b = f a := by
  obtain ⟨front, a, back, rfl, holds, _, rfl, rfl⟩ := updateLast?_ok h
  exact ⟨by simp [alone], a, by simp, holds, rfl⟩

/-- The second list is searched first. -/
theorem updateLast?_append (as bs : List α) :
    updateLast? p f (as ++ bs) = match updateLast? p f bs with
      | some (b, bs') => some (b, as ++ bs')
      | none => (updateLast? p f as).map fun found => (found.1, found.2 ++ bs) := by
  induction as with
  | nil => cases found : updateLast? p f bs <;> simp [found, updateLast?]
  | cons a as ih =>
    rw [List.cons_append, updateLast?, ih]
    cases updateLast? p f bs with
    | some found => rfl
    | none => cases later : updateLast? p f as <;> cases holds : p a <;> simp [updateLast?, *]

/-- Lists that are searched and changed alike. -/
theorem updateLast?_map {β : Type} {q : β → Bool} {h : β → β} {g : α → β}
    (search : ∀ a, q (g a) = p a) (change : ∀ a, h (g a) = g (f a)) (as : List α) :
    updateLast? q h (as.map g) =
      (updateLast? p f as).map fun found => (g found.1, found.2.map g) := by
  induction as with
  | nil => rfl
  | cons a as ih =>
    rw [List.map_cons, updateLast?, updateLast?, ih, search, change]
    cases updateLast? p f as with
    | some found => rfl
    | none => cases p a <;> rfl

end UpdateLast

/-- An entity may be named if its block does not refuse the name, whatever else is there. -/
theorem relabel_eq {env : Environment} {policy : LabelPolicy} {id : EntityId} {name : String}
    (checked : env.checkLabel policy id name = .ok ()) :
    env.relabel policy id name = .ok
      (match updateLast? (·.id = id) ({ · with label := some name }) env.bodies with
      | some (b, bodies) => ({ env with bodies }, some (.body b))
      | none =>
        match updateLast? (·.id = id) ({ · with label := some name }) env.composites with
        | some (c, composites) => ({ env with composites }, some (.composite c))
        | none => (env, none)) := by
  unfold Environment.relabel
  rw [checked]
  cases updateLast? (·.id = id) ({ · with label := some name }) env.bodies with
  | some body => rfl
  | none =>
    cases updateLast? (·.id = id) ({ · with label := some name }) env.composites with
    | some composite => rfl
    | none => rfl

/-- An entity that has been named could be named. -/
theorem relabel_checked {env env' : Environment} {policy : LabelPolicy} {id : EntityId}
    {name : String} {found : Option Value} (h : env.relabel policy id name = .ok (env', found)) :
    env.checkLabel policy id name = .ok () := by
  cases checked : env.checkLabel policy id name with
  | ok => rfl
  | error e => simp [Environment.relabel, checked, bind, Except.bind] at h

/-- Everything that naming an entity of a block can do: the last body with the number gets the name,
else the last composite with the number gets it, else nothing changes. -/
theorem relabel_cases {env env' : Environment} {policy : LabelPolicy} {id : EntityId}
    {name : String} {found : Option Value} (h : env.relabel policy id name = .ok (env', found)) :
    (∃ front b back, env.bodies = front ++ b :: back ∧ b.id = id ∧ (∀ x ∈ back, x.id ≠ id) ∧
      found = some (.body { b with label := some name }) ∧
      env' = { env with bodies := front ++ { b with label := some name } :: back }) ∨
    ((∀ b ∈ env.bodies, b.id ≠ id) ∧
      ∃ front c back, env.composites = front ++ c :: back ∧ c.id = id ∧
        (∀ x ∈ back, x.id ≠ id) ∧ found = some (.composite { c with label := some name }) ∧
        env' = { env with composites := front ++ { c with label := some name } :: back }) ∨
    ((∀ b ∈ env.bodies, b.id ≠ id) ∧ (∀ c ∈ env.composites, c.id ≠ id) ∧
      found = none ∧ env' = env) := by
  unfold Environment.relabel at h
  cases checked : env.checkLabel policy id name with
  | error e => rw [checked] at h; cases h
  | ok u =>
    rw [checked] at h
    simp only [bind, Except.bind, pure, Except.pure] at h
    split at h
    · rename_i bodies named
      obtain ⟨front, b, back, whole, own, last, rfl, rfl⟩ := updateLast?_ok named
      cases h
      exact .inl ⟨front, b, back, whole, by simpa using own, by simpa using last, rfl, rfl⟩
    · rename_i unnamed
      have no_body : ∀ b ∈ env.bodies, b.id ≠ id := by
        simpa using updateLast?_none_iff.mp unnamed
      split at h
      · rename_i composites named
        obtain ⟨front, c, back, whole, own, last, rfl, rfl⟩ := updateLast?_ok named
        cases h
        exact .inr (.inl ⟨no_body, front, c, back, whole, by simpa using own,
          by simpa using last, rfl, rfl⟩)
      · rename_i unnamed
        have no_composite : ∀ c ∈ env.composites, c.id ≠ id := by
          simpa using updateLast?_none_iff.mp unnamed
        cases h
        exact .inr (.inr ⟨no_body, no_composite, rfl, rfl⟩)

/-- Everything that a label statement can do with a value: bind it as it is, or name what it stands
for and bind that. -/
theorem declare_cases {env env' : Environment} {policy : LabelPolicy} {name : String}
    {v v' : Value} (h : env.declare policy name v = .ok (env', v')) :
    (v.unlabelled? = none ∧ v' = v ∧ env' = env.define name v) ∨
    ∃ id env₁ found, v.unlabelled? = some id ∧ env.relabel policy id name = .ok (env₁, found) ∧
      v' = found.getD (v.withLabel name) ∧ env' = env₁.define name v' := by
  unfold Environment.declare at h
  cases carried : v.unlabelled? with
  | none =>
    rw [carried] at h
    cases h
    exact .inl ⟨rfl, rfl, rfl⟩
  | some id =>
    rw [carried] at h
    cases relabelled : env.relabel policy id name with
    | error e => simp [relabelled, bind, Except.bind] at h
    | ok answer =>
      simp only [relabelled, bind, Except.bind, pure, Except.pure] at h
      cases h
      exact .inr ⟨id, answer.1, answer.2, rfl, relabelled, rfl, rfl⟩

/-- Relabelling touches nothing but bodies and composites. -/
theorem relabel_frame {env env' : Environment} {policy : LabelPolicy} {id : EntityId}
    {name : String} {v : Option Value} (h : env.relabel policy id name = .ok (env', v)) :
    env'.labels = env.labels ∧ env'.constraints = env.constraints ∧ env'.depth = env.depth := by
  obtain ⟨_, _, _, _, _, _, _, rfl⟩ | ⟨_, _, _, _, _, _, _, _, rfl⟩ | ⟨_, _, _, rfl⟩ :=
    relabel_cases h
  · exact ⟨rfl, rfl, rfl⟩
  · exact ⟨rfl, rfl, rfl⟩
  · exact ⟨rfl, rfl, rfl⟩

/-- A label statement binds the name, and no other. -/
theorem declare_labels_eq {env env' : Environment} {policy : LabelPolicy} {name : String}
    {v v' : Value} (h : env.declare policy name v = .ok (env', v')) :
    env'.labels = env.labels.insert name v' := by
  obtain ⟨_, rfl, rfl⟩ | ⟨_, _, _, _, relabelled, rfl, rfl⟩ := declare_cases h
  · rfl
  · exact congrArg (NameMap.insert · name _) (relabel_frame relabelled).1

theorem declare_depth {env env' : Environment} {policy : LabelPolicy} {name : String}
    {v v' : Value} (h : env.declare policy name v = .ok (env', v')) : env'.depth = env.depth := by
  obtain ⟨_, _, rfl⟩ | ⟨_, _, _, _, relabelled, _, rfl⟩ := declare_cases h
  · rfl
  · exact (relabel_frame relabelled).2.2

end RigidScene
