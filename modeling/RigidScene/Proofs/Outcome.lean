/-!
Actions that change a state and may fail.

An action made of two succeeds exactly when the first one does and then the second one, from the
state that the first one reached; it fails with the error of the first one that fails.
-/

namespace RigidScene.Outcome

variable {ε σ α β : Type} {s s' : σ}

/-- What an action answers, as a pair of its answer and the state that it reached. -/
def outcome (x : ExceptT ε (StateM σ) α) (s : σ) : Except ε α × σ :=
  x s

theorem eq_ok_iff {x : ExceptT ε (StateM σ) α} {a : α} :
    x s = (.ok a, s') ↔ outcome x s = (.ok a, s') := Iff.rfl

/-- An action whose first part is known goes on from there. -/
theorem bind_of_ok {x : ExceptT ε (StateM σ) α} {f : α → ExceptT ε (StateM σ) β} {a : α}
    (first : x s = (.ok a, s')) : (x >>= f) s = f a s' := by
  show ExceptT.bindCont f (x s).1 (x s).2 = _
  rw [first]
  rfl

/-- An action whose first part fails ends there. -/
theorem bind_of_error {x : ExceptT ε (StateM σ) α} {f : α → ExceptT ε (StateM σ) β} {e : ε}
    (first : x s = (.error e, s')) : (x >>= f) s = (.error e, s') := by
  show ExceptT.bindCont f (x s).1 (x s).2 = _
  rw [first]
  rfl

theorem map_of_ok {x : ExceptT ε (StateM σ) α} {f : α → β} {a : α} (ran : x s = (.ok a, s')) :
    (f <$> x) s = (.ok (f a), s') := by
  rw [map_eq_pure_bind]
  exact bind_of_ok ran

theorem map_of_error {x : ExceptT ε (StateM σ) α} {f : α → β} {e : ε}
    (failed : x s = (.error e, s')) : (f <$> x) s = (.error e, s') := by
  rw [map_eq_pure_bind]
  exact bind_of_error failed

theorem map_error {x : ExceptT ε (StateM σ) α} {f : α → β} {e : ε}
    (failed : (f <$> x) s = (.error e, s')) : x s = (.error e, s') := by
  rcases ran : x s with ⟨e' | a, mid⟩
  · rw [map_of_error ran] at failed
    cases failed
    rfl
  · rw [map_of_ok ran] at failed
    cases failed

theorem bind_ok_iff {x : ExceptT ε (StateM σ) α} {f : α → ExceptT ε (StateM σ) β} {b : β} :
    (x >>= f) s = (.ok b, s') ↔ ∃ a mid, x s = (.ok a, mid) ∧ f a mid = (.ok b, s') := by
  have unfolded : outcome (x >>= f) s = match outcome x s with
      | (.ok a, mid) => outcome (f a) mid
      | (.error e, mid) => (.error e, mid) := by
    cases first : outcome x s with
    | mk answer mid =>
      cases answer with
      | error e => exact bind_of_error first
      | ok a => exact bind_of_ok first
  simp only [eq_ok_iff, unfolded]
  cases outcome x s with
  | mk answer mid => cases answer <;> simp [and_assoc]

theorem bind_error_iff {x : ExceptT ε (StateM σ) α} {f : α → ExceptT ε (StateM σ) β} {e : ε} :
    (x >>= f) s = (.error e, s') ↔
      x s = (.error e, s') ∨ ∃ a mid, x s = (.ok a, mid) ∧ f a mid = (.error e, s') := by
  constructor
  · intro h
    rcases first : x s with ⟨failed | a, mid⟩
    · rw [bind_of_error first] at h
      cases h
      exact .inl rfl
    · rw [bind_of_ok first] at h
      exact .inr ⟨a, mid, rfl, h⟩
  · rintro (failed | ⟨a, mid, ran, later⟩)
    · exact bind_of_error failed
    · exact (bind_of_ok ran).trans later

theorem pure_ok_iff {a b : α} :
    (pure a : ExceptT ε (StateM σ) α) s = (.ok b, s') ↔ a = b ∧ s = s' := by
  have unfolded : outcome (pure a : ExceptT ε (StateM σ) α) s = (.ok a, s) := rfl
  simp [eq_ok_iff, unfolded]

theorem lift_ok_iff {x : Except ε α} {a : α} :
    (liftM x : ExceptT ε (StateM σ) α) s = (.ok a, s') ↔ x = .ok a ∧ s = s' := by
  have unfolded : outcome (liftM x : ExceptT ε (StateM σ) α) s = (x, s) := rfl
  simp [eq_ok_iff, unfolded]

theorem lift_of_ok {x : Except ε α} {a : α} (h : x = .ok a) :
    (liftM x : ExceptT ε (StateM σ) α) s = (.ok a, s) :=
  lift_ok_iff.mpr ⟨h, rfl⟩

theorem throw_ok_iff {e : ε} {a : α} :
    (throw e : ExceptT ε (StateM σ) α) s = (.ok a, s') ↔ False := by
  have unfolded : outcome (throw e : ExceptT ε (StateM σ) α) s = (.error e, s) := rfl
  simp [eq_ok_iff, unfolded]

/-- Behind a check it goes on if the check has been passed. -/
theorem passed_bind_iff {x : Except ε Unit} {f : Unit → Except ε β} {b : β} :
    (x >>= f) = .ok b ↔ x = .ok () ∧ f () = .ok b := by
  cases x with
  | error e => exact iff_of_false nofun nofun
  | ok u => exact (and_iff_right rfl).symm

/-- What is made of two parts is there exactly if the first part is and then the second one. -/
theorem chain_ok_iff {x : Except ε α} {f : α → Except ε β} {b : β} :
    (x >>= f) = .ok b ↔ ∃ a, x = .ok a ∧ f a = .ok b := by
  cases x with
  | error e => simp [bind, Except.bind]
  | ok a => simp [bind, Except.bind]

theorem mapped_ok_iff {x : Except ε α} {f : α → β} {b : β} :
    f <$> x = .ok b ↔ ∃ a, x = .ok a ∧ f a = b := by
  cases x with
  | error e => simp [Functor.map, Except.map]
  | ok a => simp [Functor.map, Except.map]

/-- What answers each item of a list answers the list. -/
theorem mapM_ok {f : α → Except ε β} {as : List α} (each : ∀ a ∈ as, ∃ b, f a = .ok b) :
    ∃ bs, as.mapM f = .ok bs := by
  induction as with
  | nil => exact ⟨[], rfl⟩
  | cons a as ih =>
    obtain ⟨⟨b, first⟩, others⟩ := List.forall_mem_cons.mp each
    obtain ⟨bs, rest⟩ := ih others
    exact ⟨b :: bs, by rw [List.mapM_cons, first, rest]; rfl⟩

theorem mapM_cons_ok_iff {f : α → Except ε β} {a : α} {as : List α} {bs : List β} :
    (a :: as).mapM f = .ok bs ↔
      ∃ b others, f a = .ok b ∧ as.mapM f = .ok others ∧ bs = b :: others := by
  rw [List.mapM_cons]
  cases f a with
  | error e => simp [bind, Except.bind]
  | ok b =>
    cases as.mapM f with
    | error e => simp [bind, Except.bind]
    | ok others => simp [bind, Except.bind, pure, Except.pure, eq_comm]

/-- A list that is answered has been answered item by item. -/
theorem forall_of_mapM {f : α → Except ε β} {as : List α} {bs : List β}
    (h : as.mapM f = .ok bs) : ∀ a ∈ as, ∃ b, f a = .ok b := by
  induction as generalizing bs with
  | nil => exact List.forall_mem_nil _
  | cons a as ih =>
    obtain ⟨b, others, first, rest, rfl⟩ := mapM_cons_ok_iff.mp h
    exact List.forall_mem_cons.mpr ⟨⟨b, first⟩, ih rest⟩

end RigidScene.Outcome
