import Mathlib.Data.List.Forall2
import RigidScene.Proofs.Text.Yields

/-!
Two parsers that do alike at related texts.

`Alike R S n p q` says that wherever `R` relates two texts, `q` does at the second one what `p` does
at the first one: it fails or aborts where `p` does, and where `p` reads a value, `q` reads the same
value and `S` relates the texts that are left; both have read at least `n` characters.  Two
relations are there because a text may stand in another place behind what has been read than before
it; where places do not matter they are the same.  There is a rule for each combinator, so two
instances of a grammar are alike along its definition as soon as its tokens are; `Alike.knot` is the
rule for grammars that refer to themselves.
-/

namespace RigidScene.Text

/-- The second outcome, at `s'`, is the first one, at `s`, with a related rest; at least `n`
characters of both texts have been read. -/
inductive Outcome.Matches {α : Type} (S : List Char → List Char → Prop) (s s' : List Char)
    (n : Nat) : Outcome α → Outcome α → Prop where
  | ok {a rest rest'} (read : rest.length + n ≤ s.length) (read' : rest'.length + n ≤ s'.length)
    (related : S rest rest') : Matches S s s' n (.ok a rest) (.ok a rest')
  | fail : Matches S s s' n .fail .fail
  | abort {rest rest'} : Matches S s s' n (.abort rest) (.abort rest')

/-- Related rests may be related otherwise, and less may have been read. -/
theorem Outcome.Matches.mono {α : Type} {S T : List Char → List Char → Prop} {s s' t t' : List Char}
    {m n : Nat} {o o' : Outcome α} (same : o.Matches S s s' m o')
    (weaker : ∀ rest rest', S rest rest' → rest.length + m ≤ s.length →
      rest'.length + m ≤ s'.length →
        T rest rest' ∧ rest.length + n ≤ t.length ∧ rest'.length + n ≤ t'.length) :
    o.Matches T t t' n o' := by
  cases same with
  | ok read read' related =>
    obtain ⟨left, shorter, shorter'⟩ := weaker _ _ related read read'
    exact .ok shorter shorter' left
  | fail => exact .fail
  | abort => exact .abort

namespace Parser

/-- At texts related by `R` the second parser does what the first one does; where they succeed, they
read at least `n` characters and leave texts related by `S`. -/
def Alike {α : Type} (R S : List Char → List Char → Prop) (n : Nat) (p q : Parser α) : Prop :=
  ∀ s s', R s s' → (p s).Matches S s s' n (q s')

/-- The relation on texts that are shorter than the given lengths. -/
def Below (R : List Char → List Char → Prop) (n n' : Nat) (s s' : List Char) : Prop :=
  R s s' ∧ s.length < n ∧ s'.length < n'

/-- The relation of two given texts only. -/
def Only (s s' t t' : List Char) : Prop :=
  t = s ∧ t' = s'

/-- The parser on texts that are shorter than `n`; at others it fails. -/
def bounded {α : Type} (n : Nat) (p : Parser α) : Parser α := fun t =>
  if t.length < n then p t else .fail

theorem bounded_fail {α : Type} {p : Parser α} {t : List Char} (failed : p t = .fail) (n : Nat) :
    bounded n p t = .fail := by
  rw [bounded, failed, ite_self]

/-- A run of characters, read one by one. -/
theorem many_satisfy (accepts : Char → Bool) (s : List Char) :
    many (satisfy accepts) s = takeWhile accepts s := by
  induction s with
  | nil => exact many_stop rfl
  | cons c s ih =>
    by_cases accepted : accepts c = true
    · have read : satisfy accepts (c :: s) = .ok c s := if_pos accepted
      rw [many_read read (Nat.lt_succ_self _) ih, takeWhile, List.takeWhile_cons_of_pos accepted,
        List.dropWhile_cons_of_pos accepted]
    · have refused : satisfy accepts (c :: s) = .fail := if_neg accepted
      rw [many_stop refused, takeWhile, List.takeWhile_cons_of_neg accepted,
        List.dropWhile_cons_of_neg accepted]

namespace Alike

variable {α β γ : Type} {R S T : List Char → List Char → Prop} {n : Nat} {p q : Parser α}
  {r r' : Parser β}

theorem ok (alike : Alike R S n p q) {s s' rest : List Char} {a : α} (related : R s s')
    (read : p s = .ok a rest) :
    ∃ rest', q s' = .ok a rest' ∧ S rest rest' ∧ rest.length + n ≤ s.length ∧
      rest'.length + n ≤ s'.length := by
  have outcome := alike s s' related
  rw [read] at outcome
  generalize q s' = other at outcome ⊢
  cases outcome with
  | ok shorter shorter' left => exact ⟨_, rfl, left, shorter, shorter'⟩

/-- Less may be related before, more behind, and less may be read. -/
theorem mono {R' S' : List Char → List Char → Prop} {m : Nat} (alike : Alike R S n p q)
    (less : m ≤ n) (before : ∀ s s', R' s s' → R s s') (behind : ∀ s s', S s s' → S' s s') :
    Alike R' S' m p q :=
  fun s s' related => (alike s s' (before s s' related)).mono
    fun _ _ left read read' => ⟨behind _ _ left, by omega, by omega⟩

theorem loose (alike : Alike R S n p q) : Alike R S 0 p q :=
  alike.mono (Nat.zero_le n) (fun _ _ => id) fun _ _ => id

/-- On short texts the texts that are left are short again. -/
theorem below (alike : Alike R S n p q) (size size' : Nat) :
    Alike (Below R size size') (Below S size size') n p q :=
  fun s s' ⟨related, short, short'⟩ => (alike s s' related).mono
    fun _ _ left read read' => ⟨⟨left, by omega, by omega⟩, read, read'⟩

/-- What is left behind a token is shorter than what stood before it. -/
theorem enter {s s' : List Char} (alike : Alike R S (n + 1) p q) (related : R s s') :
    Alike (Only s s') (Below S s.length s'.length) (n + 1) p q := by
  rintro _ _ ⟨rfl, rfl⟩
  exact (alike _ _ related).mono fun _ _ left read read' =>
    ⟨⟨left, by omega, by omega⟩, read, read'⟩

theorem failure : Alike R S n (failure : Parser α) failure :=
  fun _ _ _ => .fail

theorem pure (a : α) : Alike R R 0 (pure a : Parser α) (pure a) :=
  fun _ _ related => .ok (Nat.le_refl _) (Nat.le_refl _) related

/-- A sequence at two texts where its first parts match. -/
theorem bind_at {m : Nat} {f g : α → Parser β} {s s' : List Char}
    (first : (p s).Matches S s s' m (q s'))
    (rest : ∀ a t t', S t t' → (f a t).Matches T t t' n (g a t')) :
    ((p >>= f) s).Matches T s s' (m + n) ((q >>= g) s') := by
  rw [bind_apply, bind_apply]
  generalize p s = o at first ⊢
  generalize q s' = o' at first ⊢
  cases first with
  | @ok a mid mid' shorter shorter' left =>
    exact (rest a mid mid' left).mono fun _ _ left read read' => ⟨left, by omega, by omega⟩
  | fail => exact .fail
  | abort => exact .abort

/-- What is read at first may be nothing, or what is read afterwards. -/
theorem bind_add {m : Nat} {f g : α → Parser β} (first : Alike R S m p q)
    (rest : ∀ a, Alike S T n (f a) (g a)) : Alike R T (m + n) (p >>= f) (q >>= g) :=
  fun s s' related => bind_at (first s s' related) rest

theorem bind {f g : α → Parser β} (first : Alike R S n p q)
    (rest : ∀ a, Alike S T 0 (f a) (g a)) : Alike R T n (p >>= f) (q >>= g) :=
  first.bind_add rest

theorem bind_last {f g : α → Parser β} (first : Alike R S 0 p q)
    (rest : ∀ a, Alike S T n (f a) (g a)) : Alike R T n (p >>= f) (q >>= g) := by
  have both := first.bind_add rest
  rwa [Nat.zero_add] at both

theorem map (alike : Alike R S n p q) (f : α → β) : Alike R S n (f <$> p) (f <$> q) :=
  alike.bind fun a => .pure (f a)

/-- Two values, one after the other. -/
theorem seq (first : Alike R S n p q) (second : Alike S T 0 r r') (f : α → β → γ) :
    Alike R T n (f <$> p <*> r) (f <$> q <*> r') :=
  (first.map f).bind fun g => second.map g

/-- The second of two values. -/
theorem seqRight (first : Alike R S n r r') (second : Alike S T 0 p q) :
    Alike R T n (r *> p) (r' *> q) :=
  first.bind fun _ => second

theorem seqRight_last (first : Alike R S 0 r r') (second : Alike S T n p q) :
    Alike R T n (r *> p) (r' *> q) :=
  first.bind_last fun _ => second

/-- The first of two values. -/
theorem seqLeft (first : Alike R S n p q) (second : Alike S T 0 r r') :
    Alike R T n (p <* r) (q <* r') :=
  first.bind fun a => second.bind fun _ => .pure a

theorem orElse {p' q' : Parser α} (first : Alike R S n p q) (second : Alike R S n p' q') :
    Alike R S n (orElse p p') (orElse q q') := by
  intro s s' related
  have outcome := first s s' related
  rw [orElse_apply, orElse_apply]
  generalize p s = o at outcome ⊢
  generalize q s' = o' at outcome ⊢
  cases outcome with
  | ok shorter shorter' left => exact .ok shorter shorter' left
  | fail => exact second s s' related
  | abort => exact .abort

theorem oneOf {ps qs : List (Parser α)} (each : List.Forall₂ (Alike R S n) ps qs) :
    Alike R S n (oneOf ps) (oneOf qs) := by
  induction each with
  | nil => exact .failure
  | cons first _ ih => exact first.orElse ih

theorem opt (alike : Alike R R n p q) : Alike R R 0 (opt p) (opt q) :=
  (alike.loose.map some).orElse (.pure none)

theorem required (alike : Alike R S n p q) : Alike R S n (required p) (required q) := by
  intro s s' related
  have outcome := alike s s' related
  unfold Parser.required
  generalize p s = o at outcome ⊢
  generalize q s' = o' at outcome ⊢
  cases outcome with
  | ok shorter shorter' left => exact .ok shorter shorter' left
  | fail => exact .abort
  | abort => exact .abort

theorem ahead (alike : Alike R S n p q) : Alike R R 0 (ahead p) (ahead q) := by
  intro s s' related
  have outcome := alike s s' related
  unfold Parser.ahead
  generalize p s = o at outcome ⊢
  generalize q s' = o' at outcome ⊢
  cases outcome with
  | ok => exact .ok (Nat.le_refl _) (Nat.le_refl _) related
  | fail => exact .fail
  | abort => exact .abort

theorem notAhead (alike : Alike R S n p q) : Alike R R 0 (notAhead p) (notAhead q) := by
  intro s s' related
  have outcome := alike s s' related
  unfold Parser.notAhead
  generalize p s = o at outcome ⊢
  generalize q s' = o' at outcome ⊢
  cases outcome with
  | ok => exact .fail
  | fail => exact .ok (Nat.le_refl _) (Nat.le_refl _) related
  | abort => exact .abort

/-- Items that read something are as many in both texts. -/
theorem many (item : Alike R R 1 p q) : Alike R R 0 (many p) (many q) := by
  intro s
  induction size : s.length using Nat.strongRecOn generalizing s with
  | ind size ih =>
    intro s' related
    have outcome := item s s' related
    rw [Parser.many, Parser.many]
    generalize p s = o at outcome ⊢
    generalize q s' = o' at outcome ⊢
    cases outcome with
    | @ok a mid mid' shorter shorter' left =>
      simp only [Nat.lt_of_succ_le shorter, Nat.lt_of_succ_le shorter', if_true]
      have others := ih mid.length (by omega) mid rfl mid' left
      generalize Parser.many p mid = o at others ⊢
      generalize Parser.many q mid' = o' at others ⊢
      cases others with
      | ok rest rest' left => exact .ok (by omega) (by omega) left
      | fail => exact .fail
      | abort => exact .abort
    | fail => exact .ok (Nat.le_refl _) (Nat.le_refl _) related
    | abort => exact .abort

/-- A run of a class of characters, if one character of the class is alike. -/
theorem takeWhile {accepts : Char → Bool} (one : Alike R R 1 (satisfy accepts) (satisfy accepts)) :
    Alike R R 0 (takeWhile accepts) (takeWhile accepts) := by
  have run : Parser.takeWhile accepts = Parser.many (satisfy accepts) :=
    funext fun s => (many_satisfy accepts s).symm
  rw [run]
  exact one.many

theorem sepBy (item : Alike R R n p q) (separator : Alike R R 1 r r') :
    Alike R R 0 (sepBy p r) (sepBy q r') :=
  (item.loose.seq (.many (separator.seqRight item.loose)) List.cons).orElse (.pure [])

/-- A grammar does alike at related texts if it does so given parsers that do so on shorter texts.
The parsers it is given are the grammar itself there, and fail where it is known to fail.  There may
be several pairs of relations, of which the grammar uses others inside than outside. -/
theorem knot {ι : Type} {R S : ι → List Char → List Char → Prop} {step : Parser α → Parser α}
    {Idle : List Char → Prop} (idle : ∀ t, Idle t → Parser.knot step t = .fail)
    (closed : ∀ i s s' p q, R i s s' →
      (∀ j, Alike (Below (R j) s.length s'.length) (Below (S j) s.length s'.length) 1 p q) →
      (∀ t, Idle t → p t = .fail ∧ q t = .fail) →
      (∀ t, t.length < s'.length → q t = Parser.knot step t) →
      Alike (Only s s') (Below (S i) s.length s'.length) 1 (step p) (step q)) (i : ι) :
    Alike (R i) (S i) 1 (Parser.knot step) (Parser.knot step) := by
  intro s
  induction size : s.length using Nat.strongRecOn generalizing i s with
  | ind size ih =>
    intro s' related
    rw [knot_eq, knot_eq step s']
    have inner (j : ι) : Alike (Below (R j) s.length s'.length) (Below (S j) s.length s'.length) 1
        (bounded s.length (Parser.knot step)) (bounded s'.length (Parser.knot step)) := by
      rintro t t' ⟨left, short, short'⟩
      simp only [bounded, short, short', if_true]
      exact (ih t.length (size ▸ short) j t rfl t' left).mono
        fun _ _ left read read' => ⟨⟨left, by omega, by omega⟩, read, read'⟩
    have fails (t : List Char) (still : Idle t) := bounded_fail (idle t still)
    exact (closed i s s' _ _ related inner (fun t still => ⟨fails t still _, fails t still _⟩)
      (fun _ short => if_pos short) s s' ⟨rfl, rfl⟩).mono
        fun _ _ left read read' => ⟨left.1, read, read'⟩

end Alike

end Parser

end RigidScene.Text
