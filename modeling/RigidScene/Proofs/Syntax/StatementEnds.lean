import RigidScene.Proofs.Syntax.Concatenation

/-!
Where a statement ends, and what may stand there instead.

A statement is over at the first semicolon or closing brace that stands outside of strings, comments
and blocks, if it is not over before.  So nothing the grammar tries while it reads a statement sees
what follows there: two texts that are the same up to the end of their statement (`UpToEnd`) are
read alike.  How many blocks are open matters for what ends a statement, so the relation has that
number as a parameter, which braces change.
-/

namespace RigidScene.Syntax

open RigidScene.Text
open RigidScene.Text.Parser (Alike bind_ok bind_refused)

/-! ## The end of a statement -/

/-- The scan stands neither in a string nor in a comment. -/
def Mode.inCode : Mode → Bool
  | code => true
  | slash => true
  | _ => false

/-- With so many open blocks, the statement is over before the character. -/
def isEnd (m : Mode) (depth : Nat) (c : Char) : Bool :=
  m.inCode && depth = 0 && (c = ';' || c = '}')

/-- How many blocks are open behind the character. -/
def depthBehind (m : Mode) (depth : Nat) (c : Char) : Nat :=
  if m.inCode then
    if c = '{' then depth + 1 else if c = '}' then depth - 1 else depth
  else depth

/-- The text from the end of its first statement on. -/
def fromEnd : Mode → Nat → List Char → List Char
  | _, _, [] => []
  | m, depth, c :: s =>
    if isEnd m depth c then c :: s else fromEnd (m.next c) (depthBehind m depth c) s

/-- The text with `u` in place of what begins at the end of its first statement. -/
def withEnd (u : List Char) : Mode → Nat → List Char → List Char
  | _, _, [] => []
  | m, depth, c :: s =>
    if isEnd m depth c then u else c :: withEnd u (m.next c) (depthBehind m depth c) s

variable {t u s s' rest : List Char} {m : Mode} {k : Nat} {c : Char}

theorem withEnd_same : ∀ s m k, withEnd (fromEnd m k s) m k s = s
  | [], _, _ => rfl
  | c :: s, m, k => by
    cases ends : isEnd m k c <;> simp [withEnd, fromEnd, ends, withEnd_same s]

/-- The text up to the end is the same, whatever stands there. -/
theorem withEnd_append (s : List Char) (m : Mode) (k : Nat) (more : fromEnd m k s ≠ []) :
    ∃ x, ∀ u, withEnd u m k s = x ++ u := by
  induction s generalizing m k with
  | nil => exact absurd rfl more
  | cons c s ih =>
    cases ends : isEnd m k c with
    | true => exact ⟨[], fun u => by simp [withEnd, ends]⟩
    | false =>
      simp only [fromEnd, ends] at more
      obtain ⟨x, same⟩ := ih _ _ more
      exact ⟨c :: x, fun u => by simp [withEnd, ends, same]⟩

/-- The second text is the first one up to the end of its statement; there the first one goes on
with `t`, and the second one with `u`. -/
structure UpToEnd (t u : List Char) (m : Mode) (k : Nat) (s s' : List Char) : Prop where
  first : fromEnd m k s = t
  second : s' = withEnd u m k s

namespace UpToEnd

theorem nil_iff : UpToEnd t u m k [] s' ↔ t = [] ∧ s' = [] :=
  ⟨fun ⟨first, second⟩ => ⟨first.symm, second⟩, fun ⟨first, second⟩ => ⟨first.symm, second⟩⟩

theorem over_iff (ends : isEnd m k c = true) :
    UpToEnd t u m k (c :: s) s' ↔ c :: s = t ∧ s' = u := by
  constructor
  · rintro ⟨first, second⟩
    rw [fromEnd, if_pos ends] at first
    rw [withEnd, if_pos ends] at second
    exact ⟨first, second⟩
  · rintro ⟨first, second⟩
    refine ⟨?_, ?_⟩
    · rw [fromEnd, if_pos ends, first]
    · rw [withEnd, if_pos ends, second]

theorem cons_iff (inside : isEnd m k c = false) : UpToEnd t u m k (c :: s) s' ↔
    ∃ s'', s' = c :: s'' ∧ UpToEnd t u (m.next c) (depthBehind m k c) s s'' := by
  have inside : ¬ isEnd m k c = true := by simp [inside]
  constructor
  · rintro ⟨first, second⟩
    rw [fromEnd, if_neg inside] at first
    rw [withEnd, if_neg inside] at second
    exact ⟨_, second, first, rfl⟩
  · rintro ⟨s'', rfl, first, rfl⟩
    refine ⟨?_, ?_⟩
    · rw [fromEnd, if_neg inside, first]
    · rw [withEnd, if_neg inside]

/-! ### Strings, slashes and layout -/

/-- A character that is neither a semicolon nor a brace. -/
theorem ordinary_cons (semicolon : c ≠ ';') (opening : c ≠ '{') (closing : c ≠ '}')
    (same : UpToEnd t u .code k (c :: s) s') :
    ∃ s'', s' = c :: s'' ∧ UpToEnd t u (Mode.code.next c) k s s'' := by
  have inside : isEnd .code k c = false := by simp [isEnd, semicolon, closing]
  have depth : depthBehind .code k c = k := by simp [depthBehind, Mode.inCode, opening, closing]
  obtain ⟨s'', begins, behind⟩ := (cons_iff inside).mp same
  rw [depth] at behind
  exact ⟨s'', begins, behind⟩

theorem string_closed {text : List Char} (others : ∀ c ∈ text, c ≠ '"')
    (same : UpToEnd t u .string k (text ++ '"' :: rest) s') :
    ∃ rest', s' = text ++ '"' :: rest' ∧ UpToEnd t u .code k rest rest' := by
  induction text generalizing s' with
  | nil => exact (cons_iff rfl).mp same
  | cons c text ih =>
    obtain ⟨other, others⟩ := List.forall_mem_cons.mp others
    obtain ⟨s'', begins, behind⟩ := (cons_iff rfl).mp same
    have later : Mode.string.next c = .string := if_neg other
    rw [later] at behind
    obtain ⟨rest', rfl, left⟩ := ih others behind
    exact ⟨rest', begins, left⟩

theorem string_open (others : ∀ c ∈ s, c ≠ '"') (same : UpToEnd t u .string k s s') : s' = s := by
  induction s generalizing s' with
  | nil => exact (nil_iff.mp same).2
  | cons c s ih =>
    obtain ⟨other, others⟩ := List.forall_mem_cons.mp others
    obtain ⟨s'', begins, behind⟩ := (cons_iff rfl).mp same
    have later : Mode.string.next c = .string := if_neg other
    rw [later] at behind
    rw [begins, ih others behind]

/-- Behind a slash that begins no comment, all is as before it. -/
theorem slash_single (single : ∀ t, s ≠ '/' :: t) (same : UpToEnd t u .slash k s s') :
    UpToEnd t u .code k s s' := by
  cases s with
  | nil => exact nil_iff.mpr (nil_iff.mp same)
  | cons c s =>
    cases ends : isEnd .code k c with
    | true => exact (over_iff ends).mpr ((over_iff (m := .slash) ends).mp same)
    | false =>
      obtain ⟨s'', begins, behind⟩ := (cons_iff (m := .slash) ends).mp same
      rw [next_slash single] at behind
      exact (cons_iff ends).mpr ⟨s'', begins, behind⟩

end UpToEnd

/-- The text is over, or a statement is. -/
def Stops (u : List Char) : Prop :=
  ∀ c ∈ u.head?, c = ';' ∨ c = '}'

theorem Stops.other (stops : Stops u) {accepts : Char → Bool} (semicolon : accepts ';' = false)
    (brace : accepts '}' = false) : ∀ c ∈ u.head?, accepts c = false := by
  intro c first
  obtain rfl | rfl := stops c first
  · exact semicolon
  · exact brace

theorem stops_nil : Stops [] :=
  nofun

theorem stops_of_isEnd (ends : isEnd m k c = true) (s : List Char) : Stops (c :: s) := by
  simp only [isEnd, Bool.and_eq_true, Bool.or_eq_true, decide_eq_true_eq] at ends
  rintro _ ⟨⟩
  exact ends.2

theorem Stops.skip (stops : Stops u) : skip false u = u := by
  cases u with
  | nil => rfl
  | cons c u =>
    obtain rfl | rfl := stops c rfl
    · exact skip_stop rfl (by rintro _ ⟨⟩)
    · exact skip_stop rfl (by rintro _ ⟨⟩)

theorem Stops.string (stops : Stops u) : string u = .fail :=
  bind_refused (Parser.satisfy_other (stops.other rfl rfl))

theorem Stops.gap (stops : Stops u) : Statements.gap u = .fail := by
  cases u with
  | nil => rfl
  | cons c u =>
    obtain rfl | rfl := stops c rfl
    · exact Statements.gap_apply _ _
    · exact Statements.gap_apply _ _

theorem Stops.multiplicative (stops : Stops u) :
    Statements.spaced Statements.multiplicativeOperator u = .fail := by
  rw [Statements.multiplicative_apply, stops.skip]
  cases u with
  | nil => rfl
  | cons c u =>
    obtain rfl | rfl := stops c rfl
    · rfl
    · rfl

namespace UpToEnd

variable (stops : Stops u)

include stops

/-- Both statements are over, or both texts go on with the same character. -/
theorem over_or_cons (same : UpToEnd t u m k s s') : Stops s ∧ Stops s' ∨
    ∃ c r r', s = c :: r ∧ s' = c :: r' ∧ isEnd m k c = false ∧
      UpToEnd t u (m.next c) (depthBehind m k c) r r' := by
  cases s with
  | nil =>
    obtain ⟨_, rfl⟩ := nil_iff.mp same
    exact .inl ⟨stops_nil, stops_nil⟩
  | cons c s =>
    cases ends : isEnd m k c with
    | true =>
      obtain ⟨_, rfl⟩ := (over_iff ends).mp same
      exact .inl ⟨stops_of_isEnd ends s, stops⟩
    | false =>
      obtain ⟨s'', rfl, behind⟩ := (cons_iff ends).mp same
      exact .inr ⟨c, s, s'', rfl, rfl, ends, behind⟩

/-- Where no comment begins in the first text, none does in the second one. -/
theorem single (single : ∀ t, s ≠ '/' :: t) (same : UpToEnd t u .code k s s') (t' : List Char) :
    s' ≠ '/' :: t' := by
  rintro rfl
  cases s with
  | nil => cases (nil_iff.mp same).2
  | cons c s =>
    cases ends : isEnd .code k c with
    | true =>
      obtain ⟨_, rfl⟩ := (over_iff ends).mp same
      obtain wrong | wrong := stops '/' rfl <;> cases wrong
    | false =>
      obtain ⟨s'', begins, _⟩ := (cons_iff ends).mp same
      cases begins
      exact single s rfl

/-- Layout is the same in both texts. -/
theorem skip (b : Bool) (same : UpToEnd t u (if b then .comment else .code) k s s') :
    UpToEnd t u .code k (skip b s) (skip b s') := by
  fun_induction Syntax.skip b s generalizing s' with
  | case1 b =>
    obtain ⟨rfl, rfl⟩ := nil_iff.mp same
    rw [Syntax.skip]
    exact nil_iff.mpr ⟨rfl, rfl⟩
  | case2 c s ih =>
    obtain ⟨s'', rfl, behind⟩ := (cons_iff rfl).mp same
    have depth : depthBehind .comment k c = k := rfl
    rw [Syntax.skip]
    apply ih
    rw [if_pos rfl, depth, Mode.next] at behind
    by_cases newline : c = '\n'
    · simpa [newline] using behind
    · simpa [newline] using behind
  | case3 s ih =>
    have same : UpToEnd t u .code k ('/' :: '/' :: s) s' := same
    obtain ⟨_, rfl, behind⟩ := ordinary_cons (by decide) (by decide) (by decide) same
    obtain ⟨s'', rfl, inside⟩ := (cons_iff (m := .slash) (by simp [isEnd])).mp behind
    exact ih inside
  | case4 c s code blank ih =>
    have other {d : Char} (solid : isSpace d = false) : c ≠ d := by
      rintro rfl
      rw [solid] at blank
      cases blank
    obtain ⟨s'', rfl, behind⟩ := ordinary_cons (other rfl) (other rfl) (other rfl) same
    rw [next_code (other rfl) (other rfl)] at behind
    rw [skip_blank blank]
    exact ih behind
  | case5 c s code solid =>
    have same : UpToEnd t u .code k (c :: s) s' := same
    cases ends : isEnd .code k c with
    | true =>
      obtain ⟨_, rfl⟩ := (over_iff ends).mp same
      rwa [stops.skip]
    | false =>
      obtain ⟨s'', begins, behind⟩ := (cons_iff ends).mp same
      have solid' : Syntax.skip false s' = s' := by
        rw [begins]
        refine skip_stop (Bool.eq_false_iff.mpr solid) fun t' slash => ?_
        subst slash
        exact single stops (code · rfl) (slash_single (code · rfl) behind) t'
      rwa [solid']

end UpToEnd

namespace Statements

/-! ## Tokens -/

/-- A statement ends outside of all blocks. -/
theorem isEnd_depth {m : Mode} (ends : isEnd m k c = true) : k = 0 := by
  simp only [isEnd, Bool.and_eq_true, decide_eq_true_eq] at ends
  exact ends.1.2

section Tokens

variable (stops : Stops u)

include stops

/-- A character that leads from one depth to another. -/
theorem satisfy_toEnd {j k : Nat} {accepts : Char → Bool}
    (code : ∀ c, accepts c = true → c ≠ '"' ∧ c ≠ '/')
    (inside : ∀ c, accepts c = true → isEnd .code j c = false ∧ depthBehind .code j c = k)
    (refused : j = 0 → ∀ c ∈ u.head?, accepts c = false) :
    Alike (UpToEnd t u .code j) (UpToEnd t u .code k) 1 (Parser.satisfy accepts)
      (Parser.satisfy accepts) := by
  intro s s' same
  cases s with
  | nil =>
    obtain ⟨_, rfl⟩ := UpToEnd.nil_iff.mp same
    exact .fail
  | cons c s =>
    by_cases accepted : accepts c = true
    · obtain ⟨quote, slash⟩ := code c accepted
      obtain ⟨more, depth⟩ := inside c accepted
      obtain ⟨s'', rfl, behind⟩ := (UpToEnd.cons_iff more).mp same
      rw [next_code quote slash, depth] at behind
      have read (t : List Char) : Parser.satisfy accepts (c :: t) = .ok c t := if_pos accepted
      rw [read, read]
      exact .ok (Nat.le_refl _) (Nat.le_refl _) behind
    · have failed (t : List Char) : Parser.satisfy accepts (c :: t) = .fail := if_neg accepted
      rw [failed]
      cases ends : isEnd .code j c with
      | true =>
        obtain ⟨_, rfl⟩ := (UpToEnd.over_iff ends).mp same
        rw [Parser.satisfy_other (refused (isEnd_depth ends))]
        exact .fail
      | false =>
        obtain ⟨s'', rfl, _⟩ := (UpToEnd.cons_iff ends).mp same
        rw [failed]
        exact .fail

theorem inner_toEnd {accepts : Char → Bool} (inner : Inner accepts) :
    Alike (UpToEnd t u .code k) (UpToEnd t u .code k) 1 (Parser.satisfy accepts)
      (Parser.satisfy accepts) := by
  refine satisfy_toEnd stops inner.plain.code (fun c accepted => ?_)
    fun _ => stops.other (inner.refuses rfl) (inner.refuses rfl)
  have other {d : Char} (special : specials.contains d = true) : c ≠ d := by
    rintro rfl
    rw [inner.refuses special] at accepted
    cases accepted
  have opening : c ≠ '{' := other rfl
  have closing : c ≠ '}' := other rfl
  have semicolon : c ≠ ';' := other rfl
  exact ⟨by simp [isEnd, semicolon, closing], by simp [depthBehind, Mode.inCode, opening, closing]⟩

theorem string_toEnd : Alike (UpToEnd t u .code k) (UpToEnd t u .code k) 1 string string := by
  intro s s' same
  obtain ⟨ends, ends'⟩ | ⟨c, r, r', rfl, rfl, _⟩ := same.over_or_cons stops
  · rw [ends.string, ends'.string]
    exact .fail
  by_cases quote : c = '"'
  · subst quote
    obtain ⟨_, begins, behind⟩ := UpToEnd.ordinary_cons (by decide) (by decide) (by decide) same
    cases begins
    obtain ⟨text, rest, rfl, inside⟩ | ⟨inside, failed⟩ := quote_cases r
    · obtain ⟨rest', rfl, left⟩ := UpToEnd.string_closed inside behind
      exact level_string.matches (string_quote inside rest) (string_quote inside rest') left
    · rw [UpToEnd.string_open inside behind, failed]
      exact .fail
  · rw [string_other quote, string_other quote]
    exact .fail

theorem space_toEnd : Alike (UpToEnd t u .code k) (UpToEnd t u .code k) 0 space space :=
  fun s s' same => level_space.matches (space_apply s) (space_apply s') (same.skip stops false)

theorem multiplicative_toEnd : Alike (UpToEnd t u .code k) (UpToEnd t u .code k) 1
    (spaced multiplicativeOperator) (spaced multiplicativeOperator) := by
  intro s s' same
  have skipped := same.skip stops false
  obtain ⟨ends, ends'⟩ | ⟨c, r, r', left, left', _, _⟩ := skipped.over_or_cons stops
  · rw [multiplicative_skip s, multiplicative_skip s', ends.multiplicative, ends'.multiplicative]
    exact .fail
  by_cases operator : (c = '*' || c = '/') = true
  · have behind : UpToEnd t u .code k r r' := by
      rw [left, left'] at skipped
      simp only [Bool.or_eq_true, decide_eq_true_eq] at operator
      rcases operator with rfl | rfl
      · obtain ⟨_, begins, behind⟩ :=
          UpToEnd.ordinary_cons (by decide) (by decide) (by decide) skipped
        cases begins
        exact behind
      · obtain ⟨_, begins, behind⟩ :=
          UpToEnd.ordinary_cons (by decide) (by decide) (by decide) skipped
        cases begins
        exact behind.slash_single fun t => (skip_solid left).2 t rfl
    have read : spaced multiplicativeOperator s = .ok c (skip false r) := by
      rw [multiplicative_apply, left]
      exact if_pos operator
    have read' : spaced multiplicativeOperator s' = .ok c (skip false r') := by
      rw [multiplicative_apply, left']
      exact if_pos operator
    exact level_multiplicative.matches read read' (behind.skip stops false)
  · rw [multiplicative_apply, multiplicative_apply, left, left']
    simp only [operator]
    exact .fail

theorem gap_toEnd (same : UpToEnd t u .code k s s') :
    (gap s).Matches (UpToEnd t u .code k) s s' 1 (gap s') := by
  have skipped := same.skip stops false
  obtain ⟨ends, ends'⟩ | ⟨c, r, r', rfl, rfl, _⟩ := same.over_or_cons stops
  · rw [ends.gap, ends'.gap]
    exact .fail
  by_cases blank : isSpace c = true
  · have read (s : List Char) : gap (c :: s) = .ok () (skip false s) := by
      rw [gap_apply, if_pos blank]
    rw [skip_blank blank, skip_blank blank] at skipped
    exact level_gap.matches (read r) (read r') skipped
  · rw [gap_apply, gap_apply, if_neg blank, if_neg blank]
    exact .fail

theorem tokens_toEnd : Tokens (UpToEnd t u .code k) (UpToEnd t u .code k) where
  anywhere _ _ := id
  satisfy := inner_toEnd stops
  ending inner _ := inner_toEnd stops inner
  string := string_toEnd stops
  space := space_toEnd stops
  multiplicative := multiplicative_toEnd stops
  gap _ _ same := .inl (gap_toEnd stops same)

/-- Inside of a block no statement is over. -/
theorem delimiters_toEnd : Delimiters (UpToEnd t u .code (k + 1)) (UpToEnd t u .code k) where
  semicolon := satisfy_toEnd stops (fun c same => by rw [of_decide_eq_true same]; decide)
    (fun c same => by rw [of_decide_eq_true same]; exact ⟨rfl, rfl⟩) nofun
  brace := satisfy_toEnd stops (plain_char rfl).code
    (fun c same => by rw [of_decide_eq_true same]; exact ⟨rfl, rfl⟩) nofun
  atEnd := by
    intro s s' same
    cases s with
    | nil =>
      obtain ⟨_, rfl⟩ := UpToEnd.nil_iff.mp same
      exact .ok (Nat.le_refl _) (Nat.le_refl _) same
    | cons c s =>
      obtain ⟨s'', rfl, _⟩ := (UpToEnd.cons_iff rfl).mp same
      exact .fail

theorem opening_toEnd : Alike (UpToEnd t u .code k) (UpToEnd t u .code (k + 1)) 1
    (Parser.char '{') (Parser.char '{') := by
  refine satisfy_toEnd stops (plain_char rfl).code (fun c same => ?_)
    fun _ => stops.other rfl rfl
  rw [of_decide_eq_true same]
  exact ⟨by simp [isEnd], rfl⟩

theorem primary_toEnd (k : Nat) :
    Alike (UpToEnd t u .code k) (UpToEnd t u .code k) 1 primary primary := by
  refine Alike.knot (R := UpToEnd t u .code) (S := UpToEnd t u .code) waits_primary
    (fun k s s' p q same alike waits _ => ?_) k
  have tokens (j : Nat) := (tokens_toEnd (t := t) (k := j) stops).below s.length s'.length
  have delimiters := (delimiters_toEnd (t := t) (k := k) stops).below s.length s'.length
  have wait : Waits q := fun t idle => (waits t idle).2
  exact ((tokens_toEnd stops).enters same).primaryStep (tokens k) (alike k) wait
    (delimiters.block (tokens (k + 1)) (alike (k + 1)) wait ((opening_toEnd stops).enter same))
    (delimiters.block (tokens (k + 1)) (alike (k + 1)) wait ((opening_toEnd stops).below _ _))

/-- A statement and the layout before it. -/
theorem begun_toEnd : Alike (UpToEnd t u .code 0) (UpToEnd t u .code 0) 0
    (space *> statement primary) (space *> statement primary) :=
  ((tokens_toEnd stops).space.seqRight_last
    ((tokens_toEnd stops).statement (primary_toEnd stops 0) waits_primary)).loose

end Tokens

/-! ## Statements with what ends them -/

theorem terminator_skip (s : List Char) : terminator s = terminator (skip false s) := by
  rw [terminator_apply, terminator_apply, skip_skip]

/-- Where a statement can be ended, there is nothing, a semicolon or a brace behind the layout. -/
theorem stops_of_terminator (ended : terminator s = .ok () rest) : Stops (skip false s) := by
  rintro c first
  obtain ⟨w, left⟩ := List.head?_eq_some_iff.mp first
  rw [terminator_apply, left] at ended
  by_contra other
  obtain ⟨semicolon, brace⟩ := not_or.mp other
  simp only [semicolon, brace, if_false] at ended
  cases ended

/-- There the statement ends: nothing before it was the end. -/
theorem ended_toEnd (stops : Stops u) (ended : terminator s = .ok () rest)
    (more : skip false s ≠ []) (same : UpToEnd t u .code 0 s s') :
    t = skip false s ∧ skip false s' = u := by
  obtain ⟨c, w, left⟩ := List.exists_cons_of_ne_nil more
  have skipped := same.skip stops false
  have stops' := stops_of_terminator ended
  rw [left] at skipped stops' ⊢
  have ends : isEnd .code 0 c = true := by
    obtain rfl | rfl := stops' c rfl <;> rfl
  obtain ⟨first, second⟩ := (UpToEnd.over_iff ends).mp skipped
  exact ⟨first.symm, second⟩

/-- A statement that ends before its text does is read the same if something else stands at the end
of the statement. -/
theorem item_ends {tree : Tree} (read : item primary s = .ok tree rest) (more : rest ≠ []) :
    ∃ x t, s = x ++ t ∧ Stops t ∧ terminator t = .ok () rest ∧
      ∀ u r, Stops u → terminator u = .ok () r → item primary (x ++ u) = .ok tree r := by
  obtain ⟨_, mid, begun, behind⟩ := bind_ok read
  obtain ⟨_, e, ended, last⟩ := bind_ok behind
  cases last
  have unfinished : skip false mid ≠ [] := by
    intro ends
    rw [terminator_apply, ends] at ended
    cases ended
    exact more rfl
  -- The text that is read is the whole text up to the end of its first statement.
  have outcome {u : List Char} (stops : Stops u) :
      fromEnd .code 0 s = skip false mid ∧ ∃ mid', skip false mid' = u ∧
        (space *> statement primary) (withEnd u .code 0 s) = .ok tree mid' := by
    obtain ⟨mid', read', same, _, _⟩ := (begun_toEnd stops).ok ⟨rfl, rfl⟩ begun
    obtain ⟨first, second⟩ := ended_toEnd stops ended unfinished same
    exact ⟨first, mid', second, read'⟩
  obtain ⟨onward, _⟩ := outcome stops_nil
  obtain ⟨x, same⟩ := withEnd_append s .code 0 (onward ▸ unfinished)
  refine ⟨x, skip false mid, ?_, stops_of_terminator ended, ?_, ?_⟩
  · rw [← onward, ← same, withEnd_same]
  · rw [← terminator_skip, ended]
  · intro u r stops ended'
    obtain ⟨_, mid', left, read'⟩ := outcome stops
    rw [same] at read'
    exact Parser.seqLeft_read read' (b := ()) (by rw [terminator_skip, left, ended'])

end Statements

end RigidScene.Syntax
