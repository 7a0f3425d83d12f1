import Mathlib.Data.Prod.Lex
import RigidScene.Text.Location

/-!
What a place tells of its source.

Places are ordered by their lines and, within a line, by their columns.  One more character of the
source moves the place behind it forward: a newline to the next line, any other character to the
next column.  So of two beginnings of a source the longer one ends at the later place, and where an
error points to determines how much of the source it has left (`places_identify_boundaries`).
-/

namespace RigidScene.Text

namespace Location

/-- The line counts before the column. -/
def key (place : Location) : Nat ×ₗ Nat :=
  toLex (place.line, place.column)

theorem key_injective : Function.Injective key := by
  rintro ⟨line, column⟩ ⟨line', column'⟩ same
  obtain ⟨rfl, rfl⟩ := Prod.mk.inj (toLex_inj.mp same)
  rfl

instance : LinearOrder Location :=
  LinearOrder.lift' key key_injective

theorem lt_iff {place place' : Location} : place < place' ↔
    place.line < place'.line ∨ place.line = place'.line ∧ place.column < place'.column :=
  Prod.Lex.toLex_lt_toLex

theorem ofPrefix_newline (front : List Char) :
    ofPrefix (front ++ ['\n']) = ⟨(ofPrefix front).line + 1, 1⟩ := by
  simp [ofPrefix]

theorem ofPrefix_other (front : List Char) {c : Char} (other : c ≠ '\n') :
    ofPrefix (front ++ [c]) = ⟨(ofPrefix front).line, (ofPrefix front).column + 1⟩ := by
  simp [ofPrefix, other]

/-- One more character moves the place forward. -/
theorem ofPrefix_lt_snoc (front : List Char) (c : Char) :
    ofPrefix front < ofPrefix (front ++ [c]) := by
  rw [lt_iff]
  by_cases newline : c = '\n'
  · rw [newline, ofPrefix_newline]
    exact .inl (Nat.lt_succ_self _)
  · rw [ofPrefix_other front newline]
    exact .inr ⟨rfl, Nat.lt_succ_self _⟩

theorem ofPrefix_lt_append (front : List Char) {more : List Char} (nonempty : more ≠ []) :
    ofPrefix front < ofPrefix (front ++ more) := by
  induction more generalizing front with
  | nil => exact absurd rfl nonempty
  | cons c more ih =>
    have first : ofPrefix front < ofPrefix (front ++ [c]) := ofPrefix_lt_snoc front c
    rw [List.append_cons]
    by_cases only : more = []
    · rwa [only, List.append_nil]
    · exact first.trans (ih _ only)

end Location

/-- So many bytes of the source are whole characters. -/
def IsBoundary (source : List Char) (offset : Nat) : Prop :=
  ∃ front, front <+: source ∧ byteLength front = offset

section Sources

variable {source front front' rest rest' : List Char}

theorem byteLength_le_of_begins (begins : front <+: front') :
    byteLength front ≤ byteLength front' := by
  obtain ⟨more, rfl⟩ := begins
  rw [byteLength_append]
  exact Nat.le_add_right _ _

theorem ofOffset_of_begins (begins : front <+: source) :
    Location.ofOffset source (byteLength front) = Location.ofPrefix front := by
  obtain ⟨rest, rfl⟩ := begins
  rw [Location.ofOffset, takeBytes_append, Option.getD_some]

/-- The longer of two beginnings ends at the later place. -/
theorem ofPrefix_lt_of_begins (begins : front <+: source) (begins' : front' <+: source)
    (shorter : byteLength front < byteLength front') :
    Location.ofPrefix front < Location.ofPrefix front' := by
  rcases List.prefix_or_prefix_of_prefix begins begins' with ⟨more, rfl⟩ | longer
  · apply Location.ofPrefix_lt_append
    rintro rfl
    simp at shorter
  · exact absurd (byteLength_le_of_begins longer) (Nat.not_le.mpr shorter)

theorem ofOffset_strictMonoOn (source : List Char) :
    StrictMonoOn (Location.ofOffset source) {offset | IsBoundary source offset} := by
  rintro _ ⟨front, begins, rfl⟩ _ ⟨front', begins', rfl⟩ shorter
  rw [ofOffset_of_begins begins, ofOffset_of_begins begins']
  exact ofPrefix_lt_of_begins begins begins' shorter

/-- An error with a rest of the source points at where the rest begins. -/
theorem atRest_location (message : String) (parts : front ++ rest = source) :
    (ParseError.atRest message source rest).location =
      some (Location.ofOffset source (byteLength front)) := by
  have offset : byteLength source - byteLength rest = byteLength front := by
    rw [← parts, byteLength_append, Nat.add_sub_cancel]
  rw [ParseError.atRest, offset]

/-- Where two errors point at one place, they have left the same rest. -/
theorem rest_of_location {message message' : String} (ends : rest <:+ source)
    (ends' : rest' <:+ source) (same : (ParseError.atRest message source rest).location =
      (ParseError.atRest message' source rest').location) : rest = rest' := by
  obtain ⟨front, parts⟩ := ends
  obtain ⟨front', parts'⟩ := ends'
  have begins : front <+: source := ⟨rest, parts⟩
  have begins' : front' <+: source := ⟨rest', parts'⟩
  rw [atRest_location message parts, atRest_location message' parts'] at same
  have bytes : byteLength front = byteLength front' :=
    (ofOffset_strictMonoOn source).injOn ⟨front, begins, rfl⟩ ⟨front', begins', rfl⟩
      (Option.some.inj same)
  have fronts : front = front' := by
    apply Option.some.inj
    rw [← takeBytes_append front rest, ← takeBytes_append front' rest', parts, parts', bytes]
  exact List.append_cancel_left (parts.trans (fronts ▸ parts'.symm))

end Sources

/-- Lines and columns begin with one, later boundaries of a source have later places, and an error
points at the boundary where the rest of the source begins, so that the place determines the rest.
-/
theorem places_identify_boundaries (source : List Char) :
    (∀ offset offset', IsBoundary source offset → IsBoundary source offset' → offset < offset' →
      Location.ofOffset source offset < Location.ofOffset source offset') ∧
    (∀ offset, 1 ≤ (Location.ofOffset source offset).line ∧
      1 ≤ (Location.ofOffset source offset).column) ∧
    (∀ (message : String) (front rest : List Char), front ++ rest = source →
      IsBoundary source (byteLength front) ∧
      (ParseError.atRest message source rest).location =
        some (Location.ofOffset source (byteLength front))) ∧
    (∀ (message message' : String) (rest rest' : List Char), rest <:+ source → rest' <:+ source →
      (ParseError.atRest message source rest).location =
        (ParseError.atRest message' source rest').location → rest = rest') := by
  refine ⟨?_, ?_, ?_, ?_⟩
  · intro offset offset' boundary boundary' earlier
    exact ofOffset_strictMonoOn source boundary boundary' earlier
  · intro offset
    exact ⟨Nat.le_add_left 1 _, Nat.le_add_left 1 _⟩
  · intro message front rest parts
    exact ⟨⟨front, ⟨rest, parts⟩, rfl⟩, atRest_location message parts⟩
  · intro message message' rest rest' ends ends' same
    exact rest_of_location ends ends' same

/-- Two lines in letters of one, two and three bytes. -/
def twoLines : List Char :=
  "é\nö✓x".toList

/-- The second line begins behind three bytes, and its third character behind eight. -/
theorem twoLines_places : IsBoundary twoLines 3 ∧ IsBoundary twoLines 8 ∧
    Location.ofOffset twoLines 3 < Location.ofOffset twoLines 8 ∧
    Location.ofOffset twoLines 3 = ⟨2, 1⟩ ∧
    (ParseError.atRest "unexpected" twoLines ['x']).location = some ⟨2, 3⟩ ∧
    ∀ rest, rest <:+ twoLines →
      (ParseError.atRest "unexpected" twoLines rest).location = some ⟨2, 3⟩ → rest = ['x'] := by
  obtain ⟨ordered, _, located, unique⟩ := places_identify_boundaries twoLines
  have third : Location.ofOffset twoLines 8 = ⟨2, 3⟩ := by decide
  obtain ⟨line, -⟩ := located "unexpected" ['é', '\n'] ['ö', '✓', 'x'] rfl
  obtain ⟨inside, pointed⟩ := located "unexpected" ['é', '\n', 'ö', '✓'] ['x'] rfl
  have pointed := pointed.trans (congrArg some third)
  refine ⟨line, inside, ordered 3 8 line inside (by decide), by decide, pointed, ?_⟩
  intro rest ends same
  exact unique _ _ rest ['x'] ends ⟨['é', '\n', 'ö', '✓'], rfl⟩ (same.trans pointed.symm)

end RigidScene.Text
