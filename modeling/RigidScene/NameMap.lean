/-!
Ordered maps from names.

A map lists its entries in the order in which their names were first bound.  Binding a name again
replaces its value and keeps its place; erasing a name closes the gap.  Lookup is what the other
operations are described by: `get?_insert` and `get?_erase` say what a name is bound to afterwards,
and `names_insert` says where it stands; `get?_insertAll` and `names_insertAll` say it of many
bindings.  Two maps with the same entries in other places bind alike, `get?_of_perm`.
-/

namespace RigidScene

/-- Names bound to values, in the order of their first binding. -/
structure NameMap (α : Type) where
  entries : List (String × α)
  deriving Repr

namespace NameMap

variable {α : Type}

/-- No bindings. -/
def empty : NameMap α :=
  ⟨[]⟩

instance : EmptyCollection (NameMap α) :=
  ⟨empty⟩

/-- The value a name is bound to. -/
def get? (m : NameMap α) (name : String) : Option α :=
  m.entries.lookup name

/-- A name is bound. -/
def contains (m : NameMap α) (name : String) : Bool :=
  (m.get? name).isSome

/-- The bound names in order. -/
def names (m : NameMap α) : List String :=
  m.entries.map Prod.fst

/-- The number of bindings. -/
def size (m : NameMap α) : Nat :=
  m.entries.length

/-- Replaces the value of a name where it stands, or adds the name at the end. -/
def insertEntry (name : String) (value : α) : List (String × α) → List (String × α)
  | [] => [(name, value)]
  | entry :: rest =>
    if name = entry.1 then (name, value) :: rest else entry :: insertEntry name value rest

/-- Binds a name. -/
def insert (m : NameMap α) (name : String) (value : α) : NameMap α :=
  ⟨insertEntry name value m.entries⟩

/-- Removes a binding. -/
def erase (m : NameMap α) (name : String) : NameMap α :=
  ⟨m.entries.filter (·.1 ≠ name)⟩

/-- Binds every entry in turn. -/
def insertAll (m : NameMap α) (entries : List (String × α)) : NameMap α :=
  entries.foldl (fun m e => m.insert e.1 e.2) m

/-- The map of a list of bindings; the last value of a name counts, at its first place. -/
def ofList (entries : List (String × α)) : NameMap α :=
  empty.insertAll entries

/-- Adds the bindings of the names that are not bound yet. -/
def withFallback (m fallback : NameMap α) : NameMap α :=
  m.insertAll (fallback.entries.filter fun e => !m.contains e.1)

theorem lookup_cons (other name : String) (value : α) (es : List (String × α)) :
    ((name, value) :: es).lookup other = if other = name then some value else es.lookup other := by
  by_cases h : other = name
  · simp [h]
  · have : (other == name) = false := by simpa using h
    simp [List.lookup_cons, this, h]

theorem lookup_insertEntry (name other : String) (value : α) (es : List (String × α)) :
    (insertEntry name value es).lookup other =
      if other = name then some value else es.lookup other := by
  induction es with
  | nil => exact lookup_cons other name value []
  | cons e es ih =>
    obtain ⟨n, v⟩ := e
    by_cases hn : name = n
    · subst hn
      by_cases h : other = name <;> simp [insertEntry, lookup_cons, h]
    · by_cases h : other = name
      · subst h
        simp [insertEntry, hn, lookup_cons, ih]
      · simp only [insertEntry, hn, if_false, lookup_cons, ih, h]

@[simp] theorem get?_empty (name : String) : (empty : NameMap α).get? name = none := rfl

theorem get?_insert (m : NameMap α) (name other : String) (value : α) :
    (m.insert name value).get? other = if other = name then some value else m.get? other :=
  lookup_insertEntry name other value m.entries

theorem get?_erase (m : NameMap α) (name other : String) :
    (m.erase name).get? other = if other = name then none else m.get? other := by
  obtain ⟨es⟩ := m
  simp only [get?, erase]
  induction es with
  | nil => simp
  | cons e es ih =>
    obtain ⟨n, v⟩ := e
    by_cases hn : n = name
    · subst hn
      have : ((n, v) :: es).filter (fun e => decide (e.1 ≠ n)) =
          es.filter fun e => decide (e.1 ≠ n) := by simp
      rw [this, ih, lookup_cons]
      by_cases h : other = n <;> simp [h]
    · have : ((n, v) :: es).filter (fun e => decide (e.1 ≠ name)) =
          (n, v) :: es.filter fun e => decide (e.1 ≠ name) := by simp [hn]
      rw [this, lookup_cons, lookup_cons, ih]
      by_cases h : other = name
      · subst h
        have : other ≠ n := fun e => hn e.symm
        simp [this]
      · simp [h]

theorem lookup_isSome_iff (name : String) (es : List (String × α)) :
    (es.lookup name).isSome = true ↔ name ∈ es.map Prod.fst := by
  induction es with
  | nil => simp
  | cons e es ih =>
    obtain ⟨n, v⟩ := e
    rw [lookup_cons]
    by_cases h : name = n
    · simp [h]
    · simp only [h, if_false, ih, List.map_cons, List.mem_cons, false_or]

theorem contains_iff (m : NameMap α) (name : String) : m.contains name = true ↔ name ∈ m.names :=
  lookup_isSome_iff name m.entries

theorem map_fst_insertEntry (name : String) (value : α) (es : List (String × α)) :
    (insertEntry name value es).map Prod.fst =
      if name ∈ es.map Prod.fst then es.map Prod.fst else es.map Prod.fst ++ [name] := by
  induction es with
  | nil => rfl
  | cons e es ih =>
    by_cases h : name = e.1
    · simp [insertEntry, h]
    · simp only [insertEntry, h, if_false, List.map_cons, ih, List.mem_cons, false_or]
      split <;> rfl

/-- A new name comes last, and a known one keeps its place. -/
theorem names_insert (m : NameMap α) (name : String) (value : α) :
    (m.insert name value).names = if name ∈ m.names then m.names else m.names ++ [name] :=
  map_fst_insertEntry name value m.entries

theorem insertAll_append (m : NameMap α) (front back : List (String × α)) :
    m.insertAll (front ++ back) = (m.insertAll front).insertAll back :=
  List.foldl_append

theorem get?_eq_none_iff (m : NameMap α) (name : String) : m.get? name = none ↔ name ∉ m.names := by
  simp [← contains_iff, contains]

/-- A name is bound to the last value that it is given, or as before if it is given none. -/
theorem get?_insertAll (m : NameMap α) (es : List (String × α)) (name : String) :
    (m.insertAll es).get? name = (es.reverse.lookup name).or (m.get? name) := by
  induction es generalizing m with
  | nil => rfl
  | cons e es ih =>
    have onward : (m.insertAll (e :: es)).get? name =
        (es.reverse.lookup name).or ((m.insert e.1 e.2).get? name) := ih _
    have single : [e].lookup name = if name = e.1 then some e.2 else none :=
      lookup_cons name e.1 e.2 []
    rw [onward, get?_insert, List.reverse_cons, List.lookup_append, Option.or_assoc, single]
    by_cases same : name = e.1 <;> simp [same]

/-- A name is bound as before where it is not among those that are bound. -/
theorem get?_insertAll_other {name : String} {es : List (String × α)}
    (other : name ∉ es.map Prod.fst) (m : NameMap α) :
    (m.insertAll es).get? name = m.get? name := by
  have ungiven : es.reverse.lookup name = none := by
    apply (get?_eq_none_iff ⟨es.reverse⟩ name).mpr
    rwa [names, List.map_reverse, List.mem_reverse]
  rw [get?_insertAll, ungiven, Option.none_or]

theorem eraseDups_eq_self {names : List String} (different : names.Nodup) :
    names.eraseDups = names := by
  induction names with
  | nil => rfl
  | cons name names ih =>
    obtain ⟨apart, different⟩ := List.nodup_cons.mp different
    have others : names.filter (fun other => !other == name) = names := by
      apply List.filter_eq_self.mpr
      rintro other member
      have : other ≠ name := fun same => apart (same ▸ member)
      simpa using this
    rw [List.eraseDups_cons, others, ih different]

/-- The known names keep their places, and those of the others that are new come behind, in the
order in which they are first given. -/
theorem names_insertAll (m : NameMap α) (es : List (String × α)) :
    (m.insertAll es).names =
      m.names ++ ((es.map Prod.fst).filter fun name => name ∉ m.names).eraseDups := by
  induction es generalizing m with
  | nil => exact (List.append_nil _).symm
  | cons e es ih =>
    have onward : (m.insertAll (e :: es)).names = ((m.insert e.1 e.2).insertAll es).names := rfl
    rw [onward, ih, names_insert, List.map_cons]
    by_cases known : e.1 ∈ m.names
    · simp [known]
    · have later : (es.map Prod.fst).filter (fun name => name ∉ m.names ++ [e.1]) =
          ((es.map Prod.fst).filter fun name => name ∉ m.names).filter fun name => !name == e.1 := by
        rw [List.filter_filter]
        apply List.filter_congr
        intro name _
        rw [Bool.eq_iff_iff]
        simp [and_comm]
      rw [if_neg known, later, List.filter_cons_of_pos (by simpa using known),
        List.eraseDups_cons, List.append_assoc, List.singleton_append]

/-- To remove names one after another is to keep the entries of the others. -/
theorem entries_eraseAll (m : NameMap α) (names : List String) :
    (names.foldl erase m).entries = m.entries.filter fun e => e.1 ∉ names := by
  induction names generalizing m with
  | nil => exact (List.filter_eq_self.mpr (by simp)).symm
  | cons name names ih =>
    rw [List.foldl_cons, ih, erase, List.filter_filter]
    simp [Bool.and_comm]

theorem mem_insertEntry {name : String} {value : α} {es : List (String × α)} {e : String × α}
    (member : e ∈ insertEntry name value es) : e ∈ es ∨ e = (name, value) := by
  induction es with
  | nil => exact .inr (List.mem_singleton.mp member)
  | cons first rest ih =>
    by_cases h : name = first.1
    · rw [insertEntry, if_pos h, List.mem_cons] at member
      rcases member with new | old
      · exact .inr new
      · exact .inl (List.mem_cons_of_mem _ old)
    · rw [insertEntry, if_neg h, List.mem_cons] at member
      rcases member with rfl | later
      · exact .inl List.mem_cons_self
      · exact (ih later).imp_left (List.mem_cons_of_mem _)

/-- Binding a name adds no other entry. -/
theorem mem_insert {m : NameMap α} {name : String} {value : α} {e : String × α}
    (member : e ∈ (m.insert name value).entries) : e ∈ m.entries ∨ e = (name, value) :=
  mem_insertEntry member

theorem mem_insertAll {m : NameMap α} {es : List (String × α)} {e : String × α}
    (member : e ∈ (m.insertAll es).entries) : e ∈ m.entries ∨ e ∈ es := by
  induction es generalizing m with
  | nil => exact .inl member
  | cons first rest ih =>
    rcases ih member with before | later
    · rcases mem_insert before with old | rfl
      · exact .inl old
      · exact .inr List.mem_cons_self
    · exact .inr (List.mem_cons_of_mem _ later)

theorem mem_withFallback {m fallback : NameMap α} {e : String × α}
    (member : e ∈ (m.withFallback fallback).entries) : e ∈ m.entries ∨ e ∈ fallback.entries :=
  (mem_insertAll member).imp_right fun inside => (List.mem_filter.mp inside).1

/-- What a name is bound to stands in an entry. -/
theorem mem_of_get? {m : NameMap α} {name : String} {value : α}
    (bound : m.get? name = some value) : (name, value) ∈ m.entries := by
  obtain ⟨es⟩ := m
  induction es with
  | nil => cases bound
  | cons first rest ih =>
    rw [get?, lookup_cons] at bound
    by_cases h : name = first.1
    · rw [if_pos h, Option.some.injEq] at bound
      subst h bound
      exact List.mem_cons_self
    · rw [if_neg h] at bound
      exact List.mem_cons_of_mem _ (ih bound)

/-- A name is bound to what stands in its entry, if there is one entry for each name. -/
theorem get?_of_mem {m : NameMap α} (different : m.names.Nodup) {name : String} {value : α}
    (member : (name, value) ∈ m.entries) : m.get? name = some value := by
  obtain ⟨es⟩ := m
  induction es with
  | nil => cases member
  | cons first rest ih =>
    obtain ⟨apart, different⟩ := List.nodup_cons.mp different
    rw [get?, lookup_cons]
    rcases List.mem_cons.mp member with rfl | later
    · exact if_pos rfl
    · have other : name ≠ first.1 := by
        rintro rfl
        exact apart (List.mem_map.mpr ⟨_, later, rfl⟩)
      rw [if_neg other]
      exact ih different later

theorem get?_insertAll_of_mem {es : List (String × α)} (different : (es.map Prod.fst).Nodup)
    {name : String} {value : α} (member : (name, value) ∈ es) (m : NameMap α) :
    (m.insertAll es).get? name = some value := by
  have turned : (NameMap.mk es.reverse).names.Nodup := by
    rw [names, List.map_reverse]
    exact (List.reverse_perm _).nodup_iff.mpr different
  have last : es.reverse.lookup name = some value :=
    get?_of_mem turned (List.mem_reverse.mpr member)
  rw [get?_insertAll, last, Option.some_or]

/-- A name is bound in the map, or else as in the fallback. -/
theorem get?_withFallback (m : NameMap α) {fallback : NameMap α} (different : fallback.names.Nodup)
    (name : String) :
    (m.withFallback fallback).get? name = (m.get? name).or (fallback.get? name) := by
  have added : ((fallback.entries.filter fun e => !m.contains e.1).map Prod.fst).Sublist
      fallback.names := List.filter_sublist.map Prod.fst
  cases held : m.get? name with
  | some v =>
    have other : name ∉ (fallback.entries.filter fun e => !m.contains e.1).map Prod.fst := by
      simp [contains, held]
    exact (get?_insertAll_other other m).trans held
  | none =>
    cases bound : fallback.get? name with
    | some v =>
      have new : (name, v) ∈ fallback.entries.filter fun e => !m.contains e.1 := by
        simp [contains, held, mem_of_get? bound]
      exact get?_insertAll_of_mem (added.nodup different) new m
    | none =>
      have unbound := (get?_eq_none_iff fallback name).mp bound
      exact (get?_insertAll_other (fun given => unbound (added.mem given)) m).trans held

/-- The names of the fallback that are new come behind those of the map. -/
theorem names_withFallback (m : NameMap α) {fallback : NameMap α}
    (different : fallback.names.Nodup) :
    (m.withFallback fallback).names =
      m.names ++ fallback.names.filter fun name => name ∉ m.names := by
  have new : (fallback.entries.filter fun e => !m.contains e.1).map Prod.fst =
      fallback.names.filter fun name => name ∉ m.names := by
    show _ = (fallback.entries.map Prod.fst).filter fun name => name ∉ m.names
    rw [List.filter_map]
    congr 1
    apply List.filter_congr
    intro e _
    rw [Bool.eq_iff_iff]
    simp [← contains_iff]
  rw [withFallback, names_insertAll, new, List.filter_filter]
  simp only [Bool.and_self]
  rw [eraseDups_eq_self (List.filter_sublist.nodup different)]

/-- In which order the entries stand does not matter to what the names are bound to. -/
theorem get?_of_perm {m m' : NameMap α} (different : m.names.Nodup)
    (same : m.entries.Perm m'.entries) (name : String) : m.get? name = m'.get? name := by
  have names : m.names.Perm m'.names := same.map Prod.fst
  cases bound : m.get? name with
  | some v =>
    have member := same.mem_iff.mp (mem_of_get? bound)
    exact (get?_of_mem (names.nodup_iff.mp different) member).symm
  | none =>
    rw [get?_eq_none_iff, names.mem_iff, ← get?_eq_none_iff] at bound
    exact bound.symm

end NameMap

end RigidScene
