import RigidScene.Proofs.Eval.Coherence
import RigidScene.Proofs.Eval.Invariant

/-!
A body keeps the name that it is declared with.

A label statement names the entity that has the number of its value, if the value carries no label.
When a statement declares the body that its expression makes, the one value without a label is used
up at once: from there on every value with the number carries the name, and every body with the
number is the declared one.  `Moment.Settles` says this of a moment.  It holds before the body is
made too, when nothing has the number, and is broken only in between; so with `Visits.finishes` it
holds at the end of the program (`Visits.declares`).
-/

namespace RigidScene

open Value

section Clear

variable {n : EntityId}

/-- A program cannot name an entity with the number by the value. -/
def Value.Clear (n : EntityId) (v : Value) : Prop :=
  ∀ u, v.Offers u → u.unlabelled? ≠ some n

theorem clear_plain {v : Value} (plain : v.Plain) : v.Clear n := by
  refine (forall_offers_iff plain.ne_closure).mpr fun nameable => ?_
  have own := entityId?_of_unlabelled? nameable
  rw [plain.entityId?] at own
  cases own

theorem clear_closure {c : Closure Value} :
    (Value.closure c).Clear n ↔ ∀ e ∈ c.captured.entries, e.2.Clear n :=
  forall_offers_closure_iff nofun

/-- An entity that cannot be named or has another number. -/
theorem clear_entity {v : Value} {id : EntityId} (own : v.entityId? = some id)
    (settled : v.unlabelled? ≠ some n) : v.Clear n :=
  (forall_offers_iff (ne_closure_of_entity own)).mpr settled

theorem clear_withLabel {v : Value} {id : EntityId} (own : v.entityId? = some id)
    (name : String) : (v.withLabel name).Clear n := by
  cases v with
  | body | composite => exact clear_entity rfl nofun
  | _ => cases own

end Clear

section Declare

variable {env env' : Environment} {policy : LabelPolicy} {name : String} {n : EntityId}

/-- A body of a block in which an entity has been named was there before, or is that entity. -/
theorem relabel_walk {found : Option Value} (h : env.relabel policy n name = .ok (env', found))
    {x : Body Value} (member : x ∈ env'.walk) : x ∈ env.walk ∨ x.id = n := by
  obtain ⟨front, b, back, whole, own, _, _, rfl⟩ | ⟨_, front, c, back, whole, _, _, _, rfl⟩ |
    ⟨_, _, _, rfl⟩ := relabel_cases h
  · simp only [Environment.walk, List.mem_append, List.mem_cons] at member ⊢
    rw [whole]
    obtain (before | rfl | behind) | nested := member
    · exact .inl (.inl (List.mem_append_left _ before))
    · exact .inr own
    · exact .inl (.inl (List.mem_append_right _ (List.mem_cons_of_mem _ behind)))
    · exact .inl (.inr nested)
  · have walk : ({ c with label := some name } : Composite Value).walk = c.walk := by
      rw [Composite.walk_eq, Composite.walk_eq]
    left
    simpa [Environment.walk, whole, Composite.walkAll_append, Composite.walkAll, walk] using member
  · exact .inl member

/-- A label statement for a value by which the number cannot be named leaves the bodies with the
number alone. -/
theorem Value.Clear.declare {v v' : Value} (clear : v.Clear n)
    (declared : env.declare policy name v = .ok (env', v')) :
    v'.Clear n ∧ ∀ x ∈ env'.walk, x.id = n → x ∈ env.walk := by
  obtain ⟨_, rfl, rfl⟩ | ⟨id, _, found, nameable, relabelled, rfl, rfl⟩ := declare_cases declared
  · exact ⟨clear, fun x member _ => member⟩
  · have other : id ≠ n := by
      rintro rfl
      exact clear v .itself nameable
    refine ⟨?_, fun x member own => ?_⟩
    · cases found with
      | none => exact clear_withLabel (entityId?_of_unlabelled? nameable) name
      | some v' =>
        obtain ⟨w, _, own, rfl⟩ := relabel_found relabelled
        exact clear_withLabel own name
    · exact (relabel_walk relabelled member).resolve_right fun same => other (same.symm.trans own)

/-- Naming a body that has just come into the block. -/
theorem relabel_last {b : Body Value} {found : Option Value}
    (h : Environment.relabel { env with bodies := env.bodies ++ [b] } policy b.id name =
      .ok (env', found)) :
    found = some (.body { b with label := some name }) ∧
      env' = { env with bodies := env.bodies ++ [{ b with label := some name }] } := by
  rw [relabel_eq (relabel_checked h), updateLast?_append] at h
  simp only [updateLast?, decide_true, if_true] at h
  cases h
  exact ⟨rfl, rfl⟩

/-- Declaring it. -/
theorem declare_last {b : Body Value} {v : Value} (bare : b.label = none)
    (h : Environment.declare { env with bodies := env.bodies ++ [b] } policy name (.body b) =
      .ok (env', v)) :
    v = .body { b with label := some name } ∧
      env' = { env with
        labels := env.labels.insert name v
        bodies := env.bodies ++ [{ b with label := some name }] } := by
  obtain ⟨named, _⟩ | ⟨_, _, _, nameable, relabelled, rfl, rfl⟩ := declare_cases h
  · simp [unlabelled?, bare] at named
  · simp only [unlabelled?, bare, Option.isNone_none, if_true, Option.some.injEq] at nameable
    subst nameable
    obtain ⟨rfl, rfl⟩ := relabel_last relabelled
    exact ⟨rfl, rfl⟩

end Declare

namespace Moment

variable {first k : Nat} {b : Body Value} {m m' : Moment}

/-- Every body of the block with the number of `b` is `b`, and by no label the number can be named.
-/
structure Settles (m : Moment) (b : Body Value) : Prop where
  bodies : ∀ x ∈ m.env.walk, x.id = b.id → x = b
  labels : ∀ e ∈ m.env.labels.entries, e.2.Clear b.id

/-- The counts from one number to another are those of the run and not the `k`th. -/
def Apart (first k start stop : Nat) : Prop :=
  first ≤ start ∧ stop ≤ first + UInt64.size ∧ (k < start ∨ stop ≤ k)

/-- Only the step that makes the `k`th entity can change what its number stands for. -/
theorem settles_invariant (settings : Settings) (lower : first ≤ k)
    (upper : k < first + UInt64.size) (own : b.id = .ofCount k) :
    Invariant settings (Apart first k) (fun m => m.Settles b) (fun _ v => v.Clear b.id) := by
  have fresh {m : Moment} (apart : Apart first k m.run.nextId (m.run.nextId + 1)) :
      m.freshId ≠ b.id := by
    obtain ⟨start, stop, other⟩ := apart
    intro same
    have equal : m.run.nextId = k := ofCount_inj start stop lower upper (same.trans own)
    omega
  constructor
  case within =>
    rintro a b c d ⟨start, stop, other⟩ one two three
    exact ⟨by omega, by omega, by omega⟩
  case later => exact fun _ _ clear => clear
  case plain => exact clear_plain
  case closure => exact clear_closure
  case labels => exact fun settles => settles.labels
  case uncounted =>
    rintro m ⟨env, run⟩ _ rfl _ ⟨bodies, labels⟩
    exact ⟨bodies, labels⟩
  case body =>
    intro m shape params props apart settles
    refine ⟨⟨fun x member same => ?_, settles.labels⟩, ?_⟩
    · rcases mem_walk_withBody_iff.mp member with old | rfl
      · exact settles.bodies x old same
      · exact absurd same (fresh apart)
    · exact clear_entity rfl fun same => fresh apart (Option.some.inj same)
  case constraint =>
    exact fun _ _ _ _ _ settles => ⟨settles.bodies, settles.labels⟩
  case opened => exact fun settles => ⟨nofun, settles.labels⟩
  case scope =>
    intro m m' transform props _ apart outer inner
    refine ⟨⟨fun x member same => ?_, outer.labels⟩, ?_⟩
    · rcases mem_walk_withComposite_iff.mp member with outside | inside
      · exact outer.bodies x outside same
      · exact inner.bodies x inside same
    · exact clear_entity rfl fun same => fresh apart (Option.some.inj same)
  case label =>
    intro m name v env v' _ settles clear declared
    obtain ⟨clear', before⟩ := clear.declare declared
    refine ⟨⟨fun x member same => settles.bodies x (before x member same) same, ?_⟩, clear'⟩
    intro e held
    rw [declare_labels_eq declared] at held
    rcases NameMap.mem_insert held with old | rfl
    · exact settles.labels e old
    · exact clear'
  case enter =>
    intro m name c args env _ settles given entered
    obtain ⟨bodies, _, composites⟩ := prepare_sameEntities entered
    refine ⟨?_, fun e held => ?_⟩
    · rw [Environment.walk, bodies, composites]
      exact settles.bodies
    · rcases prepare_labels entered held with label | captured | argument
      · exact settles.labels e label
      · exact clear_closure.mp (given _ List.mem_cons_self) e captured
      · exact given _ (List.mem_cons_of_mem _ argument)
  case returned => exact fun _ _ before inside => ⟨inside.bodies, before.labels⟩

end Moment

section Runs

variable {settings : Settings} {name shape : String} {args : List Node}
  {attrs : List (String × Node)}

/-- A statement that declares the body which its expression makes.  The body has the last number
that the statement counts; before it is made the number stands for nothing, and behind the statement
for the body under its name. -/
theorem Derived.declares {m m' : Moment} {vs : List Value}
    (derived : Derived settings (.node (.label name (.body shape args attrs))) m vs m') :
    ∃ b k, vs = [.body b] ∧ b.label = some name ∧ b.id = .ofCount k ∧
      m.run.nextId ≤ k ∧ m'.run.nextId = k + 1 ∧
      m'.env.get? name = some (.body b) ∧ m'.env.Holds b.id ∧
      ∀ first, first ≤ m.run.nextId → m'.run.nextId ≤ first + UInt64.size →
        m.Settles b → m'.Settles b := by
  cases derived with
  | leaf _ value => cases value
  | label _ value declared =>
    cases value with
    | leaf _ value => cases value
    | @body _ _ _ _ shape _ _ ws m₂ params _ _ arguments attributes =>
      obtain ⟨rfl, rfl⟩ := declare_last rfl declared
      let b : Body Value :=
        { m₂.newBody shape params (attrValues attrs ws) with label := some name }
      have made (x : Body Value) : x ∈ Environment.walk { m₂.env with
          labels := m₂.env.labels.insert name (.body b)
          bodies := m₂.env.bodies ++ [b] } ↔ x ∈ m₂.env.walk ∨ x = b :=
        mem_walk_withBody_iff (m := m₂)
      have earlier := arguments.grows.trans attributes.grows
      refine ⟨b, m₂.run.nextId, rfl, rfl, rfl, earlier.counts, rfl, ?_, ?_, ?_⟩
      · exact (NameMap.get?_insert _ name name _).trans (if_pos rfl)
      · exact List.mem_map_of_mem ((made b).mpr (.inr rfl))
      · intro first start stop settles
        have upper : m₂.run.nextId < first + UInt64.size := stop
        have inv := Moment.settles_invariant (b := b) settings (start.trans earlier.counts) upper
          rfl
        have apart : Moment.Apart first m₂.run.nextId _ _ :=
          ⟨start, upper.le, .inr (Nat.le_refl _)⟩
        obtain ⟨one, two⟩ := inv.split apart arguments.grows.counts attributes.grows.counts
        have between := (arguments.invariant inv one settles (List.forall_mem_nil _)).1
        have before := (attributes.invariant inv two between (List.forall_mem_nil _)).1
        refine ⟨fun x member same => ?_, fun e held => ?_⟩
        · exact ((made x).mp member).elim (fun old => before.bodies x old same) id
        · rcases NameMap.mem_insert held with old | rfl
          · exact before.labels e old
          · exact clear_entity rfl nofun

/-- What is declared so at any place of a program is at the end what its number stands for. -/
theorem Visits.declares {program : Node} {run : Run} {m end_ : Moment} {vs : List Value}
    (visited : Visits settings (.node program) ⟨.empty, run⟩
      (.node (.label name (.body shape args attrs))) m)
    (derived : Derived settings (.node program) ⟨.empty, run⟩ vs end_)
    (left : end_.run.nextId ≤ run.nextId + UInt64.size) :
    ∃ b m', Derived settings (.node (.label name (.body shape args attrs))) m [.body b] m' ∧
      b.label = some name ∧ m'.env.get? name = some (.body b) ∧
      b ∈ end_.env.walk ∧ ∀ x ∈ end_.env.walk, x.id = b.id → x = b := by
  obtain ⟨_, m', part, upwards⟩ := visited.succeeds derived
  obtain ⟨b, k, rfl, label, own, from_, to_, bound, held, settles⟩ := part.declares
  have lower : run.nextId ≤ k := visited.counts.trans from_
  have upper : k < run.nextId + UInt64.size := by
    have := upwards.counts
    omega
  have inv := Moment.settles_invariant settings lower upper own
  -- The statement breaks the invariant when it makes the body, and restores it when it names it; so
  -- the invariant holds up to the statement, and from its end on to the end of the program.
  have empty : Moment.Settles ⟨.empty, run⟩ b := ⟨nofun, nofun⟩
  have earlier : Moment.Apart run.nextId k run.nextId m.run.nextId :=
    ⟨Nat.le_refl _, by omega, .inr from_⟩
  have before := (visited.invariant inv earlier empty (List.forall_mem_nil _)).1
  have named : m'.Settles b := settles run.nextId visited.counts (by omega) before
  have value : (Value.body b).Clear b.id := clear_entity rfl (by simp [unlabelled?, label])
  obtain ⟨_, m'', part', _, ends⟩ :=
    visited.finishes inv derived earlier empty (List.forall_mem_nil _)
  obtain ⟨rfl, rfl⟩ := part'.unique part
  have later : Moment.Apart run.nextId k m''.run.nextId end_.run.nextId :=
    ⟨by omega, left, .inl (by omega)⟩
  have after := (ends later ⟨named, List.forall_mem_singleton.mpr value⟩).1
  obtain ⟨x, member, same⟩ := List.mem_map.mp (upwards.bodies b.id held)
  rw [after.bodies x member same] at member
  exact ⟨b, m'', part, label, bound, member, after.bodies⟩

end Runs

end RigidScene
