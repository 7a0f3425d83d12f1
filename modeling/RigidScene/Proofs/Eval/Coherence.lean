import RigidScene.Proofs.Eval.Invariant
import RigidScene.Proofs.Eval.LabelUniqueness

/-!
What a number stands for during a run.

A value that a program holds on to is a copy, and the entity that it was copied from may be named
afterwards; but nothing else about an entity ever changes, and its number is never given out again.
So whatever a program can get at agrees, up to its label, with what the block holds under the same
number: `Moment.Trusts` says this of a value and `Moment.Coherent` of all labels of a moment.
`coherent_invariant` goes through what a run can do, and `Reaches.coherent` is the result for every
moment that a run comes to.
-/

namespace RigidScene

namespace Value

/-- The value as if it had no label. -/
def bare : Value → Value
  | .body b => .body b.bare
  | .composite c => .composite c.bare
  | v => v

/-- By the first value a program can get at the second one: a function offers what it has captured.
-/
inductive Offers : Value → Value → Prop where
  | itself {v} : Offers v v
  | captured {c : Closure Value} {e u} (held : e ∈ c.captured.entries) (inside : Offers e.2 u) :
    Offers (.closure c) u

theorem bare_entityId? (v : Value) : v.bare.entityId? = v.entityId? := by
  cases v <;> rfl

theorem bare_withLabel (name : String) (v : Value) : (v.withLabel name).bare = v.bare := by
  cases v <;> rfl

theorem withLabel_congr {u v : Value} (same : u.bare = v.bare) (name : String) :
    u.withLabel name = v.withLabel name := by
  have fresh (v : Value) : v.withLabel name = v.bare.withLabel name := by
    cases v <;> rfl
  rw [fresh u, fresh v, same]

/-- What is no function offers nothing but itself. -/
theorem forall_offers_iff {P : Value → Prop} {v : Value} (whole : ∀ c, v ≠ .closure c) :
    (∀ u, v.Offers u → P u) ↔ P v := by
  refine ⟨fun all => all v .itself, fun holds u offered => ?_⟩
  cases offered with
  | itself => exact holds
  | captured => exact absurd rfl (whole _)

/-- A function offers itself and what its captured labels do. -/
theorem forall_offers_closure_iff {P : Value → Prop} {c : Closure Value} (own : P (.closure c)) :
    (∀ u, (Value.closure c).Offers u → P u) ↔
      ∀ e ∈ c.captured.entries, ∀ u, e.2.Offers u → P u := by
  constructor
  · intro all e held u offered
    exact all u (.captured held offered)
  · intro inside u offered
    cases offered with
    | itself => exact own
    | captured held offered => exact inside _ held u offered

theorem Plain.ne_closure {v : Value} (plain : v.Plain) (c : Closure Value) : v ≠ .closure c := by
  rintro rfl
  cases plain

theorem Plain.entityId? {v : Value} (plain : v.Plain) : v.entityId? = none := by
  cases v with
  | body | composite => cases plain
  | _ => rfl

theorem ne_closure_of_entity {v : Value} {id : EntityId} (own : v.entityId? = some id)
    (c : Closure Value) : v ≠ .closure c := by
  rintro rfl
  cases own

end Value

open Value

/-- The bodies and composites of a block as values. -/
def Environment.entities (env : Environment) : List Value :=
  env.bodies.map .body ++ env.composites.map .composite

theorem mem_entities {env : Environment} {w : Value} : w ∈ env.entities ↔
    (∃ b ∈ env.bodies, .body b = w) ∨ ∃ c ∈ env.composites, .composite c = w := by
  simp [Environment.entities]

/-- What naming finds in a block is, up to its label, the entity with the number. -/
theorem relabel_found {env env' : Environment} {policy : LabelPolicy} {id : EntityId}
    {name : String} {v : Value} (h : env.relabel policy id name = .ok (env', some v)) :
    ∃ w ∈ env.entities, w.entityId? = some id ∧ v = w.withLabel name := by
  obtain ⟨front, b, back, whole, own, _, found, _⟩ | ⟨_, front, c, back, whole, own, _, found, _⟩ |
    ⟨_, _, found, _⟩ := relabel_cases h
  · cases found
    exact ⟨.body b, mem_entities.mpr (.inl ⟨b, by simp [whole], rfl⟩), congrArg some own, rfl⟩
  · cases found
    exact ⟨.composite c, mem_entities.mpr (.inr ⟨c, by simp [whole], rfl⟩), congrArg some own, rfl⟩
  · cases found

namespace Moment

variable {first : Nat} {m m' : Moment}

/-- An entity of a block that has grown was there before, up to its label, or is new. -/
theorem Grows.entities (grows : m.Grows m') {w' : Value} (member : w' ∈ m'.env.entities) :
    (∃ w ∈ m.env.entities, w.bare = w'.bare) ∨
      ∃ k, m.run.nextId ≤ k ∧ k < m'.run.nextId ∧ w'.entityId? = some (.ofCount k) := by
  obtain ⟨b', held, rfl⟩ | ⟨c', held, rfl⟩ := mem_entities.mp member
  · obtain ⟨b, old, same⟩ | ⟨k, lower, upper, own⟩ := grows.bodies.mem held
    · exact .inl ⟨.body b, mem_entities.mpr (.inl ⟨b, old, rfl⟩), congrArg Value.body same⟩
    · exact .inr ⟨k, lower, upper, congrArg some own⟩
  · obtain ⟨c, old, same⟩ | ⟨k, lower, upper, own⟩ := grows.composites.mem held
    · exact .inl ⟨.composite c, mem_entities.mpr (.inr ⟨c, old, rfl⟩),
        congrArg Value.composite same⟩
    · exact .inr ⟨k, lower, upper, congrArg some own⟩

theorem mem_entities_withBody {b : Body Value} {w : Value} :
    w ∈ (m.withBody b).env.entities ↔ w ∈ m.env.entities ∨ w = .body b := by
  simp only [Environment.entities, withBody, List.map_append, List.mem_append, List.map_singleton,
    List.mem_singleton]
  tauto

theorem mem_entities_withComposite {inner : Moment} {c : Composite Value} {w : Value} :
    w ∈ (m.withComposite inner c).env.entities ↔ w ∈ m.env.entities ∨ w = .composite c := by
  simp only [Environment.entities, withComposite, List.map_append, List.mem_append,
    List.map_singleton, List.mem_singleton, or_assoc]

/-- If the value is an entity, its number has been given out in the run, and what the block holds
under it is the value up to its label. -/
def Agrees (m : Moment) (first : Nat) (u : Value) : Prop :=
  ∀ id, u.entityId? = some id → (∃ k, first ≤ k ∧ k < m.run.nextId ∧ id = .ofCount k) ∧
    ∀ w ∈ m.env.entities, w.entityId? = some id → w.bare = u.bare

/-- The block agrees with all that a program can get at by the value. -/
def Trusts (m : Moment) (first : Nat) (v : Value) : Prop :=
  ∀ u, v.Offers u → m.Agrees first u

/-- The entities of the block were numbered in the run, and the block agrees with all labels. -/
structure Coherent (m : Moment) (first : Nat) : Prop where
  start : first ≤ m.run.nextId
  counted : ∀ w ∈ m.env.entities,
    ∃ k, first ≤ k ∧ k < m.run.nextId ∧ w.entityId? = some (.ofCount k)
  labels : ∀ e ∈ m.env.labels.entries, m.Trusts first e.2

/-- Unless the numbers have been used up, the block agrees with all labels and with what the job is
given. -/
def Admits (m : Moment) (first : Nat) (job : Job) : Prop :=
  m.run.nextId ≤ first + UInt64.size → m.Coherent first ∧ ∀ v ∈ job.inputs, m.Trusts first v

section Later

theorem Agrees.of_bare {u u' : Value} (agrees : m.Agrees first u) (same : u'.bare = u.bare) :
    m.Agrees first u' := by
  intro id own
  rw [← bare_entityId?, same, bare_entityId?] at own
  rw [same]
  exact agrees id own

/-- No number is given out twice, so what a block agreed with it goes on to agree with. -/
theorem Agrees.later {u : Value} (agrees : m.Agrees first u) (grows : m.Grows m')
    (left : m'.run.nextId ≤ first + UInt64.size) : m'.Agrees first u := by
  intro id own
  obtain ⟨⟨k, lower, upper, count⟩, held⟩ := agrees id own
  have counts := grows.counts
  refine ⟨⟨k, lower, upper.trans_le counts, count⟩, ?_⟩
  intro w' member same
  obtain ⟨w, old, bare⟩ | ⟨k', lower', upper', own'⟩ := grows.entities member
  · rw [← bare]
    apply held w old
    rw [← bare_entityId?, bare, bare_entityId?, same]
  · have equal : k = k' := by
      apply ofCount_inj lower (by omega) (by omega) (by omega)
      rw [← count]
      exact Option.some.inj (same.symm.trans own')
    omega

theorem Trusts.later {v : Value} (trusts : m.Trusts first v) (grows : m.Grows m')
    (left : m'.run.nextId ≤ first + UInt64.size) : m'.Trusts first v :=
  fun u offered => (trusts u offered).later grows left

/-- A later moment whose labels the block agrees with. -/
theorem Coherent.later (coherent : m.Coherent first) (grows : m.Grows m')
    (labels : ∀ e ∈ m'.env.labels.entries, m'.Trusts first e.2) : m'.Coherent first where
  start := coherent.start.trans grows.counts
  counted w' member := by
    obtain ⟨w, old, bare⟩ | ⟨k, lower, upper, own⟩ := grows.entities member
    · obtain ⟨k, lower, upper, own⟩ := coherent.counted w old
      refine ⟨k, lower, upper.trans_le grows.counts, ?_⟩
      rw [← bare_entityId?, ← bare, bare_entityId?, own]
    · exact ⟨k, coherent.start.trans lower, upper, own⟩
  labels := labels

theorem Coherent.keep_labels (coherent : m.Coherent first) (grows : m.Grows m')
    (left : m'.run.nextId ≤ first + UInt64.size) (same : m'.env.labels = m.env.labels) :
    m'.Coherent first := by
  refine coherent.later grows ?_
  rw [same]
  exact fun e held => (coherent.labels e held).later grows left

/-- Nothing else in the block has the number of a new entity. -/
theorem Coherent.agrees_new (coherent : m.Coherent first) {v : Value} {k : Nat}
    (lower : m.run.nextId ≤ k) (upper : k < m'.run.nextId)
    (left : m'.run.nextId ≤ first + UInt64.size) (own : v.entityId? = some (.ofCount k))
    (new : ∀ w ∈ m'.env.entities, w ∈ m.env.entities ∨ w = v) : m'.Agrees first v := by
  intro id same
  obtain rfl := Option.some.inj (own.symm.trans same)
  have start := coherent.start
  refine ⟨⟨k, start.trans lower, upper, rfl⟩, ?_⟩
  intro w member number
  rcases new w member with old | rfl
  · obtain ⟨k', lower', upper', own'⟩ := coherent.counted w old
    have equal : k' = k := ofCount_inj lower' (by omega) (by omega) (by omega)
      (Option.some.inj (own'.symm.trans number))
    omega
  · rfl

end Later

section Values

variable {first : Nat} {m : Moment}

theorem trusts_plain {v : Value} (plain : v.Plain) : m.Trusts first v := by
  refine (forall_offers_iff plain.ne_closure).mpr ?_
  intro id own
  rw [plain.entityId?] at own
  cases own

theorem trusts_entity {v : Value} {id : EntityId} (own : v.entityId? = some id)
    (agrees : m.Agrees first v) : m.Trusts first v :=
  (forall_offers_iff (ne_closure_of_entity own)).mpr agrees

theorem trusts_closure {c : Closure Value} :
    m.Trusts first (.closure c) ↔ ∀ e ∈ c.captured.entries, m.Trusts first e.2 :=
  forall_offers_closure_iff nofun

end Values

section Blocks

variable {first : Nat} {m : Moment}

/-- An inner block begins without entities that could disagree. -/
theorem Coherent.opened (coherent : m.Coherent first) : m.opened.Coherent first where
  start := coherent.start
  counted w member := by cases member
  labels e held u offered id own :=
    ⟨(coherent.labels e held u offered id own).1, fun w member => by cases member⟩

/-- The beginning of a function's body. -/
theorem Coherent.prepare (coherent : m.Coherent first)
    (left : m.run.nextId ≤ first + UInt64.size) {c : Closure Value} {name : String}
    {args : List Value} {limit : Nat} {env : Environment}
    (entered : c.prepare name args limit m.env = .ok env)
    (given : ∀ v ∈ Value.closure c :: args, m.Trusts first v) :
    Coherent { m with env } first := by
  have grows : m.Grows { m with env } := .of_same (Nat.le_refl _) (prepare_sameEntities entered)
  refine coherent.later grows ?_
  intro e held
  refine Trusts.later ?_ grows left
  rcases prepare_labels entered held with label | captured | argument
  · exact coherent.labels e label
  · exact trusts_closure.mp (given _ List.mem_cons_self) e captured
  · exact given _ (List.mem_cons_of_mem _ argument)

/-- A name is given to what the block holds under the number of the value, and that is the value. -/
theorem Trusts.declare {v v' : Value} (trusts : m.Trusts first v) {policy : LabelPolicy}
    {name : String} {env : Environment}
    (declared : m.env.declare policy name v = .ok (env, v')) : m.Trusts first v' := by
  obtain ⟨_, rfl, _⟩ | ⟨id, _, found, unlabelled, relabelled, rfl, _⟩ := declare_cases declared
  · exact trusts
  · have own := entityId?_of_unlabelled? unlabelled
    have agrees := trusts v .itself
    have same : (found.getD (v.withLabel name)).bare = v.bare := by
      cases found with
      | none => exact bare_withLabel name v
      | some w' =>
        obtain ⟨w, held, number, rfl⟩ := relabel_found relabelled
        exact (bare_withLabel name w).trans ((agrees id own).2 w held number)
    have numbered : (found.getD (v.withLabel name)).entityId? = some id := by
      rw [← bare_entityId?, same, bare_entityId?, own]
    exact trusts_entity numbered (agrees.of_bare same)

/-- A name bound to a trusted value. -/
theorem Coherent.declare (coherent : m.Coherent first)
    (left : m.run.nextId ≤ first + UInt64.size) {v v' : Value} (trusts : m.Trusts first v)
    {policy : LabelPolicy} {name : String} {env : Environment}
    (declared : m.env.declare policy name v = .ok (env, v')) :
    Coherent { m with env } first ∧ Trusts { m with env } first v' := by
  have grows : m.Grows { m with env } := .of_bare (Nat.le_refl _) (declare_bare declared)
  have bound : Trusts { m with env } first v' := (trusts.declare declared).later grows left
  refine ⟨coherent.later grows ?_, bound⟩
  intro e held
  rw [declare_labels_eq declared] at held
  rcases NameMap.mem_insert held with old | rfl
  · exact (coherent.labels e old).later grows left
  · exact bound

end Blocks

end Moment

section Runs

open Moment

variable {settings : Settings} {first : Nat}

/-- As long as the numbers have not been used up, the block goes on to agree with all labels and
values. -/
theorem coherent_invariant (settings : Settings) (first : Nat) :
    Invariant settings (fun _ stop => stop ≤ first + UInt64.size) (fun m => m.Coherent first)
      (fun m v => m.Trusts first v) := by
  constructor
  case within => exact fun left _ _ below => below.trans left
  case later => exact fun grows left trusts => trusts.later grows left
  case plain => exact trusts_plain
  case closure => exact trusts_closure
  case labels => exact fun coherent => coherent.labels
  case uncounted =>
    rintro m ⟨env, run⟩ left rfl count coherent
    have left' : run.nextId ≤ first + UInt64.size := count.trans_le left
    exact coherent.keep_labels (.of_same count.ge (.refl _)) left' rfl
  case body =>
    intro m shape params props left coherent
    refine ⟨coherent.keep_labels (.withBody _ _ _ _) left rfl, trusts_entity rfl ?_⟩
    exact coherent.agrees_new (Nat.le_refl _) (Nat.lt_succ_self _) left rfl
      fun _ => mem_entities_withBody.mp
  case constraint =>
    exact fun _ _ _ _ left coherent =>
      coherent.keep_labels (.withConstraint _ _ _ _ _) left rfl
  case opened => exact Coherent.opened
  case scope =>
    intro m m' transform props counts left coherent _
    have closed := Grows.withComposite counts transform props
    refine ⟨coherent.keep_labels closed left rfl, trusts_entity rfl ?_⟩
    exact coherent.agrees_new counts (Nat.lt_succ_self _) left rfl
      fun _ => mem_entities_withComposite.mp
  case label => exact fun left coherent trusts declared => coherent.declare left trusts declared
  case enter => exact fun left coherent given entered => coherent.prepare left entered given
  case returned => exact fun grows left coherent _ => coherent.keep_labels grows left rfl

/-- What a block agrees with at the beginning of a job it agrees with at the end, and with the
values of the job too. -/
theorem Derived.trusts {job : Job} {m m' : Moment} {vs : List Value}
    (derived : Derived settings job m vs m') (left : m'.run.nextId ≤ first + UInt64.size)
    (before : m.Coherent first) (given : ∀ v ∈ job.inputs, m.Trusts first v) :
    m'.Coherent first ∧ ∀ v ∈ vs, m'.Trusts first v :=
  derived.invariant (coherent_invariant settings first) left before given

/-- What a block agrees with when a job begins it agrees with when a part of the job begins. -/
theorem Spawns.admits {job job' : Job} {m m' : Moment} (spawned : Spawns settings job m job' m')
    (admitted : m.Admits first job) : m'.Admits first job' := by
  intro left
  obtain ⟨before, given⟩ := admitted (spawned.counts.trans left)
  exact spawned.invariant (coherent_invariant settings first) left before given

/-- At every moment of a run that has not used up the numbers, the block agrees with all labels. -/
theorem Reaches.coherent {program : Node} {run : Run} {m : Moment}
    (reached : Reaches settings program run m) (left : m.run.nextId ≤ run.nextId + UInt64.size) :
    m.Coherent run.nextId := by
  have start : Coherent ⟨.empty, run⟩ run.nextId :=
    ⟨Nat.le_refl _, List.forall_mem_nil _, List.forall_mem_nil _⟩
  have inv := coherent_invariant settings run.nextId
  cases reached with
  | begins visited => exact (visited.invariant inv left start (List.forall_mem_nil _)).1
  | ends visited derived =>
    obtain ⟨before, given⟩ := visited.invariant inv (derived.grows.counts.trans left) start
      (List.forall_mem_nil _)
    exact (derived.trusts left before given).1

end Runs

end RigidScene
