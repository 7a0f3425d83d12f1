import RigidScene.Proofs.Eval.Replica

/-!
Two calls of one function abreast.

The second call begins with labels that are alike, behind entities that the first one does not see,
and with its count ahead.  `Abreast` says so of two moments and `Derived.repeats` is the induction
over what the first call does: the second call does the same, so it adds as many entities and
numbers.  Where the replica is strict it is not assumed that the second call succeeds.  Then naming
is the only step that could find something else in the second block, and `Matched` says that it
cannot.
-/

namespace RigidScene

/-- How many entities a block holds directly, and how many numbers have been given out. -/
@[ext]
structure Tally where
  bodies : Nat := 0
  constraints : Nat := 0
  composites : Nat := 0
  ids : Nat := 0
  deriving DecidableEq, Repr

namespace Tally

/-- What both count together. -/
def add (s t : Tally) : Tally :=
  ⟨s.bodies + t.bodies, s.constraints + t.constraints, s.composites + t.composites, s.ids + t.ids⟩

/-- What is counted over and over again. -/
def times (n : Nat) (t : Tally) : Tally :=
  ⟨n * t.bodies, n * t.constraints, n * t.composites, n * t.ids⟩

theorem add_right_comm (s t u : Tally) : (s.add t).add u = (s.add u).add t := by
  simp only [add, Nat.add_right_comm]

theorem add_times_succ (s t : Tally) (n : Nat) :
    s.add (times (n + 1) t) = (s.add t).add (times n t) := by
  simp only [add, times, Nat.succ_mul, mk.injEq]
  omega

end Tally

namespace Moment

/-- What there is at the moment. -/
def tally (m : Moment) : Tally :=
  ⟨m.env.bodies.length, m.env.constraints.length, m.env.composites.length, m.run.nextId⟩

/-- The numbers of the bodies of the block. -/
def bodyIds (m : Moment) : List EntityId :=
  m.env.bodies.map Body.id

/-- The numbers of the composites of the block. -/
def compositeIds (m : Moment) : List EntityId :=
  m.env.composites.map Composite.id

/-- The body with the number is in the block, or it need not be because the block is inside the one
that calls. -/
def Knows (m : Moment) (inside : Prop) (i : EntityId) : Prop :=
  inside ∨ i ∈ m.bodyIds

theorem map_number_of_bare {α : Type} {bare : α → α} {number : α → EntityId}
    (alone : ∀ a, number (bare a) = number a) {old new : List α}
    (same : new.map bare = old.map bare) : new.map number = old.map number := by
  have numbers := congrArg (List.map number) same
  simpa only [List.map_map, Function.comp_def, alone] using numbers

variable {m m' : Moment}

/-- A block keeps its bodies. -/
theorem Grows.bodyIds (grows : m.Grows m') {i : EntityId} (held : i ∈ m.bodyIds) :
    i ∈ m'.bodyIds := by
  obtain ⟨kept, more, whole, same, _⟩ := grows.bodies
  have numbers : kept.map Body.id = m.bodyIds :=
    map_number_of_bare (fun b => (rfl : b.bare.id = b.id)) same
  rw [Moment.bodyIds, whole, List.map_append, numbers]
  exact List.mem_append_left _ held

theorem Grows.compositeIds (grows : m.Grows m') {i : EntityId} (held : i ∈ m'.compositeIds) :
    i ∈ m.compositeIds ∨ i.Between m.run.nextId m'.run.nextId := by
  obtain ⟨c', member, rfl⟩ := List.mem_map.mp held
  rcases grows.composites.mem member with ⟨c, old, same⟩ | new
  · have number : c.bare.id = c'.bare.id := by rw [same]
    exact .inl (List.mem_map.mpr ⟨c, old, number⟩)
  · exact .inr new

theorem Grows.knows (grows : m.Grows m') {inside : Prop} (i : EntityId) (known : m.Knows inside i) :
    m'.Knows inside i :=
  known.imp_right grows.bodyIds

section Declare

variable {policy : LabelPolicy} {name : String} {env : Environment} {v v' : Value}
  (declared : m.env.declare policy name v = .ok (env, v'))

include declared

theorem declare_bodyIds : bodyIds { m with env } = m.bodyIds :=
  map_number_of_bare (fun b => (rfl : b.bare.id = b.id)) (declare_bare declared).1

theorem declare_compositeIds : compositeIds { m with env } = m.compositeIds :=
  map_number_of_bare (fun c => (rfl : c.bare.id = c.id)) (declare_bare declared).2.2

theorem declare_knows (inside : Prop) : Knows { m with env } inside = m.Knows inside := by
  funext i
  rw [Knows, Knows, declare_bodyIds declared]

theorem declare_tally : tally { m with env } = m.tally := by
  obtain ⟨bodies, constraints, composites⟩ := declare_bare declared
  have bodies' := congrArg List.length bodies
  have composites' := congrArg List.length composites
  rw [List.length_map, List.length_map] at bodies' composites'
  simp only [tally, bodies', constraints, composites']

end Declare

end Moment

section Naming

variable {env env' : Environment} {policy : LabelPolicy} {name : String} {v v' : Value}

/-- A label statement binds an entity to the name only if it is given one. -/
theorem declare_isEntity (declared : env.declare policy name v = .ok (env', v')) :
    v'.isEntity = v.isEntity ∧ (v.isEntity = false → v' = v) := by
  obtain ⟨_, rfl, _⟩ | ⟨id, _, found, unlabelled, relabelled, rfl, _⟩ := declare_cases declared
  · exact ⟨rfl, fun _ => rfl⟩
  · have given : v.isEntity = true := by
      cases v <;> first | rfl | cases unlabelled
    have bound : (found.getD (v.withLabel name)).isEntity = true := by
      obtain ⟨_, _, _, _, _, _, rfl, _⟩ | ⟨_, _, _, _, _, _, _, rfl, _⟩ | ⟨_, _, rfl, _⟩ :=
        relabel_cases relabelled
      · rfl
      · rfl
      · cases v <;> first | rfl | cases given
    rw [bound, given]
    exact ⟨rfl, nofun⟩

/-- What is not to be found by a number is bound as it is. -/
theorem declare_unnumbered (declared : env.declare policy name v = .ok (env', v'))
    (unnumbered : v.unlabelled? = none) : v' = v := by
  obtain ⟨_, rfl, _⟩ | ⟨_, _, _, unlabelled, _⟩ := declare_cases declared
  · rfl
  · rw [unnumbered] at unlabelled
    cases unlabelled

/-- What has no label is given one. -/
theorem declare_labelled (declared : env.declare policy name v = .ok (env', v')) :
    v'.unlabelled? = none := by
  obtain ⟨labelled, rfl, _⟩ | ⟨id, _, found, unlabelled, relabelled, rfl, _⟩ :=
    declare_cases declared
  · exact labelled
  · obtain ⟨_, _, _, _, _, _, rfl, _⟩ | ⟨_, _, _, _, _, _, _, rfl, _⟩ | ⟨_, _, rfl, _⟩ :=
      relabel_cases relabelled
    · rfl
    · rfl
    · cases v <;> rfl

/-- It is a body if the block has a body with the number, or if it was one and the block has nothing
with the number. -/
theorem declare_kind (declared : env.declare policy name v = .ok (env', v')) {i : EntityId}
    (unlabelled : v.unlabelled? = some i) : v'.kind = .body ↔ i ∈ env.bodies.map Body.id ∨
      i ∉ env.composites.map Composite.id ∧ v.kind = .body := by
  obtain ⟨labelled, _⟩ | ⟨id, _, found, unlabelled', relabelled, rfl, _⟩ := declare_cases declared
  · rw [unlabelled] at labelled
    cases labelled
  obtain rfl : id = i := Option.some.inj (unlabelled'.symm.trans unlabelled)
  obtain ⟨front, b, back, whole, own, _, rfl, _⟩ |
    ⟨no_body, front, c, back, whole, own, _, rfl, _⟩ | ⟨no_body, no_composite, rfl, _⟩ :=
    relabel_cases relabelled
  · refine iff_of_true rfl (.inl ?_)
    simp [whole, own]
  · refine iff_of_false nofun ?_
    simpa [whole, own] using fun b held => no_body b (by simpa [whole] using held)
  · have kind : (v.withLabel name).kind = v.kind := by cases v <;> rfl
    have bodies : id ∉ env.bodies.map Body.id := by simpa using no_body
    have composites : id ∉ env.composites.map Composite.id := by simpa using no_composite
    simp [kind, bodies, composites]

/-- Where labels may be shared, every value can be named. -/
theorem declare_succeeds (env : Environment) (name : String) (v : Value) :
    ∃ env' v', env.declare .allow name v = .ok (env', v') := by
  unfold Environment.declare
  cases v.unlabelled? with
  | none => exact ⟨_, _, rfl⟩
  | some id =>
    have free : env.checkLabel .allow id name = .ok () := rfl
    simp only [relabel_eq free]
    exact ⟨_, _, rfl⟩

end Naming

namespace Replica

variable {settings : Settings} (R : Replica settings)

/-- The first call means by the first number what the second call means by the second one: what was
there before, or what both have made. -/
def Matches (i j : EntityId) : Prop :=
  R.Old i ∧ i = j ∨ R.Renumbers i j

/-- By its number a body of the first block is found in the second one too, and a composite is found
in the second block only if it is found in the first.  In the block that calls, the second call may
find composites under the numbers that it gives out itself. -/
structure Matched (inside : Prop) (m n : Moment) : Prop where
  bodies : ∀ i j, R.Matches i j → i ∈ m.bodyIds → j ∈ n.bodyIds
  composites : ∀ i j, R.Matches i j → inside ∨ R.Old i → j ∈ n.compositeIds → i ∈ m.compositeIds

/-- The second call is where the first one is.  It has the same depth and has been asked to stop if
the first one has; its labels are alike; and there is `more` than in the first call. -/
structure Abreast (inside : Prop) (more : Tally) (m n : Moment) : Prop where
  labels : R.AlikeEntries (m.Knows inside) m.env.labels.entries n.env.labels.entries
  depth : n.env.depth = m.env.depth
  interrupted : n.run.interrupted = m.run.interrupted
  tally : n.tally = m.tally.add more
  ids : more.ids = R.gap
  matched : R.strict → R.Matched inside m n

/-- Between the moments the first call gives out numbers that the replica is about. -/
def Within (m m' : Moment) : Prop :=
  R.strict → R.first ≤ m.run.nextId ∧ m'.run.nextId ≤ R.last

/-- The second call succeeds with the job, unless the replica is strict; then nothing is assumed. -/
def Runs (job : Job) (n : Moment) : Prop :=
  R.strict ∨ ∃ ws n', Derived settings job n ws n'

/-- The second call succeeds with the job and is then where the first one is, with values that are
alike.  The first one has not been asked to stop. -/
def Repeats (inside : Prop) (more : Tally) (job : Job) (n m : Moment) (vs : List Value)
    (m' : Moment) : Prop :=
  ∃ ws n', Derived settings job n ws n' ∧ List.Forall₂ (R.Alike (m'.Knows inside)) vs ws ∧
    R.Abreast inside more m' n' ∧ (R.strict → m'.run.interrupted = m.run.interrupted)

variable {R} {inside : Prop} {more : Tally} {m n m' n' : Moment}

section Numbers

variable {k : Nat} (lower : R.first ≤ k) (upper : k < R.last)

include lower upper

theorem between_first : EntityId.Between R.first R.stop (.ofCount k) :=
  ⟨k, lower, by have := R.before_stop; omega, rfl⟩

theorem between_second : EntityId.Between R.first R.stop (.ofCount (k + R.gap)) :=
  ⟨k + R.gap, by omega, by have := R.before_stop; omega, rfl⟩

theorem renumbers : R.Renumbers (.ofCount k) (.ofCount (k + R.gap)) :=
  ⟨k, lower, upper, rfl, rfl⟩

/-- The two numbers that a new entity gets are matched with each other only. -/
theorem matches_iff {i j : EntityId} (matched : R.Matches i j) :
    i = .ofCount k ↔ j = .ofCount (k + R.gap) := by
  rcases matched with ⟨old, rfl⟩ | ⟨k', _, _, rfl, rfl⟩
  · constructor
    · rintro rfl
      exact absurd (between_first lower upper) old
    · rintro rfl
      exact absurd (between_second lower upper) old
  · exact ⟨fun same => ofCount_add same _, ofCount_add_cancel⟩

end Numbers

/-- Only the numbers of bodies and composites matter for it. -/
theorem Matched.of_same (matched : R.Matched inside m n) (bodies : m'.bodyIds = m.bodyIds)
    (composites : m'.compositeIds = m.compositeIds) (bodies' : n'.bodyIds = n.bodyIds)
    (composites' : n'.compositeIds = n.compositeIds) : R.Matched inside m' n' where
  bodies := by
    rw [bodies, bodies']
    exact matched.bodies
  composites := by
    rw [composites, composites']
    exact matched.composites

namespace Abreast

variable (abreast : R.Abreast inside more m n)

include abreast

theorem ready (ready : m.run.interrupted = false) : n.run.interrupted = false :=
  abreast.interrupted.trans ready

theorem count : n.run.nextId = m.run.nextId + R.gap := by
  rw [← abreast.ids]
  exact congrArg Tally.ids abreast.tally

theorem freshId : n.freshId = .ofCount (m.run.nextId + R.gap) :=
  congrArg EntityId.ofCount abreast.count

theorem serialled : R.Abreast inside more m.serialled n.serialled where
  __ := abreast
  matched strict := (abreast.matched strict).of_same rfl rfl rfl rfl

theorem halted : R.Abreast inside more m.halted n.halted where
  __ := abreast
  interrupted := rfl
  matched strict := (abreast.matched strict).of_same rfl rfl rfl rfl

/-- Both have made a body. -/
theorem withBody (within : R.strict → R.first ≤ m.run.nextId ∧ m.run.nextId + 1 ≤ R.last)
    (shape : Shape) (params props params' props' : NameMap Value) :
    R.Abreast inside more (m.withBody (m.newBody shape params props))
      (n.withBody (n.newBody shape params' props')) where
  labels := abreast.labels.mono (Moment.Grows.withBody m shape params props).knows
  depth := abreast.depth
  interrupted := abreast.interrupted
  tally := by
    have one (m : Moment) (b : Body Value) : (m.withBody b).tally =
        m.tally.add { bodies := 1, ids := 1 } := by
      simp [Moment.tally, Moment.withBody, Moment.counted, Tally.add]
    rw [one, one, abreast.tally, Tally.add_right_comm]
  ids := abreast.ids
  matched strict := by
    obtain ⟨lower, upper⟩ := within strict
    obtain ⟨bodies, composites⟩ := abreast.matched strict
    refine ⟨fun i j matched held => ?_, composites⟩
    simp only [Moment.bodyIds, Moment.withBody, List.map_append, List.mem_append] at held ⊢
    refine held.imp (bodies i j matched) fun new => ?_
    have own : i = .ofCount m.run.nextId := List.mem_singleton.mp new
    rw [(matches_iff lower upper matched).mp own, ← abreast.freshId]
    exact List.mem_singleton.mpr rfl

theorem withConstraint (source target source' target' : Endpoint) (kind : EdgeKind)
    (attrs attrs' : NameMap Value) :
    R.Abreast inside more (m.withConstraint (m.newConstraint source kind target attrs))
      (n.withConstraint (n.newConstraint source' kind target' attrs')) where
  labels := abreast.labels
  depth := abreast.depth
  interrupted := abreast.interrupted
  tally := by
    have one (m : Moment) (c : Constraint Value) : (m.withConstraint c).tally =
        m.tally.add { constraints := 1, ids := 1 } := by
      simp [Moment.tally, Moment.withConstraint, Moment.counted, Environment.addConstraint,
        Tally.add]
    rw [one, one, abreast.tally, Tally.add_right_comm]
  ids := abreast.ids
  matched strict := (abreast.matched strict).of_same rfl rfl rfl rfl

/-- Inside, both begin with nothing. -/
theorem opened : R.Abreast True { ids := R.gap } m.opened n.opened where
  labels := abreast.labels.mono fun _ _ => .inl trivial
  depth := abreast.depth
  interrupted := abreast.interrupted
  tally := by
    simp [Moment.tally, Moment.opened, Environment.cleared, Tally.add, abreast.count]
  ids := rfl
  matched _ := ⟨fun _ _ _ => nofun, fun _ _ _ _ => nofun⟩

/-- Both have closed an inner block. -/
theorem withComposite (inner : R.Abreast True { ids := R.gap } m' n')
    (counts : m.run.nextId ≤ m'.run.nextId)
    (within : R.strict → R.first ≤ m.run.nextId ∧ m'.run.nextId + 1 ≤ R.last)
    (transform : Transform) (props props' : NameMap Value) :
    R.Abreast inside more (m.withComposite m' (m'.closed transform props))
      (n.withComposite n' (n'.closed transform props')) where
  labels := abreast.labels
  depth := abreast.depth
  interrupted := inner.interrupted
  tally := by
    have outside := abreast.tally
    have count := inner.count
    have ids := abreast.ids
    simp only [Moment.tally, Tally.add, Tally.mk.injEq] at outside
    simp only [Moment.tally, Moment.withComposite, Moment.counted, Tally.add, Tally.mk.injEq,
      List.length_append, List.length_singleton]
    omega
  ids := abreast.ids
  matched strict := by
    obtain ⟨lower, upper⟩ := within strict
    obtain ⟨bodies, composites⟩ := abreast.matched strict
    refine ⟨bodies, fun i j matched here held => ?_⟩
    simp only [Moment.compositeIds, Moment.withComposite, List.map_append, List.mem_append]
      at held ⊢
    refine held.imp (composites i j matched here) fun new => ?_
    have own : j = .ofCount (m'.run.nextId + R.gap) :=
      (List.mem_singleton.mp new).trans inner.freshId
    have lower' : R.first ≤ m'.run.nextId := lower.trans counts
    exact List.mem_singleton.mpr ((matches_iff lower' upper matched).mpr own)

/-- Both have come back from a call. -/
theorem returned (inner : R.Abreast inside more m' n') (grows : m.Grows (m.returned m')) :
    R.Abreast inside more (m.returned m') (n.returned n') where
  labels := abreast.labels.mono grows.knows
  depth := abreast.depth
  interrupted := inner.interrupted
  tally := inner.tally
  ids := inner.ids
  matched strict := (inner.matched strict).of_same rfl rfl rfl rfl

end Abreast

section Declare

variable {known : EntityId → Prop} {v w : Value}

theorem Alike.isEntity_eq (alike : R.Alike known v w) : v.isEntity = w.isEntity := by
  cases alike with
  | same | closure => rfl
  | entity first second => rw [first, second]

section Strict

variable (alike : R.Alike known v w) (strict : R.strict)

include alike strict

/-- Both calls find what the other one finds, if they name their values. -/
theorem Alike.matches : Option.Rel R.Matches v.unlabelled? w.unlabelled? := by
  cases alike with
  | same safe =>
    have old := (safe v .itself strict).2
    cases number : v.unlabelled? with
    | none => exact .none
    | some i => exact .some (.inl ⟨old i number, rfl⟩)
  | entity _ _ twins =>
    obtain ⟨_, numbers, _⟩ := twins strict
    generalize v.unlabelled? = i at numbers ⊢
    generalize w.unlabelled? = j at numbers ⊢
    cases numbers with
    | none => exact .none
    | some numbers => exact .some (.inr numbers)
  | closure => exact .none

/-- In a strict replica nothing stops the run. -/
theorem Alike.running : v ≠ .builtin .halt := by
  cases alike with
  | same safe => exact (safe v .itself strict).1
  | entity first => rintro rfl; cases first
  | closure => nofun

theorem Alike.body (kind : v.kind = .body) : w.kind = .body := by
  cases alike with
  | same => exact kind
  | entity _ _ twins => exact (twins strict).body kind
  | closure => cases kind

theorem Alike.old_or_known (kind : v.kind = .body) {i : EntityId}
    (unlabelled : v.unlabelled? = some i) : R.Old i ∨ known i := by
  cases alike with
  | same safe => exact .inl ((safe v .itself strict).2 i unlabelled)
  | entity _ _ twins => exact .inr ((twins strict).known kind i unlabelled)
  | closure => cases kind

end Strict

variable {name : String} {policy policy' : LabelPolicy} {env env' : Environment} {v' w' : Value}
  (abreast : R.Abreast inside more m n) (alike : R.Alike (m.Knows inside) v w)
  (declared : m.env.declare policy name v = .ok (env, v'))
  (declared' : n.env.declare policy' name w = .ok (env', w'))

include abreast alike declared declared'

/-- Where the first call names a body the second one names a body. -/
theorem Abreast.declare_body (strict : R.strict) (kind : v'.kind = .body) : w'.kind = .body := by
  have numbers := alike.matches strict
  cases number : v.unlabelled? <;> cases number' : w.unlabelled? <;>
    rw [number, number'] at numbers
  case none.none =>
    rw [declare_unnumbered declared number] at kind
    rw [declare_unnumbered declared' number']
    exact alike.body strict kind
  case none.some | some.none => cases numbers
  case some.some i j =>
    cases numbers with
    | some matched =>
      obtain ⟨bodies, composites⟩ := abreast.matched strict
      rw [declare_kind declared number] at kind
      rw [declare_kind declared' number']
      rcases kind with found | ⟨absent, kind⟩
      · exact .inl (bodies i j matched found)
      rcases alike.old_or_known strict kind number with old | inner | found
      · exact .inr ⟨mt (composites i j matched (.inr old)) absent, alike.body strict kind⟩
      · exact .inr ⟨mt (composites i j matched (.inl inner)) absent, alike.body strict kind⟩
      · exact .inl (bodies i j matched found)

/-- Both name what they have, and go on abreast. -/
theorem Abreast.declare : R.Alike (m.Knows inside) v' w' ∧
    R.Abreast inside more { m with env } { n with env := env' } := by
  have bound : R.Alike (m.Knows inside) v' w' := by
    obtain ⟨entity, other⟩ := declare_isEntity declared
    obtain ⟨entity', other'⟩ := declare_isEntity declared'
    cases given : v.isEntity with
    | false =>
      rw [other given, other' (alike.isEntity_eq ▸ given)]
      exact alike
    | true =>
      refine .entity (entity.trans given) (entity'.trans (alike.isEntity_eq ▸ given)) ?_
      intro strict
      refine ⟨abreast.declare_body alike declared declared' strict, ?_, ?_⟩
      · rw [declare_labelled declared, declare_labelled declared']
        exact .none
      · intro _ i unlabelled
        rw [declare_labelled declared] at unlabelled
        cases unlabelled
  refine ⟨bound, ?_, ?_, abreast.interrupted, ?_, abreast.ids, fun strict => ?_⟩
  · rw [Moment.declare_knows declared, declare_labels_eq declared, declare_labels_eq declared']
    exact abreast.labels.insert name bound
  · have depth := declare_depth declared
    have depth' := declare_depth declared'
    exact depth'.trans (abreast.depth.trans depth.symm)
  · rw [Moment.declare_tally declared, Moment.declare_tally declared', abreast.tally]
  · exact (abreast.matched strict).of_same (Moment.declare_bodyIds declared)
      (Moment.declare_compositeIds declared) (Moment.declare_bodyIds declared')
      (Moment.declare_compositeIds declared')

end Declare

/-- Both begin the body of the function that they call. -/
theorem Abreast.prepare (abreast : R.Abreast inside more m n) {c c' : Closure Value}
    {name name' : String} {args args' : List Value} {limit : Nat} {env : Environment}
    (callee : R.Alike (m.Knows inside) (.closure c) (.closure c'))
    (arguments : List.Forall₂ (R.Alike (m.Knows inside)) args args')
    (entered : c.prepare name args limit m.env = .ok env) :
    ∃ env', c'.prepare name' args' limit n.env = .ok env' ∧
      R.Abreast inside more { m with env } { n with env := env' } := by
  obtain ⟨long, deep, rfl⟩ := prepare_ok_iff.mp entered
  obtain ⟨_, ⟨⟩, params, _, captured⟩ := Alike.closure_iff.mp callee
  have depth := abreast.depth
  refine ⟨_, prepare_ok_iff.mpr ⟨?_, depth.trans_lt deep, rfl⟩, ?_⟩
  · rw [params, long, arguments.length_eq]
  refine ⟨?_, congrArg (· + 1) depth, abreast.interrupted, abreast.tally, abreast.ids, ?_⟩
  · rw [params]
    exact (abreast.labels.withFallback captured).insertAll (.zip _ arguments)
  · exact fun strict => (abreast.matched strict).of_same rfl rfl rfl rfl

end Replica

end RigidScene
