import RigidScene.Proofs.Eval.Repetition

/-!
Loops multiply what one call does.

`repeat` and `grid` call a function once for every cell.  Each call begins where the one before it
has left the block and the count, and repeats what a single call from the beginning does
(`Derived.repeats`); so a sweep over `n` cells adds `n` times as much.  `sweep_multiplies` is the
induction over the cells and `loops_multiply` the result.  It says too when a loop succeeds: where
labels may be shared, exactly if the single call does, unless the loop gives out a number of
something that was there before.
-/

namespace RigidScene

/-- The call of the value leads from the first moment to the second one. -/
def Value.Leads (settings : Settings) (f : Value) (name : String) (args : List Value)
    (m m' : Moment) : Prop :=
  ∃ v, f.call settings name args m.env m.run = (.ok (m'.env, v), m'.run)

/-- A call of `repeat` or `grid` with the function, and how often it calls the function. -/
inductive LoopOf (f : Value) : Builtin → List Value → Nat → Prop where
  | «repeat» {x n} (often : Builtin.countArgument .repeat x = .ok n) : LoopOf f .repeat [x, f] n
  | grid {x y nx ny} (wide : Builtin.countArgument .grid x = .ok nx)
    (high : Builtin.countArgument .grid y = .ok ny) : LoopOf f .grid [x, y, f] (nx * ny)

/-- A program can get at the value by the labels or by the function. -/
def Moment.Offers (m : Moment) (f u : Value) : Prop :=
  f.Offers u ∨ ∃ e ∈ m.env.labels.entries, e.2.Offers u

/-- None of the numbers between the counts is that of a body of the block, or of anything without a
label that a program can get at. -/
structure Moment.Spares (m : Moment) (f : Value) (first stop : Nat) : Prop where
  bodies : ∀ b ∈ m.env.bodies, ¬ EntityId.Between first stop b.id
  values : ∀ u, m.Offers f u → ∀ i, u.unlabelled? = some i → ¬ EntityId.Between first stop i

section Calls

variable {settings : Settings} {name : String} {f : Value} {args : List Value} {m m' : Moment}

theorem leads_iff : f.Leads settings name args m m' ↔
    ∃ v, Derived settings (.call name f args) m [v] m' :=
  exists_congr fun _ => derived_iff_call.symm

/-- A call leads to one moment only. -/
theorem leads_unique {m₁ m₂ : Moment} (one : f.Leads settings name args m m₁)
    (two : f.Leads settings name args m m₂) : m₁ = m₂ := by
  obtain ⟨_, one⟩ := leads_iff.mp one
  obtain ⟨_, two⟩ := leads_iff.mp two
  exact (one.unique two).2

/-- A call of a function goes the same way under any name. -/
theorem Derived.called {c : Closure Value} {v : Value}
    (derived : Derived settings (.call name (.closure c) args) m [v] m') (name' : String) :
    Derived settings (.call name' (.closure c) args) m [v] m' := by
  cases derived with
  | closure entered result =>
    obtain ⟨long, deep, rfl⟩ := prepare_ok_iff.mp entered
    exact .closure (prepare_ok_iff.mpr ⟨long, deep, rfl⟩) result

/-- It leaves no labels, and begins only if the run has not been asked to stop. -/
theorem Derived.closure_call {c : Closure Value} {vs : List Value}
    (derived : Derived settings (.call name (.closure c) args) m vs m') :
    m'.env.labels = m.env.labels ∧ m.run.interrupted = false := by
  cases derived with
  | closure entered result => exact ⟨rfl, result.ready⟩

theorem gridCells_length (nx first ny : Nat) :
    (Builtin.gridCells nx first ny).length = nx * ny := by
  simp [Builtin.gridCells, Builtin.rowCells, List.length_flatMap, Nat.mul_comm]

/-- A loop is a sweep over as many cells. -/
theorem LoopOf.sweep (settings : Settings) {b : Builtin} {n : Nat} (loop : LoopOf f b args n) :
    ∃ name' cells, cells.length = n ∧ ∀ name m v m',
      Derived settings (.call name (.builtin b) args) m [v] m' ↔
        ∃ inner, Derived settings (.sweep name' f cells .unit) m [v] inner ∧
          m' = m.returned inner := by
  cases loop with
  | «repeat» often =>
    refine ⟨"repeat", Builtin.cells 0 n, by simp [Builtin.cells], fun name m v m' => ⟨?_, ?_⟩⟩
    · intro derived
      cases derived with
      | operation does => cases does
      | «repeat» often' swept =>
        cases often.symm.trans often'
        exact ⟨_, swept, rfl⟩
    · rintro ⟨inner, swept, rfl⟩
      exact .repeat often swept
  | @grid x y nx ny wide high =>
    refine ⟨"grid", Builtin.gridCells nx 0 ny, gridCells_length nx 0 ny,
      fun name m v m' => ⟨?_, ?_⟩⟩
    · intro derived
      cases derived with
      | operation does => cases does
      | grid wide' high' swept =>
        cases wide.symm.trans wide'
        cases high.symm.trans high'
        exact ⟨_, swept, rfl⟩
    · rintro ⟨inner, swept, rfl⟩
      exact .grid wide high swept

end Calls

/-- A loop has called the function `done` times, each time with the effect of the tally. -/
structure Swept (made : Tally) (m : Moment) (done : Nat) (s : Moment) : Prop where
  labels : s.env.labels = m.env.labels
  depth : s.env.depth = m.env.depth
  tally : s.tally = m.tally.add (made.times done)
  grows : m.Grows s

namespace Swept

variable {settings : Settings} {made : Tally} {m s : Moment} {done : Nat}

theorem start (made : Tally) (m : Moment) : Swept made m 0 m := by
  refine ⟨rfl, rfl, ?_, .refl m⟩
  simp [Tally.add, Tally.times]

theorem count (swept : Swept made m done s) : s.run.nextId = m.run.nextId + done * made.ids :=
  congrArg Tally.ids swept.tally

/-- The next call begins abreast of the first one. -/
theorem abreast (swept : Swept made m done s) {R : Replica settings}
    (first : R.first = m.run.nextId) (gap : R.gap = done * made.ids) (stop : s.run.nextId ≤ R.stop)
    (same : s.run.interrupted = m.run.interrupted)
    (safe : ∀ e ∈ m.env.labels.entries, ∀ u, e.2.Offers u → R.Safe u)
    (spared : R.strict → ∀ i ∈ m.bodyIds, R.Old i) :
    R.Abreast False (made.times done) m s where
  labels := by
    rw [swept.labels]
    exact List.forall₂_same.mpr fun e held => ⟨rfl, .same (safe e held)⟩
  depth := swept.depth
  interrupted := same
  tally := swept.tally
  ids := gap.symm
  matched strict := by
    constructor
    · rintro i j (⟨_, rfl⟩ | ⟨k, lower, upper, rfl, rfl⟩) held
      · exact swept.grows.bodyIds held
      · exact absurd (Replica.between_first lower upper) (spared strict _ held)
    · rintro i j (⟨old, rfl⟩ | ⟨k, lower, upper, rfl, rfl⟩) (nowhere | old') held
      · exact nowhere.elim
      · rcases swept.grows.compositeIds held with before | ⟨k, lower, upper, rfl⟩
        · exact before
        · exact absurd ⟨k, first.trans_le lower, upper.trans_le stop, rfl⟩ old
      · exact nowhere.elim
      · exact absurd (Replica.between_first lower upper) old'

end Swept

/-- What a loop needs, besides its first call, to succeed: labels may be shared, nothing stops the
run, and the numbers that the loop gives out are spared. -/
structure Smooth (settings : Settings) (f : Value) (m : Moment) (stop : Nat) : Prop where
  allows : settings.labelPolicy = .allow
  running : ∀ u, m.Offers f u → u ≠ .builtin .halt
  spares : m.Spares f m.run.nextId stop

section Sweep

variable {settings : Settings} {strict : Prop} {name once : String} {c : Closure Value}
  {m m₁ s : Moment} {v : Value} {made : Tally} {n done : Nat}
  (single : Derived settings (.call once (.closure c) []) m [v] m₁)
  (total : m₁.tally = m.tally.add made)
  (smooth : strict → Smooth settings (.closure c) m (m.run.nextId + n * made.ids))

include single total smooth

/-- A call in a loop adds what the single call does. -/
theorem Swept.call (swept : Swept made m done s) (more : done < n)
    (same : s.run.interrupted = m.run.interrupted)
    (runs : strict ∨ ∃ ws s', Derived settings (.call name (.closure c) []) s ws s') :
    ∃ w s', Derived settings (.call name (.closure c) []) s [w] s' ∧ Swept made m (done + 1) s' ∧
      (strict → s'.run.interrupted = m.run.interrupted) := by
  have ids : m₁.run.nextId = m.run.nextId + made.ids := congrArg Tally.ids total
  have room : (done + 1) * made.ids ≤ n * made.ids := Nat.mul_le_mul_right _ more
  rw [Nat.succ_mul] at room
  let R : Replica settings :=
    { first := m.run.nextId
      last := m₁.run.nextId
      gap := done * made.ids
      stop := m.run.nextId + n * made.ids
      before_stop := by omega
      strict
      allows := fun strictly => (smooth strictly).allows }
  have safe u (offered : m.Offers (.closure c) u) : R.Safe u := fun strictly =>
    ⟨(smooth strictly).running u offered, (smooth strictly).spares.values u offered⟩
  have begun : R.Abreast False (made.times done) m s := by
    have stop : s.run.nextId ≤ m.run.nextId + n * made.ids := by
      rw [swept.count]
      omega
    refine swept.abreast rfl rfl stop same (fun e held u offered => ?_) fun strictly i held => ?_
    · exact safe u (.inr ⟨e, held, offered⟩)
    · obtain ⟨b, member, rfl⟩ := List.mem_map.mp held
      exact (smooth strictly).spares.bodies b member
  have callee : R.Alike (m.Knows False) (.closure c) (.closure c) :=
    .same fun u offered => safe u (.inl offered)
  obtain ⟨_, s', derived, _ | ⟨_, ⟨⟩⟩, ended, kept⟩ :=
    single.repeats (.call callee .nil) begun runs fun _ => ⟨Nat.le_refl _, Nat.le_refl _⟩
  refine ⟨_, s', derived, ⟨?_, ?_, ?_, swept.grows.trans derived.grows⟩,
    fun strictly => ended.interrupted.trans (kept strictly)⟩
  · exact derived.closure_call.1.trans swept.labels
  · exact derived.depth_eq.trans swept.depth
  · rw [ended.tally, total, ← Tally.add_times_succ]

/-- A loop adds what the single call does, as often as it calls. -/
theorem sweep_multiplies (nullary : c.params = []) {cells : List (List Nat)} {last : Value}
    (swept : Swept made m done s) (all : done + cells.length = n)
    (same : strict → s.run.interrupted = m.run.interrupted)
    (runs : strict ∨ ∃ ws s', Derived settings (.sweep name (.closure c) cells last) s ws s') :
    ∃ w s', Derived settings (.sweep name (.closure c) cells last) s [w] s' ∧
      Swept made m n s' := by
  induction cells generalizing done s last with
  | nil =>
    obtain rfl : done = n := all
    exact ⟨last, s, .swept, swept⟩
  | cons cell cells ih =>
    have no_arguments : Builtin.loopArguments (.closure c) cell = [] := by
      simp [Builtin.loopArguments, nullary]
    have more : done < n := by
      rw [List.length_cons] at all
      omega
    -- Where the loop is known to succeed, its next call is known to begin.
    have ready : s.run.interrupted = m.run.interrupted := by
      rcases runs with strictly | ⟨_, _, whole⟩
      · exact same strictly
      · cases whole with
        | cell head _ => rw [head.closure_call.2, single.closure_call.2]
    have runs_head : strict ∨ ∃ ws s', Derived settings (.call name (.closure c) []) s ws s' := by
      refine runs.imp_right ?_
      rintro ⟨_, _, whole⟩
      cases whole with
      | cell head _ => exact ⟨_, _, no_arguments ▸ head⟩
    obtain ⟨w, s₁, called, swept₁, same₁⟩ := swept.call single total smooth more ready runs_head
    have head : Derived settings
        (.call name (.closure c) (Builtin.loopArguments (.closure c) cell)) s [w] s₁ := by
      rw [no_arguments]
      exact called
    have runs_tail : strict ∨
        ∃ ws s', Derived settings (.sweep name (.closure c) cells w) s₁ ws s' := by
      refine runs.imp_right ?_
      rintro ⟨_, _, whole⟩
      cases whole with
      | cell head' tail =>
        obtain ⟨⟨⟩, rfl⟩ := head'.unique head
        exact ⟨_, _, tail⟩
    rw [List.length_cons, ← Nat.add_assoc, Nat.add_right_comm] at all
    obtain ⟨w', s', tail, swept'⟩ := ih swept₁ all same₁ runs_tail
    exact ⟨w', s', .cell head tail, swept'⟩

end Sweep

/-- The tally of a block that has grown is more than it was. -/
theorem Moment.Grows.tally {m m' : Moment} (grows : m.Grows m') :
    ∃ made, m'.tally = m.tally.add made := by
  have longer {α : Type} {bare : α → α} {number : α → EntityId} {lower upper : Nat}
      {old new : List α} (grown : Grown bare number lower upper old new) :
      ∃ k, new.length = old.length + k := by
    obtain ⟨kept, more, rfl, same, _⟩ := grown
    have length := congrArg List.length same
    rw [List.length_map, List.length_map] at length
    exact ⟨more.length, by rw [List.length_append, length]⟩
  obtain ⟨bodies, one⟩ := longer grows.bodies
  obtain ⟨constraints, two⟩ := longer grows.constraints
  obtain ⟨composites, three⟩ := longer grows.composites
  obtain ⟨ids, four⟩ := Nat.exists_eq_add_of_le grows.counts
  exact ⟨⟨bodies, constraints, composites, ids⟩, Tally.ext one two three four⟩

section Loops

variable {settings : Settings} {c : Closure Value} {b : Builtin} {args : List Value} {n : Nat}

/-- A sweep over at least one cell begins with the single call. -/
theorem sweep_begins (nullary : c.params = []) {name : String} {cells : List (List Nat)}
    {last : Value} {m m' : Moment} {vs : List Value} (some_ : 0 < cells.length)
    (swept : Derived settings (.sweep name (.closure c) cells last) m vs m') (once : String) :
    ∃ v m₁, Derived settings (.call once (.closure c) []) m [v] m₁ := by
  cases swept with
  | swept => cases some_
  | @cell _ _ indices _ _ _ _ _ _ _ head =>
    have no_arguments : Builtin.loopArguments (.closure c) indices = [] := by
      simp [Builtin.loopArguments, nullary]
    rw [no_arguments] at head
    exact ⟨_, _, head.called once⟩

/-- A loop that succeeds leaves the labels and the depth of the caller and adds as many entities and
numbers as one call does, as often as it calls; without a call it adds nothing.  Where labels may be
shared, a loop that calls succeeds exactly if one call does, provided that the numbers which it
gives out are spared by what was there before. -/
theorem loops_multiply (settings : Settings) (name once : String) (nullary : c.params = [])
    (loop : LoopOf (.closure c) b args n) (m : Moment) :
    (∀ m', (Value.builtin b).Leads settings name args m m' →
      m'.env.labels = m.env.labels ∧ m'.env.depth = m.env.depth ∧
      (n = 0 → m'.tally = m.tally) ∧
      (0 < n → ∃ m₁ made, (Value.closure c).Leads settings once [] m m₁ ∧
        m₁.tally = m.tally.add made ∧ m'.tally = m.tally.add (made.times n))) ∧
    (0 < n → settings.labelPolicy = .allow →
      (∀ b', m.Offers (.closure c) (.builtin b') → b' ∈ Builtin.table) →
      (∀ m₁, (Value.closure c).Leads settings once [] m m₁ → m.Spares (.closure c) m.run.nextId
        (m.run.nextId + n * (m₁.run.nextId - m.run.nextId))) →
      ((∃ m', (Value.builtin b).Leads settings name args m m') ↔
        ∃ m₁, (Value.closure c).Leads settings once [] m m₁)) := by
  obtain ⟨name', cells, rfl, sweeps⟩ := loop.sweep settings
  refine ⟨fun m' leads => ?multiplies, fun some_ allows table spares => ⟨?first, ?all⟩⟩
  case multiplies =>
    obtain ⟨_, derived⟩ := leads_iff.mp leads
    obtain ⟨inner, whole, rfl⟩ := (sweeps name m _ m').mp derived
    refine ⟨rfl, rfl, fun none_ => ?_, fun some_ => ?_⟩
    · obtain rfl := List.length_eq_zero_iff.mp none_
      cases whole
      rfl
    · obtain ⟨v, m₁, single⟩ := sweep_begins nullary some_ whole once
      obtain ⟨made, total⟩ := single.grows.tally
      obtain ⟨_, s', derived', swept⟩ := sweep_multiplies single total False.elim nullary
        (.start made m) (Nat.zero_add _) False.elim (.inr ⟨_, _, whole⟩)
      obtain ⟨_, rfl⟩ := derived'.unique whole
      exact ⟨m₁, made, leads_iff.mpr ⟨v, single⟩, total, swept.tally⟩
  case first =>
    rintro ⟨m', leads⟩
    obtain ⟨_, derived⟩ := leads_iff.mp leads
    obtain ⟨inner, whole, _⟩ := (sweeps name m _ m').mp derived
    obtain ⟨v, m₁, single⟩ := sweep_begins nullary some_ whole once
    exact ⟨m₁, leads_iff.mpr ⟨v, single⟩⟩
  case all =>
    rintro ⟨m₁, leads⟩
    obtain ⟨v, single⟩ := leads_iff.mp leads
    obtain ⟨made, total⟩ := single.grows.tally
    have ids : m₁.run.nextId = m.run.nextId + made.ids := congrArg Tally.ids total
    have spared := spares m₁ leads
    rw [ids, Nat.add_sub_cancel_left] at spared
    have smooth : Smooth settings (.closure c) m (m.run.nextId + cells.length * made.ids) := by
      refine ⟨allows, ?_, spared⟩
      rintro _ offered rfl
      have listed := table _ offered
      simp [Builtin.table] at listed
    obtain ⟨w, s', whole, _⟩ := sweep_multiplies single total (fun _ => smooth) nullary
      (.start made m) (Nat.zero_add _) (fun _ => rfl) (.inl trivial)
    exact ⟨_, leads_iff.mpr ⟨w, (sweeps name m w _).mpr ⟨s', whole, rfl⟩⟩⟩

end Loops

/-- A function that makes a circle, ties it to a body that it finds by the name `b`, and makes a
block with a circle of its own. -/
def tied : Closure Value where
  serial := 0
  params := []
  body := .composite [
    .label "a" (.body "circle" [.number 0, .number 0, .number 1] []),
    .label "x" (.symbol "b"),
    .constraint (.symbol "a") .rigid (.symbol "x") [],
    .scope (.composite [.body "circle" [.number 0, .number 0, .number 2] []]) []]
  captured := ∅

/-- The name `b` is that of a body with a number, and the count is at another number. -/
def bound (number count : Nat) : Moment where
  env := .ofLabels ⟨[("b", .body ⟨number, .circle, ∅, ∅, none⟩)]⟩
  run := { nextId := count }

/-- What a program gets at there is the body and the function. -/
theorem bound_offers {number count : Nat} {c : Closure Value} (captured : c.captured.entries = [])
    {u : Value} (offered : (bound number count).Offers (.closure c) u) :
    u = .closure c ∨ u = .body ⟨number, .circle, ∅, ∅, none⟩ := by
  rcases offered with function | ⟨e, held, body⟩
  · cases function with
    | itself => exact .inl rfl
    | captured held => rw [captured] at held; cases held
  · obtain rfl := List.mem_singleton.mp held
    cases body
    exact .inr rfl

/-- The body has been made before, so the loop makes twice what one call makes. -/
theorem tied_twice : ∃ m', (Value.builtin .repeat).Leads { labelPolicy := .allow } "repeat"
      [.number 2, .closure tied] (bound 2 5) m' ∧
    m'.tally = { bodies := 2, constraints := 2, composites := 2, ids := 13 } := by
  have ran : ∃ env v run, (Value.closure tied).call { labelPolicy := .allow } "tied" []
      (bound 2 5).env (bound 2 5).run = (.ok (env, v), run) ∧ Moment.tally ⟨env, run⟩ =
        { bodies := 1, constraints := 1, composites := 1, ids := 9 } := by
    refine ⟨_, _, _, rfl, ?_⟩
    rfl
  obtain ⟨env, v, run, single, total⟩ := ran
  have once : (Value.closure tied).Leads { labelPolicy := .allow } "tied" [] (bound 2 5)
      ⟨env, run⟩ := ⟨v, single⟩
  have twice : LoopOf (.closure tied) .repeat [.number 2, .closure tied] 2 := .repeat rfl
  obtain ⟨multiplies, succeeds⟩ :=
    loops_multiply { labelPolicy := .allow } "repeat" "tied" rfl twice (bound 2 5)
  have loop := (succeeds (by decide) rfl ?table ?spares).mpr ⟨_, once⟩
  case table =>
    intro b' offered
    rcases bound_offers rfl offered with function | body
    · cases function
    · cases body
  case spares =>
    intro m₁' once'
    obtain rfl := leads_unique once once'
    refine ⟨nofun, ?_⟩
    rintro u offered i unlabelled ⟨k, lower, upper, rfl⟩
    rcases bound_offers rfl offered with rfl | rfl
    · cases unlabelled
    · have two : 2 = k % UInt64.size := Option.some.inj unlabelled
      have last : run.nextId = 9 := congrArg Tally.ids total
      change 5 ≤ k at lower
      change k < 5 + 2 * (run.nextId - 5) at upper
      have small : k < UInt64.size := by
        simp only [UInt64.size]
        omega
      rw [Nat.mod_eq_of_lt small] at two
      omega
  obtain ⟨m', leads⟩ := loop
  obtain ⟨_, _, _, often⟩ := multiplies m' leads
  obtain ⟨m₁', made, once', one, two⟩ := often (by decide)
  obtain rfl := leads_unique once once'
  refine ⟨m', leads, ?_⟩
  rw [two]
  rw [total] at one
  have before : (bound 2 5).tally = { ids := 5 } := rfl
  simp only [before, Tally.add, Tally.times, Tally.mk.injEq] at one ⊢
  omega

/-- A function that names what it finds by the name `b`, ties it to itself and makes a block. -/
def selfTied : Closure Value where
  serial := 0
  params := []
  body := .composite [
    .label "x" (.symbol "b"),
    .constraint (.symbol "x") .rigid (.symbol "x") [],
    .scope (.composite []) []]
  captured := ∅

/-- If the body has a number that the loop is about to give out, a second call can find what the
first one has made instead, and fail. -/
theorem selfTied_twice_fails : selfTied.params = [] ∧ (bound 2 1).run.interrupted = false ∧
    (∀ b', (bound 2 1).Offers (.closure selfTied) (.builtin b') → b' ∈ Builtin.table) ∧
    LoopOf (.closure selfTied) .repeat [.number 2, .closure selfTied] 2 ∧
    (∃ m₁, (Value.closure selfTied).Leads { labelPolicy := .allow } "repeat" [] (bound 2 1) m₁) ∧
    ((Value.builtin .repeat).call { labelPolicy := .allow } "repeat"
        [.number 2, .closure selfTied] (bound 2 1).env (bound 2 1).run).1 =
      .error (.invalidEndpoint .composite) := by
  refine ⟨rfl, rfl, ?_, .repeat rfl, ⟨⟨_, _⟩, _, rfl⟩, rfl⟩
  intro b' offered
  rcases bound_offers rfl offered with function | body
  · cases function
  · cases body

end RigidScene
