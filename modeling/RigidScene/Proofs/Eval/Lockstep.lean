import RigidScene.Proofs.Eval.Answers
import RigidScene.Proofs.Eval.Renumbering

/-!
Two runs of one program in lockstep.

The second run may begin with its count ahead of the first one's, and its settings may be looser.
Then it does what the first one does under other numbers, until the first one fails at a limit that
the settings have changed.  `Lockstep.Follows` says so of two actions and is kept by putting actions
together; so every expression has it if the operations on values and environments do:
`Lockstep.eval_follows`.
-/

namespace RigidScene

open Eval Outcome

/-- The second settings allow whatever the first ones do. -/
structure Settings.Looser (s s' : Settings) : Prop where
  depth : s.maxCallDepth ≤ s'.maxCallDepth
  policy : s'.labelPolicy = s.labelPolicy ∨ s'.labelPolicy = .allow

/-- The error is of a limit in which the settings differ. -/
def EvalError.OfLimit (s s' : Settings) : EvalError → Prop
  | .stackOverflow _ _ => s.maxCallDepth < s'.maxCallDepth
  | .duplicateLabel _ => s'.labelPolicy ≠ s.labelPolicy
  | _ => False

/-- The run with its count further on. -/
def Run.ahead (run : Run) (gap : Nat) : Run :=
  { run with nextId := run.nextId + gap }

/-- How the second of two runs differs from the first. -/
structure Lockstep where
  first : Settings
  second : Settings
  looser : first.Looser second
  /-- How far its count is ahead. -/
  gap : Nat
  /-- The numbers of entities in the second run by those in the first. -/
  number : EntityId → EntityId
  injective : Function.Injective number

namespace Lockstep

variable (L : Lockstep) {α β γ δ : Type}

/-- The answer of the second run for an answer of the first one with an environment. -/
def along (f : α → β) (answer : Environment × α) : Environment × β :=
  (answer.1.renumber L.number, f answer.2)

/-- The second result is the first one under other numbers, unless that is the error of a limit. -/
def Alike (f : α → β) (x : Except EvalError α) (y : Except EvalError β) : Prop :=
  match x with
  | .ok a => y = .ok (f a)
  | .error e => e.OfLimit L.first L.second ∨ y = .error (e.renumber L.number)

/-- The numbers that the first run gives out between the counts become those of the second run. -/
def Carries (lower upper : Nat) : Prop :=
  ∀ k, lower ≤ k → k < upper → L.number (.ofCount k) = .ofCount (k + L.gap)

/-- Whatever the first action does in a run, the second one does in the run that is ahead, under
other numbers, unless the first one fails at a limit. -/
structure Follows (f : α → β) (x : Eval α) (y : Eval β) : Prop where
  ok : ∀ run a run', x run = (.ok a, run') → run.nextId ≤ run'.nextId ∧
    (L.Carries run.nextId run'.nextId → y (run.ahead L.gap) = (.ok (f a), run'.ahead L.gap))
  error : ∀ run e run', x run = (.error e, run') → run.nextId ≤ run'.nextId ∧
    (L.Carries run.nextId run'.nextId → e.OfLimit L.first L.second ∨
      y (run.ahead L.gap) = (.error (e.renumber L.number), run'.ahead L.gap))

variable {L}

theorem Carries.mono {lower upper lower' upper' : Nat} (carries : L.Carries lower upper)
    (start : lower ≤ lower') (stop : upper' ≤ upper) : L.Carries lower' upper' :=
  fun k from_ to_ => carries k (Nat.le_trans start from_) (Nat.lt_of_lt_of_le to_ stop)

section Results

variable {f : α → β} {g : γ → δ} {x : Except EvalError α} {y : Except EvalError β}

theorem Alike.bind {h : α → Except EvalError γ} {k : β → Except EvalError δ}
    (first : L.Alike f x y) (rest : ∀ a, L.Alike g (h a) (k (f a))) :
    L.Alike g (x >>= h) (y >>= k) := by
  cases x with
  | ok a =>
    cases first
    exact rest a
  | error e => exact first.imp_right fun same => by rw [same]; rfl

theorem Alike.ok (a : α) : L.Alike f (.ok a) (.ok (f a)) := rfl

theorem Alike.error (e : EvalError) :
    L.Alike f (.error e) (.error (e.renumber L.number)) := .inr rfl

end Results

section Actions

variable {f : α → β} {g : γ → δ} {x : Eval α} {y : Eval β}

theorem Follows.pure (a : α) : L.Follows f (pure a) (pure (f a)) where
  ok run b run' h := by
    obtain ⟨rfl, rfl⟩ := pure_ok_iff.mp h
    exact ⟨Nat.le_refl _, fun _ => rfl⟩
  error run e run' h := by cases h

theorem Follows.bind {h : α → Eval γ} {k : β → Eval δ} (first : L.Follows f x y)
    (rest : ∀ a, L.Follows g (h a) (k (f a))) : L.Follows g (x >>= h) (y >>= k) where
  ok run b run' ran := by
    obtain ⟨a, mid, before, behind⟩ := bind_ok_iff.mp ran
    obtain ⟨count, same⟩ := first.ok run a mid before
    obtain ⟨count', same'⟩ := (rest a).ok mid b run' behind
    refine ⟨Nat.le_trans count count', fun carries => ?_⟩
    exact (bind_of_ok (same (carries.mono (Nat.le_refl _) count'))).trans
      (same' (carries.mono count (Nat.le_refl _)))
  error run e run' ran := by
    rcases bind_error_iff.mp ran with failed | ⟨a, mid, before, behind⟩
    · obtain ⟨count, same⟩ := first.error run e run' failed
      exact ⟨count, fun carries => (same carries).imp_right bind_of_error⟩
    · obtain ⟨count, same⟩ := first.ok run a mid before
      obtain ⟨count', same'⟩ := (rest a).error mid e run' behind
      refine ⟨Nat.le_trans count count', fun carries => ?_⟩
      refine (same' (carries.mono count (Nat.le_refl _))).imp_right fun failed => ?_
      exact (bind_of_ok (same (carries.mono (Nat.le_refl _) count'))).trans failed

theorem Follows.lift {x : Except EvalError α} {y : Except EvalError β} (alike : L.Alike f x y) :
    L.Follows f (liftM x) (liftM y) where
  ok run a run' h := by
    obtain ⟨rfl, rfl⟩ := lift_ok_iff.mp h
    exact ⟨Nat.le_refl _, fun _ => lift_of_ok alike⟩
  error run e run' h := by
    cases x with
    | ok a => cases h
    | error e' =>
      cases h
      refine ⟨Nat.le_refl _, fun _ => alike.imp_right fun same => ?_⟩
      rw [same]
      rfl

/-- Where the first run fails at a limit, the second one may do anything. -/
theorem Follows.throw_limit {e : EvalError} (limit : e.OfLimit L.first L.second) :
    L.Follows f (throw e) y where
  ok run a run' h := by cases h
  error run e' run' h := by
    cases h
    exact ⟨Nat.le_refl _, fun _ => .inl limit⟩

theorem Follows.throw (e : EvalError) :
    L.Follows f (throw e) (throw (e.renumber L.number)) :=
  .lift (x := .error e) (y := .error (e.renumber L.number)) (.error e)

theorem Follows.checkInterrupt : L.Follows id Eval.checkInterrupt Eval.checkInterrupt where
  ok run u run' h := by
    obtain ⟨ready, rfl⟩ := checkInterrupt_ok_iff.mp h
    exact ⟨Nat.le_refl _, fun _ => checkInterrupt_ok_iff.mpr ⟨ready, rfl⟩⟩
  error run e run' h := by
    cases asked : run.interrupted with
    | false =>
      rw [checkInterrupt_of_ready asked] at h
      cases h
    | true =>
      rw [checkInterrupt_of_asked asked] at h
      cases h
      exact ⟨Nat.le_refl _, fun _ => .inr (checkInterrupt_of_asked asked)⟩

theorem Follows.mintId : L.Follows L.number Eval.mintId Eval.mintId where
  ok run n run' h := by
    obtain ⟨rfl, rfl⟩ := mintId_ok_iff.mp h
    refine ⟨Nat.le_succ _, fun carries => ?_⟩
    rw [carries run.nextId (Nat.le_refl _) (Nat.lt_succ_self _)]
    refine mintId_ok_iff.mpr ⟨rfl, ?_⟩
    simp only [Run.ahead, Nat.add_right_comm]
  error run e run' h := by cases h

theorem Follows.mintSerial : L.Follows id Eval.mintSerial Eval.mintSerial where
  ok run n run' h := by
    obtain ⟨rfl, rfl⟩ := mintSerial_ok_iff.mp h
    exact ⟨Nat.le_refl _, fun _ => rfl⟩
  error run e run' h := by cases h

theorem Follows.interrupt : L.Follows id Eval.interrupt Eval.interrupt where
  ok run u run' h := by
    cases interrupt_ok_iff.mp h
    exact ⟨Nat.le_refl _, fun _ => rfl⟩
  error run e run' h := by cases h

end Actions

section Operations

variable {policy policy' : LabelPolicy}

theorem expectNumber_alike (site : TypeSite) (v : Value) :
    L.Alike id (expectNumber site v) (expectNumber site (v.renumber L.number)) := by
  cases v with
  | number x => exact .ok x
  | _ => exact .error _

theorem expectPoint_alike (site : TypeSite) (v : Value) :
    L.Alike id (expectPoint site v) (expectPoint site (v.renumber L.number)) := by
  cases v with
  | vector p => exact .ok p
  | _ => exact .error _

theorem ofValues_alike (x y : Value) :
    L.Alike id (Point.ofValues x y)
      (Point.ofValues (x.renumber L.number) (y.renumber L.number)) := by
  apply (expectNumber_alike _ x).bind
  intro x
  apply (expectNumber_alike _ y).bind
  intro y
  exact .ok _

theorem ofValue_alike (v : Value) :
    L.Alike (Endpoint.renumber L.number) (Endpoint.ofValue v)
      (Endpoint.ofValue (v.renumber L.number)) := by
  cases v with
  | body b => cases b; exact .ok _
  | string s => exact .ok _
  | _ => exact .error _

theorem assignFixed_alike (shape : Shape) (fixed : List (String × Value)) :
    L.Alike id (shape.assignFixed fixed)
      (shape.assignFixed (fixed.map fun e => (e.1, e.2.renumber L.number))) := by
  induction fixed with
  | nil => exact .ok ()
  | cons e fixed ih =>
    apply (expectNumber_alike _ e.2).bind
    intro _
    exact ih

theorem assignRest_alike (shape : Shape) (name : String) (vs : List Value) :
    L.Alike id (shape.assignRest name vs)
      (shape.assignRest name (vs.map (Value.renumber L.number))) := by
  induction vs with
  | nil => exact .ok ()
  | cons v vs ih =>
    apply (expectPoint_alike _ v).bind
    intro _
    exact ih

theorem assign_alike (shape : Shape) (args : List Value) :
    L.Alike (NameMap.renumber L.number) (shape.assign args)
      (shape.assign (args.map (Value.renumber L.number))) := by
  unfold Shape.assign
  rw [List.length_map]
  split
  · rw [← attrs_renumber]
    apply (assignFixed_alike shape _).bind
    intro _
    cases shape.rest? with
    | none =>
      dsimp only
      rw [← NameMap.renumber_mk]
      exact .ok _
    | some name =>
      dsimp only
      rw [← List.map_drop]
      apply (assignRest_alike shape name _).bind
      intro _
      exact congrArg Except.ok (by simp [NameMap.renumber_mk, Value.renumber])
  · exact .error _

theorem numberAt_alike (props : NameMap Value) (key : String) :
    L.Alike id (Transform.numberAt props key)
      (Transform.numberAt (props.renumber L.number) key) := by
  unfold Transform.numberAt
  rw [NameMap.get?_renumber]
  cases props.get? key with
  | none => exact .ok _
  | some v => exact (expectNumber_alike _ v).bind fun x => .ok _

theorem ofProps_alike (props : NameMap Value) :
    L.Alike id (Transform.ofProps props) (Transform.ofProps (props.renumber L.number)) := by
  unfold Transform.ofProps
  rw [NameMap.get?_renumber]
  cases props.get? "translate"
  case' none => refine Alike.bind (.ok (f := id) Point.origin) fun base => ?_
  case' some v => refine Alike.bind (expectPoint_alike _ v) fun base => ?_
  all_goals
    apply (numberAt_alike props "x").bind
    intro x
    apply (numberAt_alike props "y").bind
    intro y
    apply (numberAt_alike props "rotate").bind
    intro rotate
    apply (numberAt_alike props "angle").bind
    intro angle
    apply (numberAt_alike props "scale").bind
    intro scale
    exact .ok _

theorem split_alike (props : NameMap Value) :
    L.Alike (fun placed => (placed.1, placed.2.renumber L.number)) (Transform.split props)
      (Transform.split (props.renumber L.number)) := by
  apply (ofProps_alike props).bind
  intro transform
  have erased (keys : List String) : (keys.foldl NameMap.erase props).renumber L.number =
      keys.foldl NameMap.erase (props.renumber L.number) := by
    induction keys generalizing props with
    | nil => rfl
    | cons key keys ih => rw [List.foldl_cons, ih, NameMap.erase_renumber, List.foldl_cons]
  exact congrArg (fun props => Except.ok (transform, props)) (erased _).symm

theorem numbersFrom_alike (op : Builtin) (position : Nat) (args : List Value) :
    L.Alike id (op.numbersFrom position args)
      (op.numbersFrom position (args.map (Value.renumber L.number))) := by
  induction args generalizing position with
  | nil => exact .ok _
  | cons v args ih =>
    apply (expectNumber_alike _ v).bind
    intro x
    apply (ih (position + 1)).bind
    intro xs
    exact .ok _

theorem countArgument_alike (op : Builtin) (v : Value) :
    L.Alike id (op.countArgument v) (op.countArgument (v.renumber L.number)) :=
  (expectNumber_alike _ v).bind fun _ => .ok _

theorem checkLabel_alike (env : Environment) (id_ : EntityId) (name : String) :
    L.Alike id (env.checkLabel L.first.labelPolicy id_ name)
      ((env.renumber L.number).checkLabel L.second.labelPolicy (L.number id_) name) := by
  unfold Environment.checkLabel
  rw [Environment.labelTaken_renumber L.injective]
  by_cases refused : L.first.labelPolicy = .reject ∧ env.labelTaken name id_ = true
  · rw [if_pos refused]
    by_cases same : L.second.labelPolicy = L.first.labelPolicy
    · rw [same, if_pos refused]
      exact .error _
    · exact .inl same
  · have allowed : ¬ (L.second.labelPolicy = .reject ∧ env.labelTaken name id_ = true) := by
      rintro ⟨rejects, taken⟩
      rcases L.looser.policy with same | allows
      · exact refused ⟨same.symm.trans rejects, taken⟩
      · cases rejects.symm.trans allows
    rw [if_neg refused, if_neg allowed]
    exact .ok ()

theorem relabel_alike (env : Environment) (id_ : EntityId) (name : String) :
    L.Alike (L.along (Option.map (Value.renumber L.number)))
      (env.relabel L.first.labelPolicy id_ name)
      ((env.renumber L.number).relabel L.second.labelPolicy (L.number id_) name) := by
  apply (checkLabel_alike env id_ name).bind
  intro _
  have search (b : Body Value) :
      decide ((b.renumber L.number).id = L.number id_) = decide (b.id = id_) := by
    cases b
    exact decide_eq_decide.mpr L.injective.eq_iff
  have search' (c : Composite Value) :
      decide ((c.renumber L.number).id = L.number id_) = decide (c.id = id_) := by
    cases c
    exact decide_eq_decide.mpr L.injective.eq_iff
  have bodies : updateLast? (·.id = L.number id_) ({ · with label := some name })
      (env.bodies.map (Body.renumber L.number)) =
        (updateLast? (·.id = id_) ({ · with label := some name }) env.bodies).map
          fun found => (found.1.renumber L.number, found.2.map (Body.renumber L.number)) :=
    updateLast?_map search (fun b => by cases b; rfl) _
  have composites : updateLast? (·.id = L.number id_) ({ · with label := some name })
      (env.composites.map (Composite.renumber L.number)) =
        (updateLast? (·.id = id_) ({ · with label := some name }) env.composites).map
          fun found => (found.1.renumber L.number, found.2.map (Composite.renumber L.number)) :=
    updateLast?_map search' (fun c => by cases c; rfl) _
  dsimp only [Environment.renumber]
  rw [bodies]
  cases updateLast? (·.id = id_) ({ · with label := some name }) env.bodies with
  | some found => exact .ok _
  | none =>
    dsimp only [Option.map_none]
    rw [composites]
    cases updateLast? (·.id = id_) ({ · with label := some name }) env.composites with
    | some found => exact .ok _
    | none => exact .ok _

theorem declare_alike (env : Environment) (name : String) (v : Value) :
    L.Alike (L.along (Value.renumber L.number)) (env.declare L.first.labelPolicy name v)
      ((env.renumber L.number).declare L.second.labelPolicy name (v.renumber L.number)) := by
  unfold Environment.declare
  rw [Value.unlabelled?_renumber]
  cases v.unlabelled? with
  | none =>
    dsimp only [Option.map_none]
    rw [← Environment.define_renumber]
    exact .ok _
  | some id_ =>
    apply (relabel_alike env id_ name).bind
    intro (env, found)
    have same : (found.map (Value.renumber L.number)).getD
        ((v.renumber L.number).withLabel name) =
          (found.getD (v.withLabel name)).renumber L.number := by
      cases found with
      | none => exact (Value.withLabel_renumber _ _ _).symm
      | some w => rfl
    dsimp only [along]
    rw [same, ← Environment.define_renumber]
    exact .ok _

/-- An entity that has no label yet may be added to any block. -/
theorem addBody_alike (env : Environment) {b : Body Value} (new : b.label = none) :
    L.Alike (Environment.renumber L.number) (env.addBody L.first.labelPolicy b)
      ((env.renumber L.number).addBody L.second.labelPolicy (b.renumber L.number)) := by
  cases b
  cases new
  exact congrArg Except.ok (by simp [Environment.renumber])

theorem addComposite_alike (env : Environment) {c : Composite Value} (new : c.label = none) :
    L.Alike (Environment.renumber L.number) (env.addComposite L.first.labelPolicy c)
      ((env.renumber L.number).addComposite L.second.labelPolicy (c.renumber L.number)) := by
  cases c
  cases new
  exact congrArg Except.ok (by simp [Environment.renumber])

theorem callee_alike (env : Environment) (name : String) :
    L.Alike (Value.renumber L.number) (env.callee name) ((env.renumber L.number).callee name) := by
  unfold Environment.callee
  rw [Environment.get?_renumber]
  cases env.get? name with
  | some v => exact .ok _
  | none =>
    dsimp only [Option.map_none]
    cases Builtin.ofName? name with
    | some b => exact .ok (f := Value.renumber L.number) (.builtin b)
    | none => exact .error _

theorem enterCall_alike (env : Environment) :
    L.Alike (Environment.renumber L.number) (env.enterCall L.first.maxCallDepth)
      ((env.renumber L.number).enterCall L.second.maxCallDepth) := by
  unfold Environment.enterCall
  have depth := L.looser.depth
  by_cases shallow : env.depth < L.first.maxCallDepth
  · have shallow' : (env.renumber L.number).depth < L.second.maxCallDepth :=
      Nat.lt_of_lt_of_le shallow depth
    rw [if_pos shallow, if_pos shallow']
    exact .ok _
  · rw [if_neg shallow]
    rcases Nat.lt_or_eq_of_le depth with deeper | same
    · exact .inl deeper
    · have deep' : ¬ (env.renumber L.number).depth < L.second.maxCallDepth := same ▸ shallow
      rw [if_neg deep', ← same]
      exact .error _

theorem prepare_alike (c : Closure Value) (name : String) (args : List Value) (env : Environment) :
    L.Alike (Environment.renumber L.number) (c.prepare name args L.first.maxCallDepth env)
      ((c.renumber L.number).prepare name (args.map (Value.renumber L.number))
        L.second.maxCallDepth (env.renumber L.number)) := by
  obtain ⟨serial, params, body, captured⟩ := c
  unfold Closure.prepare Environment.bindParams
  rw [List.length_map, Closure.renumber]
  split
  · have bound : (env.labels.renumber L.number).withFallback (captured.renumber L.number) =
        (env.labels.withFallback captured).renumber L.number :=
      (NameMap.withFallback_renumber _ _ _).symm
    dsimp only [Environment.withFallback, Environment.renumber]
    rw [bound, ← attrs_renumber, ← NameMap.insertAll_renumber]
    exact enterCall_alike _
  · exact .error _

end Operations

/-- The second step follows the first one from every environment. -/
def Follow (L : Lockstep) (s t : Step) : Prop :=
  ∀ env, L.Follows (L.along (Value.renumber L.number)) (s env) (t (env.renumber L.number))

/-- The second way to call follows the first one for every value and all arguments. -/
def Calls (L : Lockstep) (call call' : Caller) : Prop :=
  ∀ name f args, L.Follow (call name f args)
    (call' name (f.renumber L.number) (args.map (Value.renumber L.number)))

section Calls

variable {call call' : Caller} {enter enter' : Node → Step}

theorem iterate_follow {s t : Nat → Step} (steps : ∀ i, L.Follow (s i) (t i))
    (count first : Nat) (last : Value) :
    L.Follow (Builtin.iterate s count first last)
      (Builtin.iterate t count first (last.renumber L.number)) := by
  induction count generalizing first last with
  | zero => exact fun env => .pure (env, last)
  | succ count ih =>
    intro env
    apply (steps first env).bind
    intro (env, v)
    exact ih (first + 1) v env

theorem iterateFrom_follow {s t : Nat → Value → Step}
    (steps : ∀ i v, L.Follow (s i v) (t i (v.renumber L.number)))
    (count first : Nat) (last : Value) :
    L.Follow (Builtin.iterateFrom s count first last)
      (Builtin.iterateFrom t count first (last.renumber L.number)) := by
  induction count generalizing first last with
  | zero => exact fun env => .pure (env, last)
  | succ count ih =>
    intro env
    apply (steps first last env).bind
    intro (env, v)
    exact ih (first + 1) v env

theorem arithmetic_follow (op : Builtin) (g : List Float → Float) (args : List Value) :
    L.Follow (op.arithmetic g args) (op.arithmetic g (args.map (Value.renumber L.number))) := by
  intro env
  apply (Follows.lift (numbersFrom_alike op 1 args)).bind
  intro xs
  exact .pure (env, Value.number (g xs))

theorem loop_follow (calls : L.Calls call call') (name : String) (f : Value)
    (indices : List Nat) :
    L.Follow (call name f (Builtin.loopArguments f indices))
      (call' name (f.renumber L.number)
        (Builtin.loopArguments (f.renumber L.number) indices)) := by
  rw [← loopArguments_renumber]
  exact calls name f _

theorem runRepeat_follow (calls : L.Calls call call') (args : List Value) :
    L.Follow (Builtin.runRepeat call args)
      (Builtin.runRepeat call' (args.map (Value.renumber L.number))) := by
  intro env
  match args with
  | [n, f] =>
    apply (Follows.lift (countArgument_alike .repeat n)).bind
    intro n
    exact iterate_follow (fun i => loop_follow calls "repeat" f [i]) n 0 .unit env
  | [] | [_] => exact .throw _
  | _ :: _ :: _ :: _ =>
    simp only [Builtin.runRepeat, List.map_cons, List.length_cons, List.length_map]
    exact .throw _

theorem runGrid_follow (calls : L.Calls call call') (args : List Value) :
    L.Follow (Builtin.runGrid call args)
      (Builtin.runGrid call' (args.map (Value.renumber L.number))) := by
  intro env
  match args with
  | [nx, ny, f] =>
    apply (Follows.lift (countArgument_alike .grid nx)).bind
    intro nx
    apply (Follows.lift (countArgument_alike .grid ny)).bind
    intro ny
    have row (y : Nat) (last : Value) :=
      iterate_follow (fun x => loop_follow calls "grid" f [x, y]) nx 0 last
    exact iterateFrom_follow row (Builtin.gridRows nx ny) 0 .unit env
  | [] | [_] | [_, _] => exact .throw _
  | _ :: _ :: _ :: _ :: _ =>
    simp only [Builtin.runGrid, List.map_cons, List.length_cons, List.length_map]
    exact .throw _

theorem run_follow (calls : L.Calls call call') (b : Builtin) (args : List Value) :
    L.Follow (b.run call args) (b.run call' (args.map (Value.renumber L.number))) := by
  cases b with
  | add | subtract | multiply | divide => exact arithmetic_follow _ _ args
  | «repeat» => exact runRepeat_follow calls args
  | grid => exact runGrid_follow calls args
  | halt =>
    intro env
    apply Follows.interrupt.bind
    intro _
    exact .pure (env, Value.unit)

theorem call_follow (calls : L.Calls call call') (b : Builtin) (args : List Value) :
    L.Follow (b.call call args) (b.call call' (args.map (Value.renumber L.number))) := by
  intro env
  have ran : L.Follows (L.along (Value.renumber L.number))
      (do
        let left ← b.run call args env
        return (env.withEntitiesOf left.1, left.2))
      (do
        let left ← b.run call' (args.map (Value.renumber L.number)) (env.renumber L.number)
        return ((env.renumber L.number).withEntitiesOf left.1, left.2)) := by
    apply (run_follow calls b args env).bind
    rintro ⟨inner, v⟩
    exact .pure (env.withEntitiesOf inner, v)
  unfold Builtin.call
  rw [List.length_map]
  cases b.arity? with
  | none => exact ran
  | some n =>
    by_cases long : args.length = n
    · simp only [ne_eq, long, not_true_eq_false, if_false]
      exact ran
    · simp only [ne_eq, long, not_false_eq_true, if_true]
      exact .throw _

theorem closure_follow (bodies : ∀ node, L.Follow (enter node) (enter' node)) (name : String)
    (c : Closure Value) (args : List Value) :
    L.Follow (c.call enter L.first.maxCallDepth name args)
      ((c.renumber L.number).call enter' L.second.maxCallDepth name
        (args.map (Value.renumber L.number))) := by
  intro env
  apply (Follows.lift (prepare_alike c name args env)).bind
  intro inner
  cases c with
  | mk _ _ body _ =>
    apply (bodies body inner).bind
    intro (inner, v)
    exact .pure (env.withEntitiesOf inner, v)

theorem callWith_calls (bodies : ∀ node, L.Follow (enter node) (enter' node))
    (calls : L.Calls call call') :
    L.Calls (Caller.callWith enter L.first.maxCallDepth call)
      (Caller.callWith enter' L.second.maxCallDepth call') := by
  intro name f args
  cases f with
  | closure c => exact closure_follow bodies name c args
  | builtin b => exact call_follow calls b args
  | _ => exact fun _ => .throw _

/-- Calls from a program follow each other if the bodies of functions do. -/
theorem fromProgram_calls (bodies : ∀ node, L.Follow (enter node) (enter' node)) :
    L.Calls (Caller.fromProgram enter L.first.maxCallDepth)
      (Caller.fromProgram enter' L.second.maxCallDepth) := by
  have refused : L.Calls Caller.refuse Caller.refuse := by
    intro name f args env
    have same := Value.renumber_kind L.number f
    unfold Caller.refuse
    rw [same]
    exact .throw _
  exact callWith_calls bodies (callWith_calls bodies refused)

end Calls

/-- The expression is followed by itself in the second run. -/
def Keeps (L : Lockstep) (enter enter' : Node → Step) (node : Node) : Prop :=
  L.Follow (node.step L.first enter) (node.step L.second enter')

section Constructs

variable {enter enter' : Node → Step}

theorem leaf_keeps {node : Node}
    (bare : ∀ settings enter env, ∃ v, node.leaf? env = some v ∧
      node.step settings enter env = (do
        checkInterrupt
        return (env, v)))
    (same : ∀ env, node.leaf? (env.renumber L.number) =
      (node.leaf? env).map (Value.renumber L.number)) : L.Keeps enter enter' node := by
  intro env
  obtain ⟨v, value, step⟩ := bare L.first enter env
  obtain ⟨v', value', step'⟩ := bare L.second enter' (env.renumber L.number)
  rw [same, value, Option.map_some, Option.some.injEq] at value'
  rw [step, step', ← value']
  apply Follows.checkInterrupt.bind
  intro _
  exact .pure (env, v)

theorem function_keeps (params : List String) (result : Node) :
    L.Keeps enter enter' (.function params result) := by
  intro env
  rw [Node.step, Node.step]
  apply Follows.checkInterrupt.bind
  intro _
  apply Follows.mintSerial.bind
  intro serial
  exact .pure (env, Value.closure ⟨serial, params, result, env.labels⟩)

theorem vector_keeps {x y : Node} (first : L.Keeps enter enter' x)
    (second : L.Keeps enter enter' y) : L.Keeps enter enter' (.vector x y) := by
  intro env
  rw [Node.step, Node.step]
  apply Follows.checkInterrupt.bind
  intro _
  apply (first env).bind
  intro (env, vx)
  apply (second env).bind
  intro (env, vy)
  apply (Follows.lift (ofValues_alike vx vy)).bind
  intro p
  exact .pure (env, Value.vector p)

theorem nodes_keep {nodes : List Node} (parts : ∀ node ∈ nodes, L.Keeps enter enter' node)
    (env : Environment) :
    L.Follows (L.along (List.map (Value.renumber L.number)))
      (Node.stepArgs L.first enter nodes env)
      (Node.stepArgs L.second enter' nodes (env.renumber L.number)) := by
  induction nodes generalizing env with
  | nil => exact .pure (env, [])
  | cons node nodes ih =>
    obtain ⟨here, later⟩ := List.forall_mem_cons.mp parts
    apply (here env).bind
    intro (env, v)
    apply (ih later env).bind
    intro (env, vs)
    exact .pure (env, v :: vs)

theorem attrs_keep {attrs : List (String × Node)}
    (parts : ∀ node ∈ attrs.map Prod.snd, L.Keeps enter enter' node) (env : Environment) :
    L.Follows (L.along (NameMap.renumber L.number))
      (Node.stepAttrs L.first enter attrs ∅ env)
      (Node.stepAttrs L.second enter' attrs ∅ (env.renumber L.number)) := by
  rw [stepAttrs_eq, stepAttrs_eq]
  apply (nodes_keep parts env).bind
  intro (env, vs)
  dsimp only [along]
  rw [← attrs_renumber]
  have same := NameMap.insertAll_renumber L.number ∅ ((attrs.map Prod.fst).zip vs)
  rw [NameMap.renumber_empty] at same
  rw [← same]
  exact .pure (env, (∅ : NameMap Value).insertAll ((attrs.map Prod.fst).zip vs))

theorem composite_keeps {statements : List Node}
    (parts : ∀ node ∈ statements, L.Keeps enter enter' node) :
    L.Keeps enter enter' (.composite statements) := by
  intro env
  rw [Node.step, Node.step, stepAll_eq, stepAll_eq]
  apply Follows.checkInterrupt.bind
  intro _
  apply (nodes_keep parts env).bind
  intro (env, vs)
  have last : (vs.map (Value.renumber L.number)).getLastD .unit =
      (vs.getLastD .unit).renumber L.number := by
    rw [List.getLastD_eq_getLast?, List.getLastD_eq_getLast?, List.getLast?_map]
    cases vs.getLast? <;> rfl
  dsimp only [along]
  rw [last]
  exact .pure (env, vs.getLastD .unit)

theorem label_keeps {name : String} {value : Node} (part : L.Keeps enter enter' value) :
    L.Keeps enter enter' (.label name value) := by
  intro env
  rw [Node.step, Node.step]
  apply Follows.checkInterrupt.bind
  intro _
  apply (part env).bind
  intro (env, v)
  exact .lift (declare_alike env name v)

theorem call_keeps (bodies : ∀ node, L.Follow (enter node) (enter' node)) {callee : String}
    {args : List Node} (parts : ∀ node ∈ args, L.Keeps enter enter' node) :
    L.Keeps enter enter' (.call callee args) := by
  intro env
  rw [Node.step, Node.step]
  apply Follows.checkInterrupt.bind
  intro _
  apply (Follows.lift (callee_alike env callee)).bind
  intro f
  apply (nodes_keep parts env).bind
  intro (env, vs)
  exact fromProgram_calls bodies callee f vs env

theorem body_keeps {name : String} {args : List Node} {attrs : List (String × Node)}
    (parts : ∀ node ∈ args, L.Keeps enter enter' node)
    (properties : ∀ node ∈ attrs.map Prod.snd, L.Keeps enter enter' node) :
    L.Keeps enter enter' (.body name args attrs) := by
  intro env
  rw [Node.step, Node.step]
  apply Follows.checkInterrupt.bind
  intro _
  cases Shape.ofName? name with
  | none => exact .throw _
  | some shape =>
    apply (nodes_keep parts env).bind
    intro (env, vs)
    apply (attrs_keep properties env).bind
    intro (env, props)
    apply (Follows.lift (assign_alike shape vs)).bind
    intro params
    apply Follows.mintId.bind
    intro n
    apply (Follows.lift (addBody_alike env (b := ⟨n, shape, params, props, none⟩) rfl)).bind
    intro env
    exact .pure (env, Value.body ⟨n, shape, params, props, none⟩)

theorem endpoint_keeps {node : Node} (part : L.Keeps enter enter' node) (env : Environment) :
    L.Follows (L.along (Endpoint.renumber L.number))
      (Endpoint.ofNode node (node.step L.first enter) env)
      (Endpoint.ofNode node (node.step L.second enter') (env.renumber L.number)) := by
  rw [ofNode_eq, ofNode_eq]
  have value : L.Follows (L.along (Value.renumber L.number))
      (Endpoint.valueOf node (node.step L.first enter) env)
      (Endpoint.valueOf node (node.step L.second enter') (env.renumber L.number)) := by
    cases node with
    | symbol name =>
      have same := Environment.symbol_renumber L.number env name
      dsimp only [Endpoint.valueOf]
      rw [same]
      exact .pure (env, (env.get? name).getD (.string name))
    | _ => exact part env
  apply value.bind
  intro (env, v)
  apply (Follows.lift (ofValue_alike v)).bind
  intro e
  exact .pure (env, e)

theorem constraint_keeps {source target : Node} {kind : EdgeKind} {attrs : List (String × Node)}
    (first : L.Keeps enter enter' source) (second : L.Keeps enter enter' target)
    (properties : ∀ node ∈ attrs.map Prod.snd, L.Keeps enter enter' node) :
    L.Keeps enter enter' (.constraint source kind target attrs) := by
  intro env
  rw [Node.step, Node.step]
  apply Follows.checkInterrupt.bind
  intro _
  apply (endpoint_keeps first env).bind
  intro (env, s)
  apply (endpoint_keeps second env).bind
  intro (env, t)
  apply (attrs_keep properties env).bind
  intro (env, attrs)
  apply Follows.mintId.bind
  intro n
  have added := Environment.addConstraint_renumber L.number env ⟨n, s, kind, t, attrs⟩
  rw [Constraint.renumber] at added
  dsimp only [along]
  rw [← added]
  exact .pure (env.addConstraint ⟨n, s, kind, t, attrs⟩, Value.constraint ⟨n, s, kind, t, attrs⟩)

theorem scope_keeps {block : Node} {attrs : List (String × Node)}
    (part : L.Keeps enter enter' block)
    (properties : ∀ node ∈ attrs.map Prod.snd, L.Keeps enter enter' node) :
    L.Keeps enter enter' (.scope block attrs) := by
  intro env
  rw [Node.step, Node.step]
  apply Follows.checkInterrupt.bind
  intro _
  apply (attrs_keep properties env).bind
  intro (env, props)
  apply (Follows.lift (split_alike props)).bind
  intro (transform, props)
  apply (part env.cleared).bind
  intro (inner, v)
  apply Follows.mintId.bind
  intro n
  dsimp only [along]
  rw [← Environment.toComposite_renumber]
  apply (Follows.lift (addComposite_alike env (c := inner.toComposite n transform props) rfl)).bind
  intro env
  exact .pure (env, Value.composite (inner.toComposite n transform props))

end Constructs

mutual

/-- Every expression is followed by itself if the bodies of functions are. -/
theorem node_keeps {enter enter' : Node → Step}
    (bodies : ∀ node, L.Follow (enter node) (enter' node)) :
    ∀ node : Node, L.Keeps enter enter' node
  | .symbol name => leaf_keeps (fun _ _ _ => ⟨_, rfl, by rw [Node.step]⟩)
    fun env => congrArg some (Environment.symbol_renumber L.number env name)
  | .number _ | .string _ | .bool _ =>
    leaf_keeps (fun _ _ _ => ⟨_, rfl, by rw [Node.step]⟩) fun _ => rfl
  | .function params result => function_keeps params result
  | .vector x y => vector_keeps (node_keeps bodies x) (node_keeps bodies y)
  | .composite statements => composite_keeps (nodes_keeps bodies statements)
  | .label _ value => label_keeps (node_keeps bodies value)
  | .call _ args => call_keeps bodies (nodes_keeps bodies args)
  | .body _ args attrs => body_keeps (nodes_keeps bodies args) (attrs_keeps bodies attrs)
  | .constraint source _ target attrs => constraint_keeps (node_keeps bodies source)
    (node_keeps bodies target) (attrs_keeps bodies attrs)
  | .scope block attrs => scope_keeps (node_keeps bodies block) (attrs_keeps bodies attrs)

theorem nodes_keeps {enter enter' : Node → Step}
    (bodies : ∀ node, L.Follow (enter node) (enter' node)) :
    ∀ nodes : List Node, ∀ node ∈ nodes, L.Keeps enter enter' node
  | [] => List.forall_mem_nil _
  | node :: nodes =>
    List.forall_mem_cons.mpr ⟨node_keeps bodies node, nodes_keeps bodies nodes⟩

theorem attrs_keeps {enter enter' : Node → Step}
    (bodies : ∀ node, L.Follow (enter node) (enter' node)) :
    ∀ attrs : List (String × Node), ∀ node ∈ attrs.map Prod.snd, L.Keeps enter enter' node
  | [] => List.forall_mem_nil _
  | (_, node) :: attrs =>
    List.forall_mem_cons.mpr ⟨node_keeps bodies node, attrs_keeps bodies attrs⟩

end

/-- The bodies of functions are followed by themselves, where the second run has at least as much
room for calls, and as much if the limits are the same. -/
theorem enter_follow (room room' : Nat) (wider : room ≤ room')
    (same : L.first.maxCallDepth = L.second.maxCallDepth → room = room') (node : Node) :
    L.Follow (L.first.enter room node) (L.second.enter room' node) := by
  induction room generalizing room' node with
  | zero =>
    intro env
    by_cases limits : L.first.maxCallDepth = L.second.maxCallDepth
    · rw [← same limits, Settings.enter, Settings.enter, ← limits]
      exact .throw _
    · exact .throw_limit (e := .stackOverflow _ _) (Nat.lt_of_le_of_ne L.looser.depth limits)
  | succ room ih =>
    cases room' with
    | zero => cases wider
    | succ room' =>
      apply node_keeps
      intro node
      exact ih room' (Nat.le_of_succ_le_succ wider) (fun limits => Nat.succ.inj (same limits)) node

/-- Every expression is followed by itself. -/
theorem eval_follow (L : Lockstep) (node : Node) :
    L.Follow (node.eval L.first) (node.eval L.second) := by
  intro env
  have depth := L.looser.depth
  apply node_keeps
  intro node
  apply enter_follow
  · simp only [Settings.room, Environment.renumber]
    omega
  · intro same
    rw [Settings.room, Settings.room, same]
    rfl

/-- Every program is followed by itself. -/
theorem ofNode_follow (L : Lockstep) (program : Node) :
    L.Follows (Scene.renumber L.number) (Scene.ofNode L.first program)
      (Scene.ofNode L.second program) := by
  apply (eval_follow L program .empty).bind
  intro (env, v)
  have root : { (env.toComposite 0 .identity ∅).renumber L.number with id := 0 } =
      (env.renumber L.number).toComposite 0 .identity ∅ := by
    rw [Environment.toComposite_renumber]
    rfl
  dsimp only [along]
  rw [← root]
  exact .pure (⟨env.toComposite 0 .identity ∅, v⟩ : Scene)

end Lockstep

end RigidScene
