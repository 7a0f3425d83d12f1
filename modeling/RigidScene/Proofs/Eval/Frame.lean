import RigidScene.Proofs.Eval.Adequacy
import RigidScene.Proofs.Eval.Bindings
import RigidScene.Proofs.Eval.Growth

/-!
What a run leaves as it was.

A block only grows: what it held before stands in front as it was, except for labels, and a call
may take over the whole block of its callee because that one begins with the caller's
(`evaluation_appends`).  Of the labels, on the other hand, nothing comes back from a call or from an
inner block, so names are bound by what is written in the block itself and stand behind those that
were bound before (`bindings_stay_in_block`).
-/

namespace RigidScene

open Eval Outcome

/-- Where a called value stops, before its caller goes on: a function at the end of its body, a
built-in when it has done its work. -/
inductive Value.CalleeEnds (settings : Settings) :
    Value → String → List Value → Moment → Value → Moment → Prop where
  | closure {c : Closure Value} {name args m env v inner}
    (entered : c.prepare name args settings.maxCallDepth m.env = .ok env)
    (ran : c.body.eval settings env m.run = (.ok (inner.env, v), inner.run)) :
    CalleeEnds settings (.closure c) name args m v inner
  | builtin {b : Builtin} {name args m v inner}
    (counted : ∀ n, b.arity? = some n → args.length = n)
    (ran : b.apply settings args m.env m.run = (.ok (inner.env, v), inner.run)) :
    CalleeEnds settings (.builtin b) name args m v inner

section Calls

variable {settings : Settings} {f : Value} {name : String} {args : List Value} {m m' : Moment}
  {v : Value}

/-- A call that succeeds keeps the labels and the depth of the caller and takes over the block of
the callee. -/
theorem call_ok_iff : f.call settings name args m.env m.run = (.ok (m'.env, v), m'.run) ↔
    ∃ inner, f.CalleeEnds settings name args m v inner ∧ m' = m.returned inner := by
  cases f with
  | closure c =>
    simp only [Value.call, Caller.fromProgram, Caller.callWith, Closure.call, bind_ok_iff,
      lift_ok_iff, pure_ok_iff, Prod.exists, Prod.mk.injEq]
    -- The call has room for the body and one call more; so has `eval` where the body begins.
    constructor
    · rintro ⟨env, _, ⟨entered, rfl⟩, env', _, run', ran, ⟨left, rfl⟩, rfl⟩
      rw [prepare_room entered] at ran
      exact ⟨⟨env', m'.run⟩, .closure entered ran, by rw [Moment.returned, left]⟩
    · rintro ⟨inner, ends, rfl⟩
      cases ends with
      | closure entered ran =>
        refine ⟨_, _, ⟨entered, rfl⟩, inner.env, v, inner.run, ?_, ⟨rfl, rfl⟩, rfl⟩
        rw [prepare_room entered]
        exact ran
  | builtin b =>
    refine builtin_call_ok_iff.trans ?_
    constructor
    · rintro ⟨counted, env, ran, left⟩
      exact ⟨⟨env, m'.run⟩, .builtin counted ran, by rw [Moment.returned, left]⟩
    · rintro ⟨inner, ends, rfl⟩
      cases ends with
      | builtin counted ran => exact ⟨counted, inner.env, ran, rfl⟩
  | _ =>
    refine throw_ok_iff.trans ⟨False.elim, ?_⟩
    rintro ⟨_, ends, _⟩
    cases ends

/-- The block of the callee begins with that of the caller. -/
theorem Value.CalleeEnds.grows {inner : Moment}
    (ends : f.CalleeEnds settings name args m v inner) : m.Grows inner := by
  have called : Derived settings (.call name f args) m [v] (m.returned inner) :=
    derived_iff_call.mpr (call_ok_iff.mpr ⟨inner, ends, rfl⟩)
  have same : inner.env.SameEntities (m.returned inner).env :=
    withEntitiesOf_sameEntities m.env inner.env
  exact called.grows.trans (.of_same (Nat.le_refl _) same)

end Calls

/-- An expression that succeeds lets the block grow and keeps the depth of calls.  A call takes over
the block of its callee, and this one has grown from the block of the caller. -/
theorem evaluation_appends (settings : Settings) :
    (∀ (node : Node) (m m' : Moment) (v : Value),
      node.eval settings m.env m.run = (.ok (m'.env, v), m'.run) →
        m.Grows m' ∧ m'.env.depth = m.env.depth) ∧
    (∀ (f : Value) (name : String) (args : List Value) (m m' : Moment) (v : Value),
      f.call settings name args m.env m.run = (.ok (m'.env, v), m'.run) →
        ∃ inner, f.CalleeEnds settings name args m v inner ∧ m.Grows inner ∧
          m' = m.returned inner) := by
  constructor
  · intro node m m' v ran
    have derived := derived_iff_eval.mpr ran
    exact ⟨derived.grows, derived.depth_eq⟩
  · intro f name args m m' v ran
    obtain ⟨inner, ends, returned⟩ := call_ok_iff.mp ran
    exact ⟨inner, ends, ends.grows, returned⟩

/-- A function that names its argument and makes a circle. -/
def naming : Closure Value where
  serial := 0
  params := ["x"]
  body := .composite [
    .label "inside" (.symbol "x"),
    .body "circle" [.number 0, .number 0, .number 1] []]
  captured := ∅

/-- A body without a label is in the block and has the name `b`; the function has the name `f`. -/
def halfway : Moment where
  env := {
    labels := ⟨[("b", .body ⟨3, .circle, ∅, ∅, none⟩), ("f", .closure naming)]⟩
    bodies := [⟨3, .circle, ∅, ∅, none⟩] }
  run := { nextId := 4 }

/-- The body gets a name on its way into a call, and in an inner block a name is bound. -/
def passing : Node :=
  .composite [
    .call "f" [.label "c" (.symbol "b")],
    .scope (.label "inside" (.bool true)) []]

/-- The body that was there gets a label and another one comes behind it.  When the function ends,
its own body stands behind that of its caller. -/
theorem passing_appends : ∃ (m' inner : Moment) (v w : Value),
    passing.eval {} halfway.env halfway.run = (.ok (m'.env, v), m'.run) ∧ halfway.Grows m' ∧
      m'.env.bodies.map Body.label = [some "c", none] ∧
    (Value.closure naming).CalleeEnds {} "f" [.number 0] halfway w inner ∧ halfway.Grows inner ∧
      inner.env.bodies.map Body.id = [3, 4] := by
  have ran : ∃ env v run, passing.eval {} halfway.env halfway.run = (.ok (env, v), run) ∧
      env.bodies.map Body.label = [some "c", none] := ⟨_, _, _, rfl, rfl⟩
  have called : ∃ env v run, (Value.closure naming).call {} "f" [.number 0] halfway.env
      halfway.run = (.ok (env, v), run) ∧ env.bodies.map Body.id = [3, 4] :=
    ⟨_, _, _, rfl, rfl⟩
  obtain ⟨env, v, run, ran, labels⟩ := ran
  obtain ⟨env', w, run', called, ids⟩ := called
  obtain ⟨evaluations, calls⟩ := evaluation_appends {}
  obtain ⟨grows, _⟩ := evaluations passing halfway ⟨env, run⟩ v ran
  obtain ⟨inner, ends, within, returned⟩ := calls _ _ _ halfway ⟨env', run'⟩ w called
  have same : env'.bodies = inner.env.bodies := congrArg (fun m => m.env.bodies) returned
  exact ⟨⟨env, run⟩, inner, v, w, ran, grows, labels, ends, within, same ▸ ids⟩

/-- The labels of the second moment are those of the first one, in their order, with new ones behind
them; all that are new or bound again are among the names, each as often as it is there. -/
structure Moment.BindsOnly (names : List String) (m m' : Moment) : Prop where
  binds : m.Binds names m'
  order : ∃ fresh, m'.env.labels.names = m.env.labels.names ++ fresh ∧
    ∀ name ∈ fresh, name ∉ m.env.labels.names ∧ name ∈ names
  others : ∀ name ∉ names, m'.env.get? name = m.env.get? name

section Labels

variable {settings : Settings} {m m' : Moment} {v : Value}

theorem Derived.bindsOnly {job : Job} {vs : List Value} (derived : Derived settings job m vs m') :
    m.BindsOnly job.names m' where
  binds := derived.binds
  order := by
    obtain ⟨bound, given, labels⟩ := derived.binds
    refine ⟨_, labels ▸ NameMap.names_insertAll m.env.labels bound, fun name member => ?_⟩
    rw [List.mem_eraseDups, List.mem_filter] at member
    exact ⟨of_decide_eq_true member.2, given.mem_iff.mp member.1⟩
  others _ silent := derived.keeps_binding silent

/-- Of the labels that a called value binds nothing comes back. -/
theorem Derived.call_labels {name : String} {f : Value} {args : List Value}
    (called : Derived settings (.call name f args) m [v] m') : m'.env.labels = m.env.labels :=
  called.labels_eq rfl

end Labels

/-- An expression that succeeds binds what is labelled in its own block, behind what was bound
before, and nothing else.  A called value leaves all labels as they are, so those behind a call are
the ones behind its arguments; those behind an inner block are the ones behind its attributes. -/
theorem bindings_stay_in_block (settings : Settings) :
    (∀ (node : Node) (m m' : Moment) (v : Value),
      node.eval settings m.env m.run = (.ok (m'.env, v), m'.run) → m.BindsOnly node.names m') ∧
    (∀ (f : Value) (name : String) (args : List Value) (m m' : Moment) (v : Value),
      f.call settings name args m.env m.run = (.ok (m'.env, v), m'.run) →
        m'.env.labels = m.env.labels) ∧
    (∀ (callee : String) (args : List Node) (m m' : Moment) (v : Value),
      (Node.call callee args).eval settings m.env m.run = (.ok (m'.env, v), m'.run) →
        ∃ (m₁ : Moment) (vs : List Value),
          Node.stepArgs settings (settings.enter (settings.room m.env)) args m.env m.run =
            (.ok (m₁.env, vs), m₁.run) ∧ m'.env.labels = m₁.env.labels) ∧
    (∀ (block : Node) (attrs : List (String × Node)) (m m' : Moment) (v : Value),
      (Node.scope block attrs).eval settings m.env m.run = (.ok (m'.env, v), m'.run) →
        ∃ (m₁ : Moment) (ws : List Value),
          Node.stepArgs settings (settings.enter (settings.room m.env)) (attrs.map Prod.snd)
            m.env m.run = (.ok (m₁.env, ws), m₁.run) ∧ m'.env.labels = m₁.env.labels) := by
  refine ⟨?node, ?called, ?call, ?scope⟩
  case node =>
    intro node m m' v ran
    exact (derived_iff_eval.mpr ran).bindsOnly
  case called =>
    intro f name args m m' v ran
    exact (derived_iff_call.mpr ran).call_labels
  case call =>
    intro callee args m m' v ran
    cases derived_iff_eval.mpr ran with
    | leaf _ value => cases value
    | call _ _ arguments called =>
      exact ⟨_, _, derived_iff_stepArgs.mp arguments, called.call_labels⟩
  case scope =>
    intro block attrs m m' v ran
    cases derived_iff_eval.mpr ran with
    | leaf _ value => cases value
    | scope _ attributes _ _ => exact ⟨_, _, derived_iff_stepArgs.mp attributes, rfl⟩

/-- Of the names that are bound on the way only that of the argument stays. -/
theorem passing_binds_argument : ∃ (m' : Moment) (v : Value),
    passing.eval {} halfway.env halfway.run = (.ok (m'.env, v), m'.run) ∧
      halfway.BindsOnly ["c"] m' ∧ m'.env.labels.names = ["b", "f", "c"] := by
  have ran : ∃ env v run, passing.eval {} halfway.env halfway.run = (.ok (env, v), run) ∧
      env.labels.names = ["b", "f", "c"] := ⟨_, _, _, rfl, rfl⟩
  obtain ⟨env, v, run, ran, names⟩ := ran
  obtain ⟨binds, _⟩ := bindings_stay_in_block {}
  exact ⟨⟨env, run⟩, v, ran, binds passing halfway ⟨env, run⟩ v ran, names⟩

end RigidScene
