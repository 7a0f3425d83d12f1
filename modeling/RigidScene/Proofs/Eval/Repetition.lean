import RigidScene.Proofs.Eval.Abreast

/-!
A later call of a function does what the first one did.

`Derived.repeats` goes along what the first call does, rule by rule, and carries the second call
along.  What the second call comes to is abreast of what the first one has come to, so in the end it
has added as many entities and numbers.  That the parts of the second call succeed is either known
because the whole does (`Runs.part`) or shown on the way, where the replica is strict.
-/

namespace RigidScene

/-- Only a run that has not been asked to stop goes on. -/
theorem Derived.ready {settings : Settings} {node : Node} {m m' : Moment} {vs : List Value}
    (derived : Derived settings (.node node) m vs m') : m.run.interrupted = false := by
  cases derived <;> assumption

namespace Replica

variable {settings : Settings} {R : Replica settings} {inside : Prop} {more : Tally}
  {m m₁ m' n n₁ n' : Moment}

theorem Runs.part {job part : Job} (runs : R.Runs job n) (spawned : Spawns settings job n part n') :
    R.Runs part n' := by
  refine runs.imp_right ?_
  rintro ⟨_, _, whole⟩
  obtain ⟨ws, end_, derived, _⟩ := (Visits.part .here spawned).succeeds whole
  exact ⟨ws, end_, derived⟩

theorem Within.first (within : R.Within m m') (counts : m₁.run.nextId ≤ m'.run.nextId) :
    R.Within m m₁ :=
  fun strict => ⟨(within strict).1, counts.trans (within strict).2⟩

theorem Within.rest (within : R.Within m m') (counts : m.run.nextId ≤ m₁.run.nextId) :
    R.Within m₁ m' :=
  fun strict => ⟨(within strict).1.trans counts, (within strict).2⟩

section Succeeds

variable {v w : Value}

/-- An end of a constraint stands for something in the second call too. -/
theorem source_succeeds {known : EntityId → Prop} {source target : Node} {kind : EdgeKind}
    {attrs : List (String × Node)} {e : Endpoint}
    (runs : R.Runs (.node (.constraint source kind target attrs)) n) (alike : R.Alike known v w)
    (made : Endpoint.ofValue v = .ok e) (first : Derived settings (.endpoint source) n [w] n₁) :
    ∃ e', Endpoint.ofValue w = .ok e' := by
  rcases runs with strict | ⟨_, _, whole⟩
  · obtain ⟨e', made', _⟩ := ofValue_carries alike strict e made
    exact ⟨e', made'⟩
  · cases whole with
    | leaf _ value => cases value
    | constraint _ first' source_ =>
      obtain ⟨⟨⟩, _⟩ := first'.unique first
      exact ⟨_, source_⟩

theorem target_succeeds {known : EntityId → Prop} {source target : Node} {kind : EdgeKind}
    {attrs : List (String × Node)} {e : Endpoint} {u : Value}
    (runs : R.Runs (.node (.constraint source kind target attrs)) n) (alike : R.Alike known v w)
    (made : Endpoint.ofValue v = .ok e) (first : Derived settings (.endpoint source) n [u] n₁)
    (second : Derived settings (.endpoint target) n₁ [w] n') :
    ∃ e', Endpoint.ofValue w = .ok e' := by
  rcases runs with strict | ⟨_, _, whole⟩
  · obtain ⟨e', made', _⟩ := ofValue_carries alike strict e made
    exact ⟨e', made'⟩
  · cases whole with
    | leaf _ value => cases value
    | constraint _ first' _ second' target_ =>
      obtain ⟨_, rfl⟩ := first'.unique first
      obtain ⟨⟨⟩, _⟩ := second'.unique second
      exact ⟨_, target_⟩

/-- So can the value of a label statement be named. -/
theorem label_succeeds {name : String} {node : Node} (runs : R.Runs (.node (.label name node)) n)
    (value : Derived settings (.node node) n [w] n') :
    ∃ env' w', n'.env.declare settings.labelPolicy name w = .ok (env', w') := by
  rcases runs with strict | ⟨_, _, whole⟩
  · rw [R.allows strict]
    exact declare_succeeds _ _ _
  · cases whole with
    | leaf _ value => cases value
    | label _ value' declared =>
      obtain ⟨⟨⟩, rfl⟩ := value'.unique value
      exact ⟨_, _, declared⟩

end Succeeds

/-- What each call makes has the next number. -/
theorem twins_new {v w : Value} (known : EntityId → Prop) (kind : w.kind = v.kind)
    (within : R.first ≤ m.run.nextId ∧ m.run.nextId + 1 ≤ R.last)
    (count : n.run.nextId = m.run.nextId + R.gap) (first : v.unlabelled? = some m.freshId)
    (second : w.unlabelled? = some n.freshId) (body : v.kind = .body → known m.freshId) :
    R.Twins known v w where
  body := kind.trans
  numbers := by
    rw [first, second, Moment.freshId, Moment.freshId, count]
    exact .some (renumbers within.1 within.2)
  known isBody i unlabelled := by
    rw [first] at unlabelled
    obtain rfl := Option.some.inj unlabelled
    exact body isBody

end Replica

open Replica

/-- The second call repeats what the first one does. -/
theorem Derived.repeats {settings : Settings} {R : Replica settings} {job : Job} {m m' : Moment}
    {vs : List Value} (derived : Derived settings job m vs m') :
    ∀ {inside more job' n}, R.AlikeJobs (m.Knows inside) job job' → R.Abreast inside more m n →
      R.Runs job' n → R.Within m m' → R.Repeats inside more job' n m vs m' := by
  induction derived with
  | leaf ready value =>
    rintro inside more _ n ⟨⟩ abreast runs within
    obtain ⟨w, value', alike⟩ := leaf_alike abreast.labels value
    exact ⟨[w], n, .leaf (abreast.ready ready) value', .cons alike .nil, abreast, fun _ => rfl⟩
  | function ready =>
    rintro inside more _ n ⟨⟩ abreast runs within
    refine ⟨_, n.serialled, .function (abreast.ready ready), .cons ?_ .nil, abreast.serialled,
      fun _ => rfl⟩
    exact Alike.closure_iff.mpr ⟨_, rfl, rfl, rfl, abreast.labels⟩
  | vector ready first second point ih₁ ih₂ =>
    rintro inside more _ n ⟨⟩ abreast runs within
    have ready' := abreast.ready ready
    obtain ⟨_, n₁, first', alike₁ | ⟨alike₁, ⟨⟩⟩, abreast₁, kept₁⟩ := ih₁ .node abreast
      (runs.part (.abscissa ready')) (within.first second.grows.counts)
    obtain ⟨_, n₂, second', alike₂ | ⟨alike₂, ⟨⟩⟩, abreast₂, kept₂⟩ := ih₂ .node abreast₁
      (runs.part (.ordinate ready' first')) (within.rest first.grows.counts)
    obtain ⟨_, point', rfl⟩ := ofValues_carries alike₁ alike₂ _ point
    exact ⟨_, n₂, .vector ready' first' second' point', .cons (.vector _) .nil, abreast₂,
      fun strict => (kept₂ strict).trans (kept₁ strict)⟩
  | @body name args attrs m shape vs m₁ ws m₂ params ready known arguments attributes fits ih₁
    ih₂ =>
    rintro inside more _ n ⟨⟩ abreast runs within
    have ready' := abreast.ready ready
    have counts : m₂.run.nextId ≤ m₂.counted.run.nextId := Nat.le_succ _
    have earlier := arguments.grows.trans attributes.grows
    obtain ⟨vs', n₁, arguments', alike, abreast₁, kept₁⟩ := ih₁ .nodes abreast
      (runs.part (.arguments ready' known)) (within.first (attributes.grows.counts.trans counts))
    obtain ⟨ws', n₂, attributes', _, abreast₂, kept₂⟩ := ih₂ .nodes abreast₁
      (runs.part (.properties ready' known arguments'))
      ((within.rest arguments.grows.counts).first counts)
    obtain ⟨params', fits', _⟩ := assign_carries shape alike _ fits
    have new := within.rest earlier.counts
    have made := abreast₂.withBody new shape params (attrValues attrs ws) params'
      (attrValues attrs ws')
    refine ⟨_, _, .body ready' known arguments' attributes' fits', .cons ?_ .nil, made,
      fun strict => (kept₂ strict).trans (kept₁ strict)⟩
    refine .entity rfl rfl fun strict => ?_
    exact twins_new _ rfl (new strict) abreast₂.count rfl rfl fun _ => .inr (by
      simp [Moment.bodyIds, Moment.withBody, Moment.newBody])
  | @constraint source kind target attrs m v m₁ s w m₂ t ws m₃ ready first source_ second target_
    attributes ih₁ ih₂ ih₃ =>
    rintro inside more _ n ⟨⟩ abreast runs within
    have ready' := abreast.ready ready
    have counts : m₃.run.nextId ≤ m₃.counted.run.nextId := Nat.le_succ _
    have ends := first.grows.trans second.grows
    obtain ⟨_, n₁, first', _ | ⟨alike₁, ⟨⟩⟩, abreast₁, kept₁⟩ := ih₁ .endpoint abreast
      (runs.part (.source ready'))
      (within.first ((second.grows.trans attributes.grows).counts.trans counts))
    obtain ⟨s', source'⟩ := source_succeeds runs alike₁ source_ first'
    obtain ⟨_, n₂, second', _ | ⟨alike₂, ⟨⟩⟩, abreast₂, kept₂⟩ := ih₂ .endpoint abreast₁
      (runs.part (.target ready' first' source'))
      ((within.rest first.grows.counts).first (attributes.grows.counts.trans counts))
    obtain ⟨t', target'⟩ := target_succeeds runs alike₂ target_ first' second'
    obtain ⟨ws', n₃, attributes', _, abreast₃, kept₃⟩ := ih₃ .nodes abreast₂
      (runs.part (.attributes ready' first' source' second' target'))
      ((within.rest ends.counts).first counts)
    have made := abreast₃.withConstraint s t s' t' kind (attrValues attrs ws) (attrValues attrs ws')
    exact ⟨_, _, .constraint ready' first' source' second' target' attributes',
      .cons (.constraint _ _) .nil, made,
      fun strict => (kept₃ strict).trans ((kept₂ strict).trans (kept₁ strict))⟩
  | composite ready parts ih =>
    rintro inside more _ n ⟨⟩ abreast runs within
    have ready' := abreast.ready ready
    obtain ⟨ws, n', parts', alike, abreast', kept⟩ := ih .nodes abreast
      (runs.part (.statements ready')) within
    exact ⟨_, n', .composite ready' parts', .cons (Alike.last alike .unit) .nil, abreast', kept⟩
  | @scope block attrs m ws m₁ transform props v m₂ ready attributes placed inner ih₁ ih₂ =>
    rintro inside more _ n ⟨⟩ abreast runs within
    have ready' := abreast.ready ready
    have counts : m₁.run.nextId ≤ m₂.run.nextId := inner.grows.counts
    obtain ⟨ws', n₁, attributes', alike, abreast₁, kept₁⟩ := ih₁ .nodes abreast
      (runs.part (.placement ready')) (within.first (counts.trans (Nat.le_succ _)))
    obtain ⟨⟨_, props'⟩, placed', rfl⟩ := split_carries (alike_attrValues attrs alike) _ placed
    obtain ⟨_, n₂, inner', _ | ⟨_, ⟨⟩⟩, abreast₂, kept₂⟩ := ih₂ .node abreast₁.opened
      (runs.part (.block ready' attributes' placed'))
      ((within.rest attributes.grows.counts).first (Nat.le_succ _))
    have closed := abreast₁.withComposite abreast₂ counts (within.rest attributes.grows.counts)
      transform props props'
    refine ⟨_, _, .scope ready' attributes' placed' inner', .cons ?_ .nil, closed,
      fun strict => (kept₂ strict).trans (kept₁ strict)⟩
    have new := within.rest (attributes.grows.counts.trans counts)
    refine .entity rfl rfl fun strict => ?_
    refine twins_new _ rfl (new strict) abreast₂.count rfl rfl fun isBody => ?_
    cases isBody
  | label ready value declared ih =>
    rintro inside more _ n ⟨⟩ abreast runs within
    have ready' := abreast.ready ready
    obtain ⟨_, n', value', _ | ⟨alike, ⟨⟩⟩, abreast', kept⟩ := ih .node abreast
      (runs.part (.labelled ready')) within
    obtain ⟨env', w', declared'⟩ := label_succeeds runs value'
    obtain ⟨bound, after⟩ := abreast'.declare alike declared declared'
    have bound' := Moment.declare_knows declared inside ▸ bound
    exact ⟨_, _, .label ready' value' declared', .cons bound' .nil, after, kept⟩
  | call ready found arguments called ih₁ ih₂ =>
    rintro inside more _ n ⟨⟩ abreast runs within
    have ready' := abreast.ready ready
    obtain ⟨f', found', callee⟩ := callee_alike abreast.labels found
    obtain ⟨vs', n₁, arguments', alike, abreast₁, kept₁⟩ := ih₁ .nodes abreast
      (runs.part (.passed ready' found')) (within.first called.grows.counts)
    have callee₁ := callee.mono arguments.grows.knows
    obtain ⟨_, n₂, called', _ | ⟨alike', ⟨⟩⟩, abreast₂, kept₂⟩ := ih₂ (.call callee₁ alike) abreast₁
      (runs.part (.called ready' found' arguments')) (within.rest arguments.grows.counts)
    exact ⟨_, n₂, .call ready' found' arguments' called', .cons alike' .nil, abreast₂,
      fun strict => (kept₂ strict).trans (kept₁ strict)⟩
  | nil =>
    rintro inside more _ n ⟨⟩ abreast runs within
    exact ⟨[], n, .nil, .nil, abreast, fun _ => rfl⟩
  | cons head tail ih₁ ih₂ =>
    rintro inside more _ n ⟨⟩ abreast runs within
    obtain ⟨_, n₁, head', _ | ⟨alike₁, ⟨⟩⟩, abreast₁, kept₁⟩ := ih₁ .node abreast
      (runs.part .head) (within.first tail.grows.counts)
    obtain ⟨ws, n₂, tail', alike₂, abreast₂, kept₂⟩ := ih₂ .nodes abreast₁
      (runs.part (.tail head')) (within.rest head.grows.counts)
    exact ⟨_, n₂, .cons head' tail', .cons (alike₁.mono tail.grows.knows) alike₂, abreast₂,
      fun strict => (kept₂ strict).trans (kept₁ strict)⟩
  | endName =>
    rintro inside more _ n ⟨⟩ abreast runs within
    exact ⟨_, n, .endName, .cons (symbol_alike abreast.labels _) .nil, abreast, fun _ => rfl⟩
  | endNode other value ih =>
    rintro inside more _ n ⟨⟩ abreast runs within
    obtain ⟨_, n', value', _ | ⟨alike, ⟨⟩⟩, rest⟩ := ih .node abreast
      (runs.part (.endNode other)) within
    exact ⟨_, n', .endNode other value', .cons alike .nil, rest⟩
  | closure entered result ih =>
    rintro inside more _ n (_ | _ | _ | ⟨callee, arguments⟩) abreast runs within
    obtain ⟨c', rfl, _, body, _⟩ := Alike.closure_iff.mp callee
    obtain ⟨env', entered', begun⟩ := abreast.prepare callee arguments entered
    have grows := Moment.Grows.returned (prepare_sameEntities entered) result.grows
    obtain ⟨_, n', result', _ | ⟨alike, ⟨⟩⟩, ended, kept⟩ := ih (body ▸ .node) begun
      (runs.part (.entered entered')) within
    exact ⟨_, _, .closure entered' result', .cons alike .nil, abreast.returned ended grows, kept⟩
  | operation does numbers =>
    rintro inside more _ n (_ | _ | _ | ⟨callee, arguments⟩) abreast runs within
    obtain rfl := callee.eq (.builtin _)
    obtain ⟨_, numbers', rfl⟩ := numbersFrom_carries arguments 1 _ numbers
    exact ⟨_, n, .operation does numbers', .cons (.number _) .nil, abreast, fun _ => rfl⟩
  | halt =>
    rintro inside more _ n (_ | _ | _ | ⟨callee, ⟨⟩⟩) abreast runs within
    obtain rfl := callee.eq (.builtin _)
    exact ⟨_, _, .halt, .cons .unit .nil, abreast.halted,
      fun strict => absurd rfl (callee.running strict)⟩
  | «repeat» often swept ih =>
    rintro inside more _ n (_ | _ | _ | ⟨callee, _ | ⟨times, _ | ⟨f, ⟨⟩⟩⟩⟩) abreast runs within
    obtain rfl := callee.eq (.builtin _)
    obtain ⟨_, often', rfl⟩ := countArgument_carries times .repeat _ often
    obtain ⟨_, n', swept', _ | ⟨alike, ⟨⟩⟩, ended, kept⟩ :=
      ih (.sweep f .unit) abreast (runs.part (.repeated often')) within
    exact ⟨_, _, .repeat often' swept', .cons alike .nil,
      abreast.returned ended (.returned (.refl _) swept.grows), kept⟩
  | grid wide high swept ih =>
    rintro inside more _ n (_ | _ | _ | ⟨callee, _ | ⟨x, _ | ⟨y, _ | ⟨f, ⟨⟩⟩⟩⟩⟩) abreast runs within
    obtain rfl := callee.eq (.builtin _)
    obtain ⟨_, wide', rfl⟩ := countArgument_carries x .grid _ wide
    obtain ⟨_, high', rfl⟩ := countArgument_carries y .grid _ high
    obtain ⟨_, n', swept', _ | ⟨alike, ⟨⟩⟩, ended, kept⟩ :=
      ih (.sweep f .unit) abreast (runs.part (.gridded wide' high')) within
    exact ⟨_, _, .grid wide' high' swept', .cons alike .nil,
      abreast.returned ended (.returned (.refl _) swept.grows), kept⟩
  | swept =>
    rintro inside more _ n (_ | _ | _ | _ | ⟨callee, value⟩) abreast runs within
    exact ⟨_, n, .swept, .cons value .nil, abreast, fun _ => rfl⟩
  | cell head tail ih₁ ih₂ =>
    rintro inside more _ n (_ | _ | _ | _ | ⟨callee, value⟩) abreast runs within
    obtain ⟨_, n₁, head', _ | ⟨alike₁, ⟨⟩⟩, abreast₁, kept₁⟩ :=
      ih₁ (.call callee (loopArguments_alike callee _)) abreast (runs.part .cell)
        (within.first tail.grows.counts)
    obtain ⟨_, n₂, tail', _ | ⟨alike₂, ⟨⟩⟩, abreast₂, kept₂⟩ :=
      ih₂ (.sweep (callee.mono head.grows.knows) alike₁) abreast₁ (runs.part (.cells head'))
        (within.rest head.grows.counts)
    exact ⟨_, n₂, .cell head' tail', .cons alike₂ .nil, abreast₂,
      fun strict => (kept₂ strict).trans (kept₁ strict)⟩

end RigidScene
