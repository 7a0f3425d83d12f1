import Mathlib.Data.List.Forall2
import Mathlib.Data.Nat.ModEq
import RigidScene.Proofs.Eval.Coherence

/-!
Values of two calls of one function.

A second call of a function finds other entities in the block than the first one and numbers what it
makes further on.  `Replica` says how the two calls lie to each other, and `Replica.Alike` relates
their values: scalars and whatever there was before are the same in both, functions are written
alike and have captured alike, and entities are left open.  This is enough to say that the second
call, where it succeeds, makes as much as the first.  A *strict* replica says of entities what the
second call needs to succeed: where the first call has a body there is a body, and the numbers of
entities without labels belong together.

The operations on values answer alike what they are given alike.
-/

namespace RigidScene

/-- The number is given out between the counts. -/
def EntityId.Between (first stop : Nat) (id_ : EntityId) : Prop :=
  ∃ k, first ≤ k ∧ k < stop ∧ id_ = .ofCount k

/-- Counts that mean one number go on to do so. -/
theorem ofCount_add {k k' : Nat} (same : EntityId.ofCount k = .ofCount k') (gap : Nat) :
    EntityId.ofCount (k + gap) = .ofCount (k' + gap) :=
  Nat.ModEq.add_right gap same

theorem ofCount_add_cancel {k k' gap : Nat}
    (same : EntityId.ofCount (k + gap) = .ofCount (k' + gap)) :
    EntityId.ofCount k = .ofCount k' :=
  Nat.ModEq.add_right_cancel' gap same

/-- A call and a later call of the same function: the first one counts from `first` to `last`, the
second one is `gap` ahead, and before `stop` both have ended. -/
structure Replica (settings : Settings) where
  first : Nat
  last : Nat
  gap : Nat
  stop : Nat
  before_stop : last + gap ≤ stop
  /-- The second call is to succeed if the first one does. -/
  strict : Prop
  allows : strict → settings.labelPolicy = .allow

namespace Replica

variable {settings : Settings} (R : Replica settings) (known : EntityId → Prop)

/-- The first call gives the first number to what the second call gives the second number. -/
def Renumbers (i j : EntityId) : Prop :=
  ∃ k, R.first ≤ k ∧ k < R.last ∧ i = .ofCount k ∧ j = .ofCount (k + R.gap)

/-- The number is given out by neither call, nor by any other up to `stop`. -/
def Old (i : EntityId) : Prop :=
  ¬ i.Between R.first R.stop

/-- The value is safe in both calls: it does not stop the run, and naming it cannot find what the
calls make. -/
def Safe (v : Value) : Prop :=
  R.strict → v ≠ .builtin .halt ∧ ∀ i, v.unlabelled? = some i → R.Old i

/-- The second entity does for the second call what the first one does for the first. -/
structure Twins (v w : Value) : Prop where
  body : v.kind = .body → w.kind = .body
  numbers : Option.Rel R.Renumbers v.unlabelled? w.unlabelled?
  known : v.kind = .body → ∀ i, v.unlabelled? = some i → known i

/-- A value of the first call and its counterpart in the second one.  The numbers of bodies without
labels are known ones. -/
inductive Alike : Value → Value → Prop where
  | same {v} (safe : ∀ u, v.Offers u → R.Safe u) : Alike v v
  | entity {v w} (first : v.isEntity = true) (second : w.isEntity = true)
    (twins : R.strict → R.Twins known v w) : Alike v w
  | closure {c c' : Closure Value} (params : c'.params = c.params) (body : c'.body = c.body)
    (length : c.captured.entries.length = c'.captured.entries.length)
    (names : ∀ p ∈ c.captured.entries.zip c'.captured.entries, p.1.1 = p.2.1)
    (values : ∀ p ∈ c.captured.entries.zip c'.captured.entries, Alike p.1.2 p.2.2) :
    Alike (.closure c) (.closure c')

/-- The same names in the same order are bound to values that are alike. -/
def AlikeEntries (es es' : List (String × Value)) : Prop :=
  List.Forall₂ (fun e e' => e.1 = e'.1 ∧ R.Alike known e.2 e'.2) es es'

/-- The jobs are the same, with values that are alike. -/
inductive AlikeJobs : Job → Job → Prop where
  | node {node} : AlikeJobs (.node node) (.node node)
  | nodes {nodes} : AlikeJobs (.nodes nodes) (.nodes nodes)
  | endpoint {node} : AlikeJobs (.endpoint node) (.endpoint node)
  | call {name name' f f' args args'} (callee : R.Alike known f f')
    (arguments : List.Forall₂ (R.Alike known) args args') :
    AlikeJobs (.call name f args) (.call name' f' args')
  | sweep {name f f' cells last last'} (callee : R.Alike known f f')
    (value : R.Alike known last last') :
    AlikeJobs (.sweep name f cells last) (.sweep name f' cells last')

end Replica

/-- The value is neither an entity nor a function. -/
def Value.Scalar (v : Value) : Prop :=
  v.isEntity = false ∧ ∀ c, v ≠ .closure c

theorem Value.Scalar.number (x : Float) : (Value.number x).Scalar :=
  ⟨rfl, by simp⟩

theorem Value.Scalar.vector (p : Point) : (Value.vector p).Scalar :=
  ⟨rfl, by simp⟩

theorem Value.Scalar.builtin (b : Builtin) : (Value.builtin b).Scalar :=
  ⟨rfl, by simp⟩

namespace Replica

variable {settings : Settings} {R : Replica settings} {known known' : EntityId → Prop}

section Values

variable {v w : Value}

theorem Alike.closure_iff {c : Closure Value} : R.Alike known (.closure c) w ↔
    ∃ c', w = .closure c' ∧ c'.params = c.params ∧ c'.body = c.body ∧
      R.AlikeEntries known c.captured.entries c'.captured.entries := by
  constructor
  · rintro (safe | ⟨entity, _⟩ | ⟨params, body, length, names, values⟩)
    · refine ⟨c, rfl, rfl, rfl, List.forall₂_same.mpr fun e held => ⟨rfl, .same ?_⟩⟩
      exact fun u offered => safe u (.captured held offered)
    · cases entity
    · refine ⟨_, rfl, params, body, List.forall₂_iff_zip.mpr ⟨length, ?_⟩⟩
      exact fun held => ⟨names _ held, values _ held⟩
  · rintro ⟨c', rfl, params, body, captured⟩
    obtain ⟨length, pairs⟩ := List.forall₂_iff_zip.mp captured
    exact .closure params body length (fun p held => (pairs held).1) fun p held => (pairs held).2

/-- Scalars are the same in both calls. -/
theorem Alike.eq (alike : R.Alike known v w) (scalar : v.Scalar) : w = v := by
  obtain ⟨no_entity, no_closure⟩ := scalar
  cases alike with
  | same => rfl
  | entity first => rw [no_entity] at first; cases first
  | closure => exact absurd rfl (no_closure _)

/-- What is no function and has no number without a label is the same in both calls. -/
theorem Alike.of_plain (plain : v.Plain) (running : v ≠ .builtin .halt) : R.Alike known v v := by
  refine .same ((Value.forall_offers_iff plain.ne_closure).mpr fun _ => ⟨running, ?_⟩)
  intro i unlabelled
  have own := entityId?_of_unlabelled? unlabelled
  rw [plain.entityId?] at own
  cases own

theorem Alike.number (x : Float) : R.Alike known (.number x) (.number x) :=
  .of_plain trivial (by simp)

theorem Alike.vector (p : Point) : R.Alike known (.vector p) (.vector p) :=
  .of_plain trivial (by simp)

theorem Alike.unit : R.Alike known .unit .unit :=
  .of_plain trivial (by simp)

/-- Nothing is said of constraints: they have no numbers. -/
theorem Alike.constraint (c c' : Constraint Value) :
    R.Alike known (.constraint c) (.constraint c') := by
  refine .entity rfl rfl fun _ => ⟨fun kind => ?_, .none, fun kind => ?_⟩
  · cases kind
  · cases kind

theorem Alike.mono (wider : ∀ i, known i → known' i) (alike : R.Alike known v w) :
    R.Alike known' v w := by
  induction alike with
  | same safe => exact .same safe
  | entity first second twins =>
    refine .entity first second fun strict => ?_
    obtain ⟨body, numbers, old⟩ := twins strict
    exact ⟨body, numbers, fun kind i unlabelled => wider i (old kind i unlabelled)⟩
  | closure params body length names _ ih => exact .closure params body length names ih

theorem AlikeEntries.mono (wider : ∀ i, known i → known' i) {es es' : List (String × Value)}
    (alike : R.AlikeEntries known es es') : R.AlikeEntries known' es es' :=
  List.Forall₂.imp (fun _ _ pair => ⟨pair.1, pair.2.mono wider⟩) alike

/-- The last of several values, or the one before them. -/
theorem Alike.last {vs ws : List Value} (alike : List.Forall₂ (R.Alike known) vs ws)
    (before : R.Alike known v w) : R.Alike known (vs.getLastD v) (ws.getLastD w) := by
  induction alike generalizing v w with
  | nil => exact before
  | cons head _ ih =>
    rw [List.getLastD_cons, List.getLastD_cons]
    exact ih head

end Values

section Entries

variable {es es' : List (String × Value)}

theorem rel_isSome {α β : Type} {r : α → β → Prop} {a : Option α} {b : Option β}
    (related : Option.Rel r a b) : a.isSome = b.isSome := by
  cases related <;> rfl

theorem AlikeEntries.lookup (alike : R.AlikeEntries known es es') (name : String) :
    Option.Rel (R.Alike known) (es.lookup name) (es'.lookup name) := by
  induction alike with
  | nil => exact .none
  | @cons e e' es es' pair _ ih =>
    obtain ⟨key, v⟩ := e
    obtain ⟨key', w⟩ := e'
    obtain ⟨rfl, value⟩ := pair
    rw [NameMap.lookup_cons, NameMap.lookup_cons]
    split
    · exact .some value
    · exact ih

theorem AlikeEntries.get? {m m' : NameMap Value}
    (alike : R.AlikeEntries known m.entries m'.entries) (name : String) :
    Option.Rel (R.Alike known) (m.get? name) (m'.get? name) :=
  alike.lookup name

theorem AlikeEntries.insert (alike : R.AlikeEntries known es es') (name : String) {v w : Value}
    (value : R.Alike known v w) :
    R.AlikeEntries known (NameMap.insertEntry name v es) (NameMap.insertEntry name w es') := by
  induction alike with
  | nil => exact .cons ⟨rfl, value⟩ .nil
  | @cons e e' es es' pair rest ih =>
    rw [NameMap.insertEntry, NameMap.insertEntry, pair.1]
    split
    · exact .cons ⟨rfl, value⟩ rest
    · exact .cons pair ih

theorem AlikeEntries.insertAll {m m' : NameMap Value}
    (alike : R.AlikeEntries known m.entries m'.entries) (more : R.AlikeEntries known es es') :
    R.AlikeEntries known (m.insertAll es).entries (m'.insertAll es').entries := by
  induction more generalizing m m' with
  | nil => exact alike
  | @cons e e' es es' pair _ ih =>
    have inserted : R.AlikeEntries known (m.insert e.1 e.2).entries (m'.insert e'.1 e'.2).entries :=
      pair.1 ▸ alike.insert e.1 pair.2
    exact ih inserted

theorem AlikeEntries.withFallback {m m' fallback fallback' : NameMap Value}
    (alike : R.AlikeEntries known m.entries m'.entries)
    (behind : R.AlikeEntries known fallback.entries fallback'.entries) :
    R.AlikeEntries known (m.withFallback fallback).entries (m'.withFallback fallback').entries := by
  refine alike.insertAll (List.rel_filter ?_ behind)
  intro e e' pair
  have bound : m.contains e.1 = m'.contains e'.1 := by
    rw [← pair.1]
    exact rel_isSome (alike.get? e.1)
  simp only [bound]

/-- Names with values. -/
theorem AlikeEntries.zip (names : List String) {vs ws : List Value}
    (alike : List.Forall₂ (R.Alike known) vs ws) :
    R.AlikeEntries known (names.zip vs) (names.zip ws) := by
  induction alike generalizing names with
  | nil => simp [AlikeEntries]
  | cons value _ ih =>
    cases names with
    | nil => exact .nil
    | cons name names => exact .cons ⟨rfl, value⟩ (ih names)

theorem alike_attrValues (attrs : List (String × Node)) {vs ws : List Value}
    (alike : List.Forall₂ (R.Alike known) vs ws) :
    R.AlikeEntries known (attrValues attrs vs).entries (attrValues attrs ws).entries := by
  have nothing : R.AlikeEntries known (∅ : NameMap Value).entries (∅ : NameMap Value).entries :=
    .nil
  exact nothing.insertAll (.zip _ alike)

end Entries

section Names

variable {env env' : Environment}
  (labels : R.AlikeEntries known env.labels.entries env'.labels.entries)

include labels

/-- A bare name means the same in both calls. -/
theorem symbol_alike (name : String) :
    R.Alike known ((env.get? name).getD (.string name)) ((env'.get? name).getD (.string name)) := by
  have values : Option.Rel _ (env.get? name) (env'.get? name) := labels.get? name
  generalize env.get? name = bound at values ⊢
  generalize env'.get? name = bound' at values ⊢
  cases values with
  | none => exact .of_plain trivial (by simp)
  | some value => exact value

theorem leaf_alike {node : Node} {v : Value} (value : node.leaf? env = some v) :
    ∃ w, node.leaf? env' = some w ∧ R.Alike known v w := by
  cases node with
  | symbol name =>
    cases value
    exact ⟨_, rfl, symbol_alike labels name⟩
  | number | string | bool =>
    cases value
    exact ⟨_, rfl, .of_plain trivial (by simp)⟩
  | _ => cases value

/-- So does the name of a call; the built-ins that have names do not stop the run. -/
theorem callee_alike {name : String} {f : Value} (found : env.callee name = .ok f) :
    ∃ f', env'.callee name = .ok f' ∧ R.Alike known f f' := by
  have values : Option.Rel _ (env.get? name) (env'.get? name) := labels.get? name
  unfold Environment.callee at found ⊢
  generalize env.get? name = bound at values found
  generalize env'.get? name = bound' at values ⊢
  cases values with
  | some value =>
    cases found
    exact ⟨_, rfl, value⟩
  | none =>
    cases builtin : Builtin.ofName? name with
    | none => simp [builtin] at found
    | some b =>
      simp only [builtin, Except.ok.injEq] at found
      subst found
      have running : b ≠ .halt := by
        rintro rfl
        have listed := List.mem_of_find?_eq_some builtin
        simp [Builtin.table] at listed
      exact ⟨_, rfl, .of_plain trivial fun same => running (Value.builtin.inj same)⟩

end Names

/-- A loop passes the same numbers to functions that are alike. -/
theorem loopArguments_alike {f f' : Value} (alike : R.Alike known f f') (indices : List Nat) :
    List.Forall₂ (R.Alike known) (Builtin.loopArguments f indices)
      (Builtin.loopArguments f' indices) := by
  have same : Builtin.loopArguments f' indices = Builtin.loopArguments f indices := by
    cases alike with
    | same => rfl
    | entity first second => cases f <;> cases first <;> cases f' <;> cases second <;> rfl
    | closure params => simp only [Builtin.loopArguments, params]
  rw [same, List.forall₂_same]
  intro v member
  obtain ⟨x, rfl⟩ := loopArguments_numeric f indices v member
  exact .number x

/-- If the first computation answers, the second one does, and the answers are in the relation. -/
def Carries {α : Type} (r : α → α → Prop) (x y : Except EvalError α) : Prop :=
  ∀ a, x = .ok a → ∃ b, y = .ok b ∧ r a b

section Operations

variable {α β : Type} {r : α → α → Prop} {s : β → β → Prop}

theorem Carries.ok {a b : α} (related : r a b) : Carries r (.ok a) (.ok b) := by
  rintro _ ⟨⟩
  exact ⟨b, rfl, related⟩

theorem Carries.bind {x y : Except EvalError α} {f g : α → Except EvalError β}
    (first : Carries r x y) (rest : ∀ a b, r a b → Carries s (f a) (g b)) :
    Carries s (x >>= f) (y >>= g) := by
  intro c answered
  cases x with
  | error => cases answered
  | ok a =>
    obtain ⟨b, same, related⟩ := first a rfl
    rw [same]
    exact rest a b related c answered

theorem expectNumber_carries {v w : Value} (alike : R.Alike known v w) (site : TypeSite) :
    Carries Eq (expectNumber site v) (expectNumber site w) := by
  intro x answered
  cases v with
  | number y =>
    rw [alike.eq (.number y)]
    exact ⟨x, answered, rfl⟩
  | _ => cases answered

theorem expectPoint_carries {v w : Value} (alike : R.Alike known v w) (site : TypeSite) :
    Carries Eq (expectPoint site v) (expectPoint site w) := by
  intro p answered
  cases v with
  | vector q =>
    rw [alike.eq (.vector q)]
    exact ⟨p, answered, rfl⟩
  | _ => cases answered

theorem ofValues_carries {x y x' y' : Value} (first : R.Alike known x x')
    (second : R.Alike known' y y') : Carries Eq (Point.ofValues x y) (Point.ofValues x' y') := by
  refine (expectNumber_carries first _).bind ?_
  rintro x _ rfl
  refine (expectNumber_carries second _).bind ?_
  rintro y _ rfl
  exact .ok rfl

theorem countArgument_carries {v w : Value} (alike : R.Alike known v w) (op : Builtin) :
    Carries Eq (Builtin.countArgument op v) (Builtin.countArgument op w) := by
  refine (expectNumber_carries alike _).bind ?_
  rintro x _ rfl
  exact .ok rfl

theorem numbersFrom_carries {op : Builtin} {args args' : List Value}
    (alike : List.Forall₂ (R.Alike known) args args') (position : Nat) :
    Carries Eq (op.numbersFrom position args) (op.numbersFrom position args') := by
  induction alike generalizing position with
  | nil => exact .ok rfl
  | cons head _ ih =>
    refine (expectNumber_carries head _).bind ?_
    rintro x _ rfl
    refine (ih (position + 1)).bind ?_
    rintro xs _ rfl
    exact .ok rfl

theorem assignFixed_carries {shape : Shape} {fixed fixed' : List (String × Value)}
    (alike : R.AlikeEntries known fixed fixed') :
    Carries Eq (shape.assignFixed fixed) (shape.assignFixed fixed') := by
  induction alike with
  | nil => exact .ok rfl
  | @cons e e' es es' pair _ ih =>
    obtain ⟨name, v⟩ := e
    obtain ⟨name', w⟩ := e'
    obtain ⟨rfl, value⟩ := pair
    exact (expectNumber_carries value _).bind fun _ _ _ => ih

theorem assignRest_carries {shape : Shape} {name : String} {args args' : List Value}
    (alike : List.Forall₂ (R.Alike known) args args') :
    Carries Eq (shape.assignRest name args) (shape.assignRest name args') := by
  induction alike with
  | nil => exact .ok rfl
  | cons head _ ih => exact (expectPoint_carries head _).bind fun _ _ _ => ih

theorem assign_carries (shape : Shape) {args args' : List Value}
    (alike : List.Forall₂ (R.Alike known) args args') :
    Carries (fun _ _ => True) (shape.assign args) (shape.assign args') := by
  unfold Shape.assign
  rw [← alike.length_eq]
  split
  · refine (assignFixed_carries (.zip _ alike)).bind fun _ _ _ => ?_
    cases shape.rest? with
    | none => exact .ok trivial
    | some name =>
      have rest := List.forall₂_drop shape.parameters.length alike
      exact (assignRest_carries rest).bind fun _ _ _ => .ok trivial
  · intro _ refused
    cases refused

section Placement

variable {props props' : NameMap Value}

theorem numberAt_carries (alike : R.AlikeEntries known props.entries props'.entries)
    (key : String) : Carries Eq (Transform.numberAt props key) (Transform.numberAt props' key) := by
  have values := alike.get? key
  unfold Transform.numberAt
  generalize props.get? key = bound at values ⊢
  generalize props'.get? key = bound' at values ⊢
  cases values with
  | none => exact .ok rfl
  | some value =>
    refine (expectNumber_carries value _).bind ?_
    rintro x _ rfl
    exact .ok rfl

theorem ofProps_carries (alike : R.AlikeEntries known props.entries props'.entries) :
    Carries Eq (Transform.ofProps props) (Transform.ofProps props') := by
  have values := alike.get? "translate"
  unfold Transform.ofProps
  generalize props.get? "translate" = bound at values ⊢
  generalize props'.get? "translate" = bound' at values ⊢
  cases values
  case' none => refine Carries.bind (.ok (r := Eq) rfl) ?_
  case' some value => refine (expectPoint_carries value _).bind ?_
  all_goals
    rintro base _ rfl
    refine (numberAt_carries alike "x").bind ?_
    rintro x _ rfl
    refine (numberAt_carries alike "y").bind ?_
    rintro y _ rfl
    refine (numberAt_carries alike "rotate").bind ?_
    rintro rotate _ rfl
    refine (numberAt_carries alike "angle").bind ?_
    rintro angle _ rfl
    refine (numberAt_carries alike "scale").bind ?_
    rintro scale _ rfl
    exact .ok rfl

/-- Blocks are placed alike, whatever other attributes they have. -/
theorem split_carries (alike : R.AlikeEntries known props.entries props'.entries) :
    Carries (fun placed placed' => placed.1 = placed'.1) (Transform.split props)
      (Transform.split props') :=
  (ofProps_carries alike).bind fun _ _ same => .ok same

end Placement

/-- In a strict replica the second call has an end for a constraint where the first call has one. -/
theorem ofValue_carries {v w : Value} (alike : R.Alike known v w) (strict : R.strict) :
    Carries (fun _ _ => True) (Endpoint.ofValue v) (Endpoint.ofValue w) := by
  intro e made
  cases alike with
  | same => exact ⟨e, made, trivial⟩
  | closure => cases made
  | entity first second twins =>
    cases v with
    | body b =>
      have kind := (twins strict).body rfl
      cases w with
      | body b' => exact ⟨_, rfl, trivial⟩
      | _ => cases kind
    | constraint | composite => cases made
    | _ => cases first

end Operations

end Replica

end RigidScene
