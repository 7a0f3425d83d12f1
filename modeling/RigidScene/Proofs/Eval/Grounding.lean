import RigidScene.Proofs.Eval.Adequacy
import RigidScene.Proofs.Eval.Surfacing

/-!
Every body that a program can still speak of is in its scene.

A value *mentions* the numbers of bodies that a program can get at by it: a body its own number, a
function those that its captured labels mention.  Bodies never leave a block (`Derived.holds`), so
the bodies of the block that a run ends with are a fixed set that everything on the way can be
measured by: an environment is *grounded* in a set of numbers if its labels mention and its
constraints end at numbers of the set only.  `Derived.grounded` is the induction: what is grounded
at the beginning of a job is grounded at its end, in any set that has the bodies of that end.
-/

namespace RigidScene

open Composite

/-- By the value a program can get at a body with the number. -/
inductive Value.Mentions (n : EntityId) : Value → Prop where
  | body {b} (own : b.id = n) : Mentions n (.body b)
  | captured {c : Closure Value} {e} (held : e ∈ c.captured.entries) (inside : Mentions n e.2) :
    Mentions n (.closure c)

/-- The value leads to known bodies only. -/
def Value.Grounded (known : EntityId → Prop) (v : Value) : Prop :=
  ∀ n, v.Mentions n → known n

/-- By one of the labels a program can get at a body with the number. -/
def Labels.Mentions (labels : Labels) (n : EntityId) : Prop :=
  ∃ e ∈ labels.entries, e.2.Mentions n

/-- An end of the constraint is the number. -/
def Constraint.EndsAt {V : Type} (c : Constraint V) (n : EntityId) : Prop :=
  c.source = .id n ∨ c.target = .id n

namespace Environment

/-- All bodies that the labels and constraints of the environment lead to are known. -/
structure Grounded (known : EntityId → Prop) (env : Environment) : Prop where
  labels : ∀ n, Labels.Mentions env.labels n → known n
  edges : ∀ c ∈ env.edges, ∀ n, c.EndsAt n → known n

end Environment

/-- The values that a job is given. -/
def Job.inputs : Job → List Value
  | .call _ f args => f :: args
  | .sweep _ f _ last => [f, last]
  | _ => []

section Mentions

variable {n : EntityId}

theorem mentions_closure {c : Closure Value} :
    (Value.closure c).Mentions n ↔ Labels.Mentions c.captured n := by
  constructor
  · rintro (_ | ⟨held, inside⟩)
    exact ⟨_, held, inside⟩
  · rintro ⟨e, held, inside⟩
    exact .captured held inside

theorem mentions_insert {labels : Labels} {name : String} {v : Value}
    (mentioned : Labels.Mentions (labels.insert name v) n) :
    labels.Mentions n ∨ v.Mentions n := by
  obtain ⟨e, member, inside⟩ := mentioned
  rcases NameMap.mem_insert member with old | rfl
  · exact .inl ⟨e, old, inside⟩
  · exact .inr inside

theorem mentions_withLabel {name : String} {v : Value}
    (mentioned : (v.withLabel name).Mentions n) : v.Mentions n := by
  cases v with
  | body b =>
    rcases mentioned with ⟨own⟩
    exact .body own
  | composite c => cases mentioned
  | _ => exact mentioned

/-- Inside a function, labels mention what the labels outside, the captured ones and the arguments
mention. -/
theorem mentions_prepare {c : Closure Value} {name : String} {args : List Value} {limit : Nat}
    {env inner : Environment} (entered : c.prepare name args limit env = .ok inner)
    (mentioned : Labels.Mentions inner.labels n) :
    Labels.Mentions env.labels n ∨ Labels.Mentions c.captured n ∨ ∃ v ∈ args, v.Mentions n := by
  obtain ⟨e, member, inside⟩ := mentioned
  rcases prepare_labels entered member with label | captured | argument
  · exact .inl ⟨e, label, inside⟩
  · exact .inr (.inl ⟨e, captured, inside⟩)
  · exact .inr (.inr ⟨e.2, argument, inside⟩)

end Mentions

section Naming

variable {env env' : Environment} {policy : LabelPolicy} {name : String}

/-- What a label statement binds mentions what the statement was given, or a body of the block. -/
theorem declare_mentions {v v' : Value} {n : EntityId}
    (h : env.declare policy name v = .ok (env', v')) (mentioned : v'.Mentions n) :
    v.Mentions n ∨ env.Holds n := by
  obtain ⟨_, rfl, _⟩ | ⟨id, _, found, unlabelled, relabelled, rfl, _⟩ := declare_cases h
  · exact .inl mentioned
  · obtain ⟨front, b, back, whole, own, _, rfl, _⟩ | ⟨_, _, _, _, _, _, _, rfl, _⟩ |
      ⟨_, _, rfl, _⟩ := relabel_cases relabelled
    · rcases mentioned with ⟨same⟩
      have member : b ∈ env.walk := by simp [Environment.walk, whole]
      exact .inr (List.mem_map.mpr ⟨b, member, same⟩)
    · cases mentioned
    · exact .inl (mentions_withLabel mentioned)

/-- Nor does it bind labels that lead anywhere else. -/
theorem declare_labels {v v' : Value} {n : EntityId}
    (h : env.declare policy name v = .ok (env', v'))
    (mentioned : Labels.Mentions env'.labels n) :
    Labels.Mentions env.labels n ∨ v'.Mentions n := by
  rw [declare_labels_eq h] at mentioned
  exact mentions_insert mentioned

end Naming

section Values

variable {known : EntityId → Prop} {env : Environment}

theorem plain_grounded (v : Value) (plain : v.Plain) : v.Grounded known := by
  rintro n (_ | _) <;> cases plain

/-- Labels that mention known bodies only are bound to such values. -/
theorem Environment.Grounded.values (grounded : env.Grounded known) :
    ∀ e ∈ env.labels.entries, e.2.Grounded known :=
  fun e held n inside => grounded.labels n ⟨e, held, inside⟩

/-- A constraint ends at a number only if it was given a body with the number. -/
theorem mentions_of_end {v : Value} {n : EntityId} (made : Endpoint.ofValue v = .ok (.id n)) :
    v.Mentions n := by
  cases v <;> cases made
  exact .body rfl

/-- The last of several values, or nothing. -/
theorem grounded_last {vs : List Value} (grounded : ∀ v ∈ vs, v.Grounded known) :
    (vs.getLastD .unit).Grounded known :=
  List.forall_mem_cons.mpr ⟨plain_grounded .unit trivial, grounded⟩ _ List.getLastD_mem_cons

end Values

section Grounded

variable {settings : Settings} {known : EntityId → Prop}

/-- The same entities under labels that lead to known bodies. -/
theorem Environment.Grounded.of_same {env env' : Environment} (grounded : env.Grounded known)
    (same : env'.SameEntities env) (labels : ∀ n, Labels.Mentions env'.labels n → known n) :
    env'.Grounded known where
  labels := labels
  edges := by
    obtain ⟨_, constraints, composites⟩ := same
    rw [Environment.edges, constraints, composites]
    exact grounded.edges

/-- The beginning of a function's body. -/
theorem Environment.Grounded.prepare {env inner : Environment} (grounded : env.Grounded known)
    {c : Closure Value} {name : String} {args : List Value} {limit : Nat}
    (entered : c.prepare name args limit env = .ok inner)
    (given : ∀ v ∈ Value.closure c :: args, v.Grounded known) : inner.Grounded known := by
  refine grounded.of_same (prepare_sameEntities entered) ?_
  intro n mentioned
  rcases mentions_prepare entered mentioned with label | captured | ⟨v, member, inside⟩
  · exact grounded.labels n label
  · exact given _ List.mem_cons_self n (mentions_closure.mpr captured)
  · exact given v (List.mem_cons_of_mem _ member) n inside

/-- Naming a value, in a block whose bodies are known. -/
theorem Environment.Grounded.declare {env env' : Environment} (grounded : env.Grounded known)
    {policy : LabelPolicy} {name : String} {v v' : Value}
    (declared : env.declare policy name v = .ok (env', v')) (given : v.Grounded known)
    (bodies : ∀ n, env.Holds n → known n) : env'.Grounded known ∧ v'.Grounded known := by
  have bound : v'.Grounded known := by
    intro n mentioned
    rcases declare_mentions declared mentioned with before | held
    · exact given n before
    · exact bodies n held
  refine ⟨⟨?_, ?_⟩, bound⟩
  · intro n mentioned
    rcases declare_labels declared mentioned with before | new
    · exact grounded.labels n before
    · exact bound n new
  · rw [(declare_same_ids declared).2]
    exact grounded.edges

/-- What is grounded at the beginning of a job is grounded at its end, in any set that has the
bodies of that end. -/
theorem Derived.grounded {job : Job} {m m' : Moment} {vs : List Value}
    (derived : Derived settings job m vs m') (bodies : ∀ n, m'.env.Holds n → known n)
    (before : m.env.Grounded known) (given : ∀ v ∈ job.inputs, v.Grounded known) :
    m'.env.Grounded known ∧ ∀ v ∈ vs, v.Grounded known := by
  induction derived with
  | leaf ready value =>
    exact ⟨before, List.forall_mem_singleton.mpr
      (forall_leaf plain_grounded before.values value)⟩
  | function ready =>
    refine ⟨before, List.forall_mem_singleton.mpr ?_⟩
    intro n mentioned
    exact before.labels n (mentions_closure.mp mentioned)
  | vector ready first second point ih₁ ih₂ =>
    have one := ih₁ (fun n held => bodies n (second.holds held)) before (List.forall_mem_nil _)
    have two := ih₂ bodies one.1 (List.forall_mem_nil _)
    refine ⟨two.1, List.forall_mem_singleton.mpr ?_⟩
    rintro n ⟨⟩
  | body ready shape arguments attributes fits ih₁ ih₂ =>
    have later n (held : Environment.Holds _ n) := bodies n (holds_withBody_iff.mpr (.inl held))
    have one := ih₁ (fun n held => later n (attributes.holds held)) before (List.forall_mem_nil _)
    have two := ih₂ later one.1 (List.forall_mem_nil _)
    refine ⟨⟨two.1.labels, two.1.edges⟩, List.forall_mem_singleton.mpr ?_⟩
    rintro n ⟨rfl⟩
    exact bodies _ (holds_withBody_iff.mpr (.inr rfl))
  | constraint ready first source second target attributes ih₁ ih₂ ih₃ =>
    have one := ih₁ (fun n held => bodies n (attributes.holds (second.holds held))) before
      (List.forall_mem_nil _)
    have two := ih₂ (fun n held => bodies n (attributes.holds held)) one.1 (List.forall_mem_nil _)
    have three := ih₃ bodies two.1 (List.forall_mem_nil _)
    refine ⟨⟨three.1.labels, ?_⟩, List.forall_mem_singleton.mpr ?_⟩
    · intro c member n ends
      rcases mem_edges_withConstraint_iff.mp member with old | rfl
      · exact three.1.edges c old n ends
      · rcases ends with rfl | rfl
        · exact one.2 _ List.mem_cons_self n (mentions_of_end source)
        · exact two.2 _ List.mem_cons_self n (mentions_of_end target)
    · rintro n ⟨⟩
  | composite ready parts ih =>
    obtain ⟨after, values⟩ := ih bodies before (List.forall_mem_nil _)
    exact ⟨after, List.forall_mem_singleton.mpr (grounded_last values)⟩
  | scope ready attributes placed inside ih₁ ih₂ =>
    have outer := ih₁ (fun n held => bodies n (holds_withComposite_iff.mpr (.inl held))) before
      (List.forall_mem_nil _)
    have opened : Environment.Grounded known (Moment.opened _).env :=
      ⟨outer.1.labels, fun c member => by cases member⟩
    have inner := ih₂ (fun n held => bodies n (holds_withComposite_iff.mpr (.inr held))) opened
      (List.forall_mem_nil _)
    refine ⟨⟨outer.1.labels, ?_⟩, List.forall_mem_singleton.mpr ?_⟩
    · intro c member
      rcases mem_edges_withComposite_iff.mp member with old | new
      · exact outer.1.edges c old
      · exact inner.1.edges c new
    · rintro n ⟨⟩
  | @label name node m v m' env v' ready value declared ih =>
    have held n (holds : m'.env.Holds n) : known n := by
      apply bodies
      rw [Environment.Holds, (declare_same_ids declared).1]
      exact holds
    obtain ⟨after, values⟩ := ih held before (List.forall_mem_nil _)
    have named := after.declare declared (values _ List.mem_cons_self) held
    exact ⟨named.1, List.forall_mem_singleton.mpr named.2⟩
  | call ready found arguments called ih₁ ih₂ =>
    have one := ih₁ (fun n held => bodies n (called.holds held)) before (List.forall_mem_nil _)
    have callee := forall_callee plain_grounded before.values found
    exact ih₂ bodies one.1 (List.forall_mem_cons.mpr ⟨callee, one.2⟩)
  | nil => exact ⟨before, List.forall_mem_nil _⟩
  | cons head tail ih₁ ih₂ =>
    have one := ih₁ (fun n held => bodies n (tail.holds held)) before (List.forall_mem_nil _)
    have two := ih₂ bodies one.1 (List.forall_mem_nil _)
    exact ⟨two.1, List.forall_mem_cons.mpr ⟨one.2 _ List.mem_cons_self, two.2⟩⟩
  | endName => exact ⟨before, List.forall_mem_singleton.mpr
      (forall_symbol plain_grounded before.values _)⟩
  | endNode other value ih => exact ih bodies before (List.forall_mem_nil _)
  | closure entered result ih =>
    obtain ⟨after, values⟩ := ih bodies (before.prepare entered given) (List.forall_mem_nil _)
    exact ⟨after.of_same (withEntitiesOf_sameEntities _ _) before.labels, values⟩
  | operation =>
    exact ⟨before, List.forall_mem_singleton.mpr (plain_grounded _ trivial)⟩
  | halt => exact ⟨before, List.forall_mem_singleton.mpr (plain_grounded _ trivial)⟩
  | «repeat» often swept ih =>
    have callee := given _ (.tail _ (.tail _ (.head _)))
    obtain ⟨after, values⟩ := ih bodies before
      (List.forall_mem_cons.mpr ⟨callee, List.forall_mem_singleton.mpr (plain_grounded _ trivial)⟩)
    exact ⟨after.of_same (withEntitiesOf_sameEntities _ _) before.labels, values⟩
  | grid wide high swept ih =>
    have callee := given _ (.tail _ (.tail _ (.tail _ (.head _))))
    obtain ⟨after, values⟩ := ih bodies before
      (List.forall_mem_cons.mpr ⟨callee, List.forall_mem_singleton.mpr (plain_grounded _ trivial)⟩)
    exact ⟨after.of_same (withEntitiesOf_sameEntities _ _) before.labels, values⟩
  | swept => exact ⟨before, List.forall_mem_singleton.mpr (given _ (.tail _ (.head _)))⟩
  | @cell name f indices cells last m v m₁ w m' head tail ih₁ ih₂ =>
    have callee : f.Grounded known := given f List.mem_cons_self
    have numbers : ∀ v ∈ Builtin.loopArguments f indices, v.Grounded known := by
      intro v member
      obtain ⟨x, rfl⟩ := loopArguments_numeric f indices v member
      exact plain_grounded _ trivial
    have one := ih₁ (fun n held => bodies n (tail.holds held)) before
      (List.forall_mem_cons.mpr ⟨callee, numbers⟩)
    exact ih₂ bodies one.1 (List.forall_mem_cons.mpr ⟨callee, one.2⟩)

end Grounded

/-- A number at an end of a constraint is the number of a body of the scene. -/
theorem ofNode_holds {settings : Settings} {program : Node} {run run' : Run} {scene : Scene}
    (evaluated : Scene.ofNode settings program run = (.ok scene, run')) {c : Constraint Value}
    (member : c ∈ scene.root.edges) {n : EntityId} (ends : c.EndsAt n) :
    ∃ b ∈ scene.root.walk, b.id = n := by
  obtain ⟨env, root, derived⟩ := derived_of_ofNode evaluated
  have nothing : Environment.Grounded env.Holds .empty := by
    constructor
    · rintro n ⟨e, member, _⟩
      cases member
    · intro c member
      cases member
  have grounded := (derived.grounded (fun _ => id) nothing (List.forall_mem_nil _)).1
  rw [root, env.toComposite_edges] at member
  rw [root, env.toComposite_walk]
  exact List.mem_map.mp (grounded.edges c member n ends)

end RigidScene
