import RigidScene.Proofs.Build.SecondPass
import RigidScene.Proofs.World.Replay

/-!
Which calls a build makes, and what it may pass to them.

The calls of the first pass make bodies and groups and place them, those of the second pass make
constraints.  `Act.Issues` is the judgement: every call that an action makes is one of a pass and
passes handles only that are known already or that a call before it has been answered with.
-/

namespace RigidScene

open Outcome Composite

/-- The two passes of a build. -/
inductive Pass where
  | bodies
  | constraints
  deriving DecidableEq, Repr

/-- The pass that a call belongs to; clearing the engine belongs to none. -/
def Call.pass? : Call → Option Pass
  | createBody _ | createGroup _ | addBody _ _ | addGroup _ _ | translateGroup _ _
  | rotateGroup _ _ _ | scaleGroup _ _ _ => some .bodies
  | createConstraint _ | addConstraint _ _ => some .constraints
  | teardown => none

/-- Carried out in order, each call of the log passes handles only that are known or that a call
before it has been answered with. -/
def Engine.Backed {σ : Type} (e : Engine σ) : (known : List Handle) → List Call → σ → Prop
  | _, [], _ => True
  | known, call :: rest, s => (∀ h ∈ call.uses, h ∈ known) ∧
    ∀ made s', e.perform call s = (.ok made, s') → e.Backed (known ++ made.toList) rest s'

section Backed

variable {σ : Type} {e : Engine σ} {s mid s' : σ} {known hs : List Handle}

theorem backed_append {front back : List Call} (first : e.Backed known front s)
    (replayed : e.replay front s = (.ok hs, mid)) (second : e.Backed (known ++ hs) back mid) :
    e.Backed known (front ++ back) s := by
  induction front generalizing known s hs with
  | nil =>
    obtain ⟨rfl, rfl⟩ := pure_ok_iff.mp replayed
    rwa [List.append_nil] at second
  | cons call front ih =>
    simp only [Engine.replay, bind_ok_iff, pure_ok_iff] at replayed
    obtain ⟨made, s₁, performed, later, _, rest, rfl, rfl⟩ := replayed
    refine ⟨first.1, ?_⟩
    intro made' s₁' performed'
    obtain ⟨same, rfl⟩ := Prod.mk.inj (performed'.symm.trans performed)
    obtain rfl := Except.ok.inj same
    rw [← List.append_assoc] at second
    exact ih (first.2 made' s₁' performed) rest second

/-- A handle that a call of the log passes is known or is answered to the calls before it. -/
theorem Backed.split {front back : List Call} {call : Call} {all : List Handle}
    (backed : e.Backed known (front ++ call :: back) s)
    (replayed : e.replay (front ++ call :: back) s = (.ok all, s')) {h : Handle}
    (used : h ∈ call.uses) :
    ∃ hs mid, e.replay front s = (.ok hs, mid) ∧ h ∈ known ++ hs := by
  induction front generalizing known s all s' with
  | nil =>
    refine ⟨[], s, rfl, ?_⟩
    rw [List.append_nil]
    exact backed.1 h used
  | cons first front ih =>
    simp only [List.cons_append, Engine.replay, bind_ok_iff, pure_ok_iff] at replayed
    obtain ⟨made, s₁, performed, later, _, rest, _, _⟩ := replayed
    obtain ⟨hs, mid, before, member⟩ := ih (backed.2 made s₁ performed) rest
    refine ⟨made.toList ++ hs, mid, ?_, by rwa [← List.append_assoc]⟩
    simp only [Engine.replay, bind_ok_iff, pure_ok_iff]
    exact ⟨made, s₁, performed, hs, mid, before, rfl, rfl⟩

end Backed

/-- Whenever the action succeeds, what it has added to the log are backed calls of the pass, and its
answer and the handles that are then known are as `Q` says. -/
def Act.Issues {σ α : Type} (e : Engine σ) (pass : Pass) (known : List Handle)
    (x : Act (Journal σ) α) (Q : α → List Handle → Prop) : Prop :=
  ∀ j a j', x j = (.ok a, j') → ∃ log hs, j'.calls = j.calls ++ log ∧
    e.replay log j.state = (.ok hs, j'.state) ∧ (∀ call ∈ log, call.pass? = some pass) ∧
      e.Backed known log j.state ∧ Q a (known ++ hs)

namespace Act.Issues

variable {σ α β : Type} {e : Engine σ} {schedule : Schedule} {pass : Pass} {known : List Handle}
  {Q : α → List Handle → Prop} {R : β → List Handle → Prop}

theorem pure {a : α} (holds : Q a known) :
    Act.Issues e pass known (pure a : Act (Journal σ) α) Q := by
  intro j b j' h
  obtain ⟨rfl, rfl⟩ := pure_ok_iff.mp h
  exact ⟨[], [], (List.append_nil _).symm, rfl, List.forall_mem_nil _, trivial,
    by rwa [List.append_nil]⟩

theorem bind {x : Act (Journal σ) α} {f : α → Act (Journal σ) β}
    (first : Act.Issues e pass known x Q)
    (rest : ∀ a more, Q a (known ++ more) → Act.Issues e pass (known ++ more) (f a) R) :
    Act.Issues e pass known (x >>= f) R := by
  intro j b j' h
  obtain ⟨a, mid, ran, later⟩ := bind_ok_iff.mp h
  obtain ⟨log, hs, calls, replayed, ofPass, backed, holds⟩ := first j a mid ran
  obtain ⟨more, hs', calls', replayed', ofPass', backed', holds'⟩ := rest a hs holds mid b j' later
  refine ⟨log ++ more, hs ++ hs', by rw [calls', calls, List.append_assoc],
    Engine.replay_append replayed replayed', List.forall_mem_append.mpr ⟨ofPass, ofPass'⟩,
    backed_append backed replayed backed', ?_⟩
  rwa [← List.append_assoc]

theorem mono {Q' : α → List Handle → Prop} {x : Act (Journal σ) α}
    (issues : Act.Issues e pass known x Q) (weaker : ∀ a more, Q a (known ++ more) →
      Q' a (known ++ more)) : Act.Issues e pass known x Q' := by
  intro j a j' h
  obtain ⟨log, hs, calls, replayed, ofPass, backed, holds⟩ := issues j a j' h
  exact ⟨log, hs, calls, replayed, ofPass, backed, weaker a hs holds⟩

/-- A single call of the pass that passes known handles. -/
theorem issue {call : Call} {act : Act σ α} (handle : α → Option Handle)
    (performs : e.perform call = handle <$> act) (ofPass : call.pass? = some pass)
    (uses : ∀ h ∈ call.uses, h ∈ known) :
    Act.Issues e pass known (Journal.issue schedule call act)
      (fun a known => ∀ h ∈ handle a, h ∈ known) := by
  intro j a j' h
  obtain ⟨calls, replayed⟩ := Engine.replay_issued performs h
  refine ⟨[call], _, calls, replayed, List.forall_mem_singleton.mpr ofPass,
    ⟨uses, fun _ _ _ => trivial⟩, ?_⟩
  intro h member
  rw [Option.mem_def] at member
  simp [member]

end Act.Issues

/-- The index finds known bodies only. -/
def BodyIndex.Within (index : BodyIndex) (known : List Handle) : Prop :=
  ∀ e h, index.resolve? e = some h → .body h ∈ known

/-- The groups of the tree are known. -/
inductive GroupTree.Within (known : List Handle) : GroupTree → Prop where
  | node {group nested} (own : .group group ∈ known) (inside : ∀ t ∈ nested, Within known t) :
    Within known (.node group nested)

section Within

variable {known : List Handle}

theorem within_empty : BodyIndex.empty.Within known := by
  intro e h found
  cases e <;> cases found

theorem BodyIndex.Within.more {index : BodyIndex} (within : index.Within known)
    (more : List Handle) : index.Within (known ++ more) :=
  fun e h found => List.mem_append_left more (within e h found)

theorem GroupTree.Within.more {tree : GroupTree} (within : tree.Within known)
    (more : List Handle) : tree.Within (known ++ more) := by
  induction within with
  | node own _ ih => exact .node (List.mem_append_left more own) ih

/-- A known body may be entered. -/
theorem BodyIndex.Within.insert {index : BodyIndex} (within : index.Within known)
    (b : Body Value) {handle : BodyHandle} (made : .body handle ∈ known) :
    (index.insert b handle).Within known := by
  intro e h found
  cases e with
  | id n =>
    rw [resolve?, ofId?_insert] at found
    split at found
    · cases found
      exact made
    · exact within (.id n) h found
  | label name =>
    rw [resolve?, ofLabel?_insert, Option.or_eq_some_iff] at found
    rcases found with old | ⟨_, new⟩
    · exact within (.label name) h old
    · obtain ⟨_, same⟩ := Option.ite_none_right_eq_some.mp new
      cases same
      exact made

end Within

section Build

variable {σ : Type} {e : Engine σ} {schedule : Schedule} {options : BuildOptions}
  {known : List Handle}

theorem buildBodies_issues {group : GroupHandle} (bodies : List (Body Value)) {index : BodyIndex}
    (own : .group group ∈ known) (within : index.Within known) :
    Act.Issues e .bodies known ((e.scheduled schedule).buildBodies options group bodies index)
      BodyIndex.Within := by
  induction bodies generalizing known index with
  | nil => exact .pure within
  | cons b bodies ih =>
    apply (Act.Issues.issue (some ∘ .body) rfl rfl (List.forall_mem_nil _)).bind
    intro handle more made
    have held : Handle.body handle ∈ known ++ more := made _ rfl
    have own' := List.mem_append_left more own
    have uses : ∀ h ∈ (Call.addBody group handle).uses, h ∈ known ++ more :=
      List.forall_mem_cons.mpr ⟨own', List.forall_mem_singleton.mpr held⟩
    apply (Act.Issues.issue (fun _ => none) rfl rfl uses).bind
    intro _ others _
    exact ih (List.mem_append_left others own')
      (((within.more more).insert b held).more others)

theorem place_issues {group : GroupHandle} (t : Transform) (own : .group group ∈ known) :
    Act.Issues e .bodies known ((e.scheduled schedule).place group t) (fun _ _ => True) := by
  unfold Engine.place
  cases t.isIdentity with
  | true => exact .pure trivial
  | false =>
    apply (Act.Issues.issue (fun _ => none) rfl rfl (by simp [Call.uses, own])).bind
    intro _ more _
    apply (Act.Issues.issue (fun _ => none) rfl rfl (by simp [Call.uses, own])).bind
    intro _ more' _
    exact (Act.Issues.issue (fun _ => none) rfl rfl (by simp [Call.uses, own])).mono
      fun _ _ _ => trivial

/-- The first pass answers an index and a tree of groups that are known. -/
theorem buildGroup_issues :
    (∀ (c : Composite Value) group known index, .group group ∈ known → index.Within known →
      Act.Issues e .bodies known ((e.scheduled schedule).buildGroup options c group index)
        (fun made known => made.1.Within known ∧ made.2.Within known)) ∧
    ∀ (cs : List (Composite Value)) parent known index, .group parent ∈ known →
      index.Within known →
      Act.Issues e .bodies known ((e.scheduled schedule).buildGroups options cs parent index)
        (fun made known => made.1.Within known ∧ ∀ t ∈ made.2, t.Within known) := by
  apply nesting_induction
  · intro c inside group known index own within
    cases c
    rw [Engine.buildGroup]
    apply (buildBodies_issues _ own within).bind
    intro index more within
    have own' := List.mem_append_left more own
    apply (inside group _ index own' within).bind
    intro made others holds
    exact .pure ⟨holds.1, .node (List.mem_append_left others own') holds.2⟩
  · intro parent known index _ within
    exact .pure ⟨within, List.forall_mem_nil _⟩
  · intro c cs first rest parent known index own within
    rw [Engine.buildGroups]
    apply (Act.Issues.issue (some ∘ .group) rfl rfl (List.forall_mem_nil _)).bind
    intro group k₁ made
    have child : Handle.group group ∈ known ++ k₁ := made _ rfl
    apply (first group _ index child (within.more k₁)).bind
    intro made k₂ holds
    have child := List.mem_append_left k₂ child
    apply (place_issues c.transform child).bind
    intro _ k₃ _
    have own : .group parent ∈ known ++ k₁ ++ k₂ ++ k₃ := by simp [own]
    have uses : ∀ h ∈ (Call.addGroup parent group).uses, h ∈ known ++ k₁ ++ k₂ ++ k₃ :=
      List.forall_mem_cons.mpr
        ⟨own, List.forall_mem_singleton.mpr (List.mem_append_left k₃ child)⟩
    apply (Act.Issues.issue (fun _ => none) rfl rfl uses).bind
    intro _ k₄ _
    have within := (holds.1.more k₃).more k₄
    apply (rest parent _ made.1 (List.mem_append_left k₄ own) within).bind
    intro later k₅ others
    have tree := ((holds.2.more k₃).more k₄).more k₅
    exact .pure ⟨others.1, List.forall_mem_cons.mpr ⟨tree, others.2⟩⟩

theorem skip_issues (index : BodyIndex) (c : Constraint Value) :
    Act.Issues e .constraints known (Engine.skip options index c) (fun _ _ => True) := by
  unfold Engine.skip
  cases options.endpointPolicy with
  | lenient => exact .pure trivial
  | strict =>
    intro j a j' h
    exact (throw_ok_iff.mp h).elim

theorem buildConstraints_issues {index : BodyIndex} {group : GroupHandle}
    (constraints : List (Constraint Value)) (own : .group group ∈ known)
    (within : index.Within known) :
    Act.Issues e .constraints known
      ((e.scheduled schedule).buildConstraints options index group constraints)
      (fun _ _ => True) := by
  induction constraints generalizing known with
  | nil => exact .pure trivial
  | cons c constraints ih =>
    cases joins : c.joins index.resolve? with
    | true =>
      obtain ⟨first, second, source, target⟩ := joins_iff.mp joins
      have ends : ∀ h ∈ (Call.createConstraint (.ofConstraint c first second)).uses,
          h ∈ known := by
        simp only [Call.uses, ofConstraint_ends c first second]
        exact List.forall_mem_cons.mpr
          ⟨within _ _ source, List.forall_mem_singleton.mpr (within _ _ target)⟩
      simp only [Engine.buildConstraints, source, target]
      apply (Act.Issues.issue (some ∘ .constraint) rfl rfl ends).bind
      intro handle more made
      have held : Handle.constraint handle ∈ known ++ more := made _ rfl
      have own' := List.mem_append_left more own
      have uses : ∀ h ∈ (Call.addConstraint group handle).uses, h ∈ known ++ more :=
        List.forall_mem_cons.mpr ⟨own', List.forall_mem_singleton.mpr held⟩
      apply (Act.Issues.issue (fun _ => none) rfl rfl uses).bind
      intro _ others _
      exact ih (List.mem_append_left others own') ((within.more more).more others)
    | false =>
      rw [buildConstraints_apart _ group constraints joins]
      apply (skip_issues index c).bind
      intro _ more _
      exact ih (List.mem_append_left more own) (within.more more)

theorem connect_issues {index : BodyIndex} :
    (∀ (c : Composite Value) tree known, tree.Within known → index.Within known →
      Act.Issues e .constraints known ((e.scheduled schedule).connect options index c tree)
        (fun _ _ => True)) ∧
    ∀ (cs : List (Composite Value)) trees known, (∀ t ∈ trees, t.Within known) →
      index.Within known →
      Act.Issues e .constraints known ((e.scheduled schedule).connectAll options index cs trees)
        (fun _ _ => True) := by
  apply nesting_induction
  · intro c inside tree known groups within
    cases c
    cases groups with
    | node own nested =>
      rw [Engine.connect]
      apply (buildConstraints_issues _ own within).bind
      intro _ more _
      exact inside _ _ (fun t member => (nested t member).more more) (within.more more)
  · intro trees known _ _
    rw [Engine.connectAll]
    · exact .pure trivial
    all_goals simp
  · intro c cs first rest trees known groups within
    cases trees with
    | nil =>
      rw [Engine.connectAll]
      · exact .pure trivial
      all_goals simp
    | cons tree trees =>
      obtain ⟨head, tail⟩ := List.forall_mem_cons.mp groups
      rw [Engine.connectAll]
      apply (first tree known head within).bind
      intro _ more _
      exact rest trees _ (fun t member => (tail t member).more more) (within.more more)

/-- The log of a build that succeeds: first the calls of the one pass, then those of the other, and
each passes the root or handles that calls before it have been answered with. -/
theorem build_calls {scene : Scene} {s s' : σ} {index : BodyIndex} {log : List Call}
    (built : (e.scheduled schedule).build options scene ⟨s, []⟩ = (.ok index, ⟨s', log⟩)) :
    (∃ front back, log = front ++ back ∧ (∀ call ∈ front, call.pass? = some .bodies) ∧
      ∀ call ∈ back, call.pass? = some .constraints) ∧
    ∀ front call back, log = front ++ call :: back → ∀ h ∈ call.uses,
      ∃ hs mid, e.replay front s = (.ok hs, mid) ∧ (h = .group e.root ∨ h ∈ hs) := by
  simp only [Engine.build, bind_ok_iff, pure_ok_iff, Prod.exists] at built
  obtain ⟨index', tree, mid, first, _, _, second, rfl, rfl⟩ := built
  have root : Handle.group e.root ∈ [Handle.group e.root] := List.mem_singleton_self _
  obtain ⟨front, hs, calls, replayed, ofPass, backed, within, groups⟩ :=
    buildGroup_issues.1 scene.root e.root _ .empty root within_empty _ _ _ first
  obtain ⟨back, hs', calls', replayed', ofPass', backed', _⟩ :=
    connect_issues.1 scene.root tree _ groups within _ _ _ second
  rw [List.nil_append] at calls
  have whole : log = front ++ back := by rw [← calls]; exact calls'
  refine ⟨⟨front, back, whole, ofPass, ofPass'⟩, ?_⟩
  intro before call after split h used
  have backed := backed_append backed replayed backed'
  have replayed := Engine.replay_append replayed replayed'
  rw [← whole, split] at backed replayed
  obtain ⟨known, reached, replayed, member⟩ := Backed.split backed replayed used
  refine ⟨known, reached, replayed, ?_⟩
  simpa using member

end Build

end RigidScene
