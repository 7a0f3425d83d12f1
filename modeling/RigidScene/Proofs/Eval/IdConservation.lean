import Mathlib.Data.List.Range
import Mathlib.Data.List.Pairwise
import RigidScene.Proofs.Eval.Adequacy
import RigidScene.Proofs.Eval.Visits
import RigidScene.Proofs.Nesting
import RigidScene.Scene

/-!
A run loses no entity and counts none twice.

`Environment.Numbered first next` is the invariant of a block: the numbers of everything in it are
those from `first` up to the present count, each of them once, and every composite in it ends an
interval of its own.  A block starts with no entity at the present count, entities take the next
number as they join it, and a block that ends takes the number behind all of its own.  So a scene
holds exactly the numbers that its run has counted.
-/

namespace RigidScene

namespace Composite

variable {V : Type}

mutual

/-- The numbers of everything inside a composite, itself not counted. -/
def idsBelow : Composite V → List EntityId
  | ⟨_, _, bodies, constraints, composites, _, _⟩ =>
    bodies.map Body.id ++ constraints.map Constraint.id ++ idsOfAll composites

/-- The numbers of composites and of everything inside them. -/
def idsOfAll : List (Composite V) → List EntityId
  | [] => []
  | c :: cs => idsBelow c ++ c.id :: idsOfAll cs

end

/-- Everything that the composite holds directly is listed by increasing numbers. -/
structure InOrder (c : Composite V) : Prop where
  bodies : (c.bodies.map Body.id).Pairwise (· < ·)
  constraints : (c.constraints.map Constraint.id).Pairwise (· < ·)
  composites : (c.composites.map Composite.id).Pairwise (· < ·)

/-- What the composite holds at any depth and the composite itself have the numbers of an interval,
each once, and the composite has the last of them. -/
def Contiguous (c : Composite V) : Prop :=
  ∃ first ≤ c.id, (c.idsBelow ++ [c.id]).Perm (List.range' first (c.id + 1 - first))

theorem idsBelow_eq (c : Composite V) : c.idsBelow =
    c.bodies.map Body.id ++ c.constraints.map Constraint.id ++ idsOfAll c.composites := by
  cases c
  rw [idsBelow]

theorem idsOfAll_append (front back : List (Composite V)) :
    idsOfAll (front ++ back) = idsOfAll front ++ idsOfAll back := by
  induction front with
  | nil => rfl
  | cons c front ih => simp only [List.cons_append, idsOfAll, ih, List.append_assoc]

end Composite

open Composite

/-- The numbers of everything in a block. -/
def Environment.ids (env : Environment) : List EntityId :=
  env.bodies.map Body.id ++ env.constraints.map Constraint.id ++ idsOfAll env.composites

/-- A block that began at a count and has come to another one holds the numbers between them. -/
structure Environment.Numbered (env : Environment) (first next : Nat) : Prop where
  ids : env.ids.Perm (List.range' first (next - first))
  bodies : (env.bodies.map Body.id).Pairwise (· < ·)
  constraints : (env.constraints.map Constraint.id).Pairwise (· < ·)
  composites : (env.composites.map Composite.id).Pairwise (· < ·)
  inner : ∀ c ∈ nestedAll env.composites, c.InOrder ∧ c.Contiguous

section Ranges

variable {first next : Nat} {ids : List Nat}

/-- One more number behind an interval. -/
theorem range'_snoc (start : first ≤ next) :
    List.range' first (next + 1 - first) = List.range' first (next - first) ++ [next] := by
  rw [Nat.sub_add_comm start, List.range'_1_concat]
  congr 2
  omega

/-- The interval up to a number and the interval from there on. -/
theorem range'_join {mid : Nat} (start : first ≤ mid) (rest : mid ≤ next) :
    List.range' first (next - first) =
      List.range' first (mid - first) ++ List.range' mid (next - mid) := by
  have split := List.range'_append_1 (s := first) (m := mid - first) (n := next - mid)
  rw [Nat.add_sub_cancel' start] at split
  rw [split]
  congr 1
  omega

theorem increasing_snoc {α : Type} {id : α → Nat} {as : List α} {a : α}
    (sorted : (as.map id).Pairwise (· < ·)) (last : ∀ n ∈ as.map id, n < id a) :
    ((as ++ [a]).map id).Pairwise (· < ·) := by
  rw [List.map_append, List.pairwise_append]
  refine ⟨sorted, List.pairwise_singleton _ _, ?_⟩
  intro n member k this
  rw [List.map_singleton, List.mem_singleton] at this
  exact this ▸ last n member

end Ranges

namespace Environment.Numbered

variable {env env' : Environment} {first next : Nat}

/-- A block that has just begun. -/
theorem begin (labels : Labels) (depth : Nat) (count : Nat) :
    ({ labels, depth } : Environment).Numbered count count where
  ids := by rw [Nat.sub_self]; exact .refl []
  bodies := .nil
  constraints := .nil
  composites := .nil
  inner := by simp [nestedAll]

theorem congr (same : env.SameEntities env') (numbered : env'.Numbered first next) :
    env.Numbered first next := by
  obtain ⟨bodies, constraints, composites⟩ := same
  constructor
  · rw [Environment.ids, bodies, constraints, composites]; exact numbered.ids
  · rw [bodies]; exact numbered.bodies
  · rw [constraints]; exact numbered.constraints
  · rw [composites]; exact numbered.composites
  · rw [composites]; exact numbered.inner

/-- Every number in a block is smaller than the present count. -/
theorem id_lt (numbered : env.Numbered first next) (start : first ≤ next) {id : Nat}
    (member : id ∈ env.ids) : id < next := by
  have inside := numbered.ids.mem_iff.mp member
  rw [List.mem_range'_1] at inside
  omega

/-- The block with a new body. -/
theorem withBody (numbered : env.Numbered first next) (start : first ≤ next) {b : Body Value}
    (new : b.id = next) :
    ({ env with bodies := env.bodies ++ [b] } : Environment).Numbered first (next + 1) where
  ids := by
    rw [range'_snoc start]
    refine List.Perm.trans ?_ (numbered.ids.append_right [next])
    have behind : ([next] ++ (env.constraints.map Constraint.id ++ idsOfAll env.composites)).Perm
        (env.constraints.map Constraint.id ++ idsOfAll env.composites ++ [next]) :=
      List.perm_append_comm
    simp only [Environment.ids, List.map_append, List.map_singleton, new, List.append_assoc]
    rw [List.append_assoc] at behind
    exact behind.append_left _
  bodies := by
    apply increasing_snoc numbered.bodies
    intro n member
    rw [new]
    exact numbered.id_lt start (by simp [Environment.ids, member])
  constraints := numbered.constraints
  composites := numbered.composites
  inner := numbered.inner

/-- The block with a new constraint. -/
theorem withConstraint (numbered : env.Numbered first next) (start : first ≤ next)
    {c : Constraint Value} (new : c.id = next) :
    (env.addConstraint c).Numbered first (next + 1) where
  ids := by
    rw [range'_snoc start]
    refine List.Perm.trans ?_ (numbered.ids.append_right [next])
    simp only [Environment.ids, Environment.addConstraint, List.map_append, List.map_singleton,
      List.append_assoc, new]
    exact .append_left _ (.append_left _ List.perm_append_comm)
  bodies := numbered.bodies
  constraints := by
    apply increasing_snoc numbered.constraints
    intro n member
    rw [new]
    exact numbered.id_lt start (by simp [Environment.ids, member])
  composites := numbered.composites
  inner := numbered.inner

/-- The composite of a block has the block's entities and what holds of them. -/
theorem toComposite_inOrder (numbered : env.Numbered first next) (id : EntityId)
    (transform : Transform) (props : NameMap Value) : (env.toComposite id transform props).InOrder :=
  ⟨numbered.bodies, numbered.constraints, numbered.composites⟩

/-- The composite of a block takes the number behind all of the block's own. -/
theorem toComposite_contiguous (numbered : env.Numbered first next) (start : first ≤ next)
    (transform : Transform) (props : NameMap Value) :
    (env.toComposite next transform props).Contiguous := by
  refine ⟨first, start, ?_⟩
  have below : (env.toComposite next transform props).idsBelow = env.ids := idsBelow_eq _
  rw [below]
  show (env.ids ++ [next]).Perm (List.range' first (next + 1 - first))
  rw [range'_snoc start]
  exact numbered.ids.append_right [next]

/-- The block with an inner one that has ended. -/
theorem withComposite {mid : Nat} (numbered : env.Numbered first mid) (start : first ≤ mid)
    (inside : env'.Numbered mid next) (later : mid ≤ next) (transform : Transform)
    (props : NameMap Value) :
    ({ env with composites := env.composites ++ [env'.toComposite next transform props] } :
      Environment).Numbered first (next + 1) where
  ids := by
    have below : (env'.toComposite next transform props).idsBelow = env'.ids := idsBelow_eq _
    have whole : Environment.ids
        { env with composites := env.composites ++ [env'.toComposite next transform props] } =
          env.ids ++ env'.ids ++ [next] := by
      simp only [Environment.ids, idsOfAll_append, idsOfAll, below, List.append_assoc]
      rfl
    rw [range'_snoc (start.trans later), range'_join start later, whole]
    exact (numbered.ids.append inside.ids).append_right [next]
  bodies := numbered.bodies
  constraints := numbered.constraints
  composites := by
    apply increasing_snoc numbered.composites
    intro n member
    obtain ⟨c, held, rfl⟩ := List.mem_map.mp member
    obtain ⟨front, back, parts⟩ := List.append_of_mem held
    have counted : c.id ∈ env.ids := by
      simp [Environment.ids, parts, idsOfAll_append, idsOfAll]
    exact (numbered.id_lt start counted).trans_le later
  inner := by
    intro c member
    rw [nestedAll_append, nestedAll, nestedAll, List.append_nil, List.mem_append,
      List.mem_cons] at member
    obtain old | rfl | new := member
    · exact numbered.inner c old
    · exact ⟨inside.toComposite_inOrder _ _ _, inside.toComposite_contiguous later _ _⟩
    · rw [nested_eq] at new
      exact inside.inner c new

/-- Naming an entity moves nothing. -/
theorem relabel (numbered : env.Numbered first next) {policy : LabelPolicy} {id : EntityId}
    {name : String} {found : Option Value} (h : env.relabel policy id name = .ok (env', found)) :
    env'.Numbered first next := by
  obtain ⟨front, b, back, whole, _, _, _, rfl⟩ | ⟨_, front, c, back, whole, _, _, _, rfl⟩ |
    ⟨_, _, _, rfl⟩ := relabel_cases h
  · have same : (front ++ { b with label := some name } :: back).map Body.id =
        env.bodies.map Body.id := by
      simp only [whole, List.map_append, List.map_cons]
    exact { numbered with
      ids := by simpa only [Environment.ids, same] using numbered.ids
      bodies := same ▸ numbered.bodies }
  · have below : ({ c with label := some name } : Composite Value).idsBelow = c.idsBelow := by
      rw [idsBelow_eq, idsBelow_eq]
    have inside : ({ c with label := some name } : Composite Value).nested = c.nested := by
      rw [nested_eq, nested_eq]
    have same : (front ++ { c with label := some name } :: back).map Composite.id =
        env.composites.map Composite.id := by
      simp only [whole, List.map_append, List.map_cons]
    have all : idsOfAll (front ++ { c with label := some name } :: back) =
        idsOfAll env.composites := by
      simp only [whole, idsOfAll_append, idsOfAll, below]
    have old := numbered.inner
    simp only [whole, nestedAll_append, nestedAll, List.mem_append, List.mem_cons] at old
    exact { numbered with
      ids := by simpa only [Environment.ids, all] using numbered.ids
      composites := same ▸ numbered.composites
      inner := by
        intro d member
        simp only [nestedAll_append, nestedAll, inside, List.mem_append, List.mem_cons] at member
        obtain before | (rfl | within) | after := member
        · exact old d (.inl before)
        · obtain ⟨ordered, contiguous⟩ := old c (.inr (.inl (.inl rfl)))
          refine ⟨⟨ordered.bodies, ordered.constraints, ordered.composites⟩, ?_⟩
          rw [Contiguous, below]
          exact contiguous
        · exact old d (.inr (.inl (.inr within)))
        · exact old d (.inr (.inr after)) }
  · exact numbered

theorem declare (numbered : env.Numbered first next) {policy : LabelPolicy} {name : String}
    {v v' : Value} (h : env.declare policy name v = .ok (env', v')) :
    env'.Numbered first next := by
  obtain ⟨_, _, rfl⟩ | ⟨_, _, _, _, relabelled, _, rfl⟩ := declare_cases h
  · exact numbered.congr (define_sameEntities _ _ _)
  · exact (numbered.relabel relabelled).congr (define_sameEntities _ _ _)

end Environment.Numbered

/-- The run goes on counting, and as long as there are numbers left a block that held the numbers
from some count on still does. -/
def Moment.Counts (m m' : Moment) : Prop :=
  m.run.nextId ≤ m'.run.nextId ∧ (m'.run.nextId ≤ UInt64.size → ∀ first ≤ m.run.nextId,
    m.env.Numbered first m.run.nextId → m'.env.Numbered first m'.run.nextId)

theorem freshId_eq {m : Moment} (left : m.run.nextId + 1 ≤ UInt64.size) :
    m.freshId = m.run.nextId :=
  Nat.mod_eq_of_lt left

/-- Every change to a moment goes on counting. -/
theorem counts_carried (settings : Settings) :
    Carried settings (fun _ _ => True) Moment.Counts where
  inherited _ _ := trivial
  refl m := ⟨Nat.le_refl _, fun _ _ _ numbered => numbered⟩
  trans one two := by
    refine ⟨one.1.trans two.1, ?_⟩
    intro left first start numbered
    exact two.2 left first (start.trans one.1) (one.2 (two.1.trans left) first start numbered)
  serialled m := ⟨Nat.le_refl _, fun _ _ _ numbered => numbered⟩
  halted m := ⟨Nat.le_refl _, fun _ _ _ numbered => numbered⟩
  body m shape params props _ _ := by
    refine ⟨Nat.le_succ _, ?_⟩
    intro left first start numbered
    exact numbered.withBody start (freshId_eq left)
  constraint m source kind target attrs := by
    refine ⟨Nat.le_succ _, ?_⟩
    intro left first start numbered
    exact numbered.withConstraint start (freshId_eq left)
  scope {m m'} transform props inside := by
    refine ⟨inside.1.trans (Nat.le_succ _), ?_⟩
    intro left first start numbered
    have begun : m.opened.env.Numbered m.run.nextId m.run.nextId := .begin _ _ _
    have ended := inside.2 ((Nat.le_succ _).trans left) m.run.nextId (Nat.le_refl _) begun
    have last : m'.freshId = m'.run.nextId := freshId_eq left
    rw [Moment.closed, last]
    exact numbered.withComposite start ended inside.1 transform props
  label _ _ declared before := by
    refine ⟨before.1, ?_⟩
    intro left first start numbered
    exact (before.2 left first start numbered).declare declared
  returned same inside := by
    refine ⟨inside.1, ?_⟩
    intro left first start numbered
    have ended := inside.2 left first start (numbered.congr same)
    exact ended.congr (withEntitiesOf_sameEntities _ _)

/-- A scene holds exactly the numbers that its run has counted, each once; every composite lists
what it holds by increasing numbers, and every composite but the root ends an interval. -/
theorem ofNode_ids {settings : Settings} {program : Node} {run run' : Run} {scene : Scene}
    (evaluated : Scene.ofNode settings program run = (.ok scene, run'))
    (left : run'.nextId ≤ UInt64.size) :
    run.nextId ≤ run'.nextId ∧ scene.root.id = 0 ∧
      scene.root.idsBelow.Perm (List.range' run.nextId (run'.nextId - run.nextId)) ∧
      (∀ c ∈ scene.root :: scene.root.nested, c.InOrder) ∧
      ∀ c ∈ scene.root.nested, c.Contiguous := by
  simp only [Scene.ofNode, Scene.ofNodeIn, Outcome.bind_ok_iff, Outcome.pure_ok_iff, Prod.exists]
    at evaluated
  obtain ⟨env, v, mid, ran, rfl, rfl⟩ := evaluated
  have derived : Derived settings (.node program) ⟨.empty, run⟩ [v] ⟨env, mid⟩ :=
    derived_iff_eval.mpr ran
  obtain ⟨later, kept⟩ := derived.carried (counts_carried settings) trivial
  have numbered : env.Numbered run.nextId mid.nextId :=
    kept left run.nextId (Nat.le_refl _) (.begin _ _ _)
  refine ⟨later, rfl, ?_, ?_, ?_⟩
  · rw [idsBelow_eq]
    exact numbered.ids
  · intro c member
    rw [nested_eq, List.mem_cons] at member
    obtain rfl | inside := member
    · exact numbered.toComposite_inOrder 0 .identity ∅
    · exact (numbered.inner c inside).1
  · intro c member
    rw [nested_eq] at member
    exact (numbered.inner c member).2

/-- A function that makes a circle is called twice inside a block and once behind it. -/
def circlesInBlock : Node :=
  .composite [
    .label "f" (.function [] (.body "circle" [.number 0, .number 0, .number 5] [])),
    .scope (.composite [.call "f" [], .call "f" []]) [],
    .label "last" (.call "f" [])]

/-- The block takes the numbers 1, 2 and 3, the third of them itself. -/
theorem circlesInBlock_ids :
    ∃ scene run', Scene.ofNode {} circlesInBlock {} = (.ok scene, run') ∧ run'.nextId ≤ UInt64.size ∧
      scene.root.idsBelow.Perm [1, 2, 3, 4] ∧ ∀ c ∈ scene.root.nested, c.InOrder ∧ c.Contiguous := by
  have succeeds : (Scene.ofNode {} circlesInBlock {}).1.isOk = true := by decide +kernel
  have counts : (Scene.ofNode {} circlesInBlock {}).2.nextId = 5 := by decide +kernel
  cases ran : Scene.ofNode {} circlesInBlock {} with
  | mk answer run' =>
    rw [ran] at succeeds counts
    cases answer with
    | error e => cases succeeds
    | ok scene =>
      have left : run'.nextId ≤ UInt64.size := by rw [counts]; decide
      obtain ⟨_, _, ids, ordered, contiguous⟩ := ofNode_ids ran left
      rw [counts] at ids
      refine ⟨scene, run', rfl, left, ids, ?_⟩
      intro c member
      exact ⟨ordered c (List.mem_cons_of_mem _ member), contiguous c member⟩

end RigidScene
