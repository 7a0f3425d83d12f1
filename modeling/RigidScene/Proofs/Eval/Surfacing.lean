import RigidScene.Proofs.Eval.Visits
import RigidScene.Proofs.Nesting

/-!
What a block holds at any depth.

Entities never leave a block.  An inner block begins with nothing, but what it holds comes to the
block around it when it ends.  `Moment.Surfaces` says this of two moments, and `Derived.surfaces` is
the result: a job that succeeds keeps all bodies and constraints.
-/

namespace RigidScene

open Composite

namespace Environment

/-- The bodies of a block, those in its composites after its own. -/
def walk (env : Environment) : List (Body Value) :=
  env.bodies ++ walkAll env.composites

/-- The constraints of a block, those in its composites after its own. -/
def edges (env : Environment) : List (Constraint Value) :=
  env.constraints ++ edgesAll env.composites

/-- The composite of a block has its bodies. -/
theorem toComposite_walk (env : Environment) (id : EntityId) (transform : Transform)
    (props : NameMap Value) : (env.toComposite id transform props).walk = env.walk :=
  walk_eq _

/-- And its constraints. -/
theorem toComposite_edges (env : Environment) (id : EntityId) (transform : Transform)
    (props : NameMap Value) : (env.toComposite id transform props).edges = env.edges :=
  edges_eq _

/-- A body of the block has the number. -/
def Holds (env : Environment) (n : EntityId) : Prop :=
  n ∈ env.walk.map Body.id

end Environment

section Naming

variable {env env' : Environment} {policy : LabelPolicy} {name : String}

section Unlabelled

variable {β : Type} {f : Body Value → β}
  (blind : ∀ (b : Body Value) label, f { b with label } = f b)

include blind

/-- Naming an entity changes neither the constraints nor anything of the bodies but labels. -/
theorem relabel_entities {id : EntityId} {found : Option Value}
    (h : env.relabel policy id name = .ok (env', found)) :
    env'.walk.map f = env.walk.map f ∧ env'.edges = env.edges := by
  obtain ⟨front, b, back, whole, _, _, _, rfl⟩ | ⟨_, front, c, back, whole, _, _, _, rfl⟩ |
    ⟨_, _, _, rfl⟩ := relabel_cases h
  · simp [Environment.walk, Environment.edges, whole, blind]
  · have walk : ({ c with label := some name } : Composite Value).walk = c.walk := by
      rw [walk_eq, walk_eq]
    have edges : ({ c with label := some name } : Composite Value).edges = c.edges := by
      rw [edges_eq, edges_eq]
    simp [Environment.walk, Environment.edges, whole, walkAll_append, edgesAll_append, walkAll,
      edgesAll, walk, edges]
  · exact ⟨rfl, rfl⟩

theorem declare_entities {v v' : Value} (h : env.declare policy name v = .ok (env', v')) :
    env'.walk.map f = env.walk.map f ∧ env'.edges = env.edges := by
  obtain ⟨_, _, rfl⟩ | ⟨_, _, _, _, relabelled, _, rfl⟩ := declare_cases h
  · exact ⟨rfl, rfl⟩
  · have same := relabel_entities blind relabelled
    exact same

end Unlabelled

/-- Naming changes neither which bodies nor which constraints there are. -/
theorem declare_same_ids {v v' : Value} (h : env.declare policy name v = .ok (env', v')) :
    env'.walk.map Body.id = env.walk.map Body.id ∧ env'.edges = env.edges :=
  declare_entities (fun _ _ => rfl) h

end Naming

section Blocks

variable {m m' : Moment} {n : EntityId} {transform : Transform} {props : NameMap Value}

theorem mem_walk_withBody_iff {b x : Body Value} :
    x ∈ (m.withBody b).env.walk ↔ x ∈ m.env.walk ∨ x = b := by
  simp only [Environment.walk, Moment.withBody, List.mem_append, List.mem_singleton, or_right_comm]

/-- The bodies of an inner block that has ended are bodies of the block around it. -/
theorem mem_walk_withComposite_iff {x : Body Value} :
    x ∈ (m.withComposite m' (m'.closed transform props)).env.walk ↔
      x ∈ m.env.walk ∨ x ∈ m'.env.walk := by
  have inner : (m'.closed transform props).walk = m'.env.walk := m'.env.toComposite_walk _ _ _
  simp only [Environment.walk, Moment.withComposite, walkAll_append, walkAll, inner,
    List.append_nil, List.mem_append, or_assoc]

theorem holds_withBody_iff {b : Body Value} :
    (m.withBody b).env.Holds n ↔ m.env.Holds n ∨ n = b.id := by
  simp only [Environment.Holds, List.mem_map, mem_walk_withBody_iff, or_and_right, exists_or,
    exists_eq_left, eq_comm (a := n)]

theorem holds_withComposite_iff :
    (m.withComposite m' (m'.closed transform props)).env.Holds n ↔
      m.env.Holds n ∨ m'.env.Holds n := by
  simp only [Environment.Holds, List.mem_map, mem_walk_withComposite_iff, or_and_right, exists_or]

theorem mem_edges_withConstraint_iff {c d : Constraint Value} :
    d ∈ (m.withConstraint c).env.edges ↔ d ∈ m.env.edges ∨ d = c := by
  simp only [Environment.edges, Moment.withConstraint, Environment.addConstraint, List.mem_append,
    List.mem_singleton, or_right_comm]

theorem mem_edges_withComposite_iff {d : Constraint Value} :
    d ∈ (m.withComposite m' (m'.closed transform props)).env.edges ↔
      d ∈ m.env.edges ∨ d ∈ m'.env.edges := by
  have inner : (m'.closed transform props).edges = m'.env.edges := m'.env.toComposite_edges _ _ _
  simp only [Environment.edges, Moment.withComposite, edgesAll_append, edgesAll, inner,
    List.append_nil, List.mem_append, or_assoc]

end Blocks

namespace Moment

variable {m m' m'' : Moment}

/-- The second moment comes later, and its block holds, itself or in its composites, what the block
of the first one does. -/
structure Surfaces (m m' : Moment) : Prop where
  counts : m.run.nextId ≤ m'.run.nextId
  bodies : ∀ n, m.env.Holds n → m'.env.Holds n
  edges : ∀ c ∈ m.env.edges, c ∈ m'.env.edges

namespace Surfaces

theorem refl (m : Moment) : m.Surfaces m :=
  ⟨Nat.le_refl _, fun _ => id, fun _ => id⟩

theorem trans (one : m.Surfaces m') (two : m'.Surfaces m'') : m.Surfaces m'' where
  counts := Nat.le_trans one.counts two.counts
  bodies n held := two.bodies n (one.bodies n held)
  edges c member := two.edges c (one.edges c member)

theorem of_same (counts : m.run.nextId ≤ m'.run.nextId) (same : m'.env.SameEntities m.env) :
    m.Surfaces m' := by
  obtain ⟨bodies, constraints, composites⟩ := same
  refine ⟨counts, fun n held => ?_, fun c member => ?_⟩
  · rw [Environment.Holds, Environment.walk, bodies, composites]
    exact held
  · rw [Environment.edges, constraints, composites]
    exact member

theorem withBody (m : Moment) (shape : Shape) (params props : NameMap Value) :
    m.Surfaces (m.withBody (m.newBody shape params props)) :=
  ⟨Nat.le_succ _, fun _ held => holds_withBody_iff.mpr (.inl held), fun _ => id⟩

theorem withConstraint (m : Moment) (source : Endpoint) (kind : EdgeKind) (target : Endpoint)
    (attrs : NameMap Value) :
    m.Surfaces (m.withConstraint (m.newConstraint source kind target attrs)) :=
  ⟨Nat.le_succ _, fun _ => id, fun _ member => mem_edges_withConstraint_iff.mpr (.inl member)⟩

theorem withComposite (counts : m.run.nextId ≤ m'.run.nextId) (transform : Transform)
    (props : NameMap Value) : m.Surfaces (m.withComposite m' (m'.closed transform props)) :=
  ⟨Nat.le_succ_of_le counts, fun _ held => holds_withComposite_iff.mpr (.inl held),
    fun _ member => mem_edges_withComposite_iff.mpr (.inl member)⟩

/-- The end of an inner block, and the block around it. -/
theorem closed (m m' : Moment) (transform : Transform) (props : NameMap Value) :
    m'.Surfaces (m.withComposite m' (m'.closed transform props)) :=
  ⟨Nat.le_succ _, fun _ held => holds_withComposite_iff.mpr (.inr held),
    fun _ member => mem_edges_withComposite_iff.mpr (.inr member)⟩

/-- The end of a call, and what the caller goes on with. -/
theorem returned (m m' : Moment) : m'.Surfaces (m.returned m') :=
  .of_same (Nat.le_refl _) (withEntitiesOf_sameEntities _ _)

theorem declare {policy : LabelPolicy} {name : String} {v v' : Value} {env : Environment}
    (declared : m.env.declare policy name v = .ok (env, v')) : m.Surfaces { m with env } := by
  obtain ⟨bodies, edges⟩ := declare_same_ids declared
  refine ⟨Nat.le_refl _, fun n held => ?_, fun c member => ?_⟩
  · rw [Environment.Holds, bodies]
    exact held
  · rw [edges]
    exact member

end Surfaces

theorem surfaces_carried (settings : Settings) : Carried settings (fun _ _ => True) Surfaces where
  inherited _ _ := trivial
  refl := .refl
  trans := .trans
  serialled _ := .of_same (Nat.le_refl _) (.refl _)
  halted _ := .of_same (Nat.le_refl _) (.refl _)
  body m shape params props _ _ := .withBody m shape params props
  constraint := .withConstraint
  scope {m m'} transform props inside :=
    have counts : m.run.nextId ≤ m'.run.nextId := inside.counts
    .withComposite counts transform props
  label _ _ declared before := before.trans (.declare declared)
  returned {m env m'} same inside :=
    have entered : m.Surfaces { m with env } := .of_same (Nat.le_refl _) same
    (entered.trans inside).trans (.returned m m')

end Moment

/-- Whatever a run does keeps what the block holds at any depth. -/
theorem Derived.surfaces {settings : Settings} {job : Job} {m m' : Moment} {vs : List Value}
    (derived : Derived settings job m vs m') : m.Surfaces m' :=
  derived.carried (Moment.surfaces_carried settings) trivial

/-- The bodies that a block has at some moment of a run stay in it. -/
theorem Derived.holds {settings : Settings} {job : Job} {m m' : Moment} {vs : List Value}
    (derived : Derived settings job m vs m') {n : EntityId} (holds : m.env.Holds n) :
    m'.env.Holds n :=
  derived.surfaces.bodies n holds

end RigidScene
