import RigidScene.Proofs.Eval.LabelKeeping

/-!
How blocks grow.

The block of a later moment is the block of an earlier one, up to labels, with entities behind it
that have been numbered in between.  `Grown` says this of one list and `Moment.Grows` of all that a
block holds; `Derived.grows` is the result: whatever a run does lets the block grow.
-/

namespace RigidScene

/-- The body as if it had no label. -/
def Body.bare {V : Type} (b : Body V) : Body V :=
  { b with label := none }

/-- The composite as if it had no label; what is in it keeps its labels. -/
def Composite.bare {V : Type} (c : Composite V) : Composite V :=
  { c with label := none }

section Grown

variable {α : Type} {bare : α → α} {number : α → EntityId} {lower middle upper : Nat}
  {old between new : List α}

/-- The second list begins with the first one, up to `bare`, and what comes behind has numbers given
out between the counts. -/
def Grown (bare : α → α) (number : α → EntityId) (lower upper : Nat) (old new : List α) : Prop :=
  ∃ kept more, new = kept ++ more ∧ kept.map bare = old.map bare ∧
    ∀ a ∈ more, ∃ k, lower ≤ k ∧ k < upper ∧ number a = .ofCount k

theorem Grown.of_bare (same : new.map bare = old.map bare) :
    Grown bare number lower upper old new :=
  ⟨new, [], (List.append_nil new).symm, same, List.forall_mem_nil _⟩

theorem Grown.of_new {a : α} {k : Nat} (from_ : lower ≤ k) (to_ : k < upper)
    (own : number a = .ofCount k) : Grown bare number lower upper old (old ++ [a]) :=
  ⟨old, [a], rfl, rfl, List.forall_mem_singleton.mpr ⟨k, from_, to_, own⟩⟩

theorem Grown.trans (same_number : ∀ a, number (bare a) = number a) (start : lower ≤ middle)
    (stop : middle ≤ upper) (one : Grown bare number lower middle old between)
    (two : Grown bare number middle upper between new) :
    Grown bare number lower upper old new := by
  obtain ⟨kept₁, more₁, rfl, same₁, counted₁⟩ := one
  obtain ⟨kept₂, more₂, rfl, same₂, counted₂⟩ := two
  rw [List.map_append, List.map_eq_append_iff] at same₂
  obtain ⟨kept, more, rfl, same, renamed⟩ := same₂
  refine ⟨kept, more ++ more₂, by rw [List.append_assoc], same.trans same₁, ?_⟩
  intro a member
  rcases List.mem_append.mp member with earlier | later
  · have image : bare a ∈ more₁.map bare := renamed ▸ List.mem_map_of_mem earlier
    obtain ⟨b, held, equal⟩ := List.mem_map.mp image
    obtain ⟨k, from_, to_, own⟩ := counted₁ b held
    refine ⟨k, from_, Nat.lt_of_lt_of_le to_ stop, ?_⟩
    rw [← same_number, ← equal, same_number, own]
  · obtain ⟨k, from_, to_, own⟩ := counted₂ a later
    exact ⟨k, Nat.le_trans start from_, to_, own⟩

theorem Grown.mem (grown : Grown bare number lower upper old new) {a : α} (member : a ∈ new) :
    (∃ b ∈ old, bare b = bare a) ∨ ∃ k, lower ≤ k ∧ k < upper ∧ number a = .ofCount k := by
  obtain ⟨kept, more, rfl, same, counted⟩ := grown
  rcases List.mem_append.mp member with earlier | later
  · have image : bare a ∈ old.map bare := same ▸ List.mem_map_of_mem earlier
    exact .inl (List.mem_map.mp image)
  · exact .inr (counted a later)

end Grown

section Naming

variable {env env' : Environment} {policy : LabelPolicy} {name : String}

/-- Naming changes labels and nothing else. -/
theorem relabel_bare {id : EntityId} {found : Option Value}
    (h : env.relabel policy id name = .ok (env', found)) :
    env'.bodies.map Body.bare = env.bodies.map Body.bare ∧
      env'.constraints = env.constraints ∧
        env'.composites.map Composite.bare = env.composites.map Composite.bare := by
  obtain ⟨front, b, back, whole, _, _, _, rfl⟩ | ⟨_, front, c, back, whole, _, _, _, rfl⟩ |
    ⟨_, _, _, rfl⟩ := relabel_cases h
  · simp [whole, Body.bare]
  · simp [whole, Composite.bare]
  · exact ⟨rfl, rfl, rfl⟩

theorem declare_bare {v v' : Value} (h : env.declare policy name v = .ok (env', v')) :
    env'.bodies.map Body.bare = env.bodies.map Body.bare ∧
      env'.constraints = env.constraints ∧
        env'.composites.map Composite.bare = env.composites.map Composite.bare := by
  obtain ⟨_, _, rfl⟩ | ⟨_, _, _, _, relabelled, _, rfl⟩ := declare_cases h
  · exact ⟨rfl, rfl, rfl⟩
  · have same := relabel_bare relabelled
    exact same

end Naming

namespace Moment

variable {m m' m'' : Moment}

/-- The second moment comes later: what its block holds has grown, and the counts are those in
between. -/
structure Grows (m m' : Moment) : Prop where
  counts : m.run.nextId ≤ m'.run.nextId
  bodies : Grown Body.bare Body.id m.run.nextId m'.run.nextId m.env.bodies m'.env.bodies
  constraints : Grown (fun c => c) Constraint.id m.run.nextId m'.run.nextId m.env.constraints
    m'.env.constraints
  composites : Grown Composite.bare Composite.id m.run.nextId m'.run.nextId m.env.composites
    m'.env.composites

namespace Grows

theorem of_bare (counts : m.run.nextId ≤ m'.run.nextId)
    (same : m'.env.bodies.map Body.bare = m.env.bodies.map Body.bare ∧
      m'.env.constraints = m.env.constraints ∧
        m'.env.composites.map Composite.bare = m.env.composites.map Composite.bare) :
    m.Grows m' :=
  ⟨counts, .of_bare same.1, .of_bare (congrArg _ same.2.1), .of_bare same.2.2⟩

theorem of_same (counts : m.run.nextId ≤ m'.run.nextId)
    (same : m'.env.SameEntities m.env) : m.Grows m' :=
  .of_bare counts ⟨congrArg _ same.1, same.2.1, congrArg _ same.2.2⟩

theorem refl (m : Moment) : m.Grows m :=
  .of_bare (Nat.le_refl _) ⟨rfl, rfl, rfl⟩

theorem trans (one : m.Grows m') (two : m'.Grows m'') : m.Grows m'' where
  counts := Nat.le_trans one.counts two.counts
  bodies := one.bodies.trans (fun _ => rfl) one.counts two.counts two.bodies
  constraints := one.constraints.trans (fun _ => rfl) one.counts two.counts two.constraints
  composites := one.composites.trans (fun _ => rfl) one.counts two.counts two.composites

theorem withBody (m : Moment) (shape : Shape) (params props : NameMap Value) :
    m.Grows (m.withBody (m.newBody shape params props)) where
  counts := Nat.le_succ _
  bodies := .of_new (Nat.le_refl _) (Nat.lt_succ_self _) rfl
  constraints := .of_bare rfl
  composites := .of_bare rfl

theorem withConstraint (m : Moment) (source : Endpoint) (kind : EdgeKind) (target : Endpoint)
    (attrs : NameMap Value) :
    m.Grows (m.withConstraint (m.newConstraint source kind target attrs)) where
  counts := Nat.le_succ _
  bodies := .of_bare rfl
  constraints := .of_new (Nat.le_refl _) (Nat.lt_succ_self _) rfl
  composites := .of_bare rfl

theorem withComposite (counts : m.run.nextId ≤ m'.run.nextId) (transform : Transform)
    (props : NameMap Value) : m.Grows (m.withComposite m' (m'.closed transform props)) where
  counts := Nat.le_trans counts (Nat.le_succ _)
  bodies := .of_bare rfl
  constraints := .of_bare rfl
  composites := .of_new counts (Nat.lt_succ_self _) rfl

theorem returned {env : Environment} (same : env.SameEntities m.env)
    (inside : Grows { m with env } m') : m.Grows (m.returned m') := by
  have entered : m.Grows { m with env } := .of_same (Nat.le_refl _) same
  have left : m'.Grows (m.returned m') :=
    .of_same (Nat.le_refl _) (withEntitiesOf_sameEntities _ _)
  exact (entered.trans inside).trans left

end Grows

theorem grows_carried (settings : Settings) : Carried settings (fun _ _ => True) Grows where
  inherited _ _ := trivial
  refl := .refl
  trans := .trans
  serialled _ := .of_same (Nat.le_refl _) (.refl _)
  halted _ := .of_same (Nat.le_refl _) (.refl _)
  body m shape params props _ _ := .withBody m shape params props
  constraint := .withConstraint
  scope {m m'} transform props inside :=
    have counts : m.run.nextId ≤ m'.run.nextId := inside.counts
    .withComposite counts transform props
  label _ _ declared before := before.trans (.of_bare (Nat.le_refl _) (declare_bare declared))
  returned := .returned

end Moment

/-- Whatever a run does lets the block grow. -/
theorem Derived.grows {settings : Settings} {job : Job} {m m' : Moment} {vs : List Value}
    (derived : Derived settings job m vs m') : m.Grows m' :=
  derived.carried (Moment.grows_carried settings) trivial

/-- A run counts on until a part of a job begins. -/
theorem Spawns.counts {settings : Settings} {job job' : Job} {m m' : Moment}
    (spawned : Spawns settings job m job' m') : m.run.nextId ≤ m'.run.nextId :=
  spawned.keeps (P := fun later => m.run.nextId ≤ later.run.nextId)
    (fun derived before => Nat.le_trans before derived.grows.counts) id (fun _ before => before)
    (Nat.le_refl _)

theorem Visits.counts {settings : Settings} {job job' : Job} {m m' : Moment}
    (visited : Visits settings job m job' m') : m.run.nextId ≤ m'.run.nextId := by
  induction visited with
  | here => exact Nat.le_refl _
  | part _ spawned ih => exact Nat.le_trans ih spawned.counts

end RigidScene
