import RigidScene.Build.Passes
import RigidScene.Proofs.Nesting

/-!
Building with two engines side by side.

A build does nothing to the state of its engine but by calls of the engine.  So a relation between
actions that is kept by putting actions together holds of the builds of a scene with two engines if
it holds of their methods, one by one: `build_related`.
-/

namespace RigidScene

/-- A relation between the actions on two states that holds of actions put together alike from
related ones. -/
structure Act.Congruence (σ τ : Type) where
  rel : ∀ {α : Type}, Act σ α → Act τ α → Prop
  pure : ∀ {α : Type} (a : α), rel (pure a) (pure a)
  throw : ∀ {α : Type} (e : BuildError), rel (throw e : Act σ α) (throw e)
  bind : ∀ {α β : Type} {x : Act σ α} {y : Act τ α} {f : α → Act σ β} {g : α → Act τ β},
    rel x y → (∀ a, rel (f a) (g a)) → rel (x >>= f) (y >>= g)

/-- The two engines have the same root, and each method of one is related to that of the other. -/
structure Engine.Related {σ τ : Type} (C : Act.Congruence σ τ) (e : Engine σ) (e' : Engine τ) :
    Prop where
  root : e.root = e'.root
  createBody : ∀ spec, C.rel (e.createBody spec) (e'.createBody spec)
  createGroup : ∀ label, C.rel (e.createGroup label) (e'.createGroup label)
  addBody : ∀ g b, C.rel (e.addBody g b) (e'.addBody g b)
  addGroup : ∀ p c, C.rel (e.addGroup p c) (e'.addGroup p c)
  translateGroup : ∀ g offset, C.rel (e.translateGroup g offset) (e'.translateGroup g offset)
  rotateGroup : ∀ g radians about,
    C.rel (e.rotateGroup g radians about) (e'.rotateGroup g radians about)
  scaleGroup : ∀ g factor about, C.rel (e.scaleGroup g factor about) (e'.scaleGroup g factor about)
  createConstraint : ∀ spec, C.rel (e.createConstraint spec) (e'.createConstraint spec)
  addConstraint : ∀ g c, C.rel (e.addConstraint g c) (e'.addConstraint g c)

section Related

variable {σ τ : Type} {C : Act.Congruence σ τ} {e : Engine σ} {e' : Engine τ}
  {options : BuildOptions}

theorem buildBodies_related (related : Engine.Related C e e') (group : GroupHandle)
    (bodies : List (Body Value)) (index : BodyIndex) :
    C.rel (e.buildBodies options group bodies index)
      (e'.buildBodies options group bodies index) := by
  induction bodies generalizing index with
  | nil => exact C.pure index
  | cons b bodies ih =>
    apply C.bind (related.createBody _)
    intro handle
    apply C.bind (related.addBody group handle)
    intro _
    exact ih _

theorem place_related (related : Engine.Related C e e') (group : GroupHandle) (t : Transform) :
    C.rel (e.place group t) (e'.place group t) := by
  unfold Engine.place
  cases t.isIdentity with
  | true => exact C.pure ()
  | false =>
    apply C.bind (related.translateGroup group _)
    intro _
    apply C.bind (related.rotateGroup group _ _)
    intro _
    exact related.scaleGroup group _ _

theorem buildGroup_related (related : Engine.Related C e e') :
    (∀ (c : Composite Value) group index, C.rel (e.buildGroup options c group index)
      (e'.buildGroup options c group index)) ∧
    ∀ (cs : List (Composite Value)) parent index, C.rel (e.buildGroups options cs parent index)
      (e'.buildGroups options cs parent index) := by
  apply Composite.nesting_induction
  · intro c inside group index
    cases c
    rw [Engine.buildGroup, Engine.buildGroup]
    apply C.bind (buildBodies_related related group _ index)
    intro index
    apply C.bind (inside group index)
    intro answer
    exact C.pure _
  · intro parent index
    exact C.pure _
  · intro c cs first rest parent index
    rw [Engine.buildGroups, Engine.buildGroups]
    apply C.bind (related.createGroup c.label)
    intro group
    apply C.bind (first group index)
    intro made
    apply C.bind (place_related related group c.transform)
    intro _
    apply C.bind (related.addGroup parent group)
    intro _
    apply C.bind (rest parent made.1)
    intro answer
    exact C.pure _

theorem skip_related (C : Act.Congruence σ τ) (options : BuildOptions) (index : BodyIndex)
    (c : Constraint Value) :
    C.rel (Engine.skip options index c : Act σ Unit) (Engine.skip options index c) := by
  unfold Engine.skip
  cases options.endpointPolicy with
  | lenient => exact C.pure ()
  | strict => exact C.throw _

theorem buildConstraints_related (related : Engine.Related C e e') (index : BodyIndex)
    (group : GroupHandle) (constraints : List (Constraint Value)) :
    C.rel (e.buildConstraints options index group constraints)
      (e'.buildConstraints options index group constraints) := by
  induction constraints with
  | nil => exact C.pure ()
  | cons c constraints ih =>
    have skipped := C.bind (skip_related C options index c) fun _ => ih
    rw [Engine.buildConstraints, Engine.buildConstraints]
    cases index.resolve? c.source with
    | none => exact skipped
    | some first =>
      cases index.resolve? c.target with
      | none => exact skipped
      | some second =>
        apply C.bind (related.createConstraint _)
        intro handle
        apply C.bind (related.addConstraint group handle)
        intro _
        exact ih

theorem connect_related (related : Engine.Related C e e') (index : BodyIndex) :
    (∀ (c : Composite Value) tree, C.rel (e.connect options index c tree)
      (e'.connect options index c tree)) ∧
    ∀ (cs : List (Composite Value)) trees, C.rel (e.connectAll options index cs trees)
      (e'.connectAll options index cs trees) := by
  apply Composite.nesting_induction
  · intro c inside tree
    cases c
    cases tree with
    | node group nested =>
      rw [Engine.connect, Engine.connect]
      apply C.bind (buildConstraints_related related index group _)
      intro _
      exact inside nested
  · intro trees
    rw [Engine.connectAll, Engine.connectAll]
    · exact C.pure ()
    all_goals simp
  · intro c cs first rest trees
    cases trees with
    | nil =>
      rw [Engine.connectAll, Engine.connectAll]
      · exact C.pure ()
      all_goals simp
    | cons tree trees =>
      rw [Engine.connectAll, Engine.connectAll]
      apply C.bind (first tree)
      intro _
      exact rest trees

/-- What is built with related engines is built by related actions. -/
theorem build_related (related : Engine.Related C e e') (scene : Scene) :
    C.rel (e.build options scene) (e'.build options scene) := by
  unfold Engine.build
  rw [related.root]
  apply C.bind ((buildGroup_related related).1 scene.root e'.root .empty)
  intro made
  apply C.bind ((connect_related related made.1).1 scene.root made.2)
  intro _
  exact C.pure _

end Related

end RigidScene
