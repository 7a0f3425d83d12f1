import Mathlib.Data.List.Basic
import RigidScene.Proofs.Build.Validation
import RigidScene.Proofs.World.Schedule

/-!
How building can end, whatever the engine.

`Act.Ends` is the judgement: what an action answers satisfies one predicate, and what it fails with
another.  An engine with `OwnErrors` never fails with an unresolved endpoint itself.  For such an
engine `build_ends` says how the build of a scene can end: with a place for every constraint that
must be made, or with an error of the engine, or with the report of an end that no body of the scene
is meant by.
-/

namespace RigidScene

open Outcome Composite

/-- What the action answers satisfies `Q`, and what it fails with satisfies `E`. -/
structure Act.Ends {σ α : Type} (x : Act σ α) (Q : α → Prop) (E : BuildError → Prop) : Prop where
  answers : ∀ s a s', x s = (.ok a, s') → Q a
  fails : ∀ s e s', x s = (.error e, s') → E e

namespace Act.Ends

variable {σ α β : Type} {x : Act σ α} {f : α → Act σ β} {P Q : α → Prop} {R : β → Prop}
  {E F : BuildError → Prop}

theorem pure {a : α} (holds : Q a) : Ends (pure a : Act σ α) Q E where
  answers s b s' h := by
    obtain ⟨rfl, _⟩ := pure_ok_iff.mp h
    exact holds
  fails s e s' h := by cases h

theorem throw {e : BuildError} (holds : E e) : Ends (throw e : Act σ α) Q E where
  answers s a s' h := (throw_ok_iff.mp h).elim
  fails s e' s' h := by
    cases h
    exact holds

theorem bind (first : Ends x P E) (rest : ∀ a, P a → Ends (f a) R E) : Ends (x >>= f) R E where
  answers s b s' h := by
    obtain ⟨a, mid, ran, later⟩ := bind_ok_iff.mp h
    exact (rest a (first.answers s a mid ran)).answers mid b s' later
  fails s e s' h := by
    rcases bind_error_iff.mp h with failed | ⟨a, mid, ran, later⟩
    · exact first.fails s e s' failed
    · exact (rest a (first.answers s a mid ran)).fails mid e s' later

theorem mono (ends : Ends x P E) (answer : ∀ a, P a → Q a) (error : ∀ e, E e → F e) :
    Ends x Q F where
  answers s a s' h := answer a (ends.answers s a s' h)
  fails s e s' h := error e (ends.fails s e s' h)

/-- An action that cannot fail. -/
theorem of_total (total : ∀ s, ∃ a s', x s = (.ok a, s')) : Ends x (fun _ => True) E where
  answers _ _ _ _ := trivial
  fails s e s' h := by
    obtain ⟨a, mid, ran⟩ := total s
    rw [ran] at h
    cases h

end Act.Ends

/-- The error is one of the engine itself. -/
def BuildError.Own (error : BuildError) : Prop :=
  ∃ fault, error = .engine fault

/-- The engine never reports an unresolved endpoint. -/
structure Engine.OwnErrors {σ : Type} (e : Engine σ) : Prop where
  createBody : ∀ spec, (e.createBody spec).Ends (fun _ => True) BuildError.Own
  createGroup : ∀ label, (e.createGroup label).Ends (fun _ => True) BuildError.Own
  addBody : ∀ g b, (e.addBody g b).Ends (fun _ => True) BuildError.Own
  addGroup : ∀ p c, (e.addGroup p c).Ends (fun _ => True) BuildError.Own
  translateGroup : ∀ g offset, (e.translateGroup g offset).Ends (fun _ => True) BuildError.Own
  rotateGroup : ∀ g radians about,
    (e.rotateGroup g radians about).Ends (fun _ => True) BuildError.Own
  scaleGroup : ∀ g factor about, (e.scaleGroup g factor about).Ends (fun _ => True) BuildError.Own
  createConstraint : ∀ spec, (e.createConstraint spec).Ends (fun _ => True) BuildError.Own
  addConstraint : ∀ g c, (e.addConstraint g c).Ends (fun _ => True) BuildError.Own

namespace BodyIndex

variable {V : Type}

/-- The index knows the ends that the bodies are meant by, and no others. -/
def Covers (index : BodyIndex) (bodies : List (Body V)) : Prop :=
  ∀ e, (index.resolve? e).isSome = (e.locate? bodies).isSome

theorem covers_empty : empty.Covers ([] : List (Body V)) := by
  intro e
  cases e <;> rfl

theorem Covers.insert {index : BodyIndex} {bodies : List (Body V)} (covers : index.Covers bodies)
    (b : Body V) (handle : BodyHandle) : (index.insert b handle).Covers (bodies ++ [b]) := by
  intro e
  have before := covers e
  rw [locate?_isSome] at before ⊢
  cases e with
  | id n =>
    have entered := ofId?_insert index b handle n
    by_cases same : b.id = n
    · simp [resolve?, entered, same]
    · simpa [resolve?, entered, same] using before
  | label name =>
    have entered := ofLabel?_insert index b handle name
    by_cases same : b.label = some name
    · simp [resolve?, entered, same]
    · simpa [resolve?, entered, same] using before

theorem Covers.none_iff {index : BodyIndex} {bodies : List (Body V)} (covers : index.Covers bodies)
    {e : Endpoint} : index.resolve? e = none ↔ e.locate? bodies = none := by
  rw [← Option.not_isSome_iff_eq_none, ← Option.not_isSome_iff_eq_none, covers e]

theorem Covers.joins_eq {index : BodyIndex} {bodies : List (Body V)} (covers : index.Covers bodies)
    (c : Constraint V) : c.joins index.resolve? = c.joins (Endpoint.locate? bodies) := by
  rw [Constraint.joins, Constraint.joins, covers, covers]

end BodyIndex

/-- A tree of groups has one branch for each composite in a composite, and so on inside them. -/
inductive GroupTree.Mirrors {V : Type} : GroupTree → Composite V → Prop where
  | node {group nested c} (inside : List.Forall₂ Mirrors nested c.composites) :
    Mirrors (.node group nested) c

/-- The error reports an end of one of the constraints that means no body, where that is
forbidden. -/
def BuildError.Reports {V : Type} (options : BuildOptions) (locate : Endpoint → Option BodyHandle)
    (constraints : List (Constraint V)) (error : BuildError) : Prop :=
  options.endpointPolicy = .strict ∧ ∃ c ∈ constraints, ∃ e, (e = c.source ∨ e = c.target) ∧
    locate e = none ∧ error = .unresolvedEndpoint c.id e

theorem BuildError.Reports.mono {V : Type} {options : BuildOptions}
    {locate : Endpoint → Option BodyHandle} {some all : List (Constraint V)} {error : BuildError}
    (reports : error.Reports options locate some) (part : ∀ c ∈ some, c ∈ all) :
    error.Reports options locate all := by
  obtain ⟨strict, c, member, found⟩ := reports
  exact ⟨strict, c, part c member, found⟩

section Build

variable {σ : Type} {e : Engine σ} {options : BuildOptions}

theorem buildBodies_ends (own : e.OwnErrors) (group : GroupHandle) (bodies : List (Body Value))
    {old : List (Body Value)} {index : BodyIndex} (covers : index.Covers old) :
    (e.buildBodies options group bodies index).Ends (fun index => index.Covers (old ++ bodies))
      BuildError.Own := by
  induction bodies generalizing old index with
  | nil => exact .pure (by rwa [List.append_nil])
  | cons b bodies ih =>
    apply (own.createBody _).bind
    intro handle _
    apply (own.addBody group handle).bind
    intro _ _
    rw [List.append_cons]
    exact ih (covers.insert b handle)

theorem place_ends (own : e.OwnErrors) (group : GroupHandle) (t : Transform) :
    (e.place group t).Ends (fun _ => True) BuildError.Own := by
  unfold Engine.place
  cases t.isIdentity with
  | true => exact .pure trivial
  | false =>
    apply (own.translateGroup group _).bind
    intro _ _
    apply (own.rotateGroup group _ _).bind
    intro _ _
    exact own.scaleGroup group _ _

/-- The first pass enters all bodies into the index and fails with errors of the engine only. -/
theorem buildGroup_ends (own : e.OwnErrors) :
    (∀ (c : Composite Value) group old index, index.Covers old →
      (e.buildGroup options c group index).Ends
        (fun made => made.1.Covers (old ++ c.walk) ∧ made.2.Mirrors c) BuildError.Own) ∧
    ∀ (cs : List (Composite Value)) parent old index, index.Covers old →
      (e.buildGroups options cs parent index).Ends
        (fun made => made.1.Covers (old ++ walkAll cs) ∧ List.Forall₂ GroupTree.Mirrors made.2 cs)
        BuildError.Own := by
  apply nesting_induction
  · intro c inside group old index covers
    cases c
    rw [Engine.buildGroup]
    apply (buildBodies_ends own group _ covers).bind
    intro index covers
    apply (inside group _ index covers).bind
    intro made holds
    rw [walk, ← List.append_assoc]
    exact .pure ⟨holds.1, .node holds.2⟩
  · intro parent old index covers
    rw [walkAll, List.append_nil]
    exact .pure ⟨covers, .nil⟩
  · intro c cs first rest parent old index covers
    rw [Engine.buildGroups]
    apply (own.createGroup c.label).bind
    intro group _
    apply (first group old index covers).bind
    intro made holds
    apply (place_ends own group c.transform).bind
    intro _ _
    apply (own.addGroup parent group).bind
    intro _ _
    apply (rest parent _ made.1 holds.1).bind
    intro later others
    rw [walkAll, ← List.append_assoc]
    exact .pure ⟨others.1, .cons holds.2 others.2⟩

/-- A constraint with an unknown end is left out or reported, as the options say. -/
theorem skip_ends {index : BodyIndex} {c : Constraint Value}
    (apart : c.joins index.resolve? = false) :
    (Engine.skip options index c : Act σ Unit).Ends (fun _ => options.endpointPolicy = .lenient)
      (BuildError.Reports options index.resolve? [c]) := by
  unfold Engine.skip
  cases policy : options.endpointPolicy with
  | lenient => exact .pure rfl
  | strict =>
    apply Act.Ends.throw
    refine ⟨policy, c, List.mem_singleton_self c, ?_⟩
    cases source : index.resolve? c.source with
    | none => exact ⟨c.source, .inl rfl, source, rfl⟩
    | some first =>
      refine ⟨c.target, .inr rfl, ?_, rfl⟩
      simpa [Constraint.joins, source] using apart

/-- Constraints are made or left out, unless the engine fails or an unknown end is reported. -/
theorem buildConstraints_ends (own : e.OwnErrors) (index : BodyIndex) (group : GroupHandle)
    (constraints : List (Constraint Value)) :
    (e.buildConstraints options index group constraints).Ends
      (fun _ => ∀ c ∈ constraints, Passes options index.resolve? c)
      (fun error => error.Own ∨ error.Reports options index.resolve? constraints) := by
  induction constraints with
  | nil => exact .pure (List.forall_mem_nil _)
  | cons c constraints ih =>
    have later (passes : Passes options index.resolve? c) :
        (e.buildConstraints options index group constraints).Ends
          (fun _ => ∀ d ∈ c :: constraints, Passes options index.resolve? d)
          (fun error => error.Own ∨ error.Reports options index.resolve? (c :: constraints)) := by
      refine ih.mono ?_ ?_
      · intro _ rest
        exact List.forall_mem_cons.mpr ⟨passes, rest⟩
      · intro error failed
        exact failed.imp_right fun reports => reports.mono fun d => List.mem_cons_of_mem c
    cases joins : c.joins index.resolve? with
    | true =>
      obtain ⟨first, second, source, target⟩ := joins_iff.mp joins
      simp only [Engine.buildConstraints, source, target]
      apply ((own.createConstraint _).mono (fun _ _ => trivial) fun _ => .inl).bind
      intro handle _
      apply ((own.addConstraint group handle).mono (fun _ _ => trivial) fun _ => .inl).bind
      intro _ _
      exact later (.inl joins)
    | false =>
      rw [buildConstraints_apart e group constraints joins]
      have skipped : (Engine.skip options index c : Act σ Unit).Ends
          (fun _ => options.endpointPolicy = .lenient)
          (fun error => error.Own ∨ error.Reports options index.resolve? (c :: constraints)) := by
        refine (skip_ends joins).mono (fun _ => id) ?_
        intro error reports
        exact .inr (reports.mono (by simp))
      apply skipped.bind
      intro _ lenient
      exact later (.inr lenient)

/-- The second pass comes to all constraints, unless the engine fails or an unknown end is
reported. -/
theorem connect_ends (own : e.OwnErrors) (index : BodyIndex) :
    (∀ (c : Composite Value) tree, tree.Mirrors c →
      (e.connect options index c tree).Ends
        (fun _ => ∀ d ∈ c.edges, Passes options index.resolve? d)
        (fun error => error.Own ∨ error.Reports options index.resolve? c.edges)) ∧
    ∀ (cs : List (Composite Value)) trees, List.Forall₂ GroupTree.Mirrors trees cs →
      (e.connectAll options index cs trees).Ends
        (fun _ => ∀ d ∈ edgesAll cs, Passes options index.resolve? d)
        (fun error => error.Own ∨ error.Reports options index.resolve? (edgesAll cs)) := by
  have joined {first second : List (Constraint Value)} {x : Act σ Unit} {y : Act σ Unit}
      (one : x.Ends (fun _ => ∀ d ∈ first, Passes options index.resolve? d)
        (fun error => error.Own ∨ error.Reports options index.resolve? first))
      (two : y.Ends (fun _ => ∀ d ∈ second, Passes options index.resolve? d)
        (fun error => error.Own ∨ error.Reports options index.resolve? second)) :
      (x >>= fun _ => y).Ends (fun _ => ∀ d ∈ first ++ second, Passes options index.resolve? d)
        (fun error => error.Own ∨ error.Reports options index.resolve? (first ++ second)) := by
    apply (one.mono (fun _ => id) fun error failed => failed.imp_right
      fun reports => reports.mono fun d => List.mem_append_left second).bind
    intro _ passed
    refine two.mono ?_ ?_
    · intro _ rest
      exact List.forall_mem_append.mpr ⟨passed, rest⟩
    · intro error failed
      exact failed.imp_right fun reports => reports.mono fun d => List.mem_append_right first
  apply nesting_induction
  · intro c inside tree mirrors
    cases c
    cases mirrors with
    | node nested =>
      rw [Engine.connect, edges]
      exact joined (buildConstraints_ends own index _ _) (inside _ nested)
  · intro trees mirrors
    cases mirrors
    rw [Engine.connectAll]
    · exact .pure (List.forall_mem_nil _)
    all_goals simp
  · intro c cs first rest trees mirrors
    cases mirrors with
    | cons head tail =>
      rw [Engine.connectAll, edgesAll]
      exact joined (first _ head) (rest _ tail)

/-- The build of a scene ends with all its constraints passed, with an error of the engine, or with
the report of an end that means no body of the scene. -/
theorem build_ends (own : e.OwnErrors) (scene : Scene) :
    (e.build options scene).Ends (fun _ => ∀ c ∈ scene.root.edges, Passes options scene.locate? c)
      (fun error => error.Own ∨ error.Reports options scene.locate? scene.root.edges) := by
  unfold Engine.build
  apply (((buildGroup_ends own).1 scene.root e.root [] .empty BodyIndex.covers_empty).mono
    (fun _ => id) fun _ => .inl).bind
  intro made holds
  have covers : made.1.Covers scene.root.walk := holds.1
  apply (((connect_ends own made.1).1 scene.root made.2 holds.2).mono ?_ ?_).bind
  · intro _ passed
    exact .pure passed
  · intro _ passed c member
    have found : c.joins made.1.resolve? = c.joins scene.locate? := covers.joins_eq c
    rw [Passes, ← found]
    exact passed c member
  · intro error failed
    refine failed.imp_right ?_
    rintro ⟨strict, c, member, e, side, unknown, rfl⟩
    exact ⟨strict, c, member, e, side, covers.none_iff.mp unknown, rfl⟩

end Build

end RigidScene
