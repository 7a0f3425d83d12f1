import RigidScene.Proofs.Build.FirstPass

/-!
What the second pass adds to a world, and the world that both passes leave.

Where no constraint is refused, the second pass goes through the groups of the first one in step
with the composites, and puts each constraint whose ends are known into the group of its composite.
-/

namespace RigidScene

open Outcome Composite

/-- A constraint with an unknown end is left out and does not end the pass. -/
def Passes (options : BuildOptions) (locate : Endpoint → Option BodyHandle) (c : Constraint Value) :
    Prop :=
  c.joins locate = true ∨ options.endpointPolicy = .lenient

theorem withAttr_ends (spec : ConstraintSpec) (key : String) (v : Value) :
    (spec.withAttr key v).first = spec.first ∧ (spec.withAttr key v).second = spec.second := by
  unfold ConstraintSpec.withAttr
  split <;> exact ⟨rfl, rfl⟩

/-- A constraint is made between the bodies that it is given. -/
theorem ofConstraint_ends (c : Constraint Value) (first second : BodyHandle) :
    (ConstraintSpec.ofConstraint c first second).first = first ∧
      (ConstraintSpec.ofConstraint c first second).second = second := by
  have plain : (ConstraintSpec.plain c.kind first second).first = first ∧
      (ConstraintSpec.plain c.kind first second).second = second := by
    cases c.kind <;> exact ⟨rfl, rfl⟩
  unfold ConstraintSpec.ofConstraint
  generalize ConstraintSpec.plain c.kind first second = spec at plain
  induction c.attrs.entries generalizing spec with
  | nil => exact plain
  | cons entry entries ih =>
    obtain ⟨same_first, same_second⟩ := withAttr_ends spec entry.1 entry.2
    exact ih _ ⟨same_first.trans plain.1, same_second.trans plain.2⟩

/-- What is made of constraints stands between the bodies that their ends mean. -/
theorem joints_ends (locate : Endpoint → Option BodyHandle)
    (held : List (GroupHandle × Constraint Value)) :
    (held.filterMap fun h => h.2.joint? locate h.1).map
        (fun made => (made.spec.first, made.spec.second)) =
      held.filterMap fun h => h.2.ends? locate := by
  rw [List.map_filterMap]
  apply List.filterMap_congr
  rintro ⟨group, c⟩ _
  unfold Constraint.joint? Constraint.ends?
  cases locate c.source with
  | none => rfl
  | some first =>
    cases locate c.target with
    | none => rfl
    | some second =>
      obtain ⟨same_first, same_second⟩ := ofConstraint_ends c first second
      simp [same_first, same_second]

section Constraints

variable {options : BuildOptions} {index : BodyIndex} {w : World}

/-- A constraint with an unknown end leads to the others by way of `skip`. -/
theorem buildConstraints_apart {σ : Type} (e : Engine σ) (group : GroupHandle)
    {c : Constraint Value} (rest : List (Constraint Value))
    (apart : c.joins index.resolve? = false) :
    e.buildConstraints options index group (c :: rest) = (do
      Engine.skip options index c
      e.buildConstraints options index group rest) := by
  rw [Engine.buildConstraints]
  cases source : index.resolve? c.source with
  | none => rfl
  | some first =>
    cases target : index.resolve? c.target with
    | none => rfl
    | some second =>
      have joins := joins_iff.mpr ⟨first, second, source, target⟩
      rw [apart] at joins
      cases joins

/-- A constraint with an unknown end is left out. -/
theorem skip_run {c : Constraint Value} (passes : Passes options index.resolve? c)
    (apart : c.joins index.resolve? = false) :
    Engine.skip options index c w = (.ok (), w) := by
  obtain joins | lenient := passes
  · rw [apart] at joins
    cases joins
  · rw [Engine.skip, lenient]
    rfl

/-- Constraints are made behind those that are there and listed in their group. -/
theorem buildConstraints_run {front back : List WorldGroup} {group : WorldGroup}
    (placed : w.groups = front ++ group :: back) {constraints : List (Constraint Value)}
    (passes : ∀ c ∈ constraints, Passes options index.resolve? c)
    (held : ∀ e handle, index.resolve? e = some handle → handle < w.bodies.length) :
    World.engine.buildConstraints options index front.length constraints w = (.ok (), { w with
      constraints := w.constraints ++
        constraints.filterMap (Constraint.joint? index.resolve? front.length)
      groups := front ++ { group with
        constraints := group.constraints ++
          .range' w.constraints.length (constraints.countP (Constraint.joins index.resolve?)) } ::
            back }) := by
  induction constraints generalizing w group with
  | nil =>
    simp only [List.filterMap_nil, List.append_nil, List.countP_nil, List.range'_zero, ← placed]
    rfl
  | cons c constraints ih =>
    have rest := fun d member => passes d (List.mem_cons_of_mem _ member)
    cases joins : c.joins index.resolve? with
    | true =>
      obtain ⟨first, second, source, target⟩ := joins_iff.mp joins
      have joint : c.joint? index.resolve? front.length =
          some ⟨.ofConstraint c first second, some front.length⟩ := by
        simp [Constraint.joint?, source, target]
      obtain ⟨same_first, same_second⟩ := ofConstraint_ends c first second
      have known_first : ConstraintSpec.first (.ofConstraint c first second) < w.bodies.length :=
        same_first.symm ▸ held _ _ source
      have known_second : ConstraintSpec.second (.ofConstraint c first second) < w.bodies.length :=
        same_second.symm ▸ held _ _ target
      simp only [Engine.buildConstraints, source, target]
      refine (bind_of_ok (World.createConstraint_run known_first known_second)).trans ?_
      refine (bind_of_ok (World.addConstraint_run
        (w := { w with constraints := w.constraints ++ [_] }) rfl placed)).trans ?_
      refine (ih (w := { w with constraints := _, groups := front ++ _ :: back })
        rfl rest held).trans ?_
      simp only [List.filterMap_cons, joint, List.countP_cons, joins, if_true, List.length_append,
        List.length_singleton, List.append_assoc, List.singleton_append, List.range'_succ]
    | false =>
      rw [buildConstraints_apart _ _ _ joins]
      refine (bind_of_ok (skip_run (passes c (List.mem_cons_self ..)) joins)).trans ?_
      refine (ih placed rest held).trans ?_
      simp only [List.filterMap_cons, joint?_none joins, List.countP_cons, joins,
        Bool.false_eq_true, if_false, Nat.add_zero]

theorem connect_eq {σ : Type} (e : Engine σ) (c : Composite Value) (g : GroupHandle) :
    e.connect options index c (c.groupTree g) = (do
      e.buildConstraints options index g c.constraints
      e.connectAll options index c.composites (groupTrees c.composites (g + 1))) := by
  cases c
  rw [groupTree, Engine.connect]

/-- The second pass puts the constraints of composites into the groups of the first pass. -/
theorem connect_run (options : BuildOptions) (index : BodyIndex) :
    (∀ (c : Composite Value) (w : World) front parent b back,
      w.groups = front ++ c.groupsOf (fun _ => false) parent front.length b 0 ++ back →
      (∀ d ∈ c.edges, Passes options index.resolve? d) →
      (∀ e handle, index.resolve? e = some handle → handle < w.bodies.length) →
      World.engine.connect options index c (c.groupTree front.length) w = (.ok (), { w with
        constraints := w.constraints ++ (c.inGroups (·.constraints) front.length).filterMap
          fun held => held.2.joint? index.resolve? held.1
        groups := front ++
          c.groupsOf (Constraint.joins index.resolve?) parent front.length b w.constraints.length ++
            back })) ∧
    ∀ (cs : List (Composite Value)) (w : World) front parent b back,
      w.groups = front ++ groupsOfAll (fun _ => false) cs parent front.length b 0 ++ back →
      (∀ d ∈ edgesAll cs, Passes options index.resolve? d) →
      (∀ e handle, index.resolve? e = some handle → handle < w.bodies.length) →
      World.engine.connectAll options index cs (groupTrees cs front.length) w = (.ok (), { w with
        constraints := w.constraints ++ (inGroupsAll (·.constraints) cs front.length).filterMap
          fun held => held.2.joint? index.resolve? held.1
        groups := front ++ groupsOfAll (Constraint.joins index.resolve?) cs parent front.length b
          w.constraints.length ++ back }) := by
  apply nesting_induction
  · intro c inside w front parent b back placed passes held
    obtain ⟨group, group_eq⟩ : ∃ group : WorldGroup, group =
      { label := c.label
        bodies := .range' b c.bodies.length
        groups := handles c.composites (front.length + 1)
        constraints :=
          .range' w.constraints.length (c.constraints.countP (Constraint.joins index.resolve?))
        parent } := ⟨_, rfl⟩
    have next : (front ++ [group]).length = front.length + 1 := List.length_append
    rw [edges_eq] at passes
    have own := fun d member => passes d (List.mem_append_left _ member)
    have others := fun d member => passes d (List.mem_append_right _ member)
    rw [groupsOf_bare, List.append_assoc, List.cons_append] at placed
    have built := buildConstraints_run placed own held
    have inner := inside { w with
        constraints := w.constraints ++
          c.constraints.filterMap (Constraint.joint? index.resolve? front.length)
        groups := front ++ group :: (groupsOfAll (fun _ => false) c.composites front.length
          (front.length + 1) (b + c.bodies.length) 0 ++ back) }
      (front ++ [group]) front.length (b + c.bodies.length) back
      (by rw [next, List.append_assoc, List.append_assoc]; rfl) others held
    rw [next] at inner
    rw [connect_eq]
    subst group_eq
    refine (bind_of_ok built).trans ?_
    refine inner.trans ?_
    have count := joints_length index.resolve? (c.constraints.map (front.length, ·))
    simp only [List.filterMap_map, List.map_map, Function.comp_def, List.map_id'] at count
    rw [groupsOf_eq, inGroups_eq]
    simp only [List.filterMap_append, List.filterMap_map, Function.comp_def, List.length_append,
      count, List.append_assoc, List.cons_append, List.nil_append]
  · intro w front parent b back placed passes held
    simp only [inGroupsAll, List.filterMap_nil, List.append_nil, groupsOfAll] at placed ⊢
    rw [← placed]
    rfl
  · intro c cs first rest w front parent b back placed passes held
    have next (k : Nat) : (front ++ c.groupsOf (Constraint.joins index.resolve?) (some parent)
        front.length b k).length = front.length + c.span := by
      rw [List.length_append, (groupsOf_lengths _).1]
    have own := fun d member => passes d (List.mem_append_left _ member)
    have others := fun d member => passes d (List.mem_append_right _ member)
    rw [groupsOfAll_bare] at placed
    have built := first w front (some parent) b
      (groupsOfAll (fun _ => false) cs parent (front.length + c.span) (b + c.walk.length) 0 ++ back)
      (by simpa only [List.append_assoc] using placed) own held
    have later := rest { w with
        constraints := w.constraints ++ (c.inGroups (·.constraints) front.length).filterMap
          fun held => held.2.joint? index.resolve? held.1
        groups := front ++ c.groupsOf (Constraint.joins index.resolve?) (some parent) front.length b
          w.constraints.length ++ (groupsOfAll (fun _ => false) cs parent (front.length + c.span)
            (b + c.walk.length) 0 ++ back) }
      (front ++ c.groupsOf (Constraint.joins index.resolve?) (some parent) front.length b
        w.constraints.length) parent (b + c.walk.length) back
      (by simp only [next, List.append_assoc]) others held
    rw [next] at later
    rw [groupTrees, Engine.connectAll]
    refine (bind_of_ok built).trans ?_
    refine later.trans ?_
    simp only [inGroupsAll, List.filterMap_append, groupsOfAll, List.length_append, joints_length,
      inGroups_constraints, List.append_assoc]

end Constraints

end RigidScene
