import RigidScene.Proofs.Build.Mirror

/-!
What the check of a scene promises.

The check looks for the ends of constraints among the bodies of the scene, as the index does.  So a
scene that passes the check has no constraint that could stop the second pass.
-/

namespace RigidScene

namespace Composite

variable {V : Type}

theorem edgesLastFirst_eq (c : Composite V) :
    c.edgesLastFirst = c.constraints ++ edgesLastFirstAll c.composites := by
  cases c
  rw [edgesLastFirst]

/-- The check looks at all constraints. -/
theorem mem_edgesLastFirst (k : Constraint V) :
    (∀ c : Composite V, k ∈ c.edgesLastFirst ↔ k ∈ c.edges) ∧
      ∀ cs : List (Composite V), k ∈ edgesLastFirstAll cs ↔ k ∈ edgesAll cs := by
  apply nesting_induction
  · intro c inside
    rw [edgesLastFirst_eq, edges_eq, List.mem_append, List.mem_append, inside]
  · exact Iff.rfl
  · intro c cs first rest
    rw [edgesLastFirstAll, edgesAll, List.mem_append, List.mem_append, first, rest, Or.comm]

end Composite

/-- An endpoint is found in a list of bodies if one of them has its number or its label. -/
theorem locate?_isSome {V : Type} (bodies : List (Body V)) (e : Endpoint) :
    (e.locate? bodies).isSome = match e with
      | .id n => bodies.any (·.id = n)
      | .label name => bodies.any (·.label = some name) := by
  have counted (p : Body V → Bool) : bodies.zipIdx.any (fun b => p b.1) = bodies.any p := by
    have plain : bodies.zipIdx.map Prod.fst = bodies := List.zipIdx_map_fst 0 bodies
    conv => rhs; rw [← plain, List.any_map]
    rfl
  cases e with
  | id n =>
    rw [Endpoint.locate?, Option.isSome_map, List.isSome_find?, List.any_reverse]
    exact counted fun b => b.id = n
  | label name =>
    rw [Endpoint.locate?, Option.isSome_map, List.isSome_find?]
    exact counted fun b => b.label = some name

/-- The check knows an endpoint exactly if the index does. -/
theorem knows_eq (s : Scene) (e : Endpoint) : s.root.knows e = (s.locate? e).isSome := by
  rw [Scene.locate?, locate?_isSome]
  cases e <;> rfl

/-- The check finds no fault if both ends of every constraint are known, and only then. -/
theorem unresolved?_none_iff (s : Scene) :
    s.unresolved? = none ↔ ∀ c ∈ s.root.edges, c.joins s.locate? = true := by
  have ends (c : Constraint Value) :
      ((c.endWhere? fun e => !s.root.knows e).map (BuildError.unresolvedEndpoint c.id)) = none ↔
        c.joins s.locate? = true := by
    simp only [Constraint.endWhere?, knows_eq, Option.map_eq_none_iff, List.find?_eq_none,
      List.mem_cons, List.not_mem_nil, or_false, forall_eq_or_imp, forall_eq, Constraint.joins,
      Bool.not_eq_true', Bool.not_eq_false, Bool.and_eq_true]
  simp only [Scene.unresolved?, List.findSome?_eq_none_iff, ends,
    (Composite.mem_edgesLastFirst _).1]

/-- The constraints of a scene that passes the check do not stop the second pass. -/
theorem passes_of_check {options : BuildOptions} {s : Scene} (checked : s.check options = .ok ()) :
    ∀ c ∈ s.root.edges, Passes options s.locate? c := by
  intro c member
  unfold Scene.check at checked
  cases policy : options.endpointPolicy with
  | lenient => exact .inr policy
  | strict =>
    rw [policy] at checked
    cases fault : s.unresolved? with
    | some e => simp [fault] at checked
    | none => exact .inl ((unresolved?_none_iff s).mp fault c member)

end RigidScene
