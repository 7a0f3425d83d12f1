import RigidScene.Proofs.Build.Mirror
import RigidScene.Proofs.Eval.Bindings
import RigidScene.Proofs.Eval.Naming

/-!
What a bare name at an end of a constraint is attached to.

Behind the statement that declares the name, it is bound to the declared body, and the constraint
ends at the number of this body.  Before that statement the name is not bound, and the constraint
ends at the name; the world looks it up in the whole scene, where the first body that carries it has
it.  So a constraint may stand before the declaration as well, but it is attached to the declared
body only if no body before this one, in whatever block, carries the same name
(`named_ends_attach`).
-/

namespace RigidScene

/-- The node makes a constraint with these ends, and may give it names. -/
inductive Node.Links : (node source target : Node) → Prop where
  | constraint {source kind target attrs} :
    Links (.constraint source kind target attrs) source target
  | label {name node source target} (links : Links node source target) :
    Links (.label name node) source target

/-- The end that a bare name makes. -/
def Environment.endOf (env : Environment) (name : String) : Except EvalError Endpoint :=
  Endpoint.ofValue ((env.get? name).getD (.string name))

section Statements

variable {settings : Settings} {m m' : Moment} {source target : Node} {name : String}

/-- A bare name leaves the moment as it is. -/
theorem Derived.bare_end {v : Value} {e : Endpoint}
    (derived : Derived settings (.endpoint (.symbol name)) m [v] m')
    (made : Endpoint.ofValue v = .ok e) : m.env.endOf name = .ok e := by
  cases derived with
  | endName => exact made
  | endNode other => exact absurd rfl (other name)

/-- A bare name at an end is looked up as at the moment at which the statement begins, unless the
statement binds it. -/
theorem Derived.links {node : Node} {v : Value} (links : node.Links source target)
    (derived : Derived settings (.node node) m [v] m') (silent : name ∉ node.names) :
    ∃ c, v = .constraint c ∧ c ∈ m'.env.edges ∧
      (source = .symbol name → m.env.endOf name = .ok c.source) ∧
      (target = .symbol name → m.env.endOf name = .ok c.target) := by
  induction links generalizing v m' with
  | constraint =>
    cases derived with
    | leaf _ value => cases value
    | constraint _ first from_ second to_ _ =>
      refine ⟨_, rfl, mem_edges_withConstraint_iff.mpr (.inr rfl), ?_, ?_⟩
      · rintro rfl
        exact first.bare_end from_
      · rintro rfl
        simp only [Node.names, List.mem_append, not_or] at silent
        have looked_up := second.bare_end to_
        rwa [Environment.endOf, first.keeps_binding silent.1.1] at looked_up
  | label links ih =>
    cases derived with
    | leaf _ value => cases value
    | label _ value declared =>
      obtain ⟨c, rfl, member, ends⟩ := ih value fun given => silent (.tail _ given)
      obtain ⟨_, rfl, rfl⟩ | ⟨_, _, _, nameable, _⟩ := declare_cases declared
      · exact ⟨c, rfl, member, ends⟩
      · cases nameable

/-- Statements of which none binds the name: it is looked up as at their beginning. -/
theorem Derived.links_at {nodes : List Node} {i : Nat} {node : Node} {vs : List Value}
    (derived : Derived settings (.nodes nodes) m vs m') (silent : ∀ n ∈ nodes, name ∉ n.names)
    (place : nodes[i]? = some node) (links : node.Links source target) :
    ∃ c, vs[i]? = some (.constraint c) ∧ c ∈ m'.env.edges ∧
      (source = .symbol name → m.env.endOf name = .ok c.source) ∧
      (target = .symbol name → m.env.endOf name = .ok c.target) := by
  obtain ⟨v, m₁, m₂, before, here, behind, value, _⟩ := derived.nodes_at place
  have earlier : name ∉ Node.namesAll (nodes.take i) := by
    rw [mem_namesAll]
    rintro ⟨n, member, given⟩
    exact silent n (List.mem_of_mem_take member) given
  have same : m₁.env.endOf name = m.env.endOf name := by
    rw [Environment.endOf, before.keeps_binding earlier, Environment.endOf]
  obtain ⟨c, rfl, member, ends⟩ := here.links links (silent node (List.mem_of_getElem? place))
  rw [same] at ends
  exact ⟨c, value, behind.surfaces.edges c member, ends⟩

/-- A name that is not bound is kept as it is. -/
theorem endOf_unbound {env : Environment} {e : Endpoint} (unbound : env.get? name = none)
    (made : env.endOf name = .ok e) : e = .label name := by
  rw [Environment.endOf, unbound] at made
  exact (Except.ok.inj made).symm

/-- A name that is bound to a body becomes the number of the body. -/
theorem endOf_bound {env : Environment} {e : Endpoint} {b : Body Value}
    (bound : env.get? name = some (.body b)) (made : env.endOf name = .ok e) : e = .id b.id := by
  rw [Environment.endOf, bound] at made
  exact (Except.ok.inj made).symm

/-- The ends of the constraints of a block around the one statement that binds a name to a body:
behind the statement the bare name is the number of the body, and before it just a name. -/
theorem Derived.named_ends {statements : List Node} {d i : Nat} {node declaration : Node}
    {m₁ m₂ : Moment} {vs : List Value} {v : Value} {b : Body Value}
    (before : Derived settings (.nodes (statements.take d)) m (vs.take d) m₁)
    (here : Derived settings (.node declaration) m₁ [v] m₂)
    (behind : Derived settings (.nodes (statements.drop (d + 1))) m₂ (vs.drop (d + 1)) m')
    (unbound : m.env.get? name = none) (bound : m₂.env.get? name = some (.body b))
    (once : ∀ i node, statements[i]? = some node → i ≠ d → name ∉ node.names) (other : i ≠ d)
    (place : statements[i]? = some node) (links : node.Links source target) :
    ∃ c e, vs[i]? = some (.constraint c) ∧ c ∈ m'.env.edges ∧
      (d < i → e = .id b.id) ∧ (i < d → e = .label name) ∧
      (source = .symbol name → c.source = e) ∧ (target = .symbol name → c.target = e) := by
  rcases Nat.lt_or_gt_of_ne other with earlier | later
  · have silent : ∀ n ∈ statements.take d, name ∉ n.names := by
      intro n listed
      obtain ⟨j, inside⟩ := List.mem_iff_getElem?.mp listed
      rw [List.getElem?_take] at inside
      obtain ⟨short, at_⟩ := Option.ite_none_right_eq_some.mp inside
      exact once j n at_ (Nat.ne_of_lt short)
    rw [← List.getElem?_take_of_lt earlier] at place
    obtain ⟨c, value, member, first, second⟩ := before.links_at silent place links
    rw [List.getElem?_take_of_lt earlier] at value
    have kept := behind.surfaces.edges c (here.surfaces.edges c member)
    exact ⟨c, .label name, value, kept, fun late => absurd late (by omega), fun _ => rfl,
      fun bare => endOf_unbound unbound (first bare),
      fun bare => endOf_unbound unbound (second bare)⟩
  · obtain ⟨k, rfl⟩ := Nat.exists_eq_add_of_lt later
    have shift (j : Nat) : d + 1 + j = d + j + 1 := by omega
    have silent : ∀ n ∈ statements.drop (d + 1), name ∉ n.names := by
      intro n listed
      obtain ⟨j, inside⟩ := List.mem_iff_getElem?.mp listed
      rw [List.getElem?_drop, shift] at inside
      exact once _ n inside (by omega)
    rw [← shift, ← List.getElem?_drop] at place
    obtain ⟨c, value, member, first, second⟩ := behind.links_at silent place links
    rw [List.getElem?_drop, shift] at value
    exact ⟨c, .id b.id, value, member, fun _ => rfl, fun early => absurd early (by omega),
      fun bare => endOf_bound bound (first bare), fun bare => endOf_bound bound (second bare)⟩

end Statements

/-- The index leads from the end to the body of the scene. -/
def Scene.Attaches (scene : Scene) (index : BodyIndex) (e : Endpoint) (b : Body Value) : Prop :=
  ∃ handle, index.resolve? e = some handle ∧ scene.root.walk[handle]? = some b

section Attaches

variable {scene : Scene} {index : BodyIndex} (resolves : index.resolve? = scene.locate?)

include resolves

theorem attaches_id {b : Body Value} (member : b ∈ scene.root.walk)
    (only : ∀ x ∈ scene.root.walk, x.id = b.id → x = b) : scene.Attaches index (.id b.id) b := by
  rw [Scene.Attaches, resolves]
  exact Endpoint.locate?_id member only

theorem attaches_label {x : Body Value} {name : String}
    (first : scene.root.findBody name = some x) : scene.Attaches index (.label name) x := by
  rw [Scene.Attaches, resolves]
  exact Endpoint.locate?_label first

end Attaches

/-- A constraint of the scene both of whose ends are found is made between the two. -/
theorem mem_joints {root : Composite Value} {locate : Endpoint → Option BodyHandle}
    {c : Constraint Value} (member : c ∈ root.edges) {s t : BodyHandle}
    (first : locate c.source = some s) (second : locate c.target = some t) :
    ∃ k ∈ (root.inGroups (·.constraints) 0).filterMap (fun held => held.2.joint? locate held.1),
      k.spec = .ofConstraint c s t ∧ k.spec.first = s ∧ k.spec.second = t := by
  rw [← Composite.inGroups_constraints root 0] at member
  obtain ⟨⟨group, _⟩, listed, rfl⟩ := List.mem_map.mp member
  refine ⟨⟨.ofConstraint _ s t, some group⟩, List.mem_filterMap.mpr ⟨_, listed, ?_⟩, rfl,
    ofConstraint_ends _ s t⟩
  simp only [Constraint.joint?, first, second]

/-- The names at the ends of constraints are attached to bodies.  A block is run in which a name is
not bound when it begins, and of its statements exactly one gives the name: it declares a body,
which is in the scene and carries the name.  Then the world that is built when constraints with
unknown ends are left out has the constraints that the statements of the block make, if both ends of
them are found; and where the bare name is an end, it is attached to the declared body if the
statement stands behind the declaration, and if it stands before, to the first body of the scene
that carries the name.  This is the declared body if no other one carries it.  The run is one that
makes no more entities than there are numbers. -/
theorem named_ends_attach {settings : Settings} {program : Node} {run run' : Run} {scene : Scene}
    (evaluated : Scene.ofNode settings program run = (.ok scene, run'))
    (left : run'.nextId ≤ run.nextId + UInt64.size) {statements : List Node} {m : Moment}
    (visited : Visits settings (.node program) ⟨.empty, run⟩ (.nodes statements) m)
    {name shape : String} {args : List Node} {attrs : List (String × Node)} {d : Nat}
    (unbound : m.env.get? name = none)
    (declared : statements[d]? = some (.label name (.body shape args attrs)))
    (once : ∀ i node, statements[i]? = some node → i ≠ d → name ∉ node.names)
    {options : BuildOptions} (lenient : options.endpointPolicy = .lenient) :
    ∃ vs m' b index w, Derived settings (.nodes statements) m vs m' ∧
      vs[d]? = some (.body b) ∧ b.label = some name ∧ b ∈ scene.root.walk ∧
      ((∀ x ∈ scene.root.walk, x.label = some name → x = b) →
        scene.root.findBody name = some b) ∧
      World.engine.build options scene .empty = (.ok index, w) ∧
      w.bodies.map (·.spec) = scene.root.walk.map (BodySpec.ofBody options) ∧
      ∀ i node source target, statements[i]? = some node → node.Links source target →
        ∃ c x, vs[i]? = some (.constraint c) ∧ c ∈ scene.root.edges ∧
          (d < i → x = b) ∧ (i < d → scene.root.findBody name = some x) ∧
          (source = .symbol name → scene.Attaches index c.source x) ∧
          (target = .symbol name → scene.Attaches index c.target x) ∧
          ∀ s t, index.resolve? c.source = some s → index.resolve? c.target = some t →
            ∃ k ∈ w.constraints, k.spec = .ofConstraint c s t ∧
              k.spec.first = s ∧ k.spec.second = t := by
  obtain ⟨env, root, derived⟩ := derived_of_ofNode evaluated
  obtain ⟨vs, m', block, upwards⟩ := visited.succeeds derived
  obtain ⟨_, m₁, m₂, before, here, behind, value, reached⟩ := block.nodes_at declared
  obtain ⟨b, m₂', declares, label, bound, member, only⟩ :=
    (visited.trans reached).declares derived left
  obtain ⟨same, rfl⟩ := here.unique declares
  cases same
  have resolves := index_resolve? scene
  have walk : scene.root.walk = env.walk := root ▸ env.toComposite_walk _ _ _
  have edges : scene.root.edges = env.edges := root ▸ env.toComposite_edges _ _ _
  rw [← walk] at member only
  have carried : (scene.root.findBody name).isSome :=
    List.find?_isSome.mpr ⟨b, member, by simp [label]⟩
  obtain ⟨first, found⟩ := Option.isSome_iff_exists.mp carried
  refine ⟨vs, m', b, scene.index, scene.world options, block, value, label, member,
    fun alone => ?_, build_lenient lenient scene, world_specs options scene, ?_⟩
  · have named : first.label = some name := by simpa using List.find?_some found
    rw [found, alone first (List.mem_of_find?_eq_some found) named]
  · intro i node source target place links
    have other : i ≠ d := by
      rintro rfl
      rw [declared] at place
      cases place
      cases links with
      | label links => cases links
    obtain ⟨c, e, made_, member', late, early, one, two⟩ :=
      before.named_ends here behind unbound bound once other place links
    have listed : c ∈ scene.root.edges := edges ▸ upwards.edges c member'
    rw [world_constraints]
    rcases Nat.lt_or_gt_of_ne other with earlier | later
    · have attached := attaches_label resolves found
      rw [← early earlier] at attached
      exact ⟨c, first, made_, listed, fun later => absurd later (by omega), fun _ => found,
        fun bare => one bare ▸ attached, fun bare => two bare ▸ attached,
        fun _ _ => mem_joints listed⟩
    · have attached := attaches_id resolves member only
      rw [← late later] at attached
      exact ⟨c, b, made_, listed, fun _ => rfl, fun earlier => absurd earlier (by omega),
        fun bare => one bare ▸ attached, fun bare => two bare ▸ attached,
        fun _ _ => mem_joints listed⟩

/-- A circle in a place of its own. -/
def circleAt (x : Float) : Node :=
  .body "circle" [.number x, .number 0, .number 1] []

/-- Edges to a name before and behind its declaration. -/
def linksAroundName : List Node := [
  .label "a" (circleAt 9),
  .constraint (.symbol "a") .rigid (.symbol "b") [],
  .label "b" (circleAt 20),
  .constraint (.symbol "a") .spring (.symbol "b") []]

/-- The statements stand in a block behind another block, which has a circle with the name. -/
def nameInTwoBlocks : Node :=
  .composite [
    .scope (.composite [.label "b" (circleAt 0)]) [],
    .scope (.composite linksAroundName) []]

theorem linksAroundName_visited : Visits {} (.node nameInTwoBlocks) ⟨.empty, {}⟩
    (.nodes linksAroundName) ⟨.empty, { nextId := 3 }⟩ := by
  have first : Derived {} (.node (.scope (.composite [.label "b" (circleAt 0)]) [])) ⟨.empty, {}⟩
      [_] ⟨_, { nextId := 3 }⟩ := derived_iff_eval.mpr rfl
  have blocks : Visits {} (.node nameInTwoBlocks) ⟨.empty, {}⟩ (.nodes _) ⟨.empty, {}⟩ :=
    .part .here (.statements rfl)
  have second := (blocks.part (.tail first)).part .head
  exact (second.part (.block rfl .nil rfl)).part (.statements rfl)

theorem linksAroundName_once (i : Nat) (node : Node) (place : linksAroundName[i]? = some node)
    (other : i ≠ 2) : "b" ∉ node.names := by
  obtain _ | _ | _ | _ | i := i
  · cases place
    decide
  · cases place
    decide
  · exact absurd rfl other
  · cases place
    decide
  · cases place

/-- Behind the declaration the name means the circle that is declared, before it that of the other
block. -/
theorem nameInTwoBlocks_attached : ∃ (scene : Scene) (run' : Run) (m : Moment) (vs : List Value)
    (b x : Body Value) (index : BodyIndex) (w : World) (c₁ c₃ : Constraint Value),
    Scene.ofNode {} nameInTwoBlocks {} = (.ok scene, run') ∧
    run'.nextId ≤ ({} : Run).nextId + UInt64.size ∧
    Visits {} (.node nameInTwoBlocks) ⟨.empty, {}⟩ (.nodes linksAroundName) m ∧
    m.env.get? "b" = none ∧
    linksAroundName[2]? = some (.label "b" (circleAt 20)) ∧
    (∀ i node, linksAroundName[i]? = some node → i ≠ 2 → "b" ∉ node.names) ∧
    World.engine.build {} scene .empty = (.ok index, w) ∧
    vs[1]? = some (.constraint c₁) ∧ vs[2]? = some (.body b) ∧ vs[3]? = some (.constraint c₃) ∧
    scene.root.findBody "b" = some x ∧
    scene.Attaches index c₁.target x ∧ scene.Attaches index c₃.target b := by
  have ran : Scene.ofNode {} nameInTwoBlocks {} = (.ok _, { nextId := 8 }) := rfl
  have left : 8 ≤ ({} : Run).nextId + UInt64.size := by decide
  have unbound : Environment.empty.get? "b" = none := rfl
  have declared : linksAroundName[2]? = some (.label "b" (circleAt 20)) := rfl
  have lenient : ({} : BuildOptions).endpointPolicy = .lenient := rfl
  obtain ⟨vs, m', b, index, w, _, value, _, _, _, built, _, attached⟩ := named_ends_attach ran left
    linksAroundName_visited unbound declared linksAroundName_once lenient
  obtain ⟨c₁, x, first, _, _, found, _, before, _⟩ := attached 1 _ _ _ rfl .constraint
  obtain ⟨c₃, y, third, _, same, _, _, behind, _⟩ := attached 3 _ _ _ rfl .constraint
  obtain rfl := same (by decide)
  exact ⟨_, _, _, vs, y, x, index, w, c₁, c₃, ran, left, linksAroundName_visited, unbound, declared,
    linksAroundName_once, built, first, value, third, found (by decide), before rfl, behind rfl⟩

/-- The edge before the declaration is made, but between other circles than the block has. -/
theorem nameInTwoBlocks_strays : ∃ (scene : Scene) (run' : Run) (m m' : Moment) (vs : List Value)
    (b : Body Value) (c : Constraint Value) (index : BodyIndex) (w : World),
    Scene.ofNode {} nameInTwoBlocks {} = (.ok scene, run') ∧
    Visits {} (.node nameInTwoBlocks) ⟨.empty, {}⟩ (.nodes linksAroundName) m ∧
    m.env.get? "b" = none ∧
    linksAroundName[2]? = some (.label "b" (circleAt 20)) ∧
    (∀ i node, linksAroundName[i]? = some node → i ≠ 2 → "b" ∉ node.names) ∧
    Derived {} (.nodes linksAroundName) m vs m' ∧
    linksAroundName[1]? = some (.constraint (.symbol "a") .rigid (.symbol "b") []) ∧
    vs[1]? = some (.constraint c) ∧ vs[2]? = some (.body b) ∧
    World.engine.build {} scene .empty = (.ok index, w) ∧
    index.resolve? c.source = some 1 ∧ index.resolve? c.target = some 0 ∧
    (∃ k ∈ w.constraints, k.spec = .ofConstraint c 1 0 ∧ k.spec.first = 1 ∧ k.spec.second = 0) ∧
    scene.root.walk[0]?.map Body.id ≠ some b.id ∧ scene.root.walk[2]? = some b := by
  let b : Body Value :=
    ⟨5, .circle, ⟨[("x", .number 20), ("y", .number 0), ("radius", .number 1)]⟩, ∅, some "b"⟩
  let c : Constraint Value := ⟨4, .id 3, .rigid, .label "b", ∅⟩
  have block : Derived {} (.nodes linksAroundName) ⟨.empty, { nextId := 3 }⟩
      [_, .constraint c, .body b, _] ⟨_, _⟩ := derived_iff_stepArgs.mpr rfl
  obtain ⟨scene, ran, source, target, stray, own, member⟩ : ∃ scene,
      Scene.ofNode {} nameInTwoBlocks {} = (.ok scene, { nextId := 8 }) ∧
      scene.locate? (.id 3) = some 1 ∧ scene.locate? (.label "b") = some 0 ∧
      scene.root.walk[0]?.map Body.id = some 1 ∧ scene.root.walk[2]? = some b ∧
      c ∈ scene.root.edges := ⟨_, rfl, rfl, rfl, rfl, rfl, .head _⟩
  have lenient : ({} : BuildOptions).endpointPolicy = .lenient := rfl
  rw [← index_resolve? scene] at source target
  refine ⟨scene, _, _, _, _, b, c, scene.index, scene.world {}, ran, linksAroundName_visited, rfl,
    rfl, linksAroundName_once, block, rfl, rfl, rfl, build_lenient lenient scene, source, target,
    ?_, ?_, own⟩
  · rw [world_constraints]
    exact mem_joints member source target
  · rw [stray]
    decide

end RigidScene
