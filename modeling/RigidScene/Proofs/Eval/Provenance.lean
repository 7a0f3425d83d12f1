import RigidScene.Proofs.Eval.Adequacy
import RigidScene.Proofs.Eval.Growth
import RigidScene.Proofs.Eval.Surfacing

/-!
Where the bodies of a scene come from.

Every body of a scene is what some body expression of the run has answered; since then only its
label can have changed, however many blocks have ended around it and however many calls it has come
back from.  `Body.MadeFrom` says so of one body, with the values of the arguments of the expression,
and `scene_bodies_made` of all bodies of a scene.
-/

namespace RigidScene

/-- The run carries out a body expression whose arguments have these values, and the body is the one
that it makes, up to the label. -/
def Body.MadeFrom (settings : Settings) (program : Node) (run : Run) (b : Body Value)
    (args : List Value) : Prop :=
  ∃ (name : String) (nodes : List Node) (attrs : List (String × Node)) (m m₁ m' : Moment),
    Visits settings (.node program) ⟨.empty, run⟩ (.node (.body name nodes attrs)) m ∧
    Node.stepArgs settings (settings.enter (settings.room m.env)) nodes m.env m.run =
      (.ok (m₁.env, args), m₁.run) ∧
    (Node.body name nodes attrs).eval settings m.env m.run = (.ok (m'.env, .body b.bare), m'.run)

section Runs

variable {settings : Settings} {program : Node} {run run' : Run} {b : Body Value}

/-- A body expression answers a body with the parameters that its shape takes from the arguments. -/
theorem Derived.body_answer {name : String} {nodes : List Node} {attrs : List (String × Node)}
    {m m' : Moment} {v : Value}
    (derived : Derived settings (.node (.body name nodes attrs)) m [v] m') :
    ∃ shape args m₁ params m₂ props, Derived settings (.nodes nodes) m args m₁ ∧
      shape.assign args = .ok params ∧ v = .body (Moment.newBody m₂ shape params props) := by
  cases derived with
  | leaf _ value => cases value
  | body _ _ arguments _ fits => exact ⟨_, _, _, _, _, _, arguments, fits, rfl⟩

/-- What a body expression answers is made from the values of its arguments. -/
theorem Derived.madeFrom {name : String} {nodes : List Node} {attrs : List (String × Node)}
    {m m' : Moment} (visited : Visits settings (.node program) ⟨.empty, run⟩
      (.node (.body name nodes attrs)) m)
    (derived : Derived settings (.node (.body name nodes attrs)) m [.body b.bare] m') :
    ∃ args, b.MadeFrom settings program run args := by
  obtain ⟨_, args, m₁, _, _, _, arguments, _, _⟩ := derived.body_answer
  exact ⟨args, name, nodes, attrs, m, m₁, m', visited, derived_iff_stepArgs.mp arguments,
    derived_iff_eval.mp derived⟩

/-- The parameters of the body are those that its shape takes from the values. -/
theorem Body.MadeFrom.assigned {args : List Value} (made : b.MadeFrom settings program run args) :
    b.shape.assign args = .ok b.params := by
  obtain ⟨name, nodes, attrs, m, m₁, m', _, ran, answered⟩ := made
  obtain ⟨_, _, _, _, _, _, arguments, fits, answer⟩ :=
    (derived_iff_eval.mpr answered).body_answer
  obtain ⟨rfl, _⟩ := arguments.unique (derived_iff_stepArgs.mpr ran)
  show b.bare.shape.assign _ = .ok b.bare.params
  rw [Value.body.inj answer]
  exact fits

/-- The body is one of these, up to the label, or has been made by a body expression. -/
def Body.From (settings : Settings) (program : Node) (run : Run) (bodies : List (Body Value))
    (b : Body Value) : Prop :=
  b.bare ∈ bodies.map Body.bare ∨ ∃ args, b.MadeFrom settings program run args

theorem Body.From.old {bodies : List (Body Value)} (member : b ∈ bodies) :
    b.From settings program run bodies :=
  .inl (List.mem_map_of_mem member)

theorem Body.From.of_bare {bodies : List (Body Value)} {a : Body Value} (same : a.bare = b.bare)
    (from_ : a.From settings program run bodies) : b.From settings program run bodies := by
  simp only [Body.From, Body.MadeFrom, same] at from_ ⊢
  exact from_

/-- Every body that a job leaves in the block, at any depth, has been there before or has been made
on the way. -/
theorem made_carried (settings : Settings) (program : Node) (run : Run) :
    Carried settings (Visits settings (.node program) ⟨.empty, run⟩) fun m m' =>
      ∀ b ∈ m'.env.walk, b.From settings program run m.env.walk where
  inherited visited spawned := .part visited spawned
  refl _ _ member := .old member
  trans := by
    intro m₁ m₂ m₃ one two b member
    rcases two b member with before | made
    · obtain ⟨a, held, same⟩ := List.mem_map.mp before
      exact (one a held).of_bare same
    · exact .inr made
  serialled _ _ member := .old member
  halted _ _ member := .old member
  body := by
    intro name args attrs start m shape params props visited derived b member
    rcases mem_walk_withBody_iff.mp member with old | rfl
    · exact .old old
    · exact .inr (derived.madeFrom visited)
  constraint _ _ _ _ _ _ member := .old member
  scope := by
    intro m m' transform props inside b member
    rcases mem_walk_withComposite_iff.mp member with outside | within
    · exact .old outside
    · -- The inner block has begun without bodies, so this one has been made in it.
      exact (inside b within).elim nofun .inr
  label := by
    intro name node m v m' env v' _ _ declared before b member
    obtain ⟨renamed, _⟩ := declare_entities (f := Body.bare) (fun _ _ => rfl) declared
    have image := List.mem_map_of_mem (f := Body.bare) member
    rw [renamed] at image
    obtain ⟨a, held, same⟩ := List.mem_map.mp image
    exact (before a held).of_bare same
  returned := by
    intro m env m' same inside b member
    have walk : env.walk = m.env.walk := by
      rw [Environment.walk, same.1, same.2.2, Environment.walk]
    rw [← walk]
    exact inside b member

/-- Every body of a scene has been made by a body expression of its run. -/
theorem scene_bodies_made {scene : Scene}
    (evaluated : Scene.ofNode settings program run = (.ok scene, run')) :
    ∀ b ∈ scene.root.walk, ∃ args, b.MadeFrom settings program run args := by
  obtain ⟨env, root, derived⟩ := derived_of_ofNode evaluated
  intro b member
  rw [root, env.toComposite_walk] at member
  exact (derived.carried (made_carried settings program run) .here b member).resolve_left nofun

end Runs

end RigidScene
