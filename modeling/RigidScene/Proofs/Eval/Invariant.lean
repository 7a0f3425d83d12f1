import RigidScene.Proofs.Eval.Grounding
import RigidScene.Proofs.Eval.Growth
import RigidScene.Proofs.Eval.Surfacing

/-!
Invariants of moments and of the values that a program has there.

An invariant says something about a moment and about every value that a program can get at there.
It may be one that holds only while the count is in certain ranges.  `Invariant` lists what has to
be shown of each way in which a run changes a moment or makes a value.  Then a job that succeeds
keeps the invariant (`Derived.invariant`), and its parts begin with it (`Spawns.invariant`).  A part
may break the invariant on the way; if it ends with the invariant nevertheless, so does the job
(`Spawns.finishes`).
-/

namespace RigidScene

/-- `I` holds at a moment and `Q` of the values there, and both are kept while the count runs from
one number to another that are in the relation. -/
structure Invariant (settings : Settings) (range : Nat → Nat → Prop) (I : Moment → Prop)
    (Q : Moment → Value → Prop) : Prop where
  within : ∀ {a b c d}, range a d → a ≤ b → b ≤ c → c ≤ d → range b c
  /-- What a value is said to be at a moment it is later on too. -/
  later : ∀ {m m' v}, m.Grows m' → range m'.run.nextId m'.run.nextId → Q m v → Q m' v
  plain : ∀ {m v}, v.Plain → Q m v
  closure : ∀ {m c}, Q m (.closure c) ↔ ∀ e ∈ c.captured.entries, Q m e.2
  labels : ∀ {m}, I m → ∀ e ∈ m.env.labels.entries, Q m e.2
  /-- Neither functions nor the wish to stop are counted. -/
  uncounted : ∀ {m m' : Moment}, range m.run.nextId m.run.nextId → m'.env = m.env →
    m'.run.nextId = m.run.nextId → I m → I m'
  body : ∀ {m : Moment} (shape params props), range m.run.nextId (m.run.nextId + 1) → I m →
    I (m.withBody (m.newBody shape params props)) ∧
      Q (m.withBody (m.newBody shape params props)) (.body (m.newBody shape params props))
  constraint : ∀ {m : Moment} (source kind target attrs), range m.run.nextId (m.run.nextId + 1) →
    I m → I (m.withConstraint (m.newConstraint source kind target attrs))
  opened : ∀ {m : Moment}, I m → I m.opened
  scope : ∀ {m m' : Moment} (transform props), m.run.nextId ≤ m'.run.nextId →
    range m'.run.nextId (m'.run.nextId + 1) → I m → I m' →
    I (m.withComposite m' (m'.closed transform props)) ∧
      Q (m.withComposite m' (m'.closed transform props)) (.composite (m'.closed transform props))
  label : ∀ {m : Moment} {name v env v'}, range m.run.nextId m.run.nextId → I m → Q m v →
    m.env.declare settings.labelPolicy name v = .ok (env, v') →
    I { m with env } ∧ Q { m with env } v'
  enter : ∀ {m : Moment} {name c args env}, range m.run.nextId m.run.nextId → I m →
    (∀ v ∈ Value.closure c :: args, Q m v) →
    c.prepare name args settings.maxCallDepth m.env = .ok env → I { m with env }
  returned : ∀ {m m' : Moment}, m.Grows (m.returned m') → range m'.run.nextId m'.run.nextId →
    I m → I m' → I (m.returned m')

namespace Invariant

variable {settings : Settings} {range : Nat → Nat → Prop} {I : Moment → Prop}
  {Q : Moment → Value → Prop} {m m' : Moment}

section Values

variable (inv : Invariant settings range I Q)

include inv

/-- The indices that a loop passes to a function. -/
theorem indices (f : Value) (cells : List Nat) : ∀ v ∈ Builtin.loopArguments f cells, Q m v := by
  intro v member
  obtain ⟨x, rfl⟩ := loopArguments_numeric f cells v member
  exact inv.plain trivial

theorem symbol (holds : I m) (name : String) : Q m ((m.env.get? name).getD (.string name)) :=
  forall_symbol (fun _ => inv.plain) (inv.labels holds) name

theorem leaf (holds : I m) {node : Node} {v : Value} (value : node.leaf? m.env = some v) :
    Q m v :=
  forall_leaf (fun _ => inv.plain) (inv.labels holds) value

theorem callee (holds : I m) {name : String} {f : Value} (found : m.env.callee name = .ok f) :
    Q m f :=
  forall_callee (fun _ => inv.plain) (inv.labels holds) found

/-- The last of several values, or nothing. -/
theorem last {vs : List Value} (values : ∀ v ∈ vs, Q m v) : Q m (vs.getLastD .unit) := by
  have nothing : Q m .unit := inv.plain trivial
  exact List.forall_mem_cons.mpr ⟨nothing, values⟩ _ List.getLastD_mem_cons

/-- The labels of the caller and the answers of a call, behind the call. -/
theorem behind {vs : List Value} (grows : m.Grows (m.returned m'))
    (counts : range m'.run.nextId m'.run.nextId) (before : I m)
    (inside : I m' ∧ ∀ v ∈ vs, Q m' v) : I (m.returned m') ∧ ∀ v ∈ vs, Q (m.returned m') v := by
  have left : m'.Grows (m.returned m') :=
    .of_same (Nat.le_refl _) (withEntitiesOf_sameEntities _ _)
  exact ⟨inv.returned grows counts before inside.1,
    fun v member => inv.later left counts (inside.2 v member)⟩

theorem split {a b c : Nat} (counts : range a c) (first : a ≤ b) (second : b ≤ c) :
    range a b ∧ range b c :=
  ⟨inv.within counts (Nat.le_refl _) first second, inv.within counts first second (Nat.le_refl _)⟩

/-- The range that ends where another one does and has nothing in it. -/
theorem last_count {a b : Nat} (counts : range a b) (ordered : a ≤ b) : range b b :=
  (inv.split counts ordered (Nat.le_refl _)).2

end Values

end Invariant

section Runs

variable {settings : Settings} {range : Nat → Nat → Prop} {I : Moment → Prop}
  {Q : Moment → Value → Prop} (inv : Invariant settings range I Q)

include inv

/-- A job that succeeds keeps an invariant, and its values have it. -/
theorem Derived.invariant {job : Job} {m m' : Moment} {vs : List Value}
    (derived : Derived settings job m vs m') (counts : range m.run.nextId m'.run.nextId)
    (before : I m) (given : ∀ v ∈ job.inputs, Q m v) : I m' ∧ ∀ v ∈ vs, Q m' v := by
  induction derived with
  | leaf ready value => exact ⟨before, List.forall_mem_singleton.mpr (inv.leaf before value)⟩
  | @function params result m ready =>
    have after : I m.serialled := inv.uncounted (m := m) counts rfl rfl before
    exact ⟨after, List.forall_mem_singleton.mpr (inv.closure.mpr (inv.labels after))⟩
  | vector ready first second point ih₁ ih₂ =>
    obtain ⟨one, two⟩ := inv.split counts first.grows.counts second.grows.counts
    have between := (ih₁ one before (List.forall_mem_nil _)).1
    have after := (ih₂ two between (List.forall_mem_nil _)).1
    exact ⟨after, List.forall_mem_singleton.mpr (inv.plain trivial)⟩
  | @body name args attrs m shape vs m₁ ws m₂ params ready known arguments attributes fits ih₁
    ih₂ =>
    have earlier := arguments.grows.trans attributes.grows
    obtain ⟨parts, new⟩ := inv.split counts earlier.counts (Nat.le_succ _)
    obtain ⟨one, two⟩ := inv.split parts arguments.grows.counts attributes.grows.counts
    have between := (ih₁ one before (List.forall_mem_nil _)).1
    have last := (ih₂ two between (List.forall_mem_nil _)).1
    have after := inv.body shape params (attrValues attrs ws) new last
    exact ⟨after.1, List.forall_mem_singleton.mpr after.2⟩
  | constraint ready first source second target attributes ih₁ ih₂ ih₃ =>
    have ends := first.grows.trans second.grows
    obtain ⟨parts, new⟩ := inv.split counts (ends.trans attributes.grows).counts (Nat.le_succ _)
    obtain ⟨both, three⟩ := inv.split parts ends.counts attributes.grows.counts
    obtain ⟨one, two⟩ := inv.split both first.grows.counts second.grows.counts
    have between := (ih₁ one before (List.forall_mem_nil _)).1
    have behind := (ih₂ two between (List.forall_mem_nil _)).1
    have last := (ih₃ three behind (List.forall_mem_nil _)).1
    exact ⟨inv.constraint _ _ _ _ new last, List.forall_mem_singleton.mpr (inv.plain trivial)⟩
  | composite ready parts ih =>
    obtain ⟨after, values⟩ := ih counts before (List.forall_mem_nil _)
    exact ⟨after, List.forall_mem_singleton.mpr (inv.last values)⟩
  | @scope block attrs m ws m₁ transform props v m₂ ready attributes placed inside ih₁ ih₂ =>
    have inner : m₁.run.nextId ≤ m₂.run.nextId := inside.grows.counts
    obtain ⟨one, two⟩ := inv.split counts attributes.grows.counts (Nat.le_succ_of_le inner)
    have between := (ih₁ one before (List.forall_mem_nil _)).1
    have end_ := (ih₂ (inv.split two inner (Nat.le_succ _)).1 (inv.opened between)
      (List.forall_mem_nil _)).1
    have closing := (inv.split two inner (Nat.le_succ _)).2
    have after := inv.scope transform props inner closing between end_
    exact ⟨after.1, List.forall_mem_singleton.mpr after.2⟩
  | label ready value declared ih =>
    obtain ⟨between, values⟩ := ih counts before (List.forall_mem_nil _)
    have here := (inv.split counts value.grows.counts (Nat.le_refl _)).2
    have after := inv.label here between (values _ List.mem_cons_self) declared
    exact ⟨after.1, List.forall_mem_singleton.mpr after.2⟩
  | call ready found arguments called ih₁ ih₂ =>
    obtain ⟨one, two⟩ := inv.split counts arguments.grows.counts called.grows.counts
    obtain ⟨between, values⟩ := ih₁ one before (List.forall_mem_nil _)
    have callee := inv.later arguments.grows (inv.last_count one arguments.grows.counts)
      (inv.callee before found)
    exact ih₂ two between (List.forall_mem_cons.mpr ⟨callee, values⟩)
  | nil => exact ⟨before, List.forall_mem_nil _⟩
  | cons head tail ih₁ ih₂ =>
    obtain ⟨one, two⟩ := inv.split counts head.grows.counts tail.grows.counts
    obtain ⟨between, value⟩ := ih₁ one before (List.forall_mem_nil _)
    obtain ⟨after, values⟩ := ih₂ two between (List.forall_mem_nil _)
    have first := inv.later tail.grows (inv.last_count two tail.grows.counts)
      (value _ List.mem_cons_self)
    exact ⟨after, List.forall_mem_cons.mpr ⟨first, values⟩⟩
  | endName => exact ⟨before, List.forall_mem_singleton.mpr (inv.symbol before _)⟩
  | endNode other value ih => exact ih counts before (List.forall_mem_nil _)
  | closure entered result ih =>
    have grows := Moment.Grows.returned (prepare_sameEntities entered) result.grows
    have start := (inv.split counts (Nat.le_refl _) grows.counts).1
    have inside := ih counts (inv.enter start before given entered) (List.forall_mem_nil _)
    exact inv.behind grows (inv.last_count counts grows.counts) before inside
  | operation does numbers => exact ⟨before, List.forall_mem_singleton.mpr (inv.plain trivial)⟩
  | @halt name m =>
    have after : I m.halted := inv.uncounted (m := m) counts rfl rfl before
    exact ⟨after, List.forall_mem_singleton.mpr (inv.plain trivial)⟩
  | «repeat» often swept ih =>
    have grows := Moment.Grows.returned (.refl _) swept.grows
    have callee := given _ (.tail _ (.tail _ (.head _)))
    have inside := ih counts before
      (List.forall_mem_cons.mpr ⟨callee, List.forall_mem_singleton.mpr (inv.plain trivial)⟩)
    exact inv.behind grows (inv.last_count counts grows.counts) before inside
  | grid wide high swept ih =>
    have grows := Moment.Grows.returned (.refl _) swept.grows
    have callee := given _ (.tail _ (.tail _ (.tail _ (.head _))))
    have inside := ih counts before
      (List.forall_mem_cons.mpr ⟨callee, List.forall_mem_singleton.mpr (inv.plain trivial)⟩)
    exact inv.behind grows (inv.last_count counts grows.counts) before inside
  | swept => exact ⟨before, List.forall_mem_singleton.mpr (given _ (.tail _ (.head _)))⟩
  | @cell name f indices cells last m v m₁ w m' head tail ih₁ ih₂ =>
    obtain ⟨one, two⟩ := inv.split counts head.grows.counts tail.grows.counts
    have callee : Q m f := given f List.mem_cons_self
    obtain ⟨between, value⟩ := ih₁ one before
      (List.forall_mem_cons.mpr ⟨callee, inv.indices f indices⟩)
    have again := inv.later head.grows (inv.last_count one head.grows.counts) callee
    exact ih₂ two between (List.forall_mem_cons.mpr ⟨again, value⟩)

/-- A part of a job begins with the invariants that the job begins with. -/
theorem Spawns.invariant {job job' : Job} {m m' : Moment} (spawned : Spawns settings job m job' m')
    (counts : range m.run.nextId m'.run.nextId) (before : I m) (given : ∀ v ∈ job.inputs, Q m v) :
    I m' ∧ ∀ v ∈ job'.inputs, Q m' v := by
  cases spawned with
  | abscissa | arguments | source | statements | placement | labelled | passed | head | endNode =>
    exact ⟨before, List.forall_mem_nil _⟩
  | ordinate _ earlier | properties _ _ earlier | target _ earlier | tail earlier =>
    exact ⟨(earlier.invariant inv counts before (List.forall_mem_nil _)).1, List.forall_mem_nil _⟩
  | attributes _ first _ second =>
    obtain ⟨one, two⟩ := inv.split counts first.grows.counts second.grows.counts
    have between := (first.invariant inv one before (List.forall_mem_nil _)).1
    exact ⟨(second.invariant inv two between (List.forall_mem_nil _)).1, List.forall_mem_nil _⟩
  | block _ earlier =>
    have outer := (earlier.invariant inv counts before (List.forall_mem_nil _)).1
    exact ⟨inv.opened outer, List.forall_mem_nil _⟩
  | called _ found earlier =>
    obtain ⟨after, values⟩ := earlier.invariant inv counts before (List.forall_mem_nil _)
    have callee := inv.later earlier.grows (inv.last_count counts earlier.grows.counts)
      (inv.callee before found)
    exact ⟨after, List.forall_mem_cons.mpr ⟨callee, values⟩⟩
  | entered prepared => exact ⟨inv.enter counts before given prepared, List.forall_mem_nil _⟩
  | repeated =>
    have callee := given _ (.tail _ (.tail _ (.head _)))
    have nothing : Q m .unit := inv.plain trivial
    exact ⟨before, List.forall_mem_cons.mpr ⟨callee, List.forall_mem_singleton.mpr nothing⟩⟩
  | gridded =>
    have callee := given _ (.tail _ (.tail _ (.tail _ (.head _))))
    have nothing : Q m .unit := inv.plain trivial
    exact ⟨before, List.forall_mem_cons.mpr ⟨callee, List.forall_mem_singleton.mpr nothing⟩⟩
  | @cell name f indices cells last =>
    have callee := given f List.mem_cons_self
    exact ⟨before, List.forall_mem_cons.mpr ⟨callee, inv.indices f indices⟩⟩
  | @cells name f indices cells last m v m' earlier =>
    have callee : Q m f := given f List.mem_cons_self
    obtain ⟨after, values⟩ := earlier.invariant inv counts before
      (List.forall_mem_cons.mpr ⟨callee, inv.indices f indices⟩)
    have again := inv.later earlier.grows (inv.last_count counts earlier.grows.counts) callee
    exact ⟨after, List.forall_mem_cons.mpr ⟨again, values⟩⟩

/-- A part of a job that succeeds does so too, and its entities come to the block of the job.  If
the part ends with the invariant the job does, whether or not the part kept it. -/
theorem Spawns.finishes {job job₁ : Job} {m m₁ m' : Moment} {vs : List Value}
    (spawned : Spawns settings job m job₁ m₁) (derived : Derived settings job m vs m')
    (counts : range m.run.nextId m₁.run.nextId) (before : I m)
    (given : ∀ v ∈ job.inputs, Q m v) :
    ∃ ws m₂, Derived settings job₁ m₁ ws m₂ ∧ m₂.Surfaces m' ∧
      (range m₂.run.nextId m'.run.nextId → (I m₂ ∧ ∀ w ∈ ws, Q m₂ w) →
        I m' ∧ ∀ v ∈ vs, Q m' v) := by
  cases spawned with
  | abscissa =>
    cases derived with
    | leaf _ value => cases value
    | vector _ first second point =>
      refine ⟨_, _, first, second.surfaces, fun after part => ?_⟩
      have last := (second.invariant inv after part.1 (List.forall_mem_nil _)).1
      exact ⟨last, List.forall_mem_singleton.mpr (inv.plain trivial)⟩
  | ordinate _ earlier =>
    cases derived with
    | leaf _ value => cases value
    | vector _ first second point =>
      obtain ⟨_, rfl⟩ := earlier.unique first
      refine ⟨_, _, second, .refl _, fun after part => ?_⟩
      exact ⟨part.1, List.forall_mem_singleton.mpr (inv.plain trivial)⟩
  | @arguments _ _ attrs =>
    cases derived with
    | leaf _ value => cases value
    | @body _ _ _ _ shape _ _ ws _ params _ _ arguments attributes =>
      refine ⟨_, _, arguments, attributes.surfaces.trans (.withBody _ _ _ _), fun after part => ?_⟩
      obtain ⟨two, new⟩ := inv.split after attributes.grows.counts (Nat.le_succ _)
      have last := (attributes.invariant inv two part.1 (List.forall_mem_nil _)).1
      have made := inv.body shape params (attrValues attrs ws) new last
      exact ⟨made.1, List.forall_mem_singleton.mpr made.2⟩
  | @properties _ _ attrs _ _ _ _ _ _ earlier =>
    cases derived with
    | leaf _ value => cases value
    | @body _ _ _ _ shape _ _ ws _ params _ _ arguments attributes =>
      obtain ⟨_, rfl⟩ := earlier.unique arguments
      refine ⟨_, _, attributes, .withBody _ _ _ _, fun new part => ?_⟩
      have made := inv.body shape params (attrValues attrs ws) new part.1
      exact ⟨made.1, List.forall_mem_singleton.mpr made.2⟩
  | source =>
    cases derived with
    | leaf _ value => cases value
    | constraint _ first _ second _ attributes =>
      have rest := second.surfaces.trans attributes.surfaces
      refine ⟨_, _, first, rest.trans (.withConstraint _ _ _ _ _), fun after part => ?_⟩
      obtain ⟨both, new⟩ := inv.split after rest.counts (Nat.le_succ _)
      obtain ⟨two, three⟩ := inv.split both second.grows.counts attributes.grows.counts
      have between := (second.invariant inv two part.1 (List.forall_mem_nil _)).1
      have last := (attributes.invariant inv three between (List.forall_mem_nil _)).1
      exact ⟨inv.constraint _ _ _ _ new last, List.forall_mem_singleton.mpr (inv.plain trivial)⟩
  | target _ earlier =>
    cases derived with
    | leaf _ value => cases value
    | constraint _ first _ second _ attributes =>
      obtain ⟨_, rfl⟩ := earlier.unique first
      refine ⟨_, _, second, attributes.surfaces.trans (.withConstraint _ _ _ _ _),
        fun after part => ?_⟩
      obtain ⟨three, new⟩ := inv.split after attributes.grows.counts (Nat.le_succ _)
      have last := (attributes.invariant inv three part.1 (List.forall_mem_nil _)).1
      exact ⟨inv.constraint _ _ _ _ new last, List.forall_mem_singleton.mpr (inv.plain trivial)⟩
  | attributes _ earlier _ later =>
    cases derived with
    | leaf _ value => cases value
    | constraint _ first _ second _ attributes =>
      obtain ⟨_, rfl⟩ := earlier.unique first
      obtain ⟨_, rfl⟩ := later.unique second
      refine ⟨_, _, attributes, .withConstraint _ _ _ _ _, fun new part => ?_⟩
      exact ⟨inv.constraint _ _ _ _ new part.1,
        List.forall_mem_singleton.mpr (inv.plain trivial)⟩
  | statements =>
    cases derived with
    | leaf _ value => cases value
    | composite _ parts =>
      refine ⟨_, _, parts, .refl _, fun _ part => ?_⟩
      exact ⟨part.1, List.forall_mem_singleton.mpr (inv.last part.2)⟩
  | placement =>
    cases derived with
    | leaf _ value => cases value
    | @scope _ _ _ _ m₁ transform props _ m₂ _ attributes _ inside =>
      have inner : m₁.run.nextId ≤ m₂.run.nextId := inside.grows.counts
      refine ⟨_, _, attributes, .withComposite inner transform props, fun after part => ?_⟩
      obtain ⟨within, closing⟩ := inv.split after inner (Nat.le_succ _)
      have end_ := (inside.invariant inv within (inv.opened part.1) (List.forall_mem_nil _)).1
      have made := inv.scope transform props inner closing part.1 end_
      exact ⟨made.1, List.forall_mem_singleton.mpr made.2⟩
  | block _ earlier =>
    cases derived with
    | leaf _ value => cases value
    | @scope _ _ _ _ m₁ transform props _ m₂ _ attributes _ inside =>
      obtain ⟨rfl, rfl⟩ := attributes.unique earlier
      have outer := (attributes.invariant inv counts before (List.forall_mem_nil _)).1
      have inner : m₁.run.nextId ≤ m₂.run.nextId := inside.grows.counts
      refine ⟨_, _, inside, .closed _ _ transform props, fun closing part => ?_⟩
      have made := inv.scope transform props inner closing outer part.1
      exact ⟨made.1, List.forall_mem_singleton.mpr made.2⟩
  | labelled =>
    cases derived with
    | leaf _ value => cases value
    | label _ value declared =>
      refine ⟨_, _, value, .declare declared, fun here part => ?_⟩
      have named := inv.label here part.1 (part.2 _ List.mem_cons_self) declared
      exact ⟨named.1, List.forall_mem_singleton.mpr named.2⟩
  | passed _ known =>
    cases derived with
    | leaf _ value => cases value
    | call _ found arguments called =>
      refine ⟨_, _, arguments, called.surfaces, fun after part => ?_⟩
      have callee := inv.later arguments.grows (inv.split after (Nat.le_refl _)
        called.grows.counts).1 (inv.callee before found)
      exact called.invariant inv after part.1 (List.forall_mem_cons.mpr ⟨callee, part.2⟩)
  | called _ known earlier =>
    cases derived with
    | leaf _ value => cases value
    | call _ found arguments called =>
      obtain ⟨rfl, rfl⟩ := earlier.unique arguments
      cases known.symm.trans found
      exact ⟨_, _, called, .refl _, fun _ part => part⟩
  | head =>
    cases derived with
    | cons head tail =>
      refine ⟨_, _, head, tail.surfaces, fun after part => ?_⟩
      obtain ⟨last, values⟩ := tail.invariant inv after part.1 (List.forall_mem_nil _)
      have first := inv.later tail.grows (inv.last_count after tail.grows.counts)
        (part.2 _ List.mem_cons_self)
      exact ⟨last, List.forall_mem_cons.mpr ⟨first, values⟩⟩
  | tail earlier =>
    cases derived with
    | cons head tail =>
      obtain ⟨one, rfl⟩ := earlier.unique head
      cases one
      refine ⟨_, _, tail, .refl _, fun after part => ?_⟩
      have value := (earlier.invariant inv counts before (List.forall_mem_nil _)).2
      have first := inv.later tail.grows after (value _ List.mem_cons_self)
      exact ⟨part.1, List.forall_mem_cons.mpr ⟨first, part.2⟩⟩
  | endNode other =>
    cases derived with
    | endName => exact absurd rfl (other _)
    | endNode _ value => exact ⟨_, _, value, .refl _, fun _ part => part⟩
  | entered prepared =>
    cases derived with
    | closure entered result =>
      cases prepared.symm.trans entered
      have grows := Moment.Grows.returned (prepare_sameEntities entered) result.grows
      refine ⟨_, _, result, .returned _ _, fun after part => ?_⟩
      exact inv.behind grows after before part
  | repeated often =>
    cases derived with
    | operation does => cases does
    | «repeat» often' swept =>
      cases often.symm.trans often'
      refine ⟨_, _, swept, .returned _ _, fun after part => ?_⟩
      exact inv.behind (.returned (.refl _) swept.grows) after before part
  | gridded wide high =>
    cases derived with
    | operation does => cases does
    | grid wide' high' swept =>
      cases wide.symm.trans wide'
      cases high.symm.trans high'
      refine ⟨_, _, swept, .returned _ _, fun after part => ?_⟩
      exact inv.behind (.returned (.refl _) swept.grows) after before part
  | @cell name f indices cells last =>
    cases derived with
    | cell head tail =>
      refine ⟨_, _, head, tail.surfaces, fun after part => ?_⟩
      have here := (inv.split after (Nat.le_refl _) tail.grows.counts).1
      have callee := inv.later head.grows here (given f List.mem_cons_self)
      exact tail.invariant inv after part.1 (List.forall_mem_cons.mpr ⟨callee, part.2⟩)
  | cells earlier =>
    cases derived with
    | cell head tail =>
      obtain ⟨one, rfl⟩ := earlier.unique head
      cases one
      exact ⟨_, _, tail, .refl _, fun _ part => part⟩

/-- All that a job carries out begins with the invariants that the job begins with. -/
theorem Visits.invariant {job job₁ : Job} {m m₁ : Moment} (visited : Visits settings job m job₁ m₁)
    (counts : range m.run.nextId m₁.run.nextId) (before : I m) (given : ∀ v ∈ job.inputs, Q m v) :
    I m₁ ∧ ∀ v ∈ job₁.inputs, Q m₁ v := by
  induction visited with
  | here => exact ⟨before, given⟩
  | part visited spawned ih =>
    obtain ⟨one, two⟩ := inv.split counts visited.counts spawned.counts
    obtain ⟨between, inputs⟩ := ih one
    exact spawned.invariant inv two between inputs

/-- All that a job carries out succeeds if the job does, and its entities come to the block of the
job.  If it ends with the invariant then so does the job, whether or not it kept the invariant. -/
theorem Visits.finishes {job job₁ : Job} {m m₁ m' : Moment} {vs : List Value}
    (visited : Visits settings job m job₁ m₁) (derived : Derived settings job m vs m')
    (counts : range m.run.nextId m₁.run.nextId) (before : I m)
    (given : ∀ v ∈ job.inputs, Q m v) :
    ∃ ws m₂, Derived settings job₁ m₁ ws m₂ ∧ m₂.Surfaces m' ∧
      (range m₂.run.nextId m'.run.nextId → (I m₂ ∧ ∀ w ∈ ws, Q m₂ w) →
        I m' ∧ ∀ v ∈ vs, Q m' v) := by
  induction visited with
  | here => exact ⟨vs, m', derived, .refl _, fun _ ended => ended⟩
  | part visited spawned ih =>
    obtain ⟨one, two⟩ := inv.split counts visited.counts spawned.counts
    obtain ⟨_, _, outer, outwards, outer_ends⟩ := ih one
    obtain ⟨between, inputs⟩ := visited.invariant inv one before given
    obtain ⟨ws, m₂, inner, upwards, inner_ends⟩ := spawned.finishes inv outer two between inputs
    refine ⟨ws, m₂, inner, upwards.trans outwards, fun after ended => ?_⟩
    obtain ⟨first, second⟩ := inv.split after upwards.counts outwards.counts
    exact outer_ends second (inner_ends first ended)

end Runs

/-- All that a job carries out succeeds if the job does, and its entities come to the block of the
job. -/
theorem Visits.succeeds {settings : Settings} {job job₁ : Job} {m m₁ m' : Moment} {vs : List Value}
    (visited : Visits settings job m job₁ m₁) (derived : Derived settings job m vs m') :
    ∃ ws m₂, Derived settings job₁ m₁ ws m₂ ∧ m₂.Surfaces m' := by
  have nothing : Invariant settings (fun _ _ => True) (fun _ => True) (fun _ _ => True) := by
    constructor <;> intros <;> simp
  obtain ⟨ws, m₂, part, upwards, _⟩ :=
    visited.finishes nothing derived trivial trivial fun _ _ => trivial
  exact ⟨ws, m₂, part, upwards⟩

end RigidScene
