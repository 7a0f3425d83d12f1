import Mathlib.Data.Prod.Lex
import Mathlib.Data.Set.Finite.Lattice
import RigidScene.Proofs.Eval.Recursion
import RigidScene.Proofs.Eval.Visits

/-!
Every run ends.

A job leads only to smaller jobs.  What counts first is the room for calls, of which only the body
of a function has less.  Built-ins are called without using any of it; they can be given to
built-ins, but loops pass on numbers only, so no more than two of them are open between two bodies:
`Job.layer`.  Within a layer the expression or the rest of the loop becomes smaller.  No job has
infinitely many parts, for where a part begins depends only on how the parts before it succeed, and
that is settled.
-/

namespace RigidScene

/-- The value is a built-in. -/
def Value.isBuiltin : Value → Bool
  | .builtin _ => true
  | _ => false

@[simp]
theorem Value.isBuiltin_builtin (b : Builtin) : (Value.builtin b).isBuiltin = true := rfl

mutual

/-- How much there is to run in an expression, calls apart. -/
def Node.size : Node → Nat
  | .composite statements => Node.sizes statements + 1
  | .body _ args attrs => Node.sizes args + Node.attrSizes attrs + 1
  | .constraint source _ target attrs => source.size + target.size + Node.attrSizes attrs + 2
  | .scope block attrs => block.size + Node.attrSizes attrs + 1
  | .label _ value => value.size + 1
  | .call _ args => Node.sizes args + 1
  | .vector x y => x.size + y.size + 1
  | .function .. | .symbol _ | .number _ | .string _ | .bool _ => 0

def Node.sizes : List Node → Nat
  | [] => 0
  | node :: nodes => node.size + Node.sizes nodes + 1

def Node.attrSizes : List (String × Node) → Nat
  | [] => 0
  | (_, node) :: attrs => node.size + Node.attrSizes attrs + 1

end

theorem Node.sizes_attrs (attrs : List (String × Node)) :
    Node.sizes (attrs.map Prod.snd) = Node.attrSizes attrs := by
  induction attrs with
  | nil => rfl
  | cons attr attrs ih => simp only [List.map_cons, Node.sizes, Node.attrSizes, ih]

namespace Job

/-- How many layers of loops and calls there may be until the body of a function begins. -/
def layer : Job → Nat
  | node _ | nodes _ | endpoint _ => 4
  | call _ f args => if f.isBuiltin then if args.any Value.isBuiltin then 3 else 1 else 0
  | sweep _ f _ _ => if f.isBuiltin then 2 else 0

/-- How much there is to run in the expression, or how much of the loop is left. -/
def size : Job → Nat
  | node n => n.size
  | nodes ns => Node.sizes ns
  | endpoint n => n.size + 1
  | call .. => 0
  | sweep _ _ cells _ => cells.length + 1

end Job

/-- What becomes smaller from a job to its parts. -/
def Settings.measure (settings : Settings) (at_ : Job × Moment) : Nat ×ₗ Nat ×ₗ Nat :=
  toLex (settings.room at_.2.env, toLex (at_.1.layer, at_.1.size))

section Measure

variable {settings : Settings} {job job' : Job} {m m' : Moment}

theorem measure_lt_of_room (room : settings.room m'.env < settings.room m.env) :
    settings.measure (job', m') < settings.measure (job, m) :=
  Prod.Lex.toLex_lt_toLex.mpr (.inl room)

theorem measure_lt_of_layer (room : settings.room m'.env = settings.room m.env)
    (layer : job'.layer < job.layer) : settings.measure (job', m') < settings.measure (job, m) :=
  Prod.Lex.toLex_lt_toLex.mpr (.inr ⟨room, Prod.Lex.toLex_lt_toLex.mpr (.inl layer)⟩)

theorem measure_lt_of_size (room : settings.room m'.env = settings.room m.env)
    (layer : job'.layer = job.layer) (size : job'.size < job.size) :
    settings.measure (job', m') < settings.measure (job, m) :=
  Prod.Lex.toLex_lt_toLex.mpr (.inr ⟨room, Prod.Lex.toLex_lt_toLex.mpr (.inr ⟨layer, size⟩)⟩)

end Measure

/-- Numbers are no built-ins, so a loop has none to pass on. -/
theorem loopArguments_not_builtin (f : Value) (indices : List Nat) :
    (Builtin.loopArguments f indices).any Value.isBuiltin = false := by
  rw [List.any_eq_false]
  intro v member
  obtain ⟨x, rfl⟩ := loopArguments_numeric f indices v member
  simp [Value.isBuiltin]

/-- A loop is one layer less than the call of the built-in that begins it. -/
theorem layer_sweep {name name' : String} {b : Builtin} {f : Value} {args : List Value}
    (given : f ∈ args) (cells : List (List Nat)) (last : Value) :
    (Job.sweep name' f cells last).layer < (Job.call name (.builtin b) args).layer := by
  simp only [Job.layer, Value.isBuiltin_builtin, if_true]
  cases callable : f.isBuiltin with
  | true =>
    have among : args.any Value.isBuiltin = true := List.any_eq_true.mpr ⟨f, given, callable⟩
    simp [among]
  | false =>
    rw [if_neg Bool.false_ne_true]
    split_ifs <;> omega

/-- A part of a job is smaller than the job. -/
theorem Spawns.smaller {settings : Settings} {job job' : Job} {m m' : Moment}
    (spawned : Spawns settings job m job' m') :
    settings.measure (job', m') < settings.measure (job, m) := by
  cases spawned with
  | abscissa | source | statements | passed | labelled =>
    refine measure_lt_of_size rfl rfl ?_
    simp only [Job.size, Node.size]
    omega
  | ordinate _ before | target _ before =>
    refine measure_lt_of_size before.room_eq rfl ?_
    simp only [Job.size, Node.size]
    omega
  | arguments | placement =>
    refine measure_lt_of_size rfl rfl ?_
    simp only [Job.size, Node.size, Node.sizes_attrs]
    omega
  | properties _ _ before =>
    refine measure_lt_of_size before.room_eq rfl ?_
    simp only [Job.size, Node.size, Node.sizes_attrs]
    omega
  | attributes _ first _ second =>
    refine measure_lt_of_size (second.room_eq.trans first.room_eq) rfl ?_
    simp only [Job.size, Node.size, Node.sizes_attrs]
    omega
  | block _ before =>
    have room : settings.room (Moment.opened _).env = settings.room m.env := before.room_eq
    refine measure_lt_of_size room rfl ?_
    simp only [Job.size, Node.size]
    omega
  | called _ _ before =>
    refine measure_lt_of_layer before.room_eq ?_
    simp only [Job.layer]
    split_ifs <;> omega
  | head =>
    refine measure_lt_of_size rfl rfl ?_
    simp only [Job.size, Node.sizes]
    omega
  | tail before =>
    refine measure_lt_of_size before.room_eq rfl ?_
    simp only [Job.size, Node.sizes]
    omega
  | endNode => exact measure_lt_of_size rfl rfl (Nat.lt_succ_self _)
  | entered prepared =>
    refine measure_lt_of_room ?_
    rw [prepare_room prepared]
    exact Nat.lt_succ_self _
  | repeated | gridded => exact measure_lt_of_layer rfl (layer_sweep (by simp) _ _)
  | @cell _ f indices =>
    have numeric := loopArguments_not_builtin f indices
    cases given : f.isBuiltin with
    | true => exact measure_lt_of_layer rfl (by simp [Job.layer, numeric, given])
    | false => exact measure_lt_of_size rfl (by simp [Job.layer, given]) (by simp [Job.size])
  | cells before => exact measure_lt_of_size before.room_eq rfl (by simp [Job.size])

/-- The parts of a job at a moment. -/
def parts (settings : Settings) (job : Job) (m : Moment) : Set (Job × Moment) :=
  {p | Spawns settings job m p.1 p.2}

section Parts

variable {settings : Settings} {job : Job} {m : Moment}

/-- What follows a job that has succeeded is finite if it is so for each way to succeed. -/
theorem finite_behind (settings : Settings) (job : Job) (m : Moment)
    {next : List Value → Moment → Set (Job × Moment)} (finite : ∀ vs m', (next vs m').Finite) :
    {p | ∃ vs m', Derived settings job m vs m' ∧ p ∈ next vs m'}.Finite := by
  by_cases ends : ∃ vs m', Derived settings job m vs m'
  · obtain ⟨vs, m', derived⟩ := ends
    refine (finite vs m').subset ?_
    rintro p ⟨ws, m'', derived', member⟩
    obtain ⟨rfl, rfl⟩ := derived.unique derived'
    exact member
  · refine Set.finite_empty.subset ?_
    rintro p ⟨vs, m', derived, _⟩
    exact ends ⟨vs, m', derived⟩

/-- A job with no more than one part. -/
theorem parts_finite_of_one (same : ∀ {part at_ part' at'}, Spawns settings job m part at_ →
    Spawns settings job m part' at' → (part, at_) = (part', at')) : (parts settings job m).Finite :=
  Set.Subsingleton.finite fun _ one _ two => same one two

/-- A job with a part that begins with it and one that begins where that part ends. -/
theorem parts_finite_of_two (first : Job) (second : List Value → Moment → Job × Moment)
    (cover : ∀ {part at_}, Spawns settings job m part at_ → (part, at_) = (first, m) ∨
      ∃ vs m', Derived settings first m vs m' ∧ (part, at_) = second vs m') :
    (parts settings job m).Finite := by
  have behind := finite_behind settings first m fun vs m' => Set.finite_singleton (second vs m')
  exact ((Set.finite_singleton (first, m)).union behind).subset fun p spawned => cover spawned

theorem constraint_parts_finite (source target : Node) (kind : EdgeKind)
    (attrs : List (String × Node)) :
    (parts settings (.node (.constraint source kind target attrs)) m).Finite := by
  have first := Set.finite_singleton (Job.endpoint source, m)
  have second := finite_behind settings (.endpoint source) m fun _ m' =>
    Set.finite_singleton (Job.endpoint target, m')
  have third := finite_behind settings (.endpoint source) m fun _ m' =>
    finite_behind settings (.endpoint target) m' fun _ m'' =>
      Set.finite_singleton (Job.nodes (attrs.map Prod.snd), m'')
  refine (first.union (second.union third)).subset ?_
  rintro ⟨_, _⟩ spawned
  cases spawned with
  | source => exact .inl rfl
  | target _ before => exact .inr (.inl ⟨_, _, before, rfl⟩)
  | attributes _ one _ two => exact .inr (.inr ⟨_, _, one, _, _, two, rfl⟩)

theorem node_parts_finite (node : Node) : (parts settings (.node node) m).Finite := by
  cases node with
  | vector x y =>
    refine parts_finite_of_two (.node x) (fun _ m' => (.node y, m')) fun spawned => ?_
    cases spawned with
    | abscissa => exact .inl rfl
    | ordinate _ before => exact .inr ⟨_, _, before, rfl⟩
  | body name args attrs =>
    refine parts_finite_of_two (.nodes args) (fun _ m' => (.nodes (attrs.map Prod.snd), m'))
      fun spawned => ?_
    cases spawned with
    | arguments => exact .inl rfl
    | properties _ _ before => exact .inr ⟨_, _, before, rfl⟩
  | constraint source kind target attrs => exact constraint_parts_finite source target kind attrs
  | scope block attrs =>
    refine parts_finite_of_two (.nodes (attrs.map Prod.snd)) (fun _ m' => (.node block, m'.opened))
      fun spawned => ?_
    cases spawned with
    | placement => exact .inl rfl
    | block _ before => exact .inr ⟨_, _, before, rfl⟩
  | call callee args =>
    refine parts_finite_of_two (.nodes args)
      (fun vs m' => (.call callee ((m.env.callee callee).toOption.getD .unit) vs, m'))
      fun spawned => ?_
    cases spawned with
    | passed => exact .inl rfl
    | called _ found before => exact .inr ⟨_, _, before, by rw [found]; rfl⟩
  | composite | label | function | symbol | number | string | bool =>
    refine parts_finite_of_one fun one two => ?_
    cases one <;> cases two <;> rfl

theorem call_parts_finite (name : String) (f : Value) (args : List Value) :
    (parts settings (.call name f args) m).Finite := by
  refine parts_finite_of_one fun one two => ?_
  cases one with
  | entered prepared =>
    cases two with
    | entered prepared' =>
      cases prepared.symm.trans prepared'
      rfl
  | repeated often =>
    cases two with
    | repeated often' =>
      cases often.symm.trans often'
      rfl
  | gridded wide high =>
    cases two with
    | gridded wide' high' =>
      cases wide.symm.trans wide'
      cases high.symm.trans high'
      rfl

/-- A job has finitely many parts. -/
theorem parts_finite (settings : Settings) (job : Job) (m : Moment) :
    (parts settings job m).Finite := by
  cases job with
  | node node => exact node_parts_finite node
  | nodes nodes =>
    cases nodes with
    | nil => exact parts_finite_of_one fun one _ => nomatch one
    | cons node nodes =>
      refine parts_finite_of_two (.node node) (fun _ m' => (.nodes nodes, m')) fun spawned => ?_
      cases spawned with
      | head => exact .inl rfl
      | tail before => exact .inr ⟨_, _, before, rfl⟩
  | endpoint node =>
    refine parts_finite_of_one fun one two => ?_
    cases one
    cases two
    rfl
  | call name f args => exact call_parts_finite name f args
  | sweep name f cells last =>
    cases cells with
    | nil => exact parts_finite_of_one fun one _ => nomatch one
    | cons indices cells =>
      refine parts_finite_of_two (.call name f (Builtin.loopArguments f indices))
        (fun vs m' => (.sweep name f cells (vs.getLastD .unit), m')) fun spawned => ?_
      cases spawned with
      | cell => exact .inl rfl
      | cells before => exact .inr ⟨_, _, before, rfl⟩

end Parts

/-- What a job carries out is itself and what its parts carry out. -/
theorem visits_iff {settings : Settings} {job job' : Job} {m m' : Moment} :
    Visits settings job m job' m' ↔ (job', m') = (job, m) ∨
      ∃ part at_, Spawns settings job m part at_ ∧ Visits settings part at_ job' m' := by
  constructor
  · intro visited
    induction visited with
    | here => exact .inl rfl
    | part _ spawned ih =>
      rcases ih with start | ⟨part, at_, first, later⟩
      · cases start
        exact .inr ⟨_, _, spawned, .here⟩
      · exact .inr ⟨part, at_, first, later.part spawned⟩
  · rintro (start | ⟨part, at_, spawned, visited⟩)
    · cases start
      exact .here
    · exact Visits.trans (.part .here spawned) visited

/-- Every chain of parts of parts ends. -/
theorem spawns_wellFounded (settings : Settings) :
    WellFounded fun part whole : Job × Moment => Spawns settings whole.1 whole.2 part.1 part.2 :=
  Subrelation.wf Spawns.smaller (InvImage.wf settings.measure wellFounded_lt)

/-- What a job carries out is finite. -/
theorem visits_finite (settings : Settings) (job : Job) (m : Moment) :
    {p : Job × Moment | Visits settings job m p.1 p.2}.Finite := by
  have all (whole : Job × Moment) :
      {p : Job × Moment | Visits settings whole.1 whole.2 p.1 p.2}.Finite := by
    induction whole using (spawns_wellFounded settings).induction with
    | _ whole ih =>
      have inside := (parts_finite settings whole.1 whole.2).biUnion ih
      refine ((Set.finite_singleton whole).union inside).subset ?_
      rintro p visited
      rcases visits_iff.mp visited with start | ⟨part, at_, spawned, later⟩
      · exact .inl start
      · exact .inr (Set.mem_biUnion (x := (part, at_)) spawned later)
  exact all (job, m)

/-- Nothing is carried out with more open calls than there may be, unless the job begins so. -/
theorem Visits.depth_le {settings : Settings} {job job' : Job} {m m' : Moment}
    (visited : Visits settings job m job' m') :
    m'.env.depth ≤ max m.env.depth settings.maxCallDepth := by
  induction visited with
  | here => exact Nat.le_max_left _ _
  | part _ spawned ih =>
    cases spawned with
    | abscissa | arguments | source | statements | placement | labelled | passed | head | endNode
    | repeated | gridded | cell => exact ih
    | ordinate _ before | properties _ _ before | target _ before | called _ _ before | tail before
    | cells before => exact before.depth_eq ▸ ih
    | attributes _ first _ second => exact second.depth_eq ▸ first.depth_eq ▸ ih
    | block _ before => exact (before.depth_eq ▸ ih : _ ≤ _)
    | entered prepared =>
      obtain ⟨_, shallow, rfl⟩ := prepare_ok_iff.mp prepared
      exact Nat.le_trans shallow (Nat.le_max_right _ _)

/-- Evaluation ends.  The evaluator is what solves its recursion, up to the limit or to the depth at
which it begins; it carries out finitely many jobs, none of which is a part of itself, and none with
more open calls than that; and it answers a result or an error, the result at the depth at which it
began. -/
theorem evaluation_terminates (settings : Settings) (node : Node) (env : Environment) (run : Run) :
    (∀ F, Solves settings (max env.depth settings.maxCallDepth) F ↔
      ∀ part env', env'.depth ≤ max env.depth settings.maxCallDepth →
        F part env' = part.eval settings env') ∧
    (WellFounded fun part whole : Job × Moment =>
      Spawns settings whole.1 whole.2 part.1 part.2) ∧
    {p : Job × Moment | Visits settings (.node node) ⟨env, run⟩ p.1 p.2}.Finite ∧
    (∀ job m, Visits settings (.node node) ⟨env, run⟩ job m →
      m.env.depth ≤ max env.depth settings.maxCallDepth) ∧
    ∃ answer run', node.eval settings env run = (answer, run') ∧
      ∀ env' v, answer = .ok (env', v) → env'.depth = env.depth := by
  have solved (F : Node → Step) := solves_iff_eval settings F (Nat.le_max_right env.depth _)
  have visited := visits_finite settings (.node node) ⟨env, run⟩
  refine ⟨solved, spawns_wellFounded settings, visited, fun _ _ => Visits.depth_le, ?_⟩
  refine ⟨_, _, rfl, fun env' v succeeds => ?_⟩
  exact (eval_agree settings env.depth node env rfl).kept (Prod.ext succeeds rfl)

/-- A function that calls itself through a loop. -/
def callsItself : Node :=
  .composite [
    .label "f" (.function ["i"] (.call "repeat" [.number 2, .symbol "f"])),
    .call "f" [.number 0]]

/-- It is stopped at the limit, after finitely many jobs, none of them deeper than the limit. -/
theorem callsItself_ends :
    (callsItself.eval { maxCallDepth := 3 } .empty {}).1 = .error (.stackOverflow 3 3) ∧
    {p : Job × Moment |
      Visits { maxCallDepth := 3 } (.node callsItself) ⟨.empty, {}⟩ p.1 p.2}.Finite ∧
    ∀ job m, Visits { maxCallDepth := 3 } (.node callsItself) ⟨.empty, {}⟩ job m →
      m.env.depth ≤ 3 := by
  obtain ⟨_, _, visited, depth, _⟩ :=
    evaluation_terminates { maxCallDepth := 3 } callsItself .empty {}
  exact ⟨rfl, visited, depth⟩

end RigidScene
