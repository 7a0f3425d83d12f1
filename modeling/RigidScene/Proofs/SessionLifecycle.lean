import RigidScene.Proofs.Build.Following
import RigidScene.Proofs.Build.Validation
import RigidScene.Session

/-!
What a session keeps through runs and stops, whichever calls its engine refuses.

`History.Consistent` is the invariant: without a world the engine is empty, and a world is the one
that an empty engine would make of the scene of the last run that succeeded.  A run that is turned
down before the engine is asked leaves everything as it is; every other run begins to build in an
empty engine, which is what `Slot.run_checked` says.  A stop leaves the engine as such a run finds
it (`Session.stop_slot`).
-/

namespace RigidScene

/-- The scene that a source stands for; nothing but the notation and the settings matters. -/
def Scene.ofSource (form : Syntax.SourceForm) (config : Config) (source : String) :
    Except SceneError Scene :=
  match Node.ofSource form source with
  | .error error => .error error
  | .ok program =>
    match Scene.ofNode config.eval program {} with
    | (.error error, _) => .error (.eval error)
    | (.ok scene, _) => .ok scene

/-- The scene of a source, checked: all that a run does before it turns to the engine. -/
def Scene.prepare (form : Syntax.SourceForm) (config : Config) (source : String) :
    Except SceneError Scene :=
  match Scene.ofSource form config source with
  | .error error => .error error
  | .ok scene =>
    match scene.check config.build with
    | .error error => .error (.build error)
    | .ok () => .ok scene

theorem Scene.check_of_prepare {form : Syntax.SourceForm} {config : Config} {source : String}
    {scene : Scene} (prepared : prepare form config source = .ok scene) :
    ofSource form config source = .ok scene ∧ scene.check config.build = .ok () := by
  unfold prepare at prepared
  cases evaluated : ofSource form config source with
  | error error =>
    simp only [evaluated] at prepared
    cases prepared
  | ok made =>
    cases checked : made.check config.build with
    | error error =>
      simp only [evaluated, checked] at prepared
      cases prepared
    | ok done =>
      simp only [evaluated, checked] at prepared
      cases prepared
      exact ⟨rfl, checked⟩

/-- The world holds nothing but an empty root. -/
def World.Bare (w : World) : Prop :=
  w = { teardowns := w.teardowns }

theorem World.Bare.isEmpty {w : World} (bare : w.Bare) : w.isEmpty = true := by
  rw [bare]
  rfl

/-- The world is the one that an empty engine makes of a scene, and so is its index. -/
def LiveWorld.Shows (world : LiveWorld (Journal World)) (scene : Scene) : Prop :=
  ∃ made, World.engine.build world.options scene .empty = (.ok world.index, made) ∧
    world.state.state = { made with teardowns := world.state.state.teardowns }

section Slot

variable {σ : Type} (e : Engine σ) {options : BuildOptions} {scene : Scene} {slot : Slot σ}

/-- The engine after the world in it, if there is one, has been removed. -/
def Slot.ground (slot : Slot σ) : σ :=
  (slot.stop e).state

/-- The world in a slot was built with the given options. -/
def Slot.BuiltWith (slot : Slot σ) (options : BuildOptions) : Prop :=
  ∀ world, slot = .live world → world.options = options

/-- A scene that fails the check leaves a slot as it is. -/
theorem Slot.run_rejected (fits : slot.BuiltWith options) {error : BuildError}
    (failed : scene.check options = .error error) :
    slot.run e options scene = (.error error, slot) := by
  cases slot with
  | idle state => simp only [Slot.run, LiveWorld.launch, failed]
  | live world =>
    have same : world.options = options := fits world rfl
    simp only [Slot.run, LiveWorld.restart, same, failed]

/-- A scene that passes the check is built in an engine without a world; an engine that fails is
cleared. -/
theorem Slot.run_checked (fits : slot.BuiltWith options) (checked : scene.check options = .ok ()) :
    slot.run e options scene = match e.build options scene (slot.ground e) with
      | (.ok index, state) => (.ok (), .live ⟨state, index, options⟩)
      | (.error error, state) => (.error error, .idle (e.teardown state)) := by
  cases slot with
  | idle state =>
    simp only [Slot.run, LiveWorld.launch, checked, Slot.ground, Slot.stop, Slot.state]
    rcases e.build options scene state with ⟨_ | index, state⟩ <;> rfl
  | live world =>
    have same : world.options = options := fits world rfl
    simp only [Slot.run, LiveWorld.restart, LiveWorld.launch, same, checked, Slot.ground,
      Slot.stop, Slot.state]
    rcases e.build options scene (world.stop e) with ⟨_ | index, state⟩ <;> rfl

end Slot

namespace Session

variable {σ : Type} (e : Engine σ) (s : Session σ) (source : String)

theorem run_form : (s.run e source).2.form = s.form := by
  unfold Session.run
  repeat' split
  all_goals rfl

theorem run_config : (s.run e source).2.config = s.config := by
  unfold Session.run
  repeat' split
  all_goals rfl

/-- A stop leaves no world. -/
theorem stop_slot : (s.stop e).slot = .idle (s.slot.ground e) := by
  show s.slot.stop e = .idle (s.slot.stop e).state
  cases s.slot <;> rfl

/-- A source without a scene leaves the slot as it is; a scene goes to the slot. -/
theorem run_eq : ((s.run e source).1, (s.run e source).2.slot) =
    match Scene.ofSource s.form s.config source with
    | .error error => (.error error, s.slot)
    | .ok scene =>
      match s.slot.run e s.config.build scene with
      | (.error error, slot) => (.error (.build error), slot)
      | (.ok (), slot) => (.ok scene, slot) := by
  unfold Session.run Scene.ofSource
  cases Node.ofSource s.form source with
  | error error => rfl
  | ok program =>
    dsimp only
    rcases Scene.ofNode s.config.eval program {} with ⟨_ | scene, run⟩
    · rfl
    · dsimp only
      rcases s.slot.run e s.config.build scene with ⟨_ | _, slot⟩ <;> rfl

variable {s source}

/-- A run that is turned down before the engine is asked changes nothing. -/
theorem run_unprepared (fits : s.slot.BuiltWith s.config.build) {error : SceneError}
    (failed : Scene.prepare s.form s.config source = .error error) :
    ((s.run e source).1, (s.run e source).2.slot) = (.error error, s.slot) := by
  rw [run_eq]
  unfold Scene.prepare at failed
  cases evaluated : Scene.ofSource s.form s.config source with
  | error fault =>
    simp only [evaluated] at failed
    rw [← Except.error.inj failed]
  | ok scene =>
    cases checked : scene.check s.config.build with
    | ok done =>
      simp only [evaluated, checked] at failed
      cases failed
    | error fault =>
      simp only [evaluated, checked] at failed
      rw [← Except.error.inj failed]
      simp only [Slot.run_rejected e fits checked]

/-- A run that gets to the engine begins to build in an engine without a world. -/
theorem run_prepared (fits : s.slot.BuiltWith s.config.build) {scene : Scene}
    (prepared : Scene.prepare s.form s.config source = .ok scene) :
    ((s.run e source).1, (s.run e source).2.slot) =
      match e.build s.config.build scene (s.slot.ground e) with
      | (.ok index, state) => (.ok scene, .live ⟨state, index, s.config.build⟩)
      | (.error error, state) => (.error (.build error), .idle (e.teardown state)) := by
  obtain ⟨evaluated, checked⟩ := Scene.check_of_prepare prepared
  rw [run_eq, evaluated]
  simp only [Slot.run_checked e fits checked]
  rcases e.build s.config.build scene (s.slot.ground e) with ⟨_ | index, state⟩ <;> rfl

end Session

/-- What may be asked of a session.  A run is asked to stop before or after it, never during it. -/
inductive Session.Command where
  | run (source : String)
  | stop
  | interrupt

/-- A session, with the source and the scene of its last run that succeeded. -/
structure History (σ : Type) where
  session : Session σ
  last? : Option (String × Scene) := none

namespace History

/-- A history and one command more. -/
def perform {σ : Type} (e : Engine σ) (h : History σ) : Session.Command → History σ
  | .run source =>
    match h.session.run e source with
    | (.ok scene, session) => ⟨session, some (source, scene)⟩
    | (.error _, session) => ⟨session, h.last?⟩
  | .stop => ⟨h.session.stop e, h.last?⟩
  | .interrupt => ⟨h.session.interrupt, h.last?⟩

/-- A session keeps its notation and its settings; without a world its engine is empty, and its
world is that of the last run that succeeded. -/
structure Consistent (form : Syntax.SourceForm) (config : Config) (h : History (Journal World)) :
    Prop where
  sameForm : h.session.form = form
  sameConfig : h.session.config = config
  idle : ∀ j, h.session.slot = .idle j → j.state.Bare
  live : ∀ world, h.session.slot = .live world → world.options = config.build ∧
    ∃ source scene, h.last? = some (source, scene) ∧
      Scene.prepare form config source = .ok scene ∧ world.Shows scene

end History

/-- What a scheduled engine makes of a scene, if it does, an empty engine makes of it, too. -/
theorem shows_of_scheduled {schedule : Schedule} {options : BuildOptions} {scene : Scene}
    {index : BodyIndex} {j j' : Journal World} (bare : j.state.Bare)
    (checked : scene.check options = .ok ())
    (built : (World.engine.scheduled schedule).build options scene j = (.ok index, j')) :
    (⟨j', index, options⟩ : LiveWorld (Journal World)).Shows scene := by
  have passes := passes_of_check checked
  obtain ⟨w, plain, reached⟩ :=
    build_follows World.engine schedule _ scene j j.state index j' rfl built
  rw [bare, build_run passes] at plain
  obtain ⟨answer, made⟩ := Prod.mk.inj plain
  obtain rfl := Except.ok.inj answer
  refine ⟨_, build_run passes 0, ?_⟩
  show j'.state = _
  rw [reached, ← made]

namespace History

variable {form : Syntax.SourceForm} {config : Config} {h : History (Journal World)}

theorem Consistent.fits (kept : h.Consistent form config) :
    h.session.slot.BuiltWith h.session.config.build := by
  intro world here
  rw [kept.sameConfig]
  exact (kept.live world here).1

/-- Whoever has the world removed finds the engine empty. -/
theorem Consistent.ground_bare (kept : h.Consistent form config) (schedule : Schedule) :
    (h.session.slot.ground (World.engine.scheduled schedule)).state.Bare := by
  cases slot : h.session.slot with
  | idle j => exact kept.idle j slot
  | live world => rfl

/-- Nothing but the slot and the last run that succeeded matters. -/
theorem Consistent.of_same (kept : h.Consistent form config) {s : Session (Journal World)}
    (sameForm : s.form = h.session.form) (sameConfig : s.config = h.session.config)
    (sameSlot : s.slot = h.session.slot) : Consistent form config ⟨s, h.last?⟩ where
  sameForm := sameForm.trans kept.sameForm
  sameConfig := sameConfig.trans kept.sameConfig
  idle j here := kept.idle j (sameSlot.symm.trans here)
  live world here := kept.live world (sameSlot.symm.trans here)

theorem Consistent.stop (kept : h.Consistent form config) (schedule : Schedule) :
    Consistent form config (h.perform (World.engine.scheduled schedule) .stop) where
  sameForm := kept.sameForm
  sameConfig := kept.sameConfig
  idle j here := by
    cases (h.session.stop_slot _).symm.trans here
    exact kept.ground_bare schedule
  live world here := by cases (h.session.stop_slot _).symm.trans here

theorem Consistent.run (kept : h.Consistent form config) (schedule : Schedule) (source : String) :
    Consistent form config (h.perform (World.engine.scheduled schedule) (.run source)) := by
  have sameForm := h.session.run_form (World.engine.scheduled schedule) source
  have sameConfig := h.session.run_config (World.engine.scheduled schedule) source
  have bare := kept.ground_bare schedule
  rcases ran : h.session.run (World.engine.scheduled schedule) source with ⟨answer, s⟩
  rw [ran] at sameForm sameConfig
  cases attempt : Scene.prepare h.session.form h.session.config source with
  | error error =>
    have outcome := Session.run_unprepared (World.engine.scheduled schedule) kept.fits attempt
    rw [ran] at outcome
    obtain ⟨failed, sameSlot⟩ := Prod.mk.inj outcome
    obtain rfl : answer = .error error := failed
    simp only [perform, ran]
    exact kept.of_same sameForm sameConfig sameSlot
  | ok scene =>
    have outcome := Session.run_prepared (World.engine.scheduled schedule) kept.fits attempt
    rw [ran] at outcome
    -- The engine either refuses a call and is cleared, or it holds the world of the scene.
    rcases built : (World.engine.scheduled schedule).build h.session.config.build scene
      (h.session.slot.ground (World.engine.scheduled schedule)) with ⟨error | index, j⟩
    · rw [built] at outcome
      obtain ⟨failed, cleared⟩ := Prod.mk.inj outcome
      obtain rfl : answer = .error (.build error) := failed
      simp only [perform, ran]
      refine ⟨sameForm.trans kept.sameForm, sameConfig.trans kept.sameConfig, ?_, ?_⟩
      · intro j' here
        cases cleared.symm.trans here
        rfl
      · intro world here
        cases cleared.symm.trans here
    · rw [built] at outcome
      obtain ⟨done, started⟩ := Prod.mk.inj outcome
      obtain rfl : answer = .ok scene := done
      simp only [perform, ran]
      refine ⟨sameForm.trans kept.sameForm, sameConfig.trans kept.sameConfig, ?_, ?_⟩
      · intro j' here
        cases started.symm.trans here
      · intro world here
        cases started.symm.trans here
        have shows := shows_of_scheduled bare (Scene.check_of_prepare attempt).2 built
        rw [kept.sameForm, kept.sameConfig] at attempt
        exact ⟨congrArg Config.build kept.sameConfig, source, scene, rfl, attempt, shows⟩

/-- Every command keeps a session consistent. -/
theorem Consistent.perform (kept : h.Consistent form config) (schedule : Schedule)
    (command : Session.Command) :
    Consistent form config (h.perform (World.engine.scheduled schedule) command) := by
  cases command with
  | run source => exact kept.run schedule source
  | stop => exact kept.stop schedule
  | interrupt => exact kept.of_same rfl rfl rfl

/-- So does every sequence of commands. -/
theorem Consistent.performAll (kept : h.Consistent form config) (schedule : Schedule)
    (commands : List Session.Command) : Consistent form config
      (commands.foldl (History.perform (World.engine.scheduled schedule)) h) := by
  induction commands generalizing h with
  | nil => exact kept
  | cons command commands ih => exact ih (kept.perform schedule command)

/-- A session begins without a world. -/
theorem consistent_start (form : Syntax.SourceForm) (config : Config) (teardowns : Nat)
    (calls : List Call) :
    Consistent form config ⟨.start form config ⟨{ teardowns }, calls⟩, none⟩ where
  sameForm := rfl
  sameConfig := rfl
  idle j here := by
    cases here
    rfl
  live world here := nomatch here

end History

/-- Whatever has been asked of a session that began with an empty engine, and whichever calls were
refused: without a world the engine is empty; a world is the one that an empty engine makes of the
scene of the last run that succeeded, which its source and the settings decide; a run that fails
before it gets to the engine changes nothing; a run that gets there begins to build in an empty
engine; and a stop leaves no world and an empty engine, which is cleared once if there was a world
and not asked at all if there was none. -/
theorem session_lifecycle (schedule : Schedule) (form : Syntax.SourceForm) (config : Config)
    (teardowns : Nat) (calls : List Call) (commands : List Session.Command) :
    let e := World.engine.scheduled schedule
    let h := commands.foldl (History.perform e) ⟨.start form config ⟨{ teardowns }, calls⟩, none⟩
    let slot := h.session.slot
    (∀ j, slot = .idle j → j.state.Bare) ∧
    (∀ world, slot = .live world → world.options = config.build ∧
      ∃ source scene, h.last? = some (source, scene) ∧
        Scene.prepare form config source = .ok scene ∧ world.Shows scene) ∧
    (∀ source error, Scene.prepare form config source = .error error →
      (h.session.run e source).1 = .error error ∧ (h.session.run e source).2.slot = slot) ∧
    (∀ source scene, Scene.prepare form config source = .ok scene →
      (slot.ground e).state.Bare ∧
      ((h.session.run e source).1, (h.session.run e source).2.slot) =
        match e.build config.build scene (slot.ground e) with
        | (.ok index, j) => (.ok scene, .live ⟨j, index, config.build⟩)
        | (.error error, j) => (.error (.build error), .idle (e.teardown j))) ∧
    ∃ j, (h.session.stop e).slot = .idle j ∧ j.state.Bare ∧
      (∀ before, slot = .idle before → j = before) ∧
      ∀ world, slot = .live world → j.calls = world.state.calls ++ [.teardown] := by
  intro e h slot
  have kept : h.Consistent form config :=
    (History.consistent_start form config teardowns calls).performAll schedule commands
  refine ⟨kept.idle, kept.live, ?_, ?_, slot.ground e, h.session.stop_slot e,
    kept.ground_bare schedule, ?_, ?_⟩
  · intro source error failed
    rw [← kept.sameForm, ← kept.sameConfig] at failed
    exact Prod.mk.inj (Session.run_unprepared e kept.fits failed)
  · intro source scene prepared
    rw [← kept.sameForm, ← kept.sameConfig] at prepared
    rw [← kept.sameConfig]
    refine ⟨kept.ground_bare schedule, (Session.run_prepared e kept.fits prepared).trans ?_⟩
    rcases e.build h.session.config.build scene (slot.ground e) with ⟨_ | index, j⟩ <;> rfl
  · intro before idle
    rw [idle]
    rfl
  · intro world live
    rw [live]
    rfl

/-- A source, a stop and another source. -/
def circlesInTurn : List Session.Command :=
  [.run "circle 0 0 1", .stop, .run "circle 5 0 1; circle 9 0 1"]

/-- What there is behind the first `n` of these commands, if no call is refused. -/
def circlesInTurn.after (n : Nat) : History (Journal World) :=
  (circlesInTurn.take n).foldl (History.perform (World.engine.scheduled fun _ => none))
    ⟨.start .statements {} ⟨{}, []⟩, none⟩

/-- The world of the first source is gone before that of the second one is made. -/
theorem circlesInTurn_worlds :
    (∃ world scene, (circlesInTurn.after 1).session.slot = .live world ∧
      Scene.prepare .statements {} "circle 0 0 1" = .ok scene ∧ world.Shows scene ∧
      world.state.state.bodies.length = 1) ∧
    (∃ j, (circlesInTurn.after 2).session.slot = .idle j ∧ j.state.isEmpty = true) ∧
    ∃ world scene, (circlesInTurn.after 3).session.slot = .live world ∧
      Scene.prepare .statements {} "circle 5 0 1; circle 9 0 1" = .ok scene ∧ world.Shows scene ∧
      world.state.state.bodies.length = 2 := by
  have lifecycle (n : Nat) := session_lifecycle (fun _ => none) .statements {} 0 []
    (circlesInTurn.take n)
  have shown (n bodies : Nat) (text : String)
      (last : (circlesInTurn.after n).last?.map Prod.fst = some text)
      (made : (circlesInTurn.after n).session.slot.world?.map
        (fun world => world.state.state.bodies.length) = some bodies) :
      ∃ world scene, (circlesInTurn.after n).session.slot = .live world ∧
        Scene.prepare .statements {} text = .ok scene ∧ world.Shows scene ∧
        world.state.state.bodies.length = bodies := by
    obtain ⟨_, live, _⟩ := lifecycle n
    cases slot : (circlesInTurn.after n).session.slot with
    | idle j =>
      rw [slot] at made
      cases made
    | live world =>
      obtain ⟨_, source, scene, ran, prepared, shows⟩ := live world slot
      rw [show (circlesInTurn.after n).last? = some (source, scene) from ran] at last
      cases last
      rw [slot] at made
      exact ⟨world, scene, rfl, prepared, shows, Option.some.inj made⟩
  refine ⟨shown 1 1 _ (by decide +kernel) (by decide +kernel), ?_,
    shown 3 2 _ (by decide +kernel) (by decide +kernel)⟩
  obtain ⟨j, idle, bare, _⟩ := (lifecycle 1).2.2.2.2
  exact ⟨j, idle, bare.isEmpty⟩

end RigidScene
