import RigidScene.Build.Passes

/-!
A world that is kept while scenes come and go.

Whoever starts a world gets the engine back when it is stopped.  A scene is checked before the
engine is touched, and an engine that fails halfway is cleared, so a start that fails leaves no
half of a world.  A restart whose scene fails the check keeps the world that is there.
-/

namespace RigidScene

/-- An engine with the world of a scene in it. -/
structure LiveWorld (σ : Type) where
  state : σ
  index : BodyIndex
  options : BuildOptions

/-- How a restart ends. -/
inductive Restart (σ : Type) where
  | done (world : LiveWorld σ)
  /-- The scene failed the check; the world is as it was. -/
  | rejected (error : BuildError) (previous : LiveWorld σ)
  /-- The engine failed after the world was removed; it is empty. -/
  | failed (error : BuildError) (state : σ)

namespace Restart

/-- The words for a restart that is turned down. -/
def rejectedMessage (e : BuildError) : String :=
  s!"restart rejected, previous world kept: {e.message}"

/-- The words for a restart that the engine fails. -/
def failedMessage (e : BuildError) : String :=
  s!"restart failed after teardown: {e.message}"

end Restart

namespace LiveWorld

variable {σ : Type} (e : Engine σ)

/-- Checks and builds a scene in an empty engine; answers the engine, too, if that fails. -/
def launch (options : BuildOptions) (scene : Scene) (state : σ) :
    Except (BuildError × σ) (LiveWorld σ) :=
  match scene.check options with
  | .error error => .error (error, state)
  | .ok () =>
    match e.build options scene state with
    | (.ok index, state) => .ok ⟨state, index, options⟩
    | (.error error, state) => .error (error, e.teardown state)

/-- Removes the world and gives the engine back. -/
def stop (world : LiveWorld σ) : σ :=
  e.teardown world.state

/-- Replaces the world by that of another scene. -/
def restart (world : LiveWorld σ) (scene : Scene) : Restart σ :=
  match scene.check world.options with
  | .error error => .rejected error world
  | .ok () =>
    match launch e world.options scene (world.stop e) with
    | .ok next => .done next
    | .error (error, state) => .failed error state

end LiveWorld

end RigidScene
