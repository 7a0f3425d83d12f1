import RigidScene.Proofs.Build.Congruence
import RigidScene.Proofs.World.Schedule

/-!
Building with one engine as with another.

If every call that one engine carries out is carried out by another one with the same answer, then
so is everything that is built with the first engine: it is built alike with the second.
-/

namespace RigidScene

open Outcome

/-- Whatever the first action does with success the second one does with the same answer. -/
def Act.Follows {σ τ α : Type} (R : σ → τ → Prop) (x : Act σ α) (y : Act τ α) : Prop :=
  ∀ s t a s', R s t → x s = (.ok a, s') → ∃ t', y t = (.ok a, t') ∧ R s' t'

section Follows

variable {σ τ α β : Type} {R : σ → τ → Prop}

theorem Act.Follows.pure (a : α) :
    Act.Follows R (pure a : Act σ α) (pure a : Act τ α) := by
  intro s t b s' related h
  obtain ⟨rfl, rfl⟩ := pure_ok_iff.mp h
  exact ⟨t, pure_ok_iff.mpr ⟨rfl, rfl⟩, related⟩

theorem Act.Follows.throw (e : BuildError) :
    Act.Follows R (throw e : Act σ α) (throw e : Act τ α) := by
  intro s t a s' _ h
  exact (throw_ok_iff.mp h).elim

theorem Act.Follows.bind {x : Act σ α} {y : Act τ α} {f : α → Act σ β} {g : α → Act τ β}
    (first : Act.Follows R x y) (rest : ∀ a, Act.Follows R (f a) (g a)) :
    Act.Follows R (x >>= f) (y >>= g) := by
  intro s t b s' related h
  obtain ⟨a, mid, ran, later⟩ := bind_ok_iff.mp h
  obtain ⟨mid', ran', related'⟩ := first s t a mid related ran
  obtain ⟨t', later', related''⟩ := rest a mid mid' b s' related' later
  exact ⟨t', bind_ok_iff.mpr ⟨a, mid', ran', later'⟩, related''⟩

/-- Following is kept by putting actions together. -/
def Act.Follows.congruence (R : σ → τ → Prop) : Act.Congruence σ τ where
  rel := Act.Follows R
  pure := .pure
  throw := .throw
  bind := .bind

end Follows

/-- A call that is carried out in spite of a schedule is carried out without it. -/
theorem scheduled_follows {σ : Type} (e : Engine σ) (schedule : Schedule) :
    Engine.Related (Act.Follows.congruence fun j s => j.state = s) (e.scheduled schedule) e := by
  have issued {α : Type} (call : Call) (act : Act σ α) :
      Act.Follows (fun j s => j.state = s) (Journal.issue schedule call act) act := by
    intro j s a j' same h
    obtain ⟨answered, _⟩ := Journal.issue_ok h
    exact ⟨j'.state, same ▸ answered, rfl⟩
  constructor
  · rfl
  all_goals
    intros
    exact issued _ _

/-- What is built in spite of a schedule is built alike without it. -/
theorem build_follows {σ : Type} (e : Engine σ) (schedule : Schedule) (options : BuildOptions)
    (scene : Scene) :
    Act.Follows (fun j s => j.state = s) ((e.scheduled schedule).build options scene)
      (e.build options scene) :=
  build_related (scheduled_follows e schedule) scene

end RigidScene
