import Mathlib.Data.List.Basic
import RigidScene.Proofs.Outcome
import RigidScene.World.Basic

/-!
What the actions of a world do when they succeed.

An action that is given handles of the world succeeds, and then the world is the same but for what
the action is for.  A group is written with what stands before and behind it, so that its handle is
the number of groups before it.
-/

namespace RigidScene.World

open Outcome

variable {w : World}

theorem modify_middle {α : Type} (front back : List α) (a : α) (f : α → α) :
    (front ++ a :: back).modify front.length f = front ++ f a :: back := by
  induction front with
  | nil => rfl
  | cons x front ih => simpa using ih

theorem changeBody_run {handle : BodyHandle} (held : handle < w.bodies.length)
    (f : WorldBody → WorldBody) :
    changeBody handle f w = (.ok (), { w with bodies := w.bodies.modify handle f }) := by
  refine (bind_of_ok rfl).trans ?_
  rw [if_pos held]
  rfl

theorem changeGroup_run {handle : GroupHandle} (held : handle < w.groups.length)
    (f : WorldGroup → WorldGroup) :
    changeGroup handle f w = (.ok (), { w with groups := w.groups.modify handle f }) := by
  refine (bind_of_ok rfl).trans ?_
  rw [if_pos held]
  rfl

theorem changeConstraint_run {handle : ConstraintHandle} (held : handle < w.constraints.length)
    (f : WorldConstraint → WorldConstraint) :
    changeConstraint handle f w =
      (.ok (), { w with constraints := w.constraints.modify handle f }) := by
  refine (bind_of_ok rfl).trans ?_
  rw [if_pos held]
  rfl

theorem createBody_run (spec : BodySpec) : createBody spec w =
    (.ok w.bodies.length, { w with bodies := w.bodies ++ [WorldBody.ofSpec spec] }) := rfl

theorem createGroup_run (label : Option String) : createGroup label w =
    (.ok w.groups.length, { w with groups := w.groups ++ [({ label } : WorldGroup)] }) := rfl

/-- A body that has just been made goes into a group. -/
theorem addBody_run {front back : List WorldGroup} {group : WorldGroup} {bodies : List WorldBody}
    {b : WorldBody} (held : w.bodies = bodies ++ [b]) (placed : w.groups = front ++ group :: back) :
    addBody front.length bodies.length w = (.ok (), { w with
      bodies := bodies ++ [{ b with group := some front.length }]
      groups := front ++ { group with bodies := group.bodies ++ [bodies.length] } :: back }) := by
  have inside : bodies.length < w.bodies.length := by simp [held]
  refine (bind_of_ok (changeBody_run inside _)).trans ?_
  refine (changeGroup_run ?_ _).trans ?_
  · simp [placed]
  · simp only [held, placed, modify_middle]

/-- A constraint that has just been made goes into a group. -/
theorem addConstraint_run {front back : List WorldGroup} {group : WorldGroup}
    {constraints : List WorldConstraint} {c : WorldConstraint}
    (held : w.constraints = constraints ++ [c]) (placed : w.groups = front ++ group :: back) :
    addConstraint front.length constraints.length w = (.ok (), { w with
      constraints := constraints ++ [{ c with group := some front.length }]
      groups := front ++
        { group with constraints := group.constraints ++ [constraints.length] } :: back }) := by
  have inside : constraints.length < w.constraints.length := by simp [held]
  refine (bind_of_ok (changeConstraint_run inside _)).trans ?_
  refine (changeGroup_run ?_ _).trans ?_
  · simp [placed]
  · simp only [held, placed, modify_middle]

/-- A group behind another one goes into it. -/
theorem addGroup_run {front mid back : List WorldGroup} {parent child : WorldGroup}
    (placed : w.groups = front ++ parent :: mid ++ child :: back) :
    addGroup front.length (front ++ parent :: mid).length w = (.ok (), { w with
      groups := front ++
        { parent with groups := parent.groups ++ [(front ++ parent :: mid).length] } :: mid ++
          { child with parent := some front.length } :: back }) := by
  have apart : front.length ≠ (front ++ parent :: mid).length := by simp
  have exists_child : (front ++ parent :: mid).length < w.groups.length := by simp [placed]
  have exists_parent : front.length < (w.groups.modify (front ++ parent :: mid).length
      ({ · with parent := some front.length })).length := by simp [placed]
  unfold addGroup
  rw [if_neg apart]
  refine (bind_of_ok rfl).trans ?_
  refine (bind_of_ok (changeGroup_run exists_child _)).trans ?_
  refine (changeGroup_run exists_parent _).trans ?_
  simp only [placed, modify_middle]
  rw [List.append_assoc, List.cons_append, modify_middle]
  simp only [List.append_assoc, List.cons_append]

/-- A constraint between bodies of the world is made. -/
theorem createConstraint_run {spec : ConstraintSpec} (first : spec.first < w.bodies.length)
    (second : spec.second < w.bodies.length) : createConstraint spec w =
      (.ok w.constraints.length, { w with constraints := w.constraints ++ [⟨spec, none⟩] }) := by
  have first_known : ¬ w.bodies.length ≤ spec.first := Nat.not_le.mpr first
  have second_known : ¬ w.bodies.length ≤ spec.second := Nat.not_le.mpr second
  refine (bind_of_ok rfl).trans ?_
  simp only [first_known, second_known, if_false]
  rfl

end RigidScene.World
