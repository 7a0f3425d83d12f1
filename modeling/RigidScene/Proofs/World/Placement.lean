import RigidScene.Proofs.Build.Layout
import RigidScene.Proofs.World.Actions

/-!
Moving the bodies of a group that has been built.

The bodies below a group are those that its composite holds at any depth, each once, in some order.
So placing a group moves exactly the bodies that were made for it.
-/

namespace RigidScene.World

open Outcome Composite

variable {w : World}

/-- Changing bodies one after another changes each of them once. -/
theorem changeBodies_run (f : WorldBody → WorldBody) {handles : List BodyHandle}
    (once : handles.Nodup) (held : ∀ h ∈ handles, h < w.bodies.length) :
    changeBodies f handles w = (.ok (), { w with
      bodies := w.bodies.mapIdx fun i b => if i ∈ handles then f b else b }) := by
  induction handles generalizing w with
  | nil =>
    have same : w.bodies.mapIdx (fun i b => if i ∈ [] then f b else b) = w.bodies := by
      apply List.ext_getElem?
      simp
    rw [same]
    rfl
  | cons h rest ih =>
    rw [List.nodup_cons] at once
    have first : h < w.bodies.length := held h (List.mem_cons_self ..)
    refine (bind_of_ok (changeBody_run first f)).trans ?_
    refine (ih once.2 ?_).trans ?_
    · intro x member
      simpa using held x (List.mem_cons_of_mem _ member)
    · congr 2
      apply List.ext_getElem?
      intro i
      simp only [List.getElem?_mapIdx, List.getElem?_modify, Option.map_eq_map, Option.map_map]
      congr 1
      funext b
      by_cases here : h = i
      · subst here
        simp [once.1]
      · simp [here, Ne.symm here]

/-- Changing the last bodies of a world, in any order, changes them and no others. -/
theorem changeBodies_last (f : WorldBody → WorldBody) {handles : List BodyHandle}
    {old new : List WorldBody} (held : w.bodies = old ++ new)
    (last : handles.Perm (List.range' old.length new.length)) :
    changeBodies f handles w = (.ok (), { w with bodies := old ++ new.map f }) := by
  have member (i : Nat) : i ∈ handles ↔ old.length ≤ i ∧ i < old.length + new.length := by
    rw [last.mem_iff, List.mem_range'_1]
  have once : handles.Nodup := last.nodup_iff.mpr List.nodup_range'
  refine (changeBodies_run f once ?_).trans ?_
  · intro h inside
    rw [held, List.length_append]
    exact ((member h).mp inside).2
  · congr 2
    apply List.ext_getElem?
    intro i
    rw [held, List.getElem?_mapIdx]
    by_cases before : i < old.length
    · have outside : i ∉ handles := fun inside => Nat.not_le.mpr before ((member i).mp inside).1
      simp [List.getElem?_append_left before, outside]
    · have behind : old.length ≤ i := Nat.not_lt.mp before
      rw [List.getElem?_append_right behind, List.getElem?_append_right behind, List.getElem?_map]
      cases reached : new[i - old.length]? with
      | none => rfl
      | some b =>
        obtain ⟨bound, _⟩ := List.getElem?_eq_some_iff.mp reached
        have inside : i ∈ handles := (member i).mpr ⟨behind, by omega⟩
        simp [inside]

/-- The bodies below the group of a composite are those of the composite, each once. -/
theorem bodiesWithin_groupsOf {V : Type} (kept : Constraint V → Bool) :
    (∀ (c : Composite V) front parent b k back,
      w.groups = front ++ c.groupsOf kept parent front.length b k ++ back →
      ∀ room, c.span ≤ room → ∃ bodies, w.bodiesWithin room front.length = .ok bodies ∧
        bodies.Perm (List.range' b c.walk.length)) ∧
    ∀ (cs : List (Composite V)) front parent b k back,
      w.groups = front ++ groupsOfAll kept cs parent front.length b k ++ back →
      ∀ room, spanAll cs ≤ room → ∃ lists,
        (handles cs front.length).reverse.mapM (w.bodiesWithin room) = .ok lists ∧
          lists.flatten.Perm (List.range' b (walkAll cs).length) := by
  apply nesting_induction
  · intro c inside front parent b k back placed room enough
    rw [span_eq] at enough
    obtain ⟨room, rfl⟩ : ∃ n, room = n + 1 := ⟨room - 1, by omega⟩
    rw [groupsOf_eq, List.append_assoc, List.cons_append] at placed
    generalize head : (WorldGroup.mk _ _ _ _ _) = group at placed
    have found : w.groups[front.length]? = some group := by
      rw [placed, List.getElem?_append_right (Nat.le_refl _), Nat.sub_self,
        List.getElem?_cons_zero]
    have next : (front ++ [group]).length = front.length + 1 := List.length_append
    obtain ⟨lists, listed, all⟩ := inside (front ++ [group]) front.length
      (b + c.bodies.length) (k + c.constraints.countP kept) back
      (by rw [placed, next, List.append_assoc, List.append_assoc]; rfl) room (by omega)
    rw [next] at listed
    refine ⟨group.bodies ++ lists.flatten, ?_, ?_⟩
    · subst head
      rw [bodiesWithin, found]
      simp only [listed, bind, Except.bind, pure, Except.pure]
    · subst head
      rw [walk_eq, List.length_append, ← List.range'_append_1]
      exact all.append_left _
  · intro front parent b k back placed room enough
    exact ⟨[], rfl, .refl _⟩
  · intro c cs first rest front parent b k back placed room enough
    rw [spanAll_cons] at enough
    rw [groupsOfAll, ← List.append_assoc] at placed
    have next : (front ++ c.groupsOf kept (some parent) front.length b k).length =
        front.length + c.span := by
      rw [List.length_append, (groupsOf_lengths kept).1]
    obtain ⟨bodies, own, own_all⟩ := first front (some parent) b k _
      (by rw [placed, List.append_assoc]) room (by omega)
    obtain ⟨lists, listed, all⟩ := rest (front ++ c.groupsOf kept (some parent) front.length b k)
      parent (b + c.walk.length) (k + c.edges.countP kept) back (by rw [next, placed]) room
      (by omega)
    rw [next] at listed
    refine ⟨lists ++ [bodies], ?_, ?_⟩
    · rw [handles, List.reverse_cons, List.mapM_append, listed]
      simp only [List.mapM_cons, List.mapM_nil, own, bind, Except.bind, pure, Except.pure]
    · rw [walkAll, List.length_append, ← List.range'_append_1, List.flatten_append]
      simp only [List.flatten_cons, List.flatten_nil, List.append_nil]
      exact List.perm_append_comm.trans (own_all.append all)

/-- Placing a group that has just been built moves what is in it and nothing else. -/
theorem place_run {V : Type} {kept : Constraint V → Bool} {c : Composite V}
    {front back : List WorldGroup} {parent : Option GroupHandle} {old new : List WorldBody}
    {k : Nat} (t : Transform)
    (placed : w.groups = front ++ c.groupsOf kept parent front.length old.length k ++ back)
    (held : w.bodies = old ++ new) (count : new.length = c.walk.length) :
    engine.place front.length t w = (.ok (), { w with bodies := old ++ new.map t.settle }) := by
  have enough : c.span ≤ w.groups.length + 1 := by
    rw [placed, List.length_append, List.length_append, (groupsOf_lengths kept).1]
    omega
  have moves (f : WorldBody → WorldBody) (bodies : List WorldBody)
      (same : bodies.length = new.length) :
      changeBodiesUnder front.length f { w with bodies := old ++ bodies } =
        (.ok (), { w with bodies := old ++ bodies.map f }) := by
    obtain ⟨handles, listed, all⟩ := (bodiesWithin_groupsOf (w := { w with bodies := old ++ bodies })
      kept).1 c front parent old.length k back placed _ enough
    rw [← count, ← same] at all
    refine (bind_of_ok rfl).trans ?_
    rw [World.bodiesUnder, listed]
    exact changeBodies_last f rfl all
  have start : w = { w with bodies := old ++ new } := by rw [← held]
  unfold Engine.place
  cases neutral : t.isIdentity with
  | true =>
    have settle : t.settle = fun b => b := by
      funext b
      simp [Transform.settle, neutral]
    rw [settle, List.map_id', ← start]
    rfl
  | false =>
    have settle : t.settle = (WorldBody.scaleBy t.scale t.translate) ∘
        (WorldBody.rotate (radians t.rotate) t.translate) ∘ (WorldBody.translate t.translate) := by
      funext b
      simp [Transform.settle, neutral]
    rw [start]
    refine (bind_of_ok (moves _ _ rfl)).trans ?_
    refine (bind_of_ok (moves _ _ (List.length_map ..))).trans ?_
    refine (moves _ _ (by simp)).trans ?_
    rw [settle, List.map_map, List.map_map]
    rfl

end RigidScene.World
