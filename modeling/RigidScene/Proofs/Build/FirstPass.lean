import RigidScene.Proofs.Build.Lookup
import RigidScene.Proofs.World.Placement

/-!
What the first pass leaves in a world.

It never fails.  It adds the bodies of a composite behind those that are there, and the groups
behind the last group, which is the composite's own; it answers the index of the bodies and the
groups by which the second pass finds its way.
-/

namespace RigidScene

open Outcome Composite

variable (options : BuildOptions) {w : World}

/-- Bodies are made behind those that are there and listed in their group. -/
theorem buildBodies_run {front back : List WorldGroup} {group : WorldGroup}
    (placed : w.groups = front ++ group :: back) (bodies : List (Body Value)) (index : BodyIndex) :
    World.engine.buildBodies options front.length bodies index w =
      (.ok (index.enterAll w.bodies.length bodies), { w with
        bodies := w.bodies ++ bodies.map (Body.made options front.length)
        groups := front ++
          { group with bodies := group.bodies ++ .range' w.bodies.length bodies.length } :: back }) := by
  induction bodies generalizing w group index with
  | nil =>
    simp only [List.map_nil, List.append_nil, List.length_nil, List.range'_zero, ← placed]
    rfl
  | cons b bodies ih =>
    refine (bind_of_ok (World.createBody_run _)).trans ?_
    refine (bind_of_ok (World.addBody_run (w := { w with bodies := w.bodies ++ [_] })
      rfl placed)).trans ?_
    refine (ih rfl _).trans ?_
    simp only [List.length_append, List.map_cons, List.append_assoc, List.singleton_append,
      List.length_cons, List.range'_succ]
    rfl

/-- The groups of a composite go into the group around it. -/
theorem addGroup_groupsOf {kept : Constraint Value → Bool} {c : Composite Value}
    {front back : List WorldGroup} {group : WorldGroup} {g b k : Nat}
    (placed : w.groups = front ++ group :: back ++ c.groupsOf kept none g b k)
    (next : g = (front ++ group :: back).length) :
    World.engine.addGroup front.length g w = (.ok (), { w with
      groups := front ++ { group with groups := group.groups ++ [g] } ::
        (back ++ c.groupsOf kept (some front.length) g b k) }) := by
  rw [groupsOf_eq] at placed ⊢
  subst next
  refine (World.addGroup_run placed).trans ?_
  simp only [List.append_assoc, List.cons_append]

/-- Everything in a composite is made, and the groups of the composites in a list are made behind
all groups that are there. -/
theorem buildGroup_run :
    (∀ (c : Composite Value) (w : World) front group index, w.groups = front ++ [group] →
      World.engine.buildGroup options c front.length index w =
        (.ok (index.enterAll w.bodies.length c.walk, c.groupTree front.length), { w with
          bodies := w.bodies ++ c.settled options front.length
          groups := front ++
            { group with
              bodies := group.bodies ++ .range' w.bodies.length c.bodies.length
              groups := group.groups ++ handles c.composites (front.length + 1) } ::
            groupsOfAll (fun _ => false) c.composites front.length (front.length + 1)
              (w.bodies.length + c.bodies.length) 0 })) ∧
    ∀ (cs : List (Composite Value)) (w : World) front group back index,
      w.groups = front ++ group :: back →
      World.engine.buildGroups options cs front.length index w =
        (.ok (index.enterAll w.bodies.length (walkAll cs), groupTrees cs w.groups.length), { w with
          bodies := w.bodies ++ settledAll options cs w.groups.length
          groups := front ++
            { group with groups := group.groups ++ handles cs w.groups.length } :: back ++
              groupsOfAll (fun _ => false) cs front.length w.groups.length w.bodies.length 0 }) := by
  apply nesting_induction
  · intro c inside w front group index placed
    cases c with
    | mk id label bodies constraints composites transform props =>
      rw [Engine.buildGroup]
      refine (bind_of_ok (buildBodies_run options placed bodies index)).trans ?_
      refine (bind_of_ok (inside _ front _ [] _ rfl)).trans ?_
      simp only [settled, walk, groupTree, List.length_append, List.length_map, List.append_assoc,
        BodyIndex.enterAll_append, List.nil_append, List.length_cons, List.length_nil,
        List.cons_append]
      rfl
  · intro w front group back index placed
    rw [Engine.buildGroups]
    simp only [walkAll, BodyIndex.enterAll, groupTrees, settledAll, groupsOfAll, handles,
      List.append_nil, ← placed]
    rfl
  · intro c cs first rest w front group back index placed
    have made : World.engine.buildGroup options c w.groups.length index
        { w with groups := w.groups ++ [{ label := c.label }] } =
          (.ok (index.enterAll w.bodies.length c.walk, c.groupTree w.groups.length), { w with
            bodies := w.bodies ++ c.settled options w.groups.length
            groups := w.groups ++
              c.groupsOf (fun _ => false) none w.groups.length w.bodies.length 0 ++ [] }) := by
      refine (first _ w.groups _ index rfl).trans ?_
      rw [groupsOf_bare, List.append_nil]
      rfl
    have moved := World.place_run (w := { w with
        bodies := w.bodies ++ c.settled options w.groups.length
        groups := w.groups ++
          c.groupsOf (fun _ => false) none w.groups.length w.bodies.length 0 ++ [] })
      c.transform rfl rfl ((settled_lengths options).1 c _)
    have joined := addGroup_groupsOf (w := { w with
        bodies := w.bodies ++ (c.settled options w.groups.length).map c.transform.settle
        groups := w.groups ++
          c.groupsOf (fun _ => false) none w.groups.length w.bodies.length 0 ++ [] })
      (c := c) (g := w.groups.length) (by rw [List.append_nil, placed]) (by rw [placed])
    rw [Engine.buildGroups]
    refine (bind_of_ok (World.createGroup_run _)).trans ?_
    refine (bind_of_ok made).trans ?_
    refine (bind_of_ok moved).trans ?_
    refine (bind_of_ok joined).trans ?_
    refine (bind_of_ok (rest _ front _ _ _ rfl)).trans ?_
    have next : (front ++ { group with groups := group.groups ++ [w.groups.length] } ::
        (back ++ c.groupsOf (fun _ => false) (some front.length) w.groups.length w.bodies.length
          0)).length = w.groups.length + c.span := by
      rw [placed]
      simp only [List.length_append, List.length_cons, (groupsOf_lengths _).1]
      omega
    simp only [next, List.length_append, List.length_map, (settled_lengths options).1, walkAll,
      BodyIndex.enterAll_append, groupTrees, settledAll, handles, groupsOfAll_bare,
      List.append_assoc, List.cons_append, List.nil_append]
    rfl

end RigidScene
