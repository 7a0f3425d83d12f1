import RigidScene.Proofs.World.Membership
import RigidScene.Proofs.World.Placement

/-!
Moving each body once.

Where owners and lists agree, a group has one parent at most and a body one group.  So there is one
way down to everything that is below a group without rings, and the loop over the groups below it
comes to each body once (`Lists.nodup`).  A call that moves the group then moves each of these
bodies once.
-/

namespace RigidScene.World

open Outcome Relation

/-- The group holds the body directly. -/
def Holds (w : World) (g : GroupHandle) (b : BodyHandle) : Prop :=
  ∃ group, w.groups[g]? = some group ∧ b ∈ group.bodies

/-- The body is in the group, at any distance. -/
def Below (w : World) (g : GroupHandle) (b : BodyHandle) : Prop :=
  ∃ h, ReflTransGen w.Contains g h ∧ w.Holds h b

section Once

variable {w : World} {g h k : GroupHandle} {b : BodyHandle}

theorem contains_iff_members : w.Contains g h ↔
    ∃ held, (w.members .group)[g]? = some held ∧ h ∈ held := by
  simp [Contains, members]

theorem holds_iff_members : w.Holds g b ↔
    ∃ held, (w.members .body)[g]? = some held ∧ b ∈ held := by
  simp [Holds, members]

/-- A group is in one other group at most. -/
theorem Consistent.parent_unique (consistent : w.Consistent .group) (one : w.Contains g k)
    (two : w.Contains h k) : g = h := by
  obtain ⟨_, there, inside⟩ := contains_iff_members.mp one
  obtain ⟨_, there', inside'⟩ := contains_iff_members.mp two
  exact consistent.alone there there' k inside inside'

/-- A body is in one group at most. -/
theorem Consistent.holder_unique (consistent : w.Consistent .body) (one : w.Holds g b)
    (two : w.Holds h b) : g = h := by
  obtain ⟨_, there, inside⟩ := holds_iff_members.mp one
  obtain ⟨_, there', inside'⟩ := holds_iff_members.mp two
  exact consistent.alone there there' b inside inside'

/-- Of two groups above the same one, one is above the other. -/
theorem Consistent.above_total (consistent : w.Consistent .group)
    (one : ReflTransGen w.Contains g k) (two : ReflTransGen w.Contains h k) :
    ReflTransGen w.Contains g h ∨ ReflTransGen w.Contains h g := by
  have unique : Relator.RightUnique (Function.swap w.Contains) :=
    fun _ _ _ up up' => consistent.parent_unique up up'
  have total := ReflTransGen.total_of_right_unique unique (reflTransGen_swap.mpr one)
    (reflTransGen_swap.mpr two)
  exact total.symm.imp reflTransGen_swap.mp reflTransGen_swap.mp

theorem below_iff {group : WorldGroup} (known : w.groups[g]? = some group) :
    w.Below g b ↔ b ∈ group.bodies ∨ ∃ h ∈ group.groups, w.Below h b := by
  constructor
  · rintro ⟨k, path, holds⟩
    rcases ReflTransGen.cases_head path with rfl | ⟨h, ⟨group', known', inside⟩, rest⟩
    · obtain ⟨group', known', inside⟩ := holds
      cases known.symm.trans known'
      exact .inl inside
    · cases known.symm.trans known'
      exact .inr ⟨h, inside, k, rest, holds⟩
  · rintro (own | ⟨h, inside, k, path, holds⟩)
    · exact ⟨g, .refl, group, known, own⟩
    · exact ⟨k, .head ⟨group, known, inside⟩ path, holds⟩

/-- The loop over groups lists what is below them. -/
theorem Lists.mem_iff {pending : List GroupHandle} {bodies : List BodyHandle}
    (listed : w.Lists pending bodies) : b ∈ bodies ↔ ∃ g ∈ pending, w.Below g b := by
  induction listed with
  | done => simp
  | next known _ ih =>
    rw [List.mem_append, ih, List.exists_mem_cons_iff, below_iff known]
    simp only [List.mem_append, List.mem_reverse, or_and_right, exists_or]
    rw [or_assoc]

/-- Nothing is below both groups. -/
def Apart (w : World) (g h : GroupHandle) : Prop :=
  ∀ k, ReflTransGen w.Contains g k → ¬ ReflTransGen w.Contains h k

/-- Two groups in the same one have nothing in common, if no ring is below that one. -/
theorem Consistent.children_apart (consistent : w.Consistent .group) (unringed : w.Unringed g)
    {h h' : GroupHandle} (one : w.Contains g h) (two : w.Contains g h') (different : h ≠ h') :
    w.Apart h h' := by
  -- the one of the two that is above the other would be above their common parent
  have ring {a b : GroupHandle} (up : w.Contains g a) (down : w.Contains g b) (other : a ≠ b)
      (path : ReflTransGen w.Contains a b) : False := by
    rcases ReflTransGen.cases_tail path with same | ⟨p, above, last⟩
    · exact other same.symm
    · cases consistent.parent_unique last down
      exact unringed g .refl (.head' up above)
  intro k path path'
  rcases consistent.above_total path path' with above | above
  · exact ring one two different above
  · exact ring two one (Ne.symm different) above

/-- If nothing is in two groups, the loop over groups that have nothing in common lists each body
once. -/
theorem Lists.nodup {pending : List GroupHandle} {bodies : List BodyHandle}
    (listed : w.Lists pending bodies) (groups : w.Consistent .group) (held : w.Consistent .body)
    (apart : pending.Pairwise w.Apart) (unringed : ∀ g ∈ pending, w.Unringed g) : bodies.Nodup := by
  induction listed with
  | done => exact List.nodup_nil
  | @next g group rest bodies known later ih =>
    obtain ⟨first, others⟩ := List.pairwise_cons.mp apart
    obtain ⟨clear, clears⟩ := List.forall_mem_cons.mp unringed
    have step {h : GroupHandle} (inside : h ∈ group.groups) : w.Contains g h :=
      ⟨group, known, inside⟩
    have children : group.groups.Nodup :=
      groups.once _ (List.mem_map_of_mem (List.mem_of_getElem? known))
    have own : group.bodies.Nodup :=
      held.once _ (List.mem_map_of_mem (List.mem_of_getElem? known))
    have next : (group.groups.reverse ++ rest).Pairwise w.Apart := by
      refine List.pairwise_append.mpr ⟨?_, others, ?_⟩
      · rw [List.pairwise_reverse]
        refine children.imp_of_mem fun inside inside' different => ?_
        exact groups.children_apart clear (step inside') (step inside) (Ne.symm different)
      · intro h inside r member k path
        exact first r member k (.head (step (List.mem_reverse.mp inside)) path)
    have rest_clear : ∀ h ∈ group.groups.reverse ++ rest, w.Unringed h := by
      intro h member
      rcases List.mem_append.mp member with inside | behind
      · exact fun k path => clear k (.head (step (List.mem_reverse.mp inside)) path)
      · exact clears h behind
    refine List.nodup_append'.mpr ⟨own, ih next rest_clear, ?_⟩
    intro b inside again
    obtain ⟨h, member, k, path, holds⟩ := later.mem_iff.mp again
    cases held.holder_unique holds ⟨group, known, inside⟩
    rcases List.mem_append.mp member with child | behind
    · exact clear g .refl (.head' (step (List.mem_reverse.mp child)) path)
    · exact first h behind g .refl path

/-- The call succeeds, moves each body below the group once, and changes nothing else. -/
def MovesOnce (w : World) (g : GroupHandle) (call : Call) : Prop :=
  ∃ bodies, engine.perform call w = (.ok none, { w with bodies }) ∧
    ∀ b, (w.Below g b → bodies[b]? = w.bodies[b]?.map call.motion) ∧
      (¬ w.Below g b → bodies[b]? = w.bodies[b]?)

theorem Consistent.moves_once (groups : w.Consistent .group) (held : w.Consistent .body)
    (linked : w.Linked) (known : g < w.groups.length) (unringed : w.Unringed g) {call : Call}
    (moves : call.moved? = some g) : w.MovesOnce g call := by
  obtain ⟨handles, found⟩ := (bodiesUnder_iff linked known).mpr unringed
  have listed := bodiesWithin_lists found
  have once := listed.nodup groups held (List.pairwise_singleton ..)
    (List.forall_mem_singleton.mpr unringed)
  have below (b : BodyHandle) : b ∈ handles ↔ w.Below g b := by
    rw [listed.mem_iff]
    simp
  have changed : changeBodiesUnder g call.motion w = (.ok (), { w with
      bodies := w.bodies.mapIdx fun b body =>
        if b ∈ handles then call.motion body else body }) := by
    refine (bind_of_ok rfl).trans ?_
    rw [found]
    exact changeBodies_run call.motion once (listed.known linked)
  have answered := map_of_ok (f := fun _ => (none : Option Handle)) changed
  rw [← perform_eq_move moves] at answered
  refine ⟨_, answered, fun b => ⟨fun inside => ?_, fun outside => ?_⟩⟩
  · rw [List.getElem?_mapIdx]
    simp only [(below b).mpr inside, if_true]
  · rw [List.getElem?_mapIdx]
    simp [mt (below b).mp outside]

end Once

theorem replay_after {calls : List Call} {hs : List Handle} {w w' : World}
    (succeeded : engine.replay calls w = (.ok hs, w')) : w.after calls = w' := by
  induction calls generalizing w hs with
  | nil =>
    cases succeeded
    rfl
  | cons call rest ih =>
    simp only [Engine.replay, bind_ok_iff] at succeeded
    obtain ⟨_, mid, done, _, _, later, ended⟩ := succeeded
    obtain ⟨_, rfl⟩ := pure_ok_iff.mp ended
    rw [after, List.foldl_cons, performed, done]
    exact ih later

/-- Behind calls that all succeed, the owners of bodies, of groups and of constraints agree with the
lists exactly if, since the world was cleared last, nothing of that kind has been put into a group
twice.  Where they agree for bodies and groups, a call that moves a group moves each body below it
once and changes nothing else, if no ring is below the group. -/
theorem owners_agree_iff {calls : List Call} {hs : List Handle} {w : World}
    (succeeded : engine.replay calls empty = (.ok hs, w)) :
    (∀ kind, w.Consistent kind ↔ ((Call.entries kind calls).map Prod.snd).Nodup) ∧
    (w.Consistent .group → w.Consistent .body → ∀ g < w.groups.length, w.Unringed g →
      ∀ call, call.moved? = some g → w.MovesOnce g call) := by
  have linked : w.Linked := replay_after succeeded ▸ after_linked calls
  refine ⟨fun kind => (replay_records (empty_records kind) succeeded).consistent_iff, ?_⟩
  exact fun groups held g known unringed call moves =>
    groups.moves_once held linked known unringed moves

/-- A body is put into the inner one of two groups. -/
def bodyInInner : List Call :=
  [.createBody ⟨.circle 1, .origin, none, 0.9, 0.1, false, 0, none, []⟩, .createGroup none,
    .addGroup 0 1, .addBody 1 0]

/-- The outer group holds the body once and moves it. -/
theorem bodyInInner_agrees : ∃ hs w, engine.replay bodyInInner empty = (.ok hs, w) ∧
    (∀ kind, w.Consistent kind) ∧ w.Below 0 0 ∧ w.MovesOnce 0 (.translateGroup 0 ⟨1, 0⟩) := by
  have succeeded : engine.replay bodyInInner empty =
      (.ok [.body 0, .group 1], (engine.replay bodyInInner empty).2) := rfl
  generalize reached : (engine.replay bodyInInner empty).2 = w at succeeded
  obtain ⟨agree, moves⟩ := owners_agree_iff succeeded
  have consistent (kind : Member) : w.Consistent kind := (agree kind).mpr (by cases kind <;> decide)
  have linked : w.Linked := replay_after succeeded ▸ after_linked bodyInInner
  have known : 0 < w.groups.length := by rw [← reached]; decide
  have unringed : w.Unringed 0 :=
    (bodiesUnder_iff linked known).mp ⟨[0], by rw [← reached]; rfl⟩
  have inside : w.Below 0 0 := by
    rw [← reached]
    exact ⟨1, .single ⟨_, rfl, by decide⟩, _, rfl, by decide⟩
  exact ⟨_, w, succeeded, consistent, inside,
    moves (consistent .group) (consistent .body) 0 known unringed _ rfl⟩

/-- Then it is put into the outer one as well. -/
def bodyInBoth : List Call :=
  bodyInInner ++ [.addBody 0 0]

/-- That is accepted: both groups list the body, which has the outer one for its group, and a call
that moves the outer group moves it twice. -/
theorem bodyInBoth_disagrees : ∃ hs w, engine.replay bodyInBoth empty = (.ok hs, w) ∧
    w.owners .body = [some 0] ∧ w.members .body = [[0], [0]] ∧ ¬ w.Consistent .body ∧
    ∀ call, call.moved? = some 0 → ∃ w', engine.perform call w = (.ok none, w') ∧
      w'.bodies = w.bodies.map fun b => call.motion (call.motion b) := by
  refine ⟨[.body 0, .group 1], (engine.replay bodyInBoth empty).2, rfl, rfl, rfl, ?_, ?_⟩
  · intro consistent
    have same := consistent.alone (g := 0) (h := 1) rfl rfl 0 (by decide) (by decide)
    cases same
  · intro call moves
    rw [perform_eq_move moves]
    exact ⟨_, rfl, rfl⟩

end RigidScene.World
