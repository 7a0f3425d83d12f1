import Mathlib.Data.List.Nodup
import RigidScene.Proofs.Build.Prediction

/-!
Which unknown end is reported.

The build comes to the constraints of a scene in the order of `Composite.edges` and stops at the
first one with an unknown end: `build_reports_first`.  The check stops at the first one too, but in
the order of a stack, where of composites side by side the last one comes first: `edgesOnStack_eq`.
So the two agree on whether there is a fault and may still name different ones.
`check_agrees_iff` says when they name the same: all faults of the scene must be in one composite
that has a fault of its own.
-/

namespace RigidScene

open Outcome Composite

/-- The report of a constraint with an unknown end: the source, or the target if the source is
known. -/
def Constraint.report {V : Type} (locate : Endpoint → Option BodyHandle) (c : Constraint V) :
    BuildError :=
  .unresolvedEndpoint c.id (if (locate c.source).isNone then c.source else c.target)

/-- The report of the first constraint with an unknown end. -/
def firstReport? {V : Type} (locate : Endpoint → Option BodyHandle) (cs : List (Constraint V)) :
    Option BuildError :=
  (cs.find? fun c => !c.joins locate).map (Constraint.report locate)

theorem firstReport?_append {V : Type} (locate : Endpoint → Option BodyHandle)
    (front back : List (Constraint V)) : firstReport? locate (front ++ back) =
      (firstReport? locate front).or (firstReport? locate back) := by
  rw [firstReport?, List.find?_append, Option.map_or]
  rfl

/-- As far as the second action succeeds, the first one does the same or, if there is a fault,
fails with it. -/
def Act.Stops {σ α : Type} (fault : Option BuildError) (x y : Act σ α) : Prop :=
  ∀ s a s', y s = (.ok a, s') → match fault with
    | none => x s = (.ok a, s')
    | some error => ∃ t, x s = (.error error, t)

namespace Act.Stops

variable {σ α β : Type} {fault later : Option BuildError} {x y : Act σ α} {f g : α → Act σ β}

theorem refl (x : Act σ α) : Stops none x x :=
  fun _ _ _ ran => ran

theorem throw (error : BuildError) (y : Act σ α) : Stops (some error) (throw error) y :=
  fun s _ _ _ => ⟨s, rfl⟩

/-- The fault of two parts is that of the first one that has one. -/
theorem bind (first : Stops fault x y) (rest : ∀ a, Stops later (f a) (g a)) :
    Stops (fault.or later) (x >>= f) (y >>= g) := by
  intro s b s' ran
  obtain ⟨a, mid, begun, ended⟩ := bind_ok_iff.mp ran
  have one := first s a mid begun
  cases fault with
  | none =>
    rw [Option.none_or, bind_of_ok one]
    exact rest a mid b s' ended
  | some error =>
    obtain ⟨t, failed⟩ := one
    exact ⟨t, bind_of_error failed⟩

end Act.Stops

section Build

variable {σ : Type} (e : Engine σ) {options options' : BuildOptions} (index : BodyIndex)
  (strict : options.endpointPolicy = .strict)

include strict

/-- Where constraints with unknown ends are forbidden, the first one stops what is done under any
other options. -/
theorem buildConstraints_stops (group : GroupHandle) (constraints : List (Constraint Value)) :
    Act.Stops (firstReport? index.resolve? constraints)
      (e.buildConstraints options index group constraints)
      (e.buildConstraints options' index group constraints) := by
  induction constraints with
  | nil => exact .refl _
  | cons c constraints ih =>
    cases joins : c.joins index.resolve? with
    | true =>
      obtain ⟨first, second, source, target⟩ := joins_iff.mp joins
      have passed : firstReport? index.resolve? (c :: constraints) =
          firstReport? index.resolve? constraints := by
        simp [firstReport?, joins]
      simp only [passed, Engine.buildConstraints, source, target]
      apply (Act.Stops.refl (e.createConstraint _)).bind
      intro handle
      apply (Act.Stops.refl (e.addConstraint group handle)).bind
      intro _
      exact ih
    | false =>
      have stopped : firstReport? index.resolve? (c :: constraints) =
          some (c.report index.resolve?) := by
        simp [firstReport?, joins]
      have skipped : (Engine.skip options index c : Act σ Unit) =
          throw (c.report index.resolve?) := by
        rw [Engine.skip, strict]
        rfl
      -- Under other options the constraint may be skipped; here that is where the build ends.
      rw [buildConstraints_apart e group constraints joins,
        buildConstraints_apart e group constraints joins, stopped, skipped]
      exact (Act.Stops.throw _ _).bind fun _ => ih

/-- So does the first one of all constraints in a composite stop the second pass. -/
theorem connect_stops :
    (∀ (c : Composite Value) g, Act.Stops (firstReport? index.resolve? c.edges)
      (e.connect options index c (c.groupTree g)) (e.connect options' index c (c.groupTree g))) ∧
    ∀ (cs : List (Composite Value)) g, Act.Stops (firstReport? index.resolve? (edgesAll cs))
      (e.connectAll options index cs (groupTrees cs g))
      (e.connectAll options' index cs (groupTrees cs g)) := by
  apply nesting_induction
  · intro c inside g
    rw [connect_eq, connect_eq, edges_eq, firstReport?_append]
    apply (buildConstraints_stops e index strict g c.constraints).bind
    intro _
    exact inside (g + 1)
  · intro g
    exact .refl _
  · intro c cs first rest g
    rw [groupTrees, Engine.connectAll, Engine.connectAll, edgesAll, firstReport?_append]
    apply (first g).bind
    intro _
    exact rest (g + c.span)

omit index in
/-- The build in an empty world reports the first constraint of the scene with an unknown end. -/
theorem build_reports_first {scene : Scene} {first : Constraint Value}
    (found : scene.root.edges.find? (fun c => !c.joins scene.locate?) = some first) :
    ∃ w, World.engine.build options scene .empty =
      (.error (first.report scene.locate?), w) := by
  have ran := @connectRoot_run options { options with endpointPolicy := .lenient } scene
    (fun _ _ => .inr rfl) 0
  have stops := (connect_stops World.engine scene.index strict).1 scene.root 0 _ _ _ ran
  rw [index_resolve?, firstReport?, found] at stops
  obtain ⟨w, failed⟩ := stops
  exact ⟨w, (bind_of_ok (buildRoot_run options scene 0)).trans (bind_of_error failed)⟩

end Build

/-- A search for the first report is a search for the first constraint to report. -/
theorem findSome?_eq_map {α β : Type} {f : α → Option β} {p : α → Bool} {g : α → β}
    (holds : ∀ a, p a = true → f a = some (g a)) (fails : ∀ a, p a = false → f a = none)
    (as : List α) : as.findSome? f = (as.find? p).map g := by
  induction as with
  | nil => rfl
  | cons a as ih =>
    cases stops : p a with
    | true => simp [stops, holds a stops]
    | false => simp [stops, fails a stops, ih]

/-- The check searches the constraints in its own order. -/
theorem unresolved?_eq (s : Scene) :
    s.unresolved? = firstReport? s.locate? s.root.edgesLastFirst := by
  refine findSome?_eq_map ?_ ?_ _
  · intro c apart
    cases source : s.locate? c.source with
    | none => simp [Constraint.endWhere?, knows_eq, source, Constraint.report]
    | some first =>
      have target : s.locate? c.target = none := by
        simpa [Constraint.joins, source] using apart
      simp [Constraint.endWhere?, knows_eq, source, target, Constraint.report]
  · intro c joins
    obtain ⟨first, second, source, target⟩ : ∃ first second,
        s.locate? c.source = some first ∧ s.locate? c.target = some second :=
      joins_iff.mp (by simpa using joins)
    simp [Constraint.endWhere?, knows_eq, source, target]

/-- The check fails only where unknown ends are forbidden, with the report of the first one in its
order. -/
theorem check_error_iff {options : BuildOptions} {scene : Scene} {error : BuildError} :
    scene.check options = .error error ↔ options.endpointPolicy = .strict ∧
      firstReport? scene.locate? scene.root.edgesLastFirst = some error := by
  rw [← unresolved?_eq, Scene.check]
  cases options.endpointPolicy with
  | lenient => simp
  | strict => cases scene.unresolved? <;> simp

section Search

variable {α : Type} {p : α → Bool} {front as bs as' bs' : List α}

/-- The searches of two lists find the same. -/
def FindsAlike (p : α → Bool) (as bs : List α) : Prop :=
  ∃ a, as.find? p = some a ∧ bs.find? p = some a

/-- Lists that begin alike. -/
theorem findsAlike_front : FindsAlike p (front ++ as) (front ++ bs) ↔
    (∃ a ∈ front, p a = true) ∨ FindsAlike p as bs ∧ ∀ a ∈ front, p a = false := by
  simp only [FindsAlike, List.find?_append]
  cases found : front.find? p with
  | none =>
    have nothing : ∀ a ∈ front, p a = false := by simpa using found
    have none_there : ¬ ∃ a ∈ front, p a = true := by
      rintro ⟨a, member, holds⟩
      simp [nothing a member] at holds
    simp only [Option.none_or, none_there, false_or]
    exact ⟨fun alike => ⟨alike, nothing⟩, And.left⟩
  | some a =>
    have there : ∃ a ∈ front, p a = true :=
      ⟨a, List.mem_of_find?_eq_some found, List.find?_some found⟩
    simp [there]

/-- Lists of the same parts, which have nothing in common, in opposite orders: the searches find the
same if they do so in one part, and there is nothing to be found in the other. -/
theorem findsAlike_swap (apart : as.Disjoint bs) (same : ∀ a, a ∈ as' ↔ a ∈ as)
    (same' : ∀ b, b ∈ bs' ↔ b ∈ bs) : FindsAlike p (as ++ bs) (bs' ++ as') ↔
      (FindsAlike p as as' ∧ ∀ b ∈ bs, p b = false) ∨
        (FindsAlike p bs bs' ∧ ∀ a ∈ as, p a = false) := by
  have absent {as : List α} (found : as.find? p = none) : ∀ a ∈ as, p a = false := by
    simpa using found
  have present {as : List α} {a : α} (found : as.find? p = some a) : a ∈ as ∧ p a = true :=
    ⟨List.mem_of_find?_eq_some found, List.find?_some found⟩
  constructor
  · rintro ⟨k, first, last⟩
    rw [List.find?_append, Option.or_eq_some_iff] at first last
    rcases first with first | ⟨none_there, first⟩ <;> rcases last with last | ⟨none_behind, last⟩
    · exact absurd ((same' k).mp (present last).1) (apart (present first).1)
    · exact .inl ⟨⟨k, first, last⟩, fun b member => absent none_behind b ((same' b).mpr member)⟩
    · exact .inr ⟨⟨k, first, last⟩, absent none_there⟩
    · have holds := absent none_there k ((same k).mp (present last).1)
      rw [(present last).2] at holds
      cases holds
  · rintro (⟨⟨k, first, last⟩, nothing⟩ | ⟨⟨k, first, last⟩, nothing⟩)
    · have behind : bs'.find? p = none := by
        simpa using fun b member => nothing b ((same' b).mp member)
      exact ⟨k, by rw [List.find?_append, first, Option.some_or],
        by rw [List.find?_append, behind, Option.none_or, last]⟩
    · have before : as.find? p = none := by simpa using nothing
      exact ⟨k, by rw [List.find?_append, before, Option.none_or, first],
        by rw [List.find?_append, last, Option.some_or]⟩

end Search

namespace Composite

variable {V : Type} {p : Constraint V → Bool}

/-- One of the composites holds a constraint with the property itself and, with what is in it, all
those constraints that have it. -/
def Gather (p : Constraint V → Bool) (cs : List (Composite V)) (constraints : List (Constraint V)) :
    Prop :=
  ∃ c ∈ cs, (∃ k ∈ c.constraints, p k = true) ∧ ∀ k ∈ constraints, p k = true → k ∈ c.edges

/-- What a composite holds, all composites around it hold. -/
theorem edges_of_nested {k : Constraint V} :
    (∀ c : Composite V, ∀ d ∈ c.nested, k ∈ d.edges → k ∈ c.edges) ∧
      ∀ cs : List (Composite V), ∀ d ∈ nestedAll cs, k ∈ d.edges → k ∈ edgesAll cs := by
  apply nesting_induction
  · intro c inside d member held
    rw [nested_eq] at member
    rw [edges_eq]
    exact List.mem_append_right _ (inside d member held)
  · intro d member
    cases member
  · intro c cs first rest d member held
    rw [nestedAll, List.cons_append, List.mem_cons, List.mem_append] at member
    rw [edgesAll, List.mem_append]
    obtain rfl | within | after := member
    · exact .inl held
    · exact .inl (first d within held)
    · exact .inr (rest d after held)

/-- A composite with such a constraint of its own gathers all of them; otherwise it is up to the
composites in it. -/
theorem gather_nested (c : Composite V) :
    Gather p (c :: c.nested) c.edges ↔ (∃ k ∈ c.constraints, p k = true) ∨
      Gather p (nestedAll c.composites) (edgesAll c.composites) ∧
        ∀ k ∈ c.constraints, p k = false := by
  constructor
  · rintro ⟨d, member, own, all⟩
    by_cases here : ∃ k ∈ c.constraints, p k = true
    · exact .inl here
    · have silent : ∀ k ∈ c.constraints, p k = false := by simpa using here
      refine .inr ⟨⟨d, ?_, own, ?_⟩, silent⟩
      · rw [List.mem_cons, nested_eq] at member
        exact member.resolve_left fun same => here (same ▸ own)
      · intro k held
        rw [edges_eq] at all
        exact all k (List.mem_append_right _ held)
  · rintro (own | ⟨⟨d, member, own, all⟩, silent⟩)
    · exact ⟨c, List.mem_cons_self, own, fun _ held _ => held⟩
    · refine ⟨d, List.mem_cons_of_mem _ (nested_eq c ▸ member), own, fun k held holds => ?_⟩
      rw [edges_eq, List.mem_append] at held
      rcases held with here | inside
      · rw [silent k here] at holds
        cases holds
      · exact all k inside holds

/-- Composites side by side gather such constraints if one part of them does and there are none in
the other. -/
theorem gather_beside (c : Composite V) (cs : List (Composite V))
    (apart : c.edges.Disjoint (edgesAll cs)) :
    Gather p (nestedAll (c :: cs)) (edgesAll (c :: cs)) ↔
      (Gather p (c :: c.nested) c.edges ∧ ∀ k ∈ edgesAll cs, p k = false) ∨
        (Gather p (nestedAll cs) (edgesAll cs) ∧ ∀ k ∈ c.edges, p k = false) := by
  have inside {d : Composite V} (member : d ∈ c :: c.nested) {k : Constraint V}
      (held : k ∈ d.edges) : k ∈ c.edges := by
    rcases List.mem_cons.mp member with rfl | within
    · exact held
    · exact edges_of_nested.1 c d within held
  rw [nestedAll, edgesAll]
  constructor
  · rintro ⟨d, member, own, all⟩
    rcases List.mem_append.mp member with within | after
    · refine .inl ⟨⟨d, within, own, fun k held => all k (List.mem_append_left _ held)⟩, ?_⟩
      intro k held
      by_contra holds
      have known := all k (List.mem_append_right _ held) (by simpa using holds)
      exact apart (inside within known) held
    · refine .inr ⟨⟨d, after, own, fun k held => all k (List.mem_append_right _ held)⟩, ?_⟩
      intro k held
      by_contra holds
      have known := all k (List.mem_append_left _ held) (by simpa using holds)
      exact apart held (edges_of_nested.2 cs d after known)
  · rintro (⟨⟨d, member, own, all⟩, silent⟩ | ⟨⟨d, member, own, all⟩, silent⟩)
    · refine ⟨d, List.mem_append_left _ member, own, fun k held holds => ?_⟩
      rcases List.mem_append.mp held with here | there
      · exact all k here holds
      · rw [silent k there] at holds
        cases holds
    · refine ⟨d, List.mem_append_right _ member, own, fun k held holds => ?_⟩
      rcases List.mem_append.mp held with here | there
      · rw [silent k here] at holds
        cases holds
      · exact all k there holds

/-- The constraints of the composites on a stack, each before what is in it: whenever a composite
has been taken from the top, those in it are put there one after another. -/
def edgesOnStack : List (Composite V) → List (Constraint V)
  | [] => []
  | c :: stack => c.constraints ++ edgesOnStack (c.composites.reverse ++ stack)
termination_by stack => spanAll stack
decreasing_by
  rw [spanAll_append, List.unattach_reverse, List.unattach_attach, spanAll_reverse, spanAll_cons,
    span_eq]
  omega

theorem edgesLastFirstAll_append (front back : List (Composite V)) :
    edgesLastFirstAll (front ++ back) = edgesLastFirstAll back ++ edgesLastFirstAll front := by
  induction front with
  | nil => exact (List.append_nil _).symm
  | cons c front ih => simp only [List.cons_append, edgesLastFirstAll, ih, List.append_assoc]

/-- The last one that was put on a stack comes first. -/
theorem edgesOnStack_eq (stack : List (Composite V)) :
    edgesOnStack stack = edgesLastFirstAll stack.reverse := by
  induction stack using edgesOnStack.induct with
  | case1 => rw [edgesOnStack, List.reverse_nil, edgesLastFirstAll]
  | case2 c stack ih =>
    rw [List.unattach_reverse, List.unattach_attach] at ih
    have top : edgesLastFirstAll [c] = c.constraints ++ edgesLastFirstAll c.composites := by
      rw [edgesLastFirstAll, edgesLastFirstAll, List.nil_append, edgesLastFirst_eq]
    rw [edgesOnStack, ih, List.reverse_append, List.reverse_reverse, List.reverse_cons,
      edgesLastFirstAll_append, edgesLastFirstAll_append, top, List.append_assoc]

theorem edgesOnStack_root (c : Composite V) : edgesOnStack [c] = c.edgesLastFirst := by
  rw [edgesOnStack_eq]
  exact List.nil_append _

/-- The first constraint with a property is the same in both orders exactly if a composite with one
of its own gathers all of them. -/
theorem findsAlike_iff (p : Constraint V → Bool) :
    (∀ c : Composite V, c.edges.Nodup →
      (FindsAlike p c.edges c.edgesLastFirst ↔ Gather p (c :: c.nested) c.edges)) ∧
    ∀ cs : List (Composite V), (edgesAll cs).Nodup →
      (FindsAlike p (edgesAll cs) (edgesLastFirstAll cs) ↔
        Gather p (nestedAll cs) (edgesAll cs)) := by
  apply nesting_induction
  · intro c inside apart
    rw [edges_eq] at apart
    rw [gather_nested, edges_eq, edgesLastFirst_eq, findsAlike_front,
      inside apart.of_append_right]
  · intro _
    simp [FindsAlike, Gather, edgesAll, nestedAll]
  · intro c cs first rest apart
    rw [edgesAll] at apart
    have separate := List.disjoint_of_nodup_append apart
    rw [gather_beside c cs separate, ← first apart.of_append_left, ← rest apart.of_append_right,
      edgesAll, edgesLastFirstAll]
    exact findsAlike_swap separate (fun k => (mem_edgesLastFirst k).1 c)
      (fun k => (mem_edgesLastFirst k).2 cs)

end Composite

/-- Some end of the constraint means no body of the scene. -/
def Scene.strays (s : Scene) (c : Constraint Value) : Bool :=
  !c.joins s.locate?

/-- A scene that the check refuses is not built in an empty world either.  The build reports the
first constraint that strays, a composite's own ones before those of the composites in it and those
of earlier composites before those of later ones; the check reports the first one in the order of a
stack that begins with the root.  If all constraints have numbers of their own, the two report the
same exactly if one of the composites has a constraint of its own that strays and holds, with the
composites in it, all constraints that do. -/
theorem check_agrees_iff {options : BuildOptions} {scene : Scene} {error : BuildError}
    (failed : scene.check options = .error error) :
    ∃ first last w,
      scene.root.edges.find? scene.strays = some first ∧
      World.engine.build options scene .empty = (.error (first.report scene.locate?), w) ∧
      (edgesOnStack [scene.root]).find? scene.strays = some last ∧
      error = last.report scene.locate? ∧
      ((scene.root.edges.map Constraint.id).Nodup →
        (error = first.report scene.locate? ↔ ∃ c ∈ scene.root :: scene.root.nested,
          (∃ k ∈ c.constraints, scene.strays k = true) ∧
            ∀ k ∈ scene.root.edges, scene.strays k = true → k ∈ c.edges)) := by
  obtain ⟨strict, reported⟩ := check_error_iff.mp failed
  obtain ⟨last, found, rfl⟩ := Option.map_eq_some_iff.mp reported
  have held : last ∈ scene.root.edges :=
    ((mem_edgesLastFirst last).1 scene.root).mp (List.mem_of_find?_eq_some found)
  have there : (scene.root.edges.find? scene.strays).isSome :=
    List.find?_isSome.mpr ⟨last, held, List.find?_some found⟩
  obtain ⟨first, begun⟩ := Option.isSome_iff_exists.mp there
  obtain ⟨w, built⟩ := build_reports_first strict begun
  refine ⟨first, last, w, begun, built, edgesOnStack_root _ ▸ found, rfl, fun distinct => ?_⟩
  have alike : FindsAlike scene.strays scene.root.edges scene.root.edgesLastFirst ↔
      last = first := by
    constructor
    · rintro ⟨k, one, two⟩
      cases begun.symm.trans one
      cases found.symm.trans two
      rfl
    · rintro rfl
      exact ⟨last, begun, found⟩
  have same : last.report scene.locate? = first.report scene.locate? ↔ last = first := by
    refine ⟨fun equal => ?_, congrArg _⟩
    have ids : last.id = first.id := (BuildError.unresolvedEndpoint.inj equal).1
    exact List.inj_on_of_nodup_map distinct held (List.mem_of_find?_eq_some begun) ids
  rw [same, ← alike]
  exact (Composite.findsAlike_iff scene.strays).1 scene.root distinct.of_map

/-- A circle with the first name, and an edge from it to the second. -/
def circleWithEdge (name other : String) : List Node := [
  .label name (.body "circle" [.number 0, .number 0, .number 1] []),
  .constraint (.symbol name) .rigid (.symbol other) []]

/-- Two edges that stray, in a block behind another one; the second one is in a block of its own. -/
def straysInOneBlock : Node :=
  .composite [
    .scope (.composite (circleWithEdge "a" "a")) [],
    .scope (.composite (circleWithEdge "b" "p" ++
      [.scope (.composite (circleWithEdge "c" "q")) []])) []]

/-- The block has an edge of its own that strays, so check and build agree on this one. -/
theorem straysInOneBlock_agree : ∃ scene run' first error w,
    Scene.ofNode {} straysInOneBlock {} = (.ok scene, run') ∧
    scene.check { endpointPolicy := .strict } = .error error ∧
    scene.root.edges.find? scene.strays = some first ∧ first.target = .label "p" ∧
    (scene.root.edges.map Constraint.id).Nodup ∧ error = first.report scene.locate? ∧
    World.engine.build { endpointPolicy := .strict } scene .empty = (.error error, w) := by
  obtain ⟨scene, ran, failed, distinct, ⟨k, found, target⟩, gathered⟩ : ∃ scene,
      Scene.ofNode {} straysInOneBlock {} = (.ok scene, _) ∧
      scene.check { endpointPolicy := .strict } = .error _ ∧
      (scene.root.edges.map Constraint.id).Nodup ∧
      (∃ k, scene.root.edges.find? scene.strays = some k ∧ k.target = .label "p") ∧
      ∃ c ∈ scene.root :: scene.root.nested, (∃ k ∈ c.constraints, scene.strays k = true) ∧
        ∀ k ∈ scene.root.edges, scene.strays k = true → k ∈ c.edges := by
    refine ⟨_, rfl, rfl, by decide, ⟨_, rfl, rfl⟩, _, .tail _ (.tail _ (.head _)),
      ⟨_, .head _, rfl⟩, ?_⟩
    rintro k (_ | ⟨_, _ | ⟨_, _ | ⟨_, ⟨⟩⟩⟩⟩) astray
    · cases astray
    · exact .head _
    · exact .tail _ (.head _)
  obtain ⟨first, _, w, begun, built, _, _, agree⟩ := check_agrees_iff failed
  cases found.symm.trans begun
  have same := (agree distinct).mpr gathered
  exact ⟨scene, _, k, _, w, ran, failed, found, target, distinct, same, same ▸ built⟩

/-- Two edges that stray, in blocks side by side. -/
def straysInTwoBlocks : Node :=
  .composite [
    .scope (.composite (circleWithEdge "a" "p")) [],
    .scope (.composite (circleWithEdge "b" "q")) []]

/-- The build reports the first one and the check the second one. -/
theorem straysInTwoBlocks_differ : ∃ scene run' first w,
    Scene.ofNode {} straysInTwoBlocks {} = (.ok scene, run') ∧
    scene.root.edges.find? scene.strays = some first ∧
    first.report scene.locate? = .unresolvedEndpoint 2 (.label "p") ∧
    World.engine.build { endpointPolicy := .strict } scene .empty =
      (.error (.unresolvedEndpoint 2 (.label "p")), w) ∧
    scene.check { endpointPolicy := .strict } = .error (.unresolvedEndpoint 5 (.label "q")) := by
  obtain ⟨scene, ran, failed, k, found, reports⟩ : ∃ scene,
      Scene.ofNode {} straysInTwoBlocks {} = (.ok scene, _) ∧
      scene.check { endpointPolicy := .strict } = .error (.unresolvedEndpoint 5 (.label "q")) ∧
      ∃ k, scene.root.edges.find? scene.strays = some k ∧
        k.report scene.locate? = .unresolvedEndpoint 2 (.label "p") :=
    ⟨_, rfl, rfl, _, rfl, rfl⟩
  have strict : ({ endpointPolicy := .strict } : BuildOptions).endpointPolicy = .strict := rfl
  obtain ⟨w, built⟩ := build_reports_first strict found
  exact ⟨scene, _, k, w, ran, found, reports, reports ▸ built, failed⟩

end RigidScene
