import Mathlib.Data.List.Nodup
import Mathlib.Data.List.Range
import RigidScene.Proofs.Eval.LabelKeeping
import RigidScene.Proofs.Nesting

/-!
No two entities of a block carry one label, if labels must not be repeated.

Naming looks for the label among the entities with *other* numbers.  That is enough only because no
two entities of a block have the same number, so `Tags.Distinct` says both of a block: its numbers
are counts of the run, all different, and so are its labels.  Numbers come round again behind the
last one; so everything here holds of runs that make no more entities than there are numbers.
-/

namespace RigidScene

open Composite

/-- Counts that lie no further apart than there are numbers have different numbers. -/
theorem ofCount_inj {first m n : Nat} (lower : first ≤ m) (upper : m < first + UInt64.size)
    (lower' : first ≤ n) (upper' : n < first + UInt64.size)
    (same : EntityId.ofCount m = EntityId.ofCount n) : m = n := by
  have size : UInt64.size = 18446744073709551616 := rfl
  have remainders : m % 18446744073709551616 = n % 18446744073709551616 := same
  omega

/-- The numbers are those of counts from `first` up to `next`, all different, and so are the
labels. -/
structure Tags.Distinct (tags : Tags) (first next : Nat) : Prop where
  counted : ∀ tag ∈ tags, ∃ k, first ≤ k ∧ k < next ∧ tag.1 = .ofCount k
  ids : (tags.map Prod.fst).Nodup
  labels : (tags.filterMap Prod.snd).Nodup

namespace Tags.Distinct

variable {front back : Tags} {first next : Nat}

theorem nil (first next : Nat) : Tags.Distinct [] first next :=
  ⟨List.forall_mem_nil _, List.nodup_nil, List.nodup_nil⟩

theorem later {tags : Tags} (distinct : tags.Distinct first next) {next' : Nat}
    (after : next ≤ next') : tags.Distinct first next' where
  counted tag member := by
    obtain ⟨k, lower, upper, own⟩ := distinct.counted tag member
    exact ⟨k, lower, upper.trans_le after, own⟩
  ids := distinct.ids
  labels := distinct.labels

/-- An entity without a label that takes the next number. -/
theorem insert (distinct : Tags.Distinct (front ++ back) first next) (start : first ≤ next)
    (left : next + 1 ≤ first + UInt64.size) :
    Tags.Distinct (front ++ (.ofCount next, none) :: back) first (next + 1) where
  counted tag member := by
    rw [List.mem_append, List.mem_cons, or_left_comm, ← List.mem_append] at member
    rcases member with rfl | old
    · exact ⟨next, start, Nat.lt_succ_self next, rfl⟩
    · obtain ⟨k, lower, upper, own⟩ := distinct.counted tag old
      exact ⟨k, lower, upper.trans (Nat.lt_succ_self next), own⟩
  ids := by
    have fresh : EntityId.ofCount next ∉ (front ++ back).map Prod.fst := by
      intro member
      obtain ⟨tag, old, same⟩ := List.mem_map.mp member
      obtain ⟨k, lower, upper, own⟩ := distinct.counted tag old
      have equal : k = next :=
        ofCount_inj lower (by omega) start (by omega) (own.symm.trans same)
      omega
    rw [List.map_append, List.map_cons, List.nodup_middle, List.nodup_cons, ← List.map_append]
    exact ⟨fresh, distinct.ids⟩
  labels := by
    simpa [List.filterMap_append] using distinct.labels

/-- An entity of the block takes a label that no entity with another number carries. -/
theorem named {id : EntityId} {held : Option String} {name : String}
    (distinct : Tags.Distinct (front ++ (id, held) :: back) first next)
    (free : ∀ tag ∈ front ++ (id, held) :: back, tag.1 ≠ id → tag.2 ≠ some name) :
    Tags.Distinct (front ++ (id, some name) :: back) first next where
  counted tag member := by
    rw [List.mem_append, List.mem_cons] at member
    rcases member with before | rfl | behind
    · exact distinct.counted tag (by simp [before])
    · exact distinct.counted (id, held) (by simp)
    · exact distinct.counted tag (by simp [behind])
  ids := by
    have same := distinct.ids
    simp only [List.map_append, List.map_cons] at same ⊢
    exact same
  labels := by
    have ids := distinct.ids
    rw [List.map_append, List.map_cons, List.nodup_middle, List.nodup_cons, ← List.map_append]
      at ids
    have others : ((front ++ back).filterMap Prod.snd).Nodup := by
      refine distinct.labels.sublist (List.Sublist.filterMap _ ?_)
      exact (List.Sublist.refl front).append (List.sublist_cons_self _ back)
    have fresh : name ∉ (front ++ back).filterMap Prod.snd := by
      intro member
      obtain ⟨tag, old, labelled⟩ := List.mem_filterMap.mp member
      refine free tag ?_ ?_ labelled
      · rw [List.mem_append, List.mem_cons, or_left_comm, ← List.mem_append]
        exact .inr old
      · rintro same
        exact ids.1 (List.mem_map.mpr ⟨tag, old, same⟩)
    have whole : (front ++ (id, some name) :: back).filterMap Prod.snd =
        front.filterMap Prod.snd ++ name :: back.filterMap Prod.snd := by
      simp [List.filterMap_append]
    rw [whole, List.nodup_middle, List.nodup_cons, ← List.filterMap_append]
    exact ⟨fresh, others⟩

end Tags.Distinct

/-- The bodies and composites that a composite holds directly, as tags. -/
def Composite.tags {V : Type} (c : Composite V) : Tags :=
  (c.bodies.map fun b => (b.id, b.label)) ++ c.composites.map fun c => (c.id, c.label)

/-- The labels of what a composite holds directly. -/
def Composite.heldLabels {V : Type} (c : Composite V) : List String :=
  c.tags.filterMap Prod.snd

namespace Environment

/-- The bodies and composites of a block, as tags. -/
def tags (env : Environment) : Tags :=
  env.bodyTags ++ env.compositeTags

/-- The labels of what a block holds directly. -/
def heldLabels (env : Environment) : List String :=
  env.tags.filterMap Prod.snd

/-- Numbers and labels are different in the block, and labels are in every composite inside it. -/
structure Distinct (env : Environment) (first next : Nat) : Prop where
  here : env.tags.Distinct first next
  inner : ∀ c ∈ nestedAll env.composites, c.heldLabels.Nodup

variable {env env' : Environment} {policy : LabelPolicy} {id : EntityId} {name : String}
  {found : Option Value} {first next : Nat}

theorem Distinct.of_same (distinct : env.Distinct first next) (same : env'.SameEntities env) :
    env'.Distinct first next := by
  obtain ⟨bodies, _, composites⟩ := same
  constructor
  · rw [tags, bodyTags, compositeTags, bodies, composites]
    exact distinct.here
  · rw [composites]
    exact distinct.inner

/-- Where labels must not be repeated, a name is given only if nothing else in the block has it. -/
theorem relabel_free (h : env.relabel .reject id name = .ok (env', found)) :
    ∀ tag ∈ env.tags, tag.1 ≠ id → tag.2 ≠ some name := by
  have unused : env.labelTaken name id = false := by
    by_contra taken
    rw [Bool.not_eq_false] at taken
    have refused : env.checkLabel .reject id name = .error (.duplicateLabel name) :=
      if_pos ⟨rfl, taken⟩
    simp [relabel, refused, bind, Except.bind] at h
  simp only [labelTaken, ne_eq, decide_not, Bool.or_eq_false_iff, List.any_eq_false,
    Bool.and_eq_true, Bool.not_eq_eq_eq_not, Bool.not_true, decide_eq_false_iff_not,
    decide_eq_true_eq, not_and] at unused
  intro tag member other
  rw [tags, List.mem_append] at member
  rcases member with body | composite
  · obtain ⟨b, held, rfl⟩ := List.mem_map.mp body
    exact unused.1 b held other
  · obtain ⟨c, held, rfl⟩ := List.mem_map.mp composite
    exact unused.2 c held other

/-- Naming changes the label of one entity of the block, or nothing. -/
theorem relabel_tags (h : env.relabel policy id name = .ok (env', found)) :
    env'.tags = env.tags ∨ ∃ front held back, env.tags = front ++ (id, held) :: back ∧
      env'.tags = front ++ (id, some name) :: back := by
  obtain ⟨front, b, back, whole, rfl, _, _, rfl⟩ | ⟨_, front, c, back, whole, rfl, _, _, rfl⟩ |
    ⟨_, _, _, rfl⟩ := relabel_cases h
  · refine .inr ⟨front.map fun b => (b.id, b.label), b.label,
      (back.map fun b => (b.id, b.label)) ++ env.compositeTags, ?_, ?_⟩
    · simp [tags, bodyTags, whole]
    · simp [tags, bodyTags, compositeTags]
  · refine .inr ⟨env.bodyTags ++ front.map fun c => (c.id, c.label), c.label,
      back.map fun c => (c.id, c.label), ?_, ?_⟩
    · simp [tags, compositeTags, whole]
    · simp [tags, bodyTags, compositeTags]
  · exact .inl rfl

/-- Naming an entity leaves what is inside of composites as it is. -/
theorem relabel_inner (h : env.relabel policy id name = .ok (env', found))
    (inner : ∀ c ∈ nestedAll env.composites, c.heldLabels.Nodup) :
    ∀ c ∈ nestedAll env'.composites, c.heldLabels.Nodup := by
  obtain ⟨_, _, _, _, _, _, _, rfl⟩ | ⟨_, front, c, back, whole, _, _, _, rfl⟩ |
    ⟨_, _, _, rfl⟩ := relabel_cases h
  · exact inner
  · have inside : ({ c with label := some name } : Composite Value).nested = c.nested := by
      rw [nested_eq, nested_eq]
    simp only [whole, nestedAll_append, nestedAll, List.mem_append, List.mem_cons] at inner
    intro d member
    simp only [nestedAll_append, nestedAll, inside, List.mem_append, List.mem_cons] at member
    obtain before | (rfl | within) | after := member
    · exact inner d (.inl before)
    · exact inner c (.inr (.inl (.inl rfl)))
    · exact inner d (.inr (.inl (.inr within)))
    · exact inner d (.inr (.inr after))
  · exact inner

/-- Naming keeps labels different. -/
theorem Distinct.relabel (distinct : env.Distinct first next)
    (h : env.relabel .reject id name = .ok (env', found)) : env'.Distinct first next := by
  refine ⟨?_, relabel_inner h distinct.inner⟩
  obtain same | ⟨front, held, back, whole, changed⟩ := relabel_tags h
  · rw [same]
    exact distinct.here
  · have free := relabel_free h
    have here := distinct.here
    rw [whole] at free here
    rw [changed]
    exact here.named free

theorem Distinct.declare {v v' : Value} (distinct : env.Distinct first next)
    (h : env.declare .reject name v = .ok (env', v')) : env'.Distinct first next := by
  obtain ⟨_, _, rfl⟩ | ⟨_, _, _, _, relabelled, _, rfl⟩ := declare_cases h
  · exact distinct.of_same (define_sameEntities _ _ _)
  · exact (distinct.relabel relabelled).of_same (define_sameEntities _ _ _)

end Environment

/-- The run goes on counting, and a block with different numbers and labels keeps them different as
long as no number comes round again. -/
def Moment.KeepsDistinct (first : Nat) (m m' : Moment) : Prop :=
  m.run.nextId ≤ m'.run.nextId ∧ (m'.run.nextId ≤ first + UInt64.size → first ≤ m.run.nextId →
    m.env.Distinct first m.run.nextId → m'.env.Distinct first m'.run.nextId)

/-- Every change to a moment keeps labels different, if they must not be repeated. -/
theorem distinct_carried {settings : Settings} (reject : settings.labelPolicy = .reject)
    (first : Nat) : Carried settings (fun _ _ => True) (Moment.KeepsDistinct first) where
  inherited _ _ := trivial
  refl m := ⟨Nat.le_refl _, fun _ _ distinct => distinct⟩
  trans one two := by
    refine ⟨one.1.trans two.1, ?_⟩
    intro left start distinct
    exact two.2 left (start.trans one.1) (one.2 (two.1.trans left) start distinct)
  serialled m := ⟨Nat.le_refl _, fun _ _ distinct => distinct⟩
  halted m := ⟨Nat.le_refl _, fun _ _ distinct => distinct⟩
  body m shape params props _ _ := by
    refine ⟨Nat.le_succ _, ?_⟩
    intro left start distinct
    have inserted := distinct.here.insert start left
    refine ⟨?_, distinct.inner⟩
    show Tags.Distinct _ first (m.run.nextId + 1)
    simpa [Environment.tags, Environment.bodyTags, Environment.compositeTags, Moment.withBody,
      Moment.newBody, Moment.freshId] using inserted
  constraint m source kind target attrs := by
    refine ⟨Nat.le_succ _, ?_⟩
    intro left start distinct
    exact ⟨distinct.here.later (Nat.le_succ _), distinct.inner⟩
  scope {m m'} transform props inside := by
    refine ⟨inside.1.trans (Nat.le_succ _), ?_⟩
    intro left start distinct
    have counted : m.run.nextId ≤ m'.run.nextId := inside.1
    have left' : m'.run.nextId + 1 ≤ first + UInt64.size := left
    have begun : m.opened.env.Distinct first m.run.nextId := ⟨.nil _ _, List.forall_mem_nil _⟩
    have ended := inside.2 (by omega) start begun
    constructor
    · have outer : Tags.Distinct (m.env.tags ++ []) first m'.run.nextId := by
        rw [List.append_nil]
        exact distinct.here.later counted
      have inserted := outer.insert (start.trans counted) left'
      show Tags.Distinct _ first (m'.run.nextId + 1)
      simpa [Environment.tags, Environment.bodyTags, Environment.compositeTags,
        Moment.withComposite, Moment.closed, Environment.toComposite, Moment.freshId] using inserted
    · intro c member
      simp only [Moment.withComposite, nestedAll_append, nestedAll, List.append_nil,
        List.mem_append, List.mem_cons] at member
      obtain old | rfl | new := member
      · exact distinct.inner c old
      · exact ended.here.labels
      · rw [nested_eq] at new
        exact ended.inner c new
  label _ _ declared before := by
    rw [reject] at declared
    refine ⟨before.1, ?_⟩
    intro left start distinct
    exact (before.2 left start distinct).declare declared
  returned same inside := by
    refine ⟨inside.1, ?_⟩
    intro left start distinct
    have ended := inside.2 left start (distinct.of_same same)
    exact ended.of_same (withEntitiesOf_sameEntities _ _)

/-- At every moment of a run in which labels must not be repeated, the labels of the block are
different. -/
theorem Reaches.distinct {settings : Settings} {program : Node} {run : Run} {m : Moment}
    (reached : Reaches settings program run m) (reject : settings.labelPolicy = .reject) :
    run.nextId ≤ m.run.nextId ∧ (m.run.nextId ≤ run.nextId + UInt64.size →
      m.env.Distinct run.nextId m.run.nextId) := by
  apply reached.keeps (P := fun m => run.nextId ≤ m.run.nextId ∧
    (m.run.nextId ≤ run.nextId + UInt64.size → m.env.Distinct run.nextId m.run.nextId))
  · exact ⟨Nat.le_refl _, fun _ => ⟨.nil _ _, List.forall_mem_nil _⟩⟩
  · intro job m vs m' derived holds
    have kept := derived.carried (distinct_carried reject run.nextId) trivial
    refine ⟨holds.1.trans kept.1, ?_⟩
    intro left
    exact kept.2 left holds.1 (holds.2 (kept.1.trans left))
  · intro m holds
    exact ⟨holds.1, fun _ => ⟨.nil _ _, List.forall_mem_nil _⟩⟩
  · intro m env same holds
    exact ⟨holds.1, fun left => (holds.2 left).of_same same⟩

/-- Where labels must not be repeated they are not: in a scene no two of the bodies and composites
that one composite holds carry the same label, nor do two of those of a block at any moment that a
run comes to.  The run is one that makes no more entities than there are numbers. -/
theorem labels_distinct {settings : Settings} (reject : settings.labelPolicy = .reject)
    (program : Node) (run : Run) :
    (∀ scene run', Scene.ofNode settings program run = (.ok scene, run') →
      run'.nextId ≤ run.nextId + UInt64.size →
        ∀ c ∈ scene.root :: scene.root.nested, c.heldLabels.Nodup) ∧
    ∀ m, Reaches settings program run m → m.run.nextId ≤ run.nextId + UInt64.size →
      m.env.heldLabels.Nodup := by
  constructor
  · intro scene run' evaluated left c member
    obtain ⟨env, root, derived⟩ := derived_of_ofNode evaluated
    have distinct := ((Reaches.ends .here derived).distinct reject).2 left
    rw [nested_eq, root, List.mem_cons] at member
    obtain rfl | inside := member
    · exact distinct.here.labels
    · exact distinct.inner c inside
  · intro m reached left
    exact ((reached.distinct reject).2 left).here.labels

/-- A circle and a circle in a block beside it have the same label; so may they, since no one
composite holds both. -/
def labelInAndOut : Node :=
  .composite [
    .label "a" (.body "circle" [.number 0, .number 0, .number 5] []),
    .label "block" (.scope (.composite [
      .label "a" (.body "circle" [.number 9, .number 0, .number 5] []),
      .label "b" (.body "circle" [.number 0, .number 9, .number 5] [])]) [])]

/-- The root holds the labels `a` and `block`, the block holds `a` and `b`. -/
theorem labelInAndOut_distinct :
    ({} : Settings).labelPolicy = .reject ∧
    ∃ scene run', Scene.ofNode {} labelInAndOut {} = (.ok scene, run') ∧
      run'.nextId ≤ ({} : Run).nextId + UInt64.size ∧
      (scene.root :: scene.root.nested).map Composite.heldLabels = [["a", "block"], ["a", "b"]] ∧
      (∀ c ∈ scene.root :: scene.root.nested, c.heldLabels.Nodup) ∧
      ∃ m, Reaches {} labelInAndOut {} m ∧ m.run.nextId ≤ ({} : Run).nextId + UInt64.size ∧
        m.env.heldLabels.Nodup := by
  have counts : (Scene.ofNode {} labelInAndOut {}).2.nextId = 5 := by decide +kernel
  have labels : (Scene.ofNode {} labelInAndOut {}).1.toOption.map (fun scene =>
      (scene.root :: scene.root.nested).map Composite.heldLabels) =
        some [["a", "block"], ["a", "b"]] := by decide +kernel
  rcases ran : Scene.ofNode {} labelInAndOut {} with ⟨failed | scene, run'⟩
  · rw [ran] at labels
    cases labels
  · rw [ran] at counts labels
    have left : run'.nextId ≤ ({} : Run).nextId + UInt64.size := by
      rw [counts]
      decide
    have rejects : ({} : Settings).labelPolicy = .reject := rfl
    obtain ⟨scenes, moments⟩ := labels_distinct rejects labelInAndOut {}
    obtain ⟨env, _, derived⟩ := derived_of_ofNode ran
    have reached : Reaches {} labelInAndOut {} ⟨env, run'⟩ := .ends .here derived
    exact ⟨rfl, scene, run', rfl, left, Option.some.inj labels, scenes scene run' ran left,
      ⟨env, run'⟩, reached, left, moments _ reached left⟩

end RigidScene
