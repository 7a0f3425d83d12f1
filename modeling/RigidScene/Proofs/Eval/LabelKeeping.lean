import RigidScene.Proofs.Eval.Adequacy
import RigidScene.Proofs.Eval.Visits
import RigidScene.Scene

/-!
When the labels of a block are permanent.

A label statement looks at the value it is given and names the entity of the block that has the
value's number.  The two are copies of each other, and a value that was bound before its entity got
a label still carries none.  So a label is lost exactly where a label statement meets such a value
under another name, `Overwrites`; everything else that a run does keeps labels at their places.
-/

namespace RigidScene

/-- Numbers and labels, in the order of a list of entities. -/
abbrev Tags := List (EntityId × Option String)

/-- What carries a label carries the same one at the same place. -/
def TagsKept (old new : Tags) : Prop :=
  ∀ (i : Nat) (id : EntityId) (label : String),
    old[i]? = some (id, some label) → new[i]? = some (id, some label)

/-- The last entry with the number, if there is one. -/
def Tags.last? (tags : Tags) (id : EntityId) : Option (EntityId × Option String) :=
  tags.reverse.find? (·.1 = id)

theorem TagsKept.refl (tags : Tags) : TagsKept tags tags :=
  fun _ _ _ carried => carried

theorem TagsKept.trans {first second third : Tags} (one : TagsKept first second)
    (two : TagsKept second third) : TagsKept first third :=
  fun i id label carried => two i id label (one i id label carried)

theorem TagsKept.append (tags more : Tags) : TagsKept tags (tags ++ more) := by
  intro i id label carried
  obtain ⟨inside, _⟩ := List.getElem?_eq_some_iff.mp carried
  rw [List.getElem?_append_left inside]
  exact carried

/-- Naming an entry keeps the labels if it had none or had the one that it gets. -/
theorem TagsKept.named {front back : Tags} {id : EntityId} {held : Option String} {name : String}
    (same : ∀ label, held = some label → label = name) :
    TagsKept (front ++ (id, held) :: back) (front ++ (id, some name) :: back) := by
  intro i other label carried
  rw [List.getElem?_append] at carried ⊢
  split
  · rename_i before
    rwa [if_pos before] at carried
  · rename_i behind
    rw [if_neg behind] at carried
    cases place : i - front.length with
    | succ k =>
      rw [place, List.getElem?_cons_succ] at carried
      rwa [List.getElem?_cons_succ]
    | zero =>
      rw [place, List.getElem?_cons_zero, Option.some.injEq, Prod.mk.injEq] at carried
      obtain ⟨rfl, labelled⟩ := carried
      rw [List.getElem?_cons_zero, same label labelled]

theorem Tags.last?_none {tags : Tags} {id : EntityId} (absent : ∀ tag ∈ tags, tag.1 ≠ id) :
    tags.last? id = none := by
  simpa [last?, List.find?_eq_none] using absent

theorem Tags.last?_middle {front back : Tags} {id : EntityId} {held : Option String}
    (last : ∀ tag ∈ back, tag.1 ≠ id) :
    last? (front ++ (id, held) :: back) id = some (id, held) := by
  have behind : back.reverse.find? (·.1 = id) = none := by
    simpa [List.find?_eq_none] using last
  simp [last?, List.find?_append, behind]

/-- The number of a body or composite. -/
def Value.entityId? : Value → Option EntityId
  | .body b => some b.id
  | .composite c => some c.id
  | _ => none

theorem entityId?_of_unlabelled? {v : Value} {id : EntityId} (h : v.unlabelled? = some id) :
    v.entityId? = some id := by
  cases v with
  | body b => exact (Option.ite_none_right_eq_some.mp h).2
  | composite c => exact (Option.ite_none_right_eq_some.mp h).2
  | _ => cases h

namespace Environment

/-- The bodies of the block as tags. -/
def bodyTags (env : Environment) : Tags :=
  env.bodies.map fun b => (b.id, b.label)

/-- The composites of the block as tags. -/
def compositeTags (env : Environment) : Tags :=
  env.composites.map fun c => (c.id, c.label)

/-- The label of the entity that a label statement finds by its number: the last body with the
number, else the last composite. -/
def heldLabel? (env : Environment) (id : EntityId) : Option String :=
  ((env.bodyTags.last? id).or (env.compositeTags.last? id)).bind Prod.snd

/-- What carries a label in the first block carries the same one in the second. -/
structure LabelsKept (env env' : Environment) : Prop where
  bodies : TagsKept env.bodyTags env'.bodyTags
  composites : TagsKept env.compositeTags env'.compositeTags

/-- Naming the value would replace a label of the block by another one: the value carries no label,
but the entity with its number does. -/
def Overwrites (env : Environment) (name : String) (v : Value) : Prop :=
  ∃ id label, v.unlabelled? = some id ∧ env.heldLabel? id = some label ∧ label ≠ name

theorem LabelsKept.of_same {env env' : Environment} (same : env'.SameEntities env) :
    LabelsKept env env' := by
  constructor
  · rw [bodyTags, bodyTags, same.1]
    exact .refl _
  · rw [compositeTags, compositeTags, same.2.2]
    exact .refl _

theorem LabelsKept.trans {first second third : Environment} (one : LabelsKept first second)
    (two : LabelsKept second third) : LabelsKept first third :=
  ⟨one.bodies.trans two.bodies, one.composites.trans two.composites⟩

section Relabel

variable {env env' : Environment} {policy : LabelPolicy} {id : EntityId} {name : String}
  {found : Option Value}

theorem heldLabel?_body {front back : List (Body Value)} {b : Body Value}
    (whole : env.bodies = front ++ b :: back) (last : ∀ x ∈ back, x.id ≠ b.id) :
    env.heldLabel? b.id = b.label := by
  have tags : env.bodyTags = (front.map fun b => (b.id, b.label)) ++ (b.id, b.label) ::
      back.map fun b => (b.id, b.label) := by simp [bodyTags, whole]
  rw [heldLabel?, tags, Tags.last?_middle (by simpa using last)]
  rfl

theorem heldLabel?_composite {front back : List (Composite Value)} {c : Composite Value}
    (absent : ∀ b ∈ env.bodies, b.id ≠ c.id) (whole : env.composites = front ++ c :: back)
    (last : ∀ x ∈ back, x.id ≠ c.id) : env.heldLabel? c.id = c.label := by
  have tags : env.compositeTags = (front.map fun c => (c.id, c.label)) ++ (c.id, c.label) ::
      back.map fun c => (c.id, c.label) := by simp [compositeTags, whole]
  rw [heldLabel?, Tags.last?_none (by simpa [bodyTags] using absent), tags,
    Tags.last?_middle (by simpa using last)]
  rfl

theorem heldLabel?_none (no_body : ∀ b ∈ env.bodies, b.id ≠ id)
    (no_composite : ∀ c ∈ env.composites, c.id ≠ id) : env.heldLabel? id = none := by
  rw [heldLabel?, Tags.last?_none (by simpa [bodyTags] using no_body),
    Tags.last?_none (by simpa [compositeTags] using no_composite)]
  rfl

/-- Naming an entity keeps all labels if it has none or has this one. -/
theorem relabel_labelsKept (h : env.relabel policy id name = .ok (env', found))
    (same : ∀ label, env.heldLabel? id = some label → label = name) : LabelsKept env env' := by
  obtain ⟨front, b, back, whole, rfl, last, _, rfl⟩ |
    ⟨absent, front, c, back, whole, rfl, last, _, rfl⟩ | ⟨_, _, _, rfl⟩ := relabel_cases h
  · rw [heldLabel?_body whole last] at same
    refine ⟨?_, .refl _⟩
    simpa [bodyTags, whole] using TagsKept.named same
  · rw [heldLabel?_composite absent whole last] at same
    refine ⟨.refl _, ?_⟩
    simpa [compositeTags, whole] using TagsKept.named same
  · exact .of_same (.refl _)

/-- Naming an entity by the name that it has changes nothing. -/
theorem relabel_same (h : env.relabel policy id name = .ok (env', found))
    (held : env.heldLabel? id = some name) : env' = env := by
  obtain ⟨front, b, back, whole, rfl, last, _, rfl⟩ |
    ⟨absent, front, c, back, whole, rfl, last, _, rfl⟩ | ⟨_, _, _, rfl⟩ := relabel_cases h
  · rw [heldLabel?_body whole last] at held
    rw [← held, ← whole]
  · rw [heldLabel?_composite absent whole last] at held
    have same : { c with label := some name } = c := by
      cases c
      cases held
      rfl
    rw [same, ← whole]
  · rfl

/-- An entity that had a label has the new name afterwards. -/
theorem relabel_heldLabel? (h : env.relabel policy id name = .ok (env', found)) {label : String}
    (held : env.heldLabel? id = some label) : env'.heldLabel? id = some name := by
  obtain ⟨front, b, back, whole, rfl, last, _, rfl⟩ |
    ⟨absent, front, c, back, whole, rfl, last, _, rfl⟩ | ⟨no_body, no_composite, _, rfl⟩ :=
    relabel_cases h
  · exact heldLabel?_body (b := { b with label := some name }) rfl last
  · exact heldLabel?_composite (c := { c with label := some name }) absent rfl last
  · rw [heldLabel?_none no_body no_composite] at held
    cases held

end Relabel

section Declare

variable {env env' : Environment} {policy : LabelPolicy} {name : String} {v v' : Value}

/-- A label statement keeps all labels unless it overwrites one. -/
theorem declare_labelsKept (h : env.declare policy name v = .ok (env', v'))
    (gentle : ¬ env.Overwrites name v) : LabelsKept env env' := by
  obtain ⟨_, _, rfl⟩ | ⟨id, env₁, _, carried, relabelled, _, rfl⟩ := declare_cases h
  · exact .of_same (define_sameEntities _ _ _)
  · have same : ∀ label, env.heldLabel? id = some label → label = name := by
      intro label held
      by_contra other
      exact gentle ⟨id, label, carried, held, other⟩
    exact (relabel_labelsKept relabelled same).trans (.of_same (define_sameEntities _ _ _))

/-- A label statement for an entity that has a label only binds the name, unless it overwrites. -/
theorem declare_alias (h : env.declare policy name v = .ok (env', v')) {id : EntityId}
    {label : String} (own : v.entityId? = some id) (held : env.heldLabel? id = some label)
    (gentle : ¬ env.Overwrites name v) : env' = env.define name v' := by
  obtain ⟨_, rfl, rfl⟩ | ⟨id', env₁, _, carried, relabelled, _, rfl⟩ := declare_cases h
  · rfl
  · have id_eq : id' = id := Option.some.inj ((entityId?_of_unlabelled? carried).symm.trans own)
    subst id_eq
    have label_eq : label = name := by
      by_contra other
      exact gentle ⟨id', label, carried, held, other⟩
    rw [relabel_same relabelled (held.trans (congrArg some label_eq))]

/-- Where a label statement overwrites, more than a binding changes. -/
theorem declare_overwrites (h : env.declare policy name v = .ok (env', v'))
    (overwrites : env.Overwrites name v) : env' ≠ env.define name v' := by
  obtain ⟨id, label, carried, held, other⟩ := overwrites
  obtain ⟨none, _, _⟩ | ⟨id', env₁, _, carried', relabelled, _, rfl⟩ := declare_cases h
  · rw [carried] at none
    cases none
  · have id_eq : id' = id := Option.some.inj (carried'.symm.trans carried)
    subst id_eq
    intro same
    have named := relabel_heldLabel? relabelled held
    have renamed : (env₁.define name v').heldLabel? id' = some name := named
    rw [same] at renamed
    exact other (Option.some.inj (held.symm.trans renamed))

end Declare

end Environment

/-- A label statement of the run gives the name to the value at the moment and leads to the
environment. -/
def Names (settings : Settings) (program : Node) (run : Run) (name : String) (v : Value)
    (m : Moment) (env : Environment) (v' : Value) : Prop :=
  ∃ node before, Visits settings (.node program) ⟨.empty, run⟩ (.node (.label name node)) before ∧
    node.eval settings before.env before.run = (.ok (m.env, v), m.run) ∧
    m.env.declare settings.labelPolicy name v = .ok (env, v')

/-- In a run, at any depth of calls and blocks, labels are permanent: every expression that succeeds
keeps the labels of the block in which it is run, and a label statement for an entity that has a
label does no more than bind its name. -/
structure LabelsPermanent (settings : Settings) (program : Node) (run : Run) : Prop where
  kept : ∀ (node : Node) (m m' : Moment) (v : Value),
    Visits settings (.node program) ⟨.empty, run⟩ (.node node) m →
    node.eval settings m.env m.run = (.ok (m'.env, v), m'.run) → m.env.LabelsKept m'.env
  aliased : ∀ (name : String) (v : Value) (m : Moment) (env : Environment) (v' : Value),
    Names settings program run name v m env v' → ∀ (id : EntityId) (label : String),
      v.entityId? = some id → m.env.heldLabel? id = some label → env = m.env.define name v'

/-- What keeps labels, along everything that a run without overwriting visits. -/
theorem labels_carried {settings : Settings} {program : Node} {run : Run}
    (gentle : ∀ name v m env v', Names settings program run name v m env v' →
      ¬ m.env.Overwrites name v) :
    Carried settings (Visits settings (.node program) ⟨.empty, run⟩)
      (fun m m' => m.env.LabelsKept m'.env) where
  inherited visited spawned := .part visited spawned
  refl _ := .of_same (.refl _)
  trans := .trans
  serialled _ := .of_same (.refl _)
  halted _ := .of_same (.refl _)
  body _ _ _ _ _ _ := ⟨by simpa [Moment.withBody, Environment.bodyTags] using TagsKept.append _ _,
    .refl _⟩
  constraint _ _ _ _ _ := ⟨.refl _, .refl _⟩
  scope _ _ _ := ⟨.refl _, by
    simpa [Moment.withComposite, Environment.compositeTags] using TagsKept.append _ _⟩
  label visited value declared before :=
    before.trans (Environment.declare_labelsKept declared
      (gentle _ _ _ _ _ ⟨_, _, visited, derived_iff_eval.mp value, declared⟩))
  returned same inside := by
    have entered : Environment.LabelsKept _ _ := .of_same same
    exact (entered.trans inside).trans (.of_same (withEntitiesOf_sameEntities _ _))

/-- Where labels are permanent, nothing is overwritten. -/
theorem LabelsPermanent.gentle {settings : Settings} {program : Node} {run : Run}
    (permanent : LabelsPermanent settings program run) {name : String} {v v' : Value} {m : Moment}
    {env : Environment} (named : Names settings program run name v m env v') :
    ¬ m.env.Overwrites name v := by
  intro overwrites
  have declared : m.env.declare settings.labelPolicy name v = .ok (env, v') := by
    obtain ⟨_, _, _, _, declared⟩ := named
    exact declared
  have changed := Environment.declare_overwrites declared overwrites
  obtain ⟨id, label, carried, held, _⟩ := overwrites
  exact changed (permanent.aliased name v m env v' named id label
    (entityId?_of_unlabelled? carried) held)

/-- The labels of a run are permanent exactly if none of its label statements overwrites one. -/
theorem labelsPermanent_iff (settings : Settings) (program : Node) (run : Run) :
    LabelsPermanent settings program run ↔
      ∀ name v m env v', Names settings program run name v m env v' →
        ¬ m.env.Overwrites name v := by
  constructor
  · intro permanent name v m env v' named
    exact permanent.gentle named
  · intro gentle
    constructor
    · intro node m m' v visited ran
      exact (derived_iff_eval.mpr ran).carried (labels_carried gentle) visited
    · intro name v m env v' named id label own held
      have undamaged := gentle name v m env v' named
      obtain ⟨_, _, _, _, declared⟩ := named
      exact Environment.declare_alias declared own held undamaged

/-- A function that names its parameter twice is called with a new circle. -/
def parameterNamedTwice : Node :=
  .composite [
    .label "f" (.function ["b"]
      (.composite [.label "x" (.symbol "b"), .label "y" (.symbol "b")])),
    .call "f" [.body "circle" [.number 0, .number 0, .number 5] []],
    .number 1]

/-- The second name replaces the first one: the parameter is a copy without a label. -/
theorem parameterNamedTwice_not_permanent : ¬ LabelsPermanent {} parameterNamedTwice {} := by
  intro permanent
  have statements : Visits {} (.node parameterNamedTwice) ⟨.empty, {}⟩ _ _ :=
    .part .here (.statements rfl)
  have call := Visits.part (.part statements (.tail (.label rfl (.function rfl) rfl))) .head
  have circle : Shape.ofName? "circle" = some .circle := by decide
  have number (m : Moment) (x : Float) (ready : m.run.interrupted = false) :
      Derived {} (.node (.number x)) m [.number x] m := .leaf ready rfl
  have passed := Visits.part call (.called rfl rfl (.cons (.body rfl circle
    (.cons (number _ _ rfl) (.cons (number _ _ rfl) (.cons (number _ _ rfl) .nil))) .nil rfl) .nil))
  have inside := Visits.part (.part passed (.entered rfl)) (.statements rfl)
  have second := Visits.part (.part inside (.tail (.label rfl (.leaf rfl rfl) rfl))) .head
  refine permanent.gentle ⟨_, _, second, derived_iff_eval.mp (.leaf rfl rfl), rfl⟩ ?_
  exact ⟨1, "x", rfl, by decide +kernel, by decide⟩

end RigidScene
