import RigidScene.Proofs.Eval.Visits

/-!
Which names a run can bind.

A name is bound by a label statement, for what comes behind it in the same block.  Inner blocks and
functions may bind it too, but around them this is forgotten.  `Node.names` collects the names from
the text of a program; `Derived.binds` says that a job binds these, one after another, and
`Derived.keeps_binding` that it leaves all others as they were.
-/

namespace RigidScene

mutual

/-- The names that a node gives in the block in which it is run. -/
def Node.names : Node → List String
  | .composite statements => Node.namesAll statements
  | .body _ args attrs => Node.namesAll args ++ Node.namesAttrs attrs
  | .constraint source _ target attrs => source.names ++ target.names ++ Node.namesAttrs attrs
  | .scope _ attrs => Node.namesAttrs attrs
  | .label name value => name :: value.names
  | .call _ args => Node.namesAll args
  | .vector x y => x.names ++ y.names
  | .function .. | .symbol _ | .number _ | .string _ | .bool _ => []

/-- The names that nodes give, one after another. -/
def Node.namesAll : List Node → List String
  | [] => []
  | node :: nodes => node.names ++ Node.namesAll nodes

/-- The names that the values of attributes give. -/
def Node.namesAttrs : List (String × Node) → List String
  | [] => []
  | (_, node) :: attrs => node.names ++ Node.namesAttrs attrs

end

/-- The names that a job gives in the block in which it is carried out. -/
def Job.names : Job → List String
  | .node n => n.names
  | .endpoint n => n.names
  | .nodes ns => Node.namesAll ns
  | .call .. | .sweep .. => []

theorem mem_namesAll {name : String} {nodes : List Node} :
    name ∈ Node.namesAll nodes ↔ ∃ node ∈ nodes, name ∈ node.names := by
  induction nodes with
  | nil => simp [Node.namesAll]
  | cons node nodes ih => simp [Node.namesAll, ih]

theorem namesAll_values (attrs : List (String × Node)) :
    Node.namesAll (attrs.map Prod.snd) = Node.namesAttrs attrs := by
  induction attrs with
  | nil => rfl
  | cons attr attrs ih => rw [List.map_cons, Node.namesAll, ih, Node.namesAttrs]

namespace Moment

variable {m m' m'' : Moment} {names names' : List String}

/-- Up to the second moment the labels of the first one have been bound, one after another, to
values by these names. -/
def Binds (names : List String) (m m' : Moment) : Prop :=
  ∃ bound, (bound.map Prod.fst).Perm names ∧ m'.env.labels = m.env.labels.insertAll bound

namespace Binds

theorem of_same (same : m'.env.labels = m.env.labels) : Binds [] m m' :=
  ⟨[], .nil, same⟩

theorem trans (one : Binds names m m') (two : Binds names' m' m'') :
    Binds (names ++ names') m m'' := by
  obtain ⟨bound, given, labels⟩ := one
  obtain ⟨bound', given', labels'⟩ := two
  refine ⟨bound ++ bound', ?_, ?_⟩
  · rw [List.map_append]
    exact given.append given'
  · rw [labels', labels, NameMap.insertAll_append]

/-- A label statement binds its name behind those of its value. -/
theorem declare {policy : LabelPolicy} {name : String} {v v' : Value} {env : Environment}
    (before : Binds names m m') (declared : m'.env.declare policy name v = .ok (env, v')) :
    Binds (name :: names) m { m' with env } := by
  have named : Binds [name] m' { m' with env } :=
    ⟨[(name, v')], .refl _, declare_labels_eq declared⟩
  obtain ⟨bound, given, labels⟩ := before.trans named
  exact ⟨bound, given.trans (List.perm_append_singleton _ _), labels⟩

end Binds

end Moment

/-- A job that succeeds binds the names that it gives, as often as it gives them, and no other. -/
theorem Derived.binds {settings : Settings} {job : Job} {m m' : Moment} {vs : List Value}
    (derived : Derived settings job m vs m') : Moment.Binds job.names m m' := by
  induction derived with
  | @leaf node _ _ _ value =>
    have silent : node.names = [] := by
      cases node with
      | symbol | number | string | bool => rfl
      | _ => cases value
    rw [Job.names, silent]
    exact .of_same rfl
  | function | nil | endName | operation | halt | swept | closure | «repeat» | grid =>
    exact .of_same rfl
  | composite _ _ ih | endNode _ _ ih => exact ih
  | vector _ _ _ _ ih₁ ih₂ => exact ih₁.trans ih₂
  | body _ _ _ _ _ ih₁ ih₂ =>
    simp only [Job.names, namesAll_values] at ih₂
    exact ih₁.trans ih₂
  | constraint _ _ _ _ _ _ ih₁ ih₂ ih₃ =>
    simp only [Job.names, namesAll_values] at ih₃
    exact (ih₁.trans ih₂).trans ih₃
  | scope _ _ _ _ ih =>
    simp only [Job.names, namesAll_values] at ih
    exact ih
  | label _ _ declared ih => exact ih.declare declared
  | call _ _ _ _ ih₁ ih₂ =>
    have both := ih₁.trans ih₂
    rwa [Job.names, Job.names, List.append_nil] at both
  | cons _ _ ih₁ ih₂ => exact ih₁.trans ih₂
  | cell _ _ ih₁ ih₂ => exact ih₁.trans ih₂

/-- A job that gives no names leaves all labels as they were. -/
theorem Derived.labels_eq {settings : Settings} {job : Job} {m m' : Moment} {vs : List Value}
    (derived : Derived settings job m vs m') (silent : job.names = []) :
    m'.env.labels = m.env.labels := by
  obtain ⟨bound, given, labels⟩ := derived.binds
  rw [silent] at given
  obtain rfl : bound = [] := List.map_eq_nil_iff.mp given.eq_nil
  exact labels

/-- The other names stay bound as they were. -/
theorem Derived.keeps_binding {settings : Settings} {job : Job} {m m' : Moment} {vs : List Value}
    (derived : Derived settings job m vs m') {name : String} (silent : name ∉ job.names) :
    m'.env.get? name = m.env.get? name := by
  obtain ⟨bound, given, labels⟩ := derived.binds
  rw [Environment.get?, labels]
  exact NameMap.get?_insertAll_other (fun among => silent (given.mem_iff.mp among)) m.env.labels

end RigidScene
