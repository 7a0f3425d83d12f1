import RigidScene.Entity

/-!
Composites inside composites.

`nested` lists them depth first, each before what is inside it.  With itself in front, that is the
order in which a composite's groups are made, and `span` is their number.
-/

namespace RigidScene.Composite

variable {V : Type}

mutual

/-- The composites inside a composite, at any depth. -/
def nested : Composite V → List (Composite V)
  | ⟨_, _, _, _, composites, _, _⟩ => nestedAll composites

/-- Composites with those inside them. -/
def nestedAll : List (Composite V) → List (Composite V)
  | [] => []
  | c :: cs => c :: nested c ++ nestedAll cs

end

/-- How many composites there are in a composite, itself counted. -/
def span (c : Composite V) : Nat :=
  c.nested.length + 1

/-- How many composites there are in a list of composites. -/
def spanAll (cs : List (Composite V)) : Nat :=
  (nestedAll cs).length

/-- What holds of a composite if it holds of the list of composites in it, and of a list if it holds
of its parts, holds of all composites and of all lists. -/
theorem nesting_induction {P : Composite V → Prop} {Q : List (Composite V) → Prop}
    (composite : ∀ c, Q c.composites → P c) (nil : Q [])
    (cons : ∀ c cs, P c → Q cs → Q (c :: cs)) : (∀ c, P c) ∧ ∀ cs, Q cs := by
  have all : ∀ c, P c :=
    @Composite.rec V P Q (fun _ _ _ _ _ _ _ inside => composite _ inside) nil cons
  refine ⟨all, ?_⟩
  intro cs
  induction cs with
  | nil => exact nil
  | cons c cs ih => exact cons c cs (all c) ih

theorem nested_eq (c : Composite V) : c.nested = nestedAll c.composites := by
  cases c
  rw [nested]

theorem walk_eq (c : Composite V) : c.walk = c.bodies ++ walkAll c.composites := by
  cases c
  rw [walk]

theorem edges_eq (c : Composite V) : c.edges = c.constraints ++ edgesAll c.composites := by
  cases c
  rw [edges]

theorem span_eq (c : Composite V) : c.span = spanAll c.composites + 1 := by
  rw [span, nested_eq, spanAll]

theorem spanAll_cons (c : Composite V) (cs : List (Composite V)) :
    spanAll (c :: cs) = c.span + spanAll cs := by
  simp only [spanAll, nestedAll, span, List.cons_append, List.length_cons, List.length_append]
  omega

theorem nestedAll_append (front back : List (Composite V)) :
    nestedAll (front ++ back) = nestedAll front ++ nestedAll back := by
  induction front with
  | nil => rfl
  | cons c front ih => simp only [List.cons_append, nestedAll, ih, List.append_assoc]

theorem spanAll_append (front back : List (Composite V)) :
    spanAll (front ++ back) = spanAll front + spanAll back := by
  rw [spanAll, nestedAll_append, List.length_append, spanAll, spanAll]

theorem spanAll_reverse (cs : List (Composite V)) : spanAll cs.reverse = spanAll cs := by
  induction cs with
  | nil => rfl
  | cons c cs ih =>
    rw [List.reverse_cons, spanAll_append, ih, spanAll_cons, spanAll_cons, Nat.add_comm]
    rfl

theorem walkAll_append (front back : List (Composite V)) :
    walkAll (front ++ back) = walkAll front ++ walkAll back := by
  induction front with
  | nil => rfl
  | cons c front ih => simp only [List.cons_append, walkAll, ih, List.append_assoc]

theorem edgesAll_append (front back : List (Composite V)) :
    edgesAll (front ++ back) = edgesAll front ++ edgesAll back := by
  induction front with
  | nil => rfl
  | cons c front ih => simp only [List.cons_append, edgesAll, ih, List.append_assoc]

end RigidScene.Composite
