import RigidScene.Proofs.Eval.Frame

/-!
What names mean inside a call.

The body of a function begins in the environment of its caller, with the captured labels where the
caller has none and the parameters on top of both.  So a parameter means the last argument that is
given under its name, and any other name what the caller, or else the place where the function was
written, binds it to; the names stand in that order, the caller's first (`names_in_call`).
-/

namespace RigidScene

open Eval Outcome

/-- Among values with names the last one of a name is the first one that is found from behind. -/
theorem lookup_reverse_zip {α : Type} {names : List String} {values : List α} {name : String}
    (long : names.length = values.length) (named : name ∈ names) :
    ∃ (i : Nat) (value : α), names[i]? = some name ∧ (∀ j > i, names[j]? ≠ some name) ∧
      values[i]? = some value ∧ (names.zip values).reverse.lookup name = some value := by
  induction names generalizing values with
  | nil => cases named
  | cons first names ih =>
    cases values with
    | nil => cases long
    | cons value values =>
      have rest : names.length = values.length := Nat.succ.inj long
      rw [List.zip_cons_cons, List.reverse_cons, List.lookup_append]
      by_cases again : name ∈ names
      · obtain ⟨i, found, place, last, given, looked⟩ := ih rest again
        refine ⟨i + 1, found, place, ?_, given, by rw [looked, Option.some_or]⟩
        intro j more
        cases j with
        | zero => cases more
        | succ j => exact last j (Nat.lt_of_succ_lt_succ more)
      · obtain rfl : name = first := (List.mem_cons.mp named).resolve_right again
        have later : (names.zip values).reverse.lookup name = none := by
          apply (NameMap.get?_eq_none_iff ⟨(names.zip values).reverse⟩ name).mpr
          rwa [NameMap.names, List.map_reverse, List.mem_reverse,
            List.map_fst_zip (Nat.le_of_eq rest)]
        refine ⟨0, value, rfl, ?_, rfl, by simp [later]⟩
        intro j more
        cases j with
        | zero => cases more
        | succ j => exact fun there => again (List.mem_of_getElem? there)

section Calls

variable {settings : Settings} {c : Closure Value} {name : String} {args : List Value}
  {env inner : Environment}

/-- A call is the evaluation of the body in the prepared environment, of which the entities come
back. -/
theorem closure_call_eq (entered : c.prepare name args settings.maxCallDepth env = .ok inner) :
    (Value.closure c).call settings name args env = (do
      let (final, v) ← c.body.eval settings inner
      return (env.withEntitiesOf final, v)) := by
  have called : (Value.closure c).call settings name args env = (do
      let inner ← c.prepare name args settings.maxCallDepth env
      let (final, v) ← settings.enter (settings.room env) c.body inner
      return (env.withEntitiesOf final, v)) := rfl
  rw [called, entered, prepare_room entered]
  rfl

/-- Inside a call a name means the last argument that is given for it, or what the caller binds it
to, or what was captured; the block is the caller's, one call deeper, and the caller's names stand
first, then the captured ones that it lacks, then the parameters that are new. -/
theorem names_in_call (different : c.captured.names.Nodup)
    (entered : c.prepare name args settings.maxCallDepth env = .ok inner) :
    (Value.closure c).call settings name args env = (do
      let (final, v) ← c.body.eval settings inner
      return (env.withEntitiesOf final, v)) ∧
    (∀ x ∈ c.params, ∃ (i : Nat) (v : Value),
      c.params[i]? = some x ∧ (∀ j > i, c.params[j]? ≠ some x) ∧
      args[i]? = some v ∧ inner.get? x = some v) ∧
    (∀ x ∉ c.params, inner.get? x = (env.get? x).or (c.captured.get? x)) ∧
    inner.SameEntities env ∧ inner.depth = env.depth + 1 ∧
    inner.labels.names = env.labels.names ++
      c.captured.names.filter (fun x => x ∉ env.labels.names) ++
      (c.params.filter fun x => x ∉ env.labels.names ∧ x ∉ c.captured.names).eraseDups := by
  refine ⟨closure_call_eq entered, ?parameter, ?other, prepare_sameEntities entered, ?_⟩
  all_goals obtain ⟨long, _, rfl⟩ := prepare_ok_iff.mp entered
  case parameter =>
    intro x named
    obtain ⟨i, v, place, last, given, looked⟩ := lookup_reverse_zip long named
    refine ⟨i, v, place, last, given, ?_⟩
    rw [Environment.get?, NameMap.get?_insertAll, looked, Option.some_or]
  case other =>
    intro x other
    have ungiven : x ∉ (c.params.zip args).map Prod.fst := by
      rwa [List.map_fst_zip (Nat.le_of_eq long)]
    exact (NameMap.get?_insertAll_other ungiven _).trans
      (env.labels.get?_withFallback different x)
  refine ⟨rfl, ?_⟩
  rw [NameMap.names_insertAll, NameMap.names_withFallback _ different,
    List.map_fst_zip (Nat.le_of_eq long)]
  congr 2
  apply List.filter_congr
  intro x _
  rw [Bool.eq_iff_iff]
  simp +contextual

end Calls

/-- A function with a parameter that is named twice.  One of the names it uses is only known where
it was written. -/
def threefold : Closure Value where
  serial := 0
  params := ["x", "y", "x"]
  body := .vector (.symbol "x") (.symbol "k")
  captured := ⟨[("x", .number 9), ("k", .number 7), ("z", .number 5)]⟩

/-- A caller that binds one of the parameters and one of the captured names itself. -/
def shadowing : Environment where
  labels := ⟨[("z", .number 1), ("x", .number 2)]⟩
  bodies := [⟨0, .circle, ∅, ∅, none⟩]
  depth := 3

/-- The later argument counts, and the caller's name before the captured one. -/
theorem threefold_names : ∃ inner, threefold.captured.names.Nodup ∧
    threefold.prepare "f" [.number 3, .number 4, .number 6] ({} : Settings).maxCallDepth shadowing =
      .ok inner ∧
    inner.get? "x" = some (.number 6) ∧ inner.get? "z" = some (.number 1) ∧
    inner.get? "k" = some (.number 7) ∧ inner.get? "w" = none ∧
    inner.bodies.map Body.id = [0] ∧ inner.depth = 4 ∧
    inner.labels.names = ["z", "x", "k", "y"] := by
  have different : threefold.captured.names.Nodup := by decide
  obtain ⟨inner, entered⟩ : ∃ inner, threefold.prepare "f" [.number 3, .number 4, .number 6]
      ({} : Settings).maxCallDepth shadowing = .ok inner := ⟨_, rfl⟩
  obtain ⟨_, parameter, other, ⟨bodies, _, _⟩, depth, names⟩ := names_in_call different entered
  obtain ⟨i, v, place, last, given, bound⟩ := parameter "x" (by decide)
  have third : i = 2 := by
    rcases i with _ | _ | _ | i
    · exact (last 2 (by decide) rfl).elim
    · exact absurd place (by decide)
    · rfl
    · cases place
  rw [third] at given
  obtain rfl : .number 6 = v := Option.some.inj given
  refine ⟨inner, different, entered, bound, (other "z" (by decide)).trans rfl,
    (other "k" (by decide)).trans rfl, (other "w" (by decide)).trans rfl, ?_, depth,
    names.trans (by decide)⟩
  rw [bodies]
  rfl

end RigidScene
