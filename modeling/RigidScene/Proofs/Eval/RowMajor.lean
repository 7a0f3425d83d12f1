import RigidScene.Proofs.Eval.Frame
import RigidScene.Proofs.Eval.Recursion

/-!
A grid in one loop.

`grid` runs through rows and in each row through its cells.  Numbered row after row the cells are
the numbers below their count, `gridCells_numbered`, so the two loops are one loop that finds the
place of a cell by division.  That loop may be interrupted between any two cells and gone on with
from there, because a call hands nothing but the environment to the next one; its result is the
last value that was answered.
-/

namespace RigidScene

open Eval Outcome

/-- Calls a function for `count` cells of a grid from the number `first` on.  The cells are numbered
row after row, and there are `nx` of them in a row. -/
def Value.callCells (settings : Settings) (f : Value) (nx first count : Nat) : Step :=
  Builtin.iterate (fun k => f.call settings "grid" (Builtin.loopArguments f [k % nx, k / nx]))
    count first .unit

namespace Builtin

theorem gridCells_numbered (nx ny : Nat) :
    gridCells nx 0 ny = (List.range' 0 (nx * ny)).map fun k => [k % nx, k / nx] := by
  induction ny with
  | zero => rfl
  | succ ny ih =>
    have rows : gridCells nx 0 (ny + 1) = gridCells nx 0 ny ++ rowCells ny 0 nx := by
      simp [gridCells, List.range'_1_concat]
    have row : rowCells ny 0 nx = (List.range' (nx * ny) nx).map fun k => [k % nx, k / nx] := by
      rw [rowCells, List.range'_eq_map_range, List.range'_eq_map_range, List.map_map, List.map_map]
      apply List.map_congr_left
      intro x member
      have inside : x < nx := List.mem_range.mp member
      have column : (nx * ny + x) % nx = x := by rw [Nat.mul_add_mod, Nat.mod_eq_of_lt inside]
      have line : (nx * ny + x) / nx = ny := by
        rw [Nat.mul_add_div (by omega), Nat.div_eq_of_lt inside, Nat.add_zero]
      simp [column, line]
    have numbers : List.range' 0 (nx * ny) ++ List.range' (nx * ny) nx =
        List.range' 0 (nx * (ny + 1)) := by
      rw [Nat.mul_succ, ← List.range'_append_1, Nat.zero_add]
    rw [rows, ih, row, ← List.map_append, numbers]

theorem iterate_add (step : Nat → Step) (count more first : Nat) (last : Value)
    (env : Environment) :
    iterate step (count + more) first last env = (do
      let (env, value) ← iterate step count first last env
      iterate step more (first + count) value env) := by
  induction count generalizing first last env with
  | zero => simp [iterate]
  | succ count ih =>
    have next : first + 1 + count = first + (count + 1) := by omega
    simp only [Nat.succ_add, iterate, ih, bind_assoc, next]

end Builtin

/-- In a loop functions are called as they are called anywhere else at its depth. -/
theorem call_agree (settings : Settings) (depth : Nat) (name : String) (f : Value)
    (args : List Value) :
    Agree depth
      (Caller.fromProgram (settings.enter (settings.maxCallDepth - depth)) settings.maxCallDepth
        name f args)
      (f.call settings name args) := by
  rintro env rfl
  refine ⟨fun _ => rfl, fun {run env' v run'} ran => ?_⟩
  have derived : Derived settings (.call name f args) ⟨env, run⟩ [v] ⟨env', run'⟩ :=
    derived_iff_call.mpr ran
  exact derived.depth_eq

section Cells

variable (settings : Settings) (f : Value) (nx first count : Nat) (env : Environment)

theorem callCells_eq : f.callCells settings nx first count env =
    Builtin.sweep (fun name f args => f.call settings name args) "grid" f
      ((List.range' first count).map fun k => [k % nx, k / nx]) .unit env :=
  congrFun (@Builtin.iterate_cells (fun name f args => f.call settings name args) "grid" f
    (fun k => [k % nx, k / nx]) count first .unit) env

/-- The loop comes back with the labels and the depth that it began with. -/
theorem callCells_keeps {run run' : Run} {env' : Environment} {v : Value}
    (ran : f.callCells settings nx first count env run = (.ok (env', v), run')) :
    env'.labels = env.labels ∧ env'.depth = env.depth := by
  have callable : Callable settings (settings.room env) fun name f args =>
      f.call settings name args := fun _ _ _ _ _ _ _ _ _ called => derived_iff_call.mpr called
  rw [callCells_eq] at ran
  have derived := sweep_derived callable (m := ⟨env, run⟩) rfl ran
  exact ⟨derived.labels_eq rfl, derived.depth_eq⟩

/-- A loop is two loops, one behind the other, if the second one has a cell left. -/
theorem callCells_split {done : Nat} (more : done < count) :
    f.callCells settings nx first count env = (do
      let (env, _) ← f.callCells settings nx first done env
      f.callCells settings nx (first + done) (count - done) env) := by
  obtain ⟨left, rfl⟩ : ∃ left, count = done + (left + 1) := ⟨count - done - 1, by omega⟩
  have rest : done + (left + 1) - done = left + 1 := by omega
  rw [Value.callCells, Builtin.iterate_add, rest]
  rfl

/-- The rows of a grid, one after another, are the loop over all of its cells. -/
theorem apply_grid {x y : Value} {nx ny : Nat} (wide : Builtin.countArgument .grid x = .ok nx)
    (high : Builtin.countArgument .grid y = .ok ny) :
    Builtin.grid.apply settings [x, y, f] env = f.callCells settings nx 0 (nx * ny) env := by
  have calls := Builtin.sweep_congr
    (Caller.inLoop_eq (settings.enter (settings.room env)) settings.maxCallDepth "grid" f)
    (Builtin.gridCells nx 0 ny) .unit
  have agree := sweep_agree (call_agree settings env.depth) "grid" f (Builtin.gridCells nx 0 ny)
    .unit env rfl
  funext run
  calc
    Builtin.grid.apply settings [x, y, f] env run
      = Builtin.sweep (Caller.inLoop (settings.enter (settings.room env)) settings.maxCallDepth)
          "grid" f (Builtin.gridCells nx 0 ny) .unit env run := by
        rw [Builtin.apply, Builtin.run, Builtin.runGrid_eq, wide, high]
        rfl
    _ = Builtin.sweep (fun name f args => f.call settings name args) "grid" f
          (Builtin.gridCells nx 0 ny) .unit env run := by
        rw [calls]
        exact agree.same run
    _ = f.callCells settings nx 0 (nx * ny) env run := by
        rw [Builtin.gridCells_numbered, callCells_eq]

/-- The loop brings the labels and the depth back itself, so a call has nothing to take away. -/
theorem call_grid {x y : Value} {nx ny : Nat} (wide : Builtin.countArgument .grid x = .ok nx)
    (high : Builtin.countArgument .grid y = .ok ny) (name : String) :
    (Value.builtin .grid).call settings name [x, y, f] env =
      f.callCells settings nx 0 (nx * ny) env := by
  have returned : (Value.builtin .grid).call settings name [x, y, f] env = (do
      let (inner, v) ← Builtin.grid.apply settings [x, y, f] env
      return (env.withEntitiesOf inner, v)) := rfl
  rw [returned, apply_grid settings f env wide high]
  funext run
  rcases ran : f.callCells settings nx 0 (nx * ny) env run with ⟨e | ⟨env', v⟩, run'⟩
  · exact bind_of_error ran
  · obtain ⟨labels, depth⟩ := callCells_keeps settings f nx 0 (nx * ny) env ran
    have same : env.withEntitiesOf env' = env' := by
      rw [Environment.withEntitiesOf, ← labels, ← depth]
    rw [bind_of_ok ran]
    show (Except.ok (env.withEntitiesOf env', v), run') = _
    rw [same]

end Cells

/-- `grid` calls its function in one loop over the cells, row after row: the cell with the number
`k` is in column `k % nx` of row `k / nx`.  No cells leave the environment as it is, and the loop
can be cut in two before any cell. -/
theorem grid_row_major (settings : Settings) (name : String) (x y f : Value) (env : Environment)
    {nx ny : Nat} (wide : Builtin.countArgument .grid x = .ok nx)
    (high : Builtin.countArgument .grid y = .ok ny) :
    (Value.builtin .grid).call settings name [x, y, f] env =
      f.callCells settings nx 0 (nx * ny) env ∧
    Builtin.grid.apply settings [x, y, f] env = f.callCells settings nx 0 (nx * ny) env ∧
    (nx = 0 ∨ ny = 0 → f.callCells settings nx 0 (nx * ny) env = pure (env, .unit)) ∧
    ∀ k < nx * ny, f.callCells settings nx 0 (nx * ny) env = (do
      let (env, _) ← f.callCells settings nx 0 k env
      f.callCells settings nx k (nx * ny - k) env) := by
  refine ⟨call_grid settings f env wide high name, apply_grid settings f env wide high,
    fun empty => ?_, fun k more => ?_⟩
  · rw [Nat.mul_eq_zero.mpr empty]
    rfl
  · have split := callCells_split settings f nx 0 (nx * ny) env more
    rwa [Nat.zero_add] at split

/-- A function that makes a circle where its arguments say. -/
def disc : Closure Value where
  serial := 0
  params := ["i", "j"]
  body := .body "circle" [.symbol "i", .symbol "j", .number 1] []
  captured := ∅

/-- Where the bodies of the block stand, in whole numbers. -/
def Environment.places (env : Environment) : List (Option Nat × Option Nat) :=
  env.bodies.map fun b => ((b.param? "x").map countOf, (b.param? "y").map countOf)

/-- Three rows of two circles, cut in the middle of the second row. -/
theorem discs_row_major : ∃ env v run,
    (Value.builtin .grid).call {} "grid" [.number 2, .number 3, .closure disc] .empty {} =
      (.ok (env, v), run) ∧
    (do let (env, _) ← (Value.closure disc).callCells {} 2 0 3 .empty
        (Value.closure disc).callCells {} 2 3 3 env : Eval (Environment × Value)) {} =
      (.ok (env, v), run) ∧
    env.places = [(some 0, some 0), (some 1, some 0), (some 0, some 1), (some 1, some 1),
      (some 0, some 2), (some 1, some 2)] := by
  have wide : Builtin.countArgument .grid (.number 2) = .ok 2 := rfl
  have high : Builtin.countArgument .grid (.number 3) = .ok 3 := rfl
  obtain ⟨called, _, _, cut⟩ := grid_row_major {} "grid" _ _ (.closure disc) .empty wide high
  have places : (match (Value.closure disc).callCells {} 2 0 6 .empty {} with
      | (.ok (env, _), _) => env.places
      | (.error _, _) => []) = [(some 0, some 0), (some 1, some 0), (some 0, some 1),
        (some 1, some 1), (some 0, some 2), (some 1, some 2)] := by decide +kernel
  rcases ran : (Value.closure disc).callCells {} 2 0 6 .empty {} with ⟨e | ⟨env, v⟩, run⟩
  · rw [ran] at places
    cases places
  · rw [ran] at places
    exact ⟨env, v, run, (congrFun called {}).trans ran,
      (congrFun (cut 3 (by decide)) {}).symm.trans ran, places⟩

end RigidScene
