import RigidScene.Proofs.Eval.Success

/-!
Loops as sweeps, and the one equation of calls.

`repeat` and `grid` run through a list of cells and call a function with the indices of each; `sweep`
is that loop.  A call from inside a loop passes numbers only.  So what a built-in would call back
from there never matters, and calls from loops and from programs are the same: `fromProgram_knot`.
-/

namespace RigidScene

namespace Builtin

/-- Calls a function with the indices of each cell and answers the last value. -/
def sweep (call : Caller) (name : String) (f : Value) : (cells : List (List Nat)) → Value → Step
  | [], last, env => return (env, last)
  | cell :: cells, _, env => do
    let (env, value) ← call name f (loopArguments f cell) env
    sweep call name f cells value env

/-- The cells of `repeat` from an index on: one index each. -/
def cells (first count : Nat) : List (List Nat) :=
  (List.range' first count).map fun i => [i]

/-- The cells of one row of `grid`. -/
def rowCells (y first count : Nat) : List (List Nat) :=
  (List.range' first count).map fun x => [x, y]

/-- The cells of the rows of `grid` from a row on. -/
def gridCells (nx first count : Nat) : List (List Nat) :=
  (List.range' first count).flatMap fun y => rowCells y 0 nx

variable {call : Caller} {name : String} {f : Value}

/-- A loop of calls with the indices of a cell each is a sweep over these cells. -/
theorem iterate_cells (cell : Nat → List Nat) (count first : Nat) (last : Value) :
    iterate (fun i => call name f (loopArguments f (cell i))) count first last =
      sweep call name f ((List.range' first count).map cell) last := by
  induction count generalizing first last with
  | zero => rfl
  | succ count ih =>
    funext env
    simp only [iterate, ih]
    rfl

theorem iterate_sweep (count first : Nat) (last : Value) :
    iterate (fun i => call name f (loopArguments f [i])) count first last =
      sweep call name f (cells first count) last :=
  iterate_cells (fun i => [i]) count first last

theorem iterate_row (y count first : Nat) (last : Value) :
    iterate (fun x => call name f (loopArguments f [x, y])) count first last =
      sweep call name f (rowCells y first count) last :=
  iterate_cells (fun x => [x, y]) count first last

/-- A sweep over two lists of cells is a sweep over the first and then one over the second. -/
theorem sweep_append (first second : List (List Nat)) (last : Value) (env : Environment) :
    sweep call name f (first ++ second) last env = (do
      let (env, value) ← sweep call name f first last env
      sweep call name f second value env) := by
  induction first generalizing last env with
  | nil => rfl
  | cons cell first ih =>
    simp only [List.cons_append, sweep, ih, bind_assoc]

theorem iterate_rows (nx count first : Nat) (last : Value) :
    iterateFrom (fun y last => iterate (fun x => call name f (loopArguments f [x, y])) nx 0 last)
        count first last =
      sweep call name f (gridCells nx first count) last := by
  induction count generalizing first last with
  | zero => rfl
  | succ count ih =>
    funext env
    have cut : gridCells nx first (count + 1) =
        rowCells first 0 nx ++ gridCells nx (first + 1) count := rfl
    simp only [iterate_row] at ih ⊢
    simp only [iterateFrom, ih, cut, sweep_append]

/-- A grid with empty rows has no cells. -/
theorem gridCells_zero (first count : Nat) : gridCells 0 first count = [] := by
  simp [gridCells, rowCells]

theorem gridCells_gridRows (nx ny : Nat) : gridCells nx 0 (gridRows nx ny) = gridCells nx 0 ny := by
  unfold gridRows
  split
  · rename_i empty
    rw [empty, gridCells_zero, gridCells_zero]
  · rfl

end Builtin

/-- The arguments that loops pass are numbers. -/
def Numeric (args : List Value) : Prop :=
  ∀ v ∈ args, ∃ x, v = .number x

theorem loopArguments_numeric (f : Value) (indices : List Nat) :
    Numeric (Builtin.loopArguments f indices) := by
  intro v member
  unfold Builtin.loopArguments at member
  split at member
  · split at member
    · cases member
    · obtain ⟨i, _, rfl⟩ := List.mem_map.mp member
      exact ⟨_, rfl⟩
  · obtain ⟨i, _, rfl⟩ := List.mem_map.mp member
    exact ⟨_, rfl⟩

namespace Builtin

theorem sweep_congr {first second : Caller} {name : String} {f : Value}
    (same : ∀ args, Numeric args → first name f args = second name f args)
    (cells : List (List Nat)) (last : Value) :
    sweep first name f cells last = sweep second name f cells last := by
  induction cells generalizing last with
  | nil => rfl
  | cons cell cells ih =>
    funext env
    simp only [sweep, same _ (loopArguments_numeric f cell), ih]

theorem runRepeat_eq (call : Caller) (n f : Value) (env : Environment) :
    runRepeat call [n, f] env = (do
      let n ← countArgument .repeat n
      sweep call "repeat" f (cells 0 n) .unit env) := by
  simp only [runRepeat, iterate_sweep]

theorem runGrid_eq (call : Caller) (nx ny f : Value) (env : Environment) :
    runGrid call [nx, ny, f] env = (do
      let nx ← countArgument .grid nx
      let ny ← countArgument .grid ny
      sweep call "grid" f (gridCells nx 0 ny) .unit env) := by
  simp only [runGrid, iterate_rows, gridCells_gridRows]

/-- What a built-in calls back matters only for the functions that it is given, and there only for
numbers as arguments. -/
theorem run_congr {first second : Caller} (b : Builtin) (args : List Value)
    (same : ∀ name, ∀ f ∈ args, ∀ indices, Numeric indices →
      first name f indices = second name f indices) :
    b.run first args = b.run second args := by
  funext env
  cases b with
  | «repeat» =>
    match args with
    | [n, f] =>
      have swept := sweep_congr (same "repeat" f (by simp))
      simp only [run, runRepeat_eq, swept]
    | [] | [_] | _ :: _ :: _ :: _ => simp only [run, runRepeat]
  | grid =>
    match args with
    | [nx, ny, f] =>
      have swept := sweep_congr (same "grid" f (by simp))
      simp only [run, runGrid_eq, swept]
    | [] | [_] | [_, _] | _ :: _ :: _ :: _ :: _ => simp only [run, runGrid]
  | _ => rfl

theorem call_congr {first second : Caller} (b : Builtin) (args : List Value)
    (same : ∀ name, ∀ f ∈ args, ∀ indices, Numeric indices →
      first name f indices = second name f indices) :
    b.call first args = b.call second args := by
  funext env
  simp only [Builtin.call, run_congr b args same]

end Builtin

namespace Caller

variable (enter : Node → Step) (limit : Nat)

/-- From inside a loop, where numbers are passed, calls go as they go from a program. -/
theorem inLoop_eq (name : String) (f : Value) (args : List Value) (numeric : Numeric args) :
    inLoop enter limit name f args = fromProgram enter limit name f args := by
  cases f with
  | builtin b =>
    apply Builtin.call_congr b args
    intro name f member indices _
    obtain ⟨x, rfl⟩ := numeric f member
    rfl
  | _ => simp only [inLoop, fromProgram, callWith]

/-- Every call goes as a call from a program does, whose callbacks are such calls again. -/
theorem fromProgram_knot (name : String) (f : Value) (args : List Value) :
    fromProgram enter limit name f args =
      callWith enter limit (fromProgram enter limit) name f args := by
  cases f with
  | builtin b =>
    apply Builtin.call_congr b args
    intro name f _ indices numeric
    exact inLoop_eq enter limit name f indices numeric
  | _ => simp only [fromProgram, callWith]

end Caller

end RigidScene
