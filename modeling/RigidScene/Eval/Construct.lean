import RigidScene.Eval.Error

/-!
From evaluated arguments and attributes to the parts of entities.

A shape takes one number for each of its parameters and, if it has a rest parameter, any number of
points behind them.  The attributes of a block are split into its placement and the rest.
-/

namespace RigidScene

/-- The number that a place asks for. -/
def expectNumber (site : TypeSite) (v : Value) : Except EvalError Float :=
  match v with
  | .number x => .ok x
  | _ => .error (.typeMismatch site .number v.kind)

/-- The point that a place asks for. -/
def expectPoint (site : TypeSite) (v : Value) : Except EvalError Point :=
  match v with
  | .vector p => .ok p
  | _ => .error (.typeMismatch site .vector v.kind)

namespace Shape

/-- The arguments are as many as the shape takes. -/
def accepts (shape : Shape) (count : Nat) : Bool :=
  match shape.rest? with
  | some _ => shape.parameters.length ≤ count
  | none => count = shape.parameters.length

/-- The fixed parameters with their arguments, all of which must be numbers. -/
def assignFixed (shape : Shape) : List (String × Value) → Except EvalError Unit
  | [] => .ok ()
  | (name, v) :: rest => do
    let _ ← expectNumber (.parameter shape name) v
    shape.assignFixed rest

/-- All arguments of a rest parameter must be points. -/
def assignRest (shape : Shape) (name : String) : List Value → Except EvalError Unit
  | [] => .ok ()
  | v :: rest => do
    let _ ← expectPoint (.parameter shape name) v
    shape.assignRest name rest

/-- The parameters of a body, by the names in the signature of its shape. -/
def assign (shape : Shape) (args : List Value) : Except EvalError (NameMap Value) := do
  if shape.accepts args.length then
    let fixed := shape.parameters.zip args
    shape.assignFixed fixed
    match shape.rest? with
    | none => return ⟨fixed⟩
    | some name =>
      let rest := args.drop shape.parameters.length
      shape.assignRest name rest
      return ⟨fixed ++ [(name, .list rest)]⟩
  else throw (.shapeArity shape args.length)

end Shape

namespace Transform

/-- The number under a key, if the key is there. -/
def numberAt (props : NameMap Value) (key : String) : Except EvalError (Option Float) :=
  match props.get? key with
  | none => .ok none
  | some v => some <$> expectNumber (.placement key) v

/-- The keys that place a block. -/
def keys : List String :=
  ["translate", "x", "y", "rotate", "angle", "scale"]

/-- The placement that attributes describe: `translate`, with `x` and `y` added to it, `angle` or
else `rotate`, and `scale`. -/
def ofProps (props : NameMap Value) : Except EvalError Transform := do
  let base ← match props.get? "translate" with
    | none => pure Point.origin
    | some v => expectPoint (.placement "translate") v
  let x ← numberAt props "x"
  let y ← numberAt props "y"
  let rotate ← numberAt props "rotate"
  let angle ← numberAt props "angle"
  let scale ← numberAt props "scale"
  return {
    translate := ⟨x.elim base.x (base.x + ·), y.elim base.y (base.y + ·)⟩
    rotate := (angle.or rotate).getD 0
    scale := scale.getD 1 }

/-- The placement and the attributes that are no part of it. -/
def split (props : NameMap Value) : Except EvalError (Transform × NameMap Value) := do
  let transform ← ofProps props
  return (transform, keys.foldl NameMap.erase props)

end Transform

end RigidScene
