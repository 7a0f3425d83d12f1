import RigidScene.Build.Spec
import RigidScene.Eval.Run
import RigidScene.Json.Number

/-!
Settings of runs and builds as a JSON text.

Every field may be missing and then has its default; fields that are not known are ignored.  A group
of fields may also be an array of their values in order, and a policy may be the name of an object's
only member.  What is written names every field.
-/

namespace RigidScene

/-- The settings of runs and of builds. -/
structure Config where
  eval : Settings := {}
  build : BuildOptions := {}
  deriving Repr

/-- The name of a policy in texts. -/
def LabelPolicy.name : LabelPolicy → String
  | reject => "reject"
  | allow => "allow"

/-- The policy with the given name. -/
def LabelPolicy.ofName? (n : String) : Option LabelPolicy :=
  [reject, allow].find? (·.name = n)

/-- The name of a policy in texts. -/
def EndpointPolicy.name : EndpointPolicy → String
  | lenient => "lenient"
  | strict => "strict"

/-- The policy with the given name. -/
def EndpointPolicy.ofName? (n : String) : Option EndpointPolicy :=
  [lenient, strict].find? (·.name = n)

/-- The value of a field, or its default if it is missing. -/
def Json.orDefault {α : Type} (read : Json → Option α) (default : α) : Option Json → Option α
  | none => some default
  | some v => read v

/-- The settings of runs. -/
def Settings.ofJson? (v : Json) : Option Settings := do
  let default : Settings := {}
  match ← v.fields? ["max_call_depth", "trace", "label_policy"] with
  | [depth, trace, policy] =>
    let maxCallDepth ← Json.orDefault Json.natural? default.maxCallDepth depth
    let trace ← Json.orDefault Json.bool? default.trace trace
    let labelPolicy ←
      Json.orDefault (fun v => v.choice?.bind LabelPolicy.ofName?) default.labelPolicy policy
    return { maxCallDepth, trace, labelPolicy }
  | _ => none

/-- The settings of builds. -/
def BuildOptions.ofJson? (v : Json) : Option BuildOptions := do
  let default : BuildOptions := {}
  match ← v.fields? ["endpoint_policy", "restitution", "friction"] with
  | [policy, restitution, friction] =>
    let endpointPolicy ←
      Json.orDefault (fun v => v.choice?.bind EndpointPolicy.ofName?) default.endpointPolicy policy
    let restitution ← Json.orDefault Json.float? default.restitution restitution
    let friction ← Json.orDefault Json.float? default.friction friction
    return { endpointPolicy, restitution, friction }
  | _ => none

namespace Config

/-- All settings. -/
def ofJson? (v : Json) : Option Config := do
  match ← v.fields? ["eval", "hydrate"] with
  | [eval, build] =>
    let eval ← Json.orDefault Settings.ofJson? {} eval
    let build ← Json.orDefault BuildOptions.ofJson? {} build
    return { eval, build }
  | _ => none

/-- The settings that a text gives. -/
def read? (text : String) : Option Config :=
  (Json.read? text.toList).bind ofJson?

/-- The settings as a text, a field on each line. -/
def write (c : Config) : String :=
  "\n".intercalate [
    "\x7b",
    "  \"eval\": \x7b",
    "    \"max_call_depth\": " ++ toString c.eval.maxCallDepth ++ ",",
    "    \"trace\": " ++ (if c.eval.trace then "true" else "false") ++ ",",
    "    \"label_policy\": \"" ++ c.eval.labelPolicy.name ++ "\"",
    "  \x7d,",
    "  \"hydrate\": \x7b",
    "    \"endpoint_policy\": \"" ++ c.build.endpointPolicy.name ++ "\",",
    "    \"restitution\": " ++ Decimal.fractional c.build.restitution ++ ",",
    "    \"friction\": " ++ Decimal.fractional c.build.friction,
    "  \x7d",
    "\x7d"]

/-- All settings compare equal, the numbers among them as numbers. -/
def same (c d : Config) : Bool :=
  c.eval = d.eval && c.build.endpointPolicy = d.build.endpointPolicy &&
    c.build.restitution == d.build.restitution && c.build.friction == d.build.friction

end Config

end RigidScene
