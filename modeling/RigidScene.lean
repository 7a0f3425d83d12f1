import RigidScene.Config
import RigidScene.Eval.Context
import RigidScene.Proofs.Build.Agreement
import RigidScene.Proofs.Build.Attachment
import RigidScene.Proofs.Build.Dangling
import RigidScene.Proofs.Build.Defaults
import RigidScene.Proofs.Build.Faults
import RigidScene.Proofs.Build.Reporting
import RigidScene.Proofs.Build.Trails
import RigidScene.Proofs.Eval.Frame
import RigidScene.Proofs.Eval.IdConservation
import RigidScene.Proofs.Eval.Isolation
import RigidScene.Proofs.Eval.LabelKeeping
import RigidScene.Proofs.Eval.LabelUniqueness
import RigidScene.Proofs.Eval.Limits
import RigidScene.Proofs.Eval.Loops
import RigidScene.Proofs.Eval.Opacity
import RigidScene.Proofs.Eval.Termination
import RigidScene.Proofs.Program.Overlooked
import RigidScene.Proofs.Program.Respelling
import RigidScene.Proofs.SessionLifecycle
import RigidScene.Proofs.Syntax.Arithmetic
import RigidScene.Proofs.Syntax.Comments
import RigidScene.Proofs.Syntax.Rendering
import RigidScene.Proofs.Syntax.Truncation
import RigidScene.Proofs.World.Movement
import RigidScene.Proofs.World.Refusal
import RigidScene.Proofs.World.Traversal
import RigidScene.Session
import RigidScene.Value.Equality
import RigidScene.World.Basic
import RigidScene.World.Journal
import RigidScene.Proofs.Build.AttributeOrder
import RigidScene.Proofs.Eval.RowMajor
import RigidScene.Proofs.Eval.Scoping
import RigidScene.Proofs.Text.Places
