import RigidScene.Eval.Run

/-!
Contexts that share a counter of entity numbers or a request to stop.

A context is its settings and the places of its counter and its flag in a pool.  A copy has the same
places, so what one of them counts or asks for holds for the other; a further run keeps the flag and
has a counter of its own.
-/

namespace RigidScene

/-- Settings, with the places of a counter and of a flag. -/
structure Context where
  settings : Settings
  counter : Nat
  flag : Nat
  deriving DecidableEq, Repr

/-- The counters and flags of all contexts. -/
structure ContextPool where
  counters : List Nat := []
  flags : List Bool := []
  deriving DecidableEq, Repr

namespace ContextPool

/-- A context with a counter and a flag of its own. -/
def fresh (pool : ContextPool) (settings : Settings) : Context × ContextPool :=
  (⟨settings, pool.counters.length, pool.flags.length⟩,
    ⟨pool.counters ++ [1], pool.flags ++ [false]⟩)

/-- The same settings and flag with a counter of its own. -/
def nextRun (pool : ContextPool) (c : Context) : Context × ContextPool :=
  ({ c with counter := pool.counters.length }, { pool with counters := pool.counters ++ [1] })

/-- A fresh entity number of a context. -/
def mintId (pool : ContextPool) (c : Context) : EntityId × ContextPool :=
  (.ofCount (pool.counters.getD c.counter 1),
    { pool with counters := pool.counters.modify c.counter (· + 1) })

/-- A context has been asked to stop. -/
def interrupted (pool : ContextPool) (c : Context) : Bool :=
  pool.flags.getD c.flag false

/-- Sets or clears the request to stop. -/
def setInterrupted (pool : ContextPool) (c : Context) (value : Bool) : ContextPool :=
  { pool with flags := pool.flags.set c.flag value }

/-- The state of a run in a context. -/
def run (pool : ContextPool) (c : Context) : Run where
  nextId := pool.counters.getD c.counter 1
  interrupted := pool.interrupted c

end ContextPool

end RigidScene
