import DurableQueue.Relational.Script
import DurableQueue.Worker

/-! The worker as a program. It brings no way to a database of its own, so that every command that needs one ends like
    one that has waited for a connection in vain. -/

open DurableQueue

/-- The variables of the process among those that the settings look up. -/
def processLookup : IO Settings.Lookup := do
  let values ← Settings.keys.mapM fun key => do return (key, ← IO.getEnv key)
  return fun key => (values.lookup key).join

/-- How the process ends for arguments and variables. -/
def exitOf (lookup : Settings.Lookup) (arguments : List String) : Worker.Exit :=
  match Worker.prepare lookup arguments with
  | .error exit => exit
  | .ok (settings, _) =>
    match Relational.connect settings.databaseUrl settings.maxConnections (some .unreachable) with
    | .error fault => Worker.unconnected fault
    | .ok () => .done ""

def main (arguments : List String) : IO UInt32 := do
  let exit := exitOf (← processLookup) arguments
  IO.print exit.output
  (← IO.getStderr).putStr exit.error
  return .ofNat exit.code
