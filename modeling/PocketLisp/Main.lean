import PocketLisp.Demo

/-!
# Command line

Runs the demonstration under the settings of the environment. The log goes to
standard error and the demonstration to standard output.
-/

namespace PocketLisp

/-- The settings of the running program. -/
def currentSettings : IO Settings := do
  let sources := ["LISPLIB_LOG_LEVEL", "LISPLIB_COLOR"]
  let found ← sources.mapM fun source => do
    let value ← IO.getEnv source
    return value.map fun value => (source, value)
  let output ← IO.getStdout
  let terminal ← output.isTty
  return ⟨found.filterMap id, terminal⟩

end PocketLisp

def main : IO UInt32 := do
  let settings ← PocketLisp.currentSettings
  match PocketLisp.Demo.program settings with
  | .ok program => do
      IO.eprint program.log
      IO.print program.output
      return 0
  | .error stop => do
      IO.eprintln stop.message
      return 1
