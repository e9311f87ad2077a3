import Switchboard.Config.Load
import Switchboard.Host.Serve

/-!
# `Switchboard.Cli`: the host program

The program reads its configuration from the file that a variable names, or from one of a fixed
name, serves its input until that ends, and retires every handler. It fails if it cannot start or if
serving fails.
-/

set_option autoImplicit false

namespace Switchboard.Cli

/-- The variable that names the configuration file. -/
def configVariable : String := "SCOPEMUX_CONFIG"

/-- The configuration file if the variable is not set. -/
def defaultConfigPath : String := "scopemux.yaml"

/-- The configuration file, given the variable. -/
def configPath (named : Option String) : String := named.getD defaultConfigPath

/-- What a run of the program leaves behind. -/
structure Run where
  exitCode : UInt8
  output : Bytes
  /-- How many handlers were retired at the end. -/
  retired : Nat
deriving DecidableEq, Repr

/-- The host for the content of a configuration file. -/
def launch (config : Except String Bytes) : Except Failure Host := do
  Host.start (← Config.loadFile config)

/-- Runs the program on the content of its configuration file and on its input. -/
def run (config : Except String Bytes) (input : Bytes) : Run :=
  match launch config with
  | .error _ => ⟨1, [], 0⟩
  | .ok host =>
    let service := host.serve { bytes := input } {}
    let retired := service.host.shutdown.1
    match service.result with
    | .ok _ => ⟨0, service.output, retired⟩
    | .error _ => ⟨1, service.output, retired⟩

end Switchboard.Cli
