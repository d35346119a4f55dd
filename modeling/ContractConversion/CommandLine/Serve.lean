import ContractConversion.CommandLine.Outcome
import ContractConversion.Configuration.Basic

/-!
# The server command

It makes the folder of the audit trails, listens, says where, and serves until it is interrupted.
-/

namespace ContractConversion.CommandLine

/-- The configuration with a host and a port of the command line, as far as they are given. -/
def atAddress (c : Configuration) (port : Option Nat) (host : Option String) : Configuration :=
  { c with server := { c.server with
      port := port.getD c.server.port
      host := host.getD c.server.host } }

/-- Carries out `serve`, up to an interruption. -/
def serve (s : Surroundings) (c : Configuration) : Outcome :=
  match if c.audit.enabled then s.files.makeFolders c.audit.dir else .ok s.files with
  | .error fault => s.fails ["Failed to create audit directory " ++ c.audit.dir, fault.message]
  | .ok files =>
    match s.listen c.server.host c.server.port with
    | .error reason => { s.fails ["Failed to bind to " ++ c.bindAddress, reason] with files }
    | .ok address => { s.prints ["kiln running at http://" ++ address] with files }

end ContractConversion.CommandLine
