/-
The settings of a registry, from variables of the environment.
-/
import Rollout.Net.Address

namespace Rollout.Registry

structure Config where
  listenAddress : Net.SocketAddress
  logLevel : String
  deriving Repr, Inhabited

def defaultAddress : String := "0.0.0.0:8080"

def defaultLogLevel : String := "info"

/-- Why the settings are no good. -/
def badAddress : String := "TOPO_REGISTRY_BIND must be a socket address"

/-- Reads the settings; variables that are not set have defaults. -/
def Config.ofEnvironment (lookup : String → Option String) : Except String Config :=
  match Net.SocketAddress.parse? ((lookup "TOPO_REGISTRY_BIND").getD defaultAddress) with
  | some a => .ok ⟨a, (lookup "TOPO_LOG_LEVEL").getD defaultLogLevel⟩
  | none => .error badAddress

end Rollout.Registry
