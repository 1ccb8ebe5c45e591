import Heartbeat.Address
import Heartbeat.Descriptor
import Heartbeat.Text.Character

/-!
# Heartbeat.Identity

Who an agent is, as its operator says, and the descriptor that this makes together with what the
host it runs on tells.
-/

namespace Heartbeat

def agentVersion : String := "0.1.0"

structure Identity where
  /-- A fresh one is made up if there is none. -/
  agentId : Option String := none
  applicationName : String
  /-- Reported in place of the host's own address. -/
  address : Option Address := none
  ports : List UInt16 := []
  container : Bool := false

inductive IdentityError where
  | applicationNameBlank
  | agentIdBlank
  deriving DecidableEq, Repr

def IdentityError.message : IdentityError → String
  | .applicationNameBlank => "application name must not be empty"
  | .agentIdBlank => "agent id must not be empty"

/-- What the host tells about itself and about the process. -/
structure Host where
  name : String
  address : Address
  pid : UInt32
  startTime : UInt64
  /-- A name that no other agent has. -/
  freshId : String

namespace Identity

def check (i : Identity) : Except IdentityError Unit :=
  if isBlankText i.applicationName then .error .applicationNameBlank
  else if (i.agentId.map isBlankText).getD false then .error .agentIdBlank
  else .ok ()

def descriptor (i : Identity) (h : Host) : Descriptor where
  agentId := i.agentId.getD h.freshId
  applicationName := i.applicationName
  hostname := h.name
  ip := (i.address.getD h.address).text
  pid := h.pid
  agentVersion := agentVersion
  startTime := h.startTime
  ports := i.ports
  container := i.container

end Identity
end Heartbeat
