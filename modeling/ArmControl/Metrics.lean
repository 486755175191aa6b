import ArmControl.Binary64

/-!
# Counters of a session
-/

namespace ArmControl

/-- What a session has sent and received so far. -/
structure Metrics where
  /-- States that were newer than those before them. -/
  statesReceived : UInt64 := 0
  /-- States that were not. -/
  statesStale : UInt64 := 0
  commandsSent : UInt64 := 0
  requestsSent : UInt64 := 0
  repliesReceived : UInt64 := 0
  /-- Waits for an event that ended without one. -/
  receiveTimeouts : UInt64 := 0
deriving DecidableEq, Repr, Inhabited

namespace Metrics

def countState (m : Metrics) : Metrics := { m with statesReceived := m.statesReceived + 1 }
def countStale (m : Metrics) : Metrics := { m with statesStale := m.statesStale + 1 }
def countCommand (m : Metrics) : Metrics := { m with commandsSent := m.commandsSent + 1 }
def countRequest (m : Metrics) : Metrics := { m with requestsSent := m.requestsSent + 1 }
def countReply (m : Metrics) : Metrics := { m with repliesReceived := m.repliesReceived + 1 }
def countTimeout (m : Metrics) : Metrics := { m with receiveTimeouts := m.receiveTimeouts + 1 }

/-- Commands per hundred states, and zero before the first state. -/
def commandRatio (m : Metrics) : Binary64 :=
  if m.statesReceived = 0 then .zero
  else ⟨(m.commandsSent.toFloat / m.statesReceived.toFloat * 100.0).toBits⟩

end Metrics
end ArmControl
