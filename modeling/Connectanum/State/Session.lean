import Connectanum.State.Ids

/-!
# State — Session

The records kept for an open session and for an invocation that waits for its callee.
-/

namespace Connectanum

open Collections

/-- A port on which a component of the router takes messages. -/
abbrev SendPort := Nat

/-- Lightweight summary of a connected WAMP session. -/
structure SessionInfo where
  id : Nat
  authId : Option String := none
  authRole : Option String := none
  authMethod : Option String := none
  authProvider : Option String := none
  roles : Dict := .empty
  workerId : Nat := 0
  connectionId : Nat
  lastActivity : Nat := 0

/-- The record stored in `RealmRecord.sessions`. -/
structure SessionRecord extends SessionInfo where
  serializerId : Option Nat := none
  internalSendPort : Option SendPort := none
  subscriptionIds : LinkedMap Nat Unit := .empty
  registrationIds : LinkedMap Nat Unit := .empty

namespace SessionRecord

def isInternal (s : SessionRecord) : Bool := s.internalSendPort.isSome

/-- `session.subscriptionIds.add(id)`. -/
def addSubscriptionId (s : SessionRecord) (id : Nat) : SessionRecord :=
  { s with subscriptionIds := s.subscriptionIds.insert id () }

def removeSubscriptionId (s : SessionRecord) (id : Nat) : SessionRecord :=
  { s with subscriptionIds := s.subscriptionIds.erase id }

def addRegistrationId (s : SessionRecord) (id : Nat) : SessionRecord :=
  { s with registrationIds := s.registrationIds.insert id () }

def removeRegistrationId (s : SessionRecord) (id : Nat) : SessionRecord :=
  { s with registrationIds := s.registrationIds.erase id }

/-- A record as it is sent with `SessionOpenCommand`: nothing subscribed or registered yet. -/
def opened (s : SessionRecord) : SessionRecord :=
  { s with subscriptionIds := .empty, registrationIds := .empty }

end SessionRecord

/-- An invocation issued to a callee and awaiting completion or cancellation. -/
structure PendingInvocation where
  invocationId : Nat
  registrationId : Nat
  procedure : String
  callerRequestId : Nat
  calleeSessionId : Nat
  calleeConnectionId : Option Nat
  allowProgress : Bool
  callerSessionId : Nat
  calleeInternalSendPort : Option SendPort := none
  callerInternalSendPort : Option SendPort := none
  initiatingOptions : Dict := .empty
  progressiveInvocation : Bool := false
  progressiveInvocationOpen : Bool := false
  timeout : Option Int := none
  timeoutForwarded : Bool := false
  disclosedCallerSessionId : Option Nat := none
  disclosedCallerAuthId : Option String := none
  disclosedCallerAuthRole : Option String := none
  cancelRequested : Bool := false
  cancelMode : Option String := none
  waitForCancelAck : Bool := false

/-- `s` called, or is called by, the invocation. -/
def PendingInvocation.Involves (i : PendingInvocation) (s : Nat) : Prop :=
  i.callerSessionId = s ∨ i.calleeSessionId = s

instance (i : PendingInvocation) (s : Nat) : Decidable (i.Involves s) :=
  inferInstanceAs (Decidable (_ ∨ _))

end Connectanum
