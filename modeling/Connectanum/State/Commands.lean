import Connectanum.State.Realm

/-!
# State — Commands

What is sent to the state store, and what the store sends: replies on the ports that the
commands carry, and the events of its broadcast streams.
-/

namespace Connectanum

open Collections

inductive SubscriptionMetaEventType where
  | created
  | deleted
  | subscribed
  | unsubscribed
  deriving DecidableEq

structure SubscriptionMetaEvent where
  realmUri : String
  type : SubscriptionMetaEventType
  subscriptionId : Nat
  topic : String
  matchPolicy : TopicMatchPolicy
  created : Nat
  details : Dict
  sessionId : Option Nat

inductive RegistrationMetaEventType where
  | created
  | deleted
  | registered
  | unregistered
  deriving DecidableEq

structure RegistrationMetaEvent where
  realmUri : String
  type : RegistrationMetaEventType
  registrationId : Nat
  procedure : String
  policy : InvocationPolicy
  matchPolicy : ProcedureMatchPolicy
  created : Nat
  details : Dict
  sessionId : Option Nat

inductive SessionMetaEventType where
  | joined
  | left
  deriving DecidableEq

structure SessionMetaEvent where
  realmUri : String
  type : SessionMetaEventType
  sessionId : Nat
  authId : Option String
  authRole : Option String
  authMethod : Option String
  authProvider : Option String

structure InvocationTimeoutEvent where
  realmUri : String
  invocationId : Nat
  callerRequestId : Nat
  callerSessionId : Nat
  calleeSessionId : Nat
  callerConnectionId : Option Nat
  calleeConnectionId : Option Nat
  callerInternalSendPort : Option SendPort
  calleeInternalSendPort : Option SendPort

/-- Result of an invocation dispatch request. -/
structure InvocationDispatchResult where
  invocationId : Nat
  registrationId : Nat
  calleeSessionId : Nat
  calleeConnectionId : Nat
  calleeInternalSendPort : Option SendPort
  callerInternalSendPort : Option SendPort
  disclosedCallerSessionId : Option Nat
  disclosedCallerAuthId : Option String
  disclosedCallerAuthRole : Option String
  initiatingOptions : Dict
  progressiveInvocation : Bool
  progress : Bool
  timeoutForwarded : Bool

structure RealmSnapshotResponse where
  snapshot : RealmSnapshot
  isNew : Bool

/-- The running totals of the store. -/
structure StoreCounters where
  totalInvocationsDispatched : Nat := 0
  totalPublicationsRouted : Nat := 0
  totalRetryDeduplicationThrottleRejects : Nat := 0
  totalRetryDeduplicationDebounceReplacements : Nat := 0
  totalRetryDeduplicationCapacityRejects : Nat := 0
  totalRetryDeduplicationExpirations : Nat := 0

structure RouterStateMetrics where
  realmCount : Nat
  sessionCount : Nat
  subscriptionCount : Nat
  registrationCount : Nat
  pendingInvocationCount : Nat
  retryDeduplicationActiveCount : Nat
  counters : StoreCounters

/-- What the store sends on a reply port. -/
inductive StoreReply where
  | snapshot (response : RealmSnapshotResponse)
  | id (id : Nat)
  | invocation (record : Option PendingInvocation)
  | flag (value : Bool)
  | caller (info : Option SessionInfo)
  | dispatched (result : InvocationDispatchResult)
  | routing (routing : PublicationRouting)
  | metrics (metrics : RouterStateMetrics)
  /-- `StoreErrorResponse(error.toString())`. -/
  | failed (error : StoreError)
  /-- The error object itself, as a failed registration sends it. -/
  | thrown (error : StoreError)

/-- Everything that leaves the store, in the order in which it is sent. -/
inductive StoreOutput where
  | reply (port : SendPort) (payload : StoreReply)
  | stateChanged (realmUri : String) (version : Nat)
  | sessionMeta (event : SessionMetaEvent)
  | subscriptionMeta (event : SubscriptionMetaEvent)
  | registrationMeta (event : RegistrationMetaEvent)
  | invocationTimeout (event : InvocationTimeoutEvent)

/-- The commands handled by the store. -/
inductive RouterStateCommand where
  | realmEnsure (realmUri : String)
  | realmSnapshot (realmUri : String) (knownVersion : Option Nat) (replyPort : SendPort)
  | sessionOpen (realmUri : String) (session : SessionRecord)
  | sessionAllocateId (replyPort : SendPort)
  | sessionClose (realmUri : String) (sessionId : Nat)
  | subscriptionAdd (realmUri : String) (sessionId : Nat) (topic : String)
      (matchPolicy : TopicMatchPolicy) (details : Dict) (replyPort : SendPort)
  | subscriptionRemove (realmUri : String) (sessionId subscriptionId : Nat)
  | subscriptionMatch (realmUri topic : String) (publisherSessionId : Nat) (options : Dict)
      (replyPort : SendPort)
  | procedureRegister (realmUri : String) (sessionId : Nat) (procedure : String) (details : Dict)
      (replyPort : SendPort)
  | procedureUnregister (realmUri : String) (sessionId registrationId : Nat)
  | invocationDispatch (realmUri : String) (callerSessionId requestId : Nat) (procedure : String)
      (options : Dict) (replyPort : SendPort)
  | invocationFindByCaller (realmUri : String) (callerSessionId requestId : Nat)
      (replyPort : SendPort)
  | invocationCancel (realmUri : String) (invocationId : Nat) (mode : String) (waitForAck : Bool)
      (replyPort : SendPort)
  | invocationGet (realmUri : String) (invocationId : Nat) (replyPort : SendPort)
  | invocationCaller (realmUri : String) (invocationId calleeSessionId : Nat)
      (replyPort : SendPort)
  | invocationComplete (realmUri : String) (invocationId : Nat) (replyPort : Option SendPort)
  | invocationTouch (realmUri : String) (invocationId : Nat) (replyPort : Option SendPort)
  | metricsSnapshot (replyPort : SendPort)

/-- What makes the store act: a command, or one of its timers. -/
inductive StoreInput where
  | command (command : RouterStateCommand)
  | invocationTimer (realmUri : String) (invocationId : Nat)
  | debounceTimer (key : RetryDeduplicationKey)

/-- What the store reads from outside itself while it handles one input: the clock, in
milliseconds, and the outcome of `Random.nextInt`. -/
structure StoreEnv where
  now : Nat := 0
  draw : Nat := 0

end Connectanum
