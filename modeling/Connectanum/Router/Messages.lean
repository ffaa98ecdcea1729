import Connectanum.Wire.Options
import Connectanum.Lib.Scripts

/-!
# Router — Messages

The messages between the clients, the workers, the boss and the internal sessions; what a worker
asks the state store through a `RealmContext`; and the handlers of the workers as scripts that
stop at each `await`.
-/

namespace Connectanum

open Collections Machine

namespace MessageTypes

def codePublish : Nat := 16
def codeSubscribe : Nat := 32
def codeCall : Nat := 48
def codeCancel : Nat := 49
def codeRegister : Nat := 64
def codeInvocation : Nat := 68
def codeYield : Nat := 70

end MessageTypes

namespace WampError

def notSupported : String := "wamp.error.not_supported"
def noSuchSession : String := "wamp.error.no_such_session"
def noSuchInvocation : String := "wamp.error.no_such_invocation"
def noSuchProcedure : String := "wamp.error.no_such_procedure"
def procedureAlreadyExists : String := "wamp.error.procedure_already_exists"
def invalidArgument : String := "wamp.error.invalid_argument"
def invalidUri : String := "wamp.error.invalid_uri"
def notAuthorized : String := "wamp.error.not_authorized"
def invocationCanceled : String := "wamp.error.canceled"
def runtimeError : String := "wamp.error.runtime_error"
def timeout : String := "wamp.error.timeout"
def unknown : String := "wamp.error.unknown"

end WampError

/-- The arguments of a message; the router passes them on as they are. -/
abbrev Payload := Value

/-- The messages of a client whose handling goes through the state store. -/
inductive ClientMessage where
  | subscribe (requestId : Nat) (options : Option SubscribeOptions) (topic : String)
  | register (requestId : Nat) (options : Option RegisterOptions) (procedure : String)
  | publish (requestId : Nat) (options : Option PublishOptions) (topic : String)
      (payload : Payload)
  | call (requestId : Nat) (options : Option CallOptions) (procedure : String)
      (payload : Payload)
  | cancel (requestId : Nat) (mode : Option String)
  | yield (invocationRequestId : Nat) (options : Option YieldOptions) (payload : Payload)
  /-- An ERROR whose request type is INVOCATION. -/
  | error (requestId : Nat) (details : Dict) (error : Option String) (payload : Payload)

/-- The messages that the router sends to a connection. -/
inductive RouterMessage where
  | subscribed (requestId subscriptionId : Nat)
  | registered (requestId registrationId : Nat)
  | published (requestId publicationId : Nat)
  | event (subscriptionId publicationId : Nat) (details : EventDetails) (payload : Payload)
  | invocation (invocationId registrationId : Nat) (details : InvocationDetails)
      (payload : Payload)
  | result (requestId : Nat) (details : ResultDetails) (payload : Payload)
  | error (requestType requestId : Nat) (details : Dict) (error : Option String)
      (payload : Payload)
  | interrupt (invocationId : Nat) (mode : String)

/-- The messages to the port of an internal session. -/
inductive InternalMessage where
  | event (subscriptionId publicationId : Nat) (topic : Option String)
      (publisherSessionId : Option Nat) (details : Dict) (payload : Payload)
  | invocation (invocationId registrationId : Nat) (procedure : String) (options : Dict)
      (realmUri : String) (callerSessionId : Option Nat) (callerAuthId : Option String)
      (callerAuthRole : Option String) (callerRequestId : Nat) (payload : Payload)
  | callResult (requestId : Nat) (progress : Bool) (ppt : PPTOptions) (details : Dict)
      (payload : Payload)
  | callError (requestId : Nat) (error : Option String) (details : Dict) (payload : Payload)
  | interrupt (invocationId : Nat) (mode : String)

/-- The first answer of an internal session on the reply port of an invocation. -/
inductive InternalResponse where
  | result (progress : Bool) (ppt : PPTOptions) (details : Dict) (payload : Payload)
  | error (error : Option String) (details : Dict) (payload : Payload)
  | invalid

/-- An invocation: its realm and its id. -/
abbrev InvocationKey := String × Nat

/-- What a message belongs to: the publications of one session under one subscription, or one
invocation.  No component of the router reads it. -/
inductive Stream where
  | publications (publisherSessionId subscriptionId : Nat)
  | invocation (key : InvocationKey)
  deriving DecidableEq

/-- A message on its way to a connection. -/
structure WireFrame where
  connectionId : Nat
  message : RouterMessage
  stream : Option Stream := none

/-- How a frame gets to the transport. -/
inductive Path where
  /-- `worker_send`: serialized by the sending worker. -/
  | send
  /-- `worker_forward_native_*`: the received bytes, rewritten by the native runtime. -/
  | native
  /-- `worker_forward_message`: serialized by the worker that owns the connection. -/
  | forward
  /-- Handed by the boss itself to the worker that owns the connection. -/
  | boss
  deriving DecidableEq

/-- Something that a handler sends. -/
inductive Post where
  | frame (path : Path) (frame : WireFrame)
  | internal (port : SendPort) (message : InternalMessage) (stream : Option Stream)

/-- A final RESULT, or an ERROR of a CALL. -/
def RouterMessage.isTerminal : RouterMessage → Bool
  | .result _ details _ => details.progress != some true
  | .error requestType _ _ _ _ => requestType == MessageTypes.codeCall
  | _ => false

def InternalMessage.isTerminal : InternalMessage → Bool
  | .callResult _ progress _ _ _ => !progress
  | .callError _ _ _ _ => true
  | _ => false

def Post.stream : Post → Option Stream
  | .frame _ f => f.stream
  | .internal _ _ s => s

/-- The post ends the call of the invocation `key` for its caller. -/
def Post.terminal (key : InvocationKey) : Post → Bool
  | .frame _ f => f.stream == some (.invocation key) && f.message.isTerminal
  | .internal _ m s => s == some (.invocation key) && m.isTerminal

/-- What the workers keep of a connection. -/
structure WorkerConnectionState where
  phaseOpen : Bool := false
  sessionId : Option Nat := none
  realmUri : Option String := none
  realmSettings : Option RealmSettings := none
  authId : Option String := none
  authRole : Option String := none
  authMethod : Option String := none
  authProvider : Option String := none

/-- What a handler finds when it runs on: the state of its connection, and how it fares with the
message it handles. -/
structure View where
  state : WorkerConnectionState
  /-- The connections to which the message can be forwarded without decoding it. -/
  native : List Nat := []
  /-- The native handle of the message can be retained. -/
  retains : Bool := true
  /-- What transferring the message's payload throws. -/
  failure : Option Failure := none

/-- The calls of a `RealmContext`, which knows its realm. -/
inductive RealmRequest where
  | snapshot
  | addSubscription (sessionId : Nat) (topic : String) (matchPolicy : TopicMatchPolicy)
      (details : Dict)
  | registerProcedure (sessionId : Nat) (procedure : String) (details : Dict)
  | matchSubscriptions (publisherSessionId : Nat) (topic : String) (options : Dict)
  | dispatchInvocation (callerSessionId requestId : Nat) (procedure : String) (options : Dict)
  | getInvocation (invocationId : Nat)
  | findInvocationByCaller (callerSessionId requestId : Nat)
  | cancelInvocation (invocationId : Nat) (mode : String) (waitForAck : Bool)
  | completeInvocation (invocationId : Nat)
  | touchInvocation (invocationId : Nat)

/-- The command that a call sends to the store. -/
def RealmRequest.command (realmUri : String) (port : SendPort) :
    RealmRequest → RouterStateCommand
  | .snapshot => .realmSnapshot realmUri none port
  | .addSubscription s topic policy details => .subscriptionAdd realmUri s topic policy details port
  | .registerProcedure s procedure details => .procedureRegister realmUri s procedure details port
  | .matchSubscriptions s topic options => .subscriptionMatch realmUri topic s options port
  | .dispatchInvocation s request procedure options =>
      .invocationDispatch realmUri s request procedure options port
  | .getInvocation id => .invocationGet realmUri id port
  | .findInvocationByCaller s request => .invocationFindByCaller realmUri s request port
  | .cancelInvocation id mode waitForAck => .invocationCancel realmUri id mode waitForAck port
  | .completeInvocation id => .invocationComplete realmUri id (some port)
  | .touchInvocation id => .invocationTouch realmUri id (some port)

/-- The places at which a handler awaits the store. -/
inductive Point where
  | subscribeAdd | subscribeSnapshot
  | registerAdd | registerSnapshot
  | publishMatch
  | callDispatch
  | relayGet | relayMismatch
  /-- A response that is not relayed, with the port of an internal caller. -/
  | relayRefused (callerPort : Option SendPort)
  | relayTouch | relayComplete | relaySnapshot
  | relayErrorGet | relayErrorMismatch | relayErrorComplete | relayErrorSnapshot
  | cancelFind | cancelSkip | cancelMark | cancelSnapshot
  /-- The reading of the invocation of a YIELD, progressive or not. -/
  | yieldGet (progress : Bool)
  | yieldForeign | yieldDisallowed | yieldTouch | yieldComplete | yieldSnapshot
  | yieldAbandon
  | errorGet | errorForeign | errorComplete | errorSnapshot
  deriving DecidableEq

/-- What a handler can ask for. -/
inductive Query where
  /-- What it finds at this moment. -/
  | look
  /-- The same, where a CALL hands its accepted invocation on, to an internal session or to a
  connection. -/
  | handOver (key : InvocationKey) (toInternal : Bool)
  /-- The same, where a callee's message is handed to the caller of its invocation. -/
  | reply (key : InvocationKey)
  | store (point : Point) (realmUri : String) (request : RealmRequest)
  | authorize (request : AuthorizationRequest)
  /-- The answer of an internal callee. -/
  | response

def Query.Answer : Query → Type
  | .look | .handOver _ _ | .reply _ => View
  | .store _ _ _ => StoreReply
  | .authorize _ => AuthorizationDecision
  | .response => InternalResponse

/-- A handler of the workers. -/
abbrev Handler := Script Post Query Query.Answer

/-! ### Reading the store's replies -/

namespace StoreReply

/-- A reply of a kind that the caller does not expect. -/
def unexpected (what : String) : Failure := .state ("Unexpected " ++ what)

def asSnapshot : StoreReply → Except Failure RealmSnapshot
  | .snapshot response => .ok response.snapshot
  | .failed e => .error (.state e.toText)
  | _ => .error (unexpected "snapshot response")

/-- The answer to `addSubscription` and `registerProcedure`. -/
def asId (what : String) : StoreReply → Except Failure Nat
  | .id newId => .ok newId
  | .failed e => .error (.state e.toText)
  | .thrown (.argument e) => .error (.argument e)
  | .thrown (.state message) => .error (.state message)
  | .thrown e => .error (.other e.toText)
  | _ => .error (unexpected what)

def asRouting : StoreReply → Except Failure PublicationRouting
  | .routing found => .ok found
  | .failed e => .error (.state e.toText)
  | _ => .error (unexpected "subscription match response")

def asDispatch : StoreReply → Except Failure InvocationDispatchResult
  | .dispatched result => .ok result
  | .failed e => .error (.state e.toText)
  | _ => .error (unexpected "invocation response")

def asInvocation : StoreReply → Except Failure (Option PendingInvocation)
  | .invocation record => .ok record
  | .failed e => .error (.state e.toText)
  | _ => .error (.other "type cast")

/-- The answer to `cancelInvocation` and `touchInvocation`. -/
def asFlag : StoreReply → Except Failure Bool
  | .flag value => .ok value
  | .failed e => .error (.state e.toText)
  | _ => .error (unexpected "cancel response")

end StoreReply

/-- `_findConnectionIdForSession`, on the snapshot. -/
def findConnectionIdForSession (snapshot : RealmSnapshot) (sessionId : Nat) : Option Nat :=
  (snapshot.sessions.find? fun session => session.id == sessionId).map (·.connectionId)

end Connectanum
