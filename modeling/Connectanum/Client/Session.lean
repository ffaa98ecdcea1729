import Connectanum.State.Subscription
import Mathlib.Logic.Function.Basic

/-!
# Client — Session

The session of the Dart client (`session.dart`): the six tables of pending requests, the handlers of
its subscriptions, and what a transport that closes does to them.

Dart runs one piece of code at a time, up to its next `await`, and such a piece is one step here.
Listeners of a stream are called from inside of a step; what they do to the session is a step of
its own right after it.  Invocations and the payloads of messages are left out.
-/

namespace Connectanum

open Collections

namespace Client

/-- The requests that wait in a table for their reply. -/
inductive Kind where
  | call
  | publish
  | subscribe
  | unsubscribe
  | register
  | unregister
  deriving DecidableEq, Repr

/-- A request: the table it waits in, and its id there. -/
structure Request where
  kind : Kind
  id : Nat
  deriving DecidableEq, Repr

/-- The messages that a session takes from its transport.  Any other one leaves the tables alone. -/
inductive Message where
  | result (callRequestId : Nat) (progress : Bool)
  | published (publishRequestId publicationId : Nat)
  | subscribed (subscribeRequestId subscriptionId : Nat)
  | unsubscribed (unsubscribeRequestId : Nat) (subscription : Option Nat)
  | registered (registerRequestId registrationId : Nat)
  | unregistered (unregisterRequestId : Nat)
  | event (subscriptionId publicationId : Nat)
  | error (requestTypeId requestId : Nat) (error : String)
  | other
  deriving DecidableEq, Repr

/-- What the session sends in the functions below. -/
inductive Sent where
  | call (requestId : Nat) (procedure : String)
  | publish (requestId : Nat) (topic : String) (acknowledge : Bool)
  | subscribe (requestId : Nat) (topic : String) (policy : MatchPolicy)
  | unsubscribe (requestId subscriptionId : Nat)
  | register (requestId : Nat) (procedure : String)
  | unregister (requestId registrationId : Nat)
  deriving DecidableEq, Repr

def codePublish : Nat := 16

def codeSubscribe : Nat := 32

def codeUnsubscribe : Nat := 34

def codeCall : Nat := 48

def codeCancel : Nat := 49

def codeRegister : Nat := 64

def codeUnregister : Nat := 66

/-- The table in which `_handleError` looks for the request of an error. -/
def tableOfError (requestTypeId : Nat) : Option Kind :=
  if requestTypeId = codeCall then some .call
  else if requestTypeId = codeCancel then some .call
  else if requestTypeId = codePublish then some .publish
  else if requestTypeId = codeSubscribe then some .subscribe
  else if requestTypeId = codeUnsubscribe then some .unsubscribe
  else if requestTypeId = codeRegister then some .register
  else if requestTypeId = codeUnregister then some .unregister
  else none

/-- A pending call ends in a stream (`_PendingCallStream`) or in a future
(`_PendingCallLazyPayloadFuture`). -/
structure PendingCall where
  procedure : String
  stream : Bool
  deriving DecidableEq, Repr

/-- The policy is in the message only; it is kept here to tell subscriptions apart. -/
structure PendingSubscribe where
  topic : String
  policy : MatchPolicy
  deriving DecidableEq, Repr

/-- What a table holds for a request, next to its completer. -/
abbrev Entry : Kind → Type
  | .call => PendingCall
  | .publish => Unit
  | .subscribe => PendingSubscribe
  | .unsubscribe => Nat
  | .register => String
  | .unregister => Nat

/-- How the future or the stream of a request ends. -/
inductive Ending where
  | reply (m : Message)
  /-- The error of a closed transport. -/
  | closed
  /-- The listener of the stream cancelled its subscription. -/
  | cancelled
  /-- The transport refused the message, and the exception went to the caller. -/
  | threw
  deriving DecidableEq, Repr

/-- How far `_handleTransportClosed` is.  `opened` stands for `_incomingClosed = false`. -/
inductive Closing where
  | opened
  /-- It has closed one call and waits for its stream, with more calls to close. -/
  | calls (awaited : Nat × PendingCall) (rest : List (Nat × PendingCall))
  /-- The tables are empty, and it waits for the streams of subscriptions and registrations. -/
  | draining
  | closed
  deriving DecidableEq, Repr

/-- The counters and the tables, and the listeners of the streams. -/
structure Requests where
  nextId : Kind → Nat := fun _ => 1
  pending : (k : Kind) → LinkedMap Nat (Entry k) := fun _ => .empty
  closing : Closing := .opened
  /-- The calls whose stream has a listener that takes what comes. -/
  listening : List Nat := []
  /-- The requests made until the end of the close. -/
  issued : List Request := []
  /-- The futures and streams that have ended, in order. -/
  endings : List (Request × Ending) := []

namespace Requests

/-- A request with its entry: the entry is stored, and then the message goes to the transport. -/
def request (s : Requests) (k : Kind) (e : Entry k) (sent : Bool) : Requests :=
  { s with
    nextId := Function.update s.nextId k (s.nextId k + 1)
    pending := Function.update s.pending k ((s.pending k).insert (s.nextId k) e)
    issued := if s.closing = .closed then s.issued else s.issued ++ [⟨k, s.nextId k⟩]
    endings := if sent then s.endings else s.endings ++ [(⟨k, s.nextId k⟩, .threw)] }

/-- Takes the entry out of its table and ends the request. -/
def settle (s : Requests) (r : Request) (e : Ending) : Requests :=
  { s with
    pending := Function.update s.pending r.kind ((s.pending r.kind).erase r.id)
    endings := s.endings ++ [(r, e)] }

/-- Ends the request if its table has it. -/
def answer (s : Requests) (r : Request) (e : Ending) : Requests :=
  match (s.pending r.kind).get? r.id with
  | none => s
  | some _ => s.settle r e

/-- The tables other than that of calls are emptied. -/
def closeTables (s : Requests) : Requests :=
  let ended := [Kind.publish, .subscribe, .unsubscribe, .register, .unregister].flatMap fun k =>
    (s.pending k).keys.map fun id => (Request.mk k id, Ending.closed)
  { s with
    pending := fun k => if k = .call then s.pending k else .empty
    endings := s.endings ++ ended
    closing := .draining }

end Requests

/-- A handler: the object of a SUBSCRIBED message, told apart by the request that it answers. -/
structure Subscribed where
  subscribeRequestId : Nat
  subscriptionId : Nat
  topic : String
  policy : MatchPolicy
  deriving DecidableEq, Repr

structure Registered where
  registerRequestId : Nat
  registrationId : Nat
  procedure : Option String
  deriving DecidableEq, Repr

structure Session extends Requests where
  subscriptionHandlers : LinkedMap Nat (List Subscribed) := .empty
  subscriptions : LinkedMap Nat Subscribed := .empty
  registrations : LinkedMap Nat Registered := .empty
  sent : List Sent := []
  /-- The events that handlers were called with. -/
  delivered : List (Subscribed × Nat) := []

namespace Session

/-! ### Requests -/

/-- `message` with the id that the request gets.  `sends` is whether the transport takes it. -/
def request (s : Session) (k : Kind) (e : Entry k) (message : Nat → Sent) (sends : Bool) :
    Session :=
  { s with
    toRequests := s.toRequests.request k e sends
    sent := if sends then s.sent ++ [message (s.nextId k)] else s.sent }

def call (s : Session) (procedure : String) (stream sends : Bool) : Session :=
  s.request .call ⟨procedure, stream⟩ (.call · procedure) sends

/-- Without acknowledgement, nothing waits for a reply. -/
def publish (s : Session) (topic : String) (acknowledge sends : Bool) : Session :=
  if acknowledge then s.request .publish () (.publish · topic true) sends
  else
    { s with
      nextId := Function.update s.nextId .publish (s.nextId .publish + 1)
      sent := if sends then s.sent ++ [.publish (s.nextId .publish) topic false] else s.sent }

def subscribe (s : Session) (topic : String) (policy : MatchPolicy) (sends : Bool) : Session :=
  s.request .subscribe ⟨topic, policy⟩ (.subscribe · topic policy) sends

def unsubscribe (s : Session) (subscriptionId : Nat) (sends : Bool) : Session :=
  s.request .unsubscribe subscriptionId (.unsubscribe · subscriptionId) sends

def register (s : Session) (procedure : String) (sends : Bool) : Session :=
  s.request .register procedure (.register · procedure) sends

def unregister (s : Session) (registrationId : Nat) (sends : Bool) : Session :=
  s.request .unregister registrationId (.unregister · registrationId) sends

/-- The handlers of a subscription. -/
def handlers (s : Session) (subscriptionId : Nat) : List Subscribed :=
  (s.subscriptionHandlers.get? subscriptionId).getD []

/-- `releaseSubscription`: the last handler goes with the subscription, any other one alone. -/
def releaseSubscription (s : Session) (subscribed : Subscribed) (sends : Bool) : Session :=
  let subscriptionId := subscribed.subscriptionId
  match s.subscriptionHandlers.get? subscriptionId with
  | none => s
  | some handlers =>
      if subscribed ∉ handlers then s
      else if handlers.length = 1 then s.unsubscribe subscriptionId sends
      else
        let rest := handlers.filter (· ≠ subscribed)
        { s with
          subscriptionHandlers := s.subscriptionHandlers.insert subscriptionId rest
          subscriptions :=
            match rest with
            | first :: _ =>
                if s.subscriptions.get? subscriptionId = some subscribed then
                  s.subscriptions.insert subscriptionId first
                else s.subscriptions
            | [] => s.subscriptions }

/-- `onCancel` of the stream of a call. -/
def cancel (s : Session) (requestId : Nat) : Session :=
  let streams := ((s.pending .call).get? requestId).any fun (p : PendingCall) => p.stream
  { s with
    toRequests :=
      { (if streams then s.toRequests.answer ⟨.call, requestId⟩ .cancelled else s.toRequests) with
        listening := requestId :: s.listening } }

/-! ### Messages -/

def removeSubscription (s : Session) (subscriptionId : Nat) : Session :=
  { s with
    subscriptionHandlers := s.subscriptionHandlers.erase subscriptionId
    subscriptions := s.subscriptions.erase subscriptionId }

def removeRegistration (s : Session) (registrationId : Nat) : Session :=
  { s with registrations := s.registrations.erase registrationId }

def answer (s : Session) (r : Request) (m : Message) : Session :=
  { s with toRequests := s.toRequests.answer r (.reply m) }

/-- An interim result of a call goes to its listener, and the call stays. -/
def handleResult (s : Session) (m : Message) (callRequestId : Nat) (progress : Bool) : Session :=
  if progress then s else s.answer ⟨.call, callRequestId⟩ m

/-- The handler joins those of its subscription, and becomes their first if there is none. -/
def attach (s : Session) (subscribed : Subscribed) : Session :=
  let id := subscribed.subscriptionId
  { s with
    subscriptionHandlers := s.subscriptionHandlers.insert id (s.handlers id ++ [subscribed])
    subscriptions :=
      if s.subscriptions.contains id then s.subscriptions else s.subscriptions.insert id subscribed }

def handleSubscribed (s : Session) (m : Message) (subscribeRequestId subscriptionId : Nat) :
    Session :=
  match (s.pending .subscribe).get? subscribeRequestId with
  | none => s
  | some (pending : PendingSubscribe) =>
      (s.attach ⟨subscribeRequestId, subscriptionId, pending.topic, pending.policy⟩).answer
        ⟨.subscribe, subscribeRequestId⟩ m

/-- The reply to a request, the news that the router ended a subscription, or both. -/
def handleUnsubscribed (s : Session) (m : Message) (unsubscribeRequestId : Nat)
    (revoked : Option Nat) : Session :=
  let s' :=
    match (s.pending .unsubscribe).get? unsubscribeRequestId with
    | none => s
    | some (subscriptionId : Nat) =>
        (s.removeSubscription subscriptionId).answer ⟨.unsubscribe, unsubscribeRequestId⟩ m
  match revoked with
  | none => s'
  | some subscriptionId => s'.removeSubscription subscriptionId

/-- The handlers that are called with an event, in order: up to the first that throws. -/
def reached (throwing : List Nat) : List Subscribed → List Subscribed
  | [] => []
  | h :: rest => h :: if h.subscribeRequestId ∈ throwing then [] else reached throwing rest

def handleEvent (s : Session) (subscriptionId publicationId : Nat) (throwing : List Nat) :
    Session :=
  { s with
    delivered := s.delivered ++
      (reached throwing (s.handlers subscriptionId)).map fun h => (h, publicationId) }

/-- The registration is entered even if no request waits for it. -/
def handleRegistered (s : Session) (m : Message) (registerRequestId registrationId : Nat) :
    Session :=
  let procedure : Option String := (s.pending .register).get? registerRequestId
  { s with
    registrations :=
      s.registrations.insert registrationId ⟨registerRequestId, registrationId, procedure⟩
    toRequests := s.toRequests.answer ⟨.register, registerRequestId⟩ (.reply m) }

def handleUnregistered (s : Session) (m : Message) (unregisterRequestId : Nat) : Session :=
  match (s.pending .unregister).get? unregisterRequestId with
  | none => s
  | some (registrationId : Nat) =>
      (s.removeRegistration registrationId).answer ⟨.unregister, unregisterRequestId⟩ m

def handleError (s : Session) (m : Message) (requestTypeId requestId : Nat) : Session :=
  match tableOfError requestTypeId with
  | none => s
  | some k => s.answer ⟨k, requestId⟩ m

/-- `_handleTransportMessage`; `throwing` names the handlers whose callback throws. -/
def handleTransportMessage (s : Session) (m : Message) (throwing : List Nat) : Session :=
  match m with
  | .result id progress => s.handleResult m id progress
  | .published id _ => s.answer ⟨.publish, id⟩ m
  | .subscribed id subscriptionId => s.handleSubscribed m id subscriptionId
  | .unsubscribed id revoked => s.handleUnsubscribed m id revoked
  | .registered id registrationId => s.handleRegistered m id registrationId
  | .unregistered id => s.handleUnregistered m id
  | .event subscriptionId publicationId => s.handleEvent subscriptionId publicationId throwing
  | .error requestTypeId id _ => s.handleError m requestTypeId id
  | .other => s

/-! ### A transport that closes -/

/-- The rest of `_handleTransportClosed` from the calls that it still has to close, up to the next
`await`. -/
def closeCalls (s : Session) : List (Nat × PendingCall) → Session
  | [] =>
      { s with
        toRequests := s.toRequests.closeTables
        subscriptionHandlers := .empty
        subscriptions := .empty
        registrations := .empty }
  | p :: rest =>
      { s with
        endings := s.endings ++ [(⟨.call, p.1⟩, .closed)]
        closing := .calls p rest }

def handleTransportClosed (s : Session) : Session :=
  if s.closing = .opened then
    { s with pending := Function.update s.pending .call .empty }.closeCalls
      (s.pending .call).entries
  else s

/-- The future that `_handleTransportClosed` awaits completes.  That of a closed stream does once a
listener has taken its last event, so never for a stream that nobody listens to. -/
def resume (s : Session) : Session :=
  match s.closing with
  | .calls p rest => if p.2.stream = true ∧ p.1 ∉ s.listening then s else s.closeCalls rest
  | .draining => { s with closing := .closed }
  | .opened | .closed => s

/-! ### Runs -/

/-- What can happen next. -/
inductive Input where
  | call (procedure : String) (stream sends : Bool)
  | publish (topic : String) (acknowledge sends : Bool)
  | subscribe (topic : String) (policy : MatchPolicy) (sends : Bool)
  | unsubscribe (subscriptionId : Nat) (sends : Bool)
  | releaseSubscription (subscribed : Subscribed) (sends : Bool)
  | register (procedure : String) (sends : Bool)
  | unregister (registrationId : Nat) (sends : Bool)
  | listen (requestId : Nat)
  | pause (requestId : Nat)
  | cancel (requestId : Nat)
  | message (m : Message) (throwing : List Nat)
  | transportClosed
  | resume

def step (s : Session) : Input → Session
  | .call procedure stream sends => s.call procedure stream sends
  | .publish topic acknowledge sends => s.publish topic acknowledge sends
  | .subscribe topic policy sends => s.subscribe topic policy sends
  | .unsubscribe subscriptionId sends => s.unsubscribe subscriptionId sends
  | .releaseSubscription subscribed sends => s.releaseSubscription subscribed sends
  | .register procedure sends => s.register procedure sends
  | .unregister registrationId sends => s.unregister registrationId sends
  | .listen requestId => { s with listening := requestId :: s.listening }
  | .pause requestId => { s with listening := s.listening.filter (· ≠ requestId) }
  | .cancel requestId => s.cancel requestId
  | .message m throwing => s.handleTransportMessage m throwing
  | .transportClosed => s.handleTransportClosed
  | .resume => s.resume

end Session

end Client

end Connectanum
