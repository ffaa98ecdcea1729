import Connectanum.State.Session
import Connectanum.Handshake.Selection

/-!
# Handshake — Machine

The handshake of a worker's connections: HELLO, AUTHENTICATE and GOODBYE, the removal of a
connection and the drain of the worker.  A handler runs in segments, from one `await` to the next;
where it waits is an `Await`, with the local variables that it goes on with.  The state of a
connection is an object that the handler keeps, also when the worker has dropped it from its
table.

What a segment does for others to see (frames, commands to the store, calls of an authenticator,
entries of the security tracker) is in the `HandshakeEvent`s it emits.
-/

namespace Connectanum

open Collections

/-! ### Messages and state -/

inductive HandshakePhase where
  | awaitingHello
  | awaitingAuthenticate
  | opened
  | aborted
  deriving DecidableEq

structure HelloDetails where
  authid : Option String := none
  authrole : Option String := none
  authmethods : Option (List String) := none
  deriving DecidableEq

structure Hello where
  realm : Option String
  details : HelloDetails := {}

/-- The messages that open and close a session.  `profileAccepted` is the answer of the FlatBuffers
profile, which counts on FlatBuffers connections only. -/
inductive HandshakeMessage where
  | hello (hello : Hello) (profileAccepted : Bool)
  | authenticate (signature : Option String) (profileAccepted : Bool)
  | goodbye

structure AuthSuccess where
  authId : String
  authRole : String
  details : Dict := .empty

inductive AuthResult where
  | challenge
  | success (success : AuthSuccess)
  | failure (reason : String)

/-- `Details.forWelcome`. -/
structure WelcomeDetails where
  realm : Option String
  authId : String
  authRole : String
  authMethod : String
  authProvider : String
  deriving DecidableEq

/-- The part of `WorkerConnectionState` that belongs to the handshake.  An authenticator is known
by a number. -/
structure HandshakeState where
  phase : HandshakePhase := .awaitingHello
  sessionId : Option Nat := none
  realmUri : Option String := none
  realmSettings : Option AuthRealm := none
  welcomeDetails : Option WelcomeDetails := none
  authMethod : Option String := none
  authenticator : Option Nat := none
  authContext : Option HelloDetails := none
  pendingAuthId : Option String := none
  challengeIssuedAt : Option Nat := none

inductive HandshakeFrame where
  | abort (reason : String)
  | challenge (method : String)
  | welcome (sessionId : Nat) (details : WelcomeDetails)
  | goodbye (reason : String)

inductive HandshakeEvent where
  | sent (frame : HandshakeFrame)
  /-- An anonymous selection, with its options. -/
  | anonymous (options : Dict)
  /-- `authenticator.onHello`. -/
  | started (authenticator : Nat) (realmUri authId : Option String)
  /-- `authenticator.onAuthenticate`. -/
  | evaluated (authenticator : Nat) (realmUri authId : Option String)
  /-- What the authenticator answered. -/
  | verdict (authenticator : Nat) (result : AuthResult)
  /-- `authenticator.onAbort`. -/
  | onAbort (authenticator : Nat)
  /-- `SessionOpenCommand`, and the authenticator that it rests on. -/
  | sessionOpen (realmUri : String) (session : SessionRecord) (authenticator : Option Nat)
  /-- `SessionCloseCommand`. -/
  | sessionClose (realmUri : String) (sessionId : Nat)
  /-- `AuthSecurityTracker.recordFailure`, where it takes a record. -/
  | failure (realmUri authId : String)
  /-- `AuthSecurityTracker.recordSuccess`. -/
  | success (realmUri authId : String)
  /-- The connection is removed or drained. -/
  | leaving
  /-- GOODBYE was received. -/
  | farewell

/-! ### Segments -/

/-- What follows the ABORT that a handler sends. -/
inductive Exit where
  | refused
  | locked
  | noMethod (realm : AuthRealm) (authId : Option String)
  /-- An unexpected AUTHENTICATE, a missing signature, or an exception. -/
  | caught
  | profile
  | timedOut (limits : RealmLimitSettings)
  | failed (inHello : Bool)

/-- What follows a frame. -/
inductive Sending where
  | abort (exit : Exit)
  | challenge (inHello : Bool)
  | welcomeAnonymous (sessionId : Nat) (details : WelcomeDetails)
  | welcome (authenticator sessionId : Nat) (details : WelcomeDetails) (success : AuthSuccess)
      (inHello : Bool)
  | goodbye

/-- Where a handler awaits something. -/
inductive Await where
  /-- `_abortPendingAuthentication`, before `sendAbort`. -/
  | abortFirst (reason : String) (exit : Exit)
  /-- `_abortPendingAuthentication`, in `sendAbort`. -/
  | abortInSend (reason : String) (exit : Exit)
  | allocateAnonymous (details : WelcomeDetails)
  | allocate (realm : AuthRealm) (method : String) (details : HelloDetails)
  | create (realm : AuthRealm) (method : String) (details : HelloDetails)
  | onHello (authenticator : Nat) (method : String)
  | onAuthenticate (authenticator : Nat)
  | reallocate (authenticator : Nat) (method : String) (success : AuthSuccess) (inHello : Bool)
  /-- A frame that was sent in the phase `previous`. -/
  | sending (previous : HandshakePhase) (next : Sending)
  /-- `_abortPendingAuthentication`, in `_closeSession`. -/
  | closing

/-- What a handler waits for. -/
inductive Outcome where
  | done
  | thrown
  | allocated (id : Nat)
  | result (result : AuthResult)

/-- The connection of a handler, as far as it reads it. -/
structure Host where
  connectionId : Nat
  flatBuffers : Bool
  workerId : Nat

/-- What a segment works on. -/
structure Scene where
  state : HandshakeState
  tracker : AuthSecurityTracker
  events : List HandshakeEvent := []

/-- The scene that a segment leaves, and where the handler awaits something then. -/
abbrev Segment := Scene × Option Await

namespace Scene

def emit (sc : Scene) (event : HandshakeEvent) : Scene := { sc with events := sc.events ++ [event] }

def update (sc : Scene) (f : HandshakeState → HandshakeState) : Scene :=
  { sc with state := f sc.state }

/-- The handler ends. -/
def finish (sc : Scene) : Segment := (sc, none)

/-- `_abortPendingAuthentication`, up to its `await`. -/
def abortPending (sc : Scene) : Scene :=
  if sc.state.phase ≠ .awaitingHello ∧ sc.state.phase ≠ .awaitingAuthenticate then sc
  else
    match sc.state.authenticator, sc.state.authContext with
    | some a, some _ =>
        (sc.update fun s => { s with authenticator := none, authContext := none }).emit (.onAbort a)
    | _, _ => sc

/-- `sendAbort`, up to its first `await`. -/
def sendAbort (sc : Scene) (reason : String) (exit : Exit) : Segment :=
  (sc.abortPending, some (.abortInSend reason exit))

/-- `_abortPendingAuthentication`, followed by `sendAbort`. -/
def abortThenSend (sc : Scene) (reason : String) (exit : Exit) : Segment :=
  (sc.abortPending, some (.abortFirst reason exit))

/-- `sendMessage`. -/
def sendMessage (sc : Scene) (frame : HandshakeFrame) (next : Sending) : Segment :=
  (sc.emit (.sent frame), some (.sending sc.state.phase next))

/-- The `catch` of `_handleHello`, or that of `_handleAuthenticate`. -/
def throwIn (sc : Scene) (inHello : Bool) : Segment :=
  if inHello then sc.sendAbort "wamp.error.not_authorized" .caught
  else sc.abortThenSend "wamp.error.not_authorized" .caught

def recordFailure (sc : Scene) (realmUri authId : String) (limits : RealmLimitSettings)
    (now : Nat) : Scene :=
  let sc' := { sc with tracker := sc.tracker.recordFailure realmUri authId limits now }
  if sc.tracker.takesFailure realmUri authId limits now then sc'.emit (.failure realmUri authId)
  else sc'

/-- What the handler does after its ABORT. -/
def runExit (sc : Scene) (now : Nat) : Exit → Scene
  | .refused => sc.update fun s => { s with phase := .aborted }
  | .locked => sc.update fun s => { s with pendingAuthId := none, phase := .aborted }
  | .noMethod realm authId =>
      (match authId with
      | some id => sc.recordFailure realm.name id realm.limits now
      | none => sc).update fun s => { s with phase := .aborted }
  | .caught =>
      sc.update fun s => { s with phase := .aborted, authenticator := none, authContext := none }
  | .profile => sc
  | .timedOut limits =>
      (match sc.state.realmUri, sc.state.pendingAuthId with
      | some realmUri, some id => sc.recordFailure realmUri id limits now
      | _, _ => sc).update fun s =>
        { s with
          phase := .aborted
          authenticator := none
          authContext := none
          pendingAuthId := none
          challengeIssuedAt := none }
  | .failed _ =>
      (match sc.state.realmUri, sc.state.pendingAuthId, sc.state.realmSettings with
      | some realmUri, some id, some realm => sc.recordFailure realmUri id realm.limits now
      | _, _, _ => sc).update fun s =>
        { s with
          phase := .aborted
          authenticator := none
          authContext := none
          pendingAuthId := none
          challengeIssuedAt := none }

/-! ### HELLO -/

/-- `_openAnonymousSession`, up to the allocation of the session id.  An option of the wrong type
throws. -/
def openAnonymousSession (sc : Scene) (options : Dict) (realmUri : String)
    (details : HelloDetails) : Segment :=
  let identity : Except Unit WelcomeDetails := do
    let authid ← (options.at "authid").asString
    let authprovider ← (options.at "authprovider").asString
    let authrole ← (options.at "authrole").asString
    return {
      realm := some realmUri
      authId := (authid <|> details.authid).getD "anonymous"
      authRole := authrole.getD "anonymous"
      authMethod := "anonymous"
      authProvider := authprovider.getD "static" }
  match identity with
  | .error _ => sc.throwIn true
  | .ok welcome =>
      ((sc.emit (.anonymous options)).update fun s =>
        { s with
          welcomeDetails := some welcome
          authMethod := some "anonymous"
          authenticator := none
          authContext := none }, some (.allocateAnonymous welcome))

/-- The lockout and capacity checks of `_handleHello`. -/
def checkAuthId (sc : Scene) (realm : AuthRealm) (authId : Option String) (now : Nat) :
    Scene × Bool :=
  match authId with
  | none => (sc, true)
  | some id =>
      let locked := sc.tracker.lockoutRemaining realm.name id realm.limits now
      if locked.2.isSome then ({ sc with tracker := locked.1 }, false)
      else
        let capacity := locked.1.capacityRetryAfter realm.name id realm.limits now
        ({ sc with tracker := capacity.1 }, capacity.2.isNone)

/-- `_handleHello`, up to its first `await`. -/
def handleHello (sc : Scene) (settings : AuthSettings) (listener : ListenerAuth)
    (flatBuffers : Bool) (hello : Hello) (profileAccepted : Bool) (now : Nat) : Segment :=
  if sc.state.phase ≠ .awaitingHello then sc.sendAbort "wamp.error.protocol_violation" .refused
  else if flatBuffers && !profileAccepted then
    sc.sendAbort "wamp.error.protocol_violation" .refused
  else
    match hello.realm with
    | none => sc.sendAbort "wamp.error.invalid_uri" .refused
    | some realmUri =>
        if realmUri.isEmpty then sc.sendAbort "wamp.error.invalid_uri" .refused
        else
          match settings.realms.find? fun r => r.name == realmUri with
          | none => sc.sendAbort "wamp.error.no_such_realm" .refused
          | some realm =>
              let sc := sc.update fun s =>
                { s with realmSettings := some realm, realmUri := some realmUri }
              match resolveAuthenticatorSelection settings listener realm
                  (hello.details.authmethods.getD []) with
              | .error _ => sc.finish
              | .ok selection =>
                  let authId := hello.details.authid
                  let sc := sc.update fun s => { s with pendingAuthId := authId }
                  let checked := sc.checkAuthId realm authId now
                  if !checked.2 then checked.1.sendAbort "wamp.error.not_authorized" .locked
                  else
                    match selection with
                    | none =>
                        checked.1.sendAbort "wamp.error.not_authorized" (.noMethod realm authId)
                    | some selection =>
                        let sc := checked.1.update fun s =>
                          { s with authMethod := some selection.method }
                        if selection.isAnonymous then
                          sc.openAnonymousSession selection.options realmUri hello.details
                        else (sc, some (.allocate realm selection.method hello.details))

/-! ### Results of an authenticator -/

/-- The provider that a success names. -/
def successProvider (success : AuthSuccess) : Except Unit String := do
  let named := success.details.at "authprovider"
  let value := if named.isNull then success.details.at "provider" else named
  return (← value.asString).getD "static"

/-- `completeAuthenticatedSession` once it has a session id, up to the WELCOME. -/
def sendWelcome (sc : Scene) (a : Nat) (method : String) (success : AuthSuccess) (inHello : Bool)
    (sessionId : Nat) : Segment :=
  let sc := sc.update fun s => { s with sessionId := some sessionId }
  match successProvider success with
  | .error _ => sc.throwIn inHello
  | .ok provider =>
      let details : WelcomeDetails :=
        { realm := sc.state.realmUri
          authId := success.authId
          authRole := success.authRole
          authMethod := method
          authProvider := provider }
      (sc.update fun s => { s with welcomeDetails := some details }).sendMessage
        (.welcome sessionId details) (.welcome a sessionId details success inHello)

/-- `_applyAuthResult`, up to its first `await`. -/
def applyAuthResult (sc : Scene) (a : Nat) (method : String) (result : AuthResult)
    (inHello : Bool) (now : Nat) : Segment :=
  match result with
  | .challenge =>
      (sc.update fun s =>
        { s with phase := .awaitingAuthenticate, challengeIssuedAt := some now }).sendMessage
        (.challenge method) (.challenge inHello)
  | .success success =>
      match sc.state.sessionId with
      | some id => sc.sendWelcome a method success inHello id
      | none => (sc, some (.reallocate a method success inHello))
  | .failure reason => sc.abortThenSend reason (.failed inHello)

/-! ### AUTHENTICATE -/

/-- The challenge has been out for too long. -/
def challengeExpired (s : HandshakeState) (limits : RealmLimitSettings) (now : Nat) : Bool :=
  decide (0 < limits.authTimeoutMs) &&
    s.challengeIssuedAt.any fun issued => decide (issued + limits.authTimeoutMs.toNat < now)

/-- `_handleAuthenticate`, up to its first `await`. -/
def handleAuthenticate (sc : Scene) (flatBuffers : Bool) (signature : Option String)
    (profileAccepted : Bool) (now : Nat) : Segment :=
  match sc.state.phase, sc.state.authenticator, sc.state.authContext, sc.state.realmSettings,
      sc.state.authMethod with
  | .awaitingAuthenticate, some a, some _, some realm, some _ =>
      if flatBuffers && !profileAccepted then sc.sendAbort "wamp.error.protocol_violation" .profile
      else if (signature.getD "").isEmpty then
        sc.abortThenSend "wamp.error.protocol_violation" .caught
      else if challengeExpired sc.state realm.limits now then
        sc.abortThenSend "wamp.error.authentication_failed" (.timedOut realm.limits)
      else
        (sc.emit (.evaluated a sc.state.realmUri sc.state.pendingAuthId), some (.onAuthenticate a))
  | _, _, _, _, _ => sc.abortThenSend "wamp.error.protocol_violation" .caught

/-! ### Closing -/

/-- `_closeSession`, up to its `await`. -/
def closeSession (sc : Scene) : Segment := (sc.abortPending, some .closing)

/-- `_handleGoodbye`, up to its first `await`. -/
def handleGoodbye (sc : Scene) (reason : String) : Segment :=
  if sc.state.phase = .opened then sc.sendMessage (.goodbye reason) .goodbye else sc.closeSession

/-- `_closeSession` after its `await`. -/
def finishClose (sc : Scene) : Scene :=
  (match sc.state.phase, sc.state.realmUri, sc.state.sessionId with
  | .opened, some realmUri, some id => sc.emit (.sessionClose realmUri id)
  | _, _, _ => sc).update fun _ => { phase := .aborted }

/-! ### Going on -/

/-- The command that opens the session in the store; without a realm, `state.realmUri!` throws. -/
def openSession (sc : Scene) (host : Host) (sessionId : Nat) (details : WelcomeDetails)
    (a : Option Nat) : Except Unit (Scene × String) :=
  match sc.state.realmUri with
  | none => .error ()
  | some realmUri =>
      let session : SessionRecord :=
        { id := sessionId
          authId := some details.authId
          authRole := some details.authRole
          authMethod := some details.authMethod
          authProvider := some details.authProvider
          workerId := host.workerId
          connectionId := host.connectionId }
      .ok ((sc.emit (.sessionOpen realmUri session a)).update fun s =>
        { s with pendingAuthId := none, challengeIssuedAt := none }, realmUri)

/-- A frame was sent. -/
def afterSend (sc : Scene) (host : Host) (now : Nat) : Sending → Segment
  | .abort exit => (sc.runExit now exit).finish
  | .challenge _ => sc.finish
  | .welcomeAnonymous sessionId details =>
      let sc := sc.update fun s => { s with phase := .opened }
      match sc.openSession host sessionId details none with
      | .error _ => sc.throwIn true
      | .ok (sc, _) => sc.finish
  | .welcome a sessionId details success inHello =>
      let sc := sc.update fun s =>
        { s with phase := .opened, authenticator := none, authContext := none }
      match sc.openSession host sessionId details (some a) with
      | .error _ => sc.throwIn inHello
      | .ok (sc, realmUri) =>
          ({ sc with tracker := sc.tracker.recordSuccess realmUri success.authId }.emit
            (.success realmUri success.authId)).finish
  | .goodbye => sc.closeSession

/-- A frame could not be sent. -/
def sendThrew (sc : Scene) : Sending → Segment
  | .abort (.failed inHello) => sc.throwIn inHello
  | .abort _ => sc.finish
  | .challenge inHello => sc.throwIn inHello
  | .welcomeAnonymous _ _ => sc.throwIn true
  | .welcome _ _ _ _ inHello => sc.throwIn inHello
  | .goodbye => sc.closeSession

/-- A handler goes on with what it waited for; `fresh` names the authenticator that a factory
creates.  An outcome that the handler does not wait for changes nothing. -/
def resume (sc : Scene) (host : Host) (now fresh : Nat) : Await → Outcome → Option Segment
  | .abortFirst reason exit, .done => some (sc.sendAbort reason exit)
  | .abortInSend reason exit, .done =>
      some ((sc.update fun s => { s with phase := .aborted }).sendMessage (.abort reason)
        (.abort exit))
  | .allocateAnonymous details, .allocated id =>
      some ((sc.update fun s => { s with sessionId := some id }).sendMessage (.welcome id details)
        (.welcomeAnonymous id details))
  | .allocate realm method details, .allocated id =>
      some (sc.update fun s => { s with sessionId := some id }, some (.create realm method details))
  | .create _ method details, .done =>
      some ((sc.update fun s =>
        { s with authenticator := some fresh, authContext := some details }).emit
        (.started fresh sc.state.realmUri sc.state.pendingAuthId), some (.onHello fresh method))
  | .create _ _ _, .thrown => some (sc.throwIn true)
  | .onHello a method, .result result =>
      some (((sc.emit (.verdict a result)).update fun s =>
        { s with challengeIssuedAt := some now }).applyAuthResult a method result true now)
  | .onHello _ _, .thrown => some (sc.throwIn true)
  | .onAuthenticate a, .result result =>
      let sc := sc.emit (.verdict a result)
      match sc.state.realmSettings, sc.state.authMethod with
      | some _, some method => some (sc.applyAuthResult a method result false now)
      | _, _ => some (sc.throwIn false)
  | .onAuthenticate _, .thrown => some (sc.throwIn false)
  | .reallocate a method success inHello, .allocated id =>
      some (sc.sendWelcome a method success inHello id)
  | .sending previous next, .done =>
      if host.flatBuffers && sc.state.phase != previous then some (sc.sendThrew next)
      else some (sc.afterSend host now next)
  | .sending _ next, .thrown => some (sc.sendThrew next)
  | .closing, .done => some sc.finishClose.finish
  | _, _ => none

end Scene

/-! ### The worker -/

/-- The state object of a connection, with what is in progress on it. -/
structure Peer where
  host : Host
  listener : ListenerAuth := {}
  state : HandshakeState := {}
  /-- The handler of a message. -/
  handler : Option Await := none
  /-- Removals and drains in progress; a drain drops the connection at its end. -/
  closers : List (Await × Bool) := []

structure LogEntry where
  ref : Ref
  time : Nat
  event : HandshakeEvent

structure HandshakeWorker where
  settings : AuthSettings
  workerId : Nat := 0
  peers : Heap Peer := .empty
  connectionStates : LinkedMap Nat Ref := .empty
  tracker : AuthSecurityTracker := .empty
  /-- Names for the authenticators that factories create. -/
  nextAuthenticator : Nat := 0
  log : List LogEntry := []

inductive HandshakeInput where
  /-- The boss assigns a connection. -/
  | add (connectionId : Nat) (listener : ListenerAuth) (flatBuffers : Bool)
  /-- A message is taken up; the last two are those of a connection that the worker does not
  know. -/
  | message (connectionId : Nat) (message : HandshakeMessage) (listener : ListenerAuth)
      (flatBuffers : Bool)
  | remove (connectionId : Nat)
  | drain (connectionId : Nat) (reason : String)
  /-- A handler goes on. -/
  | handler (ref : Ref) (outcome : Outcome)
  /-- A removal or drain goes on. -/
  | closer (ref : Ref) (index : Nat) (outcome : Outcome)

namespace HandshakeWorker

def note (w : HandshakeWorker) (ref : Ref) (now : Nat) (events : List HandshakeEvent) :
    HandshakeWorker :=
  { w with log := w.log ++ events.map fun e => ⟨ref, now, e⟩ }

/-- What a segment leaves behind, besides where its handler stands. -/
def settle (w : HandshakeWorker) (ref : Ref) (now : Nat) (sc : Scene) (f : Peer → Peer) :
    HandshakeWorker :=
  { w with
    tracker := sc.tracker
    peers := w.peers.modify ref fun p => f { p with state := sc.state } }.note ref now sc.events

/-- The connection has a state object, in the worker's table or dropped from it. -/
def knows (w : HandshakeWorker) (c : Nat) : Bool :=
  w.peers.cells.any fun p => p.host.connectionId == c

/-- A message of the connection is being handled. -/
def handles (w : HandshakeWorker) (c : Nat) : Bool :=
  w.peers.cells.any fun p => p.host.connectionId == c && p.handler.isSome

/-- `connectionStates[c] = WorkerConnectionState(...)`. -/
def addPeer (w : HandshakeWorker) (c : Nat) (listener : ListenerAuth) (flatBuffers : Bool) :
    HandshakeWorker :=
  { w with
    peers := w.peers.alloc { host := ⟨c, flatBuffers, w.workerId⟩, listener := listener }
    connectionStates := w.connectionStates.insert c w.peers.next }

/-- The handler of a message, up to its first `await`. -/
def begin (settings : AuthSettings) (p : Peer) (tracker : AuthSecurityTracker) (now : Nat) :
    HandshakeMessage → Segment
  | .hello hello profileAccepted =>
      Scene.handleHello ⟨p.state, tracker, []⟩ settings p.listener p.host.flatBuffers hello
        profileAccepted now
  | .authenticate signature profileAccepted =>
      Scene.handleAuthenticate ⟨p.state, tracker, []⟩ p.host.flatBuffers signature profileAccepted
        now
  | .goodbye =>
      Scene.handleGoodbye ⟨p.state, tracker, [.farewell]⟩ "wamp.close.goodbye_and_out"

/-- `processMessage`. -/
def receive (w : HandshakeWorker) (now : Nat) (ref : Ref) (message : HandshakeMessage) :
    HandshakeWorker :=
  match w.peers.get? ref with
  | none => w
  | some p =>
      let segment := begin w.settings p w.tracker now message
      w.settle ref now segment.1 fun p => { p with handler := segment.2 }

/-- A removal or drain begins on a connection's state. -/
def leave (w : HandshakeWorker) (now : Nat) (ref : Ref) (segment : Segment) (isDrain : Bool) :
    HandshakeWorker :=
  w.settle ref now segment.1 fun p =>
    { p with closers := p.closers ++ segment.2.toList.map fun a => (a, isDrain) }

def remove (w : HandshakeWorker) (now c : Nat) : HandshakeWorker :=
  match w.connectionStates.get? c with
  | none => w
  | some ref =>
      match w.peers.get? ref with
      | none => w
      | some p =>
          let segment := Scene.closeSession ⟨p.state, w.tracker, [.leaving]⟩
          { w with connectionStates := w.connectionStates.erase c }.leave now ref segment false

def drain (w : HandshakeWorker) (now c : Nat) (reason : String) : HandshakeWorker :=
  match w.connectionStates.get? c with
  | none => w
  | some ref =>
      match w.peers.get? ref with
      | none => w
      | some p =>
          let segment := Scene.handleGoodbye ⟨p.state, w.tracker, [.leaving]⟩ reason
          w.leave now ref segment true

def resumeHandler (w : HandshakeWorker) (now : Nat) (ref : Ref) (outcome : Outcome) :
    HandshakeWorker :=
  match w.peers.get? ref with
  | none => w
  | some p =>
      match p.handler with
      | none => w
      | some await =>
          match Scene.resume ⟨p.state, w.tracker, []⟩ p.host now w.nextAuthenticator await
              outcome with
          | none => w
          | some segment =>
              { w with nextAuthenticator := w.nextAuthenticator + 1 }.settle ref now segment.1
                fun p => { p with handler := segment.2 }

def resumeCloser (w : HandshakeWorker) (now : Nat) (ref : Ref) (index : Nat) (outcome : Outcome) :
    HandshakeWorker :=
  match w.peers.get? ref with
  | none => w
  | some p =>
      match p.closers[index]? with
      | none => w
      | some (await, isDrain) =>
          match Scene.resume ⟨p.state, w.tracker, []⟩ p.host now w.nextAuthenticator await
              outcome with
          | none => w
          | some (sc, some next) =>
              w.settle ref now sc fun p => { p with closers := p.closers.set index (next, isDrain) }
          | some (sc, none) =>
              { w with
                connectionStates :=
                  if isDrain then w.connectionStates.erase p.host.connectionId
                  else w.connectionStates }.settle ref now sc
                fun p => { p with closers := p.closers.eraseIdx index }

/-- One step of the worker, at the time `now`.  An input that does not apply changes nothing. -/
def step (w : HandshakeWorker) : Nat × HandshakeInput → HandshakeWorker
  | (_, .add c listener flatBuffers) =>
      if w.knows c then w else w.addPeer c listener flatBuffers
  | (now, .message c message listener flatBuffers) =>
      if w.handles c then w
      else
        match w.connectionStates.get? c with
        | some ref => w.receive now ref message
        | none => (w.addPeer c listener flatBuffers).receive now w.peers.next message
  | (now, .remove c) => w.remove now c
  | (now, .drain c reason) => w.drain now c reason
  | (now, .handler ref outcome) => w.resumeHandler now ref outcome
  | (now, .closer ref index outcome) => w.resumeCloser now ref index outcome

def initial (settings : AuthSettings) : HandshakeWorker := { settings := settings }

/-- What happened on a state object, oldest first. -/
def eventsOf (w : HandshakeWorker) (ref : Ref) : List HandshakeEvent :=
  (w.log.filter fun e => e.ref == ref).map (·.event)

/-- The connection's state, where the worker has it in its table. -/
def peerOf (w : HandshakeWorker) (c : Nat) : Option Peer :=
  (w.connectionStates.get? c).bind w.peers.get?

/-! ### What a segment changes -/

variable {w : HandshakeWorker} {ref : Ref} {now : Nat} {sc : Scene} {f : Peer → Peer}

theorem get?_settle (r : Ref) :
    (w.settle ref now sc f).peers.get? r =
      if r = ref then (w.peers.get? ref).map fun p => f { p with state := sc.state }
      else w.peers.get? r :=
  Heap.get?_modify ..

theorem eventsOf_settle (r : Ref) :
    (w.settle ref now sc f).eventsOf r =
      if r = ref then w.eventsOf ref ++ sc.events else w.eventsOf r := by
  simp only [eventsOf, settle, note, List.filter_append, List.map_append]
  by_cases hr : r = ref
  · subst hr
    have hall : ((sc.events.map fun e => (⟨r, now, e⟩ : LogEntry)).filter fun e => e.ref == r) =
        sc.events.map fun e => ⟨r, now, e⟩ :=
      List.filter_eq_self.mpr fun e he => by
        obtain ⟨x, -, rfl⟩ := List.mem_map.mp he
        exact beq_self_eq_true r
    rw [if_pos rfl, hall, List.map_map]
    simp [Function.comp_def]
  · have hnone : ((sc.events.map fun e => (⟨ref, now, e⟩ : LogEntry)).filter fun e => e.ref == r) =
        [] :=
      List.filter_eq_nil_iff.mpr fun e he => by
        obtain ⟨x, -, rfl⟩ := List.mem_map.mp he
        simpa using fun h : ref = r => hr h.symm
    rw [if_neg hr, hnone]
    simp

/-- A removal keeps what the begin of a close keeps. -/
theorem remove_keeps {P : HandshakeWorker → Prop} (h : P w) {c : Nat}
    (hclose : ∀ ref p table, w.peers.get? ref = some p →
      P (leave { w with connectionStates := table } now ref
        (Scene.closeSession ⟨p.state, w.tracker, [.leaving]⟩) false)) : P (w.remove now c) := by
  unfold remove
  split
  · exact h
  · split
    · exact h
    · next hp => exact hclose _ _ _ hp

/-- A drain says goodbye on an open session, and closes any other. -/
theorem drain_keeps {P : HandshakeWorker → Prop} (h : P w) {c : Nat} {reason : String}
    (hclose : ∀ ref p, w.peers.get? ref = some p →
      P (w.leave now ref (Scene.closeSession ⟨p.state, w.tracker, [.leaving]⟩) true))
    (hgoodbye : ∀ ref p, w.peers.get? ref = some p →
      P (w.leave now ref (⟨p.state, w.tracker, [.leaving, .sent (.goodbye reason)]⟩,
        some (.sending p.state.phase .goodbye)) true)) : P (w.drain now c reason) := by
  unfold drain
  split
  · exact h
  · split
    · exact h
    · next p hp =>
      by_cases ho : p.state.phase = .opened
      · have heq : Scene.handleGoodbye ⟨p.state, w.tracker, [.leaving]⟩ reason =
            (⟨p.state, w.tracker, [.leaving, .sent (.goodbye reason)]⟩,
              some (.sending p.state.phase .goodbye)) := if_pos ho
        rw [heq]
        exact hgoodbye _ p hp
      · have heq : Scene.handleGoodbye ⟨p.state, w.tracker, [.leaving]⟩ reason =
            Scene.closeSession ⟨p.state, w.tracker, [.leaving]⟩ := if_neg ho
        rw [heq]
        exact hclose _ p hp

theorem mem_log_settle {e : LogEntry} (h : e ∈ (w.settle ref now sc f).log) :
    e ∈ w.log ∨ (e.ref = ref ∧ e.time = now ∧ e.event ∈ sc.events) := by
  rcases List.mem_append.mp h with h | h
  · exact .inl h
  · obtain ⟨x, hx, rfl⟩ := List.mem_map.mp h
    exact .inr ⟨rfl, rfl, hx⟩

theorem get?_addPeer (c : Nat) (listener : ListenerAuth) (flatBuffers : Bool) (r : Ref) :
    (w.addPeer c listener flatBuffers).peers.get? r =
      if r = w.peers.next then
        some { host := ⟨c, flatBuffers, w.workerId⟩, listener := listener }
      else w.peers.get? r :=
  Heap.get?_alloc ..

theorem handles_eq_false {c : Nat} (h : w.handles c = false) {p : Peer}
    (hp : w.peers.get? ref = some p) (hc : p.host.connectionId = c) : p.handler = none := by
  have hmem : p ∈ w.peers.cells := List.mem_of_getElem? hp
  have := List.any_eq_false.mp h p hmem
  rw [hc] at this
  simpa using this

theorem knows_eq_false {c : Nat} (h : w.knows c = false) {p : Peer}
    (hp : w.peers.get? ref = some p) : p.host.connectionId ≠ c := by
  have hmem : p ∈ w.peers.cells := List.mem_of_getElem? hp
  have := List.any_eq_false.mp h p hmem
  simpa using this

end HandshakeWorker

end Connectanum
