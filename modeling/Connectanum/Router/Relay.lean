import Connectanum.Router.Machine
import Connectanum.State.Pending

/-!
# Router — Relay

A procedure of an internal session, called from outside and from within.  The handler's responses
go through the isolate of its session to the reply port of the invocation; the caller's side reads
that port.  For an external caller this is `_handleInternalInvocation` of a worker, which reads one
reply; for an internal caller it is the loop of `_call`.

* `Relay.step`: the handler responds, the store marks the invocation as killed, the callee's session
  reacts to an INTERRUPT, or the caller's side reads the next reply, in any order;
* `worker_posts_le_one`: a worker sends its caller one message at most;
* `relay_agrees_iff`: the two callers receive the same, and all of it, if and only if the handler's
  first reaction is its last and is relayed undisturbed.
-/

namespace Connectanum

open Collections Machine

/-- An INVOCATION on its way to a callee. -/
def Post.isInvocation : Post → Bool
  | .frame _ { message := .invocation _ _ _ _, .. } => true
  | .internal _ (.invocation _ _ _ _ _ _ _ _ _ _) _ => true
  | _ => false

/-- What `invocation.onResponse` of an internal session sends for the YIELDs and the ERROR of its
handler. -/
inductive HandlerResponse where
  | result (progress : Bool) (ppt : PPTOptions) (details : Dict) (payload : Payload)
  | error (error : Option String) (details : Dict) (payload : Payload)

def HandlerResponse.isLast : HandlerResponse → Bool
  | .result progress _ _ _ => !progress
  | .error _ _ _ => true

/-- What comes on the reply port of an invocation. -/
inductive CalleeReply where
  | response (response : HandlerResponse)
  /-- `call_error`, the reaction to an INTERRUPT. -/
  | callError (error : String) (details : Dict) (payload : Payload)

/-- What a worker takes the reply for: it knows `result` and `error` only. -/
def CalleeReply.seen : CalleeReply → InternalResponse
  | .response (.result progress ppt details payload) => .result progress ppt details payload
  | .response (.error error details payload) => .error error details payload
  | .callError _ _ _ => .invalid

/-- The reply of `handleInvocationMessage` to an interrupt. -/
def interruptReply (mode : Option String) : CalleeReply :=
  .callError WampError.invocationCanceled (Dict.put .empty "mode" (mode.map .str))
    (.list [.str "Invocation cancelled"])

/-! ### The caller's side -/

namespace RouterStateStore

/-- A call of a `RealmContext` with nothing in between; the commands it sends are answered by
their last output. -/
def ask (env : StoreEnv) (uri : String) (request : RealmRequest) (st : RouterStateStore) :
    Option (StoreReply × RouterStateStore) :=
  let st' := st.handle env (.command (request.command uri otherPort))
  match st'.outbox.getLast? with
  | some (.reply _ reply) => some (reply, st')
  | _ => none

/-- The store as the world of a handler that relays a response. -/
def world (env : StoreEnv) (view : View) :
    (q : Query) → RouterStateStore → Option (q.Answer × RouterStateStore)
  | .look, st => some (view, st)
  | .handOver _ _, st => some (view, st)
  | .reply _, st => some (view, st)
  | .store _ uri request, st => st.ask env uri request
  | .authorize _, _ => none
  | .response, _ => none

end RouterStateStore

/-- The caller's side takes a reply: what it sends, whether it reads on, and the store after. -/
abbrev Reader := CalleeReply → RouterStateStore → List Post × Bool × RouterStateStore

/-- `replyPort.first` and what `_handleInternalInvocation` does with it. -/
def workerReads (env : StoreEnv) (view : View) (key : InvocationKey) (calleeSessionId : Nat)
    (procedure : String) : Reader := fun reply st =>
  let relayed := (relayResponse key.1 key.2 calleeSessionId procedure reply.seen).runIn
    (RouterStateStore.world env view) st
  (relayed.1, false, relayed.2)

/-- One round of `await for (final response in replyPort)` in `_call`; `port` is the control port
of the calling session. -/
def sessionReads (key : InvocationKey) (requestId : Nat) (port : SendPort) : Reader :=
  let post (message : InternalMessage) : Post := .internal port message (some (.invocation key))
  fun
  | .response (.result progress ppt details payload), st =>
      let message := .callResult requestId progress ppt details payload
      if progress then
        match st.touchInvocation key.1 key.2 with
        | (st, false) => ([], false, st)
        | (st, true) => ([post message], true, st)
      else ([post message], false, (st.completeInvocation key.1 key.2).1)
  | .response (.error error details payload), st =>
      ([post (.callError requestId error details payload)], false,
        (st.completeInvocation key.1 key.2).1)
  | .callError error details payload, st =>
      ([post (.callError requestId (some error) details payload)], false, st)

/-- The message that the caller is given: `_emitCallResult` and `_emitCallError` for an internal
session, the message itself for a connection. -/
def Post.received : Post → Option RouterMessage
  | .frame _ f => some f.message
  | .internal _ (.callResult requestId progress ppt details payload) _ =>
      some (.result requestId (relayedDetails progress ppt details) payload)
  | .internal _ (.callError requestId error details payload) _ =>
      some (.error MessageTypes.codeCall requestId details (some (error.getD WampError.unknown))
        payload)
  | .internal _ _ _ => none

/-! ### The relay of one invocation -/

structure Relay where
  store : RouterStateStore
  /-- The isolate of the callee's session has the invocation in `_pendingInvocations`. -/
  pending : Bool := true
  /-- The replies that have not been read, oldest first. -/
  replyPort : List CalleeReply := []
  /-- The caller's side still reads the port. -/
  reading : Bool := true
  /-- What the caller's side has sent to the caller. -/
  posted : List Post := []

inductive RelayInput where
  /-- The handler sends a response. -/
  | respond (response : HandlerResponse)
  /-- The store handles the `cancelInvocation` of a CANCEL with the mode `kill`. -/
  | cancel
  /-- The INTERRUPT reaches the session of the callee. -/
  | interrupt (mode : Option String)
  /-- The caller's side takes the next reply. -/
  | read

namespace Relay

/-- The call of a procedure has been handed to the internal session of its callee. -/
def start (st : RouterStateStore) : Relay := { store := st }

def step (reader : Reader) (key : InvocationKey) (r : Relay) : RelayInput → Relay
  | .respond response =>
      if r.pending then
        { r with
          replyPort := r.replyPort ++ [.response response]
          pending := !response.isLast }
      else r
  | .cancel =>
      { r with store := (r.store.cancelInvocation key.1 key.2 CancelMode.kill.name true).1 }
  | .interrupt mode =>
      if r.pending then
        { r with
          store := (r.store.completeInvocation key.1 key.2).1
          replyPort := r.replyPort ++ [interruptReply mode]
          pending := false }
      else r
  | .read =>
      match r.reading, r.replyPort with
      | true, reply :: rest =>
          let taken := reader reply r.store
          { r with
            store := taken.2.2
            replyPort := rest
            reading := taken.2.1
            posted := r.posted ++ taken.1 }
      | _, _ => r

/-- The relay of a call from outside. -/
abbrev workerStep (env : StoreEnv) (view : View) (key : InvocationKey) (calleeSessionId : Nat)
    (procedure : String) : Relay → RelayInput → Relay :=
  step (workerReads env view key calleeSessionId procedure) key

/-- The relay of a call from within. -/
abbrev sessionStep (key : InvocationKey) (requestId : Nat) (port : SendPort) :
    Relay → RelayInput → Relay :=
  step (sessionReads key requestId port) key

/-- Everything has been said and read. -/
def Over (r : Relay) : Prop := r.pending = false ∧ (r.reading = true → r.replyPort = [])

instance (r : Relay) : Decidable r.Over := by unfold Over; infer_instance

/-- What the caller has received. -/
def received (r : Relay) : List RouterMessage := r.posted.filterMap Post.received

end Relay

/-! ### What the handler says -/

/-- The replies of the callee's session: the responses up to the last one, or up to an
interrupt. -/
def spoken : List RelayInput → List CalleeReply
  | [] => []
  | .respond response :: rest =>
      .response response :: if response.isLast then [] else spoken rest
  | .interrupt mode :: _ => [interruptReply mode]
  | .cancel :: rest => spoken rest
  | .read :: rest => spoken rest

/-- The RESULT or ERROR that a reply stands for. -/
def CalleeReply.message (requestId : Nat) : CalleeReply → RouterMessage
  | .response (.result progress ppt details payload) =>
      .result requestId (relayedDetails progress ppt details) payload
  | .response (.error error details payload) =>
      .error MessageTypes.codeCall requestId details (some (error.getD WampError.unknown)) payload
  | .callError error details payload =>
      .error MessageTypes.codeCall requestId details (some error) payload

/-- The next reading comes before any cancellation. -/
def readFirst : List RelayInput → Bool
  | [] => false
  | .read :: _ => true
  | .cancel :: _ => false
  | _ :: rest => readFirst rest

/-- The handler's first reaction is its last one: an error with its URI, or a final result that is
read before any cancellation. -/
def prompt (cancelled : Bool) : List RelayInput → Bool
  | [] => false
  | .read :: rest => prompt cancelled rest
  | .cancel :: rest => prompt true rest
  | .interrupt _ :: _ => false
  | .respond (.error error _ _) :: _ => error.isSome
  | .respond (.result progress _ _ _) :: rest => !progress && !cancelled && readFirst rest

/-! ### What the caller's side finds in the store -/

namespace RouterStateStore

variable {st : RouterStateStore} {uri : String} {id : Nat}

theorem completeInvocation_gone (st : RouterStateStore) (uri : String) (id : Nat) :
    (st.completeInvocation uri id).1.getInvocation uri id = none := by
  simp only [completeInvocation]
  split
  · next h => exact h
  · rw [getInvocation_congr (releaseRetryThrottleLease_realms _ id), getInvocation_removeInvocation,
      if_pos ⟨rfl, rfl⟩]

theorem completeInvocation_found {i : PendingInvocation} (h : st.getInvocation uri id = some i) :
    (st.completeInvocation uri id).2 = some i := by
  have h' : (st.cancelInvocationTimeout uri id).getInvocation uri id = some i := h
  simp only [completeInvocation, h']

theorem cancelInvocation_gone (mode : String) (h : st.getInvocation uri id = none) :
    (st.cancelInvocation uri id mode true).1 = st := by
  simp only [cancelInvocation, h]

/-- `kill` marks the record and leaves it where it is. -/
theorem cancelInvocation_marks {i : PendingInvocation} (mode : String)
    (h : st.getInvocation uri id = some i) :
    (st.cancelInvocation uri id mode true).1.getInvocation uri id =
      some { i with
        cancelRequested := true, cancelMode := some mode, waitForCancelAck := true } := by
  simp only [cancelInvocation, h]
  exact (getInvocation_put h _ uri id).trans (if_pos ⟨rfl, rfl⟩)

section

variable (env : StoreEnv) (view : View) (point : Point)

theorem world_of_send {request : RealmRequest} {st' : RouterStateStore} {reply : StoreReply}
    (h : st.handle env (.command (request.command uri otherPort)) = st'.send otherPort reply) :
    world env view (.store point uri request) st = some (reply, st'.send otherPort reply) := by
  have hlast : (st'.send otherPort reply).outbox.getLast? = some (.reply otherPort reply) :=
    List.getLast?_concat
  rw [world, ask]
  simp only [h, hlast]
  rfl

theorem world_get : world env view (.store point uri (.getInvocation id)) st =
    some (.invocation (st.getInvocation uri id),
      st.send otherPort (.invocation (st.getInvocation uri id))) :=
  world_of_send env view point rfl

theorem world_complete : world env view (.store point uri (.completeInvocation id)) st =
    some (.invocation (st.completeInvocation uri id).2,
      (st.completeInvocation uri id).1.send otherPort
        (.invocation (st.completeInvocation uri id).2)) :=
  world_of_send env view point rfl

theorem world_snapshot {realm : RealmRecord} (h : st.realms.get? uri = some realm) :
    ∃ st', world env view (.store point uri .snapshot) st =
      some (.snapshot { snapshot := realm.buildSnapshot, isNew := true }, st') := by
  have hsend : st.handle env (.command (RealmRequest.snapshot.command uri otherPort)) =
      (st.setRealm uri { realm with lastSnapshot := some realm.buildSnapshot }).send otherPort
        (.snapshot { snapshot := realm.buildSnapshot, isNew := true }) := by
    simp [RealmRequest.command, handle, dispatchCommand, sendGuardedReply, getSnapshot,
      getOrCreateRealm, h]
  exact ⟨_, world_of_send env view point hsend⟩

end

end RouterStateStore

/-! ### What a worker relays -/

/-- The call of an external session waits for its internal callee; the realm knows the caller's
connection. -/
structure Awaited (st : RouterStateStore) (key : InvocationKey) (i : PendingInvocation)
    (connectionId : Nat) : Prop where
  pending : st.getInvocation key.1 key.2 = some i
  outside : i.callerInternalSendPort = none
  connected : findConnectionIdForSession (st.realmOf key.1).buildSnapshot i.callerSessionId =
    some connectionId

theorem findConnectionIdForSession_congr {r r' : RealmRecord} (h : r'.sessions = r.sessions)
    (s : Nat) : findConnectionIdForSession r'.buildSnapshot s =
      findConnectionIdForSession r.buildSnapshot s := by
  simp only [findConnectionIdForSession, RealmRecord.buildSnapshot, h]

namespace Awaited

variable {st : RouterStateStore} {key : InvocationKey} {i : PendingInvocation} {conn : Nat}

theorem cancel (h : Awaited st key i conn) (mode : String) :
    Awaited (st.cancelInvocation key.1 key.2 mode true).1 key
      { i with cancelRequested := true, cancelMode := some mode, waitForCancelAck := true }
      conn where
  pending := RouterStateStore.cancelInvocation_marks mode h.pending
  outside := h.outside
  connected := (findConnectionIdForSession_congr
    ((RouterStateStore.stirred_sessions _).resting.cancelInvocation st key.1 key.2 mode true) _).trans h.connected

/-- After the completion the caller is still found. -/
theorem snapshot (h : Awaited st key i conn) (env : StoreEnv) (view : View) (point : Point)
    (reply : StoreReply) :
    ∃ found st', RouterStateStore.world env view (.store point key.1 .snapshot)
        ((st.completeInvocation key.1 key.2).1.send otherPort reply) =
      some (.snapshot found, st') ∧
      findConnectionIdForSession found.snapshot i.callerSessionId = some conn := by
  obtain ⟨realm, hr, -⟩ := RouterStateStore.getInvocation_some.mp h.pending
  have hsessions := (RouterStateStore.stirred_sessions key.1).resting.completeInvocation st key.1 key.2
  obtain ⟨realm', hr'⟩ : ∃ realm', ((st.completeInvocation key.1 key.2).1.send otherPort
      reply).realms.get? key.1 = some realm' := by
    refine ⟨{ realm with invocations := realm.invocations.erase key.2 }, ?_⟩
    have hpending : (st.cancelInvocationTimeout key.1 key.2).getInvocation key.1 key.2 = some i :=
      h.pending
    simp only [RouterStateStore.send_realms, RouterStateStore.completeInvocation, hpending,
      RouterStateStore.releaseRetryThrottleLease_realms]
    rw [RouterStateStore.removeInvocation, RouterStateStore.get?_modifyRealm, if_pos rfl,
      RouterStateStore.cancelInvocationTimeout_realms, hr]
    rfl
  obtain ⟨st', hworld⟩ := RouterStateStore.world_snapshot env view point hr'
  refine ⟨_, st', hworld, ?_⟩
  have hrealm : (st.completeInvocation key.1 key.2).1.realmOf key.1 = realm' :=
    RouterStateStore.realmOf_of_get hr'
  rw [hrealm] at hsessions
  exact (findConnectionIdForSession_congr hsessions _).trans h.connected

theorem send (h : Awaited st key i conn) (port : SendPort) (reply : StoreReply) :
    Awaited (st.send port reply) key i conn :=
  ⟨h.pending, h.outside, h.connected⟩

section

variable (env : StoreEnv) (view : View) {callee : Nat}

/-- An error is sent on to the caller, cancelled or not. -/
theorem relays_error (h : Awaited st key i conn) (hcallee : i.calleeSessionId = callee)
    (errorUri : String) (details : Dict) (payload : Payload) :
    ((sendInternalInvocationError key.1 key.2 callee errorUri details payload).runIn
      (RouterStateStore.world env view) st).1 =
      [.frame .forward
        { connectionId := conn
          message := .error MessageTypes.codeCall i.callerRequestId details (some errorUri) payload
          stream := some (.invocation key) }] := by
  have h' := h.send otherPort (.invocation (some i))
  obtain ⟨found, st', hworld, hfound⟩ := h'.snapshot env view .relayErrorSnapshot
    (.invocation (some i))
  rw [sendInternalInvocationError, Script.runIn_ask _ (RouterStateStore.world_get env view _),
    h.pending]
  simp only [StoreReply.asInvocation, hcallee, ne_eq, not_true_eq_false, if_false]
  rw [Script.runIn_ask _ (RouterStateStore.world_complete env view _),
    RouterStateStore.completeInvocation_found h'.pending]
  simp only [h.outside]
  rw [Script.runIn_ask _ hworld]
  simp only [StoreReply.asSnapshot, hfound, Script.runIn_send, Script.runIn_done]

/-- A final result is sent on to the caller, unless the call is cancelled. -/
theorem relays_result (h : Awaited st key i conn) (hcallee : i.calleeSessionId = callee)
    (hplain : i.cancelRequested = false) (ppt : PPTOptions) (details : Dict) (payload : Payload) :
    ∃ path, ((sendInternalInvocationResult key.1 key.2 callee false ppt details payload).runIn
      (RouterStateStore.world env view) st).1 =
      [.frame path
        { connectionId := conn
          message := .result i.callerRequestId (relayedDetails false ppt details) payload
          stream := some (.invocation key) }] := by
  have h' := h.send otherPort (.invocation (some i))
  obtain ⟨found, st', hworld, hfound⟩ := h'.snapshot env view .relaySnapshot
    (.invocation (some i))
  rw [sendInternalInvocationResult, Script.runIn_ask _ (RouterStateStore.world_get env view _),
    h.pending]
  simp only [StoreReply.asInvocation, hcallee, ne_eq, not_true_eq_false, if_false, hplain,
    Bool.false_and, Bool.false_eq_true]
  rw [Script.runIn_ask _ (RouterStateStore.world_complete env view _),
    RouterStateStore.completeInvocation_found h'.pending]
  simp only [relayResult, h.outside]
  rw [Script.runIn_ask _ hworld]
  simp only [StoreReply.asSnapshot, hfound]
  rw [Script.runIn_ask _ (rfl : RouterStateStore.world env view .look _ = some (view, _))]
  exact ⟨_, rfl⟩

/-- A result of a cancelled call is completed first; the error that should follow then finds no
invocation. -/
theorem refuses_result (h : Awaited st key i conn) (hcallee : i.calleeSessionId = callee)
    (hcancelled : i.cancelRequested = true) (progress : Bool) (ppt : PPTOptions) (details : Dict)
    (payload : Payload) :
    ((sendInternalInvocationResult key.1 key.2 callee progress ppt details payload).runIn
      (RouterStateStore.world env view) st).1 = [] := by
  have h' := h.send otherPort (.invocation (some i))
  have hgone : ∀ reply : StoreReply, (((st.send otherPort (.invocation (some i))).completeInvocation
      key.1 key.2).1.send otherPort reply).getInvocation key.1 key.2 = none := fun _ =>
    RouterStateStore.completeInvocation_gone _ key.1 key.2
  rw [sendInternalInvocationResult, Script.runIn_ask _ (RouterStateStore.world_get env view _),
    h.pending]
  simp only [StoreReply.asInvocation, hcallee, ne_eq, not_true_eq_false, if_false, hcancelled,
    if_true, refuseResult]
  rw [Script.runIn_ask _ (RouterStateStore.world_complete env view _),
    RouterStateStore.completeInvocation_found h'.pending]
  simp only [h.outside, sendInternalInvocationError]
  rw [Script.runIn_ask _ (RouterStateStore.world_get env view _), hgone]
  simp only [StoreReply.asInvocation, Script.runIn_done]

end

end Awaited

/-- Once the invocation is gone, an error reaches nobody. -/
theorem relays_nothing {st : RouterStateStore} {key : InvocationKey} (env : StoreEnv) (view : View)
    (h : st.getInvocation key.1 key.2 = none) (callee : Nat) (errorUri : String) (details : Dict)
    (payload : Payload) :
    ((sendInternalInvocationError key.1 key.2 callee errorUri details payload).runIn
      (RouterStateStore.world env view) st).1 = [] := by
  rw [sendInternalInvocationError, Script.runIn_ask _ (RouterStateStore.world_get env view _), h]
  simp only [StoreReply.asInvocation, Script.runIn_done]

/-! ### At most one message, and none to a callee -/

section

variable (realmUri : String) (id callee : Nat)

theorem ends_error (errorUri : String) (details : Dict) (payload : Payload) :
    (sendInternalInvocationError realmUri id callee errorUri details payload).Ends
      fun p => p.isInvocation = false := by
  intro reply
  dsimp only
  split
  · trivial
  · trivial
  · next invocation _ =>
    split
    · intro _
      trivial
    · intro reply
      dsimp only
      split
      · trivial
      · split
        · trivial
        · intro reply
          dsimp only
          split
          · trivial
          · split <;> trivial

theorem ends_result (progress : Bool) (ppt : PPTOptions) (details : Dict) (payload : Payload) :
    (sendInternalInvocationResult realmUri id callee progress ppt details payload).Ends
      fun p => p.isInvocation = false := by
  have hrelay : ∀ invocation : PendingInvocation,
      (relayResult realmUri id callee invocation progress ppt details payload).Ends
      fun p => p.isInvocation = false := by
    intro invocation
    unfold relayResult
    split
    · trivial
    · intro reply
      dsimp only
      split
      · exact ends_error realmUri id callee _ _ _
      · split
        · trivial
        · intro _
          trivial
  have hrefuse : ∀ (invocation : PendingInvocation) (errorUri text : String),
      (refuseResult realmUri id callee invocation errorUri text).Ends
      fun p => p.isInvocation = false := by
    intro invocation errorUri text reply
    dsimp only
    split
    · exact ends_error realmUri id callee _ _ _
    · trivial
    · exact ends_error realmUri id callee _ _ _
  intro reply
  dsimp only
  split
  · exact ends_error realmUri id callee _ _ _
  · trivial
  · next invocation _ =>
    split
    · intro reply
      dsimp only
      split
      · exact ends_error realmUri id callee _ _ _
      · trivial
    · split
      · exact hrefuse invocation _ _
      · split
        · exact hrefuse invocation _ _
        · split
          · intro reply
            dsimp only
            split
            · exact ends_error realmUri id callee _ _ _
            · trivial
            · exact hrelay invocation
          · intro reply
            dsimp only
            split
            · exact ends_error realmUri id callee _ _ _
            · trivial
            · exact hrelay invocation

theorem ends_response (procedure : String) (response : InternalResponse) :
    (relayResponse realmUri id callee procedure response).Ends
      fun p => p.isInvocation = false := by
  cases response with
  | result progress ppt details payload => exact ends_result realmUri id callee _ _ _ _
  | error error details payload => exact ends_error realmUri id callee _ _ _
  | invalid => exact ends_error realmUri id callee _ _ _

theorem sends_response (procedure : String) (response : InternalResponse) :
    (relayResponse realmUri id callee procedure response).Sends 1 :=
  (ends_response realmUri id callee procedure response).sends

end

namespace Relay

variable {reader : Reader} {key : InvocationKey}

theorem respond_frame (r : Relay) (response : HandlerResponse) :
    (step reader key r (.respond response)).store = r.store ∧
      (step reader key r (.respond response)).posted = r.posted ∧
      (step reader key r (.respond response)).reading = r.reading := by
  rw [step]
  split <;> exact ⟨rfl, rfl, rfl⟩

theorem interrupt_frame (r : Relay) (mode : Option String) :
    (step reader key r (.interrupt mode)).posted = r.posted ∧
      (step reader key r (.interrupt mode)).reading = r.reading := by
  rw [step]
  split <;> exact ⟨rfl, rfl⟩

theorem respond_closed {r : Relay} (h : r.pending = false) (response : HandlerResponse) :
    step reader key r (.respond response) = r := by
  rw [step, if_neg (by simp [h])]

theorem interrupt_closed {r : Relay} (h : r.pending = false) (mode : Option String) :
    step reader key r (.interrupt mode) = r := by
  rw [step, if_neg (by simp [h])]

/-- Who has stopped reading sends nothing more. -/
theorem posted_of_closed {r : Relay} (h : r.reading = false) (xs : List RelayInput) :
    (xs.foldl (step reader key) r).posted = r.posted := by
  induction xs generalizing r with
  | nil => rfl
  | cons x xs ih =>
      have hstep : (step reader key r x).posted = r.posted ∧
          (step reader key r x).reading = false := by
        cases x with
        | respond response =>
            obtain ⟨-, hposted, hreading⟩ := respond_frame r response
            exact ⟨hposted, hreading.trans h⟩
        | cancel => exact ⟨rfl, h⟩
        | interrupt mode =>
            obtain ⟨hposted, hreading⟩ := interrupt_frame r mode
            exact ⟨hposted, hreading.trans h⟩
        | read =>
            rw [step, h]
            exact ⟨rfl, h⟩
      rw [List.foldl_cons, ih hstep.2, hstep.1]

/-- **A worker sends its caller one message at most.** -/
theorem worker_posts_le_one (env : StoreEnv) (view : View) (callee : Nat) (procedure : String)
    {r : Relay} (h : r.posted = []) (xs : List RelayInput) :
    (xs.foldl (workerStep env view key callee procedure) r).posted.length ≤ 1 := by
  induction xs generalizing r with
  | nil => simp [h]
  | cons x xs ih =>
      rw [List.foldl_cons]
      cases x with
      | respond response => exact ih ((respond_frame r response).2.1.trans h)
      | cancel => exact ih h
      | interrupt mode => exact ih ((interrupt_frame r mode).1.trans h)
      | read =>
          rw [workerStep, step]
          split
          · next reply rest _ _ =>
            rw [posted_of_closed rfl, h]
            exact (sends_response key.1 key.2 callee procedure reply.seen).runIn r.store
          · exact ih h

/-! ### Runs with one reply -/

/-- The callee's session has spoken its only reply, and nobody has read it. -/
structure Holds (reply : CalleeReply) (r : Relay) : Prop where
  pending : r.pending = false
  replyPort : r.replyPort = [reply]
  reading : r.reading = true
  posted : r.posted = []

/-- Nothing has been said. -/
structure Untouched (r : Relay) : Prop where
  pending : r.pending = true
  replyPort : r.replyPort = []
  reading : r.reading = true
  posted : r.posted = []

theorem Untouched.start (st : RouterStateStore) : Untouched (start st) := ⟨rfl, rfl, rfl, rfl⟩

theorem Untouched.read {r : Relay} (h : Untouched r) : step reader key r .read = r := by
  rw [step, h.replyPort]
  split
  · next heq => cases heq
  · rfl

theorem Untouched.cancel {r : Relay} (h : Untouched r) :
    Untouched (step reader key r .cancel) :=
  ⟨h.pending, h.replyPort, h.reading, h.posted⟩

theorem Untouched.respond {r : Relay} (h : Untouched r) {response : HandlerResponse}
    (hlast : response.isLast = true) :
    Holds (.response response) (step reader key r (.respond response)) := by
  rw [step, if_pos h.pending]
  exact ⟨by simp [hlast], by simp [h.replyPort], h.reading, h.posted⟩

theorem Untouched.interrupt {r : Relay} (h : Untouched r) (mode : Option String) :
    Holds (interruptReply mode) (step reader key r (.interrupt mode)) := by
  rw [step, if_pos h.pending]
  exact ⟨rfl, by simp [h.replyPort], h.reading, h.posted⟩

/-- What the only reply is read for, while the store is as `Q` says: cancellations keep it so, or
none comes before the reading. -/
theorem Holds.run {reply : CalleeReply} {Q : RouterStateStore → Prop} {got : List RouterMessage}
    (hread : ∀ st, Q st → (reader reply st).1.filterMap Post.received = got ∧
      (reader reply st).2.1 = false)
    {xs : List RelayInput}
    (hxs : readFirst xs = true ∨
      ∀ st, Q st → Q (st.cancelInvocation key.1 key.2 CancelMode.kill.name true).1)
    {r : Relay} (h : Holds reply r) (hQ : Q r.store)
    (hover : (xs.foldl (step reader key) r).Over) :
    (xs.foldl (step reader key) r).received = got := by
  induction xs generalizing r with
  | nil => exact absurd (hover.2 h.reading) (by simp [h.replyPort])
  | cons x xs ih =>
      rw [List.foldl_cons] at hover ⊢
      cases x with
      | respond response =>
          rw [respond_closed h.pending] at hover ⊢
          exact ih hxs h hQ hover
      | interrupt mode =>
          rw [interrupt_closed h.pending] at hover ⊢
          exact ih hxs h hQ hover
      | cancel =>
          obtain hfirst | hkeep := hxs
          · cases hfirst
          · exact ih (.inr hkeep) ⟨h.pending, h.replyPort, h.reading, h.posted⟩
              (hkeep r.store hQ) hover
      | read =>
          obtain ⟨hgot, hclosed⟩ := hread r.store hQ
          rw [received, step, h.reading, h.replyPort]
          dsimp only
          rw [posted_of_closed hclosed, h.posted]
          exact hgot

/-- A session that has come to its end has spoken. -/
theorem spoken_ne_nil {r : Relay} (h : r.pending = true) {xs : List RelayInput}
    (hend : (xs.foldl (step reader key) r).pending = false) : spoken xs ≠ [] := by
  induction xs generalizing r with
  | nil => exact absurd hend (by simp [h])
  | cons x xs ih =>
      cases x with
      | respond response => exact List.cons_ne_nil _ _
      | interrupt mode => exact List.cons_ne_nil _ _
      | cancel => exact ih (r := step reader key r .cancel) h hend
      | read =>
          refine ih (r := step reader key r .read) ?_ hend
          rw [step]
          split <;> exact h

section

variable {requestId : Nat} {Q : Bool → RouterStateStore → Prop}

/-- A reader that takes an error always, and a final result of a call that is not cancelled,
passes on what a prompt handler says. -/
theorem run_prompt
    (hcancel : ∀ b st, Q b st → Q true (st.cancelInvocation key.1 key.2 CancelMode.kill.name true).1)
    (hread : ∀ b st response, Q b st → response.isLast = true →
      prompt b [.respond response, .read] = true →
      (reader (.response response) st).1.filterMap Post.received =
        [CalleeReply.message requestId (.response response)] ∧
      (reader (.response response) st).2.1 = false)
    {xs : List RelayInput} {b : Bool} {r : Relay} (h : Untouched r) (hQ : Q b r.store)
    (hprompt : prompt b xs = true) (hover : (xs.foldl (step reader key) r).Over) :
    (xs.foldl (step reader key) r).received =
      (spoken xs).map (CalleeReply.message requestId) := by
  induction xs generalizing b r with
  | nil => cases hprompt
  | cons x xs ih =>
      rw [List.foldl_cons] at hover ⊢
      cases x with
      | read =>
          rw [h.read] at hover ⊢
          exact ih h hQ hprompt hover
      | cancel => exact ih h.cancel (hcancel b r.store hQ) hprompt hover
      | interrupt mode => cases hprompt
      | respond response =>
          cases response with
          | error error details payload =>
              -- an error is taken whether the call is cancelled or not
              refine (h.respond rfl).run (Q := fun st => ∃ b, Q b st) ?_
                (.inr fun st ⟨b, hb⟩ => ⟨true, hcancel b st hb⟩) ⟨b, ?_⟩ hover
              · rintro st ⟨b, hb⟩
                exact hread b st _ hb rfl hprompt
              · rw [(respond_frame r _).1]
                exact hQ
          | result progress ppt details payload =>
              simp only [prompt, Bool.and_eq_true, Bool.not_eq_true'] at hprompt
              obtain ⟨⟨rfl, rfl⟩, hfirst⟩ := hprompt
              refine (h.respond rfl).run (Q := Q false) (fun st hst => ?_) (.inl hfirst) ?_ hover
              · exact hread false st _ hst rfl rfl
              · rw [(respond_frame r _).1]
                exact hQ

end

end Relay

/-- The call of request `requestId` waits for `callee`, marked as cancelled or not. -/
def Waits (key : InvocationKey) (callee requestId conn : Nat) (cancelled : Bool)
    (st : RouterStateStore) : Prop :=
  ∃ i, Awaited st key i conn ∧ i.calleeSessionId = callee ∧ i.callerRequestId = requestId ∧
    i.cancelRequested = cancelled

theorem Waits.cancel {key : InvocationKey} {callee requestId conn : Nat} {b : Bool}
    {st : RouterStateStore} (h : Waits key callee requestId conn b st) :
    Waits key callee requestId conn true
      (st.cancelInvocation key.1 key.2 CancelMode.kill.name true).1 := by
  obtain ⟨i, hi, hcallee, hrequest, -⟩ := h
  exact ⟨_, hi.cancel CancelMode.kill.name, hcallee, hrequest, rfl⟩

namespace Relay

variable {env : StoreEnv} {view : View} {key : InvocationKey} {callee requestId conn : Nat}
  {procedure : String}

theorem worker_reads_error {b : Bool} {st : RouterStateStore}
    (h : Waits key callee requestId conn b st) (error : Option String) (details : Dict)
    (payload : Payload) :
    (workerReads env view key callee procedure (.response (.error error details payload))
      st).1.filterMap Post.received =
      [.error MessageTypes.codeCall requestId details (some (error.getD WampError.runtimeError))
        payload] := by
  obtain ⟨i, hi, hcallee, rfl, -⟩ := h
  have hsent := hi.relays_error env view hcallee (error.getD WampError.runtimeError) details payload
  rw [workerReads]
  simp only [CalleeReply.seen, relayResponse, hsent]
  rfl

theorem worker_reads_result {st : RouterStateStore}
    (h : Waits key callee requestId conn false st) (ppt : PPTOptions) (details : Dict)
    (payload : Payload) :
    (workerReads env view key callee procedure (.response (.result false ppt details payload))
      st).1.filterMap Post.received =
      [.result requestId (relayedDetails false ppt details) payload] := by
  obtain ⟨i, hi, hcallee, rfl, hplain⟩ := h
  obtain ⟨path, hsent⟩ := hi.relays_result env view hcallee hplain ppt details payload
  rw [workerReads]
  simp only [CalleeReply.seen, relayResponse, hsent]
  rfl

theorem worker_reads_cancelled {st : RouterStateStore}
    (h : Waits key callee requestId conn true st) (progress : Bool) (ppt : PPTOptions)
    (details : Dict) (payload : Payload) :
    (workerReads env view key callee procedure (.response (.result progress ppt details payload))
      st).1.filterMap Post.received = [] := by
  obtain ⟨i, hi, hcallee, -, hcancelled⟩ := h
  have hsent := hi.refuses_result env view hcallee hcancelled progress ppt details payload
  rw [workerReads]
  simp only [CalleeReply.seen, relayResponse, hsent]
  rfl

theorem worker_reads_interrupt {st : RouterStateStore} (h : st.getInvocation key.1 key.2 = none)
    (mode : Option String) :
    (workerReads env view key callee procedure (interruptReply mode) st).1.filterMap
      Post.received = [] := by
  rw [workerReads]
  simp only [interruptReply, CalleeReply.seen, relayResponse, relays_nothing env view h]
  rfl

/-- The final result of a call that is cancelled before the worker reads it is lost. -/
theorem worker_loses_result {response : HandlerResponse} {xs : List RelayInput} {r : Relay}
    (hread : ∀ st, Waits key callee requestId conn true st →
      (workerReads env view key callee procedure (.response response) st).1.filterMap
        Post.received = [])
    (h : Holds (.response response) r) (hw : ∃ b, Waits key callee requestId conn b r.store)
    (hlate : readFirst xs = false ∨ Waits key callee requestId conn true r.store)
    (hover : (xs.foldl (workerStep env view key callee procedure) r).Over) :
    (xs.foldl (workerStep env view key callee procedure) r).received = [] := by
  have hrun : ∀ {r : Relay} {xs : List RelayInput}, Holds (.response response) r →
      Waits key callee requestId conn true r.store →
      (xs.foldl (workerStep env view key callee procedure) r).Over →
      (xs.foldl (workerStep env view key callee procedure) r).received = [] :=
    fun h hw hover => h.run (fun st hst => ⟨hread st hst, rfl⟩) (.inr fun _ hst => hst.cancel) hw
      hover
  obtain hlate | hw' := hlate
  · induction xs generalizing r with
    | nil => exact absurd (hover.2 h.reading) (by simp [h.replyPort])
    | cons x xs ih =>
        rw [List.foldl_cons] at hover ⊢
        cases x with
        | read => cases hlate
        | cancel =>
            obtain ⟨b, hw⟩ := hw
            exact hrun ⟨h.pending, h.replyPort, h.reading, h.posted⟩ hw.cancel hover
        | respond other =>
            have hstep : workerStep env view key callee procedure r (.respond other) = r :=
              respond_closed h.pending other
            rw [hstep] at hover ⊢
            exact ih h hw hover hlate
        | interrupt mode =>
            have hstep : workerStep env view key callee procedure r (.interrupt mode) = r :=
              interrupt_closed h.pending mode
            rw [hstep] at hover ⊢
            exact ih h hw hover hlate
  · exact hrun h hw' hover

/-- **What a worker loses**: a handler that is not prompt is not heard in full. -/
theorem worker_lossy {xs : List RelayInput} {b : Bool} {r : Relay} (h : Untouched r)
    (hw : Waits key callee requestId conn b r.store) (hprompt : prompt b xs = false)
    (hover : (xs.foldl (workerStep env view key callee procedure) r).Over) :
    (xs.foldl (workerStep env view key callee procedure) r).received ≠
      (spoken xs).map (CalleeReply.message requestId) := by
  induction xs generalizing b r with
  | nil => exact absurd hover.1 (by simp [h.pending])
  | cons x xs ih =>
      have hbound : ((x :: xs).foldl (workerStep env view key callee procedure) r).posted.length ≤ 1 :=
        worker_posts_le_one env view callee procedure h.posted (x :: xs)
      rw [List.foldl_cons] at hover hbound ⊢
      cases x with
      | read =>
          have hstep : workerStep env view key callee procedure r .read = r := h.read
          rw [hstep] at hover ⊢
          exact ih h hw hprompt hover
      | cancel => exact ih h.cancel hw.cancel hprompt hover
      | interrupt mode =>
          -- the session has completed the invocation before its reply is read
          have hgone : (workerStep env view key callee procedure r
              (.interrupt mode)).store.getInvocation key.1 key.2 = none := by
            rw [workerStep, step, if_pos h.pending]
            exact RouterStateStore.completeInvocation_gone _ key.1 key.2
          have hnothing := Holds.run (Q := fun st => st.getInvocation key.1 key.2 = none)
            (fun st hst => ⟨worker_reads_interrupt hst mode, rfl⟩)
            (.inr fun st hst => by rwa [RouterStateStore.cancelInvocation_gone _ hst])
            (h.interrupt mode) hgone hover
          rw [hnothing]
          exact (List.cons_ne_nil _ _).symm
      | respond response =>
          have hstore : (workerStep env view key callee procedure r
              (.respond response)).store = r.store := (respond_frame r response).1
          cases response with
          | error error details payload =>
              have herror : error = none := by simpa [prompt] using hprompt
              subst herror
              have hgot := Holds.run (Q := fun st => ∃ b, Waits key callee requestId conn b st)
                (fun st ⟨b, hst⟩ => ⟨worker_reads_error hst none details payload, rfl⟩)
                (.inr fun st ⟨b, hst⟩ => ⟨true, hst.cancel⟩) (h.respond rfl)
                ⟨b, by rwa [hstore]⟩ hover
              rw [hgot]
              simp [spoken, HandlerResponse.isLast, CalleeReply.message, WampError.runtimeError,
                WampError.unknown]
          | result progress ppt details payload =>
              cases progress with
              | true =>
                  -- at least one more reply follows, and a worker reads one only
                  have hpending : (workerStep env view key callee procedure r
                      (.respond (.result true ppt details payload))).pending = true := by
                    rw [workerStep, step, if_pos h.pending]
                    rfl
                  have hmore := spoken_ne_nil hpending hover.1
                  intro heq
                  have hlength := congrArg List.length heq
                  have hle := List.length_filterMap_le Post.received
                    (xs.foldl (workerStep env view key callee procedure) (workerStep env view key
                      callee procedure r
                      (.respond (.result true ppt details payload)))).posted
                  have hpos := List.length_pos_of_ne_nil hmore
                  simp only [received, spoken, HandlerResponse.isLast, Bool.not_true,
                    Bool.false_eq_true, if_false, List.map_cons, List.length_cons,
                    List.length_map] at hlength
                  omega
              | false =>
                  have hlate : readFirst xs = false ∨ Waits key callee requestId conn true
                      (workerStep env view key callee procedure r
                        (.respond (.result false ppt details payload))).store := by
                    cases b with
                    | false => exact .inl (by simpa [prompt] using hprompt)
                    | true => exact .inr (by rwa [hstore])
                  have hnothing := worker_loses_result
                    (fun st hst => worker_reads_cancelled hst false ppt details payload)
                    (h.respond rfl) ⟨b, by rwa [hstore]⟩ hlate hover
                  rw [hnothing]
                  exact (List.cons_ne_nil _ _).symm

/-- **The two callers receive the same messages, and all that the handler says**, if and only if
the handler's first reaction is its last one, an error with its URI or a final result that the
worker reads before a cancellation. -/
theorem relay_agrees_iff (env : StoreEnv) (view : View) (procedure : String)
    {key inner : InvocationKey} {callee requestId conn : Nat} {port : SendPort}
    {st st' : RouterStateStore} (hw : Waits key callee requestId conn false st)
    (xs : List RelayInput)
    (hover : (xs.foldl (workerStep env view key callee procedure) (start st)).Over)
    (hover' : (xs.foldl (sessionStep inner requestId port) (start st')).Over) :
    ((xs.foldl (workerStep env view key callee procedure) (start st)).received =
          (xs.foldl (sessionStep inner requestId port) (start st')).received ∧
        (xs.foldl (workerStep env view key callee procedure) (start st)).received =
          (spoken xs).map (CalleeReply.message requestId)) ↔
      prompt false xs = true := by
  constructor
  · rintro ⟨-, hall⟩
    by_contra hprompt
    exact worker_lossy (.start st) hw (Bool.eq_false_iff.mpr hprompt) hover hall
  · intro hprompt
    have hexternal : (xs.foldl (workerStep env view key callee procedure) (start st)).received =
        (spoken xs).map (CalleeReply.message requestId) := by
      refine run_prompt (Q := Waits key callee requestId conn) (fun _ _ h => h.cancel) ?_
        (.start st) hw hprompt hover
      intro b st response h hlast hone
      cases response with
      | error error details payload =>
          obtain ⟨uri, rfl⟩ := Option.isSome_iff_exists.mp hone
          exact ⟨worker_reads_error h (some uri) details payload, rfl⟩
      | result progress ppt details payload =>
          simp only [prompt, Bool.and_eq_true, Bool.not_eq_true'] at hone
          obtain ⟨⟨rfl, rfl⟩, -⟩ := hone
          exact ⟨worker_reads_result h ppt details payload, rfl⟩
    have hinternal : (xs.foldl (sessionStep inner requestId port) (start st')).received =
        (spoken xs).map (CalleeReply.message requestId) := by
      refine run_prompt (Q := fun _ _ => True) (fun _ _ _ => trivial) ?_ (.start st') trivial hprompt
        hover'
      intro b st response _ hlast _
      cases response with
      | error error details payload => exact ⟨rfl, rfl⟩
      | result progress ppt details payload =>
          have hfinal : progress = false := by simpa [HandlerResponse.isLast] using hlast
          subst hfinal
          exact ⟨rfl, rfl⟩
    exact ⟨hexternal.trans hinternal.symm, hexternal⟩

/-- `Waits`, evaluated. -/
theorem Waits.of_check {key : InvocationKey} {callee requestId conn : Nat} {b : Bool}
    {st : RouterStateStore}
    (h : (st.getInvocation key.1 key.2).any (fun i => i.callerInternalSendPort.isNone &&
      findConnectionIdForSession (st.realmOf key.1).buildSnapshot i.callerSessionId == some conn &&
      i.calleeSessionId == callee && i.callerRequestId == requestId &&
      i.cancelRequested == b) = true) : Waits key callee requestId conn b st := by
  obtain ⟨i, hi, hcheck⟩ := (Option.any_eq_true _ _).mp h
  simp only [Bool.and_eq_true, beq_iff_eq, Option.isNone_iff_eq_none] at hcheck
  obtain ⟨⟨⟨⟨houtside, hconn⟩, hcallee⟩, hrequest⟩, hcancelled⟩ := hcheck
  exact ⟨i, ⟨hi, houtside, hconn⟩, hcallee, hrequest, hcancelled⟩

/-- A client in session 1, and the internal sessions 2 and 3.  Session 2 has registered a
procedure; the given session calls it, asking for progressive results. -/
def relayInputs (caller : Nat) : List (StoreEnv × StoreInput) :=
  [({}, .command (.sessionOpen "realm1" { id := 1, connectionId := 1 })),
   ({}, .command (.sessionOpen "realm1"
      { id := 2, connectionId := 2, internalSendPort := some 12 })),
   ({}, .command (.sessionOpen "realm1"
      { id := 3, connectionId := 3, internalSendPort := some 13 })),
   ({}, .command (.procedureRegister "realm1" 2 "com.proc" .empty 0)),
   ({}, .command (.invocationDispatch "realm1" caller 7 "com.proc"
      (Dict.put .empty "receive_progress" (some (.bool true))) 1))]

def relayCalled (caller : Nat) : RouterStateStore :=
  (relayInputs caller).foldl (fun st x => st.handle x.1 x.2) { realmConfigs := ["realm1"] }

theorem relayCalled_waits : Waits ("realm1", 1) 2 7 1 false (relayCalled 1) :=
  Waits.of_check (by decide +kernel)

/-- The handler answers at once. -/
theorem relay_agrees_at_once :
    ([.respond (.result false {} .empty .null), .read].foldl
        (workerStep {} { state := {} } ("realm1", 1) 2 "com.proc") (start (relayCalled 1))).received =
      ([.respond (.result false {} .empty .null), .read].foldl
        (sessionStep ("realm1", 1) 7 13) (start (relayCalled 3))).received :=
  ((relay_agrees_iff {} { state := {} } "com.proc" relayCalled_waits
    [.respond (.result false {} .empty .null), .read] (by decide +kernel)
    (by decide +kernel)).mpr rfl).1

/-- A progressive result, and then the final one. -/
def twoResults : List RelayInput :=
  [.respond (.result true {} .empty .null), .read, .respond (.result false {} .empty .null), .read]

/-- **The results after the first do not reach an external caller.** -/
theorem chunks_lost :
    ¬ ∀ (env : StoreEnv) (view : View) (procedure : String) (key inner : InvocationKey)
      (callee requestId conn : Nat) (port : SendPort) (st st' : RouterStateStore)
      (xs : List RelayInput), Waits key callee requestId conn false st →
      (xs.foldl (workerStep env view key callee procedure) (start st)).Over →
      (xs.foldl (sessionStep inner requestId port) (start st')).Over →
      (xs.foldl (workerStep env view key callee procedure) (start st)).received =
        (xs.foldl (sessionStep inner requestId port) (start st')).received := by
  intro h
  have heq := h {} { state := {} } "com.proc" ("realm1", 1) ("realm1", 1) 2 7 1 13 (relayCalled 1)
    (relayCalled 3) twoResults relayCalled_waits (by decide +kernel) (by decide +kernel)
  have hlength := congrArg List.length heq
  revert hlength
  decide +kernel

end Relay

end Connectanum
