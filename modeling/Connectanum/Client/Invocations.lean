import Connectanum.Lib.Maps

/-!
# Client — Invocations

The callee's side of the Dart session: INVOCATION, INTERRUPT, call timeouts and the responses of
handlers, with the two tables that they share, both by request id: `_pendingInvocations`, the
responder of the latest INVOCATION, and `_pendingInvocationInterrupts`, the INTERRUPTs that came
before theirs.

Each INVOCATION message is an object of its own, which a handler answers through; the chunks of a
progressive call are several of them with one id.  Here they are numbered as they come.
-/

namespace Connectanum

namespace Callee

open Collections

def errorInvocationCanceled : String := "wamp.error.canceled"
def noSuchRegistration : String := "wamp.error.no_such_registration"
def errorTimeout : String := "wamp.error.timeout"

/-- YIELD, with `options.progress`, or ERROR, with the argument that the session gives it. -/
inductive Response where
  | yield (progress : Bool)
  | error (errorUri : String) (argument : Option String)
  deriving DecidableEq, Repr

def Response.progressive : Response → Bool
  | .yield progress => progress
  | .error .. => false

/-- A message that was sent; `invocation` is the number of the INVOCATION that it answers. -/
structure Sent where
  requestId : Nat
  response : Response
  invocation : Nat
  deriving DecidableEq, Repr

/-- An answer after which no other is expected. -/
def Sent.terminal (m : Sent) : Bool := !m.response.progressive

structure Invocation where
  requestId : Nat
  /-- Whether `_onResponse` is attached. -/
  onResponse : Bool := false
  responseClosed : Bool := false
  responseAbandoned : Bool := false
  deriving DecidableEq, Repr

def Invocation.closeResponse (i : Invocation) : Invocation :=
  { i with responseAbandoned := true, responseClosed := true, onResponse := false }

/-- `_PendingInvocationResponder`. -/
structure Responder where
  invocation : Nat
  timeoutMilliseconds : Option Int
  /-- Whether `_timeoutTimer` is active. -/
  armed : Bool
  deriving DecidableEq, Repr

/-- `armTimeout`. -/
def armTimeout (timeoutMilliseconds : Option Int) : Bool :=
  match timeoutMilliseconds with
  | none => false
  | some milliseconds => 0 < milliseconds

/-- Which handlers a registration has. -/
structure Registered where
  materialized : Bool
  payload : Bool
  lazyPayload : Bool
  deriving DecidableEq, Repr

def Registered.listens (r : Registered) : Bool := r.materialized || r.payload || r.lazyPayload

inductive SendOutcome where
  | sent
  | stateError
  | otherError
  deriving DecidableEq, Repr

/-- The transport while a step uses it: `isReady` before it sends, what `send` does, and `isReady`
after an error. -/
structure Transport where
  isReady : Bool
  outcome : SendOutcome
  isReadyAfter : Bool
  deriving DecidableEq, Repr

inductive Thrown where
  | alreadyCompleted
  | notAttached
  | sending
  deriving DecidableEq, Repr

structure Session where
  registrations : LinkedMap Nat Registered
  invocations : List Invocation
  pendingInvocations : LinkedMap Nat Responder
  pendingInvocationInterrupts : LinkedMap Nat (Option String)
  goodbyeSent : Bool
  incomingClosed : Bool
  sent : List Sent
  /-- The INVOCATIONs that reached a handler, with their ids. -/
  delivered : List (Nat × Nat)

namespace Session

def initial : Session := ⟨.empty, [], .empty, .empty, false, false, [], []⟩

/-! ### Responses -/

def modifyInvocation (s : Session) (i : Nat) (f : Invocation → Invocation) : Session :=
  { s with invocations := s.invocations.modify i f }

/-- `_takeInvocation`, which also stops the timer. -/
def takeInvocation (s : Session) (requestId : Nat) : Option Responder × Session :=
  (s.pendingInvocations.get? requestId,
    { s with pendingInvocations := s.pendingInvocations.erase requestId })

def resetTimeout (s : Session) (requestId : Nat) : Session :=
  { s with
    pendingInvocations :=
      match s.pendingInvocations.get? requestId with
      | none => s.pendingInvocations
      | some r =>
          s.pendingInvocations.insert requestId
            { r with armed := armTimeout r.timeoutMilliseconds } }

def sendInvocationResponse (s : Session) (t : Transport) (requestId i : Nat)
    (response : Response) : Except Thrown Bool × Session :=
  if s.goodbyeSent ∨ s.incomingClosed ∨ ¬ t.isReady then (.ok false, (s.takeInvocation requestId).2)
  else
    match t.outcome with
    | .otherError => (.error .sending, s)
    | .stateError =>
        if ¬ s.goodbyeSent ∧ ¬ s.incomingClosed ∧ t.isReadyAfter then (.error .sending, s)
        else (.ok false, (s.takeInvocation requestId).2)
    | .sent =>
        let s := { s with sent := s.sent ++ [(⟨requestId, response, i⟩ : Sent)] }
        if response.progressive then (.ok true, s.resetTimeout requestId)
        else (.ok true, (s.takeInvocation requestId).2)

/-- The callback that the session attaches with `onResponse`. -/
def onResponse (s : Session) (t : Transport) (requestId i : Nat) (response : Response) :
    Except Thrown Unit × Session :=
  match s.sendInvocationResponse t requestId i response with
  | (.error e, s) => (.error e, s)
  | (.ok true, s) => (.ok (), s)
  | (.ok false, s) => (.ok (), s.modifyInvocation i Invocation.closeResponse)

/-- `_emitResponse`. -/
def emitResponse (s : Session) (t : Transport) (i : Nat) (response : Response) :
    Except Thrown Unit × Session :=
  match s.invocations[i]? with
  | none => (.error .notAttached, s)
  | some invocation =>
      if invocation.responseClosed then (.error .alreadyCompleted, s)
      else if ¬ invocation.onResponse then (.error .notAttached, s)
      else if response.progressive then s.onResponse t invocation.requestId i response
      else
        let s := s.modifyInvocation i ({ · with responseClosed := true })
        match s.onResponse t invocation.requestId i response with
        | (.ok (), s) => (.ok (), s)
        | (.error e, s) =>
            -- A rejected response can be tried again, unless the handle was given up.
            (.error e,
              s.modifyInvocation i fun i => { i with responseClosed := i.responseAbandoned })

/-- A responder's `cancel` and `timeout`. -/
def respondOpen (s : Session) (t : Transport) (i : Nat) (response : Response) : Session :=
  if (s.invocations[i]?).any (·.responseClosed) then s else (s.emitResponse t i response).2

/-! ### Messages -/

def trackInvocation (s : Session) (requestId i : Nat) (timeoutMilliseconds : Option Int) :
    Session :=
  { s with
    pendingInvocations := (s.pendingInvocations.erase requestId).insert requestId
      ⟨i, timeoutMilliseconds, armTimeout timeoutMilliseconds⟩ }

/-- `_cancelInterruptedInvocation`: the answer says whether an INTERRUPT was waiting. -/
def cancelInterruptedInvocation (s : Session) (t : Transport) (requestId i : Nat) :
    Bool × Session :=
  match s.pendingInvocationInterrupts.get? requestId with
  | none => (false, s)
  | some mode =>
      let s :=
        { s with pendingInvocationInterrupts := s.pendingInvocationInterrupts.erase requestId }
      (true, s.respondOpen t i (.error errorInvocationCanceled mode))

/-- INVOCATION, from either transport: the native one hands its payload to the handlers as it is. -/
def handleInvocation (s : Session) (t : Transport) (requestId registrationId : Nat)
    (timeout : Option Int) : Session :=
  let i := s.invocations.length
  match s.registrations.get? registrationId with
  | none =>
      let s := { s with invocations := s.invocations ++ [({ requestId } : Invocation)] }
      if t.outcome = .sent then
        { s with sent := s.sent ++ [⟨requestId, .error noSuchRegistration none, i⟩] }
      else s
  | some registered =>
      let s :=
        { s with invocations := s.invocations ++ [({ requestId, onResponse := true } : Invocation)] }
      let s := s.trackInvocation requestId i timeout
      let (interrupted, s) := s.cancelInterruptedInvocation t requestId i
      if interrupted || !registered.listens then s
      else { s with delivered := s.delivered ++ [(requestId, i)] }

def handleInterrupt (s : Session) (t : Transport) (requestId : Nat) (mode : Option String) :
    Session :=
  let (pendingInvocation, s) := s.takeInvocation requestId
  match pendingInvocation with
  | some r =>
      if (s.invocations[r.invocation]?).any (·.responseClosed) then
        { s with
          pendingInvocationInterrupts := s.pendingInvocationInterrupts.insert requestId mode }
      else s.respondOpen t r.invocation (.error errorInvocationCanceled mode)
  | none =>
      { s with pendingInvocationInterrupts := s.pendingInvocationInterrupts.insert requestId mode }

/-- The timer of `armTimeout` goes off. -/
def handleTimer (s : Session) (t : Transport) (requestId : Nat) : Session :=
  match s.pendingInvocations.get? requestId with
  | none => s
  | some r =>
      if r.armed then
        let s :=
          { s with
            pendingInvocations := s.pendingInvocations.insert requestId { r with armed := false } }
        s.respondOpen t r.invocation (.error errorTimeout (some "Call timed out"))
      else s

end Session

inductive Event where
  | registered (registrationId : Nat) (registered : Registered)
  | unregistered (registrationId : Nat)
  | invocation (t : Transport) (requestId registrationId : Nat) (timeout : Option Int)
  | interrupt (t : Transport) (requestId : Nat) (mode : Option String)
  | timer (t : Transport) (requestId : Nat)
  | respond (t : Transport) (invocation : Nat) (response : Response)
  | closeResponse (invocation : Nat)
  | goodbye
  | transportClosed
  /-- The rest of `_handleTransportClosed`, after its `await`s. -/
  | tablesCleared
  deriving DecidableEq, Repr

namespace Session

def step (s : Session) : Event → Session
  | .registered registrationId registered =>
      { s with registrations := s.registrations.insert registrationId registered }
  | .unregistered registrationId =>
      { s with registrations := s.registrations.erase registrationId }
  | .invocation t requestId registrationId timeout =>
      s.handleInvocation t requestId registrationId timeout
  | .interrupt t requestId mode => s.handleInterrupt t requestId mode
  | .timer t requestId => s.handleTimer t requestId
  | .respond t i response => (s.emitResponse t i response).2
  | .closeResponse i => s.modifyInvocation i Invocation.closeResponse
  | .goodbye => { s with goodbyeSent := true }
  | .transportClosed => { s with incomingClosed := true }
  | .tablesCleared =>
      if s.incomingClosed then
        { s with
          pendingInvocationInterrupts := .empty
          pendingInvocations := .empty
          registrations := .empty }
      else s

def run (events : List Event) : Session := events.foldl step initial

/-! ### What a response does -/

end Session

inductive TableChange where
  | keep
  | take
  | reset

/-- What comes of a response through an INVOCATION. -/
structure Emission where
  invocation : Invocation
  table : TableChange
  response : Option Response

/-- Whether the session can answer at all. -/
def Session.live (s : Session) : Bool := !s.goodbyeSent && !s.incomingClosed

/-- A response, decided by the INVOCATION that it goes through and the transport alone. -/
def emission (live : Bool) (t : Transport) (invocation : Invocation) (response : Response) :
    Emission :=
  if invocation.responseClosed || !invocation.onResponse then ⟨invocation, .keep, none⟩
  else if !live || !t.isReady then ⟨invocation.closeResponse, .take, none⟩
  else
    match t.outcome with
    | .otherError => ⟨rejected invocation, .keep, none⟩
    | .stateError =>
        if t.isReadyAfter then ⟨rejected invocation, .keep, none⟩
        else ⟨invocation.closeResponse, .take, none⟩
    | .sent =>
        if response.progressive then ⟨invocation, .reset, some response⟩
        else ⟨{ invocation with responseClosed := true }, .take, some response⟩
where
  rejected (invocation : Invocation) : Invocation :=
    if response.progressive then invocation
    else { invocation with responseClosed := invocation.responseAbandoned }

/-- Nothing can be sent through the INVOCATION (any more). -/
def Invocation.Done (i : Invocation) : Prop := i.responseClosed = true ∨ i.onResponse = false

section Emission

variable {live : Bool} {t : Transport} {invocation : Invocation} {response : Response}

theorem emission_of_done (h : invocation.Done) :
    emission live t invocation response = ⟨invocation, .keep, none⟩ := by
  rw [emission, if_pos]
  rcases h with h | h <;> simp [h]

theorem emission_requestId :
    (emission live t invocation response).invocation.requestId = invocation.requestId := by
  unfold emission emission.rejected
  repeat' split
  all_goals rfl

/-- What is sent is the response; if it is the last one, its responder goes. -/
theorem emission_some {sent : Response}
    (h : (emission live t invocation response).response = some sent) :
    ¬ invocation.Done ∧ sent = response ∧
      (response.progressive = false →
        (emission live t invocation response).invocation.Done ∧
          (emission live t invocation response).table = .take) := by
  have hopen : ¬ invocation.Done := fun hdone => by
    rw [emission_of_done hdone] at h
    cases h
  refine ⟨hopen, ?_⟩
  unfold emission at h ⊢
  split at h
  · cases h
  next hnotdone =>
  split at h
  · cases h
  next hup =>
  rw [if_neg hnotdone, if_neg hup]
  cases houtcome : t.outcome with
  | otherError =>
      rw [houtcome] at h
      cases h
  | stateError =>
      rw [houtcome] at h
      dsimp only at h
      split at h <;> cases h
  | sent =>
      rw [houtcome] at h
      dsimp only at h ⊢
      cases hprogressive : response.progressive with
      | true =>
          rw [hprogressive, if_pos rfl] at h
          exact ⟨(Option.some.inj h).symm, nofun⟩
      | false =>
          rw [hprogressive, if_neg Bool.false_ne_true] at h
          exact ⟨(Option.some.inj h).symm, fun _ => ⟨.inl rfl, rfl⟩⟩

end Emission

namespace Session

variable {s s' : Session} {t : Transport} {i requestId : Nat} {invocation : Invocation}
  {response : Response}

def change (s : Session) (requestId : Nat) : TableChange → LinkedMap Nat Responder
  | .keep => s.pendingInvocations
  | .take => s.pendingInvocations.erase requestId
  | .reset => (s.resetTimeout requestId).pendingInvocations

def apply (s : Session) (i requestId : Nat) (e : Emission) : Session :=
  { s with
    invocations := s.invocations.set i e.invocation
    pendingInvocations := s.change requestId e.table
    sent := s.sent ++ (e.response.map fun response => ⟨requestId, response, i⟩).toList }

theorem set_self (h : s.invocations[i]? = some invocation) :
    s.invocations.set i invocation = s.invocations := by
  obtain ⟨hlt, rfl⟩ := List.getElem?_eq_some_iff.mp h
  exact List.set_getElem_self hlt

theorem emitResponse_none (h : s.invocations[i]? = none) :
    (s.emitResponse t i response).2 = s := by
  rw [emitResponse, h]

/-- The link is down: the response is dropped, and its handle with it. -/
theorem onResponse_down (h : s.live = false ∨ t.isReady = false) :
    s.onResponse t requestId i response =
      (.ok (), (s.takeInvocation requestId).2.modifyInvocation i Invocation.closeResponse) := by
  have hdown : s.goodbyeSent = true ∨ s.incomingClosed = true ∨ ¬ t.isReady = true := by
    rcases h with hlive | hready
    · cases hgoodbye : s.goodbyeSent with
      | true => exact .inl rfl
      | false =>
          simp only [live, hgoodbye, Bool.not_false, Bool.true_and, Bool.not_eq_false'] at hlive
          exact .inr (.inl hlive)
    · exact .inr (.inr (by simp [hready]))
  rw [onResponse, sendInvocationResponse, if_pos hdown]

/-- The link is up: what becomes of the response is up to the transport. -/
theorem onResponse_up (hlive : s.live = true) (hready : t.isReady = true) :
    s.onResponse t requestId i response =
      match t.outcome with
      | .otherError => (.error .sending, s)
      | .stateError =>
          if t.isReadyAfter then (.error .sending, s)
          else (.ok (), (s.takeInvocation requestId).2.modifyInvocation i Invocation.closeResponse)
      | .sent =>
          let s := { s with sent := s.sent ++ [(⟨requestId, response, i⟩ : Sent)] }
          if response.progressive then (.ok (), s.resetTimeout requestId)
          else (.ok (), (s.takeInvocation requestId).2) := by
  simp only [live, Bool.and_eq_true, Bool.not_eq_true'] at hlive
  rw [onResponse, sendInvocationResponse, if_neg (by simp [hlive, hready])]
  cases t.outcome with
  | otherError => rfl
  | stateError =>
      cases t.isReadyAfter <;> simp [hlive]
  | sent => cases response.progressive <;> rfl

theorem modify_set (h : s.invocations[i]? = some invocation) (invocation' : Invocation)
    (f : Invocation → Invocation) :
    (s.invocations.set i invocation').modify i f = s.invocations.set i (f invocation') := by
  obtain ⟨hlt, -⟩ := List.getElem?_eq_some_iff.mp h
  rw [List.modify_eq_set_getElem?, List.getElem?_set_self hlt]
  exact List.set_set ..

/-- **A response does what its emission says.** -/
theorem emitResponse_eq (h : s.invocations[i]? = some invocation) :
    (s.emitResponse t i response).2 =
      s.apply i invocation.requestId (emission s.live t invocation response) := by
  have hself := set_self h
  have hmodify : ∀ f, s.invocations.modify i f = s.invocations.set i (f invocation) := fun f => by
    rw [← modify_set h, hself]
  rw [emitResponse, h]
  dsimp only
  cases hclosed : invocation.responseClosed with
  | true => simp [emission, hclosed, apply, change, hself]
  | false =>
  cases hattached : invocation.onResponse with
  | false => simp [emission, hclosed, hattached, apply, change, hself]
  | true =>
  rw [if_neg Bool.false_ne_true, if_neg (by simp)]
  -- What the handle has to do with it is settled; the rest is up to the link and the transport.
  by_cases hup : s.live = true ∧ t.isReady = true
  · obtain ⟨hlive, hready⟩ := hup
    cases hprogressive : response.progressive with
    | true =>
        rw [if_pos rfl, onResponse_up hlive hready]
        cases houtcome : t.outcome <;> cases hafter : t.isReadyAfter <;>
          simp [emission, emission.rejected, hclosed, hattached, hlive, hready, houtcome, hafter,
            hprogressive, apply, change, takeInvocation, resetTimeout, modifyInvocation, hmodify,
            hself]
    | false =>
        rw [if_neg Bool.false_ne_true,
          onResponse_up (s := s.modifyInvocation i ({ · with responseClosed := true })) hlive hready]
        cases houtcome : t.outcome <;> cases hafter : t.isReadyAfter <;>
          simp [emission, emission.rejected, hclosed, hattached, hlive, hready, houtcome, hafter,
            hprogressive, apply, change, takeInvocation, modifyInvocation, hmodify, modify_set h,
            Invocation.closeResponse]
  · have hdown : s.live = false ∨ t.isReady = false := by
      simpa only [not_and_or, Bool.not_eq_true] using hup
    have hemission : emission s.live t invocation response =
        ⟨invocation.closeResponse, .take, none⟩ := by
      rcases hdown with hlive | hready
      · simp [emission, hclosed, hattached, hlive]
      · simp [emission, hclosed, hattached, hready]
    rw [hemission]
    cases hprogressive : response.progressive with
    | true =>
        rw [if_pos rfl, onResponse_down hdown]
        simp [apply, change, takeInvocation, modifyInvocation, hmodify]
    | false =>
        rw [if_neg Bool.false_ne_true,
          onResponse_down (s := s.modifyInvocation i ({ · with responseClosed := true })) hdown]
        simp [apply, change, takeInvocation, modifyInvocation, hmodify, modify_set h,
          Invocation.closeResponse]

/-- A responder only answers through an INVOCATION that is open, and a closed one sends nothing. -/
theorem respondOpen_eq : s.respondOpen t i response = (s.emitResponse t i response).2 := by
  rw [respondOpen]
  cases h : s.invocations[i]? with
  | none => rfl
  | some invocation =>
      rw [Option.any_some]
      cases hclosed : invocation.responseClosed with
      | false => rfl
      | true =>
          rw [if_pos rfl, emitResponse, h]
          dsimp only
          rw [if_pos hclosed]

theorem get?_change {table : TableChange} {id : Nat} {r : Responder}
    (h : (s.change requestId table).get? id = some r) :
    ∃ r', s.pendingInvocations.get? id = some r' ∧ r'.invocation = r.invocation := by
  cases table with
  | keep => exact ⟨r, h, rfl⟩
  | take =>
      simp only [change, LinkedMap.get?_erase] at h
      split at h
      · cases h
      · exact ⟨r, h, rfl⟩
  | reset =>
      simp only [change, resetTimeout] at h
      split at h
      · exact ⟨r, h, rfl⟩
      · next r' hr' =>
        rw [LinkedMap.get?_insert] at h
        split at h
        · next hid =>
          obtain rfl := Option.some.inj h
          exact ⟨r', hid ▸ hr', rfl⟩
        · exact ⟨r, h, rfl⟩

/-! ### What an INVOCATION does -/

/-- The INVOCATION has come, and its responder is tracked. -/
def opened (s : Session) (requestId : Nat) (timeout : Option Int) : Session :=
  trackInvocation
    { s with invocations := s.invocations ++ [({ requestId, onResponse := true } : Invocation)] }
    requestId s.invocations.length timeout

variable {registrationId : Nat} {timeout : Option Int} {registered : Registered}

theorem handleInvocation_registered
    (hregistered : s.registrations.get? registrationId = some registered) :
    s.handleInvocation t requestId registrationId timeout =
      let (interrupted, s') := (s.opened requestId timeout).cancelInterruptedInvocation t requestId
        s.invocations.length
      if interrupted || !registered.listens then s'
      else { s' with delivered := s'.delivered ++ [(requestId, s.invocations.length)] } := by
  rw [handleInvocation, hregistered]
  rfl

theorem handleInvocation_delivers (hregistered : s.registrations.get? registrationId =
      some registered) (hwaiting : s.pendingInvocationInterrupts.get? requestId = none) :
    s.handleInvocation t requestId registrationId timeout =
      if !registered.listens then s.opened requestId timeout
      else
        { s.opened requestId timeout with
          delivered := s.delivered ++ [(requestId, s.invocations.length)] } := by
  have hcancel : (s.opened requestId timeout).cancelInterruptedInvocation t requestId
      s.invocations.length = (false, s.opened requestId timeout) := by
    rw [cancelInterruptedInvocation]
    change (match s.pendingInvocationInterrupts.get? requestId with
      | none => _
      | some mode => _) = _
    rw [hwaiting]
  rw [handleInvocation_registered hregistered, hcancel]
  rfl

theorem handleInvocation_canceled {mode : Option String}
    (hregistered : s.registrations.get? registrationId = some registered)
    (hwaiting : s.pendingInvocationInterrupts.get? requestId = some mode) :
    s.handleInvocation t requestId registrationId timeout =
      ({ s.opened requestId timeout with
          pendingInvocationInterrupts :=
            s.pendingInvocationInterrupts.erase requestId } : Session).respondOpen t
        s.invocations.length (.error errorInvocationCanceled mode) := by
  have hcancel : (s.opened requestId timeout).cancelInterruptedInvocation t requestId
      s.invocations.length =
      (true, ({ s.opened requestId timeout with
          pendingInvocationInterrupts :=
            s.pendingInvocationInterrupts.erase requestId } : Session).respondOpen t
        s.invocations.length (.error errorInvocationCanceled mode)) := by
    rw [cancelInterruptedInvocation]
    change (match s.pendingInvocationInterrupts.get? requestId with
      | none => _
      | some mode => _) = _
    rw [hwaiting]
    rfl
  rw [handleInvocation_registered hregistered, hcancel]
  rfl

theorem handleInvocation_rejected (hregistered : s.registrations.get? registrationId = none) :
    s.handleInvocation t requestId registrationId timeout =
      { s with
        invocations := s.invocations ++ [({ requestId } : Invocation)]
        sent := s.sent ++ if t.outcome = .sent then
          [⟨requestId, .error noSuchRegistration none, s.invocations.length⟩] else [] } := by
  rw [handleInvocation, hregistered]
  dsimp only
  split
  · rfl
  · rw [List.append_nil]

/-! ### What an INTERRUPT does -/

/-- There is no responder for the id that is still open. -/
def Unanswerable (s : Session) (requestId : Nat) : Prop :=
  ∀ r, s.pendingInvocations.get? requestId = some r →
    (s.invocations[r.invocation]?).any (·.responseClosed) = true

theorem handleInterrupt_waits (h : s.Unanswerable requestId) (mode : Option String) :
    s.handleInterrupt t requestId mode =
      { s with
        pendingInvocations := s.pendingInvocations.erase requestId
        pendingInvocationInterrupts := s.pendingInvocationInterrupts.insert requestId mode } := by
  rw [handleInterrupt, takeInvocation]
  dsimp only
  cases hr : s.pendingInvocations.get? requestId with
  | none => rfl
  | some r => exact if_pos (h r hr)

theorem handleInterrupt_cancels {r : Responder}
    (hr : s.pendingInvocations.get? requestId = some r)
    (hopen : ¬ (s.invocations[r.invocation]?).any (·.responseClosed) = true)
    (mode : Option String) :
    s.handleInterrupt t requestId mode =
      (s.takeInvocation requestId).2.respondOpen t r.invocation
        (.error errorInvocationCanceled mode) := by
  rw [handleInterrupt, takeInvocation, hr]
  exact if_neg hopen

/-- A responder that is open, or none. -/
theorem open_or_unanswerable (s : Session) (requestId : Nat) :
    (∃ r, s.pendingInvocations.get? requestId = some r ∧
        ¬ (s.invocations[r.invocation]?).any (·.responseClosed) = true) ∨
      s.Unanswerable requestId := by
  by_cases h : s.Unanswerable requestId
  · exact .inr h
  · left
    simpa only [Unanswerable, Classical.not_forall, exists_prop] using h

end Session

end Callee

end Connectanum
