import Connectanum.Lib.Maps

/-!
# Boss — Outbound

What the boss does with an outbound frame: the send and forward branches of `_handleEvent`.  Each
branch makes one call of the native runtime and catches its exceptions.  Only `worker_send` acts
on one of them: a full send queue isolates the slow peer.

`settled_iff` says exactly when a frame is not lost silently.
-/

namespace Connectanum

open Collections

namespace NativeTransportErrorCode

def unsupported : Int := -1

def connectionNotFound : Int := -10

def sendQueueFull : Int := -17

end NativeTransportErrorCode

/-- How a call of the native runtime ends. -/
inductive NativeOutcome where
  | accepted
  /-- `NativeTransportException`. -/
  | transport (code : Int)
  /-- `UnsupportedError`. -/
  | unsupported
  /-- `ArgumentError`, for fragments beyond the byte limit; the boss does not catch it. -/
  | argument
  deriving DecidableEq

/-- The events of the workers that put a frame on a connection. -/
inductive OutboundEvent where
  | workerSend (connectionId : Nat) (payload : List UInt8)
  | workerSendFragments (connectionId : Nat) (fragments : List (List UInt8))
  | forwardNativeEvent (connectionId handle subscriptionId publicationId : Nat)
      (publisherSessionId : Option Nat) (topic : Option String)
  | forwardNativeInvocation (connectionId handle invocationId registrationId : Nat)
      (callerSessionId : Option Nat) (callerAuthId callerAuthRole procedure : Option String)
      (receiveProgress progress : Option Bool)
  | forwardNativeResult (connectionId handle requestId : Nat) (progress : Bool)
  | forwardNativeInternalResult (connectionId handle requestId : Nat)
  | forwardNativeError (connectionId handle requestType requestId : Nat)
  deriving DecidableEq

namespace OutboundEvent

def connectionId : OutboundEvent → Nat
  | workerSend c _ | workerSendFragments c _ | forwardNativeEvent c _ _ _ _ _
  | forwardNativeInvocation c _ _ _ _ _ _ _ _ _ | forwardNativeResult c _ _ _
  | forwardNativeInternalResult c _ _ | forwardNativeError c _ _ _ => c

/-- `worker_send`, whole or in fragments. -/
def isWorkerSend : OutboundEvent → Bool
  | workerSend _ _ | workerSendFragments _ _ => true
  | _ => false

/-- The message handle that a forward holds. -/
def handle : OutboundEvent → Option Nat
  | workerSend _ _ | workerSendFragments _ _ => none
  | forwardNativeEvent _ h _ _ _ _ | forwardNativeInvocation _ h _ _ _ _ _ _ _ _
  | forwardNativeResult _ h _ _ | forwardNativeInternalResult _ h _
  | forwardNativeError _ h _ _ => some h

end OutboundEvent

structure Boss where
  connectionOwners : LinkedMap Nat Nat := .empty
  /-- The connections of the native runtime, each with the frames its queue has accepted. -/
  connections : LinkedMap Nat (List OutboundEvent) := .empty
  /-- `_workerCmdRemoveConnection` commands, as worker and connection. -/
  removals : List (Nat × Nat) := []
  releasedHandles : List Nat := []

/-- The answers of the runtime while an event is handled: to the send or forward, and to
`closeConnection`. -/
structure NativeAnswers where
  send : NativeOutcome
  close : Option Int := none

namespace Boss

/-- The connection is known to the runtime. -/
def isLive (b : Boss) (c : Nat) : Bool := b.connections.contains c

/-- The runtime puts the frame on the connection's queue, or says why not. -/
def enqueue (b : Boss) (answers : NativeAnswers) (event : OutboundEvent) : Boss × NativeOutcome :=
  match b.connections.get? event.connectionId with
  | none => (b, .transport NativeTransportErrorCode.connectionNotFound)
  | some queue =>
      if answers.send = .accepted then
        ({ b with connections := b.connections.insert event.connectionId (queue ++ [event]) },
          .accepted)
      else (b, answers.send)

/-- `_detachConnection`. -/
def detachConnection (b : Boss) (c : Nat) : Boss :=
  match b.connectionOwners.get? c with
  | none => b
  | some worker =>
      { b with
        connectionOwners := b.connectionOwners.erase c
        removals := b.removals ++ [(worker, c)] }

/-- `_handlePollError`. -/
def handlePollError (b : Boss) (c : Nat) (code : Int) : Boss :=
  if code = NativeTransportErrorCode.connectionNotFound then b.detachConnection c else b

/-- `runtime.closeConnection`, with the exception it may throw. -/
def closeConnection (b : Boss) (answers : NativeAnswers) (c : Nat) : Boss :=
  match answers.close with
  | none => { b with connections := b.connections.erase c }
  | some code => b.handlePollError c code

/-- The `worker_send` branch. -/
def handleWorkerSend (b : Boss) (answers : NativeAnswers) (event : OutboundEvent) : Boss :=
  match b.enqueue answers event with
  | (b, .accepted) => b
  | (b, .transport code) =>
      -- A rejected WAMP frame must not silently leave a live, incomplete stream.
      if code = NativeTransportErrorCode.sendQueueFull then
        (b.closeConnection answers event.connectionId).detachConnection event.connectionId
      else b
  | (b, .unsupported) => b
  | (b, .argument) => b

/-- A `worker_forward_native_*` branch: whatever the runtime says, the handle is released. -/
def handleForward (b : Boss) (answers : NativeAnswers) (event : OutboundEvent) : Boss :=
  let b := (b.enqueue answers event).1
  { b with releasedHandles := b.releasedHandles ++ event.handle.toList }

/-- The send and forward branches of `_handleEvent`. -/
def handleEvent (b : Boss) (answers : NativeAnswers) (event : OutboundEvent) : Boss :=
  if event.isWorkerSend then b.handleWorkerSend answers event else b.handleForward answers event

/-- The frames on the queue of a connection. -/
def queue (b : Boss) (c : Nat) : List OutboundEvent := (b.connections.get? c).getD []

/-- The connection is closed, and no worker owns it. -/
def Gone (b : Boss) (c : Nat) : Prop := b.isLive c = false ∧ b.connectionOwners.get? c = none

/-- The frame is accounted for in `after`: it is on its connection's queue, or the connection is
closed and detached, or another frame was sent in its place. -/
def Settled (before after : Boss) (event : OutboundEvent) : Prop :=
  after.queue event.connectionId = before.queue event.connectionId ++ [event] ∨
    after.Gone event.connectionId ∨
    ∃ c frame, frame ≠ event ∧ after.queue c = before.queue c ++ [frame]

/-- The condition: the queue accepts the frame; or it is full, the frame came as a `worker_send`
and the connection can be closed; or the connection was closed and detached before. -/
def Deliverable (b : Boss) (answers : NativeAnswers) (event : OutboundEvent) : Prop :=
  (b.isLive event.connectionId = true ∧ answers.send = .accepted) ∨
    (b.isLive event.connectionId = true ∧ event.isWorkerSend = true ∧
      answers.send = .transport NativeTransportErrorCode.sendQueueFull ∧ answers.close = none) ∨
    b.Gone event.connectionId

section

variable {b : Boss} {answers : NativeAnswers} {event : OutboundEvent}

theorem isLive_eq_false_iff {c : Nat} : b.isLive c = false ↔ b.connections.get? c = none := by
  rw [isLive, LinkedMap.contains, Option.isSome_eq_false_iff, Option.isNone_iff_eq_none]

theorem enqueue_cases (b : Boss) (answers : NativeAnswers) (event : OutboundEvent) :
    (b.isLive event.connectionId = false ∧
        b.enqueue answers event = (b, .transport NativeTransportErrorCode.connectionNotFound)) ∨
      (b.isLive event.connectionId = true ∧ answers.send = .accepted ∧
        b.enqueue answers event =
          ({ b with
             connections := b.connections.insert event.connectionId
               (b.queue event.connectionId ++ [event]) }, .accepted)) ∨
      (b.isLive event.connectionId = true ∧ answers.send ≠ .accepted ∧
        b.enqueue answers event = (b, answers.send)) := by
  unfold enqueue isLive LinkedMap.contains queue
  cases b.connections.get? event.connectionId with
  | none => exact .inl ⟨rfl, rfl⟩
  | some frames =>
      by_cases h : answers.send = .accepted
      · exact .inr (.inl ⟨rfl, h, if_pos h⟩)
      · exact .inr (.inr ⟨rfl, h, if_neg h⟩)

/-- Everything that handling an event can do: the frame is enqueued; the connection of a
`worker_send` is closed, if the runtime can, and detached; or nothing happens to connections. -/
theorem handleEvent_cases (b : Boss) (answers : NativeAnswers) (event : OutboundEvent) :
    (b.isLive event.connectionId = true ∧ answers.send = .accepted ∧
        (b.handleEvent answers event).connections =
          b.connections.insert event.connectionId (b.queue event.connectionId ++ [event]) ∧
        (b.handleEvent answers event).connectionOwners = b.connectionOwners) ∨
      (b.isLive event.connectionId = true ∧ event.isWorkerSend = true ∧
        answers.send = .transport NativeTransportErrorCode.sendQueueFull ∧
        b.handleEvent answers event =
          (b.closeConnection answers event.connectionId).detachConnection event.connectionId) ∨
      (¬ (b.isLive event.connectionId = true ∧ answers.send = .accepted) ∧
        ¬ (b.isLive event.connectionId = true ∧ event.isWorkerSend = true ∧
          answers.send = .transport NativeTransportErrorCode.sendQueueFull) ∧
        (b.handleEvent answers event).connections = b.connections ∧
        (b.handleEvent answers event).connectionOwners = b.connectionOwners) := by
  unfold handleEvent handleWorkerSend handleForward
  obtain ⟨hlive, heq⟩ | ⟨hlive, hsend, heq⟩ | ⟨hlive, hsend, heq⟩ := enqueue_cases b answers event
  · rw [heq, hlive]
    refine .inr (.inr ⟨(fun h => by cases h.1), (fun h => by cases h.1), ?_⟩)
    cases event.isWorkerSend with
    | false => exact ⟨rfl, rfl⟩
    | true => exact ⟨rfl, rfl⟩
  · rw [heq]
    refine .inl ⟨hlive, hsend, ?_⟩
    cases event.isWorkerSend with
    | false => exact ⟨rfl, rfl⟩
    | true => exact ⟨rfl, rfl⟩
  · rw [heq]
    by_cases hfull : event.isWorkerSend = true ∧
        answers.send = .transport NativeTransportErrorCode.sendQueueFull
    · refine .inr (.inl ⟨hlive, hfull.1, hfull.2, ?_⟩)
      rw [if_pos hfull.1, hfull.2]
      exact if_pos rfl
    · refine .inr (.inr ⟨fun h => hsend h.2, fun h => hfull h.2, ?_⟩)
      cases hkind : event.isWorkerSend with
      | false => exact ⟨rfl, rfl⟩
      | true =>
          cases hs : answers.send with
          | accepted => exact absurd hs hsend
          | unsupported => exact ⟨rfl, rfl⟩
          | argument => exact ⟨rfl, rfl⟩
          | transport code =>
              have hcode : code ≠ NativeTransportErrorCode.sendQueueFull := by
                rintro rfl
                exact hfull ⟨hkind, hs⟩
              simp only [if_true, if_neg hcode, and_self]

theorem detachConnection_connections (b : Boss) (c : Nat) :
    (b.detachConnection c).connections = b.connections := by
  unfold detachConnection
  split <;> rfl

theorem detachConnection_owner (b : Boss) (c : Nat) :
    (b.detachConnection c).connectionOwners.get? c = none := by
  unfold detachConnection
  split
  · next h => exact h
  · exact LinkedMap.get?_erase_self ..

theorem closeConnection_connections (b : Boss) (answers : NativeAnswers) (c : Nat) :
    (b.closeConnection answers c).connections =
      if answers.close = none then b.connections.erase c else b.connections := by
  unfold closeConnection handlePollError
  cases answers.close with
  | none => rfl
  | some code =>
      rw [if_neg (by simp)]
      change (if code = _ then b.detachConnection c else b).connections = _
      split
      · exact detachConnection_connections b c
      · rfl

/-- Nothing but the frame itself is ever put on a queue. -/
theorem queue_handleEvent {c : Nat} {frame : OutboundEvent}
    (h : (b.handleEvent answers event).queue c = b.queue c ++ [frame]) : frame = event := by
  obtain ⟨-, -, hc, -⟩ | ⟨-, -, -, heq⟩ | ⟨-, -, hc, -⟩ := handleEvent_cases b answers event
  · rw [queue, hc, LinkedMap.get?_insert] at h
    split at h
    · next hce =>
      subst hce
      exact (List.cons.inj (List.append_cancel_left h)).1.symm
    · exact absurd (congrArg List.length h) (by simp [queue])
  · rw [heq, queue, detachConnection_connections, closeConnection_connections] at h
    split at h
    · rw [LinkedMap.get?_erase] at h
      split at h
      · exact absurd (congrArg List.length h) (by simp)
      · exact absurd (congrArg List.length h) (by simp [queue])
    · exact absurd (congrArg List.length h) (by simp [queue])
  · rw [queue, hc] at h
    exact absurd (congrArg List.length h) (by simp [queue])

/-- **A frame is lost silently exactly where it is not deliverable.** -/
theorem settled_iff (b : Boss) (answers : NativeAnswers) (event : OutboundEvent) :
    Settled b (b.handleEvent answers event) event ↔ Deliverable b answers event := by
  have hother : ¬ ∃ c frame, frame ≠ event ∧
      (b.handleEvent answers event).queue c = b.queue c ++ [frame] := by
    rintro ⟨c, frame, hne, h⟩
    exact hne (queue_handleEvent h)
  obtain ⟨hlive, hsend, hc, -⟩ | ⟨hlive, hkind, hsend, heq⟩ | ⟨hnot, hnot', hc, ho⟩ :=
    handleEvent_cases b answers event
  · refine ⟨fun _ => .inl ⟨hlive, hsend⟩, fun _ => .inl ?_⟩
    rw [queue, hc, LinkedMap.get?_insert_self]
    rfl
  · have hconnections : (b.handleEvent answers event).connections =
        if answers.close = none then b.connections.erase event.connectionId
        else b.connections := by
      rw [heq, detachConnection_connections, closeConnection_connections]
    constructor
    · rintro (hqueue | ⟨hgone, -⟩ | hframe)
      · rw [queue, hconnections] at hqueue
        split at hqueue
        · rw [LinkedMap.get?_erase_self] at hqueue
          exact absurd (congrArg List.length hqueue) (by simp)
        · exact absurd (congrArg List.length hqueue) (by simp [queue])
      · rw [isLive_eq_false_iff, hconnections] at hgone
        split at hgone
        · next hclose => exact .inr (.inl ⟨hlive, hkind, hsend, hclose⟩)
        · rw [← isLive_eq_false_iff, hlive] at hgone
          cases hgone
      · exact absurd hframe hother
    · rintro (⟨-, hacc⟩ | ⟨-, -, -, hclose⟩ | ⟨hgone, -⟩)
      · rw [hsend] at hacc
        cases hacc
      · refine .inr (.inl ⟨?_, ?_⟩)
        · rw [isLive_eq_false_iff, hconnections, if_pos hclose]
          exact LinkedMap.get?_erase_self ..
        · rw [heq]
          exact detachConnection_owner ..
      · rw [hlive] at hgone
        cases hgone
  · constructor
    · rintro (hqueue | ⟨hgone, howner⟩ | hframe)
      · rw [queue, hc] at hqueue
        exact absurd (congrArg List.length hqueue) (by simp [queue])
      · rw [isLive_eq_false_iff, hc, ← isLive_eq_false_iff] at hgone
        rw [ho] at howner
        exact .inr (.inr ⟨hgone, howner⟩)
      · exact absurd hframe hother
    · rintro (h | ⟨hlive, hkind, hsend, -⟩ | ⟨hgone, howner⟩)
      · exact absurd h hnot
      · exact absurd ⟨hlive, hkind, hsend⟩ hnot'
      · refine .inr (.inl ⟨?_, ?_⟩)
        · rw [isLive_eq_false_iff, hc]
          exact isLive_eq_false_iff.mp hgone
        · rw [ho]
          exact howner

end

/-- A callee on connection 1, owned by worker 1. -/
def sampleBoss : Boss :=
  { connectionOwners := LinkedMap.empty.insert 1 1, connections := LinkedMap.empty.insert 1 [] }

/-- **An INVOCATION meets a full queue**: it is dropped, and its connection stays as it was. -/
theorem invocation_lost_on_full_queue :
    ¬ ∀ (b : Boss) (answers : NativeAnswers) (event : OutboundEvent),
      Settled b (b.handleEvent answers event) event := by
  intro h
  have hsettled := h sampleBoss ⟨.transport NativeTransportErrorCode.sendQueueFull, none⟩
    (.forwardNativeInvocation 1 5 1 1 none none none none none none)
  rcases hsettled with hqueue | ⟨hlive, -⟩ | ⟨c, frame, hne, hframe⟩
  · exact absurd hqueue (by decide +kernel)
  · exact absurd hlive (by decide +kernel)
  · exact hne (queue_handleEvent hframe)

end Boss

end Connectanum
