import Connectanum.Lib.Runs
import Mathlib.Algebra.Order.Ring.Int
import Mathlib.Algebra.Order.BigOperators.Group.List

/-!
# Mqtt — GatewayQueue

The gateway tasks that wait in a broker, and what is charged for them.

A task is charged when it is queued, to its peer and to the broker, and refunded when it has been
awaited.  So what is charged is what waits and the one task that is being awaited, whose peer may have
been closed in the meantime (`gateway_accounting`).
-/

namespace Connectanum

namespace Mqtt

open Machine (Run)

/-- What `_Peer` keeps for its gateway tasks. -/
structure GatewayPeer where
  /-- The sizes of the tasks in `_gatewayTasks`. -/
  gatewayTasks : List Nat := []
  gatewayBytes : Int := 0
  gatewayActiveBytes : Int := 0
  gatewayRunning : Bool := false
  gatewayOverflowed : Bool := false
  closed : Bool := false
  /-- The size of the task that `_drainGatewayTasks` awaits. -/
  awaited : Option Nat := none

/-- The broker with every peer that was ever attached.  `_gatewayPeers` are those that run: a peer is
added and removed together with its `_gatewayRunning`. -/
structure GatewayBroker where
  peers : List GatewayPeer := []
  gatewayQueuedBytes : Int := 0

inductive GatewayEvent where
  | attached
  /-- `_queueGatewayTask`, for a frame received from the peer or a publication to it. -/
  | queued (peer bytes : Nat)
  /-- The microtask that begins to drain the peer's tasks. -/
  | started (peer : Nat)
  /-- The awaited task is over, or has thrown. -/
  | settled (peer : Nat) (failed : Bool)
  /-- `_close`, for whatever reason. -/
  | closed (peer : Nat)

def maxPendingOutboundBytes : Int := 4 * 1024 * 1024

def maxGatewayQueuedBytes : Int := 16 * 1024 * 1024

namespace GatewayBroker

/-- The peer is changed, and the broker's counter by `bytes`. -/
def update (b : GatewayBroker) (i : Nat) (p : GatewayPeer) (bytes : Int) : GatewayBroker where
  peers := b.peers.set i p
  gatewayQueuedBytes := b.gatewayQueuedBytes + bytes

def queueGatewayTask (b : GatewayBroker) (i : Nat) (p : GatewayPeer) (bytes : Nat) :
    GatewayBroker :=
  if p.closed || p.gatewayOverflowed then b
  else if p.gatewayBytes + bytes > maxPendingOutboundBytes ∨
      b.gatewayQueuedBytes + bytes > maxGatewayQueuedBytes ∨ p.gatewayTasks.length ≥ 256 then
    b.update i { p with gatewayOverflowed := true } 0
  else
    b.update i
      { p with
        gatewayTasks := p.gatewayTasks ++ [bytes]
        gatewayBytes := p.gatewayBytes + bytes
        gatewayRunning := true } bytes

/-- `_close`: what waits is dropped, what is awaited stays charged. -/
def close (b : GatewayBroker) (i : Nat) (p : GatewayPeer) : GatewayBroker :=
  if p.closed then b
  else
    b.update i
      { p with closed := true, gatewayTasks := [], gatewayBytes := p.gatewayActiveBytes }
      (-(p.gatewayBytes - p.gatewayActiveBytes))

/-- From the test of the loop in `_drainGatewayTasks` to its next `await` or its end. -/
def drain (b : GatewayBroker) (i : Nat) (p : GatewayPeer) : GatewayBroker :=
  match p.closed, p.gatewayTasks with
  | false, bytes :: tasks =>
      b.update i
        { p with gatewayTasks := tasks, gatewayActiveBytes := bytes, awaited := some bytes } 0
  | _, _ => b.update i { p with gatewayRunning := false } 0

/-- The `finally` of an awaited task. -/
def refund (b : GatewayBroker) (i : Nat) (p : GatewayPeer) (bytes : Nat) : GatewayBroker :=
  b.update i
    { p with gatewayBytes := p.gatewayBytes - bytes, gatewayActiveBytes := 0, awaited := none }
    (-bytes)

/-- An operation on the peer `i`, if there is one. -/
def onPeer (b : GatewayBroker) (i : Nat) (f : GatewayPeer → GatewayBroker) : GatewayBroker :=
  match b.peers[i]? with
  | none => b
  | some p => f p

def step (b : GatewayBroker) : GatewayEvent → GatewayBroker
  | .attached => { b with peers := b.peers ++ [{}] }
  | .queued i bytes => b.onPeer i fun p => b.queueGatewayTask i p bytes
  | .started i => b.onPeer i fun p => b.drain i p
  | .settled i failed =>
      b.onPeer i fun p =>
        match p.awaited with
        | none => b
        | some bytes =>
            let b := if failed then b.close i p else b
            let b := b.onPeer i fun p => b.refund i p bytes
            b.onPeer i fun p => b.drain i p
  | .closed i => b.onPeer i fun p => b.close i p

/-- A microtask runs once, when the peer has been set running; a task settles while it is awaited. -/
def ok (b : GatewayBroker) : GatewayEvent → Prop
  | .started i => ∃ p, b.peers[i]? = some p ∧ p.gatewayRunning = true ∧ p.awaited = none
  | .settled i _ => ∃ p, b.peers[i]? = some p ∧ p.awaited.isSome = true
  | _ => True

end GatewayBroker

/-! ### What is charged -/

/-- What waits and what is awaited is charged, within the limits, and there is something only while
the peer's tasks are being drained. -/
structure GatewayPeer.Accounted (p : GatewayPeer) : Prop where
  bytes : p.gatewayBytes = p.gatewayTasks.sum + p.awaited.getD 0
  activeBytes : p.gatewayActiveBytes = p.awaited.getD 0
  le_max : p.gatewayBytes ≤ maxPendingOutboundBytes
  few : p.gatewayTasks.length ≤ 256
  idle : p.gatewayRunning = false → p.gatewayTasks = [] ∧ p.awaited = none
  dropped : p.closed = true → p.gatewayTasks = []

namespace GatewayPeer.Accounted

variable {p : GatewayPeer}

theorem new : Accounted {} :=
  ⟨rfl, rfl, by decide, by decide, fun _ => ⟨rfl, rfl⟩, fun _ => rfl⟩

theorem nonneg (h : p.Accounted) : 0 ≤ p.gatewayBytes := by
  rw [h.bytes]
  omega

theorem eq_zero (h : p.Accounted) (hidle : p.gatewayRunning = false) : p.gatewayBytes = 0 := by
  obtain ⟨htasks, hawaited⟩ := h.idle hidle
  rw [h.bytes, htasks, hawaited]
  rfl

end GatewayPeer.Accounted

namespace GatewayBroker

/-- What is charged to the peers. -/
def charged (peers : List GatewayPeer) : Int := (peers.map (·.gatewayBytes)).sum

/-- Each peer is accounted for, and the broker's counter is their sum. -/
structure Accounted (b : GatewayBroker) : Prop where
  peers : ∀ p ∈ b.peers, p.Accounted
  queued : b.gatewayQueuedBytes = charged b.peers
  le_max : b.gatewayQueuedBytes ≤ maxGatewayQueuedBytes

theorem charged_set {peers : List GatewayPeer} {i : Nat} {p : GatewayPeer}
    (h : peers[i]? = some p) (p' : GatewayPeer) :
    charged (peers.set i p') = charged peers + (p'.gatewayBytes - p.gatewayBytes) := by
  induction peers generalizing i with
  | nil => cases h
  | cons q peers ih =>
      cases i with
      | zero =>
          obtain rfl := Option.some.inj h
          simp only [charged, List.set_cons_zero, List.map_cons, List.sum_cons]
          omega
      | succ i =>
          have hrest := ih h
          simp only [charged] at hrest
          simp only [charged, List.set_cons_succ, List.map_cons, List.sum_cons, hrest]
          omega

namespace Accounted

variable {b : GatewayBroker} {i : Nat} {p p' : GatewayPeer} {bytes : Int}

theorem peer (h : b.Accounted) (hp : b.peers[i]? = some p) : p.Accounted :=
  h.peers p (List.mem_of_getElem? hp)

/-- A change of one peer, with the same change of the counter. -/
theorem update (h : b.Accounted) (hp : b.peers[i]? = some p) (hp' : p'.Accounted)
    (hbytes : p'.gatewayBytes = p.gatewayBytes + bytes)
    (hmax : b.gatewayQueuedBytes + bytes ≤ maxGatewayQueuedBytes) :
    (b.update i p' bytes).Accounted := by
  refine ⟨fun q hq => ?_, ?_, hmax⟩
  · rcases List.mem_or_eq_of_mem_set hq with hq | rfl
    · exact h.peers q hq
    · exact hp'
  · have hsum := charged_set hp p'
    change b.gatewayQueuedBytes + bytes = charged (b.peers.set i p')
    rw [hsum, h.queued, hbytes]
    omega

theorem queueGatewayTask (h : b.Accounted) (hp : b.peers[i]? = some p) (bytes : Nat) :
    (b.queueGatewayTask i p bytes).Accounted := by
  have hpeer := h.peer hp
  unfold GatewayBroker.queueGatewayTask
  split
  · exact h
  · next hopen =>
    split
    · refine h.update hp ⟨hpeer.bytes, hpeer.activeBytes, hpeer.le_max, hpeer.few, hpeer.idle,
        hpeer.dropped⟩ (Int.add_zero _).symm ?_
      rw [Int.add_zero]
      exact h.le_max
    · next hroom =>
      obtain ⟨hpeerRoom, hbrokerRoom, hfew⟩ : p.gatewayBytes + bytes ≤ maxPendingOutboundBytes ∧
          b.gatewayQueuedBytes + bytes ≤ maxGatewayQueuedBytes ∧ p.gatewayTasks.length < 256 := by
        rw [not_or, not_or] at hroom
        exact ⟨Int.not_lt.mp hroom.1, Int.not_lt.mp hroom.2.1, Nat.lt_of_not_le hroom.2.2⟩
      refine h.update hp ⟨?_, hpeer.activeBytes, hpeerRoom, ?_, nofun, fun hclosed => ?_⟩ rfl
        hbrokerRoom
      · have hbytes := hpeer.bytes
        dsimp only
        rw [List.sum_append, List.sum_singleton]
        omega
      · rw [List.length_append]
        exact hfew
      · rw [Bool.or_eq_true, not_or] at hopen
        exact absurd hclosed hopen.1

theorem close (h : b.Accounted) (hp : b.peers[i]? = some p) : (b.close i p).Accounted := by
  have hpeer := h.peer hp
  have hle : p.gatewayActiveBytes ≤ p.gatewayBytes := by
    rw [hpeer.bytes, hpeer.activeBytes]
    omega
  unfold GatewayBroker.close
  split
  · exact h
  · refine h.update hp ⟨?_, hpeer.activeBytes, Int.le_trans hle hpeer.le_max, Nat.zero_le _,
      fun hidle => ⟨rfl, (hpeer.idle hidle).2⟩, fun _ => rfl⟩ ?_ ?_
    · have hactive := hpeer.activeBytes
      dsimp only
      rw [List.sum_nil]
      omega
    · dsimp only
      omega
    · have := h.le_max
      omega

/-- A peer that awaits nothing goes on with its tasks, or stops. -/
theorem drain (h : b.Accounted) (hp : b.peers[i]? = some p) (hfree : p.awaited = none) :
    (b.drain i p).Accounted := by
  have hpeer := h.peer hp
  have hmax : b.gatewayQueuedBytes + 0 ≤ maxGatewayQueuedBytes := by
    rw [Int.add_zero]
    exact h.le_max
  have hrunning : (p.closed = true ∨ p.gatewayTasks = []) →
      (b.update i { p with gatewayRunning := false } 0).Accounted := by
    intro hend
    have hempty : p.gatewayTasks = [] := hend.elim hpeer.dropped id
    exact h.update hp ⟨hpeer.bytes, hpeer.activeBytes, hpeer.le_max, hpeer.few,
      fun _ => ⟨hempty, hfree⟩, hpeer.dropped⟩ (Int.add_zero _).symm hmax
  unfold GatewayBroker.drain
  split
  · next bytes tasks hopen htasks =>
    refine h.update hp ⟨?_, rfl, hpeer.le_max, ?_, fun hidle => ?_, fun hclosed => ?_⟩
      (Int.add_zero _).symm hmax
    · have hbytes := hpeer.bytes
      rw [htasks, hfree, List.sum_cons] at hbytes
      dsimp only [Option.getD_some]
      rw [hbytes]
      simp only [Option.getD_none]
      omega
    · have hfew := hpeer.few
      rw [htasks, List.length_cons] at hfew
      exact Nat.le_of_succ_le hfew
    · rw [(hpeer.idle hidle).1] at htasks
      cases htasks
    · rw [hopen] at hclosed
      cases hclosed
  · next hend =>
    refine hrunning ?_
    cases hc : p.closed with
    | true => exact .inl rfl
    | false =>
        cases ht : p.gatewayTasks with
        | nil => exact .inr rfl
        | cons bytes tasks => exact absurd ht (hend bytes tasks hc)

theorem refund (h : b.Accounted) (hp : b.peers[i]? = some p) {bytes : Nat}
    (hawaited : p.awaited = some bytes) : (b.refund i p bytes).Accounted := by
  have hpeer := h.peer hp
  have hbytes := hpeer.bytes
  rw [hawaited] at hbytes
  have hrunning : p.gatewayRunning = true := by
    rw [← Bool.not_eq_false]
    intro hidle
    rw [(hpeer.idle hidle).2] at hawaited
    cases hawaited
  refine h.update hp ⟨?_, rfl, ?_, hpeer.few, fun hidle => ?_, hpeer.dropped⟩ rfl ?_
  · rw [hbytes]
    simp only [Option.getD_some, Option.getD_none]
    omega
  · have := hpeer.le_max
    dsimp only
    omega
  · rw [hrunning] at hidle
    cases hidle
  · have := h.le_max
    omega

/-- An operation that keeps the account of the peer that it is for. -/
theorem onPeer (h : b.Accounted) {f : GatewayPeer → GatewayBroker}
    (hf : ∀ p, b.peers[i]? = some p → (f p).Accounted) : (b.onPeer i f).Accounted := by
  unfold GatewayBroker.onPeer
  cases hp : b.peers[i]? with
  | none => exact h
  | some p => exact hf p hp

theorem attach (h : b.Accounted) : Accounted { b with peers := b.peers ++ [{}] } := by
  refine ⟨fun p hp => ?_, ?_, h.le_max⟩
  · rcases List.mem_append.mp hp with hp | hp
    · exact h.peers p hp
    · rw [List.mem_singleton.mp hp]
      exact .new
  · have hqueued := h.queued
    simp only [charged] at hqueued
    simp [charged, hqueued]

end Accounted

section

variable {b : GatewayBroker} {i : Nat} {p : GatewayPeer}

theorem onPeer_eq (hp : b.peers[i]? = some p) (f : GatewayPeer → GatewayBroker) :
    b.onPeer i f = f p := by
  unfold onPeer
  rw [hp]

theorem getElem?_update (hp : b.peers[i]? = some p) (p' : GatewayPeer) (bytes : Int) :
    (b.update i p' bytes).peers[i]? = some p' :=
  List.getElem?_set_self (List.getElem?_eq_some_iff.mp hp).1

/-- A closed peer still awaits what it awaited. -/
theorem close_awaited (hp : b.peers[i]? = some p) :
    ∃ p', (b.close i p).peers[i]? = some p' ∧ p'.awaited = p.awaited := by
  unfold close
  split
  · exact ⟨p, hp, rfl⟩
  · exact ⟨_, getElem?_update hp _ _, rfl⟩

end

namespace Accounted

variable {b : GatewayBroker} {i : Nat} {p : GatewayPeer}

/-- The end of an awaited task: its refund, and the next one. -/
theorem settle (h : b.Accounted) (hp : b.peers[i]? = some p) {bytes : Nat}
    (hawaited : p.awaited = some bytes) :
    ((b.refund i p bytes).onPeer i fun p' => (b.refund i p bytes).drain i p').Accounted := by
  have hp' := getElem?_update hp
    { p with gatewayBytes := p.gatewayBytes - bytes, gatewayActiveBytes := 0, awaited := none }
    (-bytes)
  change (GatewayBroker.onPeer (b.update i _ _) i _).Accounted
  rw [onPeer_eq hp']
  exact (h.refund hp hawaited).drain hp' rfl

theorem step (h : b.Accounted) (e : GatewayEvent) (hok : b.ok e) : (b.step e).Accounted := by
  cases e with
  | attached => exact h.attach
  | queued i bytes => exact h.onPeer fun p hp => h.queueGatewayTask hp bytes
  | started i =>
      obtain ⟨p, hp, -, hfree⟩ := hok
      refine h.onPeer fun p' hp' => ?_
      obtain rfl := Option.some.inj (hp.symm.trans hp')
      exact h.drain hp hfree
  | settled i failed =>
      refine h.onPeer fun p hp => ?_
      cases hawaited : p.awaited with
      | none => exact h
      | some bytes =>
          -- A task that throws closes the peer before it is refunded.
          cases failed with
          | false =>
              dsimp only
              rw [if_neg Bool.false_ne_true, onPeer_eq hp]
              exact h.settle hp hawaited
          | true =>
              obtain ⟨p', hp', hsame⟩ := close_awaited hp
              dsimp only
              rw [if_pos rfl, onPeer_eq hp']
              exact (h.close hp).settle hp' (hsame.trans hawaited)
  | closed i => exact h.onPeer fun p hp => h.close hp

theorem run {events : List GatewayEvent} {b' : GatewayBroker}
    (hrun : Run GatewayBroker.step ok b events b') (h : b.Accounted) : b'.Accounted :=
  hrun.invariant (fun _ e h hok => h.step e hok) h

theorem new : Accounted {} :=
  ⟨nofun, rfl, by decide⟩

end Accounted

/-! ### Whose bytes the counter holds -/

/-- The bytes of the peers that are connected or whose tasks are still being drained. -/
def liveBytes (b : GatewayBroker) : Int :=
  charged (b.peers.filter fun p => !p.closed || p.gatewayRunning)

theorem charged_filter {peers : List GatewayPeer} (h : ∀ p ∈ peers, p.Accounted) :
    charged (peers.filter fun p => !p.closed || p.gatewayRunning) = charged peers := by
  induction peers with
  | nil => rfl
  | cons p peers ih =>
      have hrest := ih fun q hq => h q (List.mem_cons_of_mem _ hq)
      simp only [charged] at hrest
      cases hlive : !p.closed || p.gatewayRunning with
      | true => simp [charged, hlive, hrest]
      | false =>
          obtain ⟨-, hidle⟩ := Bool.or_eq_false_iff.mp hlive
          have hzero := (h p List.mem_cons_self).eq_zero hidle
          simp [charged, hlive, hrest, hzero]

theorem charged_nonneg {peers : List GatewayPeer} (h : ∀ p ∈ peers, p.Accounted) :
    0 ≤ charged peers := by
  refine List.sum_nonneg fun bytes hbytes => ?_
  obtain ⟨p, hp, rfl⟩ := List.mem_map.mp hbytes
  exact (h p hp).nonneg

/-- **The account of the gateway queues.**  In every run, a peer is charged for what waits and for
the task that is awaited, and the broker for all peers that are connected or still being drained. -/
theorem gateway_accounting {events : List GatewayEvent} {b : GatewayBroker}
    (h : Run step ok {} events b) :
    (∀ p ∈ b.peers,
      p.gatewayBytes = p.gatewayTasks.sum + p.awaited.getD 0 ∧
      0 ≤ p.gatewayActiveBytes ∧ 0 ≤ p.gatewayBytes ∧ p.gatewayBytes ≤ maxPendingOutboundBytes ∧
      p.gatewayTasks.length ≤ 256) ∧
    b.gatewayQueuedBytes = b.liveBytes ∧
    0 ≤ b.gatewayQueuedBytes ∧ b.gatewayQueuedBytes ≤ maxGatewayQueuedBytes := by
  have hb : b.Accounted := .run h .new
  refine ⟨fun p hp => ?_, ?_, ?_, hb.le_max⟩
  · have hpeer := hb.peers p hp
    have hactive : 0 ≤ p.gatewayActiveBytes := by
      rw [hpeer.activeBytes]
      exact Int.natCast_nonneg _
    exact ⟨hpeer.bytes, hactive, hpeer.nonneg, hpeer.le_max, hpeer.few⟩
  · rw [hb.queued]
    exact (charged_filter hb.peers).symm
  · rw [hb.queued]
    exact charged_nonneg hb.peers

/-- Two tasks of a peer, the second dropped when the first throws. -/
def sampleEvents : List GatewayEvent :=
  [.attached, .queued 0 10, .queued 0 20, .started 0, .settled 0 true]

theorem sampleEvents_run : Run step ok {} sampleEvents (sampleEvents.foldl step {}) := by
  refine .cons trivial (.cons trivial (.cons trivial (.cons ⟨_, rfl, rfl, rfl⟩
    (.cons ⟨_, rfl, rfl⟩ (.nil _)))))

theorem gateway_accounting_sample :
    let b := sampleEvents.foldl step {}
    (∀ p ∈ b.peers,
      p.gatewayBytes = p.gatewayTasks.sum + p.awaited.getD 0 ∧
      0 ≤ p.gatewayActiveBytes ∧ 0 ≤ p.gatewayBytes ∧ p.gatewayBytes ≤ maxPendingOutboundBytes ∧
      p.gatewayTasks.length ≤ 256) ∧
    b.gatewayQueuedBytes = b.liveBytes ∧
    0 ≤ b.gatewayQueuedBytes ∧ b.gatewayQueuedBytes ≤ maxGatewayQueuedBytes :=
  gateway_accounting sampleEvents_run

/-- A task that is awaited is charged though it is no longer queued, and after the peer has been
closed the counter still holds it, with no peer connected. -/
theorem awaited_still_charged :
    ∃ b b' : GatewayBroker,
      Run step ok {} [.attached, .queued 0 10, .started 0] b ∧
      Run step ok b [.closed 0] b' ∧
      (∃ p ∈ b.peers, p.closed = false ∧ p.gatewayTasks = [] ∧ p.gatewayBytes = 10) ∧
      b'.gatewayQueuedBytes = 10 ∧ b'.peers.filter (fun p => !p.closed) = [] := by
  refine ⟨_, _, .cons trivial (.cons trivial (.cons ⟨_, rfl, rfl, rfl⟩ (.nil _))),
    .cons trivial (.nil _), ⟨_, List.mem_cons_self, rfl, rfl, rfl⟩, rfl, rfl⟩

end GatewayBroker

end Mqtt

end Connectanum
