import Connectanum.Mqtt.Inbound
import Connectanum.Mqtt.WebSocket

/-!
# Mqtt — Delivery

An MQTT connection: the task that reads it, over TCP or over a WebSocket, and the queue to the
consumer (`Net`).

In every state of every run the polls have returned the bytes received in order and without a gap, a
task that waits has nothing left to flush, and the bytes that wait for a consumer that sleeps have a
wake-up (`inbound_delivered`).
-/

namespace Connectanum

namespace Mqtt

open Machine (Run)
open Wamp (Bytes)

/-! ### The reading task -/

inductive Transport where
  | tcp
  | webSocket (coalesceBursts : Bool)
  deriving DecidableEq, Repr

inductive Task where
  | tcp (received : Bytes) (ended : Bool)
  | webSocket (w : WebSocket)
  deriving Repr

namespace Task

def start : Transport → Task
  | .tcp => .tcp [] false
  | .webSocket coalesceBursts => .webSocket { coalesceBursts }

/-- An event, and the chunks that the task then puts into the queue. -/
def act : Task → Event → Task × List Bytes
  | .tcp received ended, .bytes chunk => (.tcp (received ++ chunk) ended, [chunk])
  | .tcp received _, .eof => (.tcp received true, [])
  | .tcp received ended, _ => (.tcp received ended, [])
  | .webSocket w, e => (.webSocket (w.act e).1, (w.act e).2)

def ok : Task → Event → Prop
  | .tcp _ ended, .bytes chunk => ended = false ∧ chunk ≠ []
  | .tcp _ ended, .eof => ended = false
  | .tcp .., _ => False
  | .webSocket w, e => w.ok e

instance : (t : Task) → (e : Event) → Decidable (t.ok e)
  | .tcp _ ended, .bytes chunk => inferInstanceAs (Decidable (ended = false ∧ chunk ≠ []))
  | .tcp _ ended, .eof => inferInstanceAs (Decidable (ended = false))
  | .tcp .., .notReady => inferInstanceAs (Decidable False)
  | .tcp .., .frame _ => inferInstanceAs (Decidable False)
  | .webSocket w, e => inferInstanceAs (Decidable (w.ok e))

/-- What the task has received for the consumer: every byte, or the payloads of the complete binary
messages. -/
def content : Task → Bytes
  | .tcp received _ => received
  | .webSocket w => w.content

/-- What the task has not flushed. -/
def pending : Task → Bytes
  | .tcp .. => []
  | .webSocket w => w.pending

/-- The task waits for input. -/
def Waits : Task → Prop
  | .tcp _ ended => ended = false
  | .webSocket w => w.Waits

/-- `emitted`: what the task has put into the queue, or is about to. -/
def Kept : Task → Bytes → Prop
  | .tcp received _, emitted => emitted = received
  | .webSocket w, emitted => w.Kept emitted

variable {t : Task} {emitted : Bytes}

theorem kept_start (transport : Transport) : (start transport).Kept [] := by
  cases transport with
  | tcp => rfl
  | webSocket coalesceBursts => exact WebSocket.kept_new coalesceBursts

theorem Kept.within (h : t.Kept emitted) : emitted <+: t.content := by
  cases t with
  | tcp received ended => exact ⟨[], by rw [List.append_nil]; exact h⟩
  | webSocket w => exact (List.prefix_append _ _).trans (WebSocket.Kept.within h)

theorem Kept.pending_of_waits (h : t.Kept emitted) (hwaits : t.Waits) : t.pending = [] := by
  cases t with
  | tcp received ended => rfl
  | webSocket w => exact WebSocket.Kept.pending_of_waits h hwaits

theorem Kept.act (h : t.Kept emitted) (e : Event) (hok : t.ok e) :
    (t.act e).1.Kept (emitted ++ (t.act e).2.flatten) := by
  cases t with
  | tcp received ended =>
      obtain rfl : emitted = received := h
      cases e with
      | bytes chunk => exact congrArg (emitted ++ ·) (List.append_nil chunk)
      | eof => exact List.append_nil emitted
      | notReady => exact hok.elim
      | frame accepted => exact hok.elim
  | webSocket w => exact WebSocket.Kept.act h e hok

end Task

/-! ### The connection -/

structure Net where
  inbound : Inbound := {}
  task : Task
  /-- The chunks that the task has still to put into the queue before it goes on. -/
  outbox : List Bytes := []
  deriving Repr

namespace Net

inductive Input where
  | task (e : Event)
  | inbound (i : Inbound.Input)
  deriving DecidableEq, Repr

def step (n : Net) : Input → Net
  | .task e => { n with task := (n.task.act e).1, outbox := (n.task.act e).2 }
  | .inbound i =>
      { n with
        inbound := n.inbound.step i
        outbox :=
          match i with
          | .send _ => n.outbox.tail
          | .drop => []
          | _ => n.outbox }

/-- The task is done with what it has put into the queue, and was not aborted. -/
def Free (n : Net) : Prop :=
  n.inbound.connected = true ∧ n.inbound.sending = .idle ∧ n.outbox = []

instance (n : Net) : Decidable n.Free :=
  inferInstanceAs (Decidable (n.inbound.connected = true ∧ n.inbound.sending = .idle ∧
    n.outbox = []))

def ok (n : Net) : Input → Prop
  | .task e => n.Free ∧ n.task.ok e
  | .inbound (.send bytes) => n.inbound.ok (.send bytes) ∧ n.outbox.head? = some bytes
  | .inbound i => n.inbound.ok i

instance (n : Net) : (i : Input) → Decidable (n.ok i)
  | .task e => inferInstanceAs (Decidable (n.Free ∧ n.task.ok e))
  | .inbound (.send bytes) =>
      inferInstanceAs (Decidable (n.inbound.ok (.send bytes) ∧ n.outbox.head? = some bytes))
  | .inbound .swap => inferInstanceAs (Decidable (n.inbound.ok .swap))
  | .inbound .notify => inferInstanceAs (Decidable (n.inbound.ok .notify))
  | .inbound .drop => inferInstanceAs (Decidable (n.inbound.ok .drop))
  | .inbound (.begin m) => inferInstanceAs (Decidable (n.inbound.ok (.begin m)))
  | .inbound .advance => inferInstanceAs (Decidable (n.inbound.ok .advance))
  | .inbound (.setWakeup callback) =>
      inferInstanceAs (Decidable (n.inbound.ok (.setWakeup callback)))
  | .inbound .wake => inferInstanceAs (Decidable (n.inbound.ok .wake))

theorem ok_inbound {n : Net} {i : Inbound.Input} (h : n.ok (.inbound i)) : n.inbound.ok i := by
  cases i with
  | send bytes => exact h.1
  | _ => exact h

def start (transport : Transport) : Net := { task := .start transport }

structure Sound (n : Net) : Prop where
  inbound : n.inbound.Sound
  kept : n.inbound.connected = true → n.task.Kept (n.inbound.handed ++ n.outbox.flatten)
  within : n.inbound.handed <+: n.task.content

theorem sound_start (transport : Transport) : Sound (start transport) where
  inbound := Inbound.sound_start
  kept _ := Task.kept_start transport
  within := List.nil_prefix

variable {n : Net}

/-- What the task has put into the queue, it has received. -/
theorem within_of_kept {t : Task} {handed : Bytes} {outbox : List Bytes}
    (h : t.Kept (handed ++ outbox.flatten)) : handed <+: t.content :=
  (List.prefix_append _ _).trans h.within

/-- What only the queue and the consumer change. -/
theorem Sound.frame (h : n.Sound) {i : Inbound.Input} (hok : n.inbound.ok i)
    (hsend : ∀ bytes, i ≠ .send bytes) (hdrop : i ≠ .drop) :
    Sound { n with inbound := n.inbound.step i } := by
  obtain ⟨hhanded, hconnected⟩ := h.inbound.frame hok hsend hdrop
  refine ⟨h.inbound.step i hok, ?_, ?_⟩
  · dsimp only
    rw [hhanded, hconnected]
    exact h.kept
  · dsimp only
    rw [hhanded]
    exact h.within

protected theorem Sound.step (h : n.Sound) (i : Input) (hok : n.ok i) : (n.step i).Sound := by
  cases i with
  | task e =>
      obtain ⟨⟨hconnected, -, houtbox⟩, hok⟩ := hok
      have hkept := h.kept hconnected
      rw [houtbox, List.flatten_nil, List.append_nil] at hkept
      have hkept' := hkept.act e hok
      exact ⟨h.inbound, fun _ => hkept', within_of_kept hkept'⟩
  | inbound i =>
      have hinbound := h.inbound.step i (ok_inbound hok)
      cases i with
      | send bytes =>
          obtain ⟨⟨hconnected, -⟩, hhead⟩ := hok
          obtain ⟨rest, hrest⟩ := List.head?_eq_some_iff.mp hhead
          have hkept := h.kept hconnected
          rw [hrest, List.flatten_cons, ← List.append_assoc] at hkept
          refine ⟨hinbound, fun _ => ?_, within_of_kept hkept⟩
          change n.task.Kept (n.inbound.handed ++ bytes ++ n.outbox.tail.flatten)
          rw [hrest]
          exact hkept
      | drop => exact ⟨hinbound, fun hconnected => (nomatch hconnected), h.within⟩
      | swap => exact h.frame hok (by simp) (by simp)
      | notify => exact h.frame hok (by simp) (by simp)
      | begin maxBytes => exact h.frame hok (by simp) (by simp)
      | advance => exact h.frame hok (by simp) (by simp)
      | setWakeup callback => exact h.frame hok (by simp) (by simp)
      | wake => exact h.frame hok (by simp) (by simp)

/-- The task waits for input, and for nothing else. -/
def Waits (n : Net) : Prop := n.Free ∧ n.task.Waits

structure Delivered (n : Net) : Prop where
  in_order : n.inbound.polled.flatten <+: n.task.content
  /-- A poll that returns nothing has left nothing. -/
  emptied : n.inbound.poll ≠ .idle → n.inbound.advance.2 = some none →
    n.inbound.polled.flatten = n.inbound.handed
  flushed : n.Waits → n.task.pending = []
  /-- `settle`: the task has dealt with the chunk that it has put into the queue. -/
  woken : n.inbound.Asleep → n.inbound.waiting ≠ [] → 0 < n.inbound.settle.wakeups

theorem inbound_delivered {transport : Transport} {inputs : List Input}
    (h : Run step ok (start transport) inputs n) : n.Delivered := by
  have hsound : n.Sound := h.invariant (fun _ i hs hok => hs.step i hok) (sound_start transport)
  refine ⟨hsound.inbound.polled_le.trans hsound.within, hsound.inbound.polled_eq, ?_,
    hsound.inbound.woken⟩
  rintro ⟨⟨hconnected, -⟩, hwaits⟩
  exact (hsound.kept hconnected).pending_of_waits hwaits

/-- A burst of two messages of one byte, and the first byte of a third frame: the task tries twice,
flushes, and then waits.  The consumer is woken and polls one byte at a time. -/
def burst : List Input :=
  [.inbound (.setWakeup true), .inbound (.begin 1), .inbound .advance, .inbound .advance,
    .inbound .advance,
    .task (.bytes [0x82, 0x81, 0, 0, 0, 0, 7, 0x82, 0x81, 1, 0, 0, 0, 9, 0x82]),
    .task (.frame true), .task (.frame true), .task .notReady, .task .notReady,
    .inbound (.send [7, 8]), .inbound .swap, .inbound .notify,
    .inbound .wake, .inbound (.begin 1), .inbound .advance, .inbound (.begin 1), .inbound .advance,
    .inbound .advance, .inbound (.begin 1), .inbound .advance, .inbound .advance]

theorem inbound_delivered_burst :
    (burst.foldl step (start (.webSocket true))).inbound.polled = [[7], [8]] ∧
      (burst.foldl step (start (.webSocket true))).Delivered :=
  ⟨by decide +kernel, inbound_delivered (Run.of_admitted (by decide +kernel))⟩

end Net

end Mqtt

end Connectanum
