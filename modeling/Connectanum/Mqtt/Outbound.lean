import Connectanum.Mqtt.GatewayQueue
import Mathlib.Data.List.Infix

/-!
# Mqtt — Outbound

What a peer of the broker still has to write.

Publications are collected until a microtask hands them over, several in one block; answers are handed
over at once.  What was handed over is written in this order, a block at a time, and what the transport
cannot take waits for a timer.  So an answer may overtake the publications that are being collected,
but publications and answers each keep their order, and none is lost while the peer is open
(`outbound_delivery`).
-/

namespace Connectanum

namespace Mqtt

namespace Outbound

inductive Origin where
  | publication
  /-- CONNACK, SUBACK and PINGRESP. -/
  | answer
  deriving DecidableEq

/-- The bytes of a packet. -/
abbrev Encoded := { bytes : List UInt8 // bytes ≠ [] }

abbrev Packet := Origin × Encoded

/-- What is written at once. -/
abbrev Block := List Packet

def Packet.size (p : Packet) : Nat := p.2.1.length

def size (block : Block) : Nat := (block.map Packet.size).sum

/-- The packets of one origin. -/
def of (o : Origin) (block : Block) : Block := block.filter (·.1 = o)

/-- How a call of `_send` ends: it returns, or throws `sendQueueFull` or something else. -/
inductive Sending where
  | taken
  | sendQueueFull
  | failed

/-! ### Blocks that were handed over -/

/-- What `_Peer` keeps of them. -/
structure Writer where
  pendingOutbound : List Block := []
  pendingOutboundBytes : Int := 0
  /-- The timer runs. -/
  outboundRetry : Bool := false
  /-- The calls of `_send` so far, what they wrote, and what `_sendBytes` was given. -/
  attempts : Nat := 0
  written : Block := []
  sent : Block := []

/-- A function that may call `_close` and then returns. -/
abbrev Closing := Writer × Bool

namespace Writer

variable (send : Nat → Sending) (w : Writer)

def queueOutbound (block : Block) : Closing :=
  if w.pendingOutboundBytes + size block > maxPendingOutboundBytes then (w, true)
  else
    ({ w with
        pendingOutbound := w.pendingOutbound ++ [block]
        pendingOutboundBytes := w.pendingOutboundBytes + size block
        outboundRetry := true }, false)

/-- The loop of `_drainOutbound`, over what is queued. -/
def drainBlocks (w : Writer) : List Block → Closing
  | [] => (w, false)
  | block :: rest =>
      match send w.attempts with
      | .taken =>
          drainBlocks
            { w with
              attempts := w.attempts + 1
              written := w.written ++ block
              pendingOutbound := rest
              pendingOutboundBytes := w.pendingOutboundBytes - size block } rest
      | .sendQueueFull => ({ w with attempts := w.attempts + 1, outboundRetry := true }, false)
      | .failed => ({ w with attempts := w.attempts + 1 }, true)

def drainOutbound : Closing :=
  drainBlocks send { w with outboundRetry := false } w.pendingOutbound

/-- The end of `_sendBytes`. -/
def write (block : Block) : Closing :=
  match send w.attempts with
  | .taken => ({ w with attempts := w.attempts + 1, written := w.written ++ block }, false)
  | .sendQueueFull => queueOutbound { w with attempts := w.attempts + 1 } block
  | .failed => ({ w with attempts := w.attempts + 1 }, true)

def sendBytes (block : Block) : Closing :=
  let w := { w with sent := w.sent ++ block }
  match w.pendingOutbound with
  | [] => w.write send block
  | _ :: _ =>
      match w.drainOutbound send with
      | (w, true) => (w, true)
      | (w, false) =>
          match w.pendingOutbound with
          | [] => w.write send block
          | _ :: _ => w.queueOutbound block

end Writer

/-! ### The peer -/

structure Peer where
  pendingPublishes : Block := []
  pendingPublishChunks : List Block := []
  pendingPublishChunkBytes : Int := 0
  publishOverflowed : Bool := false
  publishFlushScheduled : Bool := false
  /-- The microtask of an overflow, which closes the peer. -/
  closeScheduled : Bool := false
  closed : Bool := false
  writer : Writer := {}
  /-- The packets that `_queuePublish` did not refuse, and those given to `_sendBytes`. -/
  accepted : Block := []

/-- A microtask and the timer run only while they are scheduled.  A peer that is closed has left the
broker, which publishes nothing more to it. -/
inductive Input where
  | publish (encoded : Encoded)
  | answer (encoded : Encoded)
  | flush
  | overflow
  | retry
  /-- `_close`, for whatever reason. -/
  | close

namespace Peer

variable (send : Nat → Sending) (s : Peer)

def close : Peer :=
  if s.closed then s
  else
    { s with
      closed := true
      writer :=
        { s.writer with pendingOutbound := [], pendingOutboundBytes := 0, outboundRetry := false }
      pendingPublishChunks := []
      pendingPublishChunkBytes := 0
      pendingPublishes := [] }

/-- The publications that are collected become a chunk. -/
def takeBytes : Peer :=
  { s with
    pendingPublishes := []
    pendingPublishChunks := s.pendingPublishChunks ++ [s.pendingPublishes]
    pendingPublishChunkBytes := s.pendingPublishChunkBytes + size s.pendingPublishes }

/-- The publication is a chunk of its own if it is large. -/
def collect (packet : Packet) : Peer :=
  if packet.size ≥ 64 * 1024 then
    let s := if s.pendingPublishes = [] then s else s.takeBytes
    { s with
      pendingPublishChunks := s.pendingPublishChunks ++ [[packet]]
      pendingPublishChunkBytes := s.pendingPublishChunkBytes + packet.size }
  else if size s.pendingPublishes + packet.size > 1024 * 1024 then
    { s.takeBytes with pendingPublishes := [packet] }
  else { s with pendingPublishes := s.pendingPublishes ++ [packet] }

def queuePublish (packet : Packet) : Peer :=
  if s.publishOverflowed then s
  else if s.writer.pendingOutboundBytes + s.pendingPublishChunkBytes + size s.pendingPublishes +
      packet.size > maxPendingOutboundBytes then
    { s with publishOverflowed := true, closeScheduled := true }
  else
    { s.collect packet with publishFlushScheduled := true, accepted := s.accepted ++ [packet] }

/-- A function of the writer returns to the peer. -/
def returned (r : Closing) : Peer :=
  if r.2 then close { s with writer := r.1 } else { s with writer := r.1 }

def sendBytes (block : Block) : Peer :=
  if s.closed then s else s.returned (s.writer.sendBytes send block)

/-- The loop over the chunks. -/
def flushChunks (s : Peer) : List Block → Peer
  | [] => s
  | chunk :: rest =>
      if s.closed then s
      else
        flushChunks
          (sendBytes send
            { s with
              pendingPublishChunks := rest
              pendingPublishChunkBytes := s.pendingPublishChunkBytes - size chunk } chunk) rest

/-- The end of the microtask. -/
def flushRest : Peer :=
  if s.closed || s.pendingPublishes.isEmpty then s
  else sendBytes send { s with pendingPublishes := [] } s.pendingPublishes

/-- The microtask that `_queuePublish` schedules. -/
def flush : Peer :=
  let s := { s with publishFlushScheduled := false }
  if s.publishOverflowed then s.close
  else (s.flushChunks send s.pendingPublishChunks).flushRest send

def step : Input → Peer
  | .publish encoded => if s.closed then s else s.queuePublish (.publication, encoded)
  | .answer encoded =>
      if s.closed then s
      else
        sendBytes send { s with accepted := s.accepted ++ [(.answer, encoded)] }
          [(.answer, encoded)]
  | .flush => if s.publishFlushScheduled then s.flush send else s
  | .overflow => if s.closeScheduled then s.close else s
  | .retry => if s.writer.outboundRetry then s.returned (s.writer.drainOutbound send) else s
  | .close => s.close

/-- The publications that were not yet handed over. -/
def waiting : Block := s.pendingPublishChunks.flatten ++ s.pendingPublishes

end Peer

/-! ### The writer -/

theorem size_append (a b : Block) : size (a ++ b) = size a + size b := by
  simp [size]

theorem of_append (o : Origin) (a b : Block) : of o (a ++ b) = of o a ++ of o b :=
  List.filter_append ..

/-- What is queued, and then what is in hand, comes after what was written. -/
structure Writer.Ordered (inHand : Block) (w : Writer) : Prop where
  counted : w.pendingOutboundBytes = size w.pendingOutbound.flatten
  bounded : w.pendingOutboundBytes ≤ maxPendingOutboundBytes
  order : w.written ++ (w.pendingOutbound.flatten ++ inHand) = w.sent

/-- What a function of the writer leaves behind. -/
structure Closing.Keeps (inHand sent : Block) (r : Closing) : Prop where
  sent_eq : r.1.sent = sent
  written : r.1.written <+: sent
  ordered : r.2 = false → r.1.Ordered inHand
  retried : r.2 = false → r.1.pendingOutbound ≠ [] → r.1.outboundRetry = true

namespace Writer

variable {send : Nat → Sending} {w : Writer} {inHand block : Block}

theorem Ordered.written_le (h : w.Ordered inHand) : w.written <+: w.sent :=
  ⟨_, h.order⟩

theorem Ordered.queueOutbound (h : w.Ordered block) :
    (w.queueOutbound block).Keeps [] w.sent := by
  rw [Writer.queueOutbound]
  split
  · exact ⟨rfl, h.written_le, (fun hr => by cases hr), (fun hr => by cases hr)⟩
  · next hroom =>
    refine ⟨rfl, h.written_le, fun _ => ⟨?_, Int.not_lt.mp hroom, ?_⟩, fun _ _ => rfl⟩
    · simp [size_append, h.counted]
    · simpa using h.order

theorem Ordered.write (h : w.Ordered block) (hempty : w.pendingOutbound = []) :
    (w.write send block).Keeps [] w.sent := by
  have horder := h.order
  rw [hempty, List.flatten_nil, List.nil_append] at horder
  rw [Writer.write]
  cases send w.attempts with
  | taken =>
      refine ⟨rfl, ⟨[], by simpa using horder⟩, fun _ => ⟨h.counted, h.bounded, ?_⟩, ?_⟩
      · simpa [hempty] using horder
      · exact fun _ hne => absurd hempty hne
  | sendQueueFull =>
      have hsame : Ordered block { w with attempts := w.attempts + 1 } := { h with }
      exact hsame.queueOutbound
  | failed => exact ⟨rfl, h.written_le, (fun hr => by cases hr), (fun hr => by cases hr)⟩

/-- Induction over the queue: the block at its front is written, or stays there. -/
theorem Ordered.drainBlocks (h : w.Ordered inHand) :
    (Writer.drainBlocks send w w.pendingOutbound).Keeps inHand w.sent := by
  generalize hblocks : w.pendingOutbound = blocks
  induction blocks generalizing w with
  | nil => exact ⟨rfl, h.written_le, fun _ => h, fun _ hne => absurd hblocks hne⟩
  | cons first rest ih =>
      have hcounted := h.counted
      have horder := h.order
      rw [hblocks, List.flatten_cons] at hcounted horder
      rw [size_append] at hcounted
      rw [Writer.drainBlocks]
      cases send w.attempts with
      | taken =>
          refine ih (w := { w with
            attempts := w.attempts + 1
            written := w.written ++ first
            pendingOutbound := rest
            pendingOutboundBytes := w.pendingOutboundBytes - size first }) ⟨?_, ?_, ?_⟩ rfl
          · dsimp only
            rw [hcounted]
            push_cast
            exact add_sub_cancel_left ..
          · exact (Int.sub_le_self _ (Int.natCast_nonneg _)).trans h.bounded
          · simpa using horder
      | sendQueueFull =>
          exact ⟨rfl, h.written_le, fun _ => { h with }, fun _ _ => rfl⟩
      | failed => exact ⟨rfl, h.written_le, (fun hr => by cases hr), (fun hr => by cases hr)⟩

theorem Ordered.drainOutbound (h : w.Ordered inHand) :
    (w.drainOutbound send).Keeps inHand w.sent :=
  Ordered.drainBlocks (w := { w with outboundRetry := false }) { h with }

theorem Ordered.sendBytes (h : w.Ordered []) :
    (w.sendBytes send block).Keeps [] (w.sent ++ block) := by
  have hgiven : Ordered block { w with sent := w.sent ++ block } :=
    ⟨h.counted, h.bounded, by simpa using congrArg (· ++ block) h.order⟩
  rw [Writer.sendBytes]
  dsimp only
  split
  · next hempty => exact hgiven.write hempty
  · have hdrained := @Ordered.drainOutbound send _ _ hgiven
    split
    · next w' hr =>
      rw [hr] at hdrained
      exact ⟨hdrained.sent_eq, hdrained.written, (fun hr => by cases hr), (fun hr => by cases hr)⟩
    · next w' hr =>
      rw [hr] at hdrained
      have hkept := hdrained.ordered rfl
      have hsent : w'.sent = w.sent ++ block := hdrained.sent_eq
      rw [← hsent]
      split
      · next hempty => exact hkept.write hempty
      · exact hkept.queueOutbound

end Writer

/-! ### The peer -/

namespace Peer

variable {send : Nat → Sending} {s : Peer} {inHand block : Block}

/-- A peer that is open: of each origin, what was handed over, what is in hand and what waits is what
was accepted. -/
structure Open (inHand : Block) (s : Peer) : Prop where
  isOpen : s.closed = false
  ordered : s.writer.Ordered []
  retried : s.writer.pendingOutbound ≠ [] → s.writer.outboundRetry = true
  publications : ∀ p ∈ s.waiting, p.1 = .publication
  chunkBytes : s.pendingPublishChunkBytes = size s.pendingPublishChunks.flatten
  accepted : ∀ o, of o (s.writer.sent ++ (inHand ++ s.waiting)) = of o s.accepted

structure Closed (s : Peer) : Prop where
  isClosed : s.closed = true
  noOutbound : s.writer.pendingOutbound = [] ∧ s.writer.pendingOutboundBytes = 0
  noRetry : s.writer.outboundRetry = false
  noChunks : s.pendingPublishChunks = [] ∧ s.pendingPublishChunkBytes = 0
  noPublishes : s.pendingPublishes = []
  written : s.writer.written <+: s.writer.sent
  accepted : ∀ o, of o s.writer.sent <+: of o s.accepted

theorem Open.sent_le (h : s.Open inHand) (o : Origin) :
    of o (s.writer.sent ++ inHand) <+: of o s.accepted := by
  rw [← h.accepted o, ← List.append_assoc, of_append _ (_ ++ _)]
  exact List.prefix_append ..

theorem closed_close (hopen : s.closed = false) (hwritten : s.writer.written <+: s.writer.sent)
    (haccepted : ∀ o, of o s.writer.sent <+: of o s.accepted) : s.close.Closed := by
  rw [close, if_neg (by simp [hopen])]
  exact ⟨rfl, ⟨rfl, rfl⟩, rfl, ⟨rfl, rfl⟩, rfl, hwritten, haccepted⟩

theorem Open.close (h : s.Open inHand) : s.close.Closed :=
  closed_close h.isOpen h.ordered.written_le fun o =>
    (of_append o .. ▸ List.prefix_append ..).trans (h.sent_le o)

/-- The writer returns: the peer was closed, or nothing else of it has changed. -/
theorem Open.returned (h : s.Open inHand) {r : Closing}
    (hr : r.Keeps [] (s.writer.sent ++ inHand)) :
    (s.returned r).Closed ∨
      (s.returned r).Open [] ∧ s.returned r = { s with writer := r.1 } := by
  rw [Peer.returned]
  cases hclosing : r.2 with
  | true =>
      refine .inl (closed_close h.isOpen ?_ fun o => ?_)
      · exact hr.sent_eq ▸ hr.written
      · exact hr.sent_eq ▸ h.sent_le o
  | false =>
      refine .inr ⟨⟨h.isOpen, hr.ordered hclosing, hr.retried hclosing, h.publications,
        h.chunkBytes, fun o => ?_⟩, rfl⟩
      have haccepted := h.accepted o
      rwa [← List.append_assoc, ← hr.sent_eq] at haccepted

theorem Open.sendBytes (h : s.Open block) :
    (s.sendBytes send block).Closed ∨
      (s.sendBytes send block).Open [] ∧ ∃ w, s.sendBytes send block = { s with writer := w } := by
  rw [Peer.sendBytes, if_neg (by simp [h.isOpen])]
  exact (h.returned h.ordered.sendBytes).imp_right fun hr => ⟨hr.1, _, hr.2⟩

/-! ### Publications are collected -/

theorem chunkBytes_takeBytes
    (h : s.pendingPublishChunkBytes = size s.pendingPublishChunks.flatten) :
    s.takeBytes.pendingPublishChunkBytes = size s.takeBytes.pendingPublishChunks.flatten := by
  simp [takeBytes, size_append, h]

/-- A publication is collected behind the others, and nothing else changes. -/
theorem collect_spec (packet : Packet)
    (h : s.pendingPublishChunkBytes = size s.pendingPublishChunks.flatten) :
    (s.collect packet).waiting = s.waiting ++ [packet] ∧
      (s.collect packet).pendingPublishChunkBytes =
        size (s.collect packet).pendingPublishChunks.flatten ∧
      (s.collect packet).writer = s.writer ∧ (s.collect packet).closed = s.closed := by
  have hone (s : Peer) (hs : s.pendingPublishChunkBytes = size s.pendingPublishChunks.flatten) :
      s.pendingPublishChunkBytes + packet.size =
        size (s.pendingPublishChunks ++ [[packet]]).flatten := by
    simp [hs, size]
  rw [collect]
  split
  · by_cases hnone : s.pendingPublishes = []
    · rw [if_pos hnone]
      exact ⟨by simp [waiting, hnone], hone s h, rfl, rfl⟩
    · rw [if_neg hnone]
      exact ⟨by simp [waiting, takeBytes], hone _ (chunkBytes_takeBytes h), rfl, rfl⟩
  · split
    · exact ⟨by simp [waiting, takeBytes], chunkBytes_takeBytes h, rfl, rfl⟩
    · exact ⟨by simp [waiting], h, rfl, rfl⟩

theorem Open.queuePublish (h : s.Open []) (encoded : Encoded) :
    (s.queuePublish (.publication, encoded)).Open [] := by
  rw [Peer.queuePublish]
  split
  · exact h
  · split
    · exact { h with }
    · obtain ⟨hwaiting, hbytes, hwriter, hclosed⟩ := collect_spec (.publication, encoded) h.chunkBytes
      refine ⟨hclosed.trans h.isOpen, hwriter ▸ h.ordered, hwriter ▸ h.retried, fun p hp => ?_,
        hbytes, fun o => ?_⟩
      · have hp' : p ∈ s.waiting ++ [(.publication, encoded)] := hwaiting ▸ hp
        rcases List.mem_append.mp hp' with hp' | hp'
        · exact h.publications p hp'
        · exact congrArg Prod.fst (List.mem_singleton.mp hp')
      · change of o ((s.collect _).writer.sent ++ ([] ++ (s.collect _).waiting)) = _
        rw [hwriter, hwaiting, ← List.append_assoc, ← List.append_assoc, of_append, of_append _ s.accepted,
          ← h.accepted o, List.append_assoc]

/-- An answer comes before the publications that wait. -/
theorem Open.answered (h : s.Open []) (encoded : Encoded) :
    Open [(.answer, encoded)] { s with accepted := s.accepted ++ [(.answer, encoded)] } := by
  refine { h with accepted := fun o => ?_ }
  have haccepted := h.accepted o
  rw [List.nil_append, of_append] at haccepted
  change of o (s.writer.sent ++ ([(.answer, encoded)] ++ s.waiting)) = _
  rw [of_append, of_append, of_append, ← haccepted]
  cases o with
  | publication => simp [of]
  | answer =>
      have hnone : of .answer s.waiting = [] := by
        refine List.filter_eq_nil_iff.mpr fun p hp => ?_
        simp [h.publications p hp]
      rw [hnone, List.append_nil, List.append_nil]

/-! ### The microtask -/

theorem flushChunks_closed (hs : s.Closed) (chunks : List Block) :
    s.flushChunks send chunks = s := by
  cases chunks with
  | nil => rfl
  | cons chunk rest => rw [flushChunks, if_pos hs.isClosed]

/-- Induction over the chunks: each is handed over before the next. -/
theorem Open.flushChunks (h : s.Open []) :
    (s.flushChunks send s.pendingPublishChunks).Closed ∨
      (s.flushChunks send s.pendingPublishChunks).Open [] ∧
        (s.flushChunks send s.pendingPublishChunks).pendingPublishChunks = [] := by
  generalize hchunks : s.pendingPublishChunks = chunks
  induction chunks generalizing s with
  | nil => exact .inr ⟨h, hchunks⟩
  | cons chunk rest ih =>
      rw [Peer.flushChunks, if_neg (by simp [h.isOpen])]
      have hbytes := h.chunkBytes
      rw [hchunks, List.flatten_cons, size_append] at hbytes
      have hwaiting : s.waiting = chunk ++ (rest.flatten ++ s.pendingPublishes) := by
        rw [waiting, hchunks, List.flatten_cons, List.append_assoc]
      have hnext : Open chunk
          { s with
            pendingPublishChunks := rest
            pendingPublishChunkBytes := s.pendingPublishChunkBytes - size chunk } := by
        refine { h with publications := fun p hp => ?_, chunkBytes := ?_, accepted := fun o => ?_ }
        · exact h.publications p (hwaiting ▸ List.mem_append_right _ hp)
        · dsimp only
          rw [hbytes]
          push_cast
          exact add_sub_cancel_left ..
        · have haccepted := h.accepted o
          rwa [List.nil_append, hwaiting] at haccepted
      obtain hclosed | ⟨hopen, w, heq⟩ := @Open.sendBytes send _ _ hnext
      · rw [flushChunks_closed hclosed]
        exact .inl hclosed
      · exact ih hopen (by rw [heq])

theorem Open.flushRest (h : s.Open []) (hchunks : s.pendingPublishChunks = []) :
    (s.flushRest send).Closed ∨ (s.flushRest send).Open [] ∧ (s.flushRest send).waiting = [] := by
  rw [Peer.flushRest]
  split
  · next hnone =>
    rw [h.isOpen, Bool.false_or, List.isEmpty_iff] at hnone
    exact .inr ⟨h, by rw [waiting, hchunks, hnone]; rfl⟩
  · have hrest : Open s.pendingPublishes { s with pendingPublishes := [] } := by
      refine { h with publications := fun p hp => ?_, accepted := fun o => ?_ }
      · rw [waiting, hchunks] at hp
        cases hp
      · have haccepted := h.accepted o
        rw [waiting, hchunks, List.flatten_nil, List.nil_append, List.nil_append] at haccepted
        simpa [waiting, hchunks] using haccepted
    obtain hclosed | ⟨hopen, w, heq⟩ := @Open.sendBytes send _ _ hrest
    · exact .inl hclosed
    · exact .inr ⟨hopen, by rw [heq, waiting, hchunks]; rfl⟩

theorem Open.flush (h : s.Open []) :
    (s.flush send).Closed ∨ (s.flush send).Open [] ∧ (s.flush send).waiting = [] := by
  have hstarted : Open [] { s with publishFlushScheduled := false } := { h with }
  rw [Peer.flush]
  dsimp only
  split
  · exact .inl hstarted.close
  · obtain hclosed | ⟨hopen, hchunks⟩ := @Open.flushChunks send _ hstarted
    · rw [Peer.flushRest, if_pos (by rw [hclosed.isClosed]; rfl)]
      exact .inl hclosed
    · exact hopen.flushRest hchunks

/-! ### Runs -/

/-- Closed, or open with a microtask for what waits. -/
def Sound (s : Peer) : Prop :=
  s.Closed ∨ s.Open [] ∧ (s.waiting ≠ [] → s.publishFlushScheduled = true)

theorem Closed.step (h : s.Closed) (i : Input) : (s.step send i).Closed := by
  have hclose : s.close = s := by rw [close, if_pos h.isClosed]
  cases i with
  | publish encoded => rwa [Peer.step, if_pos h.isClosed]
  | answer encoded => rwa [Peer.step, if_pos h.isClosed]
  | flush =>
      rw [Peer.step]
      split
      · have hsame : Closed { s with publishFlushScheduled := false } := { h with }
        rw [Peer.flush]
        dsimp only
        split
        · rwa [close, if_pos h.isClosed]
        · rw [flushChunks_closed hsame, flushRest, if_pos (by simp [h.isClosed])]
          exact hsame
      · exact h
  | overflow =>
      rw [Peer.step, hclose, ite_self]
      exact h
  | retry => rwa [Peer.step, h.noRetry]
  | close => rwa [Peer.step, hclose]

theorem Sound.step (h : s.Sound) (i : Input) : (s.step send i).Sound := by
  obtain hclosed | ⟨hopen, hscheduled⟩ := h
  · exact .inl (hclosed.step i)
  have hno : ¬s.closed = true := by simp [hopen.isOpen]
  cases i with
  | publish encoded =>
      rw [Peer.step, if_neg hno]
      refine .inr ⟨hopen.queuePublish encoded, ?_⟩
      rw [Peer.queuePublish]
      split
      · exact hscheduled
      · split
        · exact hscheduled
        · exact fun _ => rfl
  | answer encoded =>
      rw [Peer.step, if_neg hno]
      refine (hopen.answered encoded).sendBytes.imp_right fun hr => ⟨hr.1, ?_⟩
      obtain ⟨-, w, heq⟩ := hr
      rw [heq]
      exact hscheduled
  | flush =>
      rw [Peer.step]
      split
      · exact hopen.flush.imp_right fun hr => ⟨hr.1, fun hne => absurd hr.2 hne⟩
      · exact .inr ⟨hopen, hscheduled⟩
  | overflow =>
      rw [Peer.step]
      split
      · exact .inl hopen.close
      · exact .inr ⟨hopen, hscheduled⟩
  | retry =>
      rw [Peer.step]
      split
      · have hkeeps := @Writer.Ordered.drainOutbound send _ _ hopen.ordered
        rw [← List.append_nil s.writer.sent] at hkeeps
        refine (hopen.returned hkeeps).imp_right fun hr => ⟨hr.1, ?_⟩
        rw [hr.2]
        exact hscheduled
      · exact .inr ⟨hopen, hscheduled⟩
  | close => exact .inl hopen.close

theorem sound_run (inputs : List Input) : (inputs.foldl (step send) {}).Sound := by
  refine List.foldlRecOn inputs (motive := Sound) _ ?_ fun s hs i _ => hs.step i
  refine .inr ⟨⟨rfl, ⟨rfl, by decide, rfl⟩, ?_, ?_, rfl, fun o => rfl⟩, ?_⟩
  · exact fun hne => absurd rfl hne
  · exact fun p hp => by cases hp
  · exact fun hne => absurd rfl hne

/-- What was delivered so far, and what is still to be delivered. -/
structure Delivered (s : Peer) : Prop where
  /-- Blocks are written in the order in which they were handed over. -/
  handed : s.writer.written <+: s.writer.sent
  in_order : ∀ o, of o s.writer.written <+: of o s.accepted
  nothing_lost : s.closed = false →
    s.writer.written ++ s.writer.pendingOutbound.flatten = s.writer.sent ∧
      ∀ o, of o (s.writer.sent ++ s.waiting) = of o s.accepted
  all_written : s.closed = false → s.publishFlushScheduled = false →
    s.writer.outboundRetry = false → ∀ o, of o s.writer.written = of o s.accepted
  outboundBytes : s.writer.pendingOutboundBytes = size s.writer.pendingOutbound.flatten
  chunkBytes : s.pendingPublishChunkBytes = size s.pendingPublishChunks.flatten
  bounded : s.writer.pendingOutboundBytes ≤ maxPendingOutboundBytes

theorem Closed.delivered (h : s.Closed) : s.Delivered where
  handed := h.written
  in_order o := (h.written.filter _).trans (h.accepted o)
  nothing_lost hopen := by rw [h.isClosed] at hopen; cases hopen
  all_written hopen := by rw [h.isClosed] at hopen; cases hopen
  outboundBytes := by rw [h.noOutbound.1, h.noOutbound.2]; rfl
  chunkBytes := by rw [h.noChunks.1, h.noChunks.2]; rfl
  bounded := by rw [h.noOutbound.2]; decide

theorem Open.delivered (h : s.Open [])
    (hscheduled : s.waiting ≠ [] → s.publishFlushScheduled = true) : s.Delivered where
  handed := h.ordered.written_le
  in_order o := (h.ordered.written_le.filter _).trans (List.append_nil s.writer.sent ▸ h.sent_le o)
  nothing_lost _ := ⟨by simpa using h.ordered.order, h.accepted⟩
  all_written _ hflush hretry o := by
    have hwaiting : s.waiting = [] := by
      by_contra hne
      rw [hscheduled hne] at hflush
      cases hflush
    have hqueue : s.writer.pendingOutbound = [] := by
      by_contra hne
      rw [h.retried hne] at hretry
      cases hretry
    have horder := h.ordered.order
    rw [hqueue] at horder
    rw [← h.accepted o, hwaiting, ← horder]
    simp
  outboundBytes := h.ordered.counted
  chunkBytes := h.chunkBytes
  bounded := h.ordered.bounded

theorem Sound.delivered (h : s.Sound) : s.Delivered := by
  obtain hclosed | ⟨hopen, hscheduled⟩ := h
  · exact hclosed.delivered
  · exact hopen.delivered hscheduled

/-- **Whatever the transport takes, in every run**: publications and answers are each written in
their order, and while the peer is open, what is not written waits to be. -/
theorem outbound_delivery (send : Nat → Sending) (inputs : List Input) :
    (inputs.foldl (step send) {}).Delivered :=
  (sound_run inputs).delivered

end Peer

end Outbound

end Mqtt

end Connectanum
