import Connectanum.Mqtt.Delivery
import Connectanum.Mqtt.Framing
import Connectanum.Mqtt.Outbound

/-!
# Mqtt — Stream

The frames of a client on their way to the broker: encoded and written one after the other, received
over TCP or in the messages of a WebSocket, queued, polled and decoded.  In whatever pieces they
travel, the decoder gives the first of them, and all of them once the connection has come to rest
(`sent_frames_decoded`).  So do the packets that the broker writes to a client
(`written_packets_decoded`).
-/

namespace Connectanum

namespace Mqtt

open Machine (Run)
open Streams (Splitter feed)
open Wamp (Bytes)

/-! ### A task that waits -/

/-- A task that waits has put everything into the queue that it received for the consumer. -/
theorem Task.Kept.eq_of_waits {t : Task} {emitted : Bytes} (h : t.Kept emitted)
    (hwaits : t.Waits) : emitted = t.content := by
  have hpending := h.pending_of_waits hwaits
  cases t with
  | tcp received ended => exact h
  | webSocket w =>
      obtain ⟨hreading, hnone⟩ := hwaits
      have hsteady := WebSocket.Kept.steady h (by rw [hreading]; simp)
      have hrest : (frames.drain w.input).1 = [] :=
        congrArg Prod.fst (Streams.Cutter.drain_of_none (c := frames) hnone)
      have haccounts := hsteady.accounts []
      change w.pending = [] at hpending
      rw [List.append_nil, List.append_nil, hpending, hrest, List.append_nil] at haccounts
      have hnothing : payloads w.accumulator.begun [] = [] := by
        cases w.accumulator.begun <;> rfl
      rw [hnothing, List.append_nil] at haccounts
      exact haccounts.symm

/-! ### Frames that were encoded -/

/-- `encoded` are the bytes of the frames `sent`, none of which is too long. -/
def Encodes (maxPacketSize : Nat) (sent : List MqttFrame) (encoded : List Bytes) : Prop :=
  List.Forall₂ (fun f bytes => f.encode maxPacketSize = .ok bytes) sent encoded

theorem Encodes.drain {maxPacketSize : Nat} {sent : List MqttFrame} {encoded : List Bytes}
    (h : Encodes maxPacketSize sent encoded) :
    (packets maxPacketSize).drain encoded.flatten = (sent, .ok []) := by
  have hcut := h.imp fun _ _ hf => fun t => packet_encode hf t
  have hdrain := Splitter.drain_flatten (c := packets maxPacketSize) hcut []
  have hend : (packets maxPacketSize).drain [] = ([], .ok []) := Splitter.drain_of_none rfl
  rwa [hend, List.append_nil, List.append_nil] at hdrain

/-- The decoder gives the frames that came in whole, in whatever pieces. -/
theorem Encodes.feed (d : MqttFrameDecoder) {sent : List MqttFrame} {encoded parts : List Bytes}
    (h : Encodes d.maxPacketSize sent encoded) (hparts : parts.flatten <+: encoded.flatten) :
    ∃ frames d', feed MqttFrameDecoder.accept d.fresh parts = (frames, .ok d') ∧
      frames <+: sent ∧
      (parts.flatten = encoded.flatten → frames = sent ∧ d'.bufferedBytes = 0) := by
  obtain ⟨frames, tail, hdrain, hframes⟩ := Splitter.drain_of_prefix hparts h.drain
  obtain ⟨d', hfeed, hholds⟩ := (MqttFrameDecoder.follows d).feed_ok
    (MqttFrameDecoder.Reads.fresh d) parts hdrain
  refine ⟨frames, d', hfeed, hframes, fun hall => ?_⟩
  rw [hall, h.drain] at hdrain
  obtain ⟨rfl, htail⟩ := Prod.mk.inj hdrain
  obtain rfl := Except.ok.inj htail
  exact ⟨rfl, hholds.holds.bufferedBytes.1⟩

theorem encode_of_empty {f : MqttFrame} (hf : f.body = []) :
    f.encode 16 = .ok [(UInt8.ofNat f.type.wireValue <<< 4) ||| f.flags, 0] := by
  rw [MqttFrame.encode, encodeMqttVariableByteInteger, hf, if_neg (by decide),
    variableByteInteger_of_lt (by decide)]
  rfl

/-! ### From the client to the broker -/

/-- The connection has come to rest: the task waits, and a poll has just found nothing. -/
structure Net.AtRest (n : Net) : Prop where
  waits : n.Waits
  polling : n.inbound.poll ≠ .idle
  nothing : n.inbound.advance.2 = some none

/-- What the polls have returned is the beginning of what came in, and all of it at rest. -/
theorem Net.Sound.polled {n : Net} (h : n.Sound) :
    n.inbound.polled.flatten <+: n.task.content ∧
      (n.AtRest → n.inbound.polled.flatten = n.task.content) := by
  refine ⟨h.inbound.polled_le.trans h.within, fun hrest => ?_⟩
  obtain ⟨⟨hconnected, -, houtbox⟩, hwaits⟩ := hrest.waits
  have hkept := h.kept hconnected
  rw [houtbox, List.flatten_nil, List.append_nil] at hkept
  exact (h.inbound.polled_eq hrest.polling hrest.nothing).trans (hkept.eq_of_waits hwaits)

/-- **The frames that a client sends.**  In every run, while what came in is the beginning of what the
client has written, the decoder gives the first of its frames, in order and each as it was; and at
rest, with everything come in, it has given all of them and holds nothing. -/
theorem sent_frames_decoded (d : MqttFrameDecoder) {transport : Transport}
    {inputs : List Net.Input} {n : Net} {sent : List MqttFrame} {encoded : List Bytes}
    (hrun : Run Net.step Net.ok (Net.start transport) inputs n)
    (hencodes : Encodes d.maxPacketSize sent encoded)
    (hcontent : n.task.content <+: encoded.flatten) :
    ∃ frames d', feed MqttFrameDecoder.accept d.fresh n.inbound.polled = (frames, .ok d') ∧
      frames <+: sent ∧
      (n.AtRest → n.task.content = encoded.flatten → frames = sent ∧ d'.bufferedBytes = 0) := by
  have hsound : n.Sound :=
    hrun.invariant (fun _ i hs hok => hs.step i hok) (Net.sound_start transport)
  obtain ⟨hpolled, hrest⟩ := hsound.polled
  obtain ⟨frames, d', hfeed, hframes, hall⟩ := hencodes.feed d (hpolled.trans hcontent)
  exact ⟨frames, d', hfeed, hframes, fun hatRest hwhole => hall ((hrest hatRest).trans hwhole)⟩

/-- A PINGREQ of two bytes, polled one byte at a time, and a poll that finds nothing. -/
def pingInputs : List Net.Input :=
  [.task (.bytes [0xC0, 0x00]), .inbound (.send [0xC0, 0x00]), .inbound .swap, .inbound .notify,
    .inbound (.begin 1), .inbound .advance, .inbound (.begin 1), .inbound .advance,
    .inbound .advance, .inbound (.begin 1), .inbound .advance, .inbound .advance]

theorem sent_frames_decoded_ping :
    let n := pingInputs.foldl Net.step (Net.start .tcp)
    let d : MqttFrameDecoder := { maxPacketSize := 16, two_le := by decide, le_wire := by decide }
    n.AtRest ∧ ∃ frames d', feed MqttFrameDecoder.accept d.fresh n.inbound.polled =
        (frames, .ok d') ∧ frames <+: [⟨.pingreq, 0, rfl, []⟩] ∧
      (n.AtRest → n.task.content = [[0xC0, 0x00]].flatten →
        frames = [⟨.pingreq, 0, rfl, []⟩] ∧ d'.bufferedBytes = 0) := by
  exact ⟨⟨⟨by decide, rfl⟩, by decide, by decide⟩, sent_frames_decoded _
    (Run.of_admitted (by decide)) (.cons (encode_of_empty rfl) .nil) (List.prefix_refl _)⟩

/-! ### From the broker to a client -/

/-- **The packets that a client receives.**  In every run of a peer, in whatever pieces the bytes that
were written come in, the decoder gives the first of the packets written, those of each origin in
the order in which they were accepted; and when nothing waits to be written, with all that was
written come in, it has given all that were accepted and holds nothing. -/
theorem written_packets_decoded (d : MqttFrameDecoder) {send : Nat → Outbound.Sending}
    {inputs : List Outbound.Input} {s : Outbound.Peer}
    (hrun : s = inputs.foldl (Outbound.Peer.step send) {})
    {frame : Outbound.Packet → MqttFrame} {parts : List Bytes}
    (hframe : ∀ p ∈ s.accepted, (frame p).encode d.maxPacketSize = .ok p.2.1)
    (hparts : parts.flatten <+: (s.writer.written.map (·.2.1)).flatten) :
    ∃ packets d', feed MqttFrameDecoder.accept d.fresh parts = (packets.map frame, .ok d') ∧
      packets <+: s.writer.written ∧ (∀ o, Outbound.of o packets <+: Outbound.of o s.accepted) ∧
      (s.closed = false → s.publishFlushScheduled = false → s.writer.outboundRetry = false →
        parts.flatten = (s.writer.written.map (·.2.1)).flatten →
        d'.bufferedBytes = 0 ∧ ∀ o, Outbound.of o packets = Outbound.of o s.accepted) := by
  have hdelivered : s.Delivered := hrun ▸ (Outbound.Peer.sound_run inputs).delivered
  have haccepted : ∀ p ∈ s.writer.written, p ∈ s.accepted := fun p hp =>
    List.mem_of_mem_filter ((hdelivered.in_order p.1).subset
      (List.mem_filter.mpr ⟨hp, decide_eq_true rfl⟩))
  have hencodes : Encodes d.maxPacketSize (s.writer.written.map frame)
      (s.writer.written.map (·.2.1)) := by
    rw [Encodes, List.forall₂_map_left_iff, List.forall₂_map_right_iff, List.forall₂_same]
    exact fun p hp => hframe p (haccepted p hp)
  obtain ⟨frames, d', hfeed, hframes, hall⟩ := hencodes.feed d hparts
  obtain ⟨packets, hpackets, rfl⟩ := List.prefix_map_iff.mp hframes
  refine ⟨packets, d', hfeed, hpackets, fun o => ?_, fun hopen hflush hretry hwhole => ?_⟩
  · exact (hpackets.filter _).trans (hdelivered.in_order o)
  · obtain ⟨hsame, hheld⟩ := hall hwhole
    have hlength := congrArg List.length hsame
    rw [List.length_map, List.length_map] at hlength
    rw [hpackets.eq_of_length hlength]
    exact ⟨hheld, hdelivered.all_written hopen hflush hretry⟩

/-- A peer that has answered a PINGREQ. -/
def pongPeer : Outbound.Peer :=
  [.answer ⟨[0xD0, 0x00], by simp⟩].foldl (Outbound.Peer.step fun _ => .taken) {}

theorem written_packets_decoded_pong :
    let d : MqttFrameDecoder := { maxPacketSize := 16, two_le := by decide, le_wire := by decide }
    ∃ packets d', feed MqttFrameDecoder.accept d.fresh [[0xD0], [0x00]] =
        (packets.map fun _ => ⟨.pingresp, 0, rfl, []⟩, .ok d') ∧
      packets <+: pongPeer.writer.written ∧
      (∀ o, Outbound.of o packets <+: Outbound.of o pongPeer.accepted) ∧
      (pongPeer.closed = false → pongPeer.publishFlushScheduled = false →
        pongPeer.writer.outboundRetry = false →
        [[0xD0], [0x00]].flatten = (pongPeer.writer.written.map (·.2.1)).flatten →
        d'.bufferedBytes = 0 ∧ ∀ o, Outbound.of o packets = Outbound.of o pongPeer.accepted) := by
  refine written_packets_decoded _ (s := pongPeer) rfl (fun p hp => ?_) ⟨[], rfl⟩
  obtain rfl := List.mem_singleton.mp hp
  exact encode_of_empty rfl

end Mqtt

end Connectanum
