import Connectanum.Client.Chunks
import Connectanum.Wire.FrameHeaders

/-!
# Wire — SentFrames

What comes of the frames that a peer sends to the Dart client, from the bytes to the session.

`deliver` says what the frames are for: the messages go to the session, and a ping is answered with
its payload.  `sent_frames_received`: the client does that, in whatever chunks the bytes come in.
-/

namespace Connectanum

namespace RawSocket

open Wamp (Bytes)
open Streams (Cutter)

structure SentFrame where
  frameType : FrameType
  payload : Bytes

def SentFrame.bytes (upgraded : Bool) (f : SentFrame) : Bytes :=
  plainHeader f.frameType f.payload.length upgraded ++ f.payload

/-- What the peer writes for the frame, when both sides read its header as it was meant. -/
def Peer.Writes (peer : Peer) (exponent : Nat) (upgraded : Bool) (f : SentFrame)
    (written : Bytes) : Prop :=
  Readable exponent f.payload.length upgraded ∧
    ∃ header, peer.sends exponent f.frameType f.payload.length upgraded = some header ∧
      written = header ++ f.payload

/-- The messages that the session gets of the frames, and the pongs that go out.  A message that the
serializer or the profile does not take ends the connection, and so does a ping that is too long for
a pong. -/
def deliver {σ μ : Type} (codec : Codec σ μ) (upgraded : Bool) :
    σ → List SentFrame → List μ × List SentFrame
  | _, [] => ([], [])
  | profile, ⟨.message, payload⟩ :: rest =>
      match codec.accept profile payload with
      | none => ([], [])
      | some (message, profile') =>
          (message :: (deliver codec upgraded profile' rest).1,
            (deliver codec upgraded profile' rest).2)
  | profile, ⟨.ping, payload⟩ :: rest =>
      match getPong payload.length upgraded with
      | none => ([], [])
      | some _ =>
          ((deliver codec upgraded profile rest).1,
            ⟨.pong, payload⟩ :: (deliver codec upgraded profile rest).2)
  | profile, ⟨.pong, _⟩ :: rest => deliver codec upgraded profile rest

variable {peer : Peer} {exponent : Nat} {upgraded : Bool} {f : SentFrame} {sent : List SentFrame}
  {written : List Bytes}

theorem Peer.Writes.fits {bytes : Bytes} (h : peer.Writes exponent upgraded f bytes) :
    Fits f.payload.length upgraded ∧ bytes = f.bytes upgraded := by
  obtain ⟨hreadable, header, hsends, rfl⟩ := h
  obtain ⟨hfits, rfl⟩ | ⟨hwidth, hlength, -⟩ := sends_cases hsends
  · exact ⟨hfits, rfl⟩
  · exact absurd hlength (hreadable.2 hwidth)

/-- The header of the frame has a known type, and announces the payload. -/
theorem header_bytes (hfits : Fits f.payload.length upgraded) (rest : Bytes) :
    isValidMessage (f.bytes upgraded ++ rest) = true ∧
      getPayloadLength (f.bytes upgraded ++ rest) (headerWidth upgraded) = f.payload.length := by
  rw [SentFrame.bytes, List.append_assoc]
  refine ⟨?_, (getPayloadLength_plain hfits _).2⟩
  obtain ⟨frameType, payload⟩ := f
  cases frameType <;> rfl

theorem length_bytes : (f.bytes upgraded).length = headerWidth upgraded + f.payload.length := by
  rw [SentFrame.bytes, List.length_append, length_plainHeader]

namespace SocketTransport

variable {σ μ : Type} {codec : Codec σ μ} {t : SocketTransport σ} {limit : Nat}

/-- The frame is the first one that is cut, whatever follows. -/
theorem cut_bytes (hfits : Fits f.payload.length t.isUpgradedProtocol) (rest : Bytes) :
    t.cutter.cut (f.bytes t.isUpgradedProtocol ++ rest) =
      some (f.bytes t.isUpgradedProtocol, rest) := by
  have hheader : getPayloadLength (f.bytes t.isUpgradedProtocol ++ rest) t.headerLength =
      f.payload.length := (header_bytes hfits rest).2
  have hlength : (f.bytes t.isUpgradedProtocol).length = t.headerLength + f.payload.length :=
    length_bytes
  refine cut_eq_some.mpr ⟨?_, ?_, ?_, ?_⟩
  · rw [List.length_append]
    omega
  · rw [hheader, List.length_append]
    omega
  · rw [hheader, ← hlength, List.take_left]
  · rw [hheader, ← hlength, List.drop_left]

theorem framed_written
    (h : List.Forall₂ (peer.Writes exponent t.isUpgradedProtocol) sent written) :
    Framed t.headerLength (2 ^ exponent) t.headerLength_pos written.flatten := by
  induction h with
  | nil => exact framed_nil
  | cons hwrites _ ih =>
      obtain ⟨hfits, rfl⟩ := hwrites.fits
      have hheader := header_bytes hfits []
      rw [List.append_nil] at hheader
      refine framed_of_cut (cut_bytes hfits _) ⟨hheader.1, ?_⟩ ih
      exact Nat.le_trans (Nat.le_of_eq hheader.2) hwrites.1.1

theorem fits_written (h : List.Forall₂ (peer.Writes exponent upgraded) sent written) :
    ∀ f ∈ sent, Fits f.payload.length upgraded := by
  induction h with
  | nil => intro f hf; cases hf
  | cons hwrites _ ih => exact List.forall_mem_cons.mpr ⟨hwrites.fits.1, ih⟩

theorem getPong_some {length : Nat} {pong : Bytes} (hfits : Fits length upgraded)
    (h : getPong length upgraded = some pong) :
    pong = plainHeader .pong length upgraded := by
  obtain ⟨-, hheader⟩ | ⟨rfl, rfl, -⟩ := @buildMessageHeader_cases length .pong upgraded pong h
  · exact hheader
  · exact absurd (show 2 ^ 24 < 256 ^ 3 from hfits) (by decide)

/-- A ping is answered with a header and, when there is one, the payload. -/
theorem handlePing_some (ht : t.Ready limit) {payload pong : Bytes}
    (h : getPong payload.length t.isUpgradedProtocol = some pong) :
    ∃ t', t.handlePing payload = some t' ∧ t'.Ready limit ∧
      t'.profile = t.profile ∧ t'.isUpgradedProtocol = t.isUpgradedProtocol ∧
      t'.sent.flatten = t.sent.flatten ++ (pong ++ payload) := by
  rw [handlePing, h]
  simp only [Option.bind_eq_bind, Option.bind_some, send0, ht.socket, if_true]
  split
  · next hnil =>
      refine ⟨_, rfl, ⟨ht.1, ht.2, rfl, ht.4⟩, rfl, rfl, ?_⟩
      simp [hnil]
  · refine ⟨_, rfl, ⟨ht.1, ht.2, rfl, ht.4⟩, rfl, rfl, ?_⟩
    simp

/-- What the transport does with the frames is what they are for. -/
theorem handleFrames_bytes (codec : Codec σ μ) (ht : t.Ready limit)
    (hup : t.isUpgradedProtocol = upgraded) (hfits : ∀ f ∈ sent, Fits f.payload.length upgraded) :
    (handleFrames codec t (sent.map (·.bytes upgraded))).1 =
        (deliver codec upgraded t.profile sent).1 ∧
      (handleFrames codec t (sent.map (·.bytes upgraded))).2.sent.flatten =
        t.sent.flatten ++ ((deliver codec upgraded t.profile sent).2.map (·.bytes upgraded)).flatten
    := by
  induction sent generalizing t with
  | nil => exact ⟨rfl, (List.append_nil _).symm⟩
  | cons f sent ih =>
      have hlast := fun f hf => hfits f (List.mem_cons_of_mem _ hf)
      have hfirst := hfits f List.mem_cons_self
      obtain ⟨frameType, payload⟩ := f
      have hpayload : ((⟨frameType, payload⟩ : SentFrame).bytes upgraded).drop t.headerLength =
          payload := by
        rw [← hup]
        exact List.drop_left' length_plainHeader
      have htype : ((⟨frameType, payload⟩ : SentFrame).bytes upgraded).getD 0 0 = frameType.byte :=
        rfl
      rw [List.map_cons, handleFrames, handleFrame, hpayload, htype]
      cases frameType with
      | message =>
          rw [if_pos (show FrameType.message.byte = messageWamp from rfl), deliver]
          cases codec.accept t.profile payload with
          | none => exact ⟨rfl, (List.append_nil _).symm⟩
          | some r =>
              obtain ⟨message, profile⟩ := r
              dsimp only
              split
              · have hlater := ih (t := { t with profile, goodbyeReceived := true })
                  ⟨ht.1, ht.2, ht.3, ht.4⟩ hup hlast
                exact ⟨congrArg (message :: ·) hlater.1, hlater.2⟩
              · have hlater := ih (t := { t with profile }) ⟨ht.1, ht.2, ht.3, ht.4⟩ hup hlast
                exact ⟨congrArg (message :: ·) hlater.1, hlater.2⟩
      | ping =>
          rw [if_neg (show FrameType.ping.byte ≠ messageWamp by decide),
            if_pos (show FrameType.ping.byte = messagePing from rfl), deliver]
          subst hup
          cases hpong : getPong payload.length t.isUpgradedProtocol with
          | none =>
              rw [handlePing, hpong]
              exact ⟨rfl, (List.append_nil _).symm⟩
          | some pong =>
              obtain rfl := getPong_some hfirst hpong
              obtain ⟨t', hping, hready, hprofile, hup, hsent⟩ := handlePing_some ht hpong
              rw [hping, ← hprofile]
              obtain ⟨hmessages, hall⟩ := ih hready hup hlast
              refine ⟨hmessages, ?_⟩
              rw [hall, hsent, List.map_cons, List.flatten_cons, List.append_assoc]
              rfl
      | pong =>
          rw [if_neg (show FrameType.pong.byte ≠ messageWamp by decide),
            if_neg (show FrameType.pong.byte ≠ messagePing by decide),
            if_pos (show FrameType.pong.byte = messagePong from rfl), deliver]
          dsimp only
          split
          · refine ih (t := { t with ping := some (some payload) }) ?_ hup hlast
            exact ⟨ht.1, ht.2, ht.3, ht.4⟩
          · exact ih ht hup hlast

/-- Of the frames that were written, the first `n` have come in whole and are delivered, and the
transport waits with the start of the next one. -/
structure Delivered (codec : Codec σ μ) (t : SocketTransport σ) (sent : List SentFrame)
    (written chunks : List Bytes) (n : Nat) (rest : Bytes) : Prop where
  whole : chunks.flatten = (written.take n).flatten ++ rest
  waits : ∀ w, written[n]? = some w → rest.length < w.length
  threw : (receiveAll codec t chunks).threw = false
  messages : (receiveAll codec t chunks).messages =
    (deliver codec t.isUpgradedProtocol t.profile (sent.take n)).1
  answers : (receiveAll codec t chunks).transport.sent.flatten =
    t.sent.flatten ++ ((deliver codec t.isUpgradedProtocol t.profile (sent.take n)).2.map
      (·.bytes t.isUpgradedProtocol)).flatten

/-- **From the bytes to the session.**  Of the frames that a peer has sent, those that have come in
whole are delivered, in whatever chunks, and every ping among them is answered with its payload. -/
theorem sent_frames_received (codec : Codec σ μ) (ht : t.Ready (2 ^ exponent))
    (hbuffer : t.inboundBuffer = []) (hframe : t.inboundFrame = none)
    (hwritten : List.Forall₂ (peer.Writes exponent t.isUpgradedProtocol) sent written)
    {chunks : List Bytes} (hchunks : chunks.flatten <+: written.flatten) :
    ∃ n rest, Delivered codec t sent written chunks n rest := by
  have hframed : Framed t.headerLength (2 ^ exponent) t.headerLength_pos chunks.flatten := by
    obtain ⟨more, hmore⟩ := hchunks
    exact (hmore ▸ framed_written hwritten : Framed _ _ _ (chunks.flatten ++ more)).left
  have hall := follows_receiveAll codec ht hbuffer hframe hframed
  have hcut : List.Forall₂ (fun b w => ∀ rest, t.cutter.cut (w ++ rest) = some (b, rest))
      (sent.map (·.bytes t.isUpgradedProtocol)) written := by
    rw [List.forall₂_map_left_iff]
    refine hwritten.imp fun f w hw rest => ?_
    obtain ⟨hfits, rfl⟩ := hw.fits
    exact cut_bytes hfits rest
  obtain ⟨n, hunits, hleft, hnext⟩ := Cutter.drain_of_written hcut hchunks
  have hfits : ∀ f ∈ sent.take n, Fits f.payload.length t.isUpgradedProtocol :=
    fun f hf => fits_written hwritten f (List.mem_of_mem_take hf)
  rw [← List.map_take] at hunits
  obtain ⟨hmessages, hsent⟩ := handleFrames_bytes codec ht rfl hfits
  refine ⟨n, _, hleft, hnext, hall.threw, ?_, ?_⟩
  · rw [hall.messages, hunits, hmessages]
  · have hsame := congrArg (·.sent.flatten) hall.after.same
    rw [hunits] at hsame
    exact hsame.trans hsent

/-- A ping and a message of the native core, cut inside of both. -/
theorem sent_frames_received_ping :
    ∃ n rest, Delivered plainCodec negotiated [⟨.ping, [5]⟩, ⟨.message, [7]⟩]
      [[1, 0, 0, 1, 5], [0, 0, 0, 1, 7]] [[1, 0, 0], [1, 5, 0, 0]] n rest := by
  have hping : Peer.native.Writes 9 false ⟨.ping, [5]⟩ [1, 0, 0, 1, 5] :=
    ⟨⟨by decide, fun _ => by decide⟩, _, rfl, rfl⟩
  have hmessage : Peer.native.Writes 9 false ⟨.message, [7]⟩ [0, 0, 0, 1, 7] :=
    ⟨⟨by decide, fun _ => by decide⟩, _, rfl, rfl⟩
  exact sent_frames_received plainCodec ⟨rfl, rfl, rfl, rfl⟩ rfl rfl
    (.cons hping (.cons hmessage .nil)) ⟨[0, 1, 7], rfl⟩

end SocketTransport

end RawSocket

end Connectanum
