import Connectanum.Client.SocketTransport

/-!
# Wire — FrameHeaders

The headers of RawSocket frames, as the two transports write and read them: the Dart client
(`SocketHelper`) and the native core (`encode_frame_header`, `read_inbound_frame`).

A header has three bytes for the length, or four on an upgraded connection.  The length 2^24 does
not fit into three: the native core sets a bit of the first byte for it, the Dart client does not.

`headers_agree_iff`: which of the headers that a peer sends are read by both as they were meant.
-/

namespace Connectanum

namespace RawSocket

open Wamp (Bytes)

def getMessageType (message : Bytes) : UInt8 := message.getD 0 0

/-- `_checkOutgoingPayloadLength`: the payload may go out. -/
def checkOutgoingPayloadLength (maxMessageLength : Option Nat) (length : Nat) : Bool :=
  maxMessageLength.any fun limit => decide (length ≤ limit)

/-! ### The native core -/

/-- `MAX_FRAME_LEN`. -/
def maxFrameLen : Nat := 2 ^ 24

inductive FrameReadError where
  | io
  | protocol (reason : String)
  deriving DecidableEq

inductive NativeInboundFrame where
  | message (payload : Bytes)
  | ping (payload : Bytes)
  | pong (payload : Bytes)
  deriving DecidableEq

namespace NativeInboundFrame

def payload : NativeInboundFrame → Bytes
  | message payload | ping payload | pong payload => payload

end NativeInboundFrame

structure EncodedFrameHeader where
  bytes : Bytes
  len : Nat

def EncodedFrameHeader.asBytes (h : EncodedFrameHeader) : Bytes := h.bytes.take h.len

def encodeFrameHeader (frameType : UInt8) (payloadLen : Nat) (upgradedProtocol : Bool) :
    Except FrameReadError EncodedFrameHeader :=
  if 0x07 < frameType then .error (.protocol s!"invalid frame type {frameType}")
  else if upgradedProtocol then
    if 2 ^ 32 - 1 < payloadLen then
      .error (.protocol s!"payload length {payloadLen} exceeds supported maximum {2 ^ 32 - 1}")
    else .ok ⟨(frameType &&& 0x07) :: BigEndian.write 4 payloadLen, 5⟩
  else if maxFrameLen < payloadLen then
    .error (.protocol s!"payload length {payloadLen} exceeds supported maximum {maxFrameLen}")
  else if payloadLen = maxFrameLen then .ok ⟨[(frameType &&& 0x07) ||| 0x08, 0, 0, 0, 0], 4⟩
  else .ok ⟨(frameType &&& 0x07) :: BigEndian.write 3 payloadLen ++ [0], 4⟩

/-- The first half of `read_inbound_frame`: the type and the length, and the bytes after them. -/
def readFrameHeader (stream : Bytes) (upgradedProtocol : Bool) :
    Except FrameReadError (UInt8 × Nat × Bytes) :=
  if upgradedProtocol then
    match stream with
    | first :: b₁ :: b₂ :: b₃ :: b₄ :: rest =>
        if first &&& ~~~0x07 ≠ 0 then .error (.protocol "reserved bits must be zero")
        else .ok (first &&& 0x07, BigEndian.read [b₁, b₂, b₃, b₄], rest)
    | _ => .error .io
  else
    match stream with
    | first :: b₁ :: b₂ :: b₃ :: rest =>
        let length := BigEndian.read [b₁, b₂, b₃]
        if first >>> 4 ≠ 0 then .error (.protocol "reserved bits must be zero")
        else if (first >>> 3) &&& 0x01 = 1 then
          if length ≠ 0 then
            .error (.protocol "extended length bit set with non-zero length bytes")
          else .ok (first &&& 0x07, 2 ^ 24, rest)
        else .ok (first &&& 0x07, length, rest)
    | _ => .error .io

/-- `read_inbound_frame`, with what it leaves of the stream. -/
def readInboundFrame (stream : Bytes) (maxPayload : Nat) (upgradedProtocol : Bool) :
    Except FrameReadError (NativeInboundFrame × Bytes) :=
  match readFrameHeader stream upgradedProtocol with
  | .error error => .error error
  | .ok (frameType, length, rest) =>
      if maxPayload < length then
        .error (.protocol s!"frame length {length} exceeds negotiated maximum {maxPayload}")
      else if !upgradedProtocol && decide (maxFrameLen < length) then
        .error (.protocol s!"frame length {length} exceeds supported maximum {maxFrameLen}")
      else if rest.length < length then .error .io
      else
        let payload := rest.take length
        if frameType = 0 then .ok (.message payload, rest.drop length)
        else if frameType = 1 then .ok (.ping payload, rest.drop length)
        else if frameType = 2 then .ok (.pong payload, rest.drop length)
        else .error (.protocol s!"unsupported frame type {frameType}")

/-! ### What a peer sends -/

inductive FrameType where
  | message
  | ping
  | pong
  deriving DecidableEq

def FrameType.byte : FrameType → UInt8
  | message => messageWamp
  | ping => messagePing
  | pong => messagePong

def FrameType.frame (payload : Bytes) : FrameType → NativeInboundFrame
  | message => .message payload
  | ping => .ping payload
  | pong => .pong payload

inductive Peer where
  | dart
  | native
  deriving DecidableEq

/-- The header that a peer sends for a payload that its own checks let out. -/
def Peer.sends (exponent : Nat) (frameType : FrameType) (length : Nat) (upgraded : Bool) :
    Peer → Option Bytes
  | dart =>
      if checkOutgoingPayloadLength (some (2 ^ exponent)) length then
        buildMessageHeader frameType.byte length upgraded
      else none
  | native =>
      match encodeFrameHeader frameType.byte length upgraded with
      | .ok header => some header.asBytes
      | .error _ => none

def headerWidth (upgraded : Bool) : Nat := if upgraded then 5 else 4

/-- Both readers get the type and the length from the header, whatever comes after it. -/
def ReadByBoth (header : Bytes) (exponent : Nat) (frameType : FrameType) (length : Nat)
    (upgraded : Bool) : Prop :=
  (∀ payload rest : Bytes, payload.length = length →
    readInboundFrame (header ++ payload ++ rest) (2 ^ exponent) upgraded =
      .ok (frameType.frame payload, rest)) ∧
  ∀ rest, getMessageType (header ++ rest) = frameType.byte ∧
    getPayloadLength (header ++ rest) (headerWidth upgraded) = length

/-! ### Reading a header -/

variable {exponent length maxPayload : Nat} {frameType : FrameType} {upgraded : Bool}
  {header stream rest : Bytes}

theorem FrameType.byte_masked (frameType : FrameType) :
    frameType.byte &&& 0x07 = frameType.byte ∧ frameType.byte &&& ~~~0x07 = 0 ∧
      frameType.byte >>> 4 = 0 ∧ (frameType.byte >>> 3) &&& 0x01 ≠ 1 := by
  cases frameType <;> decide

/-- The plain header: the type, and the length in the bytes that there are for it. -/
def plainHeader (frameType : FrameType) (length : Nat) (upgraded : Bool) : Bytes :=
  frameType.byte :: BigEndian.write (if upgraded then 4 else 3) length

theorem length_plainHeader :
    (plainHeader frameType length upgraded).length = headerWidth upgraded := by
  cases upgraded <;> rfl

/-- The length fits into a plain header. -/
def Fits (length : Nat) (upgraded : Bool) : Prop := length < 256 ^ (if upgraded then 4 else 3)

theorem fits_zero : Fits 0 upgraded := Nat.pos_of_ne_zero (by cases upgraded <;> decide)

theorem readFrameHeader_plain (hfits : Fits length upgraded) (rest : Bytes) :
    readFrameHeader (plainHeader frameType length upgraded ++ rest) upgraded =
      .ok (frameType.byte, length, rest) := by
  obtain ⟨hmask, hreserved, hhigh, hlong⟩ := frameType.byte_masked
  have hread := BigEndian.read_write hfits
  cases upgraded with
  | true =>
      have hbytes : ∃ b₁ b₂ b₃ b₄, BigEndian.write 4 length = [b₁, b₂, b₃, b₄] := ⟨_, _, _, _, rfl⟩
      obtain ⟨b₁, b₂, b₃, b₄, hwrite⟩ := hbytes
      change BigEndian.read (BigEndian.write 4 length) = length at hread
      rw [hwrite] at hread
      change readFrameHeader (frameType.byte :: (BigEndian.write 4 length ++ rest)) true = _
      rw [hwrite]
      simp [readFrameHeader, hmask, hreserved, hread]
  | false =>
      have hbytes : ∃ b₁ b₂ b₃, BigEndian.write 3 length = [b₁, b₂, b₃] := ⟨_, _, _, rfl⟩
      obtain ⟨b₁, b₂, b₃, hwrite⟩ := hbytes
      change BigEndian.read (BigEndian.write 3 length) = length at hread
      rw [hwrite] at hread
      change readFrameHeader (frameType.byte :: (BigEndian.write 3 length ++ rest)) false = _
      rw [hwrite]
      simp [readFrameHeader, hmask, hhigh, hlong, hread]

/-- The native core takes a frame with a plain header whose length is within the limit. -/
theorem readInboundFrame_plain (hfits : Fits length upgraded) (hmax : length ≤ maxPayload)
    (payload rest : Bytes) (hlength : payload.length = length) :
    readInboundFrame (plainHeader frameType length upgraded ++ payload ++ rest) maxPayload
      upgraded = .ok (frameType.frame payload, rest) := by
  have hsupported : ¬ (!upgraded && decide (maxFrameLen < length)) = true := by
    cases upgraded with
    | true => simp
    | false =>
        have hlt : length < maxFrameLen := hfits
        simp [Nat.lt_asymm hlt]
  have hrest : ¬ (payload ++ rest).length < length := by
    rw [List.length_append]
    omega
  rw [List.append_assoc, readInboundFrame, readFrameHeader_plain hfits]
  dsimp only
  rw [if_neg (Nat.not_lt.mpr hmax), if_neg hsupported, if_neg hrest, ← hlength,
    List.take_left, List.drop_left]
  cases frameType <;> rfl

/-- The Dart client reads a plain header. -/
theorem getPayloadLength_plain (hfits : Fits length upgraded) (rest : Bytes) :
    getMessageType (plainHeader frameType length upgraded ++ rest) = frameType.byte ∧
      getPayloadLength (plainHeader frameType length upgraded ++ rest) (headerWidth upgraded) =
        length := by
  refine ⟨rfl, ?_⟩
  have hwidth : headerWidth upgraded - 1 = (if upgraded then 4 else 3) := by
    cases upgraded <;> rfl
  rw [getPayloadLength, if_pos (by rw [List.length_append, length_plainHeader]; omega), hwidth]
  change BigEndian.read ((BigEndian.write _ length ++ rest).take _) = length
  rw [List.take_left' (BigEndian.length_write _ _)]
  exact BigEndian.read_write hfits

theorem readByBoth_plain (hfits : Fits length upgraded) (hmax : length ≤ 2 ^ exponent) :
    ReadByBoth (plainHeader frameType length upgraded) exponent frameType length upgraded :=
  ⟨fun payload rest hlength => readInboundFrame_plain hfits hmax payload rest hlength,
    getPayloadLength_plain hfits⟩

/-! ### Writing a header -/

theorem buildMessageHeader_cases
    (h : buildMessageHeader frameType.byte length upgraded = some header) :
    (Fits length upgraded ∧ header = plainHeader frameType length upgraded) ∨
      (upgraded = false ∧ length = 2 ^ 24 ∧ header = [frameType.byte, 0, 0, 0]) := by
  cases upgraded with
  | true =>
      rw [buildMessageHeader, if_pos rfl] at h
      split at h
      · cases h
      · next hle =>
        refine .inl ⟨?_, (Option.some.inj h).symm⟩
        exact Nat.lt_of_le_of_lt (Nat.not_lt.mp hle) (by decide)
  | false =>
      rw [buildMessageHeader, if_neg Bool.false_ne_true] at h
      split at h
      · cases h
      · next hle =>
        rcases Nat.lt_or_eq_of_le (Nat.not_lt.mp hle) with hlt | rfl
        · exact .inl ⟨hlt, (Option.some.inj h).symm⟩
        · exact .inr ⟨rfl, rfl, (Option.some.inj h).symm⟩

theorem encodeFrameHeader_cases {encoded : EncodedFrameHeader}
    (h : encodeFrameHeader frameType.byte length upgraded = .ok encoded) :
    (Fits length upgraded ∧ encoded.asBytes = plainHeader frameType length upgraded) ∨
      (upgraded = false ∧ length = 2 ^ 24 ∧
        encoded.asBytes = [frameType.byte ||| 0x08, 0, 0, 0]) := by
  have htype : ¬ 0x07 < frameType.byte := by cases frameType <;> decide
  rw [encodeFrameHeader, if_neg htype, frameType.byte_masked.1] at h
  cases upgraded with
  | true =>
      rw [if_pos rfl] at h
      split at h
      · cases h
      · next hle =>
        cases h
        exact .inl ⟨Nat.lt_of_le_of_lt (Nat.not_lt.mp hle) (by decide), rfl⟩
  | false =>
      rw [if_neg Bool.false_ne_true] at h
      split at h
      · cases h
      · next hle =>
        split at h
        · next heq =>
          cases h
          exact .inr ⟨rfl, heq, rfl⟩
        · next hne =>
          cases h
          exact .inl ⟨Nat.lt_of_le_of_ne (Nat.not_lt.mp hle) hne, rfl⟩

/-- What a peer sends: a plain header, or for the length that does not fit one of its own. -/
theorem sends_cases {peer : Peer} (h : peer.sends exponent frameType length upgraded = some header) :
    (Fits length upgraded ∧ header = plainHeader frameType length upgraded) ∨
      (upgraded = false ∧ length = 2 ^ 24 ∧
        ((length ≤ 2 ^ exponent ∧ header = [frameType.byte, 0, 0, 0]) ∨
          header = [frameType.byte ||| 0x08, 0, 0, 0])) := by
  cases peer with
  | dart =>
      rw [Peer.sends] at h
      split at h
      · next hchecked =>
        rcases buildMessageHeader_cases h with hplain | ⟨hwidth, hlength, hheader⟩
        · exact .inl hplain
        · exact .inr ⟨hwidth, hlength, .inl ⟨of_decide_eq_true hchecked, hheader⟩⟩
      · cases h
  | native =>
      rw [Peer.sends] at h
      split at h
      · next encoded hencoded =>
        rw [← Option.some.inj h]
        rcases encodeFrameHeader_cases hencoded with hplain | ⟨hwidth, hlength, hheader⟩
        · exact .inl hplain
        · exact .inr ⟨hwidth, hlength, .inr hheader⟩
      · cases h

/-- The native core takes no payload above the limit. -/
theorem payload_le_of_readInboundFrame {frame : NativeInboundFrame}
    (h : readInboundFrame stream maxPayload upgraded = .ok (frame, rest)) :
    frame.payload.length ≤ maxPayload := by
  unfold readInboundFrame at h
  split at h
  · cases h
  · next frameType length tail _ =>
    split at h
    · cases h
    next hmax =>
    split at h
    · cases h
    split at h
    · cases h
    next hlen =>
    have hpayload : (tail.take length).length ≤ maxPayload := by
      rw [List.length_take]
      omega
    dsimp only at h
    split at h
    · cases h
      exact hpayload
    split at h
    · cases h
      exact hpayload
    split at h
    · cases h
      exact hpayload
    · cases h

/-- A plain header whose length is above the limit is a violation of the protocol. -/
theorem readInboundFrame_above (h : readFrameHeader stream upgraded = .ok (b, length, rest))
    (hmax : maxPayload < length) :
    ∃ reason, readInboundFrame stream maxPayload upgraded = .error (.protocol reason) := by
  unfold readInboundFrame
  rw [h]
  dsimp only
  rw [if_pos hmax]
  exact ⟨_, rfl⟩

/-! ### What the Dart client refuses -/

/-- The transport waits for a frame, under the limit `2^exponent`. -/
structure Ready {σ : Type} (t : SocketTransport σ) (exponent : Nat) (upgraded : Bool) : Prop where
  socket : t.socket = true
  negotiated : t.handshake ≠ .pending
  buffer : t.inboundBuffer = []
  limit : t.messageLength = some (2 ^ exponent)
  width : t.headerLength = headerWidth upgraded

/-- The transport answers with an error and hands nothing on. -/
def Refuses {σ μ : Type} (codec : Codec σ μ) (t : SocketTransport σ)
    (data : Bytes) : Prop :=
  ∃ code t', t.consumeFresh codec data = some ([], t') ∧ t'.sent = t.sent ++ [getError code]

theorem sendProtocolError_sent {σ : Type} {t : SocketTransport σ} (h : t.socket = true)
    (code : Nat) :
    ∃ t', t.sendProtocolError code = some t' ∧ t'.sent = t.sent ++ [getError code] := by
  refine ⟨({ t with goodbyeSent := true, sent := t.sent ++ [getError code] } :
    SocketTransport σ).close, ?_, rfl⟩
  simp [SocketTransport.sendProtocolError, SocketTransport.send0, h]

/-- A type that there is not, or a length above the limit. -/
theorem refuses_of {σ μ : Type} {codec : Codec σ μ} {t : SocketTransport σ}
    {data : Bytes} (h : Ready t exponent upgraded) (hlen : headerWidth upgraded ≤ data.length)
    (hbad : isValidMessage data = false ∨
      2 ^ exponent < getPayloadLength data (headerWidth upgraded)) : Refuses codec t data := by
  let t₀ : SocketTransport σ := { t with inboundBuffer := [] }
  have hwidth : t₀.headerLength = headerWidth upgraded := h.width
  have hlimit : t₀.messageLength = some (2 ^ exponent) := h.limit
  have hne : data ≠ [] := by
    rintro rfl
    cases upgraded <;> exact absurd hlen (by decide)
  have hmerge : t.mergeInboundChunk data = (data, t₀) := by
    rw [SocketTransport.mergeInboundChunk, h.buffer, List.nil_append]
  have hnegotiation : t₀.consumeNegotiation data = some (data, t₀) := by
    rw [SocketTransport.consumeNegotiation, if_pos h.negotiated]
  unfold Refuses SocketTransport.consumeFresh
  simp only [hmerge, hnegotiation, Option.bind_eq_bind, Option.bind_some, hwidth, if_neg hne,
    if_neg (Nat.not_lt.mpr hlen)]
  cases hvalid : isValidMessage data with
  | false =>
      refine ⟨errorUseOfReservedBits, { t₀ with sent := t.sent ++ [getError _] }, ?_, rfl⟩
      simp [SocketTransport.send0, t₀, h.socket]
  | true =>
      have habove := hbad.resolve_left (by rw [hvalid]; decide)
      obtain ⟨t', hsend, hsent⟩ := sendProtocolError_sent (t := t₀) h.socket
        errorMessageLengthExceeded
      refine ⟨errorMessageLengthExceeded, t', ?_, hsent⟩
      simp [hlimit, habove, hsend]

/-! ### The headers that are read as they were meant -/

/-- The length is within the limit, and it fits into the header. -/
def Readable (exponent length : Nat) (upgraded : Bool) : Prop :=
  length ≤ 2 ^ exponent ∧ (upgraded = false → length ≠ 2 ^ 24)

/-- A header is read by both as it was meant exactly where the length is readable. -/
theorem readByBoth_iff {peer : Peer}
    (h : peer.sends exponent frameType length upgraded = some header) :
    ReadByBoth header exponent frameType length upgraded ↔ Readable exponent length upgraded := by
  constructor
  · rintro ⟨hnative, hdart⟩
    obtain ⟨payload, hlength⟩ : ∃ payload : Bytes, payload.length = length :=
      ⟨List.replicate length 0, List.length_replicate ..⟩
    have hframe := hnative payload [] hlength
    have hpayload : ∀ payload, (frameType.frame payload).payload = payload := by
      cases frameType <;> exact fun _ => rfl
    refine ⟨?_, ?_⟩
    · have hle := payload_le_of_readInboundFrame hframe
      rwa [hpayload, hlength] at hle
    rintro rfl rfl
    rcases sends_cases h with ⟨hfits, -⟩ | ⟨-, -, ⟨-, rfl⟩ | rfl⟩
    · exact absurd (show 2 ^ 24 < 256 ^ 3 from hfits) (by decide)
    · -- The native core takes the header for the one of an empty payload.
      have hempty : readInboundFrame (plainHeader frameType 0 false ++ [] ++ (payload ++ []))
          (2 ^ exponent) false = .ok (frameType.frame [], payload ++ []) :=
        readInboundFrame_plain fits_zero (Nat.zero_le _) [] _ rfl
      have hsame := Except.ok.inj (hempty.symm.trans hframe)
      have hnil := congrArg (fun r => r.1.payload) hsame
      simp only [hpayload] at hnil
      rw [← hnil] at hlength
      cases hlength
    · -- The Dart client takes the bit for a part of the type.
      have htype := (hdart []).1
      cases frameType <;> exact absurd htype (by decide)
  · rintro ⟨hle, hfit⟩
    rcases sends_cases h with ⟨hfits, rfl⟩ | ⟨hwidth, hlength, -⟩
    · exact readByBoth_plain hfits hle
    · exact absurd hlength (hfit hwidth)

/-- The native core takes the bit for the length that does not fit. -/
theorem readFrameHeader_extended (rest : Bytes) :
    readFrameHeader ([frameType.byte ||| 0x08, 0, 0, 0] ++ rest) false =
      .ok (frameType.byte, 2 ^ 24, rest) := by
  have hbits : (frameType.byte ||| 0x08) >>> 4 = 0 ∧
      ((frameType.byte ||| 0x08) >>> 3) &&& 0x01 = 1 ∧
      (frameType.byte ||| 0x08) &&& 0x07 = frameType.byte := by
    cases frameType <;> decide
  obtain ⟨hhigh, hlong, hmask⟩ := hbits
  have hlength : BigEndian.read [0, 0, 0] = 0 := rfl
  simp [readFrameHeader, hhigh, hlong, hmask, hlength]

/-- What is sent above the limit is refused by both. -/
theorem refused_above {peer : Peer}
    (h : peer.sends exponent frameType length upgraded = some header)
    (habove : 2 ^ exponent < length) (rest : Bytes) :
    (∃ reason, readInboundFrame (header ++ rest) (2 ^ exponent) upgraded =
        .error (.protocol reason)) ∧
      ∀ {σ μ : Type} (codec : Codec σ μ) (t : SocketTransport σ), Ready t exponent upgraded →
        Refuses codec t (header ++ rest) := by
  rcases sends_cases h with ⟨hfits, rfl⟩ | ⟨rfl, rfl, ⟨hle, -⟩ | rfl⟩
  · refine ⟨readInboundFrame_above (readFrameHeader_plain hfits rest) habove, ?_⟩
    intro σ μ codec t hready
    refine refuses_of hready ?_ (.inr ?_)
    · rw [List.length_append, length_plainHeader]
      exact Nat.le_add_right _ _
    · rw [(getPayloadLength_plain hfits rest).2]
      exact habove
  · exact absurd habove (Nat.not_lt.mpr hle)
  · refine ⟨readInboundFrame_above (readFrameHeader_extended rest) habove, ?_⟩
    intro σ μ codec t hready
    refine refuses_of hready ?_ (.inl ?_)
    · exact Nat.le_add_left 4 rest.length
    · cases frameType <;> rfl

/-- The two transports agree about the headers that a peer sends for one length, and refuse every
length above the limit. -/
structure Agree (peer : Peer) (exponent : Nat) (frameType : FrameType) (length : Nat)
    (upgraded : Bool) : Prop where
  read : ∀ header, peer.sends exponent frameType length upgraded = some header →
    ReadByBoth header exponent frameType length upgraded
  nativeRefuses : ∀ stream frame rest,
    readInboundFrame stream (2 ^ exponent) upgraded = .ok (frame, rest) →
    frame.payload.length ≤ 2 ^ exponent
  dartRefuses : ∀ {σ μ : Type} (codec : Codec σ μ) (t : SocketTransport σ) (data : Bytes),
    Ready t exponent upgraded → headerWidth upgraded ≤ data.length →
    2 ^ exponent < getPayloadLength data (headerWidth upgraded) → Refuses codec t data
  refusedAbove : ∀ header, peer.sends exponent frameType length upgraded = some header →
    2 ^ exponent < length → ∀ rest,
    (∃ reason, readInboundFrame (header ++ rest) (2 ^ exponent) upgraded =
        .error (.protocol reason)) ∧
      ∀ {σ μ : Type} (codec : Codec σ μ) (t : SocketTransport σ), Ready t exponent upgraded →
        Refuses codec t (header ++ rest)

/-- **Frame headers**: the transports agree about what a peer lets out exactly where the length is
within the limit and is not the one that three bytes cannot hold. -/
theorem headers_agree_iff (peer : Peer) (exponent : Nat) (frameType : FrameType) (length : Nat)
    (upgraded : Bool) :
    Agree peer exponent frameType length upgraded ↔
      ((peer.sends exponent frameType length upgraded).isSome →
        Readable exponent length upgraded) := by
  constructor
  · intro h hsome
    obtain ⟨header, hsends⟩ := Option.isSome_iff_exists.mp hsome
    exact (readByBoth_iff hsends).mp (h.read header hsends)
  · intro h
    exact {
      read := fun header hsends =>
        (readByBoth_iff hsends).mpr (h (Option.isSome_iff_exists.mpr ⟨header, hsends⟩))
      nativeRefuses := fun _ _ _ hread => payload_le_of_readInboundFrame hread
      dartRefuses := fun _ _ _ hready hlen habove => refuses_of hready hlen (.inr habove)
      refusedAbove := fun _ hsends habove rest => refused_above hsends habove rest }

/-- A message of 2^24 bytes under the exponent 24: the Dart client sends the header of an empty
one, and the native core reads the message as further frames. -/
theorem dart_limit_read_as_empty :
    Peer.dart.sends 24 .message (2 ^ 24) false = some [0, 0, 0, 0] ∧
      (∀ payload, readInboundFrame ([0, 0, 0, 0] ++ payload) (2 ^ 24) false =
        .ok (.message [], payload)) ∧
      ¬ ReadByBoth [0, 0, 0, 0] 24 .message (2 ^ 24) false := by
  have hsends : Peer.dart.sends 24 .message (2 ^ 24) false = some [0, 0, 0, 0] := by
    decide +kernel
  refine ⟨hsends, ?_, ?_⟩
  · intro payload
    have hheader : plainHeader .message 0 false = [0, 0, 0, 0] := rfl
    have hread : readInboundFrame (plainHeader .message 0 false ++ [] ++ payload) (2 ^ 24) false =
        .ok (FrameType.message.frame [], payload) :=
      readInboundFrame_plain fits_zero (Nat.zero_le _) [] payload rfl
    rw [hheader, List.append_nil] at hread
    exact hread
  · intro hread
    exact ((readByBoth_iff hsends).mp hread).2 rfl rfl

end RawSocket

end Connectanum
