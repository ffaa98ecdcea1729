import Connectanum.Native.Frame

/-!
# Mqtt — FrameCodec

`MqttFrameDecoder`: control packets cut out of bytes that arrive in chunks.

Between two chunks the decoder keeps the first byte of the packet being read, its remaining length as
far as the length bytes have come, and the part of the body that has arrived, in a buffer that grows.
-/

namespace Connectanum

namespace Mqtt

open Wamp (Bytes)

/-- The fifteen MQTT control packet kinds, in their wire-number order. -/
inductive MqttPacketType where
  | connect
  | connack
  | publish
  | puback
  | pubrec
  | pubrel
  | pubcomp
  | subscribe
  | suback
  | unsubscribe
  | unsuback
  | pingreq
  | pingresp
  | disconnect
  | auth
  deriving DecidableEq, Repr

def MqttPacketType.values : List MqttPacketType :=
  [.connect, .connack, .publish, .puback, .pubrec, .pubrel, .pubcomp, .subscribe, .suback,
    .unsubscribe, .unsuback, .pingreq, .pingresp, .disconnect, .auth]

def MqttPacketType.wireValue (type : MqttPacketType) : Nat := values.idxOf type + 1

def validateFlags (type : MqttPacketType) (flags : UInt8) : Except String Unit :=
  if flags > 0x0F then .error "invalid fixed-header flags"
  else if type = .publish then
    let qos := (flags >>> 1) &&& 0x03
    if qos = 3 ∨ (qos = 0 ∧ flags &&& 0x08 ≠ 0) then .error "invalid PUBLISH QoS or DUP flags"
    else .ok ()
  else
    let expected := if type = .pubrel ∨ type = .subscribe ∨ type = .unsubscribe then 2 else 0
    if flags ≠ expected then .error "invalid reserved fixed-header flags" else .ok ()

/-- The kind that a first byte names. -/
def packetType (first : UInt8) : Option MqttPacketType :=
  let code := (first >>> 4).toNat
  if code < 1 ∨ code > MqttPacketType.values.length then none
  else MqttPacketType.values[code - 1]?

/-- A complete MQTT packet: what its fixed header says, and its unparsed variable header and
payload. -/
structure MqttFrame where
  type : MqttPacketType
  flags : UInt8
  flags_valid : validateFlags type flags = .ok ()
  body : Bytes

/-- A first byte that has passed the checks. -/
structure FixedHeader where
  first : UInt8
  type : MqttPacketType
  type_eq : packetType first = some type
  flags_valid : validateFlags type (first &&& 0x0F) = .ok ()

namespace FixedHeader

def read (first : UInt8) : Except String FixedHeader :=
  match ht : packetType first with
  | none => .error "invalid MQTT control packet type"
  | some type =>
      match hf : validateFlags type (first &&& 0x0F) with
      | .error message => .error message
      | .ok () => .ok ⟨first, type, ht, hf⟩

/-- `MqttFrame._owned`. -/
def frame (h : FixedHeader) (body : Bytes) : MqttFrame where
  type := h.type
  flags := h.first &&& 0x0F
  flags_valid := h.flags_valid
  body := body

theorem read_first (h : FixedHeader) : read h.first = .ok h := by
  obtain ⟨first, type, ht, hf⟩ := h
  dsimp only [read]
  split
  · next hn =>
    rw [ht] at hn
    cases hn
  · next type' ht' =>
    obtain rfl := Option.some.inj (ht'.symm.trans ht)
    split
    · next hn =>
      rw [hf] at hn
      cases hn
    · rfl

theorem first_of_read {first : UInt8} {h : FixedHeader} (hr : read first = .ok h) :
    h.first = first := by
  unfold read at hr
  split at hr
  · cases hr
  · split at hr
    · cases hr
    · cases hr
      rfl

end FixedHeader

def maxRemainingLength : Nat := 268435455

def maxWirePacketSize : Nat := maxRemainingLength + 5

/-! ### The decoder -/

/-- What is kept of the packet that is being read. -/
structure Pending where
  first : Option FixedHeader := none
  remainingLength : Nat := 0
  lengthBytes : Nat := 0
  multiplier : Nat := 1
  /-- The buffer of the body, once its length is known. -/
  body : Option Bytes := none
  bodyEnd : Nat := 0

def Pending.bufferedBytes (p : Pending) : Nat :=
  match p.first with
  | none => 0
  | some _ => 1 + p.lengthBytes + p.bodyEnd

/-- Where the reading of a packet has come to. -/
inductive Progress where
  /-- The chunk is used up. -/
  | ended (p : Pending)
  | failed (message : String)
  /-- The body is being read. -/
  | inBody (p : Pending) (body : Bytes) (input : Bytes)

/-- The remaining length, byte by byte. -/
def readRemainingLength (maxPacketSize : Nat) (p : Pending) : Bytes → Progress
  | [] => .ended p
  | digit :: input =>
      if 1 + p.lengthBytes ≥ maxPacketSize then .failed "packet exceeds configured size limit"
      else
        let remainingLength := p.remainingLength + (digit &&& 0x7F).toNat * p.multiplier
        let lengthBytes := p.lengthBytes + 1
        if digit &&& 0x80 = 0 then
          if lengthBytes > 1 ∧ remainingLength < p.multiplier then
            .failed "remaining length is not minimally encoded"
          else if 1 + lengthBytes + remainingLength > maxPacketSize then
            .failed "packet exceeds configured size limit"
          else
            -- room for what has arrived and some more, not for all that is announced
            let capacity := input.length * 2 + 4096
            let body := List.replicate
              (if remainingLength < capacity then remainingLength else capacity) 0
            .inBody { p with
              remainingLength := remainingLength, lengthBytes := lengthBytes, body := some body }
              body input
        else if lengthBytes = 4 then .failed "remaining length exceeds four bytes"
        else
          readRemainingLength maxPacketSize
            { p with
              remainingLength := remainingLength
              lengthBytes := lengthBytes
              multiplier := p.multiplier * 128 } input

/-- Up to the body: the first byte and the remaining length, as far as they have not been read. -/
def readFixedHeader (maxPacketSize : Nat) (p : Pending) (input : Bytes) : Progress :=
  match p.body with
  | some body => .inBody p body input
  | none =>
      match p.first, input with
      | some _, input => readRemainingLength maxPacketSize p input
      | none, [] => .ended p
      | none, first :: input =>
          match FixedHeader.read first with
          | .error message => .failed message
          | .ok h => readRemainingLength maxPacketSize { p with first := some h } input

/-- `target.setRange(start, start + source.length, source)`. -/
def setRange (target : Bytes) (start : Nat) (source : Bytes) : Bytes :=
  target.take start ++ source ++ target.drop (start + source.length)

/-- The buffer with room for `count` more bytes. -/
def ensureRoom (p : Pending) (body : Bytes) (count : Nat) : Bytes :=
  if p.bodyEnd + count > body.length then
    let required := p.bodyEnd + count + 4096
    let capacity := if body.length * 2 < required then required else body.length * 2
    let capacity := if capacity > p.remainingLength then p.remainingLength else capacity
    setRange (List.replicate capacity 0) 0 (body.take p.bodyEnd)
  else body

/-- Takes what there is of the body: the packet then, its buffer, and the rest of the input. -/
def takeBody (p : Pending) (body input : Bytes) : Pending × Bytes × Bytes :=
  let missing := p.remainingLength - p.bodyEnd
  let count := if missing < input.length then missing else input.length
  let body := setRange (ensureRoom p body count) p.bodyEnd (input.take count)
  ({ p with body := some body, bodyEnd := p.bodyEnd + count }, body, input.drop count)

/-- One round of the decoder's loop. -/
inductive Round where
  /-- The chunk is used up. -/
  | ended (p : Pending)
  | failed (message : String)
  /-- A packet is complete. -/
  | packet (frame : MqttFrame) (input : Bytes)

def readPacket (maxPacketSize : Nat) (p : Pending) (input : Bytes) : Round :=
  match readFixedHeader maxPacketSize p input with
  | .ended p => .ended p
  | .failed message => .failed message
  | .inBody p body input =>
      let (p, body, input) := takeBody p body input
      if p.bodyEnd = p.remainingLength then
        match p.first with
        | none => .failed "no packet type" -- there is no body without a first byte
        | some h => .packet (h.frame body) input
      else .ended p -- all of the input has gone into the body

/-- The packets of a chunk, from the packet that is being read on.  Every round uses up a part of the
input or is the last, so `fuel` does not run out. -/
def readPackets (maxPacketSize : Nat) :
    (fuel : Nat) → Pending → List MqttFrame → Bytes → Except String (List MqttFrame × Pending)
  | 0, p, frames, _ => .ok (frames, p)
  | fuel + 1, p, frames, input =>
      if input.isEmpty then .ok (frames, p)
      else
        match readPacket maxPacketSize p input with
        | .ended p => .ok (frames, p)
        | .failed message => .error message
        | .packet frame input => readPackets maxPacketSize fuel {} (frames ++ [frame]) input

inductive DecodeError where
  /-- `MqttProtocolException`. -/
  | protocol (message : String)
  /-- `StateError`. -/
  | state (message : String)
  deriving DecidableEq, Repr

def DecodeError.message : DecodeError → String
  | .protocol message => message
  | .state message => message

structure MqttFrameDecoder where
  maxPacketSize : Nat
  two_le : 2 ≤ maxPacketSize
  le_wire : maxPacketSize ≤ maxWirePacketSize
  pending : Pending := {}
  failed : Bool := false

namespace MqttFrameDecoder

/-- The decoder as it was built. -/
def fresh (d : MqttFrameDecoder) : MqttFrameDecoder := { d with pending := {}, failed := false }

def bufferedBytes (d : MqttFrameDecoder) : Nat := d.pending.bufferedBytes

/-- Accepts bytes and returns every complete packet in input order. -/
def add (d : MqttFrameDecoder) (input : Bytes) :
    Except DecodeError (List MqttFrame) × MqttFrameDecoder :=
  if d.failed then
    (.error (.state "MQTT decoder is terminal after a protocol error"), d)
  else
    match readPackets d.maxPacketSize (input.length + 1) d.pending [] input with
    | .ok (frames, p) => (.ok frames, { d with pending := p })
    | .error message =>
        (.error (.protocol message),
          { d with
            failed := true
            pending :=
              { d.pending with first := none, lengthBytes := 0, body := none, bodyEnd := 0 } })

end MqttFrameDecoder

/-! ### Encoding -/

/-- The digits of a variable-byte integer, the lowest first. -/
def variableByteInteger (value : Nat) : Bytes :=
  if value < 128 then [UInt8.ofNat value]
  else (UInt8.ofNat (value % 128) ||| 0x80) :: variableByteInteger (value / 128)
termination_by value
decreasing_by omega

def encodeMqttVariableByteInteger (value : Nat) : Except String Bytes :=
  if value > maxRemainingLength then .error "variable-byte integer exceeds MQTT limit"
  else .ok (variableByteInteger value)

/-- Encodes with the shortest possible remaining length. -/
def MqttFrame.encode (f : MqttFrame) (maxPacketSize : Nat) : Except String Bytes :=
  match encodeMqttVariableByteInteger f.body.length with
  | .error message => .error message
  | .ok lengthBytes =>
      if 1 + lengthBytes.length + f.body.length > maxPacketSize then
        .error "packet exceeds configured size limit"
      else
        .ok (((UInt8.ofNat f.type.wireValue <<< 4) ||| f.flags) :: lengthBytes ++ f.body)

end Mqtt

end Connectanum
