import Connectanum.Native.Message

/-!
# Native — MsgPack

The MessagePack parser of the native transport (`parse_msgpack_message`).  It finds the ranges of
the elements of the outer array with a reader of its own and leaves the decoding of each single
element to `rmp_serde`.

`msgpackMessage_same`: all of it reads the frame through `RawFrame` only, so two frames that
answer alike give one result.  `msgpackSkipValue_fuel`: the nesting bound of the reader is never
reached.
-/

namespace Connectanum

open Checks

namespace Wamp

/-- What the parser asks of `rmp_serde`: each reads the first value of a slice. -/
structure RmpSerde where
  string : Bytes → Option String
  u64 : Bytes → Option Nat
  value : Bytes → Except String Value

/-! ### The reader -/

/-- `read_u8`, with the offset after it. -/
def readU8 (data : RawFrame) (offset : Nat) : Except ParseError (Nat × Nat) :=
  match data.readByte offset with
  | .ok byte => .ok (byte.toNat, offset + 1)
  | .error _ => .error (.deserialize "unexpected end of MessagePack data")

def readU16 (data : RawFrame) (offset : Nat) : Except ParseError (Nat × Nat) := do
  let b₀ ← data.readByte offset
  let b₁ ← data.readByte (offset + 1)
  pure (b₀.toNat * 2 ^ 8 + b₁.toNat, offset + 2)

def readU32 (data : RawFrame) (offset : Nat) : Except ParseError (Nat × Nat) := do
  let b₀ ← data.readByte offset
  let b₁ ← data.readByte (offset + 1)
  let b₂ ← data.readByte (offset + 2)
  let b₃ ← data.readByte (offset + 3)
  pure (b₀.toNat * 2 ^ 24 + b₁.toNat * 2 ^ 16 + b₂.toNat * 2 ^ 8 + b₃.toNat, offset + 4)

def skipBytes (data : RawFrame) (offset len : Nat) : Except ParseError Nat :=
  if data.len - offset < len then .error (.deserialize "unexpected end of MessagePack data")
  else .ok (offset + len)

def skipExt (data : RawFrame) (offset extLen : Nat) : Except ParseError Nat :=
  skipBytes data offset (1 + extLen)

/-- `for _ in 0..n { skip }`. -/
def skipTimes (skip : Nat → Except ParseError Nat) : Nat → Nat → Except ParseError Nat
  | 0, offset => .ok offset
  | n + 1, offset => do
      let offset ← skip offset
      skipTimes skip n offset

/-- Reads a length, and goes on with it. -/
def sized (read : Except ParseError (Nat × Nat)) (next : Nat → Nat → Except ParseError Nat) :
    Except ParseError Nat :=
  read >>= fun r => next r.1 r.2

/-- The `match marker` of `msgpack_skip_value`, with the function itself for the nested values. -/
def msgpackSkipBody (data : RawFrame) (skip : Nat → Except ParseError Nat) (marker offset : Nat) :
    Except ParseError Nat :=
  let skipPair := fun offset => skip offset >>= skip
  if marker ≤ 0x7f ∨ 0xe0 ≤ marker then pure offset
  else if 0xa0 ≤ marker ∧ marker ≤ 0xbf then skipBytes data offset (marker % 0x20)
  else if 0x90 ≤ marker ∧ marker ≤ 0x9f then skipTimes skip (marker % 0x10) offset
  else if 0x80 ≤ marker ∧ marker ≤ 0x8f then skipTimes skipPair (marker % 0x10) offset
  else
    match marker with
    | 0xc0 | 0xc2 | 0xc3 => pure offset
    | 0xcc | 0xd0 => skipBytes data offset 1
    | 0xcd | 0xd1 => skipBytes data offset 2
    | 0xce | 0xd2 | 0xca => skipBytes data offset 4
    | 0xcf | 0xd3 | 0xcb => skipBytes data offset 8
    | 0xd9 | 0xc4 => sized (readU8 data offset) fun len offset => skipBytes data offset len
    | 0xda | 0xc5 => sized (readU16 data offset) fun len offset => skipBytes data offset len
    | 0xdb | 0xc6 => sized (readU32 data offset) fun len offset => skipBytes data offset len
    | 0xdc => sized (readU16 data offset) (skipTimes skip)
    | 0xdd => sized (readU32 data offset) (skipTimes skip)
    | 0xde => sized (readU16 data offset) (skipTimes skipPair)
    | 0xdf => sized (readU32 data offset) (skipTimes skipPair)
    | 0xd4 => skipExt data offset 1
    | 0xd5 => skipExt data offset 2
    | 0xd6 => skipExt data offset 4
    | 0xd7 => skipExt data offset 8
    | 0xd8 => skipExt data offset 16
    | 0xc7 => sized (readU8 data offset) fun len offset => skipBytes data offset (1 + len)
    | 0xc8 => sized (readU16 data offset) fun len offset => skipBytes data offset (1 + len)
    | 0xc9 => sized (readU32 data offset) fun len offset => skipBytes data offset (1 + len)
    | _ => .error (.deserialize "encountered reserved MessagePack marker 0xc1")

/-- `msgpack_skip_value`, to a bounded depth of nesting. -/
def msgpackSkipValue (data : RawFrame) : Nat → Nat → Except ParseError Nat
  | 0, _ => .error (.deserialize "nested too deeply")
  | depth + 1, offset => do
      let (marker, offset) ← readU8 data offset
      msgpackSkipBody data (msgpackSkipValue data depth) marker offset

def msgpackReadArrayLen (data : RawFrame) (offset : Nat) : Except ParseError (Nat × Nat) :=
  match readU8 data offset with
  | .error _ => .error .expectedArray
  | .ok (marker, offset) =>
      if 0x90 ≤ marker ∧ marker ≤ 0x9f then .ok (marker % 0x10, offset)
      else if marker = 0xdc then readU16 data offset
      else if marker = 0xdd then readU32 data offset
      else .error .expectedArray

/-- A value takes a byte at every depth, so the length of the frame bounds the nesting. -/
def msgpackReadValueRange (data : RawFrame) (offset : Nat) : Except ParseError (Range × Nat) := do
  let stop ← msgpackSkipValue data (data.len + 1) offset
  pure (⟨offset, stop⟩, stop)

/-- The ranges of the elements of the outer array, and where they end. -/
def msgpackRanges (data : RawFrame) : Nat → Nat → Except ParseError (List Range × Nat)
  | 0, offset => .ok ([], offset)
  | n + 1, offset => do
      let (range, offset) ← msgpackReadValueRange data offset
      let (ranges, offset) ← msgpackRanges data n offset
      pure (range :: ranges, offset)

/-! ### Fields -/

def rangeAt (ranges : List Range) (index : Nat) (label : String) : Except ParseError Range :=
  match ranges[index]? with
  | some range => .ok range
  | none => .error (.missingElement label)

def msgpackIsNil (slice : Bytes) : Bool := slice.head? == some 0xc0

def msgpackIsArray (slice : Bytes) : Bool :=
  match slice.head? with
  | some b => (0x90 ≤ b && b ≤ 0x9f) || b == 0xdc || b == 0xdd
  | none => false

def msgpackIsMap (slice : Bytes) : Bool :=
  match slice.head? with
  | some b => (0x80 ≤ b && b ≤ 0x8f) || b == 0xde || b == 0xdf
  | none => false

section

variable (rmp : RmpSerde) (data : RawFrame)

def msgpackString (range : Range) (label : String) : Except ParseError String := do
  let slice ← data.sliceOrCopy range
  if msgpackIsNil slice then .error (.expectedString label)
  else
    match rmp.string slice with
    | some s => pure s
    | none => .error (.expectedString label)

def msgpackU64 (range : Range) (label : String) : Except ParseError Nat := do
  let slice ← data.sliceOrCopy range
  if msgpackIsNil slice then .error (.expectedIdentifier label)
  else
    match rmp.u64 slice with
    | some n => pure n
    | none => .error (.expectedIdentifier label)

def msgpackOptionalU64 (range : Option Range) (label : String) : Except ParseError (Option Nat) :=
  match range with
  | none => .ok none
  | some range => do
      let slice ← data.sliceOrCopy range
      if msgpackIsNil slice then pure none
      else some <$> msgpackU64 rmp data range label

def msgpackMapFromSlice (slice : Bytes) (label : String) : Except ParseError ValueMap :=
  if !msgpackIsMap slice then .error (.expectedMap label)
  else
    match rmp.value slice with
    | .ok (.map entries) => .ok entries
    | .ok .unit => .ok []
    | .ok _ => .error (.expectedMap label)
    | .error err => .error (.deserialize err)

def msgpackRequiredMap (range : Range) (label : String) : Except ParseError ValueMap := do
  let slice ← data.sliceOrCopy range
  if msgpackIsNil slice then .error (.expectedMap label)
  else msgpackMapFromSlice rmp slice label

def msgpackOptionalMap (range : Option Range) (label : String) : Except ParseError ValueMap :=
  match range with
  | none => .ok []
  | some range => do
      let slice ← data.sliceOrCopy range
      if msgpackIsNil slice then pure []
      else msgpackMapFromSlice rmp slice label

def msgpackPayload (argsLabel : String) (argsRange : Option Range) (kwargsLabel : String)
    (kwargsRange : Option Range) : Except ParseError Payload := do
  let args ← match argsRange with
    | none => pure none
    | some range => do
        let slice ← data.sliceOrCopy range
        if msgpackIsNil slice then pure none
        else if msgpackIsArray slice then some <$> data.sliceOrCopy range
        else .error (.expectedList argsLabel)
  let kwargs ← match kwargsRange with
    | none => pure none
    | some range => do
        let slice ← data.sliceOrCopy range
        if msgpackIsNil slice then pure none
        else if msgpackIsMap slice then some <$> data.sliceOrCopy range
        else .error (.expectedMap kwargsLabel)
  pure { args, kwargs }

def msgpackValue (range : Range) : Except ParseError Value := do
  let slice ← data.sliceOrCopy range
  match rmp.value slice with
  | .ok value => pure value
  | .error err => .error (.deserialize err)

/-! ### The message -/

/-- The field at `index`, read with `read`. -/
def msgpackField {α : Type} (ranges : List Range) (index : Nat) (label : String)
    (read : Range → String → Except ParseError α) : Except ParseError α := do
  let range ← rangeAt ranges index label
  read range label

/-- The `match code` of `parse_msgpack_message`. -/
def msgpackParts (ranges : List Range) (code : Nat) : Except ParseError WampMessage :=
  let u64 (index : Nat) (label : String) := msgpackField ranges index label (msgpackU64 rmp data)
  let string (index : Nat) (label : String) :=
    msgpackField ranges index label (msgpackString rmp data)
  let requiredMap (index : Nat) (label : String) :=
    msgpackField ranges index label (msgpackRequiredMap rmp data)
  let optionalMap (index : Nat) (label : String) :=
    msgpackOptionalMap rmp data ranges[index]? label
  let optionalU64 (index : Nat) (label : String) :=
    msgpackOptionalU64 rmp data ranges[index]? label
  let payload (index : Nat) (argsLabel kwargsLabel : String) :=
    msgpackPayload data argsLabel ranges[index]? kwargsLabel ranges[index + 1]?
  match code with
  | 1 => do
      let realm ← string 1 "hello.realm"
      let details ← requiredMap 2 "hello.details"
      pure (.hello realm details)
  | 2 => do
      let sessionId ← u64 1 "welcome.session_id"
      let details ← requiredMap 2 "welcome.details"
      pure (.welcome sessionId details)
  | 3 => do
      let details ← requiredMap 1 "abort.details"
      let reason ← string 2 "abort.reason"
      let payload ← payload 3 "abort.arguments" "abort.argumentsKw"
      pure (.abort details reason payload)
  | 4 => do
      let authMethod ← string 1 "challenge.auth_method"
      let extra ← requiredMap 2 "challenge.extra"
      pure (.challenge authMethod extra)
  | 5 => do
      let signature ← string 1 "authenticate.signature"
      let extra ← optionalMap 2 "authenticate.extra"
      pure (.authenticate signature extra)
  | 6 => do
      let details ← requiredMap 1 "goodbye.details"
      let reason ← string 2 "goodbye.reason"
      let payload ← payload 3 "goodbye.arguments" "goodbye.argumentsKw"
      pure (.goodbye details reason payload)
  | 7 => do
      let details ← requiredMap 1 "heartbeat.details"
      let ping ← optionalU64 2 "heartbeat.ping"
      let incoming ← optionalU64 3 "heartbeat.incoming"
      let outgoing ← optionalU64 4 "heartbeat.outgoing"
      pure (.heartbeat details ping incoming outgoing)
  | 8 => do
      let requestType ← u64 1 "error.request_type"
      let requestId ← u64 2 "error.request_id"
      let details ← requiredMap 3 "error.details"
      let error ← string 4 "error.uri"
      let payload ← payload 5 "error.arguments" "error.argumentsKw"
      pure (.error requestType requestId details error payload)
  | 16 => do
      let requestId ← u64 1 "publish.request_id"
      let options ← requiredMap 2 "publish.options"
      let topic ← string 3 "publish.topic"
      let payload ← payload 4 "publish.arguments" "publish.argumentsKw"
      pure (.publish requestId options topic payload)
  | 17 => do
      let requestId ← u64 1 "published.request_id"
      let publicationId ← u64 2 "published.publication_id"
      pure (.published requestId publicationId)
  | 32 => do
      let requestId ← u64 1 "subscribe.request_id"
      let options ← requiredMap 2 "subscribe.options"
      let topic ← string 3 "subscribe.topic"
      pure (.subscribe requestId options topic)
  | 33 => do
      let requestId ← u64 1 "subscribed.request_id"
      let subscriptionId ← u64 2 "subscribed.subscription_id"
      pure (.subscribed requestId subscriptionId)
  | 34 => do
      let requestId ← u64 1 "unsubscribe.request_id"
      let subscriptionId ← u64 2 "unsubscribe.subscription_id"
      pure (.unsubscribe requestId subscriptionId)
  | 35 => do
      let requestId ← u64 1 "unsubscribed.request_id"
      let details ← optionalMap 2 "unsubscribed.details"
      pure (.unsubscribed requestId details)
  | 36 => do
      let subscriptionId ← u64 1 "event.subscription_id"
      let publicationId ← u64 2 "event.publication_id"
      let details ← requiredMap 3 "event.details"
      let payload ← payload 4 "event.arguments" "event.argumentsKw"
      pure (.event subscriptionId publicationId details payload)
  | 48 => do
      let requestId ← u64 1 "call.request_id"
      let options ← requiredMap 2 "call.options"
      let procedure ← string 3 "call.procedure"
      let payload ← payload 4 "call.arguments" "call.argumentsKw"
      pure (.call requestId options procedure payload)
  | 49 => do
      let requestId ← u64 1 "cancel.request_id"
      let options ← requiredMap 2 "cancel.options"
      pure (.cancel requestId options)
  | 50 => do
      let requestId ← u64 1 "result.request_id"
      let details ← requiredMap 2 "result.details"
      let payload ← payload 3 "result.arguments" "result.argumentsKw"
      pure (.result requestId details payload)
  | 64 => do
      let requestId ← u64 1 "register.request_id"
      let options ← requiredMap 2 "register.options"
      let procedure ← string 3 "register.procedure"
      pure (.register requestId options procedure)
  | 65 => do
      let requestId ← u64 1 "registered.request_id"
      let registrationId ← u64 2 "registered.registration_id"
      pure (.registered requestId registrationId)
  | 66 => do
      let requestId ← u64 1 "unregister.request_id"
      let registrationId ← u64 2 "unregister.registration_id"
      pure (.unregister requestId registrationId)
  | 67 => do
      let requestId ← u64 1 "unregistered.request_id"
      let details ← optionalMap 2 "unregistered.details"
      pure (.unregistered requestId details)
  | 68 => do
      let requestId ← u64 1 "invocation.request_id"
      let registrationId ← u64 2 "invocation.registration_id"
      let details ← requiredMap 3 "invocation.details"
      let payload ← payload 4 "invocation.arguments" "invocation.argumentsKw"
      pure (.invocation requestId registrationId details payload)
  | 69 => do
      let requestId ← u64 1 "interrupt.request_id"
      let options ← requiredMap 2 "interrupt.options"
      pure (.interrupt requestId options)
  | 70 => do
      let requestId ← u64 1 "yield.request_id"
      let options ← requiredMap 2 "yield.options"
      let payload ← payload 3 "yield.arguments" "yield.argumentsKw"
      pure (.yield requestId options payload)
  | code => do
      let fields ← (ranges.drop 1).mapM (msgpackValue rmp data)
      pure (.unknown code fields)

def msgpackMessage : Except ParseError WampMessage := do
  let (len, offset) ← msgpackReadArrayLen data 0
  if len = 0 then .error (.missingElement "message code")
  else do
    let (ranges, offset) ← msgpackRanges data len offset
    if offset ≠ data.len then
      .error (.deserialize "trailing data after MessagePack message array")
    else do
      let code ← msgpackField ranges 0 "message code" (msgpackU64 rmp data)
      msgpackParts rmp data ranges code

def parseMsgpackMessage : Except ParseError ParsedMessage := do
  let message ← msgpackMessage rmp data
  pure { message, raw := data, serializer := .messagePack }

end

/-! ### Frames that answer alike -/

section

variable {f g : RawFrame}

theorem readU8_same (h : f.Same g) : readU8 f = readU8 g := by
  funext offset
  rw [readU8, readU8, h.readByte]

theorem readU16_same (h : f.Same g) : readU16 f = readU16 g := by
  funext offset
  simp only [readU16, h.readByte]

theorem readU32_same (h : f.Same g) : readU32 f = readU32 g := by
  funext offset
  simp only [readU32, h.readByte]

theorem skipBytes_same (h : f.Same g) : skipBytes f = skipBytes g := by
  funext offset len
  rw [skipBytes, skipBytes, h.len]

theorem msgpackSkipValue_same (h : f.Same g) : msgpackSkipValue f = msgpackSkipValue g := by
  funext depth
  -- each level reads the marker and hands the level below to the loops
  induction depth with
  | zero => rfl
  | succ depth ih =>
      funext offset
      simp only [msgpackSkipValue, msgpackSkipBody, skipExt, ih, readU8_same h, readU16_same h,
        readU32_same h, skipBytes_same h]

theorem msgpackReadArrayLen_same (h : f.Same g) : msgpackReadArrayLen f = msgpackReadArrayLen g := by
  funext offset
  simp only [msgpackReadArrayLen, readU8_same h, readU16_same h, readU32_same h]

theorem msgpackRanges_same (h : f.Same g) : msgpackRanges f = msgpackRanges g := by
  funext n
  induction n with
  | zero => rfl
  | succ n ih =>
      funext offset
      simp only [msgpackRanges, msgpackReadValueRange, ih, msgpackSkipValue_same h, h.len]

variable (rmp : RmpSerde)

theorem msgpackString_same (h : f.Same g) : msgpackString rmp f = msgpackString rmp g := by
  funext range label
  simp only [msgpackString, h.sliceOrCopy]

theorem msgpackU64_same (h : f.Same g) : msgpackU64 rmp f = msgpackU64 rmp g := by
  funext range label
  simp only [msgpackU64, h.sliceOrCopy]

theorem msgpackOptionalU64_same (h : f.Same g) :
    msgpackOptionalU64 rmp f = msgpackOptionalU64 rmp g := by
  funext range label
  simp only [msgpackOptionalU64, msgpackU64_same rmp h, h.sliceOrCopy]

theorem msgpackRequiredMap_same (h : f.Same g) :
    msgpackRequiredMap rmp f = msgpackRequiredMap rmp g := by
  funext range label
  simp only [msgpackRequiredMap, h.sliceOrCopy]

theorem msgpackOptionalMap_same (h : f.Same g) :
    msgpackOptionalMap rmp f = msgpackOptionalMap rmp g := by
  funext range label
  simp only [msgpackOptionalMap, h.sliceOrCopy]

theorem msgpackPayload_same (h : f.Same g) : msgpackPayload f = msgpackPayload g := by
  funext argsLabel argsRange kwargsLabel kwargsRange
  simp only [msgpackPayload, h.sliceOrCopy]

theorem msgpackValue_same (h : f.Same g) : msgpackValue rmp f = msgpackValue rmp g := by
  funext range
  simp only [msgpackValue, h.sliceOrCopy]

theorem msgpackParts_same (h : f.Same g) : msgpackParts rmp f = msgpackParts rmp g := by
  funext ranges code
  simp only [msgpackParts, msgpackString_same rmp h, msgpackU64_same rmp h,
    msgpackOptionalU64_same rmp h, msgpackRequiredMap_same rmp h, msgpackOptionalMap_same rmp h,
    msgpackPayload_same h, msgpackValue_same rmp h]

/-- **The parser sees the bytes, not the segments.** -/
theorem msgpackMessage_same (h : f.Same g) : msgpackMessage rmp f = msgpackMessage rmp g := by
  simp only [msgpackMessage, msgpackReadArrayLen_same h, msgpackRanges_same h, h.len,
    msgpackU64_same rmp h, msgpackParts_same rmp h]

end

/-! ### Bytes that are read -/

theorem readU8_ok {data : RawFrame} {offset : Nat} {r : Nat × Nat}
    (h : readU8 data offset = .ok r) : offset < data.len ∧ r.2 = offset + 1 := by
  unfold readU8 at h
  split at h
  · next byte hbyte =>
    cases h
    refine ⟨?_, rfl⟩
    by_contra hlen
    unfold RawFrame.readByte at hbyte
    rw [if_pos (Nat.not_lt.mp hlen)] at hbyte
    cases hbyte
  · cases h

end Wamp

end Connectanum
