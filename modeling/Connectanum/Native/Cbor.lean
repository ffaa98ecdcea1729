import Connectanum.Native.Message

/-!
# Native — Cbor

The CBOR parser of the native transport (`parse_cbor_message`), with its two paths.  A frame in one
buffer is scanned for the ranges of the elements of the outer array, and hands its arguments on as
they came.  A segmented frame is decoded as one value (`parse_value_message`), and its arguments are
serialised again.
-/

namespace Connectanum

namespace Wamp

/-- What the parser asks of `serde_cbor`. -/
structure SerdeCbor where
  /-- `Value::deserialize` on a slice: its first item. -/
  value : Bytes → Except String Value
  /-- `IgnoredAny::deserialize` and `byte_offset`: the length of the first item. -/
  ignored : Bytes → Except String Nat
  /-- `Value::deserialize` on a reader, and `end`. -/
  document : Bytes → Except String Value
  toVec : Value → Except String Bytes

/-! ### The segmented reader -/

structure SegmentedFrameReader where
  /-- The segments from `segment_index` on. -/
  segments : List Bytes
  segmentOffset : Nat := 0

/-- The bytes that the reader still has. -/
def SegmentedFrameReader.remaining (reader : SegmentedFrameReader) : Bytes :=
  reader.segments.flatten.drop reader.segmentOffset

section

variable (cbor : SerdeCbor)

def serializeValueCbor (value : Value) : Except ParseError Bytes :=
  (cbor.toVec value).mapError .payloadEncode

/-- `deserialize_value` of a CBOR frame. -/
def deserializeValueCbor : RawFrame → Except ParseError Value
  | .contiguous raw => (cbor.value raw).mapError .deserialize
  | .segmented segments _ _ =>
      (cbor.document (SegmentedFrameReader.mk segments 0).remaining).mapError .deserialize

/-- `parse_value_message`, for CBOR. -/
def parseValueMessage (raw : RawFrame) : Except ParseError ParsedMessage := do
  match ← deserializeValueCbor cbor raw with
  | .seq [] => .error (.missingElement "message code")
  | .seq (codeValue :: rest) => do
      let code ← valueAsU64 codeValue "message code"
      let message ← parseValueParts (serializeValueCbor cbor) code rest
      pure { message, raw, serializer := .cbor }
  | _ => .error .expectedArray

/-! ### Ranges -/

def cborHeaderInteger (data : Bytes) (byteCount : Nat) : Except ParseError Nat :=
  if data.length < 1 + byteCount then .error (.deserialize "truncated CBOR array header")
  else .ok (((data.drop 1).take byteCount).foldl (fun value byte => value * 2 ^ 8 + byte.toNat) 0)

/-- `cbor_array_header`: the length of the header, and of the array if it is definite. -/
def cborArrayHeader (data : Bytes) : Except ParseError (Nat × Option Nat) :=
  match data with
  | [] => .error (.deserialize "empty CBOR message")
  | initial :: _ =>
      if initial.toNat / 2 ^ 5 ≠ 4 then .error .expectedArray
      else
        let additional := initial.toNat % 2 ^ 5
        if additional = 31 then .ok (1, none)
        else if additional ≤ 23 then .ok (1, some additional)
        else
          match additional with
          | 24 => do pure (2, some (← cborHeaderInteger data 1))
          | 25 => do pure (3, some (← cborHeaderInteger data 2))
          | 26 => do pure (5, some (← cborHeaderInteger data 4))
          | 27 => do pure (9, some (← cborHeaderInteger data 8))
          | _ => .error (.deserialize "reserved CBOR array additional information")

/-- The array ends here: all its elements are read, or a break stands here. -/
def cborDone (data : Bytes) (length : Option Nat) (count offset : Nat) : Bool :=
  match length with
  | some length => count == length
  | none => data[offset]? == some 0xff

/-- The loop of `cbor_top_level_ranges` from `count` ranges on: the other ranges, and where they
end.  Each round takes a byte, so the length of the data bounds the rounds. -/
def cborRanges (data : Bytes) (length : Option Nat) :
    Nat → Nat → Nat → Except ParseError (List Range × Nat)
  | 0, _, _ => .error (.deserialize "unexpected end of CBOR message array")
  | rounds + 1, count, offset =>
      if cborDone data length count offset then .ok ([], offset)
      else if data.length ≤ offset then
        .error (.deserialize "unexpected end of CBOR message array")
      else
        match cbor.ignored (data.drop offset) with
        | .error err => .error (.deserialize err)
        | .ok consumed =>
            if consumed = 0 then .error (.deserialize "CBOR value parser made no progress")
            else do
              let (ranges, stop) ← cborRanges data length rounds (count + 1) (offset + consumed)
              pure (⟨offset, offset + consumed⟩ :: ranges, stop)

def cborTopLevelRanges (data : Bytes) : Except ParseError (List Range) := do
  let (offset, length) ← cborArrayHeader data
  let (ranges, stop) ← cborRanges cbor data length (data.length + 1) 0 offset
  let messageEnd := if length.isSome then stop else stop + 1
  if messageEnd ≠ data.length then
    .error (.deserialize "trailing data after CBOR message array")
  else pure ranges

/-! ### The payload -/

structure CborPayloadSpec where
  argsIndex : Nat
  argsLabel : String
  kwargsIndex : Nat
  kwargsLabel : String

def cborPayloadSpec (code : Nat) : Option CborPayloadSpec :=
  match code with
  | 3 => some ⟨3, "abort.arguments", 4, "abort.argumentsKw"⟩
  | 6 => some ⟨3, "goodbye.arguments", 4, "goodbye.argumentsKw"⟩
  | 8 => some ⟨5, "error.arguments", 6, "error.argumentsKw"⟩
  | 16 => some ⟨4, "publish.arguments", 5, "publish.argumentsKw"⟩
  | 36 => some ⟨4, "event.arguments", 5, "event.argumentsKw"⟩
  | 48 => some ⟨4, "call.arguments", 5, "call.argumentsKw"⟩
  | 50 => some ⟨3, "result.arguments", 4, "result.argumentsKw"⟩
  | 68 => some ⟨4, "invocation.arguments", 5, "invocation.argumentsKw"⟩
  | 70 => some ⟨3, "yield.arguments", 4, "yield.argumentsKw"⟩
  | _ => none

def cborPayloadPart (raw : RawFrame) (range : Option Range) (expectedMajor : Nat) (label : String)
    (wrongType : String → ParseError) : Except ParseError (Option Bytes) :=
  match range with
  | none => .ok none
  | some range => do
      let slice ← raw.sliceOrCopy range
      if slice = [0xf6] then pure none
      else if slice.head?.map (fun byte => byte.toNat / 2 ^ 5) ≠ some expectedMajor then
        .error (wrongType label)
      else some <$> raw.sliceOrCopy range

def cborPayload (raw : RawFrame) (ranges : List Range) (spec : CborPayloadSpec) :
    Except ParseError Payload := do
  let args ← cborPayloadPart raw ranges[spec.argsIndex]? 4 spec.argsLabel .expectedList
  let kwargs ← cborPayloadPart raw ranges[spec.kwargsIndex]? 5 spec.kwargsLabel .expectedMap
  pure { args, kwargs }

def replaceMessagePayload (message : WampMessage) (payload : Payload) : WampMessage :=
  match message with
  | .abort details reason _ => .abort details reason payload
  | .goodbye details reason _ => .goodbye details reason payload
  | .error requestType requestId details error _ =>
      .error requestType requestId details error payload
  | .publish requestId options topic _ => .publish requestId options topic payload
  | .event subscriptionId publicationId details _ =>
      .event subscriptionId publicationId details payload
  | .call requestId options procedure _ => .call requestId options procedure payload
  | .result requestId details _ => .result requestId details payload
  | .invocation requestId registrationId details _ =>
      .invocation requestId registrationId details payload
  | .yield requestId options _ => .yield requestId options payload
  | message => message

def cborValue (raw : RawFrame) (range : Range) : Except ParseError Value := do
  let slice ← raw.sliceOrCopy range
  (cbor.value slice).mapError .deserialize

/-- A field of the message: the payload stands for its elements, the others are decoded. -/
def cborField (raw : RawFrame) (payload : Option (CborPayloadSpec × Payload)) (index : Nat)
    (range : Range) : Except ParseError Value :=
  match payload with
  | none => cborValue cbor raw range
  | some (spec, payload) =>
      if index = spec.argsIndex then .ok (if payload.args.isSome then .seq [] else .unit)
      else if index = spec.kwargsIndex then .ok (if payload.kwargs.isSome then .map [] else .unit)
      else cborValue cbor raw range

/-- The fields after the message code, from `index` on. -/
def cborFields (raw : RawFrame) (payload : Option (CborPayloadSpec × Payload)) :
    Nat → List Range → Except ParseError (List Value)
  | _, [] => .ok []
  | index, range :: ranges => do
      let value ← cborField cbor raw payload index range
      let values ← cborFields raw payload (index + 1) ranges
      pure (value :: values)

/-- `payload_spec.map(cbor_payload).transpose()`, with the specification kept. -/
def cborSpecPayload (raw : RawFrame) (ranges : List Range) (code : Nat) :
    Except ParseError (Option (CborPayloadSpec × Payload)) :=
  match cborPayloadSpec code with
  | none => .ok none
  | some spec => do
      let payload ← cborPayload raw ranges spec
      pure (some (spec, payload))

def parseCborMessage (raw : RawFrame) : Except ParseError ParsedMessage :=
  match raw.asContiguous with
  | none => parseValueMessage cbor raw
  | some bytes => do
      match ← cborTopLevelRanges cbor bytes with
      | [] => .error (.missingElement "message code")
      | first :: others => do
          let code ← valueAsU64 (← cborValue cbor raw first) "message code"
          let payload ← cborSpecPayload raw (first :: others) code
          let rest ← cborFields cbor raw payload 1 others
          let message ← parseValueParts (serializeValueCbor cbor) code rest
          let message := match payload with
            | some (_, payload) => replaceMessagePayload message payload
            | none => message
          pure { message, raw, serializer := .cbor }

end

end Wamp

end Connectanum
