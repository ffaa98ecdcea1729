import Connectanum.Native.Cbor
import Connectanum.Native.Json
import Connectanum.Native.MsgPack

/-!
# Native — Parse

`parse_message` and `parse_message_segments`, which dispatch on the serializer of the connection.

`msgpack_segmentation`: with MessagePack the cut of a frame into segments does not matter.
-/

namespace Connectanum

namespace Wamp

/-- The decoders of other packages, and the FlatBuffers codec. -/
structure Decoders where
  json : SerdeJson
  rmp : RmpSerde
  cbor : SerdeCbor
  flatbuffers : RawFrame → Except ParseError ParsedMessage

section

variable (decoders : Decoders)

def parseMessageFrame (serializer : Serializer) (raw : RawFrame) :
    Except ParseError ParsedMessage :=
  match serializer with
  | .json => parseJsonMessage decoders.json raw
  | .messagePack => parseMsgpackMessage decoders.rmp raw
  | .cbor => parseCborMessage decoders.cbor raw
  | .flatbuffers => decoders.flatbuffers raw
  | .ubjson => .error (.unsupportedSerializer .ubjson)

def parseMessage (serializer : Serializer) (rawPayload : Bytes) : Except ParseError ParsedMessage :=
  parseMessageFrame decoders serializer (.contiguous rawPayload)

def parseMessageSegments (serializer : Serializer) (segments : List Bytes) :
    Except ParseError ParsedMessage :=
  parseMessageFrame decoders serializer (.fromSegments segments)

end

/-- What the caller gets, apart from the buffers that hold the frame. -/
def ParsedMessage.content (parsed : ParsedMessage) :
    WampMessage × Bytes × Serializer × Option Bytes :=
  (parsed.message, parsed.raw.intoBytes, parsed.serializer, parsed.encodedMetadata)

/-- **Segmentation independence.**  For every cut of a frame, the segments parse to what the
concatenation parses to: the same message with the same payload bytes, or the same error. -/
theorem msgpack_segmentation (decoders : Decoders) (segments : List Bytes) :
    (parseMessageSegments decoders .messagePack segments).map ParsedMessage.content =
      (parseMessage decoders .messagePack segments.flatten).map ParsedMessage.content := by
  have hsame := RawFrame.same_intoBytes (.fromSegments segments)
  have hbytes : (RawFrame.fromSegments segments).intoBytes = segments.flatten := rfl
  rw [hbytes] at hsame
  have hmessage := msgpackMessage_same decoders.rmp hsame
  simp only [parseMessageSegments, parseMessage, parseMessageFrame, parseMsgpackMessage, hmessage]
  cases msgpackMessage decoders.rmp (.contiguous segments.flatten) with
  | error e => rfl
  | ok message => rfl

end Wamp

end Connectanum
