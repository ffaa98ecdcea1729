import Mathlib.Algebra.Order.Ring.Int
import Connectanum.Lib.Base64
import Connectanum.Lib.Json
import Connectanum.Lib.Utf8
import Connectanum.Serializer.Skipping

/-!
# Serializer — JSON messages

How the client's JSON serializer reads a message that carries a payload: the positional fields,
the options and details, and the arguments, in which a string that begins with the unit `0` stands
for bytes.

The decoder of the SDK for base64 that is not canonical, and the messages without a payload, are
parameters.
-/

namespace Connectanum.JsonSerializer

open Json

/-- What the deserializer throws. -/
inductive Thrown where
  /-- A `FormatException`. -/
  | format (message : String)
  /-- A value had another type than an assignment or a cast asks for. -/
  | type
  /-- Text that the UTF-8 decoder of the SDK refuses. -/
  | malformed
  deriving DecidableEq

def Thrown.lift {α : Type} : Except String α → Except Thrown α
  | .ok a => .ok a
  | .error message => .error (.format message)

/-- The code units of a literal. -/
def textOf (s : String) : Text := Utf16.encode s.toList

/-- A JSON value in a message. -/
inductive Fragment where
  | null
  | bool (b : Bool)
  | int (n : Int)
  | double (literal : Text)
  | string (units : Text)
  /-- `Uint8List`. -/
  | binary (bytes : List UInt8)
  | list (items : List Fragment)
  | map (entries : List (Text × Fragment))
  deriving Inhabited

/-- The digits of a number. -/
def natOfDigits (digits : Text) : Option Nat :=
  digits.foldl (fun acc c => acc.bind fun n =>
    if isDigit c then some (n * 10 + (c.toNat - 0x30)) else none) (some 0)

/-- The literal as a 64-bit integer; other numbers are doubles. -/
def intOfLiteral (literal : Text) : Option Int :=
  match literal with
  | 0x2D :: digits =>
      (natOfDigits digits).bind fun n => if n ≤ 2 ^ 63 then some (-(n : Int)) else none
  | digits => (natOfDigits digits).bind fun n => if n < 2 ^ 63 then some (n : Int) else none

def number (literal : Text) : Fragment :=
  match intOfLiteral literal with
  | some n => .int n
  | none => .double literal

/-! ### Binary strings -/

/-- `_binaryPrefix`. -/
def binaryPrefix : Text := [0x00]

/-- `_escapedBinaryPrefix`: the escape itself, as text. -/
def escapedBinaryPrefix : Text := [0x5C, 0x75, 0x30, 0x30, 0x30, 0x30]

def isBinaryJsonString (value : Text) : Bool :=
  binaryPrefix.isPrefixOf value || escapedBinaryPrefix.isPrefixOf value

section

variable (sdkBase64 : Text → Except Thrown (List UInt8))

/-- `decodeBase64Bytes`, from its start on. -/
def decodeBase64Bytes (units : Text) : Except Thrown (List UInt8) :=
  match Base64.decode units with
  | some bytes => .ok bytes
  | none => sdkBase64 units

def convertStringToUint8List (value : Text) : Except Thrown (List UInt8) :=
  if binaryPrefix.isPrefixOf value then decodeBase64Bytes sdkBase64 (value.drop 1)
  else decodeBase64Bytes sdkBase64 (value.drop 6)

def enter (parentDepth : Int) : Except Thrown Int :=
  Thrown.lift (enterSerializerContainer parentDepth)

mutual

/-- `_normalizeJsonPayloadFragment`. -/
def normalizeJsonPayloadFragment : Value → Int → Except Thrown Fragment
  | .null, _ => .ok .null
  | .bool b, _ => .ok (.bool b)
  | .number literal, _ => .ok (number literal)
  | .string units, _ =>
      if isBinaryJsonString units then
        (convertStringToUint8List sdkBase64 units).map .binary
      else .ok (.string units)
  | .list items, parentDepth => do
      let depth ← enter parentDepth
      let items ← normalizeItems items depth
      .ok (.list items)
  | .object members, parentDepth => do
      let depth ← enter parentDepth
      let entries ← normalizeMembers members depth
      .ok (.map entries)

def normalizeItems : List Value → Int → Except Thrown (List Fragment)
  | [], _ => .ok []
  | item :: rest, depth => do
      let item ← normalizeJsonPayloadFragment item depth
      let rest ← normalizeItems rest depth
      .ok (item :: rest)

def normalizeMembers : List (Text × Value) → Int → Except Thrown (List (Text × Fragment))
  | [], _ => .ok []
  | (key, value) :: rest, depth => do
      let value ← normalizeJsonPayloadFragment value depth
      let rest ← normalizeMembers rest depth
      .ok ((key, value) :: rest)

end

/-! ### Fields -/

/-- A field of a dictionary, or its lack. -/
abbrev Field := Option Fragment

/-- How the value of a field is read; `null` stands for a field that is not there. -/
abbrev Reader := Field → Except Thrown Fragment

/-- `value as bool?`. -/
def asBool : Reader
  | none | some .null => .ok .null
  | some (.bool b) => .ok (.bool b)
  | _ => .error .type

/-- `value as String?`. -/
def asString : Reader
  | none | some .null => .ok .null
  | some (.string units) => .ok (.string units)
  | _ => .error .type

def serializerMaxWampId : Int := 0x20000000000000

def decodeWampIdValue (diagnosticPath : String) : Fragment → Except Thrown Fragment
  | .int n =>
      if 1 ≤ n ∧ n ≤ serializerMaxWampId then .ok (.int n)
      else .error (.format (diagnosticPath ++ " must be a WAMP ID"))
  | _ => .error (.format (diagnosticPath ++ " must be a WAMP ID"))

def decodeWampNonNegativeIntegerValue (diagnosticPath : String) : Fragment → Except Thrown Fragment
  | .int n =>
      if 0 ≤ n then .ok (.int n)
      else .error (.format (diagnosticPath ++ " must be a non-negative integer"))
  | _ => .error (.format (diagnosticPath ++ " must be a non-negative integer"))

/-- A field that is checked when it is there. -/
def optional (check : Fragment → Except Thrown Fragment) : Reader
  | none => .ok .null
  | some value => check value

def decodeOptionalWampIdList (optionName : String) : Reader :=
  let invalid := Thrown.format ("PUBLISH.Options." ++ optionName ++ " must be a list of WAMP IDs")
  optional fun
    | .list items => if items.all fun
          | .int n => decide (1 ≤ n ∧ n ≤ serializerMaxWampId)
          | _ => false
        then .ok (.list items) else .error invalid
    | _ => .error invalid

def decodeOptionalWampStringList (optionName : String) : Reader :=
  let invalid := Thrown.format ("PUBLISH.Options." ++ optionName ++ " must be a list of strings")
  optional fun
    | .list items => if items.all fun
          | .string _ => true
          | _ => false
        then .ok (.list items) else .error invalid
    | _ => .error invalid

/-- The options or details of a message: the fields that have a name in the code, in their order,
and the others. -/
structure Dictionary where
  fields : List (String × Fragment) := []
  custom : List (Text × Fragment) := []

def lookup (entries : List (Text × Fragment)) (name : String) : Field :=
  (entries.find? fun e => e.1 == textOf name).map (·.2)

/-- `_copyWithoutKeys`. -/
def copyWithoutKeys (entries : List (Text × Fragment)) (names : List String) :
    List (Text × Fragment) :=
  entries.filter fun e => !(names.map textOf).contains e.1

def readFields (entries : List (Text × Fragment)) (readers : List (String × Reader)) :
    Except Thrown (List (String × Fragment)) :=
  readers.mapM fun (name, read) => (read (lookup entries name)).map fun value => (name, value)

def decodeRequiredOptionsMap (rawOptions : Value) (messageName : String) :
    Except Thrown (List (Text × Fragment)) :=
  match rawOptions with
  | .object [] => .ok []
  | .object members => do
      let depth ← enter 0
      normalizeMembers sdkBase64 members depth
  | _ => .error (.format (messageName ++ ".Options must be a dictionary"))

/-- What the decoders of CALL, YIELD and PUBLISH options share: no entries are no options. -/
def decodeOptions (readers : List (String × Reader)) (entries : List (Text × Fragment)) :
    Except Thrown (Option Dictionary) :=
  if entries.isEmpty then .ok none
  else do
    let fields ← readFields entries readers
    .ok (some { fields := fields, custom := copyWithoutKeys entries (readers.map (·.1)) })

def passthruReaders : List (String × Reader) :=
  [("ppt_scheme", asString), ("ppt_serializer", asString), ("ppt_cipher", asString),
    ("ppt_keyid", asString)]

def decodeCallOptions : List (Text × Fragment) → Except Thrown (Option Dictionary) :=
  decodeOptions <|
    [("progress", asBool), ("receive_progress", asBool),
      ("timeout", optional (decodeWampNonNegativeIntegerValue "CALL.Options.timeout")),
      ("disclose_me", asBool)] ++ passthruReaders

def decodeYieldOptions : List (Text × Fragment) → Except Thrown (Option Dictionary) :=
  decodeOptions <| [("progress", asBool)] ++ passthruReaders

def decodePublishOptions : List (Text × Fragment) → Except Thrown (Option Dictionary) :=
  decodeOptions <|
    [("acknowledge", asBool), ("exclude", decodeOptionalWampIdList "exclude"),
      ("exclude_authid", decodeOptionalWampStringList "exclude_authid"),
      ("exclude_authrole", decodeOptionalWampStringList "exclude_authrole"),
      ("eligible", decodeOptionalWampIdList "eligible"),
      ("eligible_authid", decodeOptionalWampStringList "eligible_authid"),
      ("eligible_authrole", decodeOptionalWampStringList "eligible_authrole"),
      ("exclude_me", asBool), ("disclose_me", asBool), ("retain", asBool)] ++ passthruReaders

/-- A field of details that is not normalized. -/
def raw : Value → Fragment
  | .null => .null
  | .bool b => .bool b
  | .number literal => number literal
  | .string units => .string units
  | .list _ => .list []
  | .object _ => .map []

/-- What the decoders of EVENT and INVOCATION details share: the entries one after the other, the
fields with a name as they are and the others normalized; some of those are checked as well. -/
def decodeDetails (readers checked : List (String × Reader)) :
    List (Text × Value) → Except Thrown Dictionary
  | [] => .ok {}
  | (key, value) :: rest => do
      let entry : Dictionary ←
        match readers.find? fun r => textOf r.1 == key with
        | some (name, read) => (read (some (raw value))).map fun v => { fields := [(name, v)] }
        | none => do
            if let some (_, check) := checked.find? fun r => textOf r.1 == key then
              discard (check (some (raw value)))
            let v ← normalizeJsonPayloadFragment sdkBase64 value 0
            pure { custom := [(key, v)] }
      let others ← decodeDetails readers checked rest
      .ok { fields := entry.fields ++ others.fields, custom := entry.custom ++ others.custom }

/-! ### Messages -/

/-- The messages that carry a payload. -/
inductive MessageType where
  | error | publish | event | call | result | invocation | yield
  deriving DecidableEq

/-- The offset that `_addPayload` is given. -/
def MessageType.argumentsOffset : MessageType → Nat
  | .yield | .result => 3
  | .error => 5
  | _ => 4

/-- What a message has before its payload. -/
structure Header where
  type : MessageType
  /-- The integers in their order. -/
  ids : List Int
  /-- Options or details. -/
  dictionary : Option Dictionary
  /-- The procedure, the topic or the error. -/
  uri : Option Text := none

def readInt : Value → Except Thrown Int
  | .number literal => ((intOfLiteral literal).map Except.ok).getD (.error .type)
  | _ => .error .type

def readText : Value → Except Thrown Text
  | .string units => .ok units
  | _ => .error .type

/-- `value as Map`. -/
def readMap : Value → Except Thrown (List (Text × Value))
  | .object members => .ok members
  | _ => .error .type

def decodeEventDetails : List (Text × Value) → Except Thrown Dictionary :=
  decodeDetails sdkBase64
    ([("publisher", optional (decodeWampIdValue "EVENT.Details.publisher")),
      ("trustlevel", optional (decodeWampNonNegativeIntegerValue "EVENT.Details.trustlevel")),
      ("topic", asString)] ++ passthruReaders) []

def decodeInvocationDetails : List (Text × Value) → Except Thrown Dictionary :=
  decodeDetails sdkBase64
    ([("caller", optional (decodeWampIdValue "INVOCATION.Details.caller")),
      ("procedure", asString), ("progress", asBool), ("receive_progress", asBool),
      ("timeout", optional (decodeWampNonNegativeIntegerValue "INVOCATION.Details.timeout"))] ++
      passthruReaders)
    [("trustlevel", optional (decodeWampNonNegativeIntegerValue "INVOCATION.Details.trustlevel"))]

def decodeResultDetails : List (Text × Value) → Except Thrown Dictionary :=
  decodeDetails sdkBase64 ([("progress", asBool)] ++ passthruReaders) []

/-- `_normalizeJsonStringKeyMap`. -/
def normalizeJsonStringKeyMap (source : List (Text × Value)) : Except Thrown Dictionary := do
  let depth ← enter 0
  let entries ← normalizeMembers sdkBase64 source depth
  .ok { custom := entries }

/-- `message[index]`. -/
def item (message : List Value) (index : Nat) : Except Thrown Value :=
  match message[index]? with
  | some value => .ok value
  | none => .error .type

/-- The header of a message that carries a payload. -/
def decodeHeader (message : List Value) : MessageType → Except Thrown Header
  | .call => do
      let requestId ← item message 1 >>= readInt
      let procedure ← item message 3 >>= readText
      let entries ← decodeRequiredOptionsMap sdkBase64 (← item message 2) "CALL"
      let options ← decodeCallOptions entries
      .ok { type := .call, ids := [requestId], dictionary := options, uri := some procedure }
  | .yield => do
      let invocationRequestId ← item message 1 >>= readInt
      let entries ← decodeRequiredOptionsMap sdkBase64 (← item message 2) "YIELD"
      let options ← decodeYieldOptions entries
      .ok { type := .yield, ids := [invocationRequestId], dictionary := options }
  | .publish => do
      let requestId ← item message 1 >>= readInt
      let topic ← item message 3 >>= readText
      let entries ← decodeRequiredOptionsMap sdkBase64 (← item message 2) "PUBLISH"
      let options ← decodePublishOptions entries
      .ok { type := .publish, ids := [requestId], dictionary := options, uri := some topic }
  | .invocation => do
      let detailsMap ← item message 3 >>= readMap
      let requestId ← item message 1 >>= readInt
      let registrationId ← item message 2 >>= readInt
      let details ← decodeInvocationDetails sdkBase64 detailsMap
      .ok { type := .invocation, ids := [requestId, registrationId], dictionary := some details }
  | .result => do
      let detailsMap ← item message 2 >>= readMap
      let callRequestId ← item message 1 >>= readInt
      let details ← decodeResultDetails sdkBase64 detailsMap
      .ok { type := .result, ids := [callRequestId], dictionary := some details }
  | .event => do
      let detailsMap ← item message 3 >>= readMap
      let subscriptionId ← item message 1 >>= readInt
      let publicationId ← item message 2 >>= readInt
      let details ← decodeEventDetails sdkBase64 detailsMap
      .ok { type := .event, ids := [subscriptionId, publicationId], dictionary := some details }
  | .error => do
      let requestTypeId ← item message 1 >>= readInt
      let requestId ← item message 2 >>= readInt
      let detailsMap ← item message 3 >>= readMap
      let details ← normalizeJsonStringKeyMap sdkBase64 detailsMap
      let error ← item message 4 >>= fun
        | .null => .ok none
        | value => (readText value).map some
      .ok { type := .error, ids := [requestTypeId, requestId], dictionary := some details,
            uri := error }

/-- A message that carries a payload. -/
structure Message where
  header : Header
  transparentBinaryPayload : Option (List UInt8) := none
  /-- `wireArguments`. -/
  arguments : Option (List Fragment) := none
  /-- `wireArgumentsKeywords`. -/
  argumentsKeywords : Option (List (Text × Fragment)) := none
  /-- The slice of the frame that `setLazyPayload` retains. -/
  argumentsBytes : Option (List UInt8) := none

/-- `_addPayload`. -/
def addPayload (header : Header) (messageData : List Value) (argumentsOffset : Nat) :
    Except Thrown Message := do
  Thrown.lift (validateWampMessageFieldCount messageData.length)
  match messageData.drop argumentsOffset with
  | [] => .ok { header := header }
  | [.string units] =>
      if isBinaryJsonString units then
        let binary ← convertStringToUint8List sdkBase64 units
        .ok { header := header, transparentBinaryPayload := some binary }
      else .error (.format "JSON arguments must be a list or binary value")
  | [.list items] => do
      let depth ← enter 0
      let arguments ← normalizeItems sdkBase64 items depth
      .ok { header := header, arguments := some arguments }
  | .list items :: .object members :: _ => do
      let depth ← enter 0
      let arguments ← normalizeItems sdkBase64 items depth
      let argumentsKeywords ← normalizeMembers sdkBase64 members depth
      .ok { header := header, arguments := some arguments,
            argumentsKeywords := some argumentsKeywords }
  | .list _ :: _ =>
      .error (.format "JSON keyword arguments must be a string-keyed map")
  | _ => .error (.format "JSON arguments must be a list or binary value")

/-- What is deserialized: a message with a payload or one without, which are the type `Control`. -/
inductive Decoded (Control : Type) where
  | payload (message : Message)
  | control (message : Control)

def messageType : Int → Option MessageType
  | 8 => some .error
  | 16 => some .publish
  | 36 => some .event
  | 48 => some .call
  | 50 => some .result
  | 68 => some .invocation
  | 70 => some .yield
  | _ => none

/-- The minimum of `validateWampMessageMinimumFieldCount`. -/
def minimumFields (messageType : Int) : Nat :=
  if messageType = 8 then 5
  else if messageType ∈ [16, 32, 36, 48, 64, 68] then 4
  else if messageType ∈ [35, 67] then 2
  else if messageType ∈ [1, 2, 3, 4, 5, 6, 17, 33, 34, 49, 50, 65, 66, 69, 70] then 3
  else 0

def validateWampMessageMinimumFieldCount (messageType : Int) (fieldCount : Nat) :
    Except String Unit :=
  if fieldCount < minimumFields messageType then
    .error "WAMP message contains too few fields"
  else .ok ()

variable {Control : Type} (control : Int → List Value → Except Thrown (Option Control))

/-- What `deserializeFromString` does with the decoded text. -/
def deserializeValue : Value → Except Thrown (Option (Decoded Control))
  | .list [] => .error (.format "WAMP message type must be an integer")
  | .list (rawMessageId :: fields) =>
      let message := rawMessageId :: fields
      match readInt rawMessageId with
      | .error _ => .error (.format "WAMP message type must be an integer")
      | .ok messageId => do
          Thrown.lift (validateWampMessageMinimumFieldCount messageId message.length)
          match messageType messageId with
          | some type => do
              let header ← decodeHeader sdkBase64 message type
              let decoded ← addPayload sdkBase64 header message type.argumentsOffset
              .ok (some (.payload decoded))
          | none => (control messageId message).map (·.map .control)
  | _ => .ok none

/-- `deserializeFromString`, without its fast path. -/
def deserializeGeneric (jsonMessage : Text) : Except Thrown (Option (Decoded Control)) :=
  match Json.decode jsonMessage with
  | none => .error (.format
      ("Invalid JSON WAMP message (" ++ toString jsonMessage.length ++ " chars)"))
  | some value => deserializeValue sdkBase64 control value

end

end Connectanum.JsonSerializer
