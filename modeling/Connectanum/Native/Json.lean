import Connectanum.Native.Message

/-!
# Native — Json

The JSON parser of the native transport (`parse_json_message`).  `serde_json` cuts the outer array
into raw values and decodes single ones; which of them a message needs, and in which order they are
looked at, is the parser's own.
-/

namespace Connectanum

namespace Wamp

/-- What the parser asks of `serde_json`.  A raw value is its text. -/
structure SerdeJson where
  /-- `BorrowedFields::deserialize` and `end`. -/
  fields : Bytes → Except String (List String)
  string : String → Except String String
  u64 : String → Option Nat
  /-- `serde_json::Value`, as a `serde_value::Value`. -/
  value : String → Except String Value

/-! ### Raw values -/

/-- `char::is_whitespace`. -/
def isWhitespace (ch : Char) : Bool :=
  let n := ch.toNat
  (0x9 ≤ n && n ≤ 0xd) || (0x2000 ≤ n && n ≤ 0x200a) ||
    [0x20, 0x85, 0xa0, 0x1680, 0x2028, 0x2029, 0x202f, 0x205f, 0x3000].contains n

/-- `char::is_ascii_whitespace`. -/
def isAsciiWhitespace (ch : Char) : Bool := [0x9, 0xa, 0xc, 0xd, 0x20].contains ch.toNat

def firstNonWs (s : String) : Option Char := s.toList.find? fun ch => !isAsciiWhitespace ch

/-- `s.trim().eq("null")`. -/
def isJsonNull (s : String) : Bool :=
  let trim (cs : List Char) := cs.dropWhile isWhitespace
  (trim (trim s.toList).reverse).reverse == "null".toList

/-- `slice_raw`: the bytes of a raw value in the frame. -/
def sliceRaw (raw : String) : Bytes := raw.toUTF8.toList

/-! ### Fields -/

def jsonGet (fields : List String) (index : Nat) (label : String) : Except ParseError String :=
  match fields[index]? with
  | some raw => .ok raw
  | none => .error (.missingElement label)

def jsonPayload (argsLabel : String) (args : Option String) (kwargsLabel : String)
    (kwargs : Option String) : Except ParseError Payload := do
  let args ← match args with
    | none => pure none
    | some raw =>
        if isJsonNull raw then pure none
        else if firstNonWs raw = some '[' then pure (some (sliceRaw raw))
        else .error (.expectedList argsLabel)
  let kwargs ← match kwargs with
    | none => pure none
    | some raw =>
        if isJsonNull raw then pure none
        else if firstNonWs raw = some '\x7b' then pure (some (sliceRaw raw))
        else .error (.expectedMap kwargsLabel)
  pure { args, kwargs }

section

variable (json : SerdeJson)

def jsonString (raw : String) (label : String) : Except ParseError String :=
  if isJsonNull raw then .error (.expectedString label)
  else (json.string raw).mapError .deserialize

def jsonU64 (raw : String) (label : String) : Except ParseError Nat :=
  match json.u64 raw with
  | some n => .ok n
  | none => .error (.expectedIdentifier label)

def jsonOptionalU64 (raw : Option String) (label : String) : Except ParseError (Option Nat) :=
  match raw with
  | none => .ok none
  | some raw => if isJsonNull raw then .ok none else some <$> jsonU64 json raw label

def jsonMap (raw : String) (label : String) : Except ParseError ValueMap :=
  if isJsonNull raw then .ok []
  else if firstNonWs raw ≠ some '\x7b' then .error (.expectedMap label)
  else
    match json.value raw with
    | .ok (.map entries) => .ok entries
    | .ok .unit => .ok []
    | .ok _ => .error (.expectedMap label)
    | .error err => .error (.deserialize err)

def jsonOptionalMap (raw : Option String) (label : String) : Except ParseError ValueMap :=
  match raw with
  | none => .ok []
  | some raw => jsonMap json raw label

/-! ### The message -/

/-- The `match code` of `parse_json_message`. -/
def jsonParts (fields : List String) (code : Nat) : Except ParseError WampMessage :=
  let payload (index : Nat) (argsLabel kwargsLabel : String) :=
    jsonPayload argsLabel fields[index]? kwargsLabel fields[index + 1]?
  match code with
  | 1 => do
      let realmRaw ← jsonGet fields 1 "hello.realm"
      let detailsRaw ← jsonGet fields 2 "hello.details"
      let realm ← jsonString json realmRaw "hello.realm"
      let details ← jsonMap json detailsRaw "hello.details"
      pure (.hello realm details)
  | 2 => do
      let sessionRaw ← jsonGet fields 1 "welcome.session_id"
      let detailsRaw ← jsonGet fields 2 "welcome.details"
      let sessionId ← jsonU64 json sessionRaw "welcome.session_id"
      let details ← jsonMap json detailsRaw "welcome.details"
      pure (.welcome sessionId details)
  | 3 => do
      let detailsRaw ← jsonGet fields 1 "abort.details"
      let reasonRaw ← jsonGet fields 2 "abort.reason"
      let payload ← payload 3 "abort.arguments" "abort.argumentsKw"
      let details ← jsonMap json detailsRaw "abort.details"
      let reason ← jsonString json reasonRaw "abort.reason"
      pure (.abort details reason payload)
  | 4 => do
      let methodRaw ← jsonGet fields 1 "challenge.auth_method"
      let extraRaw ← jsonGet fields 2 "challenge.extra"
      let authMethod ← jsonString json methodRaw "challenge.auth_method"
      let extra ← jsonMap json extraRaw "challenge.extra"
      pure (.challenge authMethod extra)
  | 5 => do
      let signatureRaw ← jsonGet fields 1 "authenticate.signature"
      let signature ← jsonString json signatureRaw "authenticate.signature"
      let extra ← jsonOptionalMap json fields[2]? "authenticate.extra"
      pure (.authenticate signature extra)
  | 6 => do
      let detailsRaw ← jsonGet fields 1 "goodbye.details"
      let reasonRaw ← jsonGet fields 2 "goodbye.reason"
      let payload ← payload 3 "goodbye.arguments" "goodbye.argumentsKw"
      let details ← jsonMap json detailsRaw "goodbye.details"
      let reason ← jsonString json reasonRaw "goodbye.reason"
      pure (.goodbye details reason payload)
  | 7 => do
      let detailsRaw ← jsonGet fields 1 "heartbeat.details"
      let ping ← jsonOptionalU64 json fields[2]? "heartbeat.ping"
      let incoming ← jsonOptionalU64 json fields[3]? "heartbeat.incoming"
      let outgoing ← jsonOptionalU64 json fields[4]? "heartbeat.outgoing"
      let details ← jsonMap json detailsRaw "heartbeat.details"
      pure (.heartbeat details ping incoming outgoing)
  | 8 => do
      let requestTypeRaw ← jsonGet fields 1 "error.request_type"
      let requestIdRaw ← jsonGet fields 2 "error.request_id"
      let detailsRaw ← jsonGet fields 3 "error.details"
      let errorRaw ← jsonGet fields 4 "error.uri"
      let payload ← payload 5 "error.arguments" "error.argumentsKw"
      let requestType ← jsonU64 json requestTypeRaw "error.request_type"
      let requestId ← jsonU64 json requestIdRaw "error.request_id"
      let details ← jsonMap json detailsRaw "error.details"
      let error ← jsonString json errorRaw "error.uri"
      pure (.error requestType requestId details error payload)
  | 16 => do
      let requestRaw ← jsonGet fields 1 "publish.request_id"
      let optionsRaw ← jsonGet fields 2 "publish.options"
      let topicRaw ← jsonGet fields 3 "publish.topic"
      let payload ← payload 4 "publish.arguments" "publish.argumentsKw"
      let requestId ← jsonU64 json requestRaw "publish.request_id"
      let options ← jsonMap json optionsRaw "publish.options"
      let topic ← jsonString json topicRaw "publish.topic"
      pure (.publish requestId options topic payload)
  | 17 => do
      let requestRaw ← jsonGet fields 1 "published.request_id"
      let publicationRaw ← jsonGet fields 2 "published.publication_id"
      let requestId ← jsonU64 json requestRaw "published.request_id"
      let publicationId ← jsonU64 json publicationRaw "published.publication_id"
      pure (.published requestId publicationId)
  | 32 => do
      let requestRaw ← jsonGet fields 1 "subscribe.request_id"
      let optionsRaw ← jsonGet fields 2 "subscribe.options"
      let topicRaw ← jsonGet fields 3 "subscribe.topic"
      let requestId ← jsonU64 json requestRaw "subscribe.request_id"
      let options ← jsonMap json optionsRaw "subscribe.options"
      let topic ← jsonString json topicRaw "subscribe.topic"
      pure (.subscribe requestId options topic)
  | 33 => do
      let requestRaw ← jsonGet fields 1 "subscribed.request_id"
      let subscriptionRaw ← jsonGet fields 2 "subscribed.subscription_id"
      let requestId ← jsonU64 json requestRaw "subscribed.request_id"
      let subscriptionId ← jsonU64 json subscriptionRaw "subscribed.subscription_id"
      pure (.subscribed requestId subscriptionId)
  | 34 => do
      let requestRaw ← jsonGet fields 1 "unsubscribe.request_id"
      let subscriptionRaw ← jsonGet fields 2 "unsubscribe.subscription_id"
      let requestId ← jsonU64 json requestRaw "unsubscribe.request_id"
      let subscriptionId ← jsonU64 json subscriptionRaw "unsubscribe.subscription_id"
      pure (.unsubscribe requestId subscriptionId)
  | 35 => do
      let requestRaw ← jsonGet fields 1 "unsubscribed.request_id"
      let requestId ← jsonU64 json requestRaw "unsubscribed.request_id"
      let details ← jsonOptionalMap json fields[2]? "unsubscribed.details"
      pure (.unsubscribed requestId details)
  | 36 => do
      let subscriptionRaw ← jsonGet fields 1 "event.subscription_id"
      let publicationRaw ← jsonGet fields 2 "event.publication_id"
      let detailsRaw ← jsonGet fields 3 "event.details"
      let payload ← payload 4 "event.arguments" "event.argumentsKw"
      let subscriptionId ← jsonU64 json subscriptionRaw "event.subscription_id"
      let publicationId ← jsonU64 json publicationRaw "event.publication_id"
      let details ← jsonMap json detailsRaw "event.details"
      pure (.event subscriptionId publicationId details payload)
  | 48 => do
      let requestRaw ← jsonGet fields 1 "call.request_id"
      let optionsRaw ← jsonGet fields 2 "call.options"
      let procedureRaw ← jsonGet fields 3 "call.procedure"
      let payload ← payload 4 "call.arguments" "call.argumentsKw"
      let requestId ← jsonU64 json requestRaw "call.request_id"
      let options ← jsonMap json optionsRaw "call.options"
      let procedure ← jsonString json procedureRaw "call.procedure"
      pure (.call requestId options procedure payload)
  | 49 => do
      let requestRaw ← jsonGet fields 1 "cancel.request_id"
      let optionsRaw ← jsonGet fields 2 "cancel.options"
      let requestId ← jsonU64 json requestRaw "cancel.request_id"
      let options ← jsonMap json optionsRaw "cancel.options"
      pure (.cancel requestId options)
  | 50 => do
      let requestRaw ← jsonGet fields 1 "result.request_id"
      let detailsRaw ← jsonGet fields 2 "result.details"
      let payload ← payload 3 "result.arguments" "result.argumentsKw"
      let requestId ← jsonU64 json requestRaw "result.request_id"
      let details ← jsonMap json detailsRaw "result.details"
      pure (.result requestId details payload)
  | 64 => do
      let requestRaw ← jsonGet fields 1 "register.request_id"
      let optionsRaw ← jsonGet fields 2 "register.options"
      let procedureRaw ← jsonGet fields 3 "register.procedure"
      let requestId ← jsonU64 json requestRaw "register.request_id"
      let options ← jsonMap json optionsRaw "register.options"
      let procedure ← jsonString json procedureRaw "register.procedure"
      pure (.register requestId options procedure)
  | 65 => do
      let requestRaw ← jsonGet fields 1 "registered.request_id"
      let registrationRaw ← jsonGet fields 2 "registered.registration_id"
      let requestId ← jsonU64 json requestRaw "registered.request_id"
      let registrationId ← jsonU64 json registrationRaw "registered.registration_id"
      pure (.registered requestId registrationId)
  | 66 => do
      let requestRaw ← jsonGet fields 1 "unregister.request_id"
      let registrationRaw ← jsonGet fields 2 "unregister.registration_id"
      let requestId ← jsonU64 json requestRaw "unregister.request_id"
      let registrationId ← jsonU64 json registrationRaw "unregister.registration_id"
      pure (.unregister requestId registrationId)
  | 67 => do
      let requestRaw ← jsonGet fields 1 "unregistered.request_id"
      let requestId ← jsonU64 json requestRaw "unregistered.request_id"
      let details ← jsonOptionalMap json fields[2]? "unregistered.details"
      pure (.unregistered requestId details)
  | 68 => do
      let requestRaw ← jsonGet fields 1 "invocation.request_id"
      let registrationRaw ← jsonGet fields 2 "invocation.registration_id"
      let detailsRaw ← jsonGet fields 3 "invocation.details"
      let payload ← payload 4 "invocation.arguments" "invocation.argumentsKw"
      let requestId ← jsonU64 json requestRaw "invocation.request_id"
      let registrationId ← jsonU64 json registrationRaw "invocation.registration_id"
      let details ← jsonMap json detailsRaw "invocation.details"
      pure (.invocation requestId registrationId details payload)
  | 69 => do
      let requestRaw ← jsonGet fields 1 "interrupt.request_id"
      let optionsRaw ← jsonGet fields 2 "interrupt.options"
      let requestId ← jsonU64 json requestRaw "interrupt.request_id"
      let options ← jsonMap json optionsRaw "interrupt.options"
      pure (.interrupt requestId options)
  | 70 => do
      let requestRaw ← jsonGet fields 1 "yield.request_id"
      let optionsRaw ← jsonGet fields 2 "yield.options"
      let payload ← payload 3 "yield.arguments" "yield.argumentsKw"
      let requestId ← jsonU64 json requestRaw "yield.request_id"
      let options ← jsonMap json optionsRaw "yield.options"
      pure (.yield requestId options payload)
  | code => do
      let extras ← (fields.drop 1).mapM fun raw => (json.value raw).mapError .deserialize
      pure (.unknown code extras)

def jsonMessage (bytes : Bytes) : Except ParseError WampMessage := do
  match ← (json.fields bytes).mapError .deserialize with
  | [] => .error (.missingElement "message code")
  | first :: others => do
      let code ← jsonU64 json first "message code"
      jsonParts json (first :: others) code

def parseJsonMessage (raw : RawFrame) : Except ParseError ParsedMessage := do
  let bytes := raw.intoBytes
  let message ← jsonMessage json bytes
  pure { message, raw := .contiguous bytes, serializer := .json }

end

end Wamp

end Connectanum
