import Connectanum.Native.Frame

/-!
# Native — Message

The typed WAMP messages of the native parser (`WampMessage`), and the decoder that makes one out of
decoded values (`parse_value_parts`), with a function for each message type.
-/

namespace Connectanum

namespace Wamp

/-- A decoded value (`serde_value::Value`).  A number of any of the integer widths is its value,
which is all that the readers below look at. -/
inductive Value where
  | bool (b : Bool)
  | int (n : Int)
  | float (bits : UInt64)
  | char (c : Char)
  | string (s : String)
  | unit
  | bytes (b : Bytes)
  | seq (items : List Value)
  /-- The entries in the order of the `BTreeMap`. -/
  | map (entries : List (Value × Value))

abbrev ValueMap := List (Value × Value)

structure Payload where
  args : Option Bytes := none
  kwargs : Option Bytes := none
  transparent : Option Bytes := none
  deriving DecidableEq

inductive WampMessage where
  | hello (realm : String) (details : ValueMap)
  | welcome (sessionId : Nat) (details : ValueMap)
  | abort (details : ValueMap) (reason : String) (payload : Payload)
  | challenge (authMethod : String) (extra : ValueMap)
  | authenticate (signature : String) (extra : ValueMap)
  | goodbye (details : ValueMap) (reason : String) (payload : Payload)
  | heartbeat (details : ValueMap) (ping incoming outgoing : Option Nat)
  | error (requestType requestId : Nat) (details : ValueMap) (error : String) (payload : Payload)
  | publish (requestId : Nat) (options : ValueMap) (topic : String) (payload : Payload)
  | published (requestId publicationId : Nat)
  | subscribe (requestId : Nat) (options : ValueMap) (topic : String)
  | subscribed (requestId subscriptionId : Nat)
  | unsubscribe (requestId subscriptionId : Nat)
  | unsubscribed (requestId : Nat) (details : ValueMap)
  | event (subscriptionId publicationId : Nat) (details : ValueMap) (payload : Payload)
  | call (requestId : Nat) (options : ValueMap) (procedure : String) (payload : Payload)
  | cancel (requestId : Nat) (options : ValueMap)
  | result (requestId : Nat) (details : ValueMap) (payload : Payload)
  | register (requestId : Nat) (options : ValueMap) (procedure : String)
  | registered (requestId registrationId : Nat)
  | unregister (requestId registrationId : Nat)
  | unregistered (requestId : Nat) (details : ValueMap)
  | invocation (requestId registrationId : Nat) (details : ValueMap) (payload : Payload)
  | interrupt (requestId : Nat) (options : ValueMap)
  | yield (requestId : Nat) (options : ValueMap) (payload : Payload)
  | unknown (code : Nat) (fields : List Value)

structure ParsedMessage where
  message : WampMessage
  raw : RawFrame
  serializer : Serializer
  encodedMetadata : Option Bytes := none

/-! ### Fields -/

def get (parts : List Value) (index : Nat) (label : String) : Except ParseError Value :=
  match parts[index]? with
  | some value => .ok value
  | none => .error (.missingElement label)

def expectMap (value : Value) (label : String) : Except ParseError ValueMap :=
  match value with
  | .map entries => .ok entries
  | .unit => .ok []
  | _ => .error (.expectedMap label)

def mapOrDefault (value : Option Value) (label : String) : Except ParseError ValueMap :=
  match value with
  | some value => expectMap value label
  | none => .ok []

def valueAsU64 (value : Value) (label : String) : Except ParseError Nat :=
  match value with
  | .int n => if 0 ≤ n then .ok n.toNat else .error (.expectedIdentifier label)
  | _ => .error (.expectedIdentifier label)

def expectString (value : Value) (label : String) : Except ParseError String :=
  match value with
  | .string s => .ok s
  | .char ch => .ok ch.toString
  | _ => .error (.expectedString label)

/-- `parts.get(index).map(value_as_u64).transpose()`. -/
def counter (value : Option Value) (label : String) : Except ParseError (Option Nat) :=
  match value with
  | some value => some <$> valueAsU64 value label
  | none => .ok none

section

-- `serialize_value` of the serializer
variable (serializeValue : Value → Except ParseError Bytes)

def extractPayload (argsLabel : String) (args : Option Value) (kwargsLabel : String)
    (kwargs : Option Value) : Except ParseError Payload := do
  let args ← match args with
    | some (.seq items) => some <$> serializeValue (.seq items)
    | some .unit | none => pure none
    | some _ => .error (.expectedList argsLabel)
  let kwargs ← match kwargs with
    | some (.map entries) => some <$> serializeValue (.map entries)
    | some .unit | none => pure none
    | some _ => .error (.expectedMap kwargsLabel)
  pure { args, kwargs }

/-! ### Message types -/

def parseHello (parts : List Value) : Except ParseError WampMessage := do
  let realm ← expectString (← get parts 0 "hello.realm") "hello.realm"
  let details ← expectMap (← get parts 1 "hello.details") "hello.details"
  pure (.hello realm details)

def parseWelcome (parts : List Value) : Except ParseError WampMessage := do
  let sessionId ← valueAsU64 (← get parts 0 "welcome.session_id") "welcome.session_id"
  let details ← expectMap (← get parts 1 "welcome.details") "welcome.details"
  pure (.welcome sessionId details)

def parseAbort (parts : List Value) : Except ParseError WampMessage := do
  let details ← expectMap (← get parts 0 "abort.details") "abort.details"
  let reason ← expectString (← get parts 1 "abort.reason") "abort.reason"
  let payload ← extractPayload serializeValue "abort.arguments" parts[2]? "abort.argumentsKw"
    parts[3]?
  pure (.abort details reason payload)

def parseChallenge (parts : List Value) : Except ParseError WampMessage := do
  let authMethod ← expectString (← get parts 0 "challenge.auth_method") "challenge.auth_method"
  let extra ← expectMap (← get parts 1 "challenge.extra") "challenge.extra"
  pure (.challenge authMethod extra)

def parseAuthenticate (parts : List Value) : Except ParseError WampMessage := do
  let signature ← expectString (← get parts 0 "authenticate.signature") "authenticate.signature"
  let extra ← mapOrDefault parts[1]? "authenticate.extra"
  pure (.authenticate signature extra)

def parseGoodbye (parts : List Value) : Except ParseError WampMessage := do
  let details ← expectMap (← get parts 0 "goodbye.details") "goodbye.details"
  let reason ← expectString (← get parts 1 "goodbye.reason") "goodbye.reason"
  let payload ← extractPayload serializeValue "goodbye.arguments" parts[2]? "goodbye.argumentsKw"
    parts[3]?
  pure (.goodbye details reason payload)

def parseHeartbeat (parts : List Value) : Except ParseError WampMessage := do
  let details ← expectMap (← get parts 0 "heartbeat.details") "heartbeat.details"
  let ping ← counter parts[1]? "heartbeat.ping"
  let incoming ← counter parts[2]? "heartbeat.incoming"
  let outgoing ← counter parts[3]? "heartbeat.outgoing"
  pure (.heartbeat details ping incoming outgoing)

def parseError (parts : List Value) : Except ParseError WampMessage := do
  let requestType ← valueAsU64 (← get parts 0 "error.request_type") "error.request_type"
  let requestId ← valueAsU64 (← get parts 1 "error.request_id") "error.request_id"
  let details ← expectMap (← get parts 2 "error.details") "error.details"
  let error ← expectString (← get parts 3 "error.uri") "error.uri"
  let payload ← extractPayload serializeValue "error.arguments" parts[4]? "error.argumentsKw"
    parts[5]?
  pure (.error requestType requestId details error payload)

def parsePublish (parts : List Value) : Except ParseError WampMessage := do
  let requestId ← valueAsU64 (← get parts 0 "publish.request_id") "publish.request_id"
  let options ← expectMap (← get parts 1 "publish.options") "publish.options"
  let topic ← expectString (← get parts 2 "publish.topic") "publish.topic"
  let payload ← extractPayload serializeValue "publish.arguments" parts[3]? "publish.argumentsKw"
    parts[4]?
  pure (.publish requestId options topic payload)

def parsePublished (parts : List Value) : Except ParseError WampMessage := do
  let requestId ← valueAsU64 (← get parts 0 "published.request_id") "published.request_id"
  let publicationId ←
    valueAsU64 (← get parts 1 "published.publication_id") "published.publication_id"
  pure (.published requestId publicationId)

def parseSubscribe (parts : List Value) : Except ParseError WampMessage := do
  let requestId ← valueAsU64 (← get parts 0 "subscribe.request_id") "subscribe.request_id"
  let options ← expectMap (← get parts 1 "subscribe.options") "subscribe.options"
  let topic ← expectString (← get parts 2 "subscribe.topic") "subscribe.topic"
  pure (.subscribe requestId options topic)

def parseSubscribed (parts : List Value) : Except ParseError WampMessage := do
  let requestId ← valueAsU64 (← get parts 0 "subscribed.request_id") "subscribed.request_id"
  let subscriptionId ←
    valueAsU64 (← get parts 1 "subscribed.subscription_id") "subscribed.subscription_id"
  pure (.subscribed requestId subscriptionId)

def parseUnsubscribe (parts : List Value) : Except ParseError WampMessage := do
  let requestId ← valueAsU64 (← get parts 0 "unsubscribe.request_id") "unsubscribe.request_id"
  let subscriptionId ←
    valueAsU64 (← get parts 1 "unsubscribe.subscription_id") "unsubscribe.subscription_id"
  pure (.unsubscribe requestId subscriptionId)

def parseUnsubscribed (parts : List Value) : Except ParseError WampMessage := do
  let requestId ← valueAsU64 (← get parts 0 "unsubscribed.request_id") "unsubscribed.request_id"
  let details ← mapOrDefault parts[1]? "unsubscribed.details"
  pure (.unsubscribed requestId details)

def parseEvent (parts : List Value) : Except ParseError WampMessage := do
  let subscriptionId ← valueAsU64 (← get parts 0 "event.subscription_id") "event.subscription_id"
  let publicationId ← valueAsU64 (← get parts 1 "event.publication_id") "event.publication_id"
  let details ← expectMap (← get parts 2 "event.details") "event.details"
  let payload ← extractPayload serializeValue "event.arguments" parts[3]? "event.argumentsKw"
    parts[4]?
  pure (.event subscriptionId publicationId details payload)

def parseCall (parts : List Value) : Except ParseError WampMessage := do
  let requestId ← valueAsU64 (← get parts 0 "call.request_id") "call.request_id"
  let options ← expectMap (← get parts 1 "call.options") "call.options"
  let procedure ← expectString (← get parts 2 "call.procedure") "call.procedure"
  let payload ← extractPayload serializeValue "call.arguments" parts[3]? "call.argumentsKw"
    parts[4]?
  pure (.call requestId options procedure payload)

def parseCancel (parts : List Value) : Except ParseError WampMessage := do
  let requestId ← valueAsU64 (← get parts 0 "cancel.request_id") "cancel.request_id"
  let options ← expectMap (← get parts 1 "cancel.options") "cancel.options"
  pure (.cancel requestId options)

def parseResult (parts : List Value) : Except ParseError WampMessage := do
  let requestId ← valueAsU64 (← get parts 0 "result.request_id") "result.request_id"
  let details ← expectMap (← get parts 1 "result.details") "result.details"
  let payload ← extractPayload serializeValue "result.arguments" parts[2]? "result.argumentsKw"
    parts[3]?
  pure (.result requestId details payload)

def parseRegister (parts : List Value) : Except ParseError WampMessage := do
  let requestId ← valueAsU64 (← get parts 0 "register.request_id") "register.request_id"
  let options ← expectMap (← get parts 1 "register.options") "register.options"
  let procedure ← expectString (← get parts 2 "register.procedure") "register.procedure"
  pure (.register requestId options procedure)

def parseRegistered (parts : List Value) : Except ParseError WampMessage := do
  let requestId ← valueAsU64 (← get parts 0 "registered.request_id") "registered.request_id"
  let registrationId ←
    valueAsU64 (← get parts 1 "registered.registration_id") "registered.registration_id"
  pure (.registered requestId registrationId)

def parseUnregister (parts : List Value) : Except ParseError WampMessage := do
  let requestId ← valueAsU64 (← get parts 0 "unregister.request_id") "unregister.request_id"
  let registrationId ←
    valueAsU64 (← get parts 1 "unregister.registration_id") "unregister.registration_id"
  pure (.unregister requestId registrationId)

def parseUnregistered (parts : List Value) : Except ParseError WampMessage := do
  let requestId ← valueAsU64 (← get parts 0 "unregistered.request_id") "unregistered.request_id"
  let details ← mapOrDefault parts[1]? "unregistered.details"
  pure (.unregistered requestId details)

def parseInvocation (parts : List Value) : Except ParseError WampMessage := do
  let requestId ← valueAsU64 (← get parts 0 "invocation.request_id") "invocation.request_id"
  let registrationId ←
    valueAsU64 (← get parts 1 "invocation.registration_id") "invocation.registration_id"
  let details ← expectMap (← get parts 2 "invocation.details") "invocation.details"
  let payload ← extractPayload serializeValue "invocation.arguments" parts[3]?
    "invocation.argumentsKw" parts[4]?
  pure (.invocation requestId registrationId details payload)

def parseInterrupt (parts : List Value) : Except ParseError WampMessage := do
  let requestId ← valueAsU64 (← get parts 0 "interrupt.request_id") "interrupt.request_id"
  let options ← expectMap (← get parts 1 "interrupt.options") "interrupt.options"
  pure (.interrupt requestId options)

def parseYield (parts : List Value) : Except ParseError WampMessage := do
  let requestId ← valueAsU64 (← get parts 0 "yield.request_id") "yield.request_id"
  let options ← expectMap (← get parts 1 "yield.options") "yield.options"
  let payload ← extractPayload serializeValue "yield.arguments" parts[2]? "yield.argumentsKw"
    parts[3]?
  pure (.yield requestId options payload)

def parseValueParts (code : Nat) (rest : List Value) : Except ParseError WampMessage :=
  match code with
  | 1 => parseHello rest
  | 2 => parseWelcome rest
  | 3 => parseAbort serializeValue rest
  | 4 => parseChallenge rest
  | 5 => parseAuthenticate rest
  | 6 => parseGoodbye serializeValue rest
  | 7 => parseHeartbeat rest
  | 8 => parseError serializeValue rest
  | 16 => parsePublish serializeValue rest
  | 17 => parsePublished rest
  | 32 => parseSubscribe rest
  | 33 => parseSubscribed rest
  | 34 => parseUnsubscribe rest
  | 35 => parseUnsubscribed rest
  | 36 => parseEvent serializeValue rest
  | 48 => parseCall serializeValue rest
  | 49 => parseCancel rest
  | 50 => parseResult serializeValue rest
  | 64 => parseRegister rest
  | 65 => parseRegistered rest
  | 66 => parseUnregister rest
  | 67 => parseUnregistered rest
  | 68 => parseInvocation serializeValue rest
  | 69 => parseInterrupt rest
  | 70 => parseYield serializeValue rest
  | code => .ok (.unknown code rest)

end

end Wamp

end Connectanum
