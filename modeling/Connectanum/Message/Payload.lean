import Connectanum.Wire.Options

/-!
# Message — Payloads

The application payload of a message: positional and keyword arguments, held as values or as
slices that are decoded when somebody reads them, and the payload passthru forms in which both
travel as one packed argument.

* `LazyMessagePayload`: a payload view that delays decoding;
* `PPTPayload`: packing and unpacking;
* `PayloadMessage`: the mutable state of a message with its getters and setters;
* `setLazyPayload`, `restoreLazyPayload`, `copyPayloadTo`: the ways a payload comes in.

Decoded values are kept where they were decoded.  A decoder gives the same answer each time it is
asked, so a view does not show what it keeps; a message does, because its setters and copies look at
the kept values.
-/

namespace Connectanum

/-- A decoded argument, as far as the payload code looks at it. -/
inductive PayloadValue where
  | null
  | int (n : Int)
  /-- `Uint8List`. -/
  | bytes (bytes : List UInt8)
  | list (items : List PayloadValue)
  /-- `Map<String, dynamic>`. -/
  | map (entries : List (String × PayloadValue))
  | other (text : String)

/-- `List<dynamic>`. -/
abbrev Arguments := List PayloadValue

/-- `Map<String, dynamic>`. -/
abbrev ArgumentsKeywords := List (String × PayloadValue)

inductive PayloadError where
  | argument (message : String)
  | format (message : String)
  | unsupported (message : String)
  /-- A value had another type than a cast or a member access asks for. -/
  | type
  /-- Another failure of a decoder. -/
  | decoder (message : String)
  deriving DecidableEq

structure MaterializedPayloadView where
  arguments : Option Arguments
  argumentsKeywords : Option ArgumentsKeywords

inductive LazyPayloadEncoding where
  | json
  | messagePack
  | cbor
  /-- One application FlatBuffer, carried as a packed value. -/
  | flatbuffers
  deriving DecidableEq

abbrev PayloadListDecoder := List UInt8 → Except PayloadError Arguments

abbrev PayloadMapDecoder := List UInt8 → Except PayloadError ArgumentsKeywords

abbrev PackedPayloadDecoder := List UInt8 → Except PayloadError MaterializedPayloadView

/-- A payload view that delays decoding until an application reads its values; one constructor for
each factory. -/
inductive LazyMessagePayload where
  /-- Separately encoded positional and keyword data. -/
  | encoded (transparentBinaryPayload : Option (List UInt8))
      (encoding : Option LazyPayloadEncoding)
      (argumentsBytes argumentsKeywordsBytes : Option (List UInt8))
      (argumentsDecoder : Option PayloadListDecoder)
      (argumentsKeywordsDecoder : Option PayloadMapDecoder)
      (arguments : Option Arguments) (argumentsKeywords : Option ArgumentsKeywords)
  /-- One packed payload passthru value. -/
  | packed (transparentBinaryPayload : Option (List UInt8))
      (encoding : Option LazyPayloadEncoding) (packedPayloadBytes : List UInt8)
      (packedPayloadDecoder : PackedPayloadDecoder) (pptDecoded : Bool)
  /-- Materialized positional and keyword values. -/
  | materialized (transparentBinaryPayload : Option (List UInt8))
      (encoding : Option LazyPayloadEncoding) (arguments : Option Arguments)
      (argumentsKeywords : Option ArgumentsKeywords) (pptDecoded : Bool)
  /-- Application values produced on first access; `value` is what the loader gives. -/
  | deferred (encoding : Option LazyPayloadEncoding)
      (value : Except PayloadError MaterializedPayloadView)

namespace LazyMessagePayload

def transparentBinaryPayload : LazyMessagePayload → Option (List UInt8)
  | encoded t _ _ _ _ _ _ _ => t
  | packed t _ _ _ _ => t
  | materialized t _ _ _ _ => t
  | deferred _ _ => none

def encoding : LazyMessagePayload → Option LazyPayloadEncoding
  | encoded _ e _ _ _ _ _ _ => e
  | packed _ e _ _ _ => e
  | materialized _ e _ _ _ => e
  | deferred e _ => e

def argumentsBytes : LazyMessagePayload → Option (List UInt8)
  | encoded _ _ a _ _ _ _ _ => a
  | _ => none

def argumentsKeywordsBytes : LazyMessagePayload → Option (List UInt8)
  | encoded _ _ _ k _ _ _ _ => k
  | _ => none

def packedPayloadBytes : LazyMessagePayload → Option (List UInt8)
  | packed _ _ bytes _ _ => some bytes
  | _ => none

/-- Positional arguments, decoded when necessary. -/
def arguments : LazyMessagePayload → Except PayloadError (Option Arguments)
  | encoded _ _ (some bytes) _ (some decoder) _ none _ => (decoder bytes).map some
  | encoded _ _ _ _ _ _ arguments _ => .ok arguments
  | packed _ _ bytes decoder _ => (decoder bytes).map (·.arguments)
  | materialized _ _ arguments _ _ => .ok arguments
  | deferred _ value => value.map (·.arguments)

/-- Keyword arguments, decoded when necessary. -/
def argumentsKeywords : LazyMessagePayload → Except PayloadError (Option ArgumentsKeywords)
  | encoded _ _ _ (some bytes) _ (some decoder) _ none => (decoder bytes).map some
  | encoded _ _ _ _ _ _ _ keywords => .ok keywords
  | packed _ _ bytes decoder _ => (decoder bytes).map (·.argumentsKeywords)
  | materialized _ _ _ keywords _ => .ok keywords
  | deferred _ value => value.map (·.argumentsKeywords)

/-- Copies what the view retains; a deferred value is evaluated. -/
def toOwned : LazyMessagePayload → Except PayloadError LazyMessagePayload
  | deferred e value => value.map fun v => materialized none e v.arguments v.argumentsKeywords true
  | payload => .ok payload

end LazyMessagePayload

/-! ### Payload passthru -/

/-- A payload serializer; a throw is an error, and `deserializePPT` may give `null`. -/
structure PPTSerializer where
  serializePPT : MaterializedPayloadView → Except PayloadError (List UInt8)
  deserializePPT : List UInt8 → Except PayloadError (Option MaterializedPayloadView)

/-- What is configured for packed payloads: the codecs of three formats, and the unpacking of the
attached provider for end-to-end encryption. -/
structure PPTCodecs where
  json : PPTSerializer
  cbor : PPTSerializer
  msgpack : PPTSerializer
  unpackE2EEPayload : Option Arguments → PPTOptions → Except PayloadError MaterializedPayloadView

/-- The serializer of an application FlatBuffer: one byte buffer, which it does not interpret. -/
def flatbuffersSerializer : PPTSerializer where
  serializePPT payload :=
    match payload.argumentsKeywords, payload.arguments with
    | none, some [.bytes bytes] =>
        if bytes.length > 64 * 1024 * 1024 then
          .error (.argument "FlatBuffers PPT payload exceeds the byte limit")
        else .ok bytes
    | _, _ =>
        .error (.unsupported "Typed FlatBuffers PPT requires a single application byte buffer")
  deserializePPT bytes :=
    if bytes.length > 64 * 1024 * 1024 then
      .error (.format "FlatBuffers PPT payload exceeds the byte limit")
    else .ok (some ⟨some [.bytes bytes], none⟩)

namespace PPTPayload

def serializerForName (codecs : PPTCodecs) : Option String → Option PPTSerializer
  | some "json" => some codecs.json
  | some "cbor" => some codecs.cbor
  | some "msgpack" => some codecs.msgpack
  | some "flatbuffers" => some flatbuffersSerializer
  | _ => none

def argumentsValue : Option Arguments → PayloadValue
  | none => .null
  | some items => .list items

def argumentsKeywordsValue : Option ArgumentsKeywords → PayloadValue
  | none => .null
  | some entries => .map entries

/-- Packs a payload into the one item of the wire arguments. -/
def packPPTPayload (codecs : PPTCodecs) (payload : MaterializedPayloadView) (options : PPTOptions) :
    Except PayloadError Arguments :=
  match serializerForName codecs options.pptSerializer with
  | some serializer => (serializer.serializePPT payload).map fun bytes => [.bytes bytes]
  | none =>
      .ok [.map [("args", argumentsValue payload.arguments),
        ("kwargs", argumentsKeywordsValue payload.argumentsKeywords)]]

/-- The item as a byte; `Uint8List.fromList` keeps the low eight bits. -/
def byteOfItem : PayloadValue → Except PayloadError UInt8
  | .int n => .ok (UInt8.ofNat (n % 256).toNat)
  | _ => .error .type

def coerceBinaryPayload : PayloadValue → Except PayloadError (List UInt8)
  | .bytes bytes => .ok bytes
  | .list items => items.mapM byteOfItem
  | _ => .error (.argument "PPT payload must be a byte sequence")

/-- `value[key]`, null where the map has no such key. -/
def member (key : String) : PayloadValue → Except PayloadError PayloadValue
  | .map entries => .ok (((entries.find? (·.1 == key)).map (·.2)).getD .null)
  | _ => .error .type

def asArguments : PayloadValue → Except PayloadError (Option Arguments)
  | .null => .ok none
  | .list items => .ok (some items)
  | _ => .error .type

def asArgumentsKeywords : PayloadValue → Except PayloadError (Option ArgumentsKeywords)
  | .null => .ok none
  | .map entries => .ok (some entries)
  | _ => .error .type

def unpackPPTPayload (codecs : PPTCodecs) (arguments : Option Arguments) (details : PPTOptions) :
    Except PayloadError MaterializedPayloadView :=
  match arguments with
  | none => .ok ⟨none, none⟩
  | some [] => .error .type
  | some (first :: _) =>
      match serializerForName codecs details.pptSerializer with
      | some serializer => do
          let bytes ← coerceBinaryPayload first
          let decoded ← serializer.deserializePPT bytes
          .ok (decoded.getD ⟨none, none⟩)
      | none => do
          let arguments ← member "args" first >>= asArguments
          let argumentsKeywords ← member "kwargs" first >>= asArgumentsKeywords
          .ok ⟨arguments, argumentsKeywords⟩

end PPTPayload

/-- `_isBinaryPayloadValue`. -/
def isBinaryPayloadValue : PayloadValue → Bool
  | .bytes _ => true
  | .list items => items.all fun
      | .int _ => true
      | _ => false
  | _ => false

/-- `_payloadLooksPackedForPpt`. -/
def payloadLooksPackedForPpt (arguments : Option Arguments)
    (argumentsKeywords : Option ArgumentsKeywords) (ppt : PPTOptions) : Bool :=
  match ppt.pptScheme, arguments with
  | some scheme, some (first :: rest) =>
      if argumentsKeywords.any (!·.isEmpty) then false
      else if scheme = "wamp" then isBinaryPayloadValue first
      else if ppt.pptSerializer ∈
          [some "json", some "msgpack", some "cbor", some "flatbuffers"] then
        isBinaryPayloadValue first
      else match first with
        | .map _ => rest.isEmpty
        | _ => false
  | _, _ => false

def decodePayloadView (codecs : PPTCodecs) (arguments : Option Arguments)
    (argumentsKeywords : Option ArgumentsKeywords) (ppt : PPTOptions) :
    Except PayloadError MaterializedPayloadView :=
  match ppt.pptScheme with
  | none => .ok ⟨arguments, argumentsKeywords⟩
  | some scheme =>
      if scheme = "wamp" then codecs.unpackE2EEPayload arguments ppt
      else PPTPayload.unpackPPTPayload codecs arguments ppt

/-! ### Messages -/

/-- The payload fields of `AbstractMessageWithPayload`. -/
structure PayloadMessage where
  transparentBinaryPayload : Option (List UInt8) := none
  /-- `_arguments`. -/
  ownArguments : Option Arguments := none
  /-- `_argumentsKeywords`. -/
  ownArgumentsKeywords : Option ArgumentsKeywords := none
  encodedArguments : Option (List UInt8) := none
  encodedArgumentsKeywords : Option (List UInt8) := none
  argumentsDecoder : Option PayloadListDecoder := none
  argumentsKeywordsDecoder : Option PayloadMapDecoder := none
  lazyPayloadEncoding : Option LazyPayloadEncoding := none
  pptPayloadDecoded : Bool := false
  retainedLazyPayload : Option LazyMessagePayload := none

namespace PayloadMessage

/-- What an access gives, and the message after it. -/
abbrev Reading (α : Type) := Except PayloadError α × PayloadMessage

/-- The next statement, unless this one threw. -/
def Reading.andThen (r : Reading Unit) (next : PayloadMessage → Reading Unit) : Reading Unit :=
  match r with
  | (.ok (), m) => next m
  | (.error e, m) => (.error e, m)

/-- The message keeps what was decoded. -/
def keepArguments (m : PayloadMessage) (value : Arguments) : PayloadMessage :=
  { m with ownArguments := some value }

def keepArgumentsKeywords (m : PayloadMessage) (value : ArgumentsKeywords) : PayloadMessage :=
  { m with ownArgumentsKeywords := some value }

/-- The message holds these values in place of what it held. -/
def holdView (m : PayloadMessage) (values : MaterializedPayloadView) : PayloadMessage :=
  { m with
    ownArguments := values.arguments
    ownArgumentsKeywords := values.argumentsKeywords }

def materializeDeferredPayloadIfNeeded (m : PayloadMessage) : Except PayloadError PayloadMessage :=
  match m.retainedLazyPayload with
  | some (.deferred _ value) => value.map m.holdView
  | _ => .ok m

/-- `_arguments ?? _decodeArgumentsBytes()`, keeping what was decoded. -/
def rawArguments (m : PayloadMessage) : Reading (Option Arguments) :=
  match m.ownArguments, m.encodedArguments, m.argumentsDecoder with
  | none, some bytes, some decoder =>
      match decoder bytes with
      | .ok value => (.ok (some value), m.keepArguments value)
      | .error e => (.error e, m)
  | own, _, _ => (.ok own, m)

def rawArgumentsKeywords (m : PayloadMessage) : Reading (Option ArgumentsKeywords) :=
  match m.ownArgumentsKeywords, m.encodedArgumentsKeywords, m.argumentsKeywordsDecoder with
  | none, some bytes, some decoder =>
      match decoder bytes with
      | .ok value => (.ok (some value), m.keepArgumentsKeywords value)
      | .error e => (.error e, m)
  | own, _, _ => (.ok own, m)

/-- The getter `arguments` of `AbstractMessageWithPayload`. -/
def arguments (m : PayloadMessage) : Reading (Option Arguments) :=
  match m.materializeDeferredPayloadIfNeeded with
  | .ok m => m.rawArguments
  | .error e => (.error e, m)

def argumentsKeywords (m : PayloadMessage) : Reading (Option ArgumentsKeywords) :=
  match m.materializeDeferredPayloadIfNeeded with
  | .ok m => m.rawArgumentsKeywords
  | .error e => (.error e, m)

def setArguments (m : PayloadMessage) (value : Option Arguments) : Reading Unit :=
  match m.materializeDeferredPayloadIfNeeded with
  | .error e => (.error e, m)
  | .ok m =>
      (.ok (), { m with
        ownArguments := value
        encodedArguments := none
        argumentsDecoder := none
        pptPayloadDecoded := false
        retainedLazyPayload := none })

def setArgumentsKeywords (m : PayloadMessage) (value : Option ArgumentsKeywords) : Reading Unit :=
  match m.materializeDeferredPayloadIfNeeded with
  | .error e => (.error e, m)
  | .ok m =>
      (.ok (), { m with
        ownArgumentsKeywords := value
        encodedArgumentsKeywords := none
        argumentsKeywordsDecoder := none
        pptPayloadDecoded := false
        retainedLazyPayload := none })

/-- Positional arguments in the original wire-level payload view. -/
def wireArguments (m : PayloadMessage) : Reading (Option Arguments) :=
  match m.pptPayloadDecoded, m.retainedLazyPayload with
  | true, some payload => (payload.arguments, m)
  | _, _ => m.rawArguments

/-- Keyword arguments in the original wire-level payload view. -/
def wireArgumentsKeywords (m : PayloadMessage) : Reading (Option ArgumentsKeywords) :=
  match m.pptPayloadDecoded, m.retainedLazyPayload with
  | true, some payload => (payload.argumentsKeywords, m)
  | _, _ => m.rawArgumentsKeywords

/-- The view that is made of the message's own fields. -/
def ownLazyPayload (m : PayloadMessage) : LazyMessagePayload :=
  if (m.encodedArguments.isSome && m.argumentsDecoder.isSome) ||
      (m.encodedArgumentsKeywords.isSome && m.argumentsKeywordsDecoder.isSome) then
    .encoded m.transparentBinaryPayload m.lazyPayloadEncoding m.encodedArguments
      m.encodedArgumentsKeywords m.argumentsDecoder m.argumentsKeywordsDecoder
      (if m.encodedArguments.isNone then m.ownArguments else none)
      (if m.encodedArgumentsKeywords.isNone then m.ownArgumentsKeywords else none)
  else
    .materialized m.transparentBinaryPayload m.lazyPayloadEncoding m.ownArguments
      m.ownArgumentsKeywords false

/-- Exposes the message as a lazy payload view. -/
def toLazyPayload (m : PayloadMessage) : Reading LazyMessagePayload :=
  match m.retainedLazyPayload with
  | some payload => (.ok payload, m)
  | none =>
      if m.pptPayloadDecoded then
        match m.arguments with
        | (.error e, m) => (.error e, m)
        | (.ok arguments, m) =>
            match m.argumentsKeywords with
            | (.error e, m) => (.error e, m)
            | (.ok argumentsKeywords, m) =>
                (.ok (.materialized m.transparentBinaryPayload m.lazyPayloadEncoding arguments
                  argumentsKeywords true), m)
      else (.ok m.ownLazyPayload, m)

/-- Sets encoded payload slices that can be lazily decoded on demand. -/
def setLazyPayload (m : PayloadMessage) (argumentsBytes : Option (List UInt8))
    (argumentsDecoder : Option PayloadListDecoder) (argumentsKeywordsBytes : Option (List UInt8))
    (argumentsKeywordsDecoder : Option PayloadMapDecoder) (encoding : Option LazyPayloadEncoding) :
    PayloadMessage :=
  let m := { m with
    lazyPayloadEncoding := encoding
    pptPayloadDecoded := false
    retainedLazyPayload := none }
  let m := if argumentsBytes.isSome && argumentsDecoder.isSome then
      { m with
        encodedArguments := argumentsBytes
        argumentsDecoder := argumentsDecoder
        ownArguments := none }
    else m
  if argumentsKeywordsBytes.isSome && argumentsKeywordsDecoder.isSome then
    { m with
      encodedArgumentsKeywords := argumentsKeywordsBytes
      argumentsKeywordsDecoder := argumentsKeywordsDecoder
      ownArgumentsKeywords := none }
  else m

/-- Retains `payload` as the wire-level source for future forwarding. -/
def retainLazyPayload (m : PayloadMessage) (payload : LazyMessagePayload) : PayloadMessage :=
  { m with
    retainedLazyPayload := some payload
    lazyPayloadEncoding := m.lazyPayloadEncoding.or payload.encoding }

/-- `(_) => payload.arguments ?? const []`. -/
def viewArgumentsDecoder (payload : LazyMessagePayload) : PayloadListDecoder :=
  fun _ => payload.arguments.map (·.getD [])

/-- `(_) => payload.argumentsKeywords ?? const \x7b\x7d`. -/
def viewArgumentsKeywordsDecoder (payload : LazyMessagePayload) : PayloadMapDecoder :=
  fun _ => payload.argumentsKeywords.map (·.getD [])

/-- Rehydrates a message from a lazy payload view.  A packed payload is restored as the outer
arguments. -/
def restoreLazyPayload (m : PayloadMessage) (payload : LazyMessagePayload) : Reading Unit :=
  let m := { m with
    transparentBinaryPayload := payload.transparentBinaryPayload
    lazyPayloadEncoding := payload.encoding }
  match payload with
  | .deferred _ _ =>
      (.ok (), retainLazyPayload
        { m with
          ownArguments := none
          ownArgumentsKeywords := none
          encodedArguments := none
          encodedArgumentsKeywords := none
          argumentsDecoder := none
          argumentsKeywordsDecoder := none
          pptPayloadDecoded := true } payload)
  | .packed _ _ bytes _ _ =>
      (m.setArguments (some [.bytes bytes])).andThen fun m =>
        (m.setArgumentsKeywords none).andThen fun m => (.ok (), m.retainLazyPayload payload)
  | .materialized _ _ arguments argumentsKeywords pptDecoded =>
      ((m.setLazyPayload none none none none payload.encoding).setArguments arguments).andThen
        fun m => (m.setArgumentsKeywords argumentsKeywords).andThen fun m =>
          (.ok (), { m with pptPayloadDecoded := pptDecoded }.retainLazyPayload payload)
  | .encoded _ _ argumentsBytes argumentsKeywordsBytes _ _ arguments argumentsKeywords =>
      let m := m.setLazyPayload argumentsBytes
        (argumentsBytes.map fun _ => viewArgumentsDecoder payload) argumentsKeywordsBytes
        (argumentsKeywordsBytes.map fun _ => viewArgumentsKeywordsDecoder payload)
        payload.encoding
      Reading.andThen
        (if argumentsBytes.isSome then (.ok (), m) else m.setArguments arguments) fun m =>
          Reading.andThen
            (if argumentsKeywordsBytes.isSome then (.ok (), m)
              else m.setArgumentsKeywords argumentsKeywords) fun m =>
                (.ok (), m.retainLazyPayload payload)

/-- The values are the unpacked ones; `payload` is their wire form. -/
def markUnpacked (m : PayloadMessage) (payload : LazyMessagePayload) : PayloadMessage :=
  { m.retainLazyPayload payload with pptPayloadDecoded := true }

/-- Unpacks a packed payload in place; the wire form is retained. -/
def ensureDecodedPayloadView (codecs : PPTCodecs) (ppt : PPTOptions) (m : PayloadMessage) :
    Reading Unit :=
  if ppt.pptScheme.isNone || m.pptPayloadDecoded then (.ok (), m)
  else
    match m.toLazyPayload with
    | (.error e, m) => (.error e, m)
    | (.ok retainedPayload, m) =>
        match m.rawArguments with
        | (.error e, m) => (.error e, m)
        | (.ok rawArguments, m) =>
            match m.rawArgumentsKeywords with
            | (.error e, m) => (.error e, m)
            | (.ok rawArgumentsKeywords, m) =>
                if payloadLooksPackedForPpt rawArguments rawArgumentsKeywords ppt then
                  match decodePayloadView codecs rawArguments rawArgumentsKeywords ppt with
                  | .error e => (.error e, m)
                  | .ok decoded => (.ok (), (m.holdView decoded).markUnpacked retainedPayload)
                else (.ok (), m.markUnpacked retainedPayload)

/-- The getter `arguments` of the messages that unpack: `Event`, `Result` and `Invocation`. -/
def decodedArguments (codecs : PPTCodecs) (ppt : PPTOptions) (m : PayloadMessage) :
    Reading (Option Arguments) :=
  match m.ensureDecodedPayloadView codecs ppt with
  | (.error e, m) => (.error e, m)
  | (.ok (), m) => m.arguments

def decodedArgumentsKeywords (codecs : PPTCodecs) (ppt : PPTOptions) (m : PayloadMessage) :
    Reading (Option ArgumentsKeywords) :=
  match m.ensureDecodedPayloadView codecs ppt with
  | (.error e, m) => (.error e, m)
  | (.ok (), m) => m.argumentsKeywords

/-- The last statement of `copyPayloadTo`. -/
def copyRetainedTo (m target : PayloadMessage) : Reading Unit :=
  match m.retainedLazyPayload with
  | none => (.ok (), target)
  | some payload =>
      match payload.toOwned with
      | .ok owned => (.ok (), target.retainLazyPayload owned)
      | .error e => (.error e, target)

/-- Transfers the message's payload to another message, which is the one returned.  The values
that it gets are copies. -/
def copyPayloadTo (m target : PayloadMessage) : Reading Unit :=
  let target := { target with transparentBinaryPayload := m.transparentBinaryPayload }
  if (m.encodedArguments.isSome && m.argumentsDecoder.isSome) ||
      (m.encodedArgumentsKeywords.isSome && m.argumentsKeywordsDecoder.isSome) then
    let target := target.setLazyPayload m.encodedArguments m.argumentsDecoder
      m.encodedArgumentsKeywords m.argumentsKeywordsDecoder m.lazyPayloadEncoding
    Reading.andThen
      (if m.encodedArguments.isNone then target.setArguments m.ownArguments
        else (.ok (), target)) fun target =>
        Reading.andThen
          (if m.encodedArgumentsKeywords.isNone then
              target.setArgumentsKeywords m.ownArgumentsKeywords
            else (.ok (), target)) fun target =>
              m.copyRetainedTo { target with pptPayloadDecoded := m.pptPayloadDecoded }
  else
    let target := { target with lazyPayloadEncoding := m.lazyPayloadEncoding }
    (target.setArguments m.ownArguments).andThen fun target =>
      (target.setArgumentsKeywords m.ownArgumentsKeywords).andThen fun target =>
        m.copyRetainedTo { target with pptPayloadDecoded := m.pptPayloadDecoded }

end PayloadMessage

end Connectanum
