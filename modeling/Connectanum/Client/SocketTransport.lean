import Connectanum.Lib.BigEndian
import Connectanum.Native.Frame

/-!
# Client — SocketTransport

The RawSocket transport of the Dart client (`SocketTransport`, `SocketHelper`): the negotiation of
the message length, and the frames that come in after it.

The transport gets the bytes in chunks as they arrive (`consumeInboundChunk`).  What it puts on the
socket is kept in `sent`, in order.  A use of the socket after `close` is a null check that throws.
-/

namespace Connectanum

namespace RawSocket

open Wamp (Bytes)

/-! ### SocketHelper -/

def metaHeader : UInt8 := 0x7F

def upgradeHeader : UInt8 := 0x3F

def messageWamp : UInt8 := 0

def messagePing : UInt8 := 1

def messagePong : UInt8 := 2

def errorSerializerNotSupported : Nat := 1

def errorMessageLengthExceeded : Nat := 2

def errorUseOfReservedBits : Nat := 3

def maxMessageLengthExponent : Nat := 24

def maxMessageLength : Nat := 2 ^ maxMessageLengthExponent

def maxMessageLengthConnectanum : Nat := 2 ^ 30

def getInitialHandshake (messageLengthExponent serializerType : Nat) : Bytes :=
  [metaHeader, UInt8.ofNat (min 15 (messageLengthExponent - 9) * 16 + serializerType), 0, 0]

def getUpgradeHandshake (messageLengthExponent : Nat) : Bytes :=
  [upgradeHeader, UInt8.ofNat (min 15 (messageLengthExponent - 25))]

def getError (errorCode : Nat) : Bytes := [metaHeader, UInt8.ofNat (errorCode * 16), 0, 0]

/-- The high half of the second byte when the low half, where a serializer stands, is zero. -/
def getErrorNumber : Bytes → Nat
  | first :: error :: _ =>
      if first = upgradeHeader then 0
      else if error.toNat % 16 ≠ 0 then 0
      else error.toNat / 16
  | _ => 0

/-- `none`: the length is refused. -/
def buildMessageHeader (headerType : UInt8) (messageLength : Nat) (upgradedProtocol : Bool) :
    Option Bytes :=
  if upgradedProtocol then
    if messageLength > maxMessageLengthConnectanum then none
    else some (headerType :: BigEndian.write 4 messageLength)
  else if messageLength > maxMessageLength then none
  else some (headerType :: BigEndian.write 3 messageLength)

def getPong (pingLength : Nat) (isUpgradedProtocol : Bool) : Option Bytes :=
  buildMessageHeader messagePong pingLength isUpgradedProtocol

def isValidMessage (message : Bytes) : Bool :=
  [some messageWamp, some messagePing, some messagePong].contains message.head?

def isRawSocket (message : Bytes) : Bool := message.head? == some metaHeader

def isUpgrade (message : Bytes) : Bool := message.head? == some upgradeHeader

def getMaxMessageSizeExponent (message : Bytes) : Nat := (message.getD 1 0).toNat / 16 + 9

def getMaxUpgradeMessageSizeExponent (message : Bytes) : Nat := (message.getD 1 0).toNat % 16 + 25

/-- The length in the header at the start of the bytes. -/
def getPayloadLength (message : Bytes) (headerLength : Nat) : Nat :=
  if headerLength ≤ message.length then BigEndian.read ((message.drop 1).take (headerLength - 1))
  else 0

/-! ### State -/

/-- The serializer and the session profile of the transport. -/
structure Codec (σ μ : Type) where
  /-- `deserialize`, and `acceptIncoming` of the profile; `none` when one of them throws or there is
  no message. -/
  accept : σ → Bytes → Option (μ × σ)
  isGoodbye : μ → Bool

inductive Handshake where
  | pending
  | completed
  | failed (errorNumber : Nat)
  deriving DecidableEq

/-- `_inboundFrameBuffer`, with its first `_inboundFrameLength` bytes. -/
structure InboundFrame where
  length : Nat
  filled : Bytes

structure SocketTransport (σ : Type) where
  messageLengthExponent : Nat
  serializerType : Nat
  profile : σ
  messageLength : Option Nat := none
  upgradeRequested : Bool := false
  inboundBuffer : Bytes := []
  inboundFrame : Option InboundFrame := none
  handshake : Handshake := .pending
  /-- `_socket` is not null. -/
  socket : Bool := true
  connectionLost : Bool := false
  goodbyeSent : Bool := false
  goodbyeReceived : Bool := false
  /-- `_pingCompleter`: a ping that waits, or the payload of its pong. -/
  ping : Option (Option Bytes) := none
  sent : List Bytes := []

namespace SocketTransport

variable {σ μ : Type}

def isUpgradedProtocol (t : SocketTransport σ) : Bool :=
  match t.messageLength with
  | some n => n > maxMessageLength
  | none => false

def headerLength (t : SocketTransport σ) : Nat := if t.isUpgradedProtocol then 5 else 4

/-- `_send0`; `none`: the socket is null. -/
def send0 (t : SocketTransport σ) (data : Bytes) : Option (SocketTransport σ) :=
  if t.socket then some { t with sent := t.sent ++ [data] } else none

def close (t : SocketTransport σ) : SocketTransport σ := { t with socket := false }

def sendProtocolError (t : SocketTransport σ) (errorCode : Nat) : Option (SocketTransport σ) :=
  ({ t with goodbyeSent := true }.send0 (getError errorCode)).map close

/-! ### Negotiation -/

def handleError (t : SocketTransport σ) (errorNumber : Nat) : SocketTransport σ :=
  { t with handshake := .failed errorNumber }.close

def sendInitialHandshake (t : SocketTransport σ) : Option (SocketTransport σ) :=
  t.send0 (getInitialHandshake t.messageLengthExponent t.serializerType)

/-- `_consumeNegotiation`: what is left of the bytes once the handshake is complete. -/
def consumeNegotiation (t : SocketTransport σ) (message : Bytes) :
    Option (Bytes × SocketTransport σ) :=
  if t.handshake ≠ .pending then some (message, t)
  else if message = [] then some (message, t)
  else if isUpgrade message then
    if !t.upgradeRequested then some ([], t.handleError errorUseOfReservedBits)
    else if message.length < 2 then some ([], { t with inboundBuffer := message })
    else
      let exponent := min (getMaxUpgradeMessageSizeExponent message) t.messageLengthExponent
      some (message.drop 2,
        { t with messageLength := some (2 ^ exponent), upgradeRequested := false,
                 handshake := .completed })
  else if message.length < 4 then some ([], { t with inboundBuffer := message })
  else
    let handshake := message.take 4
    let errorNumber := getErrorNumber handshake
    if errorNumber ≠ 0 then some ([], t.handleError errorNumber)
    else if !isRawSocket handshake then some (message, t)
    else if (handshake.getD 1 0).toNat % 16 ≠ t.serializerType then
      some ([], t.handleError errorSerializerNotSupported)
    else if getMaxMessageSizeExponent handshake = maxMessageLengthExponent ∧
        t.messageLengthExponent > maxMessageLengthExponent then
      ({ t with upgradeRequested := true }.send0
          (getUpgradeHandshake t.messageLengthExponent)).map fun (t : SocketTransport σ) =>
        ([], if message.length > 4 then { t with inboundBuffer := message.drop 4 } else t)
    else
      let exponent := min (getMaxMessageSizeExponent handshake) t.messageLengthExponent
      some (message.drop 4,
        { t with messageLength := some (2 ^ exponent), handshake := .completed })

/-! ### Frames -/

/-- The loop of `_splitMessages`, in at most `rounds` rounds: the frames that are complete. -/
def splitMessages : Nat → SocketTransport σ → Bytes → Option (List Bytes × SocketTransport σ)
  | 0, t, _ => some ([], t)
  | rounds + 1, t, data =>
      if data = [] then some ([], { t with inboundBuffer := [] })
      else if data.length < t.headerLength then some ([], { t with inboundBuffer := data })
      else
        let messageLength := getPayloadLength data t.headerLength
        match t.messageLength with
        | none => none
        | some limit =>
            if messageLength > limit then
              (t.sendProtocolError errorMessageLengthExceeded).map fun t => ([], t)
            else
              let frameLength := t.headerLength + messageLength
              if frameLength ≤ data.length then
                (splitMessages rounds t (data.drop frameLength)).map fun (messages, t) =>
                  (data.take frameLength :: messages, t)
              else
                some ([], { t with inboundBuffer := [], inboundFrame := some ⟨frameLength, data⟩ })

/-- What one frame leads to. -/
inductive Handled (σ μ : Type) where
  /-- The next frame is handled. -/
  | next (message : Option μ) (t : SocketTransport σ)
  /-- The loop ends. -/
  | stop (t : SocketTransport σ)
  | threw (t : SocketTransport σ)

def handlePing (t : SocketTransport σ) (payload : Bytes) : Option (SocketTransport σ) := do
  let pong ← getPong payload.length t.isUpgradedProtocol
  let t ← t.send0 pong
  if payload = [] then pure t else t.send0 payload

/-- The body of the loop of `_handleMessage`. -/
def handleFrame (codec : Codec σ μ) (t : SocketTransport σ) (message : Bytes) : Handled σ μ :=
  let messageType := message.getD 0 0
  let payload := message.drop t.headerLength
  if messageType = messageWamp then
    match codec.accept t.profile payload with
    | none => .threw t
    | some (deserializedMessage, profile) =>
        let t := { t with profile }
        .next (some deserializedMessage)
          (if codec.isGoodbye deserializedMessage then { t with goodbyeReceived := true } else t)
  else if messageType = messagePing then
    match t.handlePing payload with
    | none => .threw t
    | some t => .next none t
  else if messageType = messagePong then
    .next none (if t.ping = some none then { t with ping := some (some payload) } else t)
  else
    match t.sendProtocolError errorUseOfReservedBits with
    | none => .threw t
    | some t => .stop t

def handleInboundMessageError (t : SocketTransport σ) : SocketTransport σ :=
  { t.close with connectionLost := true }

def handleFrames (codec : Codec σ μ) :
    SocketTransport σ → List Bytes → List μ × SocketTransport σ
  | t, [] => ([], t)
  | t, message :: rest =>
      match handleFrame codec t message with
      | .next deserialized t =>
          let (messages, t) := handleFrames codec t rest
          (deserialized.toList ++ messages, t)
      | .stop t => ([], t)
      | .threw t => ([], t.handleInboundMessageError)

/-- `_handleMessage`.  A round of `_splitMessages` takes a header at least. -/
def handleMessage (codec : Codec σ μ) (t : SocketTransport σ) (inboundData : Bytes) :
    List μ × SocketTransport σ :=
  match splitMessages (inboundData.length + 1) t inboundData with
  | none => ([], t.handleInboundMessageError)
  | some (messages, t) => handleFrames codec t messages

/-! ### Chunks -/

def mergeInboundChunk (t : SocketTransport σ) (message : Bytes) : Bytes × SocketTransport σ :=
  (t.inboundBuffer ++ message, { t with inboundBuffer := [] })

/-- `_consumeInboundChunk` when there is no frame buffer; `none`: an exception leaves it. -/
def consumeFresh (codec : Codec σ μ) (t : SocketTransport σ) (message : Bytes) :
    Option (List μ × SocketTransport σ) := do
  let (inboundData, t) := t.mergeInboundChunk message
  let (negotiatedData, t) ← t.consumeNegotiation inboundData
  if negotiatedData = [] then pure ([], t)
  else if negotiatedData.length < t.headerLength then
    pure ([], { t with inboundBuffer := negotiatedData })
  else if !isValidMessage negotiatedData then
    -- `_assertValidMessage` reports the type, and the caller drops the data
    let t ← t.send0 (getError errorUseOfReservedBits)
    pure ([], t)
  else
    let limit ← t.messageLength
    let payloadLength := getPayloadLength negotiatedData t.headerLength
    if payloadLength > limit then
      let t ← t.sendProtocolError errorMessageLengthExceeded
      pure ([], t)
    else
      let frameLength := t.headerLength + payloadLength
      if negotiatedData.length < frameLength then
        pure ([], { t with inboundBuffer := [], inboundFrame := some ⟨frameLength, negotiatedData⟩ })
      else pure (t.handleMessage codec negotiatedData)

def consumeInboundChunk (codec : Codec σ μ) (t : SocketTransport σ) (message : Bytes) :
    Option (List μ × SocketTransport σ) :=
  match t.inboundFrame with
  | none => t.consumeFresh codec message
  | some frame =>
      let take := min (frame.length - frame.filled.length) message.length
      let filled := frame.filled ++ message.take take
      if filled.length < frame.length then
        some ([], { t with inboundFrame := some { frame with filled } })
      else
        let (messages, t) := { t with inboundFrame := none }.handleMessage codec filled
        if take < message.length ∧ !t.connectionLost then
          -- the frame buffer is null now
          (t.consumeFresh codec (message.drop take)).map fun (more, t) => (messages ++ more, t)
        else some (messages, t)

/-- What has come of the chunks so far. -/
structure Received (σ μ : Type) where
  transport : SocketTransport σ
  messages : List μ := []
  /-- An exception went to the listener of the stream. -/
  threw : Bool := false

/-- The function of `receive` on one chunk: a transport that is closed ignores it. -/
def receive (codec : Codec σ μ) (r : Received σ μ) (chunk : Bytes) : Received σ μ :=
  if !r.transport.socket then r
  else
    match r.transport.consumeInboundChunk codec chunk with
    | none => { r with threw := true }
    | some (messages, transport) => { r with transport, messages := r.messages ++ messages }

def receiveAll (codec : Codec σ μ) (t : SocketTransport σ) (chunks : List Bytes) : Received σ μ :=
  chunks.foldl (receive codec) { transport := t }

end SocketTransport

end RawSocket

end Connectanum
