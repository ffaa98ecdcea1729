import Connectanum.Client.SocketTransport

/-!
# Client — Negotiate

The RawSocket handshake of the native transport (`rawsocket.rs`): the listener (`negotiate`) and the
native client (`connect`).

Both read a fixed number of bytes at a time, so each is a machine that takes one byte after the
other; what it writes comes with the step.  The machines are asked for no byte once they have
failed.
-/

namespace Connectanum

namespace RawSocket

open Wamp (Bytes Serializer)

def minRawsocketSizeExponent : Nat := 9

def connectanumMaxRawsocketSizeExponent : Nat := 30

def serializerToWireId : Serializer → Nat
  | .json => 1
  | .messagePack => 2
  | .cbor => 3
  | .ubjson => 4
  | .flatbuffers => 5

def serializerFromWireId : Nat → Option Serializer
  | 1 => some .json
  | 2 => some .messagePack
  | 3 => some .cbor
  | 4 => some .ubjson
  | 5 => some .flatbuffers
  | _ => none

theorem serializerFromWireId_toWireId (serializer : Serializer) :
    serializerFromWireId (serializerToWireId serializer) = some serializer := by
  cases serializer <;> rfl

theorem serializerToWireId_pos_lt (serializer : Serializer) :
    0 < serializerToWireId serializer ∧ serializerToWireId serializer < 16 := by
  cases serializer <;> decide

/-- `send_error` -/
def sendError (code : Nat) : Bytes := getError code

/-! ### The listener -/

/-- Where `negotiate` is. -/
inductive Listener where
  /-- It reads the four bytes of a client. -/
  | hello (got : Bytes)
  /-- It has answered, and looks whether an upgrade comes. -/
  | probe (responseExponent : Nat) (got : Bytes)
  /-- It has returned: `maxMessageSizeExponent`, and what the session has to read so far. -/
  | opened (maxMessageSizeExponent : Nat) (received : Bytes)
  | failed
  deriving DecidableEq

namespace Listener

/-- The answer to the four bytes. -/
def greet (maxRawsocketSizeExponent : Nat) (magic options reserved reserved' : UInt8) :
    Listener × Bytes :=
  if magic ≠ metaHeader then (.failed, sendError errorUseOfReservedBits)
  else if reserved ≠ 0 ∨ reserved' ≠ 0 then (.failed, sendError errorUseOfReservedBits)
  else
    match serializerFromWireId (options.toNat % 16) with
    | none => (.failed, sendError errorSerializerNotSupported)
    | some _ =>
        let clientExponent := options.toNat / 16 + 9
        let desiredExponent := min maxRawsocketSizeExponent connectanumMaxRawsocketSizeExponent
        let responseExponent := min clientExponent (min desiredExponent 24)
        if responseExponent < minRawsocketSizeExponent then
          (.failed, sendError errorMessageLengthExceeded)
        else
          let responseByte :=
            UInt8.ofNat (min (responseExponent - 9) 15 * 16 + options.toNat % 16)
          (if desiredExponent > responseExponent ∧ clientExponent ≥ 24 then
              .probe responseExponent []
            else .opened responseExponent [],
            [metaHeader, responseByte, 0, 0])

/-- The two bytes after the answer: an upgrade, or the first bytes of the session, which go back
in front of what is still to read. -/
def upgrade (maxRawsocketSizeExponent responseExponent : Nat) (first second : UInt8) :
    Listener × Bytes :=
  if first = upgradeHeader then
    let desiredExponent := min maxRawsocketSizeExponent connectanumMaxRawsocketSizeExponent
    let clientUpgrade := second.toNat % 16 + 25
    let negotiatedUpgrade :=
      min (min desiredExponent clientUpgrade) connectanumMaxRawsocketSizeExponent
    if negotiatedUpgrade ≤ 24 then (.failed, sendError errorMessageLengthExceeded)
    else
      (.opened negotiatedUpgrade [],
        [upgradeHeader, UInt8.ofNat (min (negotiatedUpgrade - 25) 15)])
  else (.opened responseExponent [first, second], [])

/-- A byte arrives. -/
def read (maxRawsocketSizeExponent : Nat) : Listener → UInt8 → Listener × Bytes
  | .hello [magic, options, reserved], byte =>
      greet maxRawsocketSizeExponent magic options reserved byte
  | .hello got, byte => (.hello (got ++ [byte]), [])
  | .probe responseExponent [first], byte =>
      upgrade maxRawsocketSizeExponent responseExponent first byte
  | .probe responseExponent got, byte => (.probe responseExponent (got ++ [byte]), [])
  | .opened exponent received, byte => (.opened exponent (received ++ [byte]), [])
  | .failed, _ => (.failed, [])

/-- `handshake_timeout` passes.  A probe ends with what it has read. -/
def timeout : Listener → Listener
  | .hello _ => .failed
  | .probe responseExponent got => .opened responseExponent got
  | .opened exponent received => .opened exponent received
  | .failed => .failed

def waits : Listener → Bool
  | .hello _ | .probe _ _ => true
  | .opened _ _ | .failed => false

end Listener

/-! ### The native client -/

/-- Where `connect` is. -/
inductive Connector where
  | response (got : Bytes)
  | upgrade (got : Bytes)
  /-- It has returned, with what is left to read for the session. -/
  | opened (maxMessageSizeExponent : Nat) (received : Bytes)
  | failed
  deriving DecidableEq

namespace Connector

def requestedExponent (desiredExponent : Nat) : Nat :=
  min desiredExponent connectanumMaxRawsocketSizeExponent

/-- What `connect` writes first. -/
def header (serializer : Serializer) (desiredExponent : Nat) : Bytes :=
  let baseExponent := min (requestedExponent desiredExponent) 24
  [metaHeader,
    UInt8.ofNat (min (baseExponent - 9) 15 * 16 + serializerToWireId serializer), 0, 0]

/-- The four bytes of the response. -/
def answer (serializer : Serializer) (desiredExponent : Nat)
    (magic options reserved reserved' : UInt8) : Connector × Bytes :=
  if magic ≠ metaHeader then (.failed, [])
  else if reserved ≠ 0 ∨ reserved' ≠ 0 then (.failed, [])
  else if options.toNat % 16 = 0 then (.failed, [])
  else if serializerFromWireId (options.toNat % 16) ≠ some serializer then (.failed, [])
  else
    let finalExponent := options.toNat / 16 + 9
    if requestedExponent desiredExponent > 24 ∧ finalExponent ≥ 24 then
      (.upgrade [],
        [upgradeHeader, UInt8.ofNat (min (requestedExponent desiredExponent - 25) 15)])
    else (.opened finalExponent [], [])

/-- The two bytes of the answer to an upgrade. -/
def upgraded (first second : UInt8) : Connector :=
  if first = upgradeHeader then .opened (second.toNat % 16 + 25) [] else .failed

/-- A byte arrives. -/
def read (serializer : Serializer) (desiredExponent : Nat) :
    Connector → UInt8 → Connector × Bytes
  | .response [magic, options, reserved], byte =>
      answer serializer desiredExponent magic options reserved byte
  | .response got, byte => (.response (got ++ [byte]), [])
  | .upgrade [first], byte => (upgraded first byte, [])
  | .upgrade got, byte => (.upgrade (got ++ [byte]), [])
  | .opened exponent received, byte => (.opened exponent (received ++ [byte]), [])
  | .failed, _ => (.failed, [])

end Connector

end RawSocket

end Connectanum
