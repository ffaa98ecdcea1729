import Connectanum.State.Procedure

/-!
# State — Deduplication

The wire form of retry deduplication (`RegisterOptions.autoDeduplication`,
`CallOptions.transactionHash`), the errors the store answers with, and the tables the store
keeps for throttled and debounced calls.  Durations are in milliseconds.
-/

namespace Connectanum

open Collections

/-- `ArgumentError.value(value, name, message)`; `ArgumentError(message)` has no value or name. -/
structure ArgumentError where
  value : Option Value := none
  name : Option String := none
  message : String

inductive StoreError where
  /-- `StoreCommandError(message)`. -/
  | command (message : String)
  /-- `StoreCommandError('message: error')` around an `ArgumentError`. -/
  | invalid (message : String) (cause : ArgumentError)
  /-- `StateError(message)`. -/
  | state (message : String)
  | argument (error : ArgumentError)

/-- `wamp.Error.autoDeduplication`. -/
def autoDeduplicationUri : String := "wamp.error.auto_deduplication"

/-- Bounded router-side handling for application retry transaction hashes. -/
structure RetryDeduplication where
  debounce : Option Int
  capacity : Int
  expiry : Int
  deriving DecidableEq

namespace RetryDeduplication

def wireField : String := "auto_deduplication"
def capacityWireField : String := "auto_deduplication_capacity"
def expiryWireField : String := "auto_deduplication_expiry"

def defaultCapacity : Int := 1024
def maximumCapacity : Int := 4096
def defaultExpiry : Int := 5 * 60 * 1000
def maximumExpiry : Int := 24 * 60 * 60 * 1000
def maximumDebounce : Int := 60 * 60 * 1000

def isThrottle (p : RetryDeduplication) : Bool := p.debounce.isNone

def validated (debounce : Option Int) (capacity expiry : Int) :
    Except ArgumentError RetryDeduplication :=
  if capacity < 1 ∨ capacity > maximumCapacity then
    .error ⟨some (.int capacity), some "capacity", "must be between 1 and 4096"⟩
  else if debounce.any fun d => d ≤ 0 || d > maximumDebounce then
    .error ⟨debounce.map .int, some "debounce",
      "must be greater than zero and at most 1:00:00.000000"⟩
  else if expiry ≤ 0 ∨ expiry > maximumExpiry then
    .error ⟨some (.int expiry), some "expiry",
      "must be greater than zero and at most 24:00:00.000000"⟩
  else if debounce.any fun d => expiry < d then
    .error ⟨some (.int expiry), some "expiry", "must be greater than or equal to debounce"⟩
  else .ok ⟨debounce, capacity, expiry⟩

/-- An optional integer field; `null` takes the default. -/
def intField (value : Value) (field : String) (default : Int) : Except ArgumentError Int :=
  match value with
  | .null => .ok default
  | .int n => .ok n
  | v => .error ⟨some v, some field, "must be an integer"⟩

def fromWire (autoDeduplication capacity expiryMilliseconds : Value) :
    Except ArgumentError RetryDeduplication :=
  match autoDeduplication with
  | .int n =>
      if n < 0 then
        .error ⟨some (.int n), some wireField, "must be a non-negative integer"⟩
      else do
        let capacity ← intField capacity capacityWireField defaultCapacity
        let expiry ← intField expiryMilliseconds expiryWireField defaultExpiry
        validated (if n = 0 then none else some n) capacity expiry
  | v => .error ⟨some v, some wireField, "must be a non-negative integer"⟩

/-- `RegisterOptions(custom: details).autoDeduplication`. -/
def ofDetails (details : Dict) : Except ArgumentError (Option RetryDeduplication) :=
  let capacity := details.at capacityWireField
  let expiry := details.at expiryWireField
  match details.at wireField with
  | .null =>
      if !capacity.isNull || !expiry.isNull then
        .error ⟨none, none, "deduplication bounds require auto_deduplication"⟩
      else .ok none
  | value => (fromWire value capacity expiry).map some

end RetryDeduplication

def transactionHashWireField : String := "transaction_hash"

def maxTransactionHashBytes : Nat := 256

/-- `CallOptions(custom: options).transactionHash`. -/
def transactionHash (options : Dict) : Except ArgumentError (Option String) :=
  match options.at transactionHashWireField with
  | .null => .ok none
  | .str hash =>
      if hash.isEmpty then
        .error ⟨some (.str hash), some transactionHashWireField, "must not be empty"⟩
      else if hash.utf8ByteSize > maxTransactionHashBytes then
        .error ⟨some (.str hash), some transactionHashWireField,
          "must contain at most 256 UTF-8 bytes"⟩
      else .ok (some hash)
  | v => .error ⟨some v, some transactionHashWireField, "must be a string"⟩

/-- `_RetryDeduplicationKey`. -/
structure RetryDeduplicationKey where
  realmUri : String
  registrationId : Nat
  transactionHash : String
  deriving DecidableEq

/-- `_RetryThrottleLease`. -/
structure RetryThrottleLease where
  invocationId : Nat
  expiresAt : Int

/-- `_PendingRetryDebounce`: a held dispatch.  `expires` is what its timer passes on. -/
structure PendingRetryDebounce where
  realmUri : String
  callerSessionId : Nat
  requestId : Nat
  procedure : String
  options : Dict
  replyPort : SendPort
  expiresAt : Int
  expires : Bool

end Connectanum
