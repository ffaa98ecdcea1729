import Connectanum.Lib.Cbor
import Connectanum.Lib.Scans
import Connectanum.Lib.Utf8

/-!
# Flat — Validators

The two validators of the CBOR values in a FlatBuffers frame: `validateFlatBufferCbor` of the Dart
library and `flatbuffers_cbor::validate` of the native transport.

Each scans one value, of bounded depth and with a bounded number of items, checks the text, and
refuses a dictionary that has a key twice.  A text is given as the list of its characters.
-/

namespace Connectanum

namespace FlatBuffers

open Cbor (major info)
open Scans

abbrev Bytes := List UInt8

/-- The text of a dictionary key. -/
abbrev Text := List Char

instance (key : Text) (seen : List Text) : Decidable (key ∈ seen) := inferInstance

/-- A loop over the bytes never gets there (`whileMore_eq`). -/
def outOfRounds : String := "out of rounds"

/-- One value was scanned; nothing must come after it. -/
def ended (trailing : String) : Except String (Unit × Cursor) → Except String Unit
  | .error e => .error e
  | .ok ((), s) => if s.rest ≠ [] then .error trailing else .ok ()

/-! ### The native transport -/

namespace Native

def invalid (reason : String) : String := "Invalid FlatBuffers frame: " ++ reason

/-- The length of the input, and the kind of validation. -/
structure Scanner where
  total : Nat
  metadata : Bool

namespace Scanner

variable (sc : Scanner)

/-- `Scanner::take`; the cursor is at what is left of `total`. -/
def take (count : Nat) : Scan String Bytes := fun s =>
  if 2 ^ 64 ≤ sc.total - s.rest.length + count then .error (invalid "CBOR length")
  else Scans.take (invalid "CBOR truncation") count s

def byte : Scan String UInt8 := Scans.byte (invalid "CBOR truncation")

def length (info : Nat) : Scan String Nat :=
  if info < 24 then pure info
  else
    match Cbor.width info with
    | some size => BigEndian.read <$> sc.take size
    | none => fail (invalid "CBOR additional info")

/-- `usize` has 64 bits. -/
def count (info : Nat) : Scan String Nat := sc.length info

def charge : Scan String Unit := Scans.charge 1000000 (invalid "CBOR item budget")

/-- `Scanner::end`. -/
def stop : Scan String Bool := atStop 255

/-- One run of a string, and its text when it is to be collected. -/
def chunk (kind info : Nat) (text : Option Text) : Scan String (Option Text) := do
  let length ← sc.count info
  let bytes ← sc.take length
  if kind = 3 then
    match Utf8.chars bytes with
    | some chunk => pure (text.map (· ++ chunk))
    | none => fail (invalid "CBOR UTF-8")
  else pure text

def string (kind info : Nat) (collect : Bool) : Scan String (Option Text) :=
  let text : Option Text := if kind = 3 ∧ collect then some [] else none
  if info ≠ 31 then sc.chunk kind info text
  else
    whileMore outOfRounds (fun _ => not <$> stop)
      (fun text => do
        charge
        let header ← byte
        if major header ≠ kind ∨ Cbor.info header = 31 then fail (invalid "CBOR string chunk")
        else sc.chunk kind (Cbor.info header) text)
      text

/-- The number of elements; `none`: up to a break. -/
def counted (info : Nat) : Scan String (Option Nat) :=
  if info = 31 then pure none else some <$> sc.count info

def more (count : Option Nat) (index : Nat) : Scan String Bool :=
  match count with
  | some count => pure (index < count)
  | none => not <$> stop

/-- The key of a dictionary's entry. -/
def key : Scan String Text := do
  charge
  let header ← byte
  if major header ≠ 3 then fail (invalid "CBOR dictionary key")
  else do
    let key ← sc.string 3 (Cbor.info header) true
    match key with
    | some key => pure key
    | none => fail "called `Option::unwrap()` on a `None` value"

/-- One round of the loop over the elements of an array or a map. -/
def element (nested : Scan String Unit) (kind : Nat) (dictionary : Bool) (keys : List Text) :
    Scan String (List Text) :=
  if dictionary then do
    let key ← sc.key
    if key ∈ keys then fail (invalid "CBOR duplicate key")
    else do
      nested
      pure (key :: keys)
  else do
    nested
    if kind = 5 then do
      nested
      pure keys
    else pure keys

def simple (info : Nat) : Scan String Unit :=
  if info ≤ 23 then pure ()
  else if info = 24 then do
    let byte ← byte
    if byte < 32 then fail (invalid "CBOR simple value") else pure ()
  else if info ≤ 27 then do
    let _ ← sc.take (2 ^ (info - 24))
    pure ()
  else fail (invalid "CBOR break or reserved info")

/-- `Scanner::value`, with `nested` for the values in it. -/
def valueWith (nested : Scan String Unit) (depth : Nat) : Scan String Unit := do
  charge
  let header ← byte
  match major header with
  | 0 | 1 => do
      let _ ← sc.length (info header)
      pure ()
  | kind@2 | kind@3 => do
      let _ ← sc.string kind (info header) false
      pure ()
  | kind@4 | kind@5 =>
      if depth ≥ 64 then fail (invalid "CBOR depth")
      else do
        let count ← sc.counted (info header)
        let dictionary := decide (kind = 5) && (sc.metadata || decide (depth = 0))
        let _ ← whileMore outOfRounds (more count) (sc.element nested kind dictionary) []
        pure ()
  | 6 =>
      if depth ≥ 64 then fail (invalid "CBOR depth")
      else do
        let _ ← sc.length (info header)
        nested
  | _ => sc.simple (info header)

/-- `room`: the depth is less than 64 where a value is nested. -/
def value : (room depth : Nat) → Scan String Unit
  | 0, _ => fail outOfRounds
  | room + 1, depth => sc.valueWith (value room (depth + 1)) depth

end Scanner

/-- `flatbuffers_cbor::validate`. -/
def validate (bytes : Bytes) (root : Nat) (metadata : Bool) : Except String Unit :=
  let maximum := if metadata then 1024 * 1024 else 64 * 1024 * 1024
  match bytes with
  | [] => .error (invalid "CBOR container or size")
  | first :: _ =>
      if bytes.length > maximum ∨ major first ≠ root then
        .error (invalid "CBOR container or size")
      else
        let scanner : Scanner := { total := bytes.length, metadata }
        ended (invalid "CBOR trailing bytes") (scanner.value 65 0 { rest := bytes })

end Native

/-! ### The Dart library -/

namespace Dart

structure FlatBufferCborLimits where
  maxBytes : Nat := 67108864
  maxDepth : Nat := 64
  maxItems : Nat := 1000000
  deriving DecidableEq, Repr

def invalid (reason : String) : String := "Invalid FlatBuffers CBOR: " ++ reason

/-- `_Scanner`; `total`: the length of the input. -/
structure Scanner where
  total : Nat
  limits : FlatBufferCborLimits
  stringDictionaryKeys : Bool
  rootStringDictionaryKeys : Bool

/-- How many bytes follow the first one of a character, and the bounds of the second. -/
def following (first : UInt8) : Option (Nat × Nat × Nat) :=
  let first := first.toNat
  if 0xC2 ≤ first ∧ first ≤ 0xDF then some (1, 0x80, 0xBF)
  else if 0xE0 ≤ first ∧ first ≤ 0xEF then
    some (2, if first = 0xE0 then 0xA0 else 0x80, if first = 0xED then 0x9F else 0xBF)
  else if 0xF0 ≤ first ∧ first ≤ 0xF4 then
    some (3, if first = 0xF0 then 0x90 else 0x80, if first = 0xF4 then 0x8F else 0xBF)
  else none

/-- One round of `utf8Range`: what comes after the character that begins with `first`. -/
def utf8Character (first : UInt8) (rest : Bytes) : Option Bytes :=
  if first.toNat < 128 then some rest
  else
    match following first, rest with
    | some (count, low, high), second :: more =>
        if rest.length < count ∨ second.toNat < low ∨ high < second.toNat then none
        else if (more.take (count - 1)).any fun b => b.toNat < 128 || 191 < b.toNat then none
        else some (more.drop (count - 1))
    | _, _ => none

/-- `utf8Range`, in at most `fuel` rounds. -/
def utf8Range : Nat → Bytes → Bool
  | _, [] => true
  | 0, _ :: _ => false
  | fuel + 1, first :: rest =>
      match utf8Character first rest with
      | some rest => utf8Range fuel rest
      | none => false

/-- U+FEFF. -/
def byteOrderMark : Char := Char.ofNat 0xFEFF

/-- `utf8.decode` discards a byte order mark at the start of its input. -/
def dropMark : Text → Text
  | c :: rest => if c = byteOrderMark then rest else c :: rest
  | [] => []

def utf8Decode (bytes : Bytes) : Option Text := (Utf8.chars bytes).map dropMark

namespace Scanner

variable (sc : Scanner)

def charge : Scan String Unit := Scans.charge sc.limits.maxItems (invalid "item limit")

def byte : Scan String UInt8 := Scans.byte (invalid "truncation")

/-- `skip`, with the bytes that it skips. -/
def skip (count : Nat) : Scan String Bytes := Scans.take (invalid "truncation") count

def width (info : Nat) : Scan String Nat :=
  match Cbor.width info with
  | some count => pure count
  | none => fail (invalid "additional information")

/-- The bytes of a length, which is given up when it is longer than the input. -/
def lengthBytes : Nat → Nat → Scan String Nat
  | 0, result => pure result
  | count + 1, result => do
      let b ← byte
      if result * 256 + b.toNat > sc.total then fail (invalid "declared length")
      else lengthBytes count (result * 256 + b.toNat)

def length (info : Nat) : Scan String Nat :=
  if info < 24 then pure info
  else do
    let count ← width info
    sc.lengthBytes count 0

def takeBreak : Scan String Bool := takeStop (invalid "missing break") 255

def chunk (kind info : Nat) (key : Bool) : Scan String (Option Text) := do
  let count ← sc.length info
  let bytes ← skip count
  if kind = 3 ∧ utf8Range bytes.length bytes = false then fail (invalid "UTF-8")
  else if key then
    match utf8Decode bytes with
    | some text => pure (some text)
    | none => fail "Unexpected extension byte"
  else pure none

def string (kind info : Nat) (key : Bool) : Scan String (Option Text) :=
  if info ≠ 31 then sc.chunk kind info key
  else
    whileMore outOfRounds (fun _ => not <$> takeBreak)
      (fun output => do
        sc.charge
        let initial ← byte
        if major initial ≠ kind ∨ Cbor.info initial = 31 then
          fail (invalid "indefinite string chunk")
        else do
          let value ← sc.chunk kind (Cbor.info initial) key
          pure (output.map (· ++ value.getD [])))
      (if key then some [] else none)

def counted (info : Nat) : Scan String (Option Nat) :=
  if info = 31 then pure none else some <$> sc.length info

def more (count : Option Nat) (index : Nat) : Scan String Bool :=
  match count with
  | none => not <$> takeBreak
  | some count => pure (index < count)

/-- The key of a dictionary's entry. -/
def key : Scan String Text := do
  sc.charge
  let key ← byte
  if major key ≠ 3 then fail (invalid "dictionary key")
  else do
    let text ← sc.string 3 (Cbor.info key) true
    match text with
    | some text => pure text
    | none => fail "Null check operator used on a null value"

/-- One round of the loop over the elements of an array or a map. -/
def element (nested : Scan String Unit) (kind : Nat) (dictionary : Bool) (keys : List Text) :
    Scan String (List Text) :=
  if dictionary then do
    let key ← sc.key
    if key ∈ keys then fail (invalid "duplicate dictionary key")
    else do
      nested
      pure (key :: keys)
  else do
    nested
    if kind = 5 then do
      nested
      pure keys
    else pure keys

def skipWidth (info : Nat) : Scan String Unit :=
  if info ≥ 24 then do
    let count ← width info
    let _ ← skip count
    pure ()
  else pure ()

def simple (info : Nat) : Scan String Unit :=
  if info = 24 then do
    let byte ← byte
    if byte < 32 then fail (invalid "reserved simple value") else pure ()
  else if info ≥ 25 then do
    let count ← width info
    let _ ← skip count
    pure ()
  else pure ()

/-- `value`, with `nested` for the values in it. -/
def valueWith (nested : Scan String Unit) (depth : Nat) : Scan String Unit := do
  sc.charge
  let initial ← byte
  match major initial with
  | 0 | 1 => skipWidth (info initial)
  | kind@2 | kind@3 => do
      let _ ← sc.string kind (info initial) false
      pure ()
  | kind@4 | kind@5 =>
      if depth ≥ sc.limits.maxDepth then fail (invalid "depth limit")
      else do
        let count ← sc.counted (info initial)
        let dictionary := decide (kind = 5) &&
          (sc.stringDictionaryKeys || (sc.rootStringDictionaryKeys && decide (depth = 0)))
        let _ ← whileMore outOfRounds (more count) (sc.element nested kind dictionary) []
        pure ()
  | 6 =>
      if depth ≥ sc.limits.maxDepth then fail (invalid "depth limit")
      else do
        skipWidth (info initial)
        nested
  | _ => simple (info initial)

def value : (room depth : Nat) → Scan String Unit
  | 0, _ => fail outOfRounds
  | room + 1, depth => sc.valueWith (value room (depth + 1)) depth

end Scanner

def validateFlatBufferCbor (bytes : Bytes) (rootMajor : Option Nat)
    (stringDictionaryKeys rootStringDictionaryKeys : Bool) (limits : FlatBufferCborLimits) :
    Except String Unit :=
  if limits.maxDepth < 1 ∨ limits.maxItems < 1 then .error "Invalid CBOR validation limits"
  else
    match bytes with
    | [] => .error "Invalid FlatBuffers CBOR container or size"
    | first :: _ =>
        if bytes.length > limits.maxBytes ∨ (rootMajor ≠ none ∧ some (major first) ≠ rootMajor) then
          .error "Invalid FlatBuffers CBOR container or size"
        else
          let scanner : Scanner :=
            { total := bytes.length, limits, stringDictionaryKeys, rootStringDictionaryKeys }
          ended (invalid "trailing values")
            (scanner.value (limits.maxDepth + 1) 0 { rest := bytes })

/-- The options under which the library validates metadata, and other values of a root kind. -/
def validate (bytes : Bytes) (root : Nat) (metadata : Bool) : Except String Unit :=
  if metadata then validateFlatBufferCbor bytes (some root) true false { maxBytes := 1048576 }
  else validateFlatBufferCbor bytes (some root) false true {}

end Dart

end FlatBuffers

end Connectanum
