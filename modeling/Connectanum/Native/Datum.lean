import Connectanum.Lib.Cbor
import Connectanum.Native.Message

/-!
# Native — Datum

The data that JSON, MessagePack and CBOR have in common (`Datum`), with an encoding in each, and the
WAMP message of an array of data (`Datum.message?`).
-/

namespace Connectanum

namespace Wamp

/-- Null, booleans, integers, strings, lists and maps with strings for keys. -/
inductive Datum where
  | null
  | bool (b : Bool)
  | int (n : Int)
  | str (s : String)
  | list (items : List Datum)
  | map (entries : List (String × Datum))

namespace Datum

/-! ### The value -/

/-- `BTreeMap::insert` under a string. -/
def insertEntry (key : String) (v : Value) : List (Value × Value) → List (Value × Value)
  | [] => [(.string key, v)]
  | (.string other, w) :: rest =>
      if key = other then (.string key, v) :: rest
      else if key < other then (.string key, v) :: (.string other, w) :: rest
      else (.string other, w) :: insertEntry key v rest
  | entry :: rest => entry :: insertEntry key v rest

mutual

/-- The datum as a `serde_value::Value`. -/
def value : Datum → Value
  | null => .unit
  | bool b => .bool b
  | int n => .int n
  | str s => .string s
  | list items => .seq (values items)
  | map entries => .map (valueEntries [] entries)

def values : List Datum → List Value
  | [] => []
  | d :: rest => d.value :: values rest

def valueEntries (sorted : List (Value × Value)) : List (String × Datum) → List (Value × Value)
  | [] => sorted
  | entry :: rest => valueEntries (insertEntry entry.1 (valueEntry entry) sorted) rest

def valueEntry : String × Datum → Value
  | (_, d) => d.value

end

def isNull : Datum → Bool
  | null => true
  | _ => false

def isList : Datum → Bool
  | list _ => true
  | _ => false

def isMap : Datum → Bool
  | map _ => true
  | _ => false

/-- A part of the payload: null, or of the given kind. -/
def part? (kind : Datum → Bool) : Option Datum → Option (Option Bytes)
  | none => some none
  | some d => if d.isNull then some none else if kind d then some (some []) else none

/-- Which of the arguments there are. -/
def payload? (args kwargs : Option Datum) : Option Payload := do
  let args ← part? isList args
  let kwargs ← part? isMap kwargs
  pure { args, kwargs }

def hexDigit (n : Nat) : Char := "0123456789abcdef".toList.getD n '0'

def quote : Char := Char.ofNat 34

def backslash : Char := Char.ofNat 92

/-- An escaped character of a JSON string. -/
def escape (ch : Char) : List Char :=
  match ch.toNat with
  | 34 => [backslash, quote]
  | 92 => [backslash, backslash]
  | 8 => [backslash, 'b']
  | 9 => [backslash, 't']
  | 10 => [backslash, 'n']
  | 12 => [backslash, 'f']
  | 13 => [backslash, 'r']
  | n =>
      if n < 32 then [backslash, 'u', '0', '0', hexDigit (n / 16), hexDigit (n % 16)] else [ch]

def jsonString (s : String) : List Char := quote :: s.toList.flatMap escape ++ [quote]

def separate : List (List Char) → List Char
  | [] => []
  | [text] => text
  | text :: rest => text ++ ',' :: separate rest

mutual

def jsonChars : Datum → List Char
  | null => "null".toList
  | bool b => if b then "true".toList else "false".toList
  | int n => (toString n).toList
  | str s => jsonString s
  | list items => '[' :: separate (jsonItems items) ++ [']']
  | map entries => '\x7b' :: separate (jsonEntries entries) ++ ['\x7d']

def jsonItems : List Datum → List (List Char)
  | [] => []
  | d :: rest => d.jsonChars :: jsonItems rest

def jsonEntries : List (String × Datum) → List (List Char)
  | [] => []
  | entry :: rest => jsonEntry entry :: jsonEntries rest

def jsonEntry : String × Datum → List Char
  | (key, d) => jsonString key ++ ':' :: d.jsonChars

end

/-- The JSON text. -/
def json (d : Datum) : String := String.ofList d.jsonChars

/-! ### MessagePack -/

def msgpackString (s : String) : Bytes :=
  let bytes := s.toUTF8.toList
  let n := bytes.length
  (if n < 32 then [UInt8.ofNat (0xa0 + n)]
    else if n < 2 ^ 8 then 0xd9 :: BigEndian.write 1 n
    else if n < 2 ^ 16 then 0xda :: BigEndian.write 2 n
    else 0xdb :: BigEndian.write 4 n) ++ bytes

def msgpackNat (n : Nat) : Bytes :=
  if n < 128 then [UInt8.ofNat n]
  else if n < 2 ^ 8 then 0xcc :: BigEndian.write 1 n
  else if n < 2 ^ 16 then 0xcd :: BigEndian.write 2 n
  else if n < 2 ^ 32 then 0xce :: BigEndian.write 4 n
  else 0xcf :: BigEndian.write 8 n

/-- The number `-1 - n`, in two's complement. -/
def msgpackNegative (n : Nat) : Bytes :=
  if n < 32 then [UInt8.ofNat (255 - n)]
  else if n < 2 ^ 7 then 0xd0 :: BigEndian.write 1 (2 ^ 8 - 1 - n)
  else if n < 2 ^ 15 then 0xd1 :: BigEndian.write 2 (2 ^ 16 - 1 - n)
  else if n < 2 ^ 31 then 0xd2 :: BigEndian.write 4 (2 ^ 32 - 1 - n)
  else 0xd3 :: BigEndian.write 8 (2 ^ 64 - 1 - n)

def msgpackArrayLen (n : Nat) : Bytes :=
  if n < 16 then [UInt8.ofNat (0x90 + n)]
  else if n < 2 ^ 16 then 0xdc :: BigEndian.write 2 n
  else 0xdd :: BigEndian.write 4 n

def msgpackMapLen (n : Nat) : Bytes :=
  if n < 16 then [UInt8.ofNat (0x80 + n)]
  else if n < 2 ^ 16 then 0xde :: BigEndian.write 2 n
  else 0xdf :: BigEndian.write 4 n

mutual

def msgpack : Datum → Bytes
  | null => [0xc0]
  | bool b => [if b then 0xc3 else 0xc2]
  | int (.ofNat n) => msgpackNat n
  | int (.negSucc n) => msgpackNegative n
  | str s => msgpackString s
  | list items => msgpackArrayLen items.length ++ msgpackItems items
  | map entries => msgpackMapLen entries.length ++ msgpackEntries entries

def msgpackItems : List Datum → Bytes
  | [] => []
  | d :: rest => d.msgpack ++ msgpackItems rest

def msgpackEntries : List (String × Datum) → Bytes
  | [] => []
  | entry :: rest => msgpackEntry entry ++ msgpackEntries rest

def msgpackEntry : String × Datum → Bytes
  | (key, d) => msgpackString key ++ d.msgpack

end

/-! ### CBOR -/

def cborString (s : String) : Bytes := Cbor.head 3 s.toUTF8.toList.length ++ s.toUTF8.toList

mutual

def cbor : Datum → Bytes
  | null => [0xf6]
  | bool b => [if b then 0xf5 else 0xf4]
  | int (.ofNat n) => Cbor.head 0 n
  | int (.negSucc n) => Cbor.head 1 n
  | str s => cborString s
  | list items => Cbor.head 4 items.length ++ cborItems items
  | map entries => Cbor.head 5 entries.length ++ cborEntries entries

def cborItems : List Datum → Bytes
  | [] => []
  | d :: rest => d.cbor ++ cborItems rest

def cborEntries : List (String × Datum) → Bytes
  | [] => []
  | entry :: rest => cborEntry entry ++ cborEntries rest

def cborEntry : String × Datum → Bytes
  | (key, d) => cborString key ++ d.cbor

end

/-! ### What all three can express -/

def Short (s : String) : Prop := s.toUTF8.toList.length < 2 ^ 32

mutual

/-- Integers of 64 bits, and lengths of 32. -/
def Fits : Datum → Prop
  | int (.ofNat n) => n < 2 ^ 64
  | int (.negSucc n) => n < 2 ^ 63
  | str s => Short s
  | list items => items.length < 2 ^ 32 ∧ FitsAll items
  | map entries => entries.length < 2 ^ 32 ∧ FitsEntries entries
  | _ => True

def FitsAll : List Datum → Prop
  | [] => True
  | d :: rest => d.Fits ∧ FitsAll rest

def FitsEntries : List (String × Datum) → Prop
  | [] => True
  | entry :: rest => FitsEntry entry ∧ FitsEntries rest

def FitsEntry : String × Datum → Prop
  | (key, d) => Short key ∧ d.Fits

end

end Datum

end Wamp

end Connectanum
