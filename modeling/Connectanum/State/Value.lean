import Connectanum.Lib.Maps

/-!
# State — Value

The dictionaries that WAMP messages carry (`Map<String, Object?>`), and the few readings of
their values that the router makes.  A value the router only ever prints is `Value.other`.
-/

namespace Connectanum

open Collections

/-- A decoded WAMP value. -/
inductive Value where
  | null
  | bool (b : Bool)
  | int (n : Int)
  | str (s : String)
  | list (items : List Value)
  | dict (entries : List (String × Value))
  /-- Any other object, known by its `toString`. -/
  | other (text : String)

/-- `Map<String, Object?>`. -/
abbrev Dict := LinkedMap String Value

namespace Value

/-- `value == true`. -/
def isTrue : Value → Bool
  | .bool b => b
  | _ => false

def isNull : Value → Bool
  | .null => true
  | _ => false

/-- `value.toString()`. -/
def toText : Value → String
  | .null => "null"
  | .bool b => if b then "true" else "false"
  | .int n => toString n
  | .str s => s
  | .list items => "[" ++ String.intercalate ", " (items.attach.map fun ⟨v, _⟩ => v.toText) ++ "]"
  | .dict entries =>
      "\x7b" ++
        String.intercalate ", " (entries.attach.map fun ⟨e, _⟩ => e.1 ++ ": " ++ e.2.toText) ++
        "\x7d"
  | .other text => text
termination_by v => sizeOf v
decreasing_by
  · have := List.sizeOf_lt_of_mem ‹_›
    simp only [list.sizeOf_spec]
    omega
  · next h =>
    have := List.sizeOf_lt_of_mem h
    obtain ⟨k, v⟩ := e
    simp only [dict.sizeOf_spec, Prod.mk.sizeOf_spec] at *
    omega

end Value

/-- `map[key]`: an absent key reads as `null`. -/
def Dict.at (d : Dict) (key : String) : Value := (d.get? key).getD .null

/-- `map[key] == true`. -/
def Dict.flag (d : Dict) (key : String) : Bool := (d.at key).isTrue

/-- `map.addAll(other)`. -/
def Dict.addAll (d other : Dict) : Dict :=
  other.entries.foldl (fun acc e => acc.insert e.1 e.2) d

/-- `text.length`: the number of UTF-16 code units. -/
def utf16Length (text : String) : Nat :=
  (text.toList.map fun c => if c.toNat < 0x10000 then 1 else 2).sum

/-- `text.split('.')`. -/
def splitDots (text : String) : List (List Char) := text.toList.splitOn '.'

/-- The decimal or hexadecimal digits of an integer literal, most significant first. -/
def digitsValue (base : Nat) (digits : List Char) : Option Nat :=
  if digits.isEmpty then none
  else digits.foldl (fun acc c => acc.bind fun n =>
    let d :=
      if c.isDigit then c.toNat - '0'.toNat
      else if 'a' ≤ c ∧ c ≤ 'f' then c.toNat - 'a'.toNat + 10
      else if 'A' ≤ c ∧ c ≤ 'F' then c.toNat - 'A'.toNat + 10
      else base
    if d < base then some (n * base + d) else none) (some 0)

/-- `int.tryParse`: optional surrounding white space, an optional sign, then decimal digits or
`0x` and hexadecimal digits. -/
def intTryParse (text : String) : Option Int :=
  let trim (cs : List Char) := cs.dropWhile Char.isWhitespace
  let body := (trim (trim text.toList).reverse).reverse
  let unsigned : List Char → Option Nat
    | '0' :: 'x' :: hex => digitsValue 16 hex
    | '0' :: 'X' :: hex => digitsValue 16 hex
    | digits => digitsValue 10 digits
  match body with
  | '-' :: rest => (unsigned rest).map fun n => - (n : Int)
  | '+' :: rest => (unsigned rest).map fun n => (n : Int)
  | rest => (unsigned rest).map fun n => (n : Int)

end Connectanum
