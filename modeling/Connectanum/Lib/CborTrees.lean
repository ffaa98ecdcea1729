import Connectanum.Lib.Cbor
import Connectanum.Lib.Utf8

/-!
# Lib — CborTrees

The well-formed items of CBOR as trees, and which bytes they are written in.

* `Term`, `Written`: the items and the grammar;
* `Term.size`: how many items and parts of strings there are;
* `Term.Every`: what holds of each item, at its depth;
* `Term.ValidText`, `Term.Keyed`: texts in UTF-8, maps with different texts for keys.
-/

namespace CborTrees

open Cbor (major info argument)
open Readers (Reads)

abbrev Bytes := List UInt8

inductive Term where
  | int (negative : Bool) (n : Nat)
  | string (text : Bool) (content : Bytes)
  /-- A string of unknown length, with its parts. -/
  | chunks (text : Bool) (parts : List Bytes)
  | list (items : List Term)
  /-- Keys and values in turn. -/
  | map (row : List Term)
  | tag (n : Nat) (content : Term)
  /-- A simple value or a float. -/
  | simple (n : Nat)

/-! ### The grammar -/

def intMajor (negative : Bool) : Nat := if negative then 1 else 0

def stringMajor (text : Bool) : Nat := if text then 3 else 2

/-- A part of a string is a string of the same kind, of a known length. -/
def Chunk (text : Bool) (piece part : Bytes) : Prop :=
  ∃ byte tail, piece = byte :: (tail ++ part) ∧ major byte = stringMajor text ∧
    Reads (argument (info byte)) tail part.length

/-- Between `front` and `back` stand `n` elements: `front` says so, or a break ends them. -/
def Sized (byte : UInt8) (front : Bytes) (n : Nat) (back : Bytes) : Prop :=
  (Reads (argument (info byte)) front n ∧ back = []) ∨
    (info byte = 31 ∧ front = [] ∧ back = [0xFF])

inductive Part where
  | item (t : Term)
  | row (ts : List Term)

inductive Written : Bytes → Part → Prop where
  | int {byte : UInt8} {tail : Bytes} {negative : Bool} {n : Nat}
      (hmajor : major byte = intMajor negative) (h : Reads (argument (info byte)) tail n) :
      Written (byte :: tail) (.item (.int negative n))
  | string {byte : UInt8} {tail content : Bytes} {text : Bool}
      (hmajor : major byte = stringMajor text)
      (h : Reads (argument (info byte)) tail content.length) :
      Written (byte :: (tail ++ content)) (.item (.string text content))
  | chunks {byte : UInt8} {pieces parts : List Bytes} {text : Bool}
      (hmajor : major byte = stringMajor text) (hinfo : info byte = 31)
      (h : List.Forall₂ (Chunk text) pieces parts) :
      Written (byte :: (pieces.flatten ++ [0xFF])) (.item (.chunks text parts))
  | list {byte : UInt8} {front body back : Bytes} {ts : List Term} (hmajor : major byte = 4)
      (hsize : Sized byte front ts.length back) (h : Written body (.row ts)) :
      Written (byte :: (front ++ (body ++ back))) (.item (.list ts))
  | map {byte : UInt8} {front body back : Bytes} {row : List Term} {n : Nat}
      (hmajor : major byte = 5) (hsize : Sized byte front n back) (hn : row.length = 2 * n)
      (h : Written body (.row row)) : Written (byte :: (front ++ (body ++ back))) (.item (.map row))
  | tag {byte : UInt8} {front body : Bytes} {n : Nat} {t : Term} (hmajor : major byte = 6)
      (hn : Reads (argument (info byte)) front n) (h : Written body (.item t)) :
      Written (byte :: (front ++ body)) (.item (.tag n t))
  /-- A simple value in two bytes is not one that has one byte. -/
  | simple {byte : UInt8} {tail : Bytes} {n : Nat} (hmajor : major byte = 7)
      (h : Reads (argument (info byte)) tail n) (hn : info byte = 24 → 32 ≤ n) :
      Written (byte :: tail) (.item (.simple n))
  | nil : Written [] (.row [])
  | cons {front back : Bytes} {t : Term} {ts : List Term} (h : Written front (.item t))
      (hs : Written back (.row ts)) : Written (front ++ back) (.row (t :: ts))

/-! ### What is said of items -/

namespace Term

def major : Term → Nat
  | .int negative _ => intMajor negative
  | .string text _ => stringMajor text
  | .chunks text _ => stringMajor text
  | .list _ => 4
  | .map _ => 5
  | .tag _ _ => 6
  | .simple _ => 7

mutual

/-- The items, and the parts of the strings. -/
def size : Term → Nat
  | .chunks _ parts => 1 + parts.length
  | .list ts => 1 + sizeAll ts
  | .map row => 1 + sizeAll row
  | .tag _ t => 1 + size t
  | .int _ _ | .string _ _ | .simple _ => 1

def sizeAll : List Term → Nat
  | [] => 0
  | t :: ts => size t + sizeAll ts

end

mutual

/-- `p` holds of the item at this depth, and of every item in it at its own depth. -/
def Every (p : Nat → Term → Prop) (depth : Nat) : Term → Prop
  | .list ts => p depth (.list ts) ∧ EveryAll p (depth + 1) ts
  | .map row => p depth (.map row) ∧ EveryAll p (depth + 1) row
  | .tag n t => p depth (.tag n t) ∧ Every p (depth + 1) t
  | .int negative n => p depth (.int negative n)
  | .string text content => p depth (.string text content)
  | .chunks text parts => p depth (.chunks text parts)
  | .simple n => p depth (.simple n)

def EveryAll (p : Nat → Term → Prop) (depth : Nat) : List Term → Prop
  | [] => True
  | t :: ts => Every p depth t ∧ EveryAll p depth ts

end

/-- Other items stand in it. -/
def Nests : Term → Prop
  | .list _ | .map _ | .tag _ _ => True
  | _ => False

/-- The characters of a text, of which each part is text. -/
inductive HasText : Term → List Char → Prop where
  | string {content : Bytes} {text : List Char} (h : Utf8.chars content = some text) :
      HasText (.string true content) text
  | chunks {parts : List Bytes} {texts : List (List Char)}
      (h : List.Forall₂ (fun part text => Utf8.chars part = some text) parts texts) :
      HasText (.chunks true parts) texts.flatten

def ValidText (t : Term) : Prop := t.major = 3 → ∃ text, HasText t text

def keysOf : List Term → List Term
  | key :: _ :: rest => key :: keysOf rest
  | _ => []

/-- The keys of a map are different texts. -/
def Keyed : Term → Prop
  | .map row => ∃ names, List.Forall₂ HasText (keysOf row) names ∧ names.Nodup
  | _ => True

/-! #### Trees by their major type -/

section
variable {t : Term}

theorem eq_int {negative : Bool} (h : t.major = intMajor negative) : ∃ n, t = .int negative n := by
  cases t with
  | int negative' n =>
      obtain rfl : negative' = negative := by cases negative' <;> cases negative <;> first | rfl | cases h
      exact ⟨n, rfl⟩
  | string text | chunks text => cases text <;> cases negative <;> cases h
  | list | map | tag | simple => cases negative <;> cases h

theorem eq_list (h : t.major = 4) : ∃ ts, t = .list ts := by
  cases t with
  | list ts => exact ⟨ts, rfl⟩
  | int negative => cases negative <;> cases h
  | string text | chunks text => cases text <;> cases h
  | map | tag | simple => cases h

theorem eq_map (h : t.major = 5) : ∃ row, t = .map row := by
  cases t with
  | map row => exact ⟨row, rfl⟩
  | int negative => cases negative <;> cases h
  | string text | chunks text => cases text <;> cases h
  | list | tag | simple => cases h

theorem eq_tag (h : t.major = 6) : ∃ n content, t = .tag n content := by
  cases t with
  | tag n content => exact ⟨n, content, rfl⟩
  | int negative => cases negative <;> cases h
  | string text | chunks text => cases text <;> cases h
  | list | map | simple => cases h

theorem eq_simple (h : t.major = 7) : ∃ n, t = .simple n := by
  cases t with
  | simple n => exact ⟨n, rfl⟩
  | int negative => cases negative <;> cases h
  | string text | chunks text => cases text <;> cases h
  | list | map | tag => cases h

end

theorem size_pos (t : Term) : 0 < t.size := by
  cases t with
  | int | string | simple => exact Nat.one_pos
  | chunks | list | map | tag => exact Nat.lt_add_right _ Nat.one_pos

end Term

/-! ### First bytes -/

/-- No item begins with a break. -/
theorem Written.head_ne {bytes : Bytes} {t : Term} (h : Written bytes (.item t)) :
    ∃ byte tail, bytes = byte :: tail ∧ byte ≠ 0xFF ∧ major byte = t.major := by
  have hstop : ∀ {byte : UInt8}, major byte ≠ 7 → byte ≠ 0xFF := by
    rintro byte hmajor rfl
    exact hmajor rfl
  cases h with
  | @int byte tail negative n hmajor h =>
      exact ⟨_, _, rfl, hstop (by rw [hmajor, intMajor]; split <;> decide), hmajor⟩
  | @string byte tail content text hmajor h =>
      exact ⟨_, _, rfl, hstop (by rw [hmajor, stringMajor]; split <;> decide), hmajor⟩
  | @chunks byte pieces parts text hmajor hinfo h =>
      exact ⟨_, _, rfl, hstop (by rw [hmajor, stringMajor]; split <;> decide), hmajor⟩
  | list hmajor hsize h => exact ⟨_, _, rfl, hstop (by rw [hmajor]; decide), hmajor⟩
  | map hmajor hsize hn h => exact ⟨_, _, rfl, hstop (by rw [hmajor]; decide), hmajor⟩
  | tag hmajor hn h => exact ⟨_, _, rfl, hstop (by rw [hmajor]; decide), hmajor⟩
  | simple hmajor h hn =>
      refine ⟨_, _, rfl, ?_, hmajor⟩
      rintro rfl
      cases h

/-! #### The bytes of each kind of item -/

section
variable {bytes : Bytes}

theorem Written.of_int {negative : Bool} {n : Nat} (h : Written bytes (.item (.int negative n))) :
    ∃ byte tail, bytes = byte :: tail ∧ Reads (argument (info byte)) tail n := by
  cases h with
  | int _ h => exact ⟨_, _, rfl, h⟩

theorem Written.of_string {text : Bool} {content : Bytes}
    (h : Written bytes (.item (.string text content))) :
    ∃ byte tail, bytes = byte :: (tail ++ content) ∧
      Reads (argument (info byte)) tail content.length := by
  cases h with
  | string _ h => exact ⟨_, _, rfl, h⟩

theorem Written.of_chunks {text : Bool} {parts : List Bytes}
    (h : Written bytes (.item (.chunks text parts))) :
    ∃ byte pieces, bytes = byte :: (pieces.flatten ++ [0xFF]) ∧ info byte = 31 ∧
      List.Forall₂ (Chunk text) pieces parts := by
  cases h with
  | chunks _ hinfo h => exact ⟨_, _, rfl, hinfo, h⟩

theorem Written.of_list {ts : List Term} (h : Written bytes (.item (.list ts))) :
    ∃ byte front body back, bytes = byte :: (front ++ (body ++ back)) ∧
      Sized byte front ts.length back ∧ Written body (.row ts) := by
  cases h with
  | list _ hsize h => exact ⟨_, _, _, _, rfl, hsize, h⟩

theorem Written.of_map {row : List Term} (h : Written bytes (.item (.map row))) :
    ∃ byte front body back n, bytes = byte :: (front ++ (body ++ back)) ∧
      Sized byte front n back ∧ row.length = 2 * n ∧ Written body (.row row) := by
  cases h with
  | map _ hsize hn h => exact ⟨_, _, _, _, _, rfl, hsize, hn, h⟩

theorem Written.of_tag {n : Nat} {t : Term} (h : Written bytes (.item (.tag n t))) :
    ∃ byte front body, bytes = byte :: (front ++ body) ∧ Reads (argument (info byte)) front n ∧
      Written body (.item t) := by
  cases h with
  | tag _ hn h => exact ⟨_, _, _, rfl, hn, h⟩

theorem Written.of_simple {n : Nat} (h : Written bytes (.item (.simple n))) :
    ∃ byte tail, bytes = byte :: tail ∧ Reads (argument (info byte)) tail n ∧
      (info byte = 24 → 32 ≤ n) := by
  cases h with
  | simple _ h hn => exact ⟨_, _, rfl, h, hn⟩

end

theorem Chunk.head_ne {text : Bool} {piece part : Bytes} (h : Chunk text piece part) :
    ∃ byte tail, piece = byte :: tail ∧ byte ≠ 0xFF := by
  obtain ⟨byte, tail, rfl, hmajor, -⟩ := h
  refine ⟨byte, _, rfl, ?_⟩
  rintro rfl
  cases text <;> cases hmajor

end CborTrees
