import Connectanum.Lib.BigEndian
import Connectanum.Lib.Delimited

/-!
# Lib — MsgPack

MessagePack as a format of delimited values: what the lead byte says of the rest, and how deep the
values are nested.

* `nesting_lt`: a value is nested less deep than it is long;
* `valueAt_iff`: a value is its head and the values inside.
-/

namespace MsgPack

open Delimited

inductive Kind where
  | data
  | array
  | map
  deriving DecidableEq

namespace Kind

/-- How many values stand behind the count. -/
def values : Kind → Nat → Nat
  | data, _ => 0
  | array, n => n
  | map, n => 2 * n

/-- How many bytes stand behind the count. -/
def bytes : Kind → Nat → Nat
  | data, n => n
  | array, _ => 0
  | map, _ => 0

end Kind

/-- What the lead byte says: the count is `base` and the number in `width` bytes. -/
structure Head where
  width : Nat
  base : Nat
  kind : Kind
  deriving DecidableEq

/-- The head of the lead byte `n`; `none` for the reserved one. -/
def headOf (n : Nat) : Option Head :=
  if n < 0x80 then some ⟨0, 0, .data⟩
  else if n < 0x90 then some ⟨0, n - 0x80, .map⟩
  else if n < 0xa0 then some ⟨0, n - 0x90, .array⟩
  else if n < 0xc0 then some ⟨0, n - 0xa0, .data⟩
  else match n with
    -- null and the booleans
    | 0xc0 | 0xc2 | 0xc3 => some ⟨0, 0, .data⟩
    | 0xc1 => none
    -- byte strings
    | 0xc4 => some ⟨1, 0, .data⟩
    | 0xc5 => some ⟨2, 0, .data⟩
    | 0xc6 => some ⟨4, 0, .data⟩
    -- extensions, whose type is a byte
    | 0xc7 => some ⟨1, 1, .data⟩
    | 0xc8 => some ⟨2, 1, .data⟩
    | 0xc9 => some ⟨4, 1, .data⟩
    -- numbers
    | 0xca | 0xce | 0xd2 => some ⟨0, 4, .data⟩
    | 0xcb | 0xcf | 0xd3 => some ⟨0, 8, .data⟩
    | 0xcc | 0xd0 => some ⟨0, 1, .data⟩
    | 0xcd | 0xd1 => some ⟨0, 2, .data⟩
    -- extensions of a fixed size
    | 0xd4 => some ⟨0, 2, .data⟩
    | 0xd5 => some ⟨0, 3, .data⟩
    | 0xd6 => some ⟨0, 5, .data⟩
    | 0xd7 => some ⟨0, 9, .data⟩
    | 0xd8 => some ⟨0, 17, .data⟩
    -- texts
    | 0xd9 => some ⟨1, 0, .data⟩
    | 0xda => some ⟨2, 0, .data⟩
    | 0xdb => some ⟨4, 0, .data⟩
    -- containers
    | 0xdc => some ⟨2, 0, .array⟩
    | 0xdd => some ⟨4, 0, .array⟩
    | 0xde => some ⟨2, 0, .map⟩
    | 0xdf => some ⟨4, 0, .map⟩
    -- negative integers
    | _ => some ⟨0, 0, .data⟩

def head (lead : UInt8) : Option Head := headOf lead.toNat

/-- The nesting of a value with `n` values inside, which are nested `d` deep.  An empty container
does not count. -/
def enclose : Nat → Nat → Nat
  | 0, _ => 0
  | _ + 1, d => d + 1

/-- How many bytes or values the head and the bytes of its count tell. -/
def Head.count (h : Head) (count : List UInt8) : Nat := h.base + BigEndian.read count

/-- How many values stand inside. -/
def valuesIn (lead : UInt8) (count : List UInt8) : Nat :=
  match head lead with
  | none => 0
  | some h => h.kind.values (h.count count)

/-- Rows of so many values; said of them is their nesting. -/
def grammar : Grammar Nat Nat where
  width lead := (head lead).map (·.width)
  content lead count :=
    match head lead with
    | none => 0
    | some h => h.kind.bytes (h.count count)
  inner := valuesIn
  stop
    | 0 => some []
    | _ + 1 => none
  next
    | 0, _ => none
    | n + 1, _ => some n
  unit := 0
  value lead count d := enclose (valuesIn lead count) d
  join _ _ := max

theorem grammar_separated : grammar.Separated := by
  intro f t lead f' hstop hnext
  cases f with
  | zero => cases hnext
  | succ n => cases hstop

theorem grammar_counted : Counted grammar id where
  stop_zero := rfl
  next_zero _ := rfl
  stop_succ _ := rfl
  next_succ _ _ := rfl

variable {bytes : List UInt8} {n offset stop d d' : Nat}

theorem rowAt_zero_iff : RowAt grammar bytes 0 offset stop d ↔ stop = offset ∧ d = 0 :=
  grammar_counted.zero_iff

/-- No value begins with the reserved byte. -/
theorem not_valueAt {lead : UInt8} (hlead : bytes[offset]? = some lead)
    (hhead : head lead = none) : ¬ValueAt grammar bytes offset stop d := by
  intro hv
  obtain ⟨lead', w, hlead', hwidth⟩ := hv.lead
  obtain rfl := Option.some.inj (hlead.symm.trans hlead')
  change (head lead).map (·.width) = some w at hwidth
  rw [hhead] at hwidth
  cases hwidth

/-- The nesting of a row and the values of the row take bytes. -/
theorem nesting_add_count_le {xs : List UInt8} (h : Row grammar n xs d) : d + n ≤ xs.length := by
  induction h with
  | @stop f bytes hstop =>
      cases f with
      | zero => exact Nat.zero_le _
      | succ n => cases hstop
  | @item f f' lead count content inner rest a b hnext _ _ _ _ ih ih' =>
      cases f with
      | zero => cases hnext
      | succ n =>
          obtain rfl := Option.some.inj hnext
          have hinside : enclose (valuesIn lead count) a ≤ inner.length := by
            change a + valuesIn lead count ≤ inner.length at ih
            cases hcount : valuesIn lead count with
            | zero => exact Nat.zero_le _
            | succ k =>
                rw [hcount] at ih
                exact (Nat.add_le_add_left (Nat.le_add_left 1 k) a).trans ih
          change max (enclose (valuesIn lead count) a) b + (n + 1) ≤ _
          simp only [List.length_cons, List.length_append]
          omega

/-- **A value is nested less deep than it is long.** -/
theorem nesting_lt (h : ValueAt grammar bytes offset stop d) : offset + d < stop := by
  obtain ⟨xs, rest, -, rfl, @⟨lead, count, content, inner, a, hwidth, hcontent, hinner⟩⟩ := h
  have hrow : Row grammar 1 (lead :: (count ++ (content ++ (inner ++ [])))) _ :=
    .item rfl hwidth hcontent hinner (.stop rfl)
  have hle := nesting_add_count_le hrow
  rw [List.append_nil] at hle
  have hmax : enclose (valuesIn lead count) a ≤ max (enclose (valuesIn lead count) a) 0 :=
    Nat.le_max_left _ _
  change max (enclose (valuesIn lead count) a) 0 + 1 ≤ _ at hle
  change offset + enclose (valuesIn lead count) a < _
  omega

/-- **A value** is its head, its bytes, and the values inside. -/
theorem valueAt_iff {lead : UInt8} {h : Head} (hlead : bytes[offset]? = some lead)
    (hhead : head lead = some h) :
    ValueAt grammar bytes offset stop d ↔
      offset + 1 + h.width + h.kind.bytes (h.count (countAt bytes (offset + 1) h.width)) ≤
        bytes.length ∧
      ∃ d', RowAt grammar bytes (h.kind.values (h.count (countAt bytes (offset + 1) h.width)))
          (offset + 1 + h.width + h.kind.bytes (h.count (countAt bytes (offset + 1) h.width)))
          stop d' ∧
        d = enclose (h.kind.values (h.count (countAt bytes (offset + 1) h.width))) d' := by
  have hwidth : grammar.width lead = some h.width := by
    change (head lead).map (·.width) = _
    rw [hhead]
    rfl
  have hcontent (count) : grammar.content lead count = h.kind.bytes (h.count count) := by
    rw [grammar]
    dsimp only
    rw [hhead]
  have hinner (count) : valuesIn lead count = h.kind.values (h.count count) := by
    rw [valuesIn, hhead]
  rw [Delimited.valueAt_iff hlead hwidth, hcontent, ← hinner]
  exact Iff.rfl

end MsgPack
