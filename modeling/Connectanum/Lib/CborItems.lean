import Connectanum.Lib.Cbor
import Connectanum.Lib.Delimited

/-!
# Lib — CborItems

CBOR items as a format of delimited values.  The grammar is wider than the standard: an initial byte
with an unknown length may begin any item, a break may stand for an item, and any items may be the
parts of a string.  Of an item it says whether the standard has it, how deep it is nested, and
whether a number in eight bytes goes beyond 31 bits.

* `grammar_separated`, `grammar_counted`, `UntilBreak`: where rows end.
-/

namespace CborItems

open Cbor (major info)
open Delimited

/-- What is said of an item, or of a row of items. -/
structure Traits where
  depth : Nat
  /-- The standard has it. -/
  wellFormed : Bool
  /-- No number in eight bytes goes beyond 31 bits. -/
  narrow : Bool

/-- What stands in a row. -/
inductive Form where
  | items (n : Nat)
  /-- Items, up to a break. -/
  | elements
  /-- Keys and values, up to a break in place of a key. -/
  | keys
  | value
  /-- The parts of a string of this major type, up to a break. -/
  | chunks (major : Nat)

/-- How many bytes the argument has behind the initial byte. -/
def widthOf : Nat → Option Nat
  | 24 => some 1
  | 25 => some 2
  | 26 => some 4
  | 27 => some 8
  | 31 => some 0
  | n => if n < 24 then some 0 else none

theorem widthOf_of_lt {n : Nat} (h : n < 24) : widthOf n = some 0 := by
  unfold widthOf
  split
  · omega
  · omega
  · omega
  · omega
  · omega
  · rw [if_pos h]

/-- The argument of an item whose length is known. -/
def argument (lead : UInt8) (count : List UInt8) : Nat :=
  if info lead < 24 then info lead else BigEndian.read count

/-- How many bytes of a string follow. -/
def contentOf (lead : UInt8) (count : List UInt8) : Nat :=
  if info lead = 31 then 0
  else match major lead with
    | 2 | 3 => argument lead count
    | _ => 0

/-- The items inside. -/
def innerOf (lead : UInt8) (count : List UInt8) : Form :=
  match major lead with
  | 2 => if info lead = 31 then .chunks 2 else .items 0
  | 3 => if info lead = 31 then .chunks 3 else .items 0
  | 4 => if info lead = 31 then .elements else .items (argument lead count)
  | 5 => if info lead = 31 then .keys else .items (2 * argument lead count)
  | 6 => .items 1
  | _ => .items 0

/-- The nesting of an item with such a row inside.  An empty container of a known length does not
count. -/
def enclose : Form → Nat → Nat
  | .items 0, _ => 0
  | _, d => d + 1

/-- An unknown length is that of a string or a container; a simple value in two bytes is not one
that has one byte. -/
def headWellFormed (lead : UInt8) (count : List UInt8) : Bool :=
  (info lead != 31 || decide (major lead ∈ [2, 3, 4, 5])) &&
    (lead != 0xf8 || decide (32 ≤ BigEndian.read count))

def headNarrow (lead : UInt8) (count : List UInt8) : Bool :=
  info lead != 27 || decide (BigEndian.read count ≤ 0x7fffffff)

/-- The parts of a string are strings of its kind and of a known length. -/
def fits : Form → UInt8 → Bool
  | .chunks kind, lead => major lead == kind && info lead != 31
  | _, _ => true

def grammar : Grammar Form Traits where
  width lead := widthOf (info lead)
  content := contentOf
  inner := innerOf
  stop
    | .items 0 => some []
    | .items (_ + 1) => none
    | .value => none
    | _ => some [0xff]
  next
    | .items 0, _ => none
    | .items (n + 1), _ => some (.items n)
    | .elements, lead => if lead = 0xff then none else some .elements
    | .keys, lead => if lead = 0xff then none else some .value
    | .value, _ => some .keys
    | .chunks kind, lead => if lead = 0xff then none else some (.chunks kind)
  unit := ⟨0, true, true⟩
  value lead count t :=
    ⟨enclose (innerOf lead count) t.depth, headWellFormed lead count && t.wellFormed,
      headNarrow lead count && t.narrow⟩
  join f lead a b :=
    ⟨max a.depth b.depth, fits f lead && a.wellFormed && b.wellFormed, a.narrow && b.narrow⟩

/-- An item from `offset` to `stop`. -/
abbrev Item (bytes : List UInt8) (offset stop : Nat) (t : Traits) : Prop :=
  ValueAt grammar bytes offset stop t

theorem grammar_separated : grammar.Separated := by
  intro f t lead f' hstop hnext
  have hbreak {g : Form} (h : (if lead = 0xff then none else some g) = some f') :
      lead ≠ 0xff := by
    intro he
    rw [if_pos he] at h
    cases h
  cases f with
  | items n =>
      cases n with
      | zero => cases hnext
      | succ n => cases hstop
  | value => cases hstop
  | elements | keys | chunks =>
      obtain rfl := Option.some.inj hstop
      exact ⟨0xff, [], rfl, (hbreak hnext).symm⟩

theorem grammar_counted : Counted grammar .items where
  stop_zero := rfl
  next_zero _ := rfl
  stop_succ _ := rfl
  next_succ _ _ := rfl

/-- Rows that a break ends; before it stands an item, and then `f'`. -/
structure UntilBreak (f f' : Form) : Prop where
  stop : grammar.stop f = some [0xff]
  next : ∀ lead, grammar.next f lead = if lead = 0xff then none else some f'

theorem elements_untilBreak : UntilBreak .elements .elements := ⟨rfl, fun _ => rfl⟩

theorem keys_untilBreak : UntilBreak .keys .value := ⟨rfl, fun _ => rfl⟩

theorem chunks_untilBreak (kind : Nat) : UntilBreak (.chunks kind) (.chunks kind) :=
  ⟨rfl, fun _ => rfl⟩

section
variable {bytes : List UInt8} {offset stop : Nat} {t : Traits} {f f' : Form}

theorem UntilBreak.rowAt_iff (h : UntilBreak f f') {lead : UInt8}
    (hlead : bytes[offset]? = some lead) :
    RowAt grammar bytes f offset stop t ↔
      (lead = 0xff ∧ stop = offset + 1 ∧ t = grammar.unit) ∨
      (lead ≠ 0xff ∧ ∃ middle a b, Item bytes offset middle a ∧
        RowAt grammar bytes f' middle stop b ∧ t = grammar.join f lead a b) := by
  rw [Delimited.rowAt_iff]
  constructor
  · rintro (⟨_, rest, hstop, hdrop, rfl, rfl⟩ | ⟨lead', g, middle, a, b, hlead', hnext, hv, hi, rfl⟩)
    · obtain rfl := Option.some.inj (h.stop.symm.trans hstop)
      rw [← List.head?_drop, hdrop] at hlead
      exact .inl ⟨(Option.some.inj hlead).symm, rfl, rfl⟩
    · obtain rfl := Option.some.inj (hlead.symm.trans hlead')
      rw [h.next] at hnext
      obtain ⟨hne, he⟩ := Option.ite_none_left_eq_some.mp hnext
      obtain rfl := Option.some.inj he
      exact .inr ⟨hne, middle, a, b, hv, hi, rfl⟩
  · rintro (⟨rfl, rfl, rfl⟩ | ⟨hne, middle, a, b, hv, hi, rfl⟩)
    · obtain ⟨hlt, hget⟩ := List.getElem?_eq_some_iff.mp hlead
      refine .inl ⟨[0xff], bytes.drop (offset + 1), h.stop, ?_, rfl, rfl⟩
      rw [List.drop_eq_getElem_cons hlt, hget]
      rfl
    · refine .inr ⟨lead, f', middle, a, b, hlead, ?_, hv, hi, rfl⟩
      rw [h.next, if_neg hne]

theorem UntilBreak.not_rowAt (h : UntilBreak f f') (hlead : bytes[offset]? = none) :
    ¬RowAt grammar bytes f offset stop t := by
  rw [Delimited.rowAt_iff]
  rintro (⟨_, rest, hstop, hdrop, -, -⟩ | ⟨lead, g, middle, a, b, hlead', -⟩)
  · obtain rfl := Option.some.inj (h.stop.symm.trans hstop)
    rw [← List.head?_drop, hdrop] at hlead
    cases hlead
  · rw [hlead] at hlead'
    cases hlead'

/-- The value of a key, and the other keys. -/
theorem rowAt_value_iff : RowAt grammar bytes .value offset stop t ↔
    ∃ lead middle a b, bytes[offset]? = some lead ∧ Item bytes offset middle a ∧
      RowAt grammar bytes .keys middle stop b ∧ t = grammar.join .value lead a b := by
  rw [Delimited.rowAt_iff]
  constructor
  · rintro (⟨_, rest, hstop, -⟩ | ⟨lead, g, middle, a, b, hlead, hnext, hv, hi, rfl⟩)
    · cases hstop
    · obtain rfl := Option.some.inj hnext
      exact ⟨lead, middle, a, b, hlead, hv, hi, rfl⟩
  · rintro ⟨lead, middle, a, b, hlead, hv, hi, rfl⟩
    exact .inr ⟨lead, .keys, middle, a, b, hlead, rfl, hv, hi, rfl⟩

end

end CborItems
