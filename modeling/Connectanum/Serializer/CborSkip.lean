import Mathlib.Tactic.IntervalCases
import Connectanum.Lib.CborItems
import Connectanum.Serializer.Skipping

/-!
# Serializer — Skipping CBOR items

The client's CBOR deserializer finds the ends of items without decoding them.

* `skipCborValue`, `parseCborTopLevelRanges`: the code;
* `skipCborValue_iff`: the skipper gives an end if and only if there is an item, in a grammar that is
  wider than the standard, without a number beyond 31 bits in eight bytes;
* `skipCborValue_exact`: where it gives the ends of well-formed items, and no others;
* `stray_break`: a break in place of an item.
-/

namespace Connectanum

open Cbor (major info)
open CborItems Delimited

namespace CborSerializer

/-! ### The skipper -/

section
variable (bytes : List UInt8)

/-- `getUint8`, `getUint16`, `getUint32` and the number of both halves, where the bytes are there. -/
def readUint (offset width : Nat) : Option (Nat × Nat) :=
  if offset + width > bytes.length then none
  else some (BigEndian.read ((bytes.drop offset).take width), offset + width)

/-- `_readCborLength`: the length, `none` if it is unknown, and the offset after it. -/
def readCborLength (offset additionalInfo : Nat) : Option (Option Nat × Nat) :=
  if additionalInfo < 24 then some (some additionalInfo, offset)
  else match additionalInfo with
    | 24 => (readUint bytes offset 1).map fun r => (some r.1, r.2)
    | 25 => (readUint bytes offset 2).map fun r => (some r.1, r.2)
    | 26 => (readUint bytes offset 4).map fun r => (some r.1, r.2)
    | 27 =>
        match readUint bytes offset 8 with
        | none => none
        | some (value, next) => if value > 0x7fffffff then none else some (some value, next)
    | 31 => some (none, offset)
    | _ => none

def collectionLength : String := "CBOR collection length exceeds available bytes"

/-- The `while (true)` of strings and arrays, which goes through so many rounds. -/
def skipUntilBreak (skip : Nat → Skipped) : (rounds current : Nat) → Skipped
  | 0, _ => .ok none
  | n + 1, current =>
      match bytes[current]? with
      | none => .ok none
      | some byte =>
          if byte = 0xff then .ok (some (current + 1))
          else (skip current).andThen (skipUntilBreak skip n)

/-- The `while (true)` of maps. -/
def skipPairsUntilBreak (skip : Nat → Skipped) : (rounds current : Nat) → Skipped
  | 0, _ => .ok none
  | n + 1, current =>
      match bytes[current]? with
      | none => .ok none
      | some byte =>
          if byte = 0xff then .ok (some (current + 1))
          else (skip current).andThen fun nextKey =>
            (skip nextKey).andThen (skipPairsUntilBreak skip n)

/-- A body of a container, one level deeper. -/
def entered (parentDepth : Int) (body : Int → Skipped) : Skipped :=
  match enterSerializerContainer parentDepth with
  | .error e => .error e
  | .ok depth => body depth

section
variable (skip : Int → Nat → Skipped) (parentDepth : Int)

/-- `_skipDefiniteCborArray`, with the skipper of its items, which takes their depth. -/
def skipDefiniteCborArray (offset length : Nat) : Skipped :=
  if length = 0 then .ok (some offset)
  else if length > bytes.length - offset then .error collectionLength
  else entered parentDepth fun depth => skipTimes (skip depth) length offset

/-- `_skipDefiniteCborMap`. -/
def skipDefiniteCborMap (offset length : Nat) : Skipped :=
  if length = 0 then .ok (some offset)
  else if length > (bytes.length - offset) / 2 then .error collectionLength
  else entered parentDepth fun depth => skipTimes (skipPair (skip depth)) length offset

/-- `_skipIndefiniteCborStringsOrBytes`. -/
def skipIndefiniteCborStringsOrBytes (offset : Nat) : Skipped :=
  entered parentDepth fun depth => skipUntilBreak bytes (skip depth) bytes.length offset

/-- `_skipIndefiniteCborArray`. -/
def skipIndefiniteCborArray (offset : Nat) : Skipped :=
  entered parentDepth fun depth => skipUntilBreak bytes (skip depth) bytes.length offset

/-- `_skipIndefiniteCborMap`. -/
def skipIndefiniteCborMap (offset : Nat) : Skipped :=
  entered parentDepth fun depth => skipPairsUntilBreak bytes (skip depth) bytes.length offset

/-- The body of `_skipCborValue`. -/
def skipCborLead (offset : Nat) : Skipped :=
  match bytes[offset]? with
  | none => .ok none
  | some lead =>
      match readCborLength bytes (offset + 1) (lead &&& 0x1f).toNat with
      | none => .ok none
      | some (length, nextOffset) =>
          match (lead >>> 5).toNat with
          | 0 | 1 => .ok (some nextOffset)
          | 2 | 3 =>
              match length with
              | none => skipIndefiniteCborStringsOrBytes bytes skip parentDepth nextOffset
              | some length =>
                  if nextOffset + length ≤ bytes.length then .ok (some (nextOffset + length))
                  else .ok none
          | 4 =>
              match length with
              | none => skipIndefiniteCborArray bytes skip parentDepth nextOffset
              | some length => skipDefiniteCborArray bytes skip parentDepth nextOffset length
          | 5 =>
              match length with
              | none => skipIndefiniteCborMap bytes skip parentDepth nextOffset
              | some length => skipDefiniteCborMap bytes skip parentDepth nextOffset length
          | 6 => entered parentDepth fun depth => skip depth nextOffset
          | 7 => .ok (some nextOffset)
          | _ => .ok none

end

/-- `_skipCborValue`, through so many items that enclose each other. -/
def skipCborNested : (fuel : Nat) → (parentDepth : Int) → (offset : Nat) → Skipped
  | 0, _, _ => .ok none
  | fuel + 1, parentDepth, offset =>
      skipCborLead bytes (skipCborNested fuel) parentDepth offset

/-- `_skipCborValue`.  Each item is at least a byte longer than those inside. -/
def skipCborValue (offset : Nat) (parentDepth : Int) : Skipped :=
  skipCborNested bytes (bytes.length + 1) parentDepth offset

/-! ### Frames -/

/-- `_readCborArrayHeader`: the length, and the offset after it. -/
def readCborArrayHeader (offset : Nat) : Option (Nat × Nat) :=
  match bytes[offset]? with
  | none => none
  | some lead =>
      if (lead >>> 5).toNat ≠ 4 then none
      else match readCborLength bytes (offset + 1) (lead &&& 0x1f).toNat with
        | some (some length, nextOffset) => some (length, nextOffset)
        | _ => none

/-- The ranges of so many items, and the offset after the last one; or `null`. -/
def rangesFrom : (count offset : Nat) → Except String (Option (List (Nat × Nat) × Nat))
  | 0, offset => .ok (some ([], offset))
  | n + 1, offset =>
      match skipCborValue bytes offset 0 with
      | .error e => .error e
      | .ok none => .ok none
      | .ok (some next) =>
          (rangesFrom n next).map fun r => r.map fun r => ((offset, next) :: r.1, r.2)

/-- The check before one more field. -/
def checkFound (found : Nat) : Except String Unit :=
  if found = serializerMaxWampMessageFields then validateWampMessageFieldCount (found + 1)
  else .ok ()

/-- The ranges up to a break, with so many fields before them, and the offset after the break. -/
def rangesUntilBreak : (rounds found offset : Nat) →
    Except String (Option (List (Nat × Nat) × Nat))
  | 0, _, _ => .ok none
  | n + 1, found, offset =>
      match bytes[offset]? with
      | none => .ok none
      | some byte =>
          if byte = 0xff then .ok (some ([], offset + 1))
          else match checkFound found with
            | .error e => .error e
            | .ok () =>
                match skipCborValue bytes offset 0 with
                | .error e => .error e
                | .ok none => .ok none
                | .ok (some next) =>
                    (rangesUntilBreak n (found + 1) next).map fun r =>
                      r.map fun r => ((offset, next) :: r.1, r.2)

/-- The last check of a frame. -/
def complete (r : Option (List (Nat × Nat) × Nat)) :
    Except String (Option (List (Nat × Nat))) :=
  match r with
  | none => .ok none
  | some (ranges, offset) =>
      if offset ≠ bytes.length then .error "Trailing data after CBOR WAMP message"
      else .ok (some ranges)

/-- `_parseCborTopLevelRanges`. -/
def parseCborTopLevelRanges : Except String (Option (List (Nat × Nat))) :=
  if bytes[0]? = some 0x9f then rangesUntilBreak bytes bytes.length 0 1 >>= complete bytes
  else match readCborArrayHeader bytes 0 with
    | none => .ok none
    | some (length, nextOffset) => do
        validateWampMessageFieldCount length
        let r ← rangesFrom bytes length nextOffset
        complete bytes r

end

/-! ### The head -/

section
variable {bytes : List UInt8} {offset : Nat} {lead : UInt8}

theorem readUint_eq (bytes : List UInt8) (offset w : Nat) : readUint bytes offset w =
    if offset + w > bytes.length then none
    else some (BigEndian.read (countAt bytes offset w), offset + w) := rfl

theorem readUint_length (w : Nat) : (readUint bytes offset w).map (fun r => (some r.1, r.2)) =
    if offset + w ≤ bytes.length ∧ true = true then
      some (some (BigEndian.read (countAt bytes offset w)), offset + w)
    else none := by
  rw [readUint_eq]
  by_cases hfit : offset + w > bytes.length
  · rw [if_pos hfit, if_neg fun h => Nat.not_le.mpr hfit h.1]
    rfl
  · rw [if_neg hfit, if_pos ⟨Nat.not_lt.mp hfit, rfl⟩]
    rfl

/-- The head is read if it is there and its number is narrow. -/
theorem readCborLength_eq {w : Nat} (ho : offset ≤ bytes.length)
    (hw : widthOf (info lead) = some w) :
    readCborLength bytes offset (info lead) =
      if offset + w ≤ bytes.length ∧ headNarrow lead (countAt bytes offset w) = true then
        some (if info lead = 31 then none else some (argument lead (countAt bytes offset w)),
          offset + w)
      else none := by
  have hlt : info lead < 32 := Nat.mod_lt _ (by decide)
  rw [headNarrow, argument]
  unfold readCborLength
  generalize info lead = n at hw hlt ⊢
  by_cases hn : n < 24
  · obtain rfl := Option.some.inj ((widthOf_of_lt hn).symm.trans hw)
    have hne : n ≠ 27 ∧ n ≠ 31 := by omega
    simp [hn, hne, ho]
  · interval_cases n
    -- what is left are the arguments in bytes of their own, and the unknown length
    · obtain rfl : 1 = w := Option.some.inj hw
      exact readUint_length 1
    · obtain rfl : 2 = w := Option.some.inj hw
      exact readUint_length 2
    · obtain rfl : 4 = w := Option.some.inj hw
      exact readUint_length 4
    · obtain rfl : 8 = w := Option.some.inj hw
      change (match readUint bytes offset 8 with
        | none => none
        | some (value, next) => if value > 0x7fffffff then none else some (some value, next)) =
          if offset + 8 ≤ bytes.length ∧
            decide (BigEndian.read (countAt bytes offset 8) ≤ 0x7fffffff) = true then
              some (some (BigEndian.read (countAt bytes offset 8)), offset + 8)
            else none
      rw [readUint_eq]
      by_cases hfit : offset + 8 > bytes.length
      · rw [if_pos hfit, if_neg (by omega)]
      · rw [if_neg hfit]
        by_cases hnarrow : BigEndian.read (countAt bytes offset 8) ≤ 0x7fffffff
        · rw [if_pos ⟨Nat.not_lt.mp hfit, decide_eq_true hnarrow⟩]
          exact if_neg (Nat.not_lt.mpr hnarrow)
        · rw [if_neg fun h => hnarrow (of_decide_eq_true h.2)]
          exact if_pos (Nat.not_le.mp hnarrow)
    · cases hw
    · cases hw
    · cases hw
    · obtain rfl : 0 = w := Option.some.inj hw
      exact (if_pos ⟨ho, rfl⟩).symm

theorem readCborLength_none (hw : widthOf (info lead) = none) :
    readCborLength bytes offset (info lead) = none := by
  have hlt : info lead < 32 := Nat.mod_lt _ (by decide)
  unfold readCborLength
  generalize info lead = n at hw hlt ⊢
  by_cases hn : n < 24
  · rw [widthOf_of_lt hn] at hw
    cases hw
  · rw [if_neg hn]
    interval_cases n <;> first | rfl | cases hw

/-! ### Loops -/

/-- The code accepts the item in a container of this depth. -/
def Accepted (parentDepth : Int) (t : Traits) : Prop :=
  t.narrow = true ∧ Within parentDepth t.depth

theorem accepted_budget (parentDepth : Int) : Budget grammar (Accepted parentDepth) where
  unit := ⟨rfl, .inl rfl⟩
  join f lead a b := by
    rw [Accepted, Accepted, Accepted]
    change (a.narrow && b.narrow) = true ∧ Within parentDepth (max a.depth b.depth) ↔ _
    rw [Bool.and_eq_true, within_max]
    exact and_and_and_comm

section
variable {ok : Traits → Prop} (hok : Budget grammar ok) {skip : Nat → Skipped} {fuel : Nat}
  (hskip : Skips grammar bytes ok skip fuel)
include hok hskip

theorem skipUntilBreak_iff {f : Form} (hf : UntilBreak f f) (rounds : Nat) {offset : Nat}
    (ho : offset ≤ bytes.length) (hfuel : bytes.length - offset ≤ fuel)
    (hrounds : bytes.length - offset ≤ rounds) (stop : Nat) :
    skipUntilBreak bytes skip rounds offset = .ok (some stop) ↔
      ∃ t, RowAt grammar bytes f offset stop t ∧ ok t := by
  induction rounds generalizing offset with
  | zero =>
      have hnone : bytes[offset]? = none := List.getElem?_eq_none (by omega)
      rw [skipUntilBreak]
      exact ⟨fun h => (nomatch Except.ok.inj h), fun ⟨_, h, _⟩ => absurd h (hf.not_rowAt hnone)⟩
  | succ n ih =>
      rw [skipUntilBreak]
      cases hlead : bytes[offset]? with
      | none =>
          exact ⟨fun h => (nomatch Except.ok.inj h),
            fun ⟨_, h, _⟩ => absurd h (hf.not_rowAt hlead)⟩
      | some lead =>
          simp only [hf.rowAt_iff hlead]
          by_cases hbreak : lead = 0xff
          · rw [if_pos hbreak]
            constructor
            · intro h
              obtain rfl := Option.some.inj (Except.ok.inj h)
              exact ⟨_, .inl ⟨hbreak, rfl, rfl⟩, hok.unit⟩
            · rintro ⟨_, ⟨-, rfl, -⟩ | ⟨hne, -⟩, -⟩
              · rfl
              · exact absurd hbreak hne
          · rw [if_neg hbreak, Skipped.andThen_eq_some]
            constructor
            · rintro ⟨middle, hfirst, hothers⟩
              obtain ⟨a, hv, ha⟩ := (hskip offset ho hfuel middle).mp hfirst
              have hbounds := hv.bounds
              obtain ⟨b, hi, hb⟩ := (ih hbounds.2 (by omega) (by omega)).mp hothers
              exact ⟨_, .inr ⟨hbreak, middle, a, b, hv, hi, rfl⟩,
                (hok.join f lead a b).mpr ⟨ha, hb⟩⟩
            · rintro ⟨_, ⟨he, -⟩ | ⟨-, middle, a, b, hv, hi, rfl⟩, ht⟩
              · exact absurd he hbreak
              · obtain ⟨ha, hb⟩ := (hok.join f lead a b).mp ht
                have hbounds := hv.bounds
                exact ⟨middle, (hskip offset ho hfuel middle).mpr ⟨a, hv, ha⟩,
                  (ih hbounds.2 (by omega) (by omega)).mpr ⟨b, hi, hb⟩⟩

theorem skipPairsUntilBreak_iff (rounds : Nat) {offset : Nat}
    (ho : offset ≤ bytes.length) (hfuel : bytes.length - offset ≤ fuel)
    (hrounds : bytes.length - offset ≤ rounds) (stop : Nat) :
    skipPairsUntilBreak bytes skip rounds offset = .ok (some stop) ↔
      ∃ t, RowAt grammar bytes .keys offset stop t ∧ ok t := by
  induction rounds generalizing offset with
  | zero =>
      have hnone : bytes[offset]? = none := List.getElem?_eq_none (by omega)
      rw [skipPairsUntilBreak]
      exact ⟨fun h => (nomatch Except.ok.inj h),
        fun ⟨_, h, _⟩ => absurd h (keys_untilBreak.not_rowAt hnone)⟩
  | succ n ih =>
      rw [skipPairsUntilBreak]
      cases hlead : bytes[offset]? with
      | none =>
          exact ⟨fun h => (nomatch Except.ok.inj h),
            fun ⟨_, h, _⟩ => absurd h (keys_untilBreak.not_rowAt hlead)⟩
      | some lead =>
          simp only [keys_untilBreak.rowAt_iff hlead]
          by_cases hbreak : lead = 0xff
          · rw [if_pos hbreak]
            constructor
            · intro h
              obtain rfl := Option.some.inj (Except.ok.inj h)
              exact ⟨_, .inl ⟨hbreak, rfl, rfl⟩, hok.unit⟩
            · rintro ⟨_, ⟨-, rfl, -⟩ | ⟨hne, -⟩, -⟩
              · rfl
              · exact absurd hbreak hne
          · rw [if_neg hbreak, Skipped.andThen_eq_some]
            simp only [Skipped.andThen_eq_some]
            constructor
            · rintro ⟨key, hkey, value, hvalue, hothers⟩
              obtain ⟨a, hv, ha⟩ := (hskip offset ho hfuel key).mp hkey
              have hbounds := hv.bounds
              obtain ⟨b, hv', hb⟩ := (hskip key hbounds.2 (by omega) value).mp hvalue
              have hbounds' := hv'.bounds
              obtain ⟨c, hi, hc⟩ := (ih hbounds'.2 (by omega) (by omega)).mp hothers
              obtain ⟨lead', w, hlead', -⟩ := hv'.lead
              exact ⟨_, .inr ⟨hbreak, key, a, _, hv,
                rowAt_value_iff.mpr ⟨lead', value, b, c, hlead', hv', hi, rfl⟩, rfl⟩,
                (hok.join _ lead a _).mpr ⟨ha, (hok.join _ lead' b c).mpr ⟨hb, hc⟩⟩⟩
            · rintro ⟨_, ⟨he, -⟩ | ⟨-, key, a, r, hv, hi, rfl⟩, ht⟩
              · exact absurd he hbreak
              · obtain ⟨ha, hr⟩ := (hok.join _ lead a r).mp ht
                obtain ⟨lead', value, b, c, -, hv', hi', rfl⟩ := rowAt_value_iff.mp hi
                obtain ⟨hb, hc⟩ := (hok.join _ lead' b c).mp hr
                have hbounds := hv.bounds
                have hbounds' := hv'.bounds
                exact ⟨key, (hskip offset ho hfuel key).mpr ⟨a, hv, ha⟩, value,
                  (hskip key hbounds.2 (by omega) value).mpr ⟨b, hv', hb⟩,
                  (ih hbounds'.2 (by omega) (by omega)).mpr ⟨c, hi', hc⟩⟩

end

/-- A row one level deeper. -/
theorem entered_iff {f : Form} {parentDepth : Int} {body : Int → Skipped} {stop : Nat}
    (hbody : ∀ d, body d = .ok (some stop) ↔
      ∃ t, RowAt grammar bytes f offset stop t ∧ Accepted d t) :
    entered parentDepth body = .ok (some stop) ↔
      ∃ t, RowAt grammar bytes f offset stop t ∧ t.narrow = true ∧
        Within parentDepth (t.depth + 1) := by
  rw [entered]
  simp only [Accepted, ← and_assoc] at hbody ⊢
  exact enter_iff hbody

/-! ### The lead byte -/

theorem lead_fields : ∀ lead : UInt8,
    (lead &&& 0x1f).toNat = info lead ∧ (lead >>> 5).toNat = major lead :=
  forall_byte (by decide +kernel)

/-- What is accepted of an item, by its head and the row inside. -/
theorem accepted_item_iff {lead : UInt8} {w stop : Nat} {parentDepth : Int}
    (hlead : bytes[offset]? = some lead) (hw : widthOf (info lead) = some w) :
    (∃ t, Item bytes offset stop t ∧ Accepted parentDepth t) ↔
      (offset + 1 + w + contentOf lead (countAt bytes (offset + 1) w) ≤ bytes.length ∧
        headNarrow lead (countAt bytes (offset + 1) w) = true) ∧
      ∃ t, RowAt grammar bytes (innerOf lead (countAt bytes (offset + 1) w))
          (offset + 1 + w + contentOf lead (countAt bytes (offset + 1) w)) stop t ∧
        t.narrow = true ∧
        Within parentDepth (enclose (innerOf lead (countAt bytes (offset + 1) w)) t.depth) := by
  simp only [valueAt_iff (g := grammar) hlead hw]
  constructor
  · rintro ⟨_, ⟨hfit, t, hi, rfl⟩, hnarrow, hdepth⟩
    obtain ⟨hhead, hinner⟩ := Bool.and_eq_true_iff.mp hnarrow
    exact ⟨⟨hfit, hhead⟩, t, hi, hinner, hdepth⟩
  · rintro ⟨⟨hfit, hhead⟩, t, hi, hinner, hdepth⟩
    exact ⟨_, ⟨hfit, t, hi, rfl⟩, Bool.and_eq_true_iff.mpr ⟨hhead, hinner⟩, hdepth⟩

/-- No items inside. -/
theorem leaf_iff (parentDepth : Int) {next stop : Nat} :
    (.ok (some next) : Skipped) = .ok (some stop) ↔
      ∃ t, RowAt grammar bytes (.items 0) next stop t ∧ t.narrow = true ∧
        Within parentDepth (enclose (.items 0) t.depth) := by
  constructor
  · intro h
    obtain rfl := Option.some.inj (Except.ok.inj h)
    exact ⟨grammar.unit, grammar_counted.zero_iff.mpr ⟨rfl, rfl⟩, rfl, .inl rfl⟩
  · rintro ⟨t, hi, -⟩
    rw [(grammar_counted.zero_iff.mp hi).1]

/-- The bytes of a string, if they are there. -/
theorem string_iff {parentDepth : Int} {next stop : Nat} (n : Nat) :
    (if next + n ≤ bytes.length then .ok (some (next + n)) else .ok none : Skipped) =
        .ok (some stop) ↔
      next + n ≤ bytes.length ∧ ∃ t, RowAt grammar bytes (.items 0) (next + n) stop t ∧
        t.narrow = true ∧ Within parentDepth (enclose (.items 0) t.depth) := by
  by_cases hfit : next + n ≤ bytes.length
  · rw [if_pos hfit, leaf_iff parentDepth]
    exact ⟨fun h => ⟨hfit, h⟩, fun h => h.2⟩
  · rw [if_neg hfit]
    exact ⟨fun h => (nomatch Except.ok.inj h), fun h => absurd h.1 hfit⟩

/-- Rows that are there have no more items than bytes. -/
theorem count_le {n next stop : Nat} {t : Traits} (ho : next ≤ bytes.length)
    (h : RowAt grammar bytes (.items n) next stop t) : n ≤ bytes.length - next := by
  have hcount := grammar_counted.count_le h
  have hbounds := h.bounds ho
  omega

section
variable {skip : Int → Nat → Skipped} {fuel : Nat}
  (hskip : ∀ depth, Skips grammar bytes (Accepted depth) (skip depth) fuel)
  {parentDepth : Int} {next : Nat} (ho : next ≤ bytes.length) (hfuel : bytes.length - next ≤ fuel)
  {stop : Nat}
include hskip ho hfuel

/-- So many items, one level deeper unless there are none. -/
theorem entered_items_iff {n : Nat} {p : Prop} [Decidable p] {e : String}
    {l : (Nat → Skipped) → Nat → Skipped} (hp : p → bytes.length - next < n)
    (hl : ∀ skip, l skip next = skipTimes skip n next) :
    (if n = 0 then .ok (some next) else if p then .error e
      else entered parentDepth fun depth => l (skip depth) next) = .ok (some stop) ↔
      ∃ t, RowAt grammar bytes (.items n) next stop t ∧ t.narrow = true ∧
        Within parentDepth (enclose (.items n) t.depth) := by
  cases n with
  | zero =>
      rw [if_pos rfl]
      exact leaf_iff parentDepth
  | succ k =>
      rw [if_neg (Nat.succ_ne_zero k)]
      simp only [hl]
      refine unchecked_iff (entered_iff fun depth =>
        skipTimes_iff grammar_counted (accepted_budget depth) (hskip depth) (k + 1) ho hfuel
          stop) ?_
      rintro hlt ⟨t, hi, -⟩
      exact absurd (count_le ho hi) (Nat.not_le.mpr (hp hlt))

theorem skipDefiniteCborArray_iff (n : Nat) :
    skipDefiniteCborArray bytes skip parentDepth next n = .ok (some stop) ↔
      ∃ t, RowAt grammar bytes (.items n) next stop t ∧ t.narrow = true ∧
        Within parentDepth (enclose (.items n) t.depth) :=
  entered_items_iff hskip ho hfuel (l := fun skip => skipTimes skip n) id fun _ => rfl

theorem skipDefiniteCborMap_iff (n : Nat) :
    skipDefiniteCborMap bytes skip parentDepth next n = .ok (some stop) ↔
      ∃ t, RowAt grammar bytes (.items (2 * n)) next stop t ∧ t.narrow = true ∧
        Within parentDepth (enclose (.items (2 * n)) t.depth) := by
  rw [skipDefiniteCborMap, ← entered_items_iff hskip ho hfuel
    (l := fun skip => skipTimes (skipPair skip) n) (p := n > (bytes.length - next) / 2)
    (e := collectionLength) (by omega) fun skip => skipTimes_skipPair skip n next]
  have hzero : n = 0 ↔ 2 * n = 0 := by omega
  simp only [hzero]

/-- A tag, with the one item behind it. -/
theorem tagged_iff :
    (entered parentDepth fun depth => skip depth next) = .ok (some stop) ↔
      ∃ t, RowAt grammar bytes (.items 1) next stop t ∧ t.narrow = true ∧
        Within parentDepth (t.depth + 1) := by
  refine entered_iff fun depth => ?_
  rw [← skipTimes_iff grammar_counted (accepted_budget depth) (hskip depth) 1 ho hfuel stop]
  change _ ↔ (skip depth next).andThen (fun current => .ok (some current)) = .ok (some stop)
  rw [Skipped.andThen_eq_some]
  constructor
  · intro h
    exact ⟨stop, h, rfl⟩
  · rintro ⟨middle, h, he⟩
    obtain rfl := Option.some.inj (Except.ok.inj he)
    exact h

end

/-- **The lead byte** and what stands behind it. -/
theorem skipCborLead_skips {skip : Int → Nat → Skipped} {fuel : Nat}
    (hskip : ∀ depth, Skips grammar bytes (Accepted depth) (skip depth) fuel)
    (parentDepth : Int) :
    Skips grammar bytes (Accepted parentDepth) (skipCborLead bytes skip parentDepth)
      (fuel + 1) := by
  intro offset ho hf stop
  rw [skipCborLead]
  cases hlead : bytes[offset]? with
  | none =>
      refine ⟨fun h => absurd (Except.ok.inj h) (by simp), ?_⟩
      rintro ⟨_, hv, _⟩
      exact absurd hv (not_valueAt_end (List.getElem?_eq_none_iff.mp hlead))
  | some lead =>
      have hlt := (List.getElem?_eq_some_iff.mp hlead).1
      dsimp only
      rw [(lead_fields _).1, (lead_fields _).2]
      cases hw : widthOf (info lead) with
      | none =>
          rw [readCborLength_none hw]
          refine ⟨fun h => absurd (Except.ok.inj h) (by simp), ?_⟩
          rintro ⟨_, hv, _⟩
          obtain ⟨lead', w, hlead', hw'⟩ := hv.lead
          obtain rfl := Option.some.inj (hlead.symm.trans hlead')
          rw [show grammar.width lead = widthOf (info lead) from rfl, hw] at hw'
          cases hw'
      | some w =>
          rw [accepted_item_iff hlead hw, readCborLength_eq hlt hw]
          generalize hc : countAt bytes (offset + 1) w = count
          by_cases hhead : offset + 1 + w ≤ bytes.length ∧ headNarrow lead count = true
          · rw [if_pos hhead]
            obtain ⟨hfit, hnarrow⟩ := hhead
            have hnext : bytes.length - (offset + 1 + w) ≤ fuel := by omega
            have hbounded : major lead < 8 := by
              rw [major]
              have hbyte := lead.toNat_lt
              omega
            dsimp only
            -- the unknown length, and the known one
            by_cases hi : info lead = 31
            · rw [if_pos hi]
              have hcontent : contentOf lead count = 0 := by rw [contentOf, if_pos hi]
              rw [hcontent, Nat.add_zero]
              simp only [hfit, hnarrow, and_self, true_and, innerOf, if_pos hi]
              generalize major lead = kind at hbounded ⊢
              interval_cases kind
              · exact leaf_iff parentDepth
              · exact leaf_iff parentDepth
              · exact entered_iff fun depth => skipUntilBreak_iff (accepted_budget depth)
                  (hskip depth) (chunks_untilBreak 2) _ hfit hnext (by omega) stop
              · exact entered_iff fun depth => skipUntilBreak_iff (accepted_budget depth)
                  (hskip depth) (chunks_untilBreak 3) _ hfit hnext (by omega) stop
              · exact entered_iff fun depth => skipUntilBreak_iff (accepted_budget depth)
                  (hskip depth) elements_untilBreak _ hfit hnext (by omega) stop
              · exact entered_iff fun depth => skipPairsUntilBreak_iff (accepted_budget depth)
                  (hskip depth) _ hfit hnext (by omega) stop
              · exact tagged_iff hskip hfit hnext
              · exact leaf_iff parentDepth
            · rw [if_neg hi]
              simp only [hnarrow, and_true, contentOf, innerOf, if_neg hi]
              generalize argument lead count = n
              generalize major lead = kind at hbounded ⊢
              interval_cases kind
              · simp only [Nat.add_zero, hfit, true_and]
                exact leaf_iff parentDepth
              · simp only [Nat.add_zero, hfit, true_and]
                exact leaf_iff parentDepth
              · exact string_iff n
              · exact string_iff n
              · simp only [Nat.add_zero, hfit, true_and]
                exact skipDefiniteCborArray_iff hskip hfit hnext n
              · simp only [Nat.add_zero, hfit, true_and]
                exact skipDefiniteCborMap_iff hskip hfit hnext n
              · simp only [Nat.add_zero, hfit, true_and]
                exact tagged_iff hskip hfit hnext
              · simp only [Nat.add_zero, hfit, true_and]
                exact leaf_iff parentDepth
          · rw [if_neg hhead]
            refine ⟨fun h => absurd (Except.ok.inj h) (by simp), ?_⟩
            rintro ⟨⟨hfit, hnarrow⟩, _⟩
            exact absurd ⟨by omega, hnarrow⟩ hhead

theorem skipCborNested_skips (fuel : Nat) (parentDepth : Int) :
    Skips grammar bytes (Accepted parentDepth) (skipCborNested bytes fuel parentDepth) fuel := by
  induction fuel generalizing parentDepth with
  | zero =>
      intro offset ho hf stop
      rw [skipCborNested]
      refine ⟨fun h => (nomatch Except.ok.inj h), fun ⟨_, hv, _⟩ => ?_⟩
      exact absurd hv (not_valueAt_end (by omega))
  | succ fuel ih => exact skipCborLead_skips ih parentDepth

/-- **The skipper** gives the end of an item, if it is nested within the limit and its numbers are
narrow. -/
theorem skipCborValue_iff (bytes : List UInt8) (offset stop : Nat) (parentDepth : Int) :
    skipCborValue bytes offset parentDepth = .ok (some stop) ↔
      ∃ t, Item bytes offset stop t ∧ Accepted parentDepth t := by
  by_cases ho : offset ≤ bytes.length
  · rw [skipCborValue, skipCborNested_skips _ parentDepth offset ho (by omega) stop]
  · have hnone : bytes[offset]? = none := List.getElem?_eq_none (by omega)
    rw [skipCborValue, skipCborNested, skipCborLead, hnone]
    refine ⟨fun h => (nomatch Except.ok.inj h), fun ⟨_, hv, _⟩ => ?_⟩
    exact absurd hv (not_valueAt_end (by omega))

end

/-! ### Well-formed items -/

/-- The skipper succeeds if and only if a well-formed item within the limit starts there, and it
advances by its length. -/
def Exact (bytes : List UInt8) (offset : Nat) (parentDepth : Int) : Prop :=
  ∀ stop, skipCborValue bytes offset parentDepth = .ok (some stop) ↔
    ∃ t, Item bytes offset stop t ∧ t.wellFormed = true ∧ Within parentDepth t.depth

/-- The item that starts there, if it is within the limit, is well-formed if and only if it has no
number beyond 31 bits in eight bytes. -/
def Faithful (bytes : List UInt8) (offset : Nat) (parentDepth : Int) : Prop :=
  ∀ stop t, Item bytes offset stop t → Within parentDepth t.depth → t.wellFormed = t.narrow

theorem exact_iff_faithful (bytes : List UInt8) (offset : Nat) (parentDepth : Int) :
    Exact bytes offset parentDepth ↔ Faithful bytes offset parentDepth := by
  simp only [Exact, skipCborValue_iff, Accepted]
  constructor
  · intro h stop t hi hd
    rw [Bool.eq_iff_iff]
    constructor
    · intro hwell
      obtain ⟨t', hi', hnarrow, -⟩ := (h stop).mpr ⟨t, hi, hwell, hd⟩
      rwa [(hi.unique grammar_separated hi').2]
    · intro hnarrow
      obtain ⟨t', hi', hwell, -⟩ := (h stop).mp ⟨t, hi, hnarrow, hd⟩
      rwa [(hi.unique grammar_separated hi').2]
  · intro h stop
    refine exists_congr fun t => and_congr_right fun hi => ?_
    constructor
    · rintro ⟨hnarrow, hd⟩
      exact ⟨(h stop t hi hd).trans hnarrow, hd⟩
    · rintro ⟨hwell, hd⟩
      exact ⟨(h stop t hi hd).symm.trans hwell, hd⟩

/-! ### Ranges -/

/-- A range is a value, as the skipper gave it. -/
theorem partition_cons {bytes : List UInt8} {start next stop : Nat} {ranges : List (Nat × Nat)}
    (hskip : skipCborValue bytes start 0 = .ok (some next))
    (h : Partition grammar bytes next ranges stop ∧
      ∀ r ∈ ranges, skipCborValue bytes r.1 0 = .ok (some r.2)) :
    Partition grammar bytes start ((start, next) :: ranges) stop ∧
      ∀ r ∈ (start, next) :: ranges, skipCborValue bytes r.1 0 = .ok (some r.2) := by
  obtain ⟨t, hi, -⟩ := (skipCborValue_iff bytes start next 0).mp hskip
  exact ⟨.cons hi h.1, List.forall_mem_cons.mpr ⟨hskip, h.2⟩⟩

theorem rangesFrom_partition {bytes : List UInt8} (n : Nat) {offset stop : Nat}
    {ranges : List (Nat × Nat)} (h : rangesFrom bytes n offset = .ok (some (ranges, stop))) :
    ranges.length = n ∧ Partition grammar bytes offset ranges stop ∧
      ∀ r ∈ ranges, skipCborValue bytes r.1 0 = .ok (some r.2) := by
  induction n generalizing offset ranges with
  | zero =>
      obtain ⟨rfl, rfl⟩ := Prod.mk.inj (Option.some.inj (Except.ok.inj h))
      exact ⟨rfl, .nil _, List.forall_mem_nil _⟩
  | succ n ih =>
      rw [rangesFrom] at h
      split at h
      · cases h
      · cases Except.ok.inj h
      · next next hnext =>
        match hrest : rangesFrom bytes n next, h with
        | .error e, h => cases h
        | .ok none, h => cases Except.ok.inj h
        | .ok (some r), h =>
            obtain ⟨rfl, rfl⟩ := Prod.mk.inj (Option.some.inj (Except.ok.inj h))
            obtain ⟨hlength, hpart⟩ := ih hrest
            exact ⟨congrArg (· + 1) hlength, partition_cons hnext hpart⟩

theorem rangesUntilBreak_partition {bytes : List UInt8} (n : Nat) {found offset stop : Nat}
    {ranges : List (Nat × Nat)}
    (h : rangesUntilBreak bytes n found offset = .ok (some (ranges, stop))) :
    ∃ last, stop = last + 1 ∧ bytes[last]? = some 0xff ∧
      Partition grammar bytes offset ranges last ∧
      ∀ r ∈ ranges, skipCborValue bytes r.1 0 = .ok (some r.2) := by
  induction n generalizing found offset ranges with
  | zero => cases Except.ok.inj h
  | succ n ih =>
      rw [rangesUntilBreak] at h
      split at h
      · cases Except.ok.inj h
      · next byte hbyte =>
        split at h
        · next hbreak =>
          obtain ⟨rfl, rfl⟩ := Prod.mk.inj (Option.some.inj (Except.ok.inj h))
          exact ⟨offset, rfl, by rw [hbyte, hbreak], .nil _, List.forall_mem_nil _⟩
        · split at h
          · cases h
          · split at h
            · cases h
            · cases Except.ok.inj h
            · next next hnext =>
              match hrest : rangesUntilBreak bytes n (found + 1) next, h with
              | .error e, h => cases h
              | .ok none, h => cases Except.ok.inj h
              | .ok (some r), h =>
                  obtain ⟨rfl, rfl⟩ := Prod.mk.inj (Option.some.inj (Except.ok.inj h))
                  obtain ⟨last, hlast, hbreak, hpart⟩ := ih hrest
                  exact ⟨last, hlast, hbreak, partition_cons hnext hpart⟩

/-- The frame is an array header or an open array, and the ranges are all that is in it. -/
def Framed (bytes : List UInt8) (ranges : List (Nat × Nat)) (start stop : Nat) : Prop :=
  (bytes[0]? = some 0x9f ∧ start = 1 ∧ bytes[stop]? = some 0xff ∧ stop + 1 = bytes.length) ∨
  (readCborArrayHeader bytes 0 = some (ranges.length, start) ∧ stop = bytes.length)

/-- The range is one well-formed item, and no other item begins where it does. -/
def HoldsOneItem (bytes : List UInt8) (range : Nat × Nat) : Prop :=
  ∃ t, Item bytes range.1 range.2 t ∧ t.wellFormed = true ∧
    ∀ stop t', Item bytes range.1 stop t' → stop = range.2 ∧ t' = t

theorem parseCborTopLevelRanges_partition {bytes : List UInt8} {ranges : List (Nat × Nat)}
    (h : parseCborTopLevelRanges bytes = .ok (some ranges)) :
    ∃ start stop, Framed bytes ranges start stop ∧ Partition grammar bytes start ranges stop ∧
      ∀ r ∈ ranges, skipCborValue bytes r.1 0 = .ok (some r.2) := by
  have hcomplete {r : Option (List (Nat × Nat) × Nat)}
      (h : complete bytes r = .ok (some ranges)) : r = some (ranges, bytes.length) := by
    match r, h with
    | none, h => cases Except.ok.inj h
    | some (found, stop), h =>
        rw [complete] at h
        split at h
        · cases h
        · next hend =>
          obtain rfl := Option.some.inj (Except.ok.inj h)
          rw [Decidable.not_not.mp hend]
  rw [parseCborTopLevelRanges] at h
  split at h
  · next hopen =>
    match hr : rangesUntilBreak bytes bytes.length 0 1, h with
    | .error e, h => cases h
    | .ok r, h =>
        obtain rfl := hcomplete h
        obtain ⟨last, hlast, hbreak, hpart⟩ := rangesUntilBreak_partition _ hr
        exact ⟨1, last, .inl ⟨hopen, rfl, hbreak, hlast.symm⟩, hpart⟩
  · split at h
    · cases Except.ok.inj h
    · next n start hheader =>
      match hcount : validateWampMessageFieldCount n, h with
      | .error e, h => cases h
      | .ok u, h =>
          match hr : rangesFrom bytes n start, h with
          | .error e, h => cases h
          | .ok r, h =>
              obtain rfl := hcomplete h
              obtain ⟨hlength, hpart⟩ := rangesFrom_partition n hr
              exact ⟨start, bytes.length, .inr ⟨by rw [hheader, hlength], rfl⟩, hpart⟩

/-- **Skipping is exact** where the item that starts there, if any, is faithful: neither malformed
nor with a number beyond 31 bits in eight bytes, or both.  The ranges of an accepted frame follow
each other, and each of them that is faithful is one well-formed item. -/
theorem skipCborValue_exact (bytes : List UInt8) :
    (∀ offset parentDepth, Exact bytes offset parentDepth ↔ Faithful bytes offset parentDepth) ∧
    ∀ ranges, parseCborTopLevelRanges bytes = .ok (some ranges) →
      ∃ start stop, Framed bytes ranges start stop ∧ Partition grammar bytes start ranges stop ∧
        ∀ r ∈ ranges, HoldsOneItem bytes r ↔ Faithful bytes r.1 0 := by
  refine ⟨exact_iff_faithful bytes, fun ranges h => ?_⟩
  obtain ⟨start, stop, hframed, hpart, hskip⟩ := parseCborTopLevelRanges_partition h
  refine ⟨start, stop, hframed, hpart, fun r hr => ?_⟩
  obtain ⟨t, hi, hnarrow, hd⟩ := (skipCborValue_iff bytes r.1 r.2 0).mp (hskip r hr)
  constructor
  · rintro ⟨t', hi', hwell, -⟩ stop' t'' hi'' -
    rw [(hi''.unique grammar_separated hi).2, hnarrow, ← (hi'.unique grammar_separated hi).2, hwell]
  · intro hfaithful
    exact ⟨t, hi, (hfaithful r.2 t hi hd).trans hnarrow,
      fun _ _ hi' => hi'.unique grammar_separated hi⟩

/-- **A break in place of an item** is skipped as if it were one. -/
theorem stray_break : ¬∀ bytes offset parentDepth, Exact bytes offset parentDepth := by
  intro h
  obtain ⟨t, hi, hwell, -⟩ := (h [0xff] 0 0 1).mp rfl
  have hbreak : Item [0xff] 0 1 ⟨0, false, true⟩ :=
    ⟨[0xff], [], rfl, rfl, @Value.mk _ _ grammar 0xff [] [] [] _ rfl rfl (.stop rfl)⟩
  rw [(hi.unique grammar_separated hbreak).2] at hwell
  cases hwell

end CborSerializer

end Connectanum
