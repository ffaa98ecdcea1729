import Mathlib.Tactic.IntervalCases
import Connectanum.Lib.MsgPack
import Connectanum.Serializer.Skipping

/-!
# Serializer — Skipping MessagePack values

The client's MessagePack deserializer finds the ends of values without decoding them.  It has two
skippers: a plain one for small frames, and one that limits the nesting.

* `skipMsgPackValue`, `skipDepthLimitedMsgPackValue`, `parseMsgPackTopLevelRanges`: the code;
* `skipMsgPackLead_eq`: what the switch over the lead byte does, by the grammar;
* `skipMsgPackValue_iff`, `skipDepthLimitedMsgPackValue_iff`: each gives an end if and only if there
  is a value, which is nested within the limit;
* `msgpack_skippers_agree`: the two against each other, and the ranges of a frame.
-/

namespace Connectanum

open Delimited MsgPack

namespace MsgPackSerializer

/-! ### The skippers -/

section
variable (bytes : List UInt8)

/-- `_readMsgPackLength`. -/
def readMsgPackLength (offset lengthBytes : Nat) : Option Nat :=
  if offset + lengthBytes > bytes.length then none
  else match lengthBytes with
    | 1 | 2 | 4 => some (BigEndian.read ((bytes.drop offset).take lengthBytes))
    | _ => none

/-- `_advanceMsgPackOffset`. -/
def advanceMsgPackOffset (offset length : Nat) : Option Nat :=
  if offset + length > bytes.length then none else some (offset + length)

/-- `_skipMsgPackLengthPrefixed`. -/
def skipMsgPackLengthPrefixed (offset lengthBytes : Nat) : Option Nat :=
  match readMsgPackLength bytes offset lengthBytes with
  | none => none
  | some length => advanceMsgPackOffset bytes (offset + lengthBytes) length

/-- `_skipMsgPackExt`. -/
def skipMsgPackExt (offset lengthBytes : Nat) : Option Nat :=
  match readMsgPackLength bytes offset lengthBytes with
  | none => none
  | some length => advanceMsgPackOffset bytes (offset + lengthBytes + 1) length

/-- The length of a container, and its skipper after it. -/
def sizedContainer (offset lengthBytes : Nat) (container : Nat → Nat → Skipped) : Skipped :=
  match readMsgPackLength bytes offset lengthBytes with
  | none => .ok none
  | some length => container (offset + lengthBytes) length

/-- The body of `_skipMsgPackValue` and of `_skipDepthLimitedMsgPackValue`, with the skippers of
arrays and maps that each of them calls, which take an offset and a length. -/
def skipMsgPackLead (array map : Nat → Nat → Skipped) (offset : Nat) : Skipped :=
  match bytes[offset]? with
  | none => .ok none
  | some lead =>
      if lead ≤ 0x7f ∨ lead ≥ 0xe0 then .ok (some (offset + 1))
      else if lead &&& 0xe0 = 0xa0 then
        .ok (advanceMsgPackOffset bytes (offset + 1) (lead &&& 0x1f).toNat)
      else if lead &&& 0xf0 = 0x90 then array (offset + 1) (lead &&& 0x0f).toNat
      else if lead &&& 0xf0 = 0x80 then map (offset + 1) (lead &&& 0x0f).toNat
      else match lead.toNat with
        | 0xc0 | 0xc2 | 0xc3 => .ok (some (offset + 1))
        | 0xcc | 0xd0 => .ok (advanceMsgPackOffset bytes (offset + 1) 1)
        | 0xcd | 0xd1 => .ok (advanceMsgPackOffset bytes (offset + 1) 2)
        | 0xce | 0xd2 | 0xca => .ok (advanceMsgPackOffset bytes (offset + 1) 4)
        | 0xcf | 0xd3 | 0xcb => .ok (advanceMsgPackOffset bytes (offset + 1) 8)
        | 0xd9 => .ok (skipMsgPackLengthPrefixed bytes (offset + 1) 1)
        | 0xda => .ok (skipMsgPackLengthPrefixed bytes (offset + 1) 2)
        | 0xdb => .ok (skipMsgPackLengthPrefixed bytes (offset + 1) 4)
        | 0xc4 => .ok (skipMsgPackLengthPrefixed bytes (offset + 1) 1)
        | 0xc5 => .ok (skipMsgPackLengthPrefixed bytes (offset + 1) 2)
        | 0xc6 => .ok (skipMsgPackLengthPrefixed bytes (offset + 1) 4)
        | 0xdc => sizedContainer bytes (offset + 1) 2 array
        | 0xdd => sizedContainer bytes (offset + 1) 4 array
        | 0xde => sizedContainer bytes (offset + 1) 2 map
        | 0xdf => sizedContainer bytes (offset + 1) 4 map
        | 0xd4 => .ok (advanceMsgPackOffset bytes (offset + 2) 1)
        | 0xd5 => .ok (advanceMsgPackOffset bytes (offset + 2) 2)
        | 0xd6 => .ok (advanceMsgPackOffset bytes (offset + 2) 4)
        | 0xd7 => .ok (advanceMsgPackOffset bytes (offset + 2) 8)
        | 0xd8 => .ok (advanceMsgPackOffset bytes (offset + 2) 16)
        | 0xc7 => .ok (skipMsgPackExt bytes (offset + 1) 1)
        | 0xc8 => .ok (skipMsgPackExt bytes (offset + 1) 2)
        | 0xc9 => .ok (skipMsgPackExt bytes (offset + 1) 4)
        | _ => .ok none

end

def exceedsAvailable : String := "MessagePack collection length exceeds available bytes"

section
variable (bytes : List UInt8)

/-- `_skipMsgPackArray`, with the skipper of its values. -/
def skipMsgPackArray (skip : Nat → Skipped) (offset length : Nat) : Skipped :=
  if length > bytes.length - offset then .error exceedsAvailable
  else skipTimes skip length offset

/-- `_skipMsgPackMap`. -/
def skipMsgPackMap (skip : Nat → Skipped) (offset length : Nat) : Skipped :=
  if length > (bytes.length - offset) / 2 then .error exceedsAvailable
  else skipTimes (skipPair skip) length offset

/-- `_skipMsgPackValue`, through so many values that enclose each other. -/
def skipMsgPackNested : (fuel offset : Nat) → Skipped
  | 0, _ => .ok none
  | fuel + 1, offset =>
      let skip := skipMsgPackNested fuel
      skipMsgPackLead bytes (skipMsgPackArray bytes skip) (skipMsgPackMap bytes skip) offset

/-- `_skipMsgPackValue`.  Each value is at least a byte longer than those inside. -/
def skipMsgPackValue (offset : Nat) : Skipped :=
  skipMsgPackNested bytes (bytes.length + 1) offset

/-- `_skipDepthLimitedMsgPackArray`, with the skipper of its values, which takes their depth. -/
def skipDepthLimitedMsgPackArray (skip : Int → Nat → Skipped) (parentDepth : Int)
    (offset length : Nat) : Skipped :=
  if length = 0 then .ok (some offset)
  else if length > bytes.length - offset then .error exceedsAvailable
  else match enterSerializerContainer parentDepth with
    | .error e => .error e
    | .ok depth => skipTimes (skip depth) length offset

/-- `_skipDepthLimitedMsgPackMap`. -/
def skipDepthLimitedMsgPackMap (skip : Int → Nat → Skipped) (parentDepth : Int)
    (offset length : Nat) : Skipped :=
  if length = 0 then .ok (some offset)
  else if length > (bytes.length - offset) / 2 then .error exceedsAvailable
  else match enterSerializerContainer parentDepth with
    | .error e => .error e
    | .ok depth => skipTimes (skipPair (skip depth)) length offset

def skipDepthLimitedMsgPackNested : (fuel : Nat) → (parentDepth : Int) → (offset : Nat) → Skipped
  | 0, _, _ => .ok none
  | fuel + 1, parentDepth, offset =>
      let skip := skipDepthLimitedMsgPackNested fuel
      skipMsgPackLead bytes (skipDepthLimitedMsgPackArray bytes skip parentDepth)
        (skipDepthLimitedMsgPackMap bytes skip parentDepth) offset

/-- `_skipDepthLimitedMsgPackValue`. -/
def skipDepthLimitedMsgPackValue (offset : Nat) (parentDepth : Int) : Skipped :=
  skipDepthLimitedMsgPackNested bytes (bytes.length + 1) parentDepth offset

/-! ### Frames -/

/-- `_readMsgPackArrayHeader`: the length, and the offset after it. -/
def readMsgPackArrayHeader (offset : Nat) : Option (Nat × Nat) :=
  match bytes[offset]? with
  | none => none
  | some lead =>
      if lead &&& 0xf0 = 0x90 then some ((lead &&& 0x0f).toNat, offset + 1)
      else if lead = 0xdc then
        if offset + 3 > bytes.length then none
        else some (BigEndian.read ((bytes.drop (offset + 1)).take 2), offset + 3)
      else if lead = 0xdd then
        if offset + 5 > bytes.length then none
        else some (BigEndian.read ((bytes.drop (offset + 1)).take 4), offset + 5)
      else none

/-- The loop over the fields of a message: `_ByteRange`s, and the offset after the last one. -/
def rangesFrom (skip : Nat → Skipped) : (count offset : Nat) →
    Except String (List (Nat × Nat) × Nat)
  | 0, offset => .ok ([], offset)
  | n + 1, offset =>
      match skip offset with
      | .error e => .error e
      | .ok none => .error "Invalid MessagePack WAMP message"
      | .ok (some next) =>
          (rangesFrom skip n next).map fun r => ((offset, next) :: r.1, r.2)

/-- The loop, with the skipper that the size of the frame selects. -/
def topLevelRanges (length nextOffset : Nat) : Except String (List (Nat × Nat) × Nat) :=
  if bytes.length ≤ serializerMaxPayloadNestingDepth then
    rangesFrom (skipMsgPackValue bytes) length nextOffset
  else rangesFrom (fun offset => skipDepthLimitedMsgPackValue bytes offset 0) length nextOffset

/-- `_parseMsgPackTopLevelRanges`. -/
def parseMsgPackTopLevelRanges : Except String (Option (List (Nat × Nat))) :=
  match readMsgPackArrayHeader bytes 0 with
  | none => .ok none
  | some (length, nextOffset) => do
      validateWampMessageFieldCount length
      let (ranges, offset) ← topLevelRanges bytes length nextOffset
      if offset ≠ bytes.length then .error "Trailing data after MessagePack WAMP message"
      else .ok (some ranges)

end

/-! ### The lead byte -/

/-- What a head says is to be skipped. -/
def skipHead (bytes : List UInt8) (array map : Nat → Nat → Skipped) (offset : Nat) (h : Head) :
    Skipped :=
  if offset + h.width > bytes.length then .ok none
  else match h.kind with
    | .data =>
        .ok (advanceMsgPackOffset bytes (offset + h.width) (h.count (countAt bytes offset h.width)))
    | .array => array (offset + h.width) (h.count (countAt bytes offset h.width))
    | .map => map (offset + h.width) (h.count (countAt bytes offset h.width))

section
variable {bytes : List UInt8} {array map : Nat → Nat → Skipped} {offset : Nat}

theorem skipHead_data (h : offset ≤ bytes.length) (n : Nat) :
    .ok (advanceMsgPackOffset bytes offset n) = skipHead bytes array map offset ⟨0, n, .data⟩ := by
  dsimp only [skipHead]
  rw [Nat.add_zero, if_neg (Nat.not_lt.mpr h)]
  rfl

theorem skipHead_none (h : offset ≤ bytes.length) :
    .ok (some offset) = skipHead bytes array map offset ⟨0, 0, .data⟩ := by
  rw [← skipHead_data h, advanceMsgPackOffset, Nat.add_zero, if_neg (Nat.not_lt.mpr h)]

theorem skipHead_array_fixed (h : offset ≤ bytes.length) (n : Nat) :
    array offset n = skipHead bytes array map offset ⟨0, n, .array⟩ := by
  dsimp only [skipHead]
  rw [Nat.add_zero, if_neg (Nat.not_lt.mpr h)]
  rfl

theorem skipHead_map_fixed (h : offset ≤ bytes.length) (n : Nat) :
    map offset n = skipHead bytes array map offset ⟨0, n, .map⟩ := by
  dsimp only [skipHead]
  rw [Nat.add_zero, if_neg (Nat.not_lt.mpr h)]
  rfl

/-- The type of an extension is a byte before its data. -/
theorem skipHead_fixext (h : offset ≤ bytes.length) (n : Nat) :
    .ok (advanceMsgPackOffset bytes (offset + 1) n) =
      skipHead bytes array map offset ⟨0, n + 1, .data⟩ := by
  rw [← skipHead_data h, advanceMsgPackOffset, advanceMsgPackOffset, Nat.add_assoc,
    Nat.add_comm 1 n]

theorem readMsgPackLength_eq {k : Nat} (hk : k = 1 ∨ k = 2 ∨ k = 4) :
    readMsgPackLength bytes offset k = if offset + k > bytes.length then none
      else some (BigEndian.read (countAt bytes offset k)) := by
  rcases hk with rfl | rfl | rfl <;> rfl

variable {k : Nat} (hk : k = 1 ∨ k = 2 ∨ k = 4)
include hk

theorem skipHead_lengthPrefixed : .ok (skipMsgPackLengthPrefixed bytes offset k) =
    skipHead bytes array map offset ⟨k, 0, .data⟩ := by
  rw [skipMsgPackLengthPrefixed, readMsgPackLength_eq hk]
  dsimp only [skipHead, Head.count]
  by_cases h : offset + k > bytes.length
  · rw [if_pos h, if_pos h]
  · rw [if_neg h, if_neg h, Nat.zero_add]

theorem skipHead_ext : .ok (skipMsgPackExt bytes offset k) =
    skipHead bytes array map offset ⟨k, 1, .data⟩ := by
  rw [skipMsgPackExt, readMsgPackLength_eq hk]
  dsimp only [skipHead, Head.count]
  by_cases h : offset + k > bytes.length
  · rw [if_pos h, if_pos h]
  · rw [if_neg h, if_neg h]
    simp only [advanceMsgPackOffset, Nat.add_assoc]

theorem skipHead_array : sizedContainer bytes offset k array =
    skipHead bytes array map offset ⟨k, 0, .array⟩ := by
  rw [sizedContainer, readMsgPackLength_eq hk]
  dsimp only [skipHead, Head.count]
  by_cases h : offset + k > bytes.length
  · rw [if_pos h, if_pos h]
  · rw [if_neg h, if_neg h, Nat.zero_add]

theorem skipHead_map : sizedContainer bytes offset k map =
    skipHead bytes array map offset ⟨k, 0, .map⟩ := by
  rw [sizedContainer, readMsgPackLength_eq hk]
  dsimp only [skipHead, Head.count]
  by_cases h : offset + k > bytes.length
  · rw [if_pos h, if_pos h]
  · rw [if_neg h, if_neg h, Nat.zero_add]

omit hk

/-- The branches that look at the lead byte, and the bytes that they leave to the switch. -/
theorem head_families : ∀ lead : UInt8,
    (lead ≤ 0x7f ∨ lead ≥ 0xe0 → head lead = some ⟨0, 0, .data⟩) ∧
    (lead &&& 0xe0 = 0xa0 → head lead = some ⟨0, (lead &&& 0x1f).toNat, .data⟩) ∧
    (lead &&& 0xf0 = 0x90 → head lead = some ⟨0, (lead &&& 0x0f).toNat, .array⟩) ∧
    (lead &&& 0xf0 = 0x80 → head lead = some ⟨0, (lead &&& 0x0f).toNat, .map⟩) ∧
    (¬(lead ≤ 0x7f ∨ lead ≥ 0xe0) → ¬lead &&& 0xe0 = 0xa0 → ¬lead &&& 0xf0 = 0x90 →
      ¬lead &&& 0xf0 = 0x80 → 0xc0 ≤ lead.toNat ∧ lead.toNat < 0xe0) :=
  forall_byte (by decide +kernel)

/-- **The switch over the lead byte** does what the grammar says. -/
theorem skipMsgPackLead_eq {lead : UInt8} (hlead : bytes[offset]? = some lead) :
    skipMsgPackLead bytes array map offset =
      ((head lead).map (skipHead bytes array map (offset + 1))).getD (.ok none) := by
  have ho : offset + 1 ≤ bytes.length := (List.getElem?_eq_some_iff.mp hlead).1
  obtain ⟨hsingle', htext', harray', hmap', hothers⟩ := head_families lead
  rw [skipMsgPackLead, hlead]
  dsimp only
  split
  · next h =>
    rw [hsingle' h, Option.map_some, Option.getD_some]
    exact skipHead_none ho
  · next hsingle =>
    split
    · next h =>
      rw [htext' h, Option.map_some, Option.getD_some]
      exact skipHead_data ho _
    · next htext =>
      split
      · next h =>
        rw [harray' h, Option.map_some, Option.getD_some]
        exact skipHead_array_fixed ho _
      · next harray =>
        split
        · next h =>
          rw [hmap' h, Option.map_some, Option.getD_some]
          exact skipHead_map_fixed ho _
        · next hmap =>
          -- the other bytes, one by one
          obtain ⟨hge, hlt⟩ := hothers hsingle htext harray hmap
          rw [head]
          generalize lead.toNat = n at hge hlt ⊢
          interval_cases n
          all_goals simp only [headOf, Nat.reduceLT, if_false, Option.map_none, Option.map_some,
            Option.getD_none, Option.getD_some]
          all_goals first
            | exact skipHead_none ho
            | exact skipHead_data ho _
            | exact skipHead_fixext ho _
            | exact skipHead_lengthPrefixed (.inl rfl)
            | exact skipHead_lengthPrefixed (.inr (.inl rfl))
            | exact skipHead_lengthPrefixed (.inr (.inr rfl))
            | exact skipHead_ext (.inl rfl)
            | exact skipHead_ext (.inr (.inl rfl))
            | exact skipHead_ext (.inr (.inr rfl))
            | exact skipHead_array (.inl rfl)
            | exact skipHead_array (.inr (.inl rfl))
            | exact skipHead_array (.inr (.inr rfl))
            | exact skipHead_map (.inl rfl)
            | exact skipHead_map (.inr (.inl rfl))
            | exact skipHead_map (.inr (.inr rfl))

end

/-! ### Skipping and values -/

section
variable {bytes : List UInt8}

/-- The skipper of a container gives an end, if and only if its values end there and the container
is accepted. -/
def SkipsContainer (bytes : List UInt8) (ok : Nat → Prop) (kind : Kind)
    (container : Nat → Nat → Skipped) (fuel : Nat) : Prop :=
  ∀ offset length, offset ≤ bytes.length → bytes.length - offset ≤ fuel → ∀ stop,
    container offset length = .ok (some stop) ↔
      ∃ d, RowAt grammar bytes (kind.values length) offset stop d ∧
        ok (enclose (kind.values length) d)

theorem exists_enclosed {fits : Prop} {inner : Nat → Prop} {f : Nat → Nat} {ok : Nat → Prop} :
    (∃ d, (fits ∧ ∃ d', inner d' ∧ d = f d') ∧ ok d) ↔ fits ∧ ∃ d, inner d ∧ ok (f d) := by
  constructor
  · rintro ⟨_, ⟨hfit, d, hi, rfl⟩, hd⟩
    exact ⟨hfit, d, hi, hd⟩
  · rintro ⟨hfit, d, hi, hd⟩
    exact ⟨_, ⟨hfit, d, hi, rfl⟩, hd⟩

/-- **The lead byte** and what stands behind it. -/
theorem skipMsgPackLead_iff {ok : Nat → Prop} (hok : ok 0) {array map : Nat → Nat → Skipped}
    {fuel : Nat} (harray : SkipsContainer bytes ok .array array fuel)
    (hmap : SkipsContainer bytes ok .map map fuel) :
    Skips grammar bytes ok (skipMsgPackLead bytes array map) (fuel + 1) := by
  intro offset ho hf stop
  cases hlead : bytes[offset]? with
  | none =>
      rw [skipMsgPackLead, hlead]
      constructor
      · intro h
        cases Except.ok.inj h
      · rintro ⟨d, hv, -⟩
        exact absurd hv (not_valueAt_end (List.getElem?_eq_none_iff.mp hlead))
  | some lead =>
      have hlt := (List.getElem?_eq_some_iff.mp hlead).1
      rw [skipMsgPackLead_eq hlead]
      cases hhead : head lead with
      | none =>
          constructor
          · intro h
            cases Except.ok.inj h
          · rintro ⟨d, hv, -⟩
            exact absurd hv (not_valueAt hlead hhead)
      | some h =>
          rw [Option.map_some, Option.getD_some]
          simp only [valueAt_iff hlead hhead]
          rw [exists_enclosed, skipHead]
          by_cases hw : offset + 1 + h.width > bytes.length
          · rw [if_pos hw]
            constructor
            · intro he
              cases Except.ok.inj he
            · rintro ⟨hfit, -⟩
              omega
          · rw [if_neg hw]
            cases hk : h.kind with
            | data =>
                simp only [Kind.values, Kind.bytes, rowAt_zero_iff, advanceMsgPackOffset]
                by_cases hfit : offset + 1 + h.width + h.count (countAt bytes (offset + 1) h.width) > bytes.length
                · rw [if_pos hfit]
                  constructor
                  · intro he
                    cases Except.ok.inj he
                  · rintro ⟨hle, -⟩
                    omega
                · rw [if_neg hfit]
                  constructor
                  · intro he
                    obtain rfl := Option.some.inj (Except.ok.inj he)
                    exact ⟨Nat.not_lt.mp hfit, 0, ⟨rfl, rfl⟩, hok⟩
                  · rintro ⟨-, _, ⟨rfl, rfl⟩, -⟩
                    rfl
            | array =>
                simp only [Kind.bytes, Nat.add_zero]
                rw [harray _ _ (by omega) (by omega) stop]
                exact ⟨fun h => ⟨Nat.not_lt.mp hw, h⟩, fun h => h.2⟩
            | map =>
                simp only [Kind.bytes, Nat.add_zero]
                rw [hmap _ _ (by omega) (by omega) stop]
                exact ⟨fun h => ⟨Nat.not_lt.mp hw, h⟩, fun h => h.2⟩

/-! ### The plain skipper -/

/-- Nothing is too deep. -/
def Unlimited (_ : Nat) : Prop := True

theorem unlimited_budget : Budget grammar Unlimited :=
  ⟨trivial, fun _ _ _ _ => ⟨fun _ => ⟨trivial, trivial⟩, fun _ => trivial⟩⟩

/-- Rows that are there have no more values than bytes. -/
theorem count_le {n offset stop d : Nat} (ho : offset ≤ bytes.length)
    (h : RowAt grammar bytes n offset stop d) : n ≤ bytes.length - offset := by
  have hcount := grammar_counted.count_le h
  have hbounds := h.bounds ho
  change offset + n ≤ stop at hcount
  omega

section
variable {skip : Nat → Skipped} {fuel : Nat} (hskip : Skips grammar bytes Unlimited skip fuel)
include hskip

theorem skipMsgPackArray_skips :
    SkipsContainer bytes Unlimited .array (skipMsgPackArray bytes skip) fuel := by
  intro offset length ho hf stop
  rw [skipMsgPackArray]
  refine unchecked_iff (skipTimes_iff grammar_counted unlimited_budget hskip length ho hf stop) ?_
  rintro hlen ⟨d, hi, -⟩
  exact absurd (count_le ho hi) (Nat.not_le.mpr hlen)

theorem skipMsgPackMap_skips :
    SkipsContainer bytes Unlimited .map (skipMsgPackMap bytes skip) fuel := by
  intro offset length ho hf stop
  rw [skipMsgPackMap, skipTimes_skipPair]
  refine unchecked_iff
    (skipTimes_iff grammar_counted unlimited_budget hskip (2 * length) ho hf stop) ?_
  rintro hlen ⟨d, hi, -⟩
  have hcount : 2 * length ≤ _ := count_le ho hi
  omega

end

theorem skipMsgPackNested_skips (fuel : Nat) :
    Skips grammar bytes Unlimited (skipMsgPackNested bytes fuel) fuel := by
  induction fuel with
  | zero =>
      intro offset ho hf stop
      rw [skipMsgPackNested]
      constructor
      · intro h
        cases Except.ok.inj h
      · rintro ⟨d, hv, -⟩
        exact absurd hv (not_valueAt_end (by omega))
  | succ fuel ih =>
      exact skipMsgPackLead_iff trivial (skipMsgPackArray_skips ih) (skipMsgPackMap_skips ih)

theorem skipMsgPackLead_end {array map : Nat → Nat → Skipped} {offset : Nat}
    (ho : bytes.length ≤ offset) : skipMsgPackLead bytes array map offset = .ok none := by
  rw [skipMsgPackLead, List.getElem?_eq_none ho]

/-- **The plain skipper** gives the end of the value. -/
theorem skipMsgPackValue_iff (offset stop : Nat) :
    skipMsgPackValue bytes offset = .ok (some stop) ↔ ∃ d, ValueAt grammar bytes offset stop d := by
  by_cases ho : offset ≤ bytes.length
  · rw [skipMsgPackValue, skipMsgPackNested_skips _ offset ho (by omega) stop]
    exact ⟨fun ⟨d, hv, _⟩ => ⟨d, hv⟩, fun ⟨d, hv⟩ => ⟨d, hv, trivial⟩⟩
  · rw [skipMsgPackValue, skipMsgPackNested, skipMsgPackLead_end (by omega)]
    exact ⟨fun h => (nomatch Except.ok.inj h),
      fun ⟨d, hv⟩ => absurd hv (not_valueAt_end (by omega))⟩

/-! ### The skipper that limits the nesting -/

theorem within_budget (parentDepth : Int) : Budget grammar (Within parentDepth) :=
  ⟨.inl rfl, fun _ _ => within_max parentDepth⟩

/-- An empty container. -/
theorem empty_iff (parentDepth : Int) (offset stop : Nat) :
    (.ok (some offset) : Skipped) = .ok (some stop) ↔
      ∃ d, RowAt grammar bytes 0 offset stop d ∧ Within parentDepth (enclose 0 d) := by
  constructor
  · intro h
    obtain rfl := Option.some.inj (Except.ok.inj h)
    exact ⟨0, rowAt_zero_iff.mpr ⟨rfl, rfl⟩, .inl rfl⟩
  · rintro ⟨d, hi, -⟩
    rw [(rowAt_zero_iff.mp hi).1]

section
variable {skip : Int → Nat → Skipped} {fuel : Nat}
  (hskip : ∀ depth, Skips grammar bytes (Within depth) (skip depth) fuel)
include hskip

theorem skipDepthLimitedMsgPackArray_skips (parentDepth : Int) :
    SkipsContainer bytes (Within parentDepth) .array
      (skipDepthLimitedMsgPackArray bytes skip parentDepth) fuel := by
  intro offset length ho hf stop
  rw [skipDepthLimitedMsgPackArray]
  by_cases hz : length = 0
  · subst hz
    exact empty_iff parentDepth offset stop
  · rw [if_neg hz]
    obtain ⟨k, rfl⟩ := Nat.exists_eq_succ_of_ne_zero hz
    refine unchecked_iff (enter_iff fun depth =>
      skipTimes_iff grammar_counted (within_budget depth) (hskip depth) (k + 1) ho hf stop) ?_
    rintro hlen ⟨d, hi, -⟩
    exact absurd (count_le ho hi) (Nat.not_le.mpr hlen)

theorem skipDepthLimitedMsgPackMap_skips (parentDepth : Int) :
    SkipsContainer bytes (Within parentDepth) .map
      (skipDepthLimitedMsgPackMap bytes skip parentDepth) fuel := by
  intro offset length ho hf stop
  rw [skipDepthLimitedMsgPackMap]
  by_cases hz : length = 0
  · subst hz
    exact empty_iff parentDepth offset stop
  · rw [if_neg hz]
    simp only [skipTimes_skipPair]
    obtain ⟨k, rfl⟩ := Nat.exists_eq_succ_of_ne_zero hz
    refine unchecked_iff (enter_iff fun depth =>
      skipTimes_iff grammar_counted (within_budget depth) (hskip depth) (2 * (k + 1)) ho hf stop) ?_
    rintro hlen ⟨d, hi, -⟩
    have hcount : 2 * (k + 1) ≤ _ := count_le ho hi
    omega

end

theorem skipDepthLimitedMsgPackNested_skips (fuel : Nat) (parentDepth : Int) :
    Skips grammar bytes (Within parentDepth) (skipDepthLimitedMsgPackNested bytes fuel parentDepth)
      fuel := by
  induction fuel generalizing parentDepth with
  | zero =>
      intro offset ho hf stop
      rw [skipDepthLimitedMsgPackNested]
      constructor
      · intro h
        cases Except.ok.inj h
      · rintro ⟨d, hv, -⟩
        exact absurd hv (not_valueAt_end (by omega))
  | succ fuel ih =>
      exact skipMsgPackLead_iff (.inl rfl) (skipDepthLimitedMsgPackArray_skips ih parentDepth)
        (skipDepthLimitedMsgPackMap_skips ih parentDepth)

/-- **The other skipper** gives the end of the value, if it is nested within the limit. -/
theorem skipDepthLimitedMsgPackValue_iff (offset stop : Nat) (parentDepth : Int) :
    skipDepthLimitedMsgPackValue bytes offset parentDepth = .ok (some stop) ↔
      ∃ d, ValueAt grammar bytes offset stop d ∧ Within parentDepth d := by
  by_cases ho : offset ≤ bytes.length
  · rw [skipDepthLimitedMsgPackValue,
      skipDepthLimitedMsgPackNested_skips _ parentDepth offset ho (by omega) stop]
  · rw [skipDepthLimitedMsgPackValue, skipDepthLimitedMsgPackNested, skipMsgPackLead_end (by omega)]
    exact ⟨fun h => (nomatch Except.ok.inj h),
      fun ⟨d, hv, _⟩ => absurd hv (not_valueAt_end (by omega))⟩

/-! ### Ranges -/

theorem rangesFrom_partition {skip : Nat → Skipped}
    (hskip : ∀ offset stop, skip offset = .ok (some stop) →
      ∃ d, ValueAt grammar bytes offset stop d)
    (n : Nat) {offset stop : Nat} {ranges : List (Nat × Nat)}
    (h : rangesFrom skip n offset = .ok (ranges, stop)) :
    ranges.length = n ∧ Partition grammar bytes offset ranges stop := by
  induction n generalizing offset ranges with
  | zero =>
      obtain ⟨rfl, rfl⟩ := Prod.mk.inj (Except.ok.inj h)
      exact ⟨rfl, .nil _⟩
  | succ n ih =>
      rw [rangesFrom] at h
      split at h
      · cases h
      · cases h
      · next next hnext =>
        obtain ⟨d, hv⟩ := hskip offset next hnext
        cases hrest : rangesFrom skip n next with
        | error e =>
            rw [hrest] at h
            cases h
        | ok r =>
            rw [hrest] at h
            obtain ⟨rfl, rfl⟩ := Prod.mk.inj (Except.ok.inj h)
            obtain ⟨hlength, hpart⟩ := ih hrest
            exact ⟨congrArg (· + 1) hlength, .cons hv hpart⟩

end

theorem topLevelRanges_partition {bytes : List UInt8} {n start stop : Nat}
    {ranges : List (Nat × Nat)} (h : topLevelRanges bytes n start = .ok (ranges, stop)) :
    ranges.length = n ∧ Partition grammar bytes start ranges stop := by
  rw [topLevelRanges] at h
  split at h
  · exact rangesFrom_partition
      (fun offset stop hs => (skipMsgPackValue_iff offset stop).mp hs) n h
  · refine rangesFrom_partition (fun offset stop hs => ?_) n h
    obtain ⟨d, hv, -⟩ := (skipDepthLimitedMsgPackValue_iff offset stop 0).mp hs
    exact ⟨d, hv⟩

/-- An accepted frame is an array header and the ranges behind it. -/
theorem parseMsgPackTopLevelRanges_partition {bytes : List UInt8} {ranges : List (Nat × Nat)}
    (h : parseMsgPackTopLevelRanges bytes = .ok (some ranges)) :
    ∃ start, readMsgPackArrayHeader bytes 0 = some (ranges.length, start) ∧
      Partition grammar bytes start ranges bytes.length := by
  rw [parseMsgPackTopLevelRanges] at h
  split at h
  · cases Except.ok.inj h
  · next n start hheader =>
    cases hcount : validateWampMessageFieldCount n with
    | error e =>
        rw [hcount] at h
        cases h
    | ok u =>
        rw [hcount] at h
        cases hr : topLevelRanges bytes n start with
        | error e =>
            rw [hr] at h
            cases h
        | ok r =>
            rw [hr] at h
            dsimp only [bind, Except.bind] at h
            split at h
            · cases h
            · next hend =>
              obtain rfl := Option.some.inj (Except.ok.inj h)
              obtain ⟨hlength, hpart⟩ := topLevelRanges_partition hr
              rw [← Decidable.not_not.mp hend, hlength]
              exact ⟨start, hheader, hpart⟩

/-- **The two skippers.**  For every input and offset: they give the same ends if no value there is
nested beyond the limit; an end that either of them gives is that of the one value there; and the
ranges of an accepted frame partition the bytes after the array header. -/
theorem msgpack_skippers_agree (bytes : List UInt8) (offset : Nat) (parentDepth : Int) :
    ((∀ stop d, ValueAt grammar bytes offset stop d → Within parentDepth d) →
      ∀ stop, skipMsgPackValue bytes offset = .ok (some stop) ↔
        skipDepthLimitedMsgPackValue bytes offset parentDepth = .ok (some stop)) ∧
    (∀ stop, skipMsgPackValue bytes offset = .ok (some stop) → EndsOneValue grammar bytes offset stop) ∧
    (∀ stop, skipDepthLimitedMsgPackValue bytes offset parentDepth = .ok (some stop) →
      EndsOneValue grammar bytes offset stop) ∧
    ∀ ranges, parseMsgPackTopLevelRanges bytes = .ok (some ranges) →
      ∃ start, readMsgPackArrayHeader bytes 0 = some (ranges.length, start) ∧
        Partition grammar bytes start ranges bytes.length ∧
        (ranges.map (slice bytes)).flatten = bytes.drop start := by
  refine ⟨fun hwithin stop => ?_, fun stop h => ?_, fun stop h => ?_, fun ranges h => ?_⟩
  · rw [skipMsgPackValue_iff, skipDepthLimitedMsgPackValue_iff]
    exact ⟨fun ⟨d, hv⟩ => ⟨d, hv, hwithin stop d hv⟩, fun ⟨d, hv, _⟩ => ⟨d, hv⟩⟩
  · obtain ⟨d, hv⟩ := (skipMsgPackValue_iff offset stop).mp h
    exact .of_valueAt grammar_separated hv
  · obtain ⟨d, hv, -⟩ := (skipDepthLimitedMsgPackValue_iff offset stop parentDepth).mp h
    exact .of_valueAt grammar_separated hv
  · obtain ⟨start, hheader, hpart⟩ := parseMsgPackTopLevelRanges_partition h
    have hflatten := hpart.flatten
    rw [List.drop_eq_nil_of_le (Nat.le_refl _), List.append_nil] at hflatten
    exact ⟨start, hheader, hpart, hflatten⟩

end MsgPackSerializer

end Connectanum
