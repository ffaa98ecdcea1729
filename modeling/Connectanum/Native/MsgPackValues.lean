import Connectanum.Native.MsgPack
import Connectanum.Serializer.MsgPackSkip

/-!
# Native — MsgPackValues

Where the values of a MessagePack frame end, for the reader of the native transport.

* `toSkipped_body`: a level of the reader, by the grammar;
* `msgpackSkipValue_iff`: it gives an end if and only if there is a value;
* `msgpack_skip_exact`: the reader, and the ranges of a frame that it accepts;
* `msgpack_readers_agree`: the ranges of a frame for this reader and for the client's.
-/

namespace Connectanum

open Delimited MsgPack MsgPackSerializer Checks

namespace Wamp

/-- What the reader gives, without the texts of its errors. -/
def toSkipped : Except ParseError Nat → Skipped
  | .ok stop => .ok (some stop)
  | .error _ => .ok none

theorem toSkipped_eq_some {r : Except ParseError Nat} {stop : Nat} :
    toSkipped r = .ok (some stop) ↔ r = .ok stop := by
  cases r with
  | ok n =>
      constructor
      · intro h
        rw [Option.some.inj (Except.ok.inj h)]
      · rintro ⟨⟩
        rfl
  | error e =>
      constructor
      · intro h
        cases Except.ok.inj h
      · intro h
        cases h

theorem toSkipped_bind (r : Except ParseError Nat) (next : Nat → Except ParseError Nat) :
    toSkipped (r >>= next) = (toSkipped r).andThen fun offset => toSkipped (next offset) := by
  cases r with
  | ok n => rfl
  | error e => rfl

theorem toSkipped_skipTimes (skip : Nat → Except ParseError Nat) (n offset : Nat) :
    toSkipped (skipTimes skip n offset) =
      Connectanum.skipTimes (fun offset => toSkipped (skip offset)) n offset := by
  induction n generalizing offset with
  | zero => rfl
  | succ n ih =>
      rw [skipTimes, toSkipped_bind, Connectanum.skipTimes, funext ih]

/-- A pair is a key and its value. -/
theorem toSkipped_skipPairs (skip : Nat → Except ParseError Nat) (n offset : Nat) :
    toSkipped (skipTimes (fun offset => skip offset >>= skip) n offset) =
      Connectanum.skipTimes (skipPair fun offset => toSkipped (skip offset)) n offset := by
  rw [toSkipped_skipTimes]
  congr 1
  funext offset
  rw [toSkipped_bind, skipPair]

section
variable {bytes : Bytes} {offset : Nat}

theorem toSkipped_skipBytes (ho : offset ≤ bytes.length) (n : Nat) :
    toSkipped (skipBytes (.contiguous bytes) offset n) =
      .ok (advanceMsgPackOffset bytes offset n) := by
  rw [skipBytes, advanceMsgPackOffset]
  change toSkipped (if bytes.length - offset < n then _ else _) = _
  by_cases h : bytes.length - offset < n
  · rw [if_pos h, if_pos (by omega)]
    rfl
  · rw [if_neg h, if_neg (by omega)]
    rfl

/-! ### Lengths -/

theorem readByte_eq (index : Nat) :
    RawFrame.readByte (.contiguous bytes) index =
      match bytes[index]? with
      | some byte => .ok byte
      | none => .error (.deserialize "unexpected end of message data") := by
  rw [RawFrame.readByte]
  split
  · next h =>
    change bytes.length ≤ index at h
    rw [List.getElem?_eq_none h]
  · rfl

/-- The read takes `k` bytes, the most significant first. -/
def Reads (bytes : Bytes) (k : Nat) (read : Nat → Except ParseError (Nat × Nat)) : Prop :=
  ∀ offset,
    (offset + k ≤ bytes.length →
      read offset = .ok (BigEndian.read (countAt bytes offset k), offset + k)) ∧
    (bytes.length < offset + k → ∃ e, read offset = .error e)

theorem countAt_succ {k : Nat} {byte : UInt8} (h : bytes[offset]? = some byte) :
    countAt bytes offset (k + 1) = byte :: countAt bytes (offset + 1) k := by
  obtain ⟨hlt, hget⟩ := List.getElem?_eq_some_iff.mp h
  rw [countAt, countAt, List.drop_eq_getElem_cons hlt, hget, List.take_succ_cons]

theorem readU8_reads (bytes : Bytes) : Reads bytes 1 (readU8 (.contiguous bytes)) := by
  intro offset
  rw [readU8, readByte_eq]
  refine ⟨fun h => ?_, fun h => ?_⟩
  · have hbyte := List.getElem?_eq_getElem (show offset < bytes.length from h)
    rw [countAt_succ hbyte, hbyte]
    simp [BigEndian.read, countAt]
  · rw [List.getElem?_eq_none (by omega)]
    exact ⟨_, rfl⟩

theorem readU16_reads (bytes : Bytes) : Reads bytes 2 (readU16 (.contiguous bytes)) := by
  intro offset
  simp only [readU16, readByte_eq]
  refine ⟨fun h => ?_, fun h => ?_⟩
  · have h₀ := List.getElem?_eq_getElem (show offset < bytes.length by omega)
    have h₁ := List.getElem?_eq_getElem (show offset + 1 < bytes.length by omega)
    rw [countAt_succ h₀, countAt_succ h₁, h₀, h₁]
    simp [BigEndian.read, countAt, bind, Except.bind, pure, Except.pure]
  · rw [List.getElem?_eq_none (i := offset + 1) (by omega)]
    cases bytes[offset]? with
    | none => exact ⟨_, rfl⟩
    | some byte => exact ⟨_, rfl⟩

theorem readU32_reads (bytes : Bytes) : Reads bytes 4 (readU32 (.contiguous bytes)) := by
  intro offset
  simp only [readU32, readByte_eq]
  refine ⟨fun h => ?_, fun h => ?_⟩
  · have h₀ := List.getElem?_eq_getElem (show offset < bytes.length by omega)
    have h₁ := List.getElem?_eq_getElem (show offset + 1 < bytes.length by omega)
    have h₂ := List.getElem?_eq_getElem (show offset + 2 < bytes.length by omega)
    have h₃ := List.getElem?_eq_getElem (show offset + 3 < bytes.length by omega)
    rw [countAt_succ h₀, countAt_succ h₁, countAt_succ h₂, countAt_succ h₃, h₀, h₁, h₂, h₃]
    simp [BigEndian.read, countAt, bind, Except.bind, pure, Except.pure]
    omega
  · rw [List.getElem?_eq_none (i := offset + 3) (by omega)]
    cases bytes[offset]? with
    | none => exact ⟨_, rfl⟩
    | some byte =>
        cases bytes[offset + 1]? with
        | none => exact ⟨_, rfl⟩
        | some byte =>
            cases bytes[offset + 2]? with
            | none => exact ⟨_, rfl⟩
            | some byte => exact ⟨_, rfl⟩

theorem toSkipped_sized {k : Nat} {read : Nat → Except ParseError (Nat × Nat)}
    (hread : Reads bytes k read) (next : Nat → Nat → Except ParseError Nat) :
    toSkipped (sized (read offset) next) =
      if offset + k > bytes.length then .ok none
      else toSkipped (next (BigEndian.read (countAt bytes offset k)) (offset + k)) := by
  obtain ⟨hin, hout⟩ := hread offset
  by_cases h : offset + k > bytes.length
  · obtain ⟨e, he⟩ := hout h
    rw [if_pos h, he]
    rfl
  · rw [if_neg h, hin (Nat.not_lt.mp h)]
    rfl

/-! ### A level of the reader -/

theorem headOf_single {n : Nat} (h : n ≤ 0x7f ∨ 0xe0 ≤ n) : headOf n = some ⟨0, 0, .data⟩ := by
  rcases h with h | h
  · rw [headOf.eq_def, if_pos (by omega)]
  · rw [headOf.eq_def, if_neg (by omega), if_neg (by omega), if_neg (by omega), if_neg (by omega)]
    split
    all_goals first
      | rfl
      | omega

theorem headOf_text {n : Nat} (h : 0xa0 ≤ n ∧ n ≤ 0xbf) :
    headOf n = some ⟨0, n % 0x20, .data⟩ := by
  have hn : n - 0xa0 = n % 0x20 := by omega
  rw [headOf.eq_def, if_neg (by omega), if_neg (by omega), if_neg (by omega), if_pos (by omega), hn]

theorem headOf_array {n : Nat} (h : 0x90 ≤ n ∧ n ≤ 0x9f) :
    headOf n = some ⟨0, n % 0x10, .array⟩ := by
  have hn : n - 0x90 = n % 0x10 := by omega
  rw [headOf.eq_def, if_neg (by omega), if_neg (by omega), if_pos (by omega), hn]

theorem headOf_map {n : Nat} (h : 0x80 ≤ n ∧ n ≤ 0x8f) :
    headOf n = some ⟨0, n % 0x10, .map⟩ := by
  have hn : n - 0x80 = n % 0x10 := by omega
  rw [headOf.eq_def, if_neg (by omega), if_pos (by omega), hn]

variable {skip : Nat → Except ParseError Nat} {array map : Nat → Nat → Skipped}

/-- The bytes of a text or a byte string behind their length. -/
theorem toSkipped_prefixed {k : Nat} {read : Nat → Except ParseError (Nat × Nat)}
    (hread : Reads bytes k read) :
    toSkipped (sized (read offset) fun len offset => skipBytes (.contiguous bytes) offset len) =
      skipHead bytes array map offset ⟨k, 0, .data⟩ := by
  rw [toSkipped_sized hread]
  dsimp only [skipHead, Head.count]
  by_cases h : offset + k > bytes.length
  · rw [if_pos h, if_pos h]
  · rw [if_neg h, if_neg h, toSkipped_skipBytes (Nat.not_lt.mp h), Nat.zero_add]

/-- The type of an extension is one more byte. -/
theorem toSkipped_ext {k : Nat} {read : Nat → Except ParseError (Nat × Nat)}
    (hread : Reads bytes k read) :
    toSkipped (sized (read offset) fun len offset =>
      skipBytes (.contiguous bytes) offset (1 + len)) =
        skipHead bytes array map offset ⟨k, 1, .data⟩ := by
  rw [toSkipped_sized hread]
  dsimp only [skipHead, Head.count]
  by_cases h : offset + k > bytes.length
  · rw [if_pos h, if_pos h]
  · rw [if_neg h, if_neg h, toSkipped_skipBytes (Nat.not_lt.mp h)]

theorem toSkipped_array {k : Nat} {read : Nat → Except ParseError (Nat × Nat)}
    (hread : Reads bytes k read)
    (harray : ∀ n offset, toSkipped (skipTimes skip n offset) = array offset n) :
    toSkipped (sized (read offset) (skipTimes skip)) =
      skipHead bytes array map offset ⟨k, 0, .array⟩ := by
  rw [toSkipped_sized hread, harray]
  dsimp only [skipHead, Head.count]
  by_cases h : offset + k > bytes.length
  · rw [if_pos h, if_pos h]
  · rw [if_neg h, if_neg h, Nat.zero_add]

theorem toSkipped_map {k : Nat} {read : Nat → Except ParseError (Nat × Nat)}
    (hread : Reads bytes k read)
    (hmap : ∀ n offset,
      toSkipped (skipTimes (fun offset => skip offset >>= skip) n offset) = map offset n) :
    toSkipped (sized (read offset) (skipTimes fun offset => skip offset >>= skip)) =
      skipHead bytes array map offset ⟨k, 0, .map⟩ := by
  rw [toSkipped_sized hread, hmap]
  dsimp only [skipHead, Head.count]
  by_cases h : offset + k > bytes.length
  · rw [if_pos h, if_pos h]
  · rw [if_neg h, if_neg h, Nat.zero_add]

/-- **The match over the marker** does what the grammar says. -/
theorem toSkipped_body (ho : offset ≤ bytes.length) {marker : Nat} (hmarker : marker < 256)
    (harray : ∀ n offset, toSkipped (skipTimes skip n offset) = array offset n)
    (hmap : ∀ n offset,
      toSkipped (skipTimes (fun offset => skip offset >>= skip) n offset) = map offset n) :
    toSkipped (msgpackSkipBody (.contiguous bytes) skip marker offset) =
      ((headOf marker).map (skipHead bytes array map offset)).getD (.ok none) := by
  rw [msgpackSkipBody.eq_def]
  dsimp only
  split
  · next h =>
    rw [headOf_single h, Option.map_some, Option.getD_some]
    exact skipHead_none ho
  · next hsingle =>
    split
    · next h =>
      rw [headOf_text h, Option.map_some, Option.getD_some, toSkipped_skipBytes ho]
      exact skipHead_data ho _
    · next htext =>
      split
      · next h =>
        rw [headOf_array h, Option.map_some, Option.getD_some, harray]
        exact skipHead_array_fixed ho _
      · next =>
        split
        · next h =>
          rw [headOf_map h, Option.map_some, Option.getD_some, hmap]
          exact skipHead_map_fixed ho _
        · next =>
          -- the other markers, one by one
          have hge : 0xc0 ≤ marker := by omega
          have hlt : marker < 0xe0 := by omega
          interval_cases marker
          all_goals simp only [headOf, Nat.reduceLT, if_false, Option.map_none, Option.map_some,
            Option.getD_none, Option.getD_some, skipExt, toSkipped_skipBytes ho]
          all_goals first
            | exact skipHead_none ho
            | exact skipHead_data ho _
            | exact toSkipped_prefixed (readU8_reads bytes)
            | exact toSkipped_prefixed (readU16_reads bytes)
            | exact toSkipped_prefixed (readU32_reads bytes)
            | exact toSkipped_ext (readU8_reads bytes)
            | exact toSkipped_ext (readU16_reads bytes)
            | exact toSkipped_ext (readU32_reads bytes)
            | exact toSkipped_array (readU16_reads bytes) harray
            | exact toSkipped_array (readU32_reads bytes) harray
            | exact toSkipped_map (readU16_reads bytes) hmap
            | exact toSkipped_map (readU32_reads bytes) hmap
            | rfl

end

/-! ### The reader -/

/-- What the loops over values and over pairs give, if each step of them gives the ends of
values. -/
theorem loops_skip {bytes : Bytes} {skip : Nat → Except ParseError Nat} {fuel : Nat}
    (hskip : Skips grammar bytes Unlimited (fun offset => toSkipped (skip offset)) fuel) :
    SkipsContainer bytes Unlimited .array
        (fun offset n => toSkipped (skipTimes skip n offset)) fuel ∧
      SkipsContainer bytes Unlimited .map
        (fun offset n => toSkipped (skipTimes (fun offset => skip offset >>= skip) n offset))
        fuel := by
  refine ⟨fun offset n ho hf stop => ?_, fun offset n ho hf stop => ?_⟩
  · dsimp only
    rw [toSkipped_skipTimes]
    exact skipTimes_iff grammar_counted unlimited_budget hskip n ho hf stop
  · dsimp only
    rw [toSkipped_skipPairs, skipTimes_skipPair]
    exact skipTimes_iff grammar_counted unlimited_budget hskip (2 * n) ho hf stop

/-- Each level gives the ends of the values that are left to it. -/
theorem msgpackSkipValue_skips (bytes : Bytes) (depth : Nat) :
    Skips grammar bytes Unlimited
      (fun offset => toSkipped (msgpackSkipValue (.contiguous bytes) depth offset)) depth := by
  induction depth with
  | zero =>
      intro offset ho hf stop
      constructor
      · intro h
        cases Except.ok.inj h
      · rintro ⟨d, hv, -⟩
        exact absurd hv (not_valueAt_end (by omega))
  | succ depth ih =>
      obtain ⟨harray, hmap⟩ := loops_skip ih
      intro offset ho hf stop
      rw [← skipMsgPackLead_iff trivial harray hmap offset ho hf stop]
      dsimp only
      rw [msgpackSkipValue, readU8, readByte_eq]
      cases hlead : bytes[offset]? with
      | none =>
          rw [skipMsgPackLead_end (List.getElem?_eq_none_iff.mp hlead)]
          rfl
      | some lead =>
          have hlt := (List.getElem?_eq_some_iff.mp hlead).1
          rw [skipMsgPackLead_eq hlead, head,
            ← toSkipped_body hlt lead.toNat_lt (fun _ _ => rfl) (fun _ _ => rfl)]
          rfl

/-- **The reader** gives the end of the value. -/
theorem msgpackSkipValue_iff (data : RawFrame) (offset stop : Nat) :
    msgpackSkipValue data (data.len + 1) offset = .ok stop ↔
      ∃ d, ValueAt grammar data.intoBytes offset stop d := by
  have hsame := RawFrame.same_intoBytes data
  rw [msgpackSkipValue_same hsame, hsame.len]
  generalize data.intoBytes = bytes
  by_cases ho : offset ≤ bytes.length
  · rw [← toSkipped_eq_some]
    refine (msgpackSkipValue_skips bytes (bytes.length + 1) offset ho (by omega) stop).trans ?_
    exact ⟨fun ⟨d, hv, _⟩ => ⟨d, hv⟩, fun ⟨d, hv⟩ => ⟨d, hv, trivial⟩⟩
  · constructor
    · intro h
      obtain ⟨⟨marker, next⟩, hread, -⟩ := except_bind_eq_ok h
      exact absurd (Nat.le_of_lt (readU8_ok hread).1) ho
    · rintro ⟨d, hv⟩
      exact absurd hv (not_valueAt_end (by omega))

/-! ### Ranges -/

theorem msgpackRanges_partition {data : RawFrame} {n offset stop : Nat} {ranges : List Range}
    (h : msgpackRanges data n offset = .ok (ranges, stop)) :
    ranges.length = n ∧
      Partition grammar data.intoBytes offset (ranges.map fun r => (r.start, r.stop)) stop := by
  induction n generalizing offset ranges with
  | zero =>
      obtain ⟨rfl, rfl⟩ := Prod.mk.inj (Except.ok.inj h)
      exact ⟨rfl, .nil _⟩
  | succ n ih =>
      obtain ⟨⟨range, next⟩, hrange, h⟩ := except_bind_eq_ok h
      obtain ⟨⟨others, last⟩, hothers, h⟩ := except_bind_eq_ok h
      obtain ⟨rfl, rfl⟩ := Prod.mk.inj (Except.ok.inj h)
      obtain ⟨middle, hskip, hrange⟩ := except_bind_eq_ok hrange
      obtain ⟨rfl, rfl⟩ := Prod.mk.inj (Except.ok.inj hrange)
      obtain ⟨d, hv⟩ := (msgpackSkipValue_iff data offset middle).mp hskip
      obtain ⟨hlength, hpart⟩ := ih hothers
      exact ⟨congrArg (· + 1) hlength, .cons hv hpart⟩

/-- An accepted frame is an array header and the ranges behind it. -/
theorem msgpackMessage_ranges {rmp : RmpSerde} {data : RawFrame} {message : WampMessage}
    (h : msgpackMessage rmp data = .ok message) :
    ∃ ranges start, msgpackReadArrayLen data 0 = .ok (ranges.length, start) ∧
      msgpackRanges data ranges.length start = .ok (ranges, data.len) := by
  obtain ⟨⟨n, start⟩, hheader, h⟩ := except_bind_eq_ok h
  dsimp only at h
  split at h
  · cases h
  · obtain ⟨⟨ranges, stop⟩, hranges, h⟩ := except_bind_eq_ok h
    dsimp only at h
    split at h
    · cases h
    · next hstop =>
      obtain rfl := Decidable.not_not.mp hstop
      obtain ⟨rfl, -⟩ := msgpackRanges_partition hranges
      exact ⟨ranges, start, hheader, hranges⟩

/-- **The reader is exact.**  For every frame and offset: it gives an end if and only if a value of
MessagePack, nested however deep, begins there and lies inside the input; the end is that of the one
value there; and the top-level ranges of an accepted frame partition the bytes after the array
header. -/
theorem msgpack_skip_exact (rmp : RmpSerde) (data : RawFrame) (offset : Nat) :
    (∀ stop, msgpackSkipValue data (data.len + 1) offset = .ok stop ↔
      ∃ d, ValueAt grammar data.intoBytes offset stop d) ∧
    (∀ stop, msgpackSkipValue data (data.len + 1) offset = .ok stop →
      EndsOneValue grammar data.intoBytes offset stop) ∧
    ∀ message, msgpackMessage rmp data = .ok message →
      ∃ ranges start, msgpackReadArrayLen data 0 = .ok (ranges.length, start) ∧
        msgpackRanges data ranges.length start = .ok (ranges, data.len) ∧
        Partition grammar data.intoBytes start (ranges.map fun r => (r.start, r.stop)) data.len ∧
        ((ranges.map fun r => (r.start, r.stop)).map (slice data.intoBytes)).flatten =
          data.intoBytes.drop start := by
  refine ⟨fun stop => msgpackSkipValue_iff data offset stop, fun stop h => ?_,
    fun message h => ?_⟩
  · obtain ⟨d, hv⟩ := (msgpackSkipValue_iff data offset stop).mp h
    exact .of_valueAt grammar_separated hv
  · obtain ⟨ranges, start, hheader, hranges⟩ := msgpackMessage_ranges h
    obtain ⟨-, hpart⟩ := msgpackRanges_partition hranges
    have hlength : data.len = data.intoBytes.length := (RawFrame.same_intoBytes data).len
    have hflatten := hpart.flatten
    rw [hlength, List.drop_eq_nil_of_le (Nat.le_refl _), List.append_nil] at hflatten
    exact ⟨ranges, start, hheader, hranges, hpart, hflatten⟩

/-! ### The client's reader of the same frame -/

theorem array_lead : ∀ lead : UInt8,
    (lead &&& 0xf0 = 0x90 ↔ 0x90 ≤ lead.toNat ∧ lead.toNat ≤ 0x9f) ∧
      (lead &&& 0x0f).toNat = lead.toNat % 0x10 :=
  forall_byte (by decide +kernel)

/-- The two read the same header. -/
theorem readMsgPackArrayHeader_iff (bytes : Bytes) (n start : Nat) :
    readMsgPackArrayHeader bytes 0 = some (n, start) ↔
      msgpackReadArrayLen (.contiguous bytes) 0 = .ok (n, start) := by
  have hwide {k : Nat} {read : Nat → Except ParseError (Nat × Nat)} (hread : Reads bytes k read) :
      (if 1 + k > bytes.length then none
        else some (BigEndian.read (countAt bytes 1 k), 1 + k)) = some (n, start) ↔
      read 1 = .ok (n, start) := by
    obtain ⟨hin, hout⟩ := hread 1
    by_cases h : 1 + k > bytes.length
    · obtain ⟨e, he⟩ := hout h
      rw [if_pos h, he]
      exact iff_of_false (by simp) (by simp)
    · rw [if_neg h, hin (Nat.not_lt.mp h), Option.some.injEq, Except.ok.injEq]
  simp only [readMsgPackArrayHeader, msgpackReadArrayLen, readU8, readByte_eq]
  cases bytes[0]? with
  | none => exact iff_of_false (by simp) (by simp)
  | some lead =>
      obtain ⟨hfix, hcount⟩ := array_lead lead
      dsimp only
      by_cases hsmall : 0x90 ≤ lead.toNat ∧ lead.toNat ≤ 0x9f
      · rw [if_pos (hfix.mpr hsmall), if_pos hsmall, hcount, Option.some.injEq, Except.ok.injEq]
      · rw [if_neg (mt hfix.mp hsmall), if_neg hsmall]
        by_cases h₁₆ : lead = 0xdc
        · subst h₁₆
          exact hwide (readU16_reads bytes)
        · rw [if_neg h₁₆, if_neg (show ¬lead.toNat = 0xdc from fun h => h₁₆ (UInt8.toNat_inj.mp h))]
          by_cases h₃₂ : lead = 0xdd
          · subst h₃₂
            exact hwide (readU32_reads bytes)
          · rw [if_neg h₃₂, if_neg (show ¬lead.toNat = 0xdd from fun h => h₃₂ (UInt8.toNat_inj.mp h))]
            exact iff_of_false (by simp) (by simp)

/-- The loops over the elements give the same ranges, as far as the client's skipper allows the
values. -/
theorem rangesFrom_iff {bytes : Bytes} {skip : Nat → Skipped} {P : Nat → Prop}
    (hskip : ∀ offset stop, skip offset = .ok (some stop) ↔
      ∃ d, ValueAt grammar bytes offset stop d ∧ P d)
    (n offset stop : Nat) (ranges : List (Nat × Nat)) :
    rangesFrom skip n offset = .ok (ranges, stop) ↔
      ∃ rs, msgpackRanges (.contiguous bytes) n offset = .ok (rs, stop) ∧
        ranges = rs.map (fun r => (r.start, r.stop)) ∧
        ∀ r ∈ ranges, ∀ d, ValueAt grammar bytes r.1 r.2 d → P d := by
  induction n generalizing offset ranges with
  | zero =>
      constructor
      · intro h
        obtain ⟨rfl, rfl⟩ := Prod.mk.inj (Except.ok.inj h)
        exact ⟨[], rfl, rfl, List.forall_mem_nil _⟩
      · rintro ⟨rs, h, rfl, -⟩
        obtain ⟨rfl, rfl⟩ := Prod.mk.inj (Except.ok.inj h)
        rfl
  | succ n ih =>
      constructor
      · intro h
        rw [rangesFrom] at h
        split at h
        · cases h
        · cases h
        · next next hnext =>
          obtain ⟨d, hv, hd⟩ := (hskip offset next).mp hnext
          have hnative := (msgpackSkipValue_iff (.contiguous bytes) offset next).mpr ⟨d, hv⟩
          cases hrest : rangesFrom skip n next with
          | error e =>
              rw [hrest] at h
              cases h
          | ok r =>
              rw [hrest] at h
              obtain ⟨rfl, rfl⟩ := Prod.mk.inj (Except.ok.inj h)
              obtain ⟨rs, hrs, hmap, hall⟩ := (ih next r.1).mp hrest
              refine ⟨⟨offset, next⟩ :: rs, ?_, congrArg _ hmap, List.forall_mem_cons.mpr
                ⟨fun d' hv' => ?_, hall⟩⟩
              · simp only [msgpackRanges, msgpackReadValueRange, hnative, hrs, bind, Except.bind,
                  pure, Except.pure]
              · rwa [(hv'.unique grammar_separated hv).2]
      · rintro ⟨rs, h, rfl, hall⟩
        obtain ⟨⟨range, next⟩, hrange, h⟩ := except_bind_eq_ok h
        obtain ⟨⟨others, last⟩, hothers, h⟩ := except_bind_eq_ok h
        obtain ⟨rfl, rfl⟩ := Prod.mk.inj (Except.ok.inj h)
        obtain ⟨middle, hnative, hrange⟩ := except_bind_eq_ok hrange
        obtain ⟨rfl, rfl⟩ := Prod.mk.inj (Except.ok.inj hrange)
        obtain ⟨d, hv⟩ := (msgpackSkipValue_iff (.contiguous bytes) offset middle).mp hnative
        obtain ⟨hfirst, hall⟩ := List.forall_mem_cons.mp hall
        have hnext := (hskip offset middle).mpr ⟨d, hv, hfirst d hv⟩
        have hrest := (ih middle _).mpr ⟨others, hothers, rfl, hall⟩
        rw [rangesFrom, hnext]
        dsimp only
        rw [hrest]
        rfl

/-- Whichever skipper the size of the frame selects, the client's loop stops at what is nested too
deep and at nothing else. -/
theorem topLevelRanges_iff (bytes : Bytes) (n start stop : Nat) (ranges : List (Nat × Nat)) :
    topLevelRanges bytes n start = .ok (ranges, stop) ↔
      ∃ rs, msgpackRanges (.contiguous bytes) n start = .ok (rs, stop) ∧
        ranges = rs.map (fun r => (r.start, r.stop)) ∧
        ∀ r ∈ ranges, ∀ d, ValueAt grammar bytes r.1 r.2 d → d ≤ 64 := by
  rw [topLevelRanges]
  split
  · next hsmall =>
    -- a small frame has no room for more
    change bytes.length ≤ 64 at hsmall
    rw [rangesFrom_iff (P := fun d => d ≤ 64) fun offset stop => ?_]
    rw [skipMsgPackValue_iff]
    refine exists_congr fun d => (and_iff_left_of_imp fun hv => ?_).symm
    have hlt := nesting_lt hv
    have hbounds := hv.bounds
    omega
  · rw [rangesFrom_iff (P := Within 0) fun offset stop =>
      skipDepthLimitedMsgPackValue_iff offset stop 0]
    have hwithin (d : Nat) : Within 0 d ↔ d ≤ 64 := by
      rw [Within, serializerMaxPayloadNestingDepth]
      omega
    simp only [hwithin]

/-- **The client and the router divide a frame alike.**  The client's reader finds the fields of a
message if and only if the native reader finds an array of at most seven values that ends with the
frame and whose values are nested 64 deep at most; and the fields are where the native reader finds
its elements. -/
theorem msgpack_readers_agree (data : RawFrame) (ranges : List (Nat × Nat)) :
    parseMsgPackTopLevelRanges data.intoBytes = .ok (some ranges) ↔
      ∃ rs start, msgpackReadArrayLen data 0 = .ok (rs.length, start) ∧
        msgpackRanges data rs.length start = .ok (rs, data.len) ∧
        ranges = rs.map (fun r => (r.start, r.stop)) ∧ rs.length ≤ 7 ∧
        ∀ r ∈ ranges, ∀ d, ValueAt grammar data.intoBytes r.1 r.2 d → d ≤ 64 := by
  have hsame := RawFrame.same_intoBytes data
  rw [msgpackReadArrayLen_same hsame, msgpackRanges_same hsame, hsame.len]
  generalize data.intoBytes = bytes
  change _ ↔ ∃ rs start, _ ∧ msgpackRanges (.contiguous bytes) _ _ = .ok (rs, bytes.length) ∧ _
  constructor
  · intro h
    rw [parseMsgPackTopLevelRanges] at h
    split at h
    · cases Except.ok.inj h
    · next n start hheader =>
      obtain ⟨_, hcount, h⟩ := except_bind_eq_ok h
      obtain ⟨⟨found, stop⟩, hfound, h⟩ := except_bind_eq_ok h
      dsimp only at h
      split at h
      · cases h
      · next hend =>
        obtain rfl := Option.some.inj (Except.ok.inj h)
        obtain rfl := Decidable.not_not.mp hend
        obtain ⟨rs, hrs, hmap, hall⟩ := (topLevelRanges_iff bytes n start _ found).mp hfound
        obtain ⟨hlength, -⟩ := msgpackRanges_partition hrs
        rw [validateWampMessageFieldCount] at hcount
        split at hcount
        · cases hcount
        · next hfew =>
          subst hlength
          exact ⟨rs, start, (readMsgPackArrayHeader_iff bytes _ start).mp hheader, hrs, hmap,
            Nat.not_lt.mp hfew, hall⟩
  · rintro ⟨rs, start, hheader, hrs, hmap, hfew, hall⟩
    have hfound := (topLevelRanges_iff bytes rs.length start _ ranges).mpr ⟨rs, hrs, hmap, hall⟩
    rw [parseMsgPackTopLevelRanges, (readMsgPackArrayHeader_iff bytes _ start).mpr hheader]
    have hcount : validateWampMessageFieldCount rs.length = .ok () :=
      if_neg (Nat.not_lt.mpr hfew)
    simp only [hcount, hfound, bind, Except.bind, ne_eq, not_true_eq_false, if_false]

end Wamp

end Connectanum
