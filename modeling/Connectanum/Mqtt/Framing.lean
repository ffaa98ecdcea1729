import Connectanum.Lib.Streams
import Connectanum.Mqtt.FrameCodec
import Mathlib.Tactic.Ring

/-!
# Mqtt — Framing

The packets of a stream, and that the decoder finds them however the stream is cut into chunks.

* `packets`: the reference, a splitter of the whole stream: the first byte, the digits of the
  remaining length, and a body of exactly that many bytes;
* `Holds`: what the decoder keeps of the beginning of a packet;
* `decoder_follows`: from there, a chunk gives the packets of the stream;
* `frames_of_chunks`: the packets of any chunks, and where a malformed stream fails;
* `early_packet_lost`: the packets of the chunk that fails are lost.
-/

namespace Connectanum

namespace Mqtt

open Streams (Splitter Follows feed)
open Wamp (Bytes)

/-! ### The reference -/

/-- The value of digits to the base 128, the lowest first. -/
def valueOf : Bytes → Nat
  | [] => 0
  | d :: ds => d.toNat % 128 + 128 * valueOf ds

/-- The digits of a remaining length, `n` of which have come before, and what comes after them.  All
but the last have the high bit set. -/
def lengthDigits (maxPacketSize n : Nat) : Bytes → Option (Except String (Bytes × Bytes))
  | [] => none
  | d :: s =>
      if maxPacketSize ≤ 1 + n then some (.error "packet exceeds configured size limit")
      else if d.toNat < 128 then some (.ok ([d], s))
      else if n + 1 = 4 then some (.error "remaining length exceeds four bytes")
      else (lengthDigits maxPacketSize (n + 1) s).map (·.map fun r => (d :: r.1, r.2))

/-- The packet whose remaining length has been read. -/
def body (maxPacketSize : Nat) (h : FixedHeader) (digits s : Bytes) :
    Option (Except String (MqttFrame × Bytes)) :=
  if 1 < digits.length ∧ digits.getLast? = some 0 then
    some (.error "remaining length is not minimally encoded")
  else if maxPacketSize < 1 + digits.length + valueOf digits then
    some (.error "packet exceeds configured size limit")
  else if s.length < valueOf digits then none
  else some (.ok (h.frame (s.take (valueOf digits)), s.drop (valueOf digits)))

/-- The first packet of a stream, and what comes after it. -/
def packet (maxPacketSize : Nat) : Bytes → Option (Except String (MqttFrame × Bytes))
  | [] => none
  | first :: s =>
      match FixedHeader.read first with
      | .error message => some (.error message)
      | .ok h =>
          match lengthDigits maxPacketSize 0 s with
          | none => none
          | some (.error message) => some (.error message)
          | some (.ok (digits, s)) => body maxPacketSize h digits s

section

variable {maxPacketSize n : Nat}

theorem lengthDigits_ok {s digits rest : Bytes}
    (h : lengthDigits maxPacketSize n s = some (.ok (digits, rest))) :
    s = digits ++ rest ∧ digits ≠ [] ∧
      ∀ t, lengthDigits maxPacketSize n (digits ++ t) = some (.ok (digits, t)) := by
  induction s generalizing n digits with
  | nil => cases h
  | cons d s ih =>
      rw [lengthDigits] at h
      split at h
      · cases h
      · next hroom =>
        split at h
        · next hlast =>
          simp only [Option.some.injEq, Except.ok.injEq, Prod.mk.injEq] at h
          obtain ⟨rfl, rfl⟩ := h
          refine ⟨rfl, List.cons_ne_nil _ _, fun t => ?_⟩
          rw [List.cons_append, lengthDigits, if_neg hroom, if_pos hlast, List.nil_append]
        · next hmore =>
          split at h
          · cases h
          · next hfour =>
            obtain ⟨r, hr, hmap⟩ := Option.map_eq_some_iff.mp h
            cases r with
            | error e => cases hmap
            | ok r =>
                obtain ⟨ds, rest'⟩ := r
                simp only [Except.map, Except.ok.injEq, Prod.mk.injEq] at hmap
                obtain ⟨rfl, rfl⟩ := hmap
                obtain ⟨rfl, -, hstable⟩ := ih hr
                refine ⟨rfl, List.cons_ne_nil _ _, fun t => ?_⟩
                rw [List.cons_append, lengthDigits, if_neg hroom, if_neg hmore, if_neg hfour,
                  hstable]
                rfl

theorem lengthDigits_error {s : Bytes} {e : String}
    (h : lengthDigits maxPacketSize n s = some (.error e)) (t : Bytes) :
    lengthDigits maxPacketSize n (s ++ t) = some (.error e) := by
  induction s generalizing n with
  | nil => cases h
  | cons d s ih =>
      rw [lengthDigits] at h
      rw [List.cons_append, lengthDigits]
      split at h
      · next hfull =>
        rw [if_pos hfull]
        exact h
      · next hroom =>
        rw [if_neg hroom]
        split at h
        · cases h
        · next hmore =>
          rw [if_neg hmore]
          split at h
          · next hfour =>
            rw [if_pos hfour]
            exact h
          · next hfour =>
            rw [if_neg hfour]
            obtain ⟨r, hr, hmap⟩ := Option.map_eq_some_iff.mp h
            cases r with
            | ok r => cases hmap
            | error e' =>
                obtain rfl := Except.error.inj hmap
                rw [ih hr]
                rfl

theorem body_ok {h : FixedHeader} {digits s rest : Bytes} {f : MqttFrame}
    (hb : body maxPacketSize h digits s = some (.ok (f, rest))) :
    rest.length ≤ s.length ∧
      ∀ t, body maxPacketSize h digits (s ++ t) = some (.ok (f, rest ++ t)) := by
  unfold body at hb ⊢
  split at hb
  · cases hb
  · next hminimal =>
    split at hb
    · cases hb
    · next hsize =>
      split at hb
      · cases hb
      · next hlong =>
        simp only [Option.some.injEq, Except.ok.injEq, Prod.mk.injEq] at hb
        obtain ⟨rfl, rfl⟩ := hb
        have hle : valueOf digits ≤ s.length := Nat.le_of_not_lt hlong
        refine ⟨by rw [List.length_drop]; exact Nat.sub_le _ _, fun t => ?_⟩
        have hlong' : ¬ (s ++ t).length < valueOf digits := by
          rw [List.length_append]
          omega
        rw [if_neg hminimal, if_neg hsize, if_neg hlong', List.take_append_of_le_length hle,
          List.drop_append_of_le_length hle]

theorem body_error {h : FixedHeader} {digits s : Bytes} {e : String}
    (hb : body maxPacketSize h digits s = some (.error e)) (t : Bytes) :
    body maxPacketSize h digits t = some (.error e) := by
  unfold body at hb ⊢
  split at hb
  · next hminimal =>
    rw [if_pos hminimal]
    exact hb
  · next hminimal =>
    rw [if_neg hminimal]
    split at hb
    · next hsize =>
      rw [if_pos hsize]
      exact hb
    · split at hb <;> cases hb

end

/-- **The packets of a stream.** -/
def packets (maxPacketSize : Nat) : Splitter UInt8 MqttFrame String where
  cut := packet maxPacketSize
  shorter {s f rest} h := by
    cases s with
    | nil => cases h
    | cons first s =>
        simp only [packet] at h
        cases hf : FixedHeader.read first with
        | error m => rw [hf] at h; cases h
        | ok header =>
            simp only [hf] at h
            cases hd : lengthDigits maxPacketSize 0 s with
            | none => simp only [hd] at h; cases h
            | some r =>
                cases r with
                | error m => simp only [hd] at h; cases h
                | ok r =>
                    simp only [hd] at h
                    obtain ⟨hs, -, -⟩ := lengthDigits_ok hd
                    have hle := (body_ok h).1
                    rw [hs, List.length_cons, List.length_append]
                    omega
  stable {s f rest} t h := by
    cases s with
    | nil => cases h
    | cons first s =>
        simp only [List.cons_append, packet] at h ⊢
        cases hf : FixedHeader.read first with
        | error m => rw [hf] at h; cases h
        | ok header =>
            simp only [hf] at h ⊢
            cases hd : lengthDigits maxPacketSize 0 s with
            | none => simp only [hd] at h; cases h
            | some r =>
                cases r with
                | error m => simp only [hd] at h; cases h
                | ok r =>
                    simp only [hd] at h
                    obtain ⟨rfl, -, hdigits⟩ := lengthDigits_ok hd
                    rw [List.append_assoc, hdigits]
                    exact (body_ok h).2 t
  stable_error {s e} t h := by
    cases s with
    | nil => cases h
    | cons first s =>
        simp only [List.cons_append, packet] at h ⊢
        cases hf : FixedHeader.read first with
        | error m => rw [hf] at h; exact h
        | ok header =>
            simp only [hf] at h ⊢
            cases hd : lengthDigits maxPacketSize 0 s with
            | none => simp only [hd] at h; cases h
            | some r =>
                cases r with
                | error m =>
                    simp only [hd] at h
                    rw [lengthDigits_error hd]
                    exact h
                | ok r =>
                    simp only [hd] at h
                    obtain ⟨rfl, -, hdigits⟩ := lengthDigits_ok hd
                    rw [List.append_assoc, hdigits]
                    exact body_error h _

/-! ### What the decoder keeps -/

section

variable {maxPacketSize : Nat}

theorem toNat_low7 (d : UInt8) : (d &&& 0x7F).toNat = d.toNat % 128 := by
  rw [UInt8.toNat_and]
  exact Nat.and_two_pow_sub_one_eq_mod d.toNat 7

theorem high_eq_zero_iff (d : UInt8) : d &&& 0x80 = 0 ↔ d.toNat < 128 := by
  have hall : ∀ b : BitVec 8, b &&& 0x80#8 = 0#8 ↔ b.toNat < 128 := by decide +kernel
  rw [← UInt8.toBitVec_inj]
  exact hall d.toBitVec

theorem valueOf_snoc (ds : Bytes) (d : UInt8) :
    valueOf (ds ++ [d]) = valueOf ds + d.toNat % 128 * 128 ^ ds.length := by
  induction ds with
  | nil => simp [valueOf]
  | cons a ds ih =>
      rw [List.cons_append, valueOf, ih, valueOf, List.length_cons, Nat.pow_succ]
      ring

theorem valueOf_lt (ds : Bytes) : valueOf ds < 128 ^ ds.length := by
  induction ds with
  | nil => exact Nat.one_pos
  | cons a ds ih =>
      have hlow : a.toNat % 128 < 128 := Nat.mod_lt _ (by decide)
      rw [valueOf, List.length_cons, Nat.pow_succ]
      omega

/-- The value of the digits is that of fewer ones iff the last digit is `0`. -/
theorem snoc_lt_iff (ds : Bytes) {d : UInt8} (hd : d.toNat < 128) :
    valueOf (ds ++ [d]) < 128 ^ ds.length ↔ d = 0 := by
  have hlt := valueOf_lt ds
  rw [valueOf_snoc, Nat.mod_eq_of_lt hd]
  constructor
  · intro h
    have hzero : d.toNat = 0 := by
      by_contra hne
      have hle : 1 * 128 ^ ds.length ≤ d.toNat * 128 ^ ds.length :=
        Nat.mul_le_mul_right _ (Nat.pos_of_ne_zero hne)
      omega
    exact UInt8.toNat_inj.mp hzero
  · rintro rfl
    simpa using hlt

/-- The first byte has come and the digits `ds` of the remaining length, but not the last one. -/
def lengthState (h : FixedHeader) (ds : Bytes) : Pending where
  first := some h
  remainingLength := valueOf ds
  lengthBytes := ds.length
  multiplier := 128 ^ ds.length

/-- All digits have come and a part of the body. -/
def bodyState (h : FixedHeader) (digits buffer : Bytes) (bodyEnd : Nat) : Pending where
  first := some h
  remainingLength := valueOf digits
  lengthBytes := digits.length
  multiplier := 128 ^ (digits.length - 1)
  body := some buffer
  bodyEnd := bodyEnd

/-- The buffer that a body is begun with. -/
def firstBuffer (digits input : Bytes) : Bytes :=
  List.replicate (if valueOf digits < input.length * 2 + 4096 then valueOf digits
    else input.length * 2 + 4096) 0

/-- What the checks make of the digits. -/
def checkedLength (maxPacketSize : Nat) (h : FixedHeader) (digits input : Bytes) : Progress :=
  if 1 < digits.length ∧ digits.getLast? = some 0 then
    .failed "remaining length is not minimally encoded"
  else if maxPacketSize < 1 + digits.length + valueOf digits then
    .failed "packet exceeds configured size limit"
  else .inBody (bodyState h digits (firstBuffer digits input) 0) (firstBuffer digits input) input

/-- **The remaining length is read digit by digit.** -/
theorem readRemainingLength_eq (h : FixedHeader) (ds s : Bytes) :
    readRemainingLength maxPacketSize (lengthState h ds) s =
      match lengthDigits maxPacketSize ds.length s with
      | none => .ended (lengthState h (ds ++ s))
      | some (.error message) => .failed message
      | some (.ok (more, input)) => checkedLength maxPacketSize h (ds ++ more) input := by
  induction s generalizing ds with
  | nil => rw [readRemainingLength, lengthDigits, List.append_nil]
  | cons d s ih =>
      rw [readRemainingLength, lengthDigits]
      by_cases hroom : maxPacketSize ≤ 1 + ds.length
      · rw [if_pos hroom, if_pos (show 1 + (lengthState h ds).lengthBytes ≥ maxPacketSize from hroom)]
      · rw [if_neg hroom,
          if_neg (show ¬ 1 + (lengthState h ds).lengthBytes ≥ maxPacketSize from hroom)]
        have hvalue : (lengthState h ds).remainingLength +
            (d &&& 0x7F).toNat * (lengthState h ds).multiplier = valueOf (ds ++ [d]) := by
          rw [toNat_low7, valueOf_snoc]
          rfl
        have hlength : (lengthState h ds).lengthBytes + 1 = (ds ++ [d]).length := by
          rw [List.length_append]
          rfl
        simp only [hvalue, hlength, high_eq_zero_iff]
        by_cases hlast : d.toNat < 128
        · have hminimal : valueOf (ds ++ [d]) < (lengthState h ds).multiplier ↔
              (ds ++ [d]).getLast? = some 0 := by
            rw [List.getLast?_concat, Option.some.injEq]
            exact snoc_lt_iff ds hlast
          have hone : (ds ++ [d]).length - 1 = ds.length := by
            rw [List.length_append, List.length_singleton, Nat.add_sub_cancel]
          simp only [if_pos hlast, checkedLength, hminimal, gt_iff_lt, bodyState, hone]
          rfl
        · rw [if_neg hlast, if_neg hlast]
          by_cases hfour : (ds ++ [d]).length = 4
          · have hfour' : ds.length + 1 = 4 := by rw [← hlength] at hfour; exact hfour
            rw [if_pos hfour, if_pos hfour']
          · have hfour' : ¬ ds.length + 1 = 4 := by rw [← hlength] at hfour; exact hfour
            rw [if_neg hfour, if_neg hfour']
            have hnext := ih (ds ++ [d])
            have hstate : { lengthState h ds with
                remainingLength := valueOf (ds ++ [d])
                lengthBytes := (ds ++ [d]).length
                multiplier := (lengthState h ds).multiplier * 128 } = lengthState h (ds ++ [d]) := by
              rw [lengthState, lengthState, ← hlength, Nat.pow_succ]
              rfl
            have hlen : (ds ++ [d]).length = ds.length + 1 := hlength.symm
            rw [hstate, hnext, hlen]
            cases lengthDigits maxPacketSize (ds.length + 1) s with
            | none =>
                rw [List.append_assoc]
                rfl
            | some r =>
                cases r with
                | error message => rfl
                | ok r =>
                    obtain ⟨more, input⟩ := r
                    change checkedLength maxPacketSize h (ds ++ [d] ++ more) input =
                      checkedLength maxPacketSize h (ds ++ d :: more) input
                    rw [List.append_assoc]
                    rfl

/-! ### What is encoded -/

theorem variableByteInteger_of_lt {v : Nat} (h : v < 128) :
    variableByteInteger v = [UInt8.ofNat v] := by
  rw [variableByteInteger, if_pos h]

theorem variableByteInteger_of_ge {v : Nat} (h : ¬ v < 128) :
    variableByteInteger v =
      (UInt8.ofNat (v % 128) ||| 0x80) :: variableByteInteger (v / 128) := by
  rw [variableByteInteger, if_neg h]

theorem toNat_digit (v : Nat) : (UInt8.ofNat (v % 128) ||| 0x80).toNat = v % 128 + 128 := by
  have hlow : v % 128 < 128 := Nat.mod_lt v (by decide)
  have hbyte : (UInt8.ofNat (v % 128)).toNat = v % 128 :=
    UInt8.toNat_ofNat_of_lt' (Nat.lt_trans hlow (by decide))
  rw [UInt8.toNat_or, hbyte, Nat.or_comm]
  exact (Nat.two_pow_add_eq_or_of_lt (i := 7) hlow 1).symm.trans (Nat.add_comm _ _)

theorem valueOf_variableByteInteger (v : Nat) : valueOf (variableByteInteger v) = v := by
  induction v using Nat.strongRecOn with
  | ind v ih =>
      by_cases hv : v < 128
      · rw [variableByteInteger_of_lt hv, valueOf, valueOf,
          UInt8.toNat_ofNat_of_lt' (Nat.lt_trans hv (by decide)), Nat.mod_eq_of_lt hv]
        rfl
      · rw [variableByteInteger_of_ge hv, valueOf, ih (v / 128) (by omega), toNat_digit]
        omega

/-- The last digit is not `0`, so there is no shorter encoding. -/
theorem getLast_variableByteInteger {v : Nat} (hpos : 0 < v) :
    (variableByteInteger v).getLast? ≠ some 0 := by
  induction v using Nat.strongRecOn with
  | ind v ih =>
      by_cases hv : v < 128
      · rw [variableByteInteger_of_lt hv, List.getLast?_singleton]
        intro hzero
        have hbyte := congrArg UInt8.toNat (Option.some.inj hzero)
        rw [UInt8.toNat_ofNat_of_lt' (Nat.lt_trans hv (by decide))] at hbyte
        exact Nat.ne_of_gt hpos hbyte
      · rw [variableByteInteger_of_ge hv]
        have hne : variableByteInteger (v / 128) ≠ [] := by
          rw [variableByteInteger]
          split <;> exact List.cons_ne_nil _ _
        rw [List.getLast?_cons_of_ne_nil hne]
        exact ih (v / 128) (by omega) (by omega)

theorem lengthDigits_variableByteInteger {v n : Nat} (hn : n ≤ 3) (hv : v < 128 ^ (4 - n))
    (room : 1 + n + (variableByteInteger v).length ≤ maxPacketSize) (t : Bytes) :
    lengthDigits maxPacketSize n (variableByteInteger v ++ t) =
      some (.ok (variableByteInteger v, t)) := by
  induction v using Nat.strongRecOn generalizing n with
  | ind v ih =>
      by_cases hsmall : v < 128
      · rw [variableByteInteger_of_lt hsmall, List.length_singleton] at room
        rw [variableByteInteger_of_lt hsmall, List.singleton_append, lengthDigits,
          if_neg (by omega), if_pos]
        rw [UInt8.toNat_ofNat_of_lt' (Nat.lt_trans hsmall (by decide))]
        exact hsmall
      · rw [variableByteInteger_of_ge hsmall, List.length_cons] at room
        have hthree : n ≠ 3 := by
          rintro rfl
          exact hsmall hv
        have hrest : v / 128 < 128 ^ (4 - (n + 1)) := by
          have hsplit : 4 - n = 4 - (n + 1) + 1 := by omega
          rw [hsplit, Nat.pow_succ] at hv
          exact Nat.div_lt_of_lt_mul (Nat.mul_comm _ _ ▸ hv)
        rw [variableByteInteger_of_ge hsmall, List.cons_append, lengthDigits, if_neg (by omega),
          if_neg (by rw [toNat_digit]; omega), if_neg (by omega),
          ih (v / 128) (by omega) (by omega) hrest (by omega)]
        rfl

theorem flags_le {type : MqttPacketType} {flags : UInt8} (h : validateFlags type flags = .ok ()) :
    flags.toNat ≤ 15 := by
  unfold validateFlags at h
  split at h
  · cases h
  · next hle => exact Nat.le_of_not_lt hle

/-- The first byte of a frame gives its kind and its flags back. -/
theorem first_spec (type : MqttPacketType) {flags : UInt8} (h : flags.toNat ≤ 15) :
    packetType ((UInt8.ofNat type.wireValue <<< 4) ||| flags) = some type ∧
      ((UInt8.ofNat type.wireValue <<< 4) ||| flags) &&& 0x0F = flags := by
  have hall : ∀ b : BitVec 8, b.toNat ≤ 15 → ∀ type ∈ MqttPacketType.values,
      packetType ((UInt8.ofNat type.wireValue <<< 4) ||| ⟨b⟩) = some type ∧
        ((UInt8.ofNat type.wireValue <<< 4) ||| ⟨b⟩) &&& 0x0F = ⟨b⟩ := by decide +kernel
  exact hall flags.toBitVec h type (by cases type <;> decide)

/-- **Round trip.**  What is encoded within the limit is read back, whatever follows it. -/
theorem packet_encode {f : MqttFrame} {bytes : Bytes} (h : f.encode maxPacketSize = .ok bytes)
    (t : Bytes) : packet maxPacketSize (bytes ++ t) = some (.ok (f, t)) := by
  unfold MqttFrame.encode encodeMqttVariableByteInteger at h
  by_cases hlong : f.body.length > maxRemainingLength
  · rw [if_pos hlong] at h
    cases h
  rw [if_neg hlong] at h
  dsimp only at h
  split at h
  · cases h
  · next hsize =>
    obtain rfl := Except.ok.inj h
    obtain ⟨htype, hflags⟩ := first_spec f.type (flags_le f.flags_valid)
    let header : FixedHeader :=
      ⟨(UInt8.ofNat f.type.wireValue <<< 4) ||| f.flags, f.type, htype, by
        rw [hflags]; exact f.flags_valid⟩
    have hread : FixedHeader.read ((UInt8.ofNat f.type.wireValue <<< 4) ||| f.flags) = .ok header :=
      FixedHeader.read_first header
    have hbound : f.body.length < 128 ^ (4 - 0) := Nat.lt_succ_of_le (Nat.le_of_not_lt hlong)
    have hdigits := @lengthDigits_variableByteInteger maxPacketSize f.body.length 0
      (Nat.zero_le 3) hbound (by omega) (f.body ++ t)
    have hvalue := valueOf_variableByteInteger f.body.length
    have hminimal : ¬ (1 < (variableByteInteger f.body.length).length ∧
        (variableByteInteger f.body.length).getLast? = some 0) := by
      rintro ⟨hmany, hzero⟩
      by_cases hpos : 0 < f.body.length
      · exact getLast_variableByteInteger hpos hzero
      · rw [Nat.eq_zero_of_not_pos hpos, variableByteInteger_of_lt (by decide)] at hmany
        exact absurd hmany (by decide)
    have hframe : header.frame f.body = f := by
      cases f
      simp only [FixedHeader.frame, MqttFrame.mk.injEq, and_true]
      exact ⟨rfl, hflags⟩
    rw [List.cons_append, List.cons_append, List.append_assoc, packet, hread]
    dsimp only
    rw [hdigits]
    dsimp only
    rw [body, if_neg hminimal, hvalue, if_neg hsize, if_neg (by rw [List.length_append]; omega),
      List.take_left, List.drop_left, hframe]

/-! ### The beginning of a packet -/

/-- What the decoder keeps when it has read the beginning `held` of a packet. -/
inductive Holds (maxPacketSize : Nat) : Pending → Bytes → Prop where
  | idle : Holds maxPacketSize {} []
  | inLength (h : FixedHeader) (ds : Bytes) (more : ∀ d ∈ ds, 128 ≤ d.toNat) (few : ds.length ≤ 3)
      (room : 1 + ds.length ≤ maxPacketSize) :
      Holds maxPacketSize (lengthState h ds) (h.first :: ds)
  | inBody (h : FixedHeader) (digits buffer content : Bytes)
      (read : lengthDigits maxPacketSize 0 digits = some (.ok (digits, [])))
      (minimal : ¬ (1 < digits.length ∧ digits.getLast? = some 0))
      (fits : 1 + digits.length + valueOf digits ≤ maxPacketSize)
      (short : content.length < valueOf digits)
      (filled : buffer.take content.length = content)
      (bounded : buffer.length ≤ valueOf digits) :
      Holds maxPacketSize (bodyState h digits buffer content.length) (h.first :: (digits ++ content))

theorem lengthDigits_append {n : Nat} {ds : Bytes} (more : ∀ d ∈ ds, 128 ≤ d.toNat)
    (few : n + ds.length ≤ 3) (room : 1 + n + ds.length ≤ maxPacketSize) (s : Bytes) :
    lengthDigits maxPacketSize n (ds ++ s) =
      (lengthDigits maxPacketSize (n + ds.length) s).map (·.map fun r => (ds ++ r.1, r.2)) := by
  induction ds generalizing n with
  | nil =>
      rw [List.nil_append, List.length_nil, Nat.add_zero]
      cases lengthDigits maxPacketSize n s with
      | none => rfl
      | some r => cases r <;> rfl
  | cons d ds ih =>
      rw [List.length_cons] at few room
      have hd : ¬ d.toNat < 128 := Nat.not_lt.mpr (more d List.mem_cons_self)
      have hrest := @ih (n + 1) (fun d hd => more d (List.mem_cons_of_mem _ hd)) (by omega) (by omega)
      rw [List.cons_append, lengthDigits, if_neg (by omega), if_neg hd, if_neg (by omega), hrest,
        List.length_cons, Nat.add_right_comm, Nat.add_assoc n]
      cases lengthDigits maxPacketSize (n + (ds.length + 1)) s with
      | none => rfl
      | some r => cases r <;> rfl

/-- As long as the last digit has not come, there are three at most. -/
theorem lengthDigits_none {n : Nat} {s : Bytes} (h : lengthDigits maxPacketSize n s = none)
    (few : n ≤ 3) (room : 1 + n ≤ maxPacketSize) :
    (∀ d ∈ s, 128 ≤ d.toNat) ∧ n + s.length ≤ 3 ∧ 1 + (n + s.length) ≤ maxPacketSize := by
  induction s generalizing n with
  | nil => exact ⟨nofun, few, room⟩
  | cons d s ih =>
      rw [lengthDigits] at h
      split at h
      · cases h
      · split at h
        · cases h
        · next hmore =>
          split at h
          · cases h
          · obtain ⟨hs, hfew, hroom⟩ := ih (Option.map_eq_none_iff.mp h) (by omega) (by omega)
            refine ⟨fun x hx => ?_, ?_, ?_⟩
            · rcases List.mem_cons.mp hx with rfl | hx
              · exact Nat.le_of_not_lt hmore
              · exact hs x hx
            · rw [List.length_cons]
              omega
            · rw [List.length_cons]
              omega

/-- What is held is no packet yet. -/
theorem Holds.waits {p : Pending} {held : Bytes} (h : Holds maxPacketSize p held) :
    packet maxPacketSize held = none := by
  cases h with
  | idle => rfl
  | inLength h ds more few room =>
      have hdigits := lengthDigits_append (n := 0) more (by omega) (by omega) []
      rw [List.append_nil] at hdigits
      simp only [packet, FixedHeader.read_first, hdigits]
      rfl
  | inBody h digits buffer content read minimal fits short filled bounded =>
      have hdigits := (lengthDigits_ok read).2.2 content
      simp only [packet, FixedHeader.read_first, hdigits, body, if_neg minimal,
        if_neg (Nat.not_lt.mpr fits), if_pos short]

/-- What is held fits into a packet. -/
theorem Holds.bufferedBytes {p : Pending} {held : Bytes} (h : Holds maxPacketSize p held) :
    p.bufferedBytes = held.length ∧ held.length ≤ maxPacketSize := by
  cases h with
  | idle => exact ⟨rfl, Nat.zero_le _⟩
  | inLength h ds more few room =>
      refine ⟨?_, ?_⟩
      · rw [List.length_cons, Nat.add_comm]
        rfl
      · rw [List.length_cons, Nat.add_comm]
        exact room
  | inBody h digits buffer content read minimal fits short filled bounded =>
      refine ⟨?_, ?_⟩
      · rw [List.length_cons, List.length_append, Nat.add_comm, ← Nat.add_assoc]
        rfl
      · rw [List.length_cons, List.length_append]
        omega

/-- The decoder's buffer is no larger than the body that is announced. -/
theorem Holds.buffer {p : Pending} {held : Bytes} (h : Holds maxPacketSize p held) {buffer : Bytes}
    (hb : p.body = some buffer) : 1 + p.lengthBytes + buffer.length ≤ maxPacketSize := by
  cases h with
  | idle => cases hb
  | inLength h ds more few room => cases hb
  | inBody h digits buffer' content read minimal fits short filled bounded =>
      obtain rfl := Option.some.inj hb
      change 1 + digits.length + buffer'.length ≤ maxPacketSize
      omega

/-! ### The body -/

theorem length_setRange {target source : Bytes} {start : Nat}
    (h : start + source.length ≤ target.length) :
    (setRange target start source).length = target.length := by
  rw [setRange, List.length_append, List.length_append, List.length_take, List.length_drop]
  omega

theorem take_setRange {target source : Bytes} {start : Nat}
    (h : start + source.length ≤ target.length) :
    (setRange target start source).take (start + source.length) = target.take start ++ source := by
  have hlen : (target.take start ++ source).length = start + source.length := by
    rw [List.length_append, List.length_take]
    omega
  rw [setRange, ← hlen, List.take_left]

/-- The buffer keeps its content, and has the room. -/
theorem ensureRoom_spec {h : FixedHeader} {digits buffer content : Bytes} {count : Nat}
    (filled : buffer.take content.length = content) (bounded : buffer.length ≤ valueOf digits)
    (hcount : content.length + count ≤ valueOf digits) :
    (ensureRoom (bodyState h digits buffer content.length) buffer count).take content.length =
        content ∧
      content.length + count ≤
        (ensureRoom (bodyState h digits buffer content.length) buffer count).length ∧
      (ensureRoom (bodyState h digits buffer content.length) buffer count).length ≤
        valueOf digits := by
  -- the new buffer has a capacity between what is there and what is announced
  have hgrown : ∀ capacity, content.length + count ≤ capacity → capacity ≤ valueOf digits →
      (setRange (List.replicate capacity 0) 0 (buffer.take content.length)).take content.length =
          content ∧
        content.length + count ≤
          (setRange (List.replicate capacity 0) 0 (buffer.take content.length)).length ∧
        (setRange (List.replicate capacity 0) 0 (buffer.take content.length)).length ≤
          valueOf digits := by
    intro capacity hlow hhigh
    have hroom : 0 + content.length ≤ (List.replicate capacity (0 : UInt8)).length := by
      rw [List.length_replicate]
      omega
    rw [filled, length_setRange hroom, List.length_replicate]
    refine ⟨?_, hlow, hhigh⟩
    have htake := take_setRange hroom
    rw [Nat.zero_add, List.take_zero, List.nil_append] at htake
    exact htake
  by_cases hfull : (bodyState h digits buffer content.length).bodyEnd + count > buffer.length
  · rw [ensureRoom, if_pos hfull]
    have hend : (bodyState h digits buffer content.length).bodyEnd = content.length := rfl
    have hall : (bodyState h digits buffer content.length).remainingLength = valueOf digits := rfl
    refine hgrown _ ?_ ?_
    · split <;> split <;> omega
    · split <;> split <;> omega
  · rw [ensureRoom, if_neg hfull]
    exact ⟨filled, Nat.le_of_not_lt hfull, bounded⟩

/-- **The body is what is announced of the bytes that come.** -/
theorem takeBody_eq (h : FixedHeader) {digits buffer content : Bytes} (input : Bytes)
    (filled : buffer.take content.length = content) (bounded : buffer.length ≤ valueOf digits)
    (short : content.length ≤ valueOf digits) :
    ∃ buffer', takeBody (bodyState h digits buffer content.length) buffer input =
        (bodyState h digits buffer' ((content ++ input).take (valueOf digits)).length, buffer',
          (content ++ input).drop (valueOf digits)) ∧
      buffer'.take ((content ++ input).take (valueOf digits)).length =
        (content ++ input).take (valueOf digits) ∧
      buffer'.length ≤ valueOf digits := by
  generalize hcount : (if valueOf digits - content.length < input.length then
    valueOf digits - content.length else input.length) = count
  have hle : content.length + count ≤ valueOf digits ∧ count ≤ input.length := by
    rw [← hcount]
    split <;> omega
  obtain ⟨hkept, hroom, hbounded⟩ := @ensureRoom_spec h digits buffer content count filled bounded hle.1
  have htaken : (input.take count).length = count := by
    rw [List.length_take]
    omega
  have hcontent : (content ++ input).take (valueOf digits) = content ++ input.take count := by
    rw [List.take_append, List.take_of_length_le short]
    congr 1
    rw [← hcount]
    split
    · rfl
    · next hall =>
      rw [List.take_of_length_le (Nat.le_of_not_lt hall), List.take_of_length_le (Nat.le_refl _)]
  have hrest : (content ++ input).drop (valueOf digits) = input.drop count := by
    rw [List.drop_append, List.drop_eq_nil_of_le short, List.nil_append]
    rw [← hcount]
    split
    · rfl
    · next hall =>
      rw [List.drop_eq_nil_of_le (Nat.le_of_not_lt hall), List.drop_eq_nil_of_le (Nat.le_refl _)]
  have hlen : ((content ++ input).take (valueOf digits)).length = content.length + count := by
    rw [hcontent, List.length_append, htaken]
  refine ⟨setRange (ensureRoom (bodyState h digits buffer content.length) buffer count)
    content.length (input.take count), ?_, ?_, ?_⟩
  · rw [hrest, hlen, ← hcount]
    rfl
  · have htake := @take_setRange
      (ensureRoom (bodyState h digits buffer content.length) buffer count) (input.take count)
      content.length (by rw [htaken]; exact hroom)
    rw [htaken, hkept] at htake
    rw [hlen, hcontent]
    exact htake
  · rw [length_setRange (by rw [htaken]; exact hroom)]
    exact hbounded

/-! ### One packet -/

/-- The reading of a packet agrees with the reference. -/
def Agrees (maxPacketSize : Nat) (stream input : Bytes) (round : Round) : Prop :=
  match packet maxPacketSize stream with
  | none => ∃ p, round = .ended p ∧ Holds maxPacketSize p stream
  | some (.error message) => round = .failed message
  | some (.ok (f, rest)) => round = .packet f rest ∧ rest.length < input.length

/-- A round, once it is known where the fixed header has led. -/
def finish : Progress → Round
  | .ended p => .ended p
  | .failed message => .failed message
  | .inBody p body input =>
      let (p, body, input) := takeBody p body input
      if p.bodyEnd = p.remainingLength then
        match p.first with
        | none => .failed "no packet type"
        | some h => .packet (h.frame body) input
      else .ended p

theorem readPacket_eq (p : Pending) (input : Bytes) :
    readPacket maxPacketSize p input = finish (readFixedHeader maxPacketSize p input) := rfl

/-- The body of a packet whose digits have been read. -/
theorem finish_inBody {h : FixedHeader} {digits buffer content input all : Bytes}
    (read : lengthDigits maxPacketSize 0 digits = some (.ok (digits, [])))
    (minimal : ¬ (1 < digits.length ∧ digits.getLast? = some 0))
    (fits : 1 + digits.length + valueOf digits ≤ maxPacketSize)
    (short : content.length ≤ valueOf digits) (filled : buffer.take content.length = content)
    (bounded : buffer.length ≤ valueOf digits)
    (progress : ∀ rest : Bytes, valueOf digits + rest.length = content.length + input.length →
      rest.length < all.length) :
    Agrees maxPacketSize (h.first :: (digits ++ (content ++ input))) all
      (finish (.inBody (bodyState h digits buffer content.length) buffer input)) := by
  obtain ⟨buffer', htake, hfilled, hbounded⟩ := takeBody_eq h input filled bounded short
  have hdigits := (lengthDigits_ok read).2.2 (content ++ input)
  have hpacket : packet maxPacketSize (h.first :: (digits ++ (content ++ input))) =
      if (content ++ input).length < valueOf digits then none
      else some (.ok (h.frame ((content ++ input).take (valueOf digits)),
        (content ++ input).drop (valueOf digits))) := by
    simp only [packet, FixedHeader.read_first, hdigits, body, if_neg minimal,
      if_neg (Nat.not_lt.mpr fits)]
  rw [Agrees, hpacket, finish, htake]
  dsimp only
  by_cases hshort : (content ++ input).length < valueOf digits
  · have hall : (content ++ input).take (valueOf digits) = content ++ input :=
      List.take_of_length_le (Nat.le_of_lt hshort)
    rw [hall] at hfilled ⊢
    have hmissing : (bodyState h digits buffer' (content ++ input).length).bodyEnd ≠
        (bodyState h digits buffer' (content ++ input).length).remainingLength :=
      Nat.ne_of_lt hshort
    rw [if_pos hshort, if_neg hmissing]
    exact ⟨_, rfl, .inBody h digits buffer' (content ++ input) read minimal fits hshort hfilled
      hbounded⟩
  · have hle := Nat.le_of_not_lt hshort
    have hlen : ((content ++ input).take (valueOf digits)).length = valueOf digits :=
      List.length_take_of_le hle
    rw [hlen, List.take_of_length_le hbounded] at hfilled
    have hcomplete : (bodyState h digits buffer'
        ((content ++ input).take (valueOf digits)).length).bodyEnd =
        (bodyState h digits buffer'
          ((content ++ input).take (valueOf digits)).length).remainingLength := hlen
    rw [if_neg hshort, if_pos hcomplete]
    refine ⟨by rw [hfilled]; rfl, progress _ ?_⟩
    rw [List.length_drop, List.length_append]
    rw [List.length_append] at hle
    omega

/-- The remaining length and the body. -/
theorem finish_readRemainingLength {h : FixedHeader} {ds input all : Bytes}
    (more : ∀ d ∈ ds, 128 ≤ d.toNat) (few : ds.length ≤ 3) (room : 1 + ds.length ≤ maxPacketSize)
    (hall : input.length ≤ all.length) :
    Agrees maxPacketSize (h.first :: (ds ++ input)) all
      (finish (readRemainingLength maxPacketSize (lengthState h ds) input)) := by
  have happend := lengthDigits_append (n := 0) more (by omega) (by omega) input
  rw [Nat.zero_add] at happend
  rw [readRemainingLength_eq]
  cases hd : lengthDigits maxPacketSize ds.length input with
  | none =>
      obtain ⟨hmore, hfew, hroom⟩ := lengthDigits_none hd few room
      rw [hd] at happend
      have hpacket : packet maxPacketSize (h.first :: (ds ++ input)) = none := by
        simp only [packet, FixedHeader.read_first, happend, Option.map_none]
      rw [Agrees, hpacket]
      refine ⟨_, rfl, .inLength h (ds ++ input) (fun d hd => ?_) ?_ ?_⟩
      · rcases List.mem_append.mp hd with hd | hd
        · exact more d hd
        · exact hmore d hd
      · rw [List.length_append]
        exact hfew
      · rw [List.length_append]
        exact hroom
  | some r =>
      cases r with
      | error message =>
          rw [hd] at happend
          have hpacket : packet maxPacketSize (h.first :: (ds ++ input)) =
              some (.error message) := by
            simp only [packet, FixedHeader.read_first, happend, Option.map_some, Except.map]
          rw [Agrees, hpacket]
          rfl
      | ok r =>
          obtain ⟨last, rest⟩ := r
          obtain ⟨rfl, hlast, hdigits⟩ := lengthDigits_ok hd
          rw [hd] at happend
          have hread : lengthDigits maxPacketSize 0 (ds ++ last) =
              some (.ok (ds ++ last, [])) := by
            have hlone := hdigits []
            rw [List.append_nil] at hlone
            rw [lengthDigits_append more (by omega) (by omega), Nat.zero_add, hlone]
            rfl
          have hpacket : packet maxPacketSize (h.first :: (ds ++ (last ++ rest))) =
              body maxPacketSize h (ds ++ last) rest := by
            simp only [packet, FixedHeader.read_first, happend, Option.map_some, Except.map]
          dsimp only
          rw [checkedLength]
          by_cases hminimal : 1 < (ds ++ last).length ∧ (ds ++ last).getLast? = some 0
          · rw [if_pos hminimal, Agrees, hpacket, body, if_pos hminimal]
            rfl
          · rw [if_neg hminimal]
            by_cases hsize : maxPacketSize < 1 + (ds ++ last).length + valueOf (ds ++ last)
            · rw [if_pos hsize, Agrees, hpacket, body, if_neg hminimal, if_pos hsize]
              rfl
            · rw [if_neg hsize]
              have hbuffer : (firstBuffer (ds ++ last) rest).length ≤ valueOf (ds ++ last) := by
                rw [firstBuffer, List.length_replicate]
                split <;> omega
              have hbody := @finish_inBody maxPacketSize h (ds ++ last)
                (firstBuffer (ds ++ last) rest) [] rest all hread hminimal
                (Nat.le_of_not_lt hsize) (Nat.zero_le _) rfl hbuffer fun rest' hlen => by
                  have := List.length_pos_iff.mpr hlast
                  rw [List.length_append] at hall
                  rw [List.length_nil] at hlen
                  omega
              rw [List.nil_append, List.append_assoc] at hbody
              exact hbody

/-- **A round reads the packet that the reference reads.** -/
theorem readPacket_agrees {p : Pending} {held input : Bytes} (hp : Holds maxPacketSize p held)
    (hroom : 1 ≤ maxPacketSize) (hinput : input ≠ []) :
    Agrees maxPacketSize (held ++ input) input (readPacket maxPacketSize p input) := by
  rw [readPacket_eq]
  cases hp with
  | idle =>
      cases input with
      | nil => exact absurd rfl hinput
      | cons first input =>
          have hheader : readFixedHeader maxPacketSize {} (first :: input) =
              match FixedHeader.read first with
              | .error message => .failed message
              | .ok h => readRemainingLength maxPacketSize (lengthState h []) input := rfl
          rw [hheader, List.nil_append]
          cases hf : FixedHeader.read first with
          | error message =>
              rw [Agrees, packet, hf]
              rfl
          | ok h =>
              have hlength := @finish_readRemainingLength maxPacketSize h [] input (first :: input)
                nofun (Nat.zero_le _) hroom (Nat.le_succ _)
              rw [List.nil_append, FixedHeader.first_of_read hf] at hlength
              exact hlength
  | inLength h ds more few room =>
      exact finish_readRemainingLength more few room (Nat.le_refl _)
  | inBody h digits buffer content read minimal fits short filled bounded =>
      have hbody := @finish_inBody maxPacketSize h digits buffer content input input read minimal fits
        (Nat.le_of_lt short) filled bounded fun rest hlen => by omega
      rw [← List.append_assoc] at hbody
      exact hbody

/-! ### All packets of a chunk -/

theorem readPackets_nil (fuel : Nat) (p : Pending) (frames : List MqttFrame) :
    readPackets maxPacketSize fuel p frames [] = .ok (frames, p) := by
  cases fuel with
  | zero => rfl
  | succ fuel => rfl

theorem readPackets_succ {maxPacketSize fuel : Nat} {p : Pending} {frames : List MqttFrame}
    {input : Bytes} (h : input ≠ []) :
    readPackets maxPacketSize (fuel + 1) p frames input =
      match readPacket maxPacketSize p input with
      | .ended p => .ok (frames, p)
      | .failed message => .error message
      | .packet frame input => readPackets maxPacketSize fuel {} (frames ++ [frame]) input := by
  cases input with
  | nil => exact absurd rfl h
  | cons b input => rfl

/-- **The packets of a chunk** are those of the stream, from what is held on. -/
theorem readPackets_eq {fuel : Nat} {p : Pending} {held input : Bytes} (frames : List MqttFrame)
    (hp : Holds maxPacketSize p held) (hroom : 1 ≤ maxPacketSize) (hfuel : input.length < fuel) :
    (∀ bs tail, (packets maxPacketSize).drain (held ++ input) = (bs, .ok tail) →
      ∃ p', readPackets maxPacketSize fuel p frames input = .ok (frames ++ bs, p') ∧
        Holds maxPacketSize p' tail) ∧
    (∀ bs e, (packets maxPacketSize).drain (held ++ input) = (bs, .error e) →
      readPackets maxPacketSize fuel p frames input = .error e) := by
  induction fuel generalizing p held input frames with
  | zero => exact absurd hfuel (Nat.not_lt_zero _)
  | succ fuel ih =>
      by_cases hinput : input = []
      · subst hinput
        have hwaits : (packets maxPacketSize).drain held = ([], .ok held) :=
          Splitter.drain_of_none hp.waits
        rw [List.append_nil, hwaits, readPackets_nil]
        refine ⟨fun bs tail heq => ?_, fun bs e heq => ?_⟩
        · obtain ⟨rfl, htail⟩ := Prod.mk.inj heq
          obtain rfl := Except.ok.inj htail
          exact ⟨p, by rw [List.append_nil], hp⟩
        · cases (Prod.mk.inj heq).2
      · have hagrees := readPacket_agrees hp hroom hinput
        rw [Agrees] at hagrees
        rw [readPackets_succ hinput]
        cases hcut : packet maxPacketSize (held ++ input) with
        | none =>
            rw [hcut] at hagrees
            obtain ⟨p', hround, hp'⟩ := hagrees
            have hwaits : (packets maxPacketSize).drain (held ++ input) =
                ([], .ok (held ++ input)) := Splitter.drain_of_none hcut
            rw [hround, hwaits]
            refine ⟨fun bs tail heq => ?_, fun bs e heq => ?_⟩
            · obtain ⟨rfl, htail⟩ := Prod.mk.inj heq
              obtain rfl := Except.ok.inj htail
              exact ⟨p', by rw [List.append_nil], hp'⟩
            · cases (Prod.mk.inj heq).2
        | some r =>
            cases r with
            | error message =>
                rw [hcut] at hagrees
                have hround : readPacket maxPacketSize p input = .failed message := hagrees
                have hfails : (packets maxPacketSize).drain (held ++ input) =
                    ([], .error message) := Splitter.drain_of_error hcut
                rw [hround, hfails]
                refine ⟨fun bs tail heq => ?_, fun bs e heq => ?_⟩
                · cases (Prod.mk.inj heq).2
                · rw [Except.error.inj (Prod.mk.inj heq).2]
            | ok r =>
                obtain ⟨f, rest⟩ := r
                rw [hcut] at hagrees
                obtain ⟨hround, hshort⟩ := hagrees
                have hdrain : (packets maxPacketSize).drain (held ++ input) =
                    (f :: ((packets maxPacketSize).drain rest).1,
                      ((packets maxPacketSize).drain rest).2) := Splitter.drain_of_ok hcut
                obtain ⟨hok, herror⟩ := @ih {} [] rest (frames ++ [f]) .idle (by omega)
                rw [hround, hdrain]
                refine ⟨fun bs tail heq => ?_, fun bs e heq => ?_⟩
                · obtain ⟨rfl, htail⟩ := Prod.mk.inj heq
                  obtain ⟨p', hread, hp'⟩ := hok _ tail (Prod.ext rfl htail)
                  refine ⟨p', ?_, hp'⟩
                  rw [List.append_assoc, List.singleton_append] at hread
                  exact hread
                · exact herror _ e (Prod.ext rfl (Prod.mk.inj heq).2)

end

/-! ### The decoder -/

namespace MqttFrameDecoder

/-- A chunk is added, and the decoder goes on if it has not failed. -/
def accept (d : MqttFrameDecoder) (chunk : Bytes) :
    Except String (List MqttFrame × MqttFrameDecoder) :=
  match d.add chunk with
  | (.ok frames, d') => .ok (frames, d')
  | (.error e, _) => .error e.message

/-- The decoder `d`, built like `d₀`, holds the beginning of a packet. -/
structure Reads (d₀ d : MqttFrameDecoder) (held : Bytes) : Prop where
  limit : d.maxPacketSize = d₀.maxPacketSize
  going : d.failed = false
  holds : Holds d₀.maxPacketSize d.pending held

theorem Reads.fresh (d : MqttFrameDecoder) : Reads d d.fresh [] := ⟨rfl, rfl, .idle⟩

theorem Reads.add_ok {d₀ d : MqttFrameDecoder} {held chunk tail : Bytes} {frames : List MqttFrame}
    (h : Reads d₀ d held)
    (hdrain : (packets d₀.maxPacketSize).drain (held ++ chunk) = (frames, .ok tail)) :
    ∃ d', d.add chunk = (.ok frames, d') ∧ Reads d₀ d' tail := by
  obtain ⟨p, hread, hp⟩ := (readPackets_eq [] h.holds (Nat.le_of_succ_le d₀.two_le)
    (Nat.lt_succ_self chunk.length)).1 frames tail hdrain
  rw [← h.limit] at hread
  refine ⟨{ d with pending := p }, ?_, h.limit, h.going, hp⟩
  rw [add, h.going, if_neg nofun, hread]
  rfl

/-- The failure of a chunk is terminal, and nothing is kept. -/
theorem Reads.add_error {d₀ d : MqttFrameDecoder} {held chunk : Bytes} {frames : List MqttFrame}
    {message : String} (h : Reads d₀ d held)
    (hdrain : (packets d₀.maxPacketSize).drain (held ++ chunk) = (frames, .error message)) :
    ∃ d', d.add chunk = (.error (.protocol message), d') ∧ d'.failed = true ∧
      d'.bufferedBytes = 0 := by
  have hread := (readPackets_eq [] h.holds (Nat.le_of_succ_le d₀.two_le)
    (Nat.lt_succ_self chunk.length)).2 frames message hdrain
  rw [← h.limit] at hread
  rw [add, h.going, if_neg nofun, hread]
  exact ⟨_, rfl, rfl, rfl⟩

theorem follows (d₀ : MqttFrameDecoder) :
    Follows (packets d₀.maxPacketSize) accept (Reads d₀) where
  waits h := h.holds.waits
  ok {d held chunk frames tail} h hdrain := by
    obtain ⟨d', hadd, hd'⟩ := h.add_ok hdrain
    exact ⟨d', by rw [accept, hadd], hd'⟩
  error {d held chunk frames message} h hdrain := by
    obtain ⟨d', hadd, -⟩ := h.add_error hdrain
    rw [accept, hadd]
    rfl

/-- **The frames of any chunks.**  Where the stream is well formed, the chunks give its packets, and
what is kept of the last one fits into a packet, as does the buffer.  Where it is malformed, one chunk
fails, with what is wrong in the stream; the chunks before it give their packets, and nothing is kept
after it. -/
theorem frames_of_chunks (d : MqttFrameDecoder) (chunks : List Bytes) :
    match (packets d.maxPacketSize).drain chunks.flatten with
    | (frames, .ok tail) => ∃ d', feed accept d.fresh chunks = (frames, .ok d') ∧
        d'.bufferedBytes = tail.length ∧ d'.bufferedBytes ≤ d.maxPacketSize ∧
        ∀ buffer, d'.pending.body = some buffer →
          1 + d'.pending.lengthBytes + buffer.length ≤ d.maxPacketSize
    | (_, .error message) => ∃ before chunk after frames tail d' d'',
        chunks = before ++ chunk :: after ∧
        (packets d.maxPacketSize).drain before.flatten = (frames, .ok tail) ∧
        feed accept d.fresh before = (frames, .ok d') ∧
        d'.add chunk = (.error (.protocol message), d'') ∧
        d''.failed = true ∧ d''.bufferedBytes = 0 := by
  have hfresh := Reads.fresh d
  cases hdrain : (packets d.maxPacketSize).drain chunks.flatten with
  | mk frames result =>
      cases result with
      | ok tail =>
          obtain ⟨d', hfeed, hd'⟩ := (follows d).feed_ok hfresh chunks hdrain
          obtain ⟨hlen, hle⟩ := hd'.holds.bufferedBytes
          refine ⟨d', hfeed, hlen, ?_, fun buffer hb => hd'.holds.buffer hb⟩
          rw [bufferedBytes, hlen]
          exact hle
      | error message =>
          obtain ⟨before, chunk, after, tail, frames', rfl, hbefore, hbad, -⟩ :=
            (follows d).feed_error hfresh chunks hdrain
          obtain ⟨d', hfeed, hd'⟩ := (follows d).feed_ok hfresh before hbefore
          rw [List.nil_append] at hbefore hbad
          rw [Splitter.drain_append_ok chunk hbefore] at hbad
          obtain ⟨d'', hadd, hfailed, hempty⟩ := hd'.add_error (Prod.ext rfl hbad)
          exact ⟨before, chunk, after, frames', tail, d', d'', rfl, hbefore, hfeed, hadd, hfailed,
            hempty⟩

/-- A decoder with the default limit. -/
def default : MqttFrameDecoder where
  maxPacketSize := 1024 * 1024
  two_le := by decide
  le_wire := by decide

/-- **The packets of the chunk that fails are lost.**  A PINGREQ and then a PINGREQ with the length
`80 00`: in one chunk nothing is delivered, in two chunks the first packet is.  And a stream fails for
its first byte, too. -/
theorem early_packet_lost :
    ((feed accept default [[0xC0, 0x00, 0xC0, 0x80, 0x00]]).1.length = 0 ∧
      (feed accept default [[0xC0, 0x00, 0xC0, 0x80, 0x00]]).2.isOk = false) ∧
    ((feed accept default [[0xC0, 0x00], [0xC0, 0x80, 0x00]]).1.length = 1 ∧
      (feed accept default [[0xC0, 0x00], [0xC0, 0x80, 0x00]]).2.isOk = false) ∧
    (feed accept default [[0x00, 0x00]]).2.isOk = false := by
  decide +kernel

end MqttFrameDecoder

end Mqtt

end Connectanum
