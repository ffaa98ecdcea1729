import Connectanum.Lib.CborTrees
import Connectanum.Native.Cbor

/-!
# Native — CborScan

The scan of a CBOR frame in one buffer (`cborTopLevelRanges`), with a `serde_cbor` that decodes the
well-formed items (`SerdeCbor.Lawful`).

`elements_of_cborTopLevelRanges`, `cborTopLevelRanges_of_elements`: the scan succeeds exactly on an
untagged array, and cuts it into the pieces of its elements.
-/

namespace Connectanum

namespace Wamp

open Readers

/-- `serde_cbor` decodes every well-formed item, and nothing else.  `m` says what the items stand
for, with the entries of a map in the order of the `BTreeMap`. -/
structure SerdeCbor.Lawful (cbor : SerdeCbor) (m : Cbor.Meaning Value) : Prop where
  value (bytes : Bytes) (v : Value) :
    cbor.value bytes = .ok v ↔ ∃ rest, Cbor.decode m bytes = some (v, rest)
  ignored (bytes : Bytes) (n : Nat) :
    cbor.ignored bytes = .ok n ↔
      ∃ v rest, Cbor.decode m bytes = some (v, rest) ∧ n + rest.length = bytes.length
  document (bytes : Bytes) (v : Value) :
    cbor.document bytes = .ok v ↔ Reads (Cbor.decode m) bytes v
  seq (items : List Value) : m.seq items = .seq items
  map (entries : List (Value × Value)) : ∃ sorted, m.map entries = .map sorted
  null : m.simple 22 = some .unit
  /-- A `Vec` takes what is written to it. -/
  toVec (v : Value) : ∃ bytes, cbor.toVec v = .ok bytes

/-! ### Ranges and pieces -/

/-- The frame has the piece at the range. -/
def Cut (data : Bytes) (range : Range) (piece : Bytes) : Prop :=
  (RawFrame.contiguous data).sliceOrCopy range = .ok piece

theorem cut_of_drop {data piece rest : Bytes} {offset : Nat}
    (h : data.drop offset = piece ++ rest) (hpiece : 0 < piece.length) :
    Cut data ⟨offset, offset + piece.length⟩ piece := by
  have hlen := congrArg List.length h
  rw [List.length_drop, List.length_append] at hlen
  unfold Cut RawFrame.sliceOrCopy
  rw [if_neg (by change ¬data.length < offset + piece.length; omega)]
  simp only [RawFrame.slice, h, Nat.add_sub_cancel_left, List.take_left]

section

variable {cbor : SerdeCbor} {m : Cbor.Meaning Value}

theorem cborArrayHeader_cons {byte : UInt8} (rest : Bytes) (hmajor : Cbor.major byte = 4) :
    cborArrayHeader (byte :: rest) =
      if Cbor.info byte = 31 then .ok (1, none)
      else if Cbor.info byte < 24 then .ok (1, some (Cbor.info byte))
      else
        match Cbor.width (Cbor.info byte) with
        | some k => (fun n => (1 + k, some n)) <$> cborHeaderInteger (byte :: rest) k
        | none => .error (.deserialize "reserved CBOR array additional information") := by
  have hadditional : byte.toNat % 2 ^ 5 = Cbor.info byte := rfl
  have harray : byte.toNat / 2 ^ 5 = 4 := hmajor
  simp only [cborArrayHeader, hadditional]
  rw [if_neg (not_not_intro harray)]
  by_cases h31 : Cbor.info byte = 31
  · rw [if_pos h31, if_pos h31]
  · rw [if_neg h31, if_neg h31]
    by_cases h24 : Cbor.info byte < 24
    · rw [if_pos (by omega), if_pos h24]
    · rw [if_neg (by omega), if_neg h24]
      generalize Cbor.info byte = additional
      split
      · rfl
      · rfl
      · rfl
      · rfl
      · next h₁ h₂ h₃ h₄ =>
        have hwidth : Cbor.width additional = none := by
          unfold Cbor.width
          split
          · exact absurd rfl h₁
          · exact absurd rfl h₂
          · exact absurd rfl h₃
          · exact absurd rfl h₄
          · rfl
        rw [hwidth]

/-- The argument of a wide head, as the scan and as the grammar read it. -/
theorem cborHeaderInteger_eq_ok {byte : UInt8} {rest : Bytes} {k n : Nat} :
    cborHeaderInteger (byte :: rest) k = .ok n ↔
      (BigEndian.read <$> take k) rest = some (n, rest.drop k) := by
  have htake : (rest.take k).foldl (fun value byte => value * 2 ^ 8 + byte.toNat) 0 =
      BigEndian.read (rest.take k) := rfl
  rw [map_eq_some, cborHeaderInteger, List.drop_succ_cons, List.drop_zero, htake]
  constructor
  · intro h
    split at h
    · cases h
    · next hlen =>
      cases h
      refine ⟨rest.take k, rest.drop k, take_eq_some.mpr ⟨?_, ?_⟩, rfl⟩
      · rw [List.length_cons] at hlen
        rw [List.length_take]
        omega
      · exact (List.take_append_drop k rest).symm
  · rintro ⟨front, rest', htaken, heq⟩
    cases heq
    obtain ⟨hk, happ⟩ := take_eq_some.mp htaken
    dsimp only at hk happ
    rw [if_neg (by rw [List.length_cons, happ, List.length_append]; omega), happ, ← hk,
      List.take_left]

theorem cborArrayHeader_of_argument {byte : UInt8} {rest mid : Bytes} {n : Nat}
    (hmajor : Cbor.major byte = 4) (hinfo : Cbor.info byte ≠ 31)
    (h : Cbor.argument (Cbor.info byte) rest = some (n, mid)) :
    ∃ offset, cborArrayHeader (byte :: rest) = .ok (offset, some n) ∧
      (byte :: rest).drop offset = mid ∧ offset ≤ (byte :: rest).length := by
  rw [cborArrayHeader_cons rest hmajor, if_neg hinfo]
  unfold Cbor.argument at h
  split at h
  · next hsmall =>
    cases h
    exact ⟨1, if_pos hsmall, rfl, Nat.le_add_left 1 _⟩
  · next hwide =>
    rw [if_neg hwide]
    obtain ⟨k, mid', hk, h⟩ := bind_eq_some.mp h
    cases hwidth : Cbor.width (Cbor.info byte) with
    | none =>
        rw [hwidth] at hk
        cases hk
    | some k' =>
        rw [hwidth] at hk
        cases hk
        obtain ⟨front, rest', htake, hr⟩ := map_eq_some.mp h
        cases hr
        obtain ⟨hlen, happ⟩ := take_eq_some.mp htake
        dsimp only at hlen happ
        subst happ
        have hdrop : (front ++ mid).drop k = mid := by rw [← hlen, List.drop_left]
        refine ⟨1 + k, ?_, by rw [Nat.add_comm, List.drop_succ_cons, hdrop], ?_⟩
        swap
        · rw [List.length_cons, List.length_append]
          omega
        have hinteger : cborHeaderInteger (byte :: (front ++ mid)) k = .ok (BigEndian.read front) :=
          cborHeaderInteger_eq_ok.mpr (by rw [hdrop]; exact h)
        dsimp only
        rw [hinteger]
        rfl

theorem cborArrayHeader_eq_ok {data : Bytes} {offset : Nat} {length : Option Nat}
    (h : cborArrayHeader data = .ok (offset, length)) :
    ∃ byte rest, data = byte :: rest ∧ Cbor.major byte = 4 ∧
      ((Cbor.info byte = 31 ∧ offset = 1 ∧ length = none) ∨
        (Cbor.info byte ≠ 31 ∧ ∃ n,
          Cbor.argument (Cbor.info byte) rest = some (n, data.drop offset) ∧
            length = some n)) := by
  cases data with
  | nil => cases h
  | cons byte rest =>
      have hmajor : Cbor.major byte = 4 := by
        by_contra hother
        rw [cborArrayHeader, if_pos (by exact hother)] at h
        cases h
      refine ⟨byte, rest, rfl, hmajor, ?_⟩
      rw [cborArrayHeader_cons rest hmajor] at h
      split at h
      · next h31 =>
        cases h
        exact .inl ⟨h31, rfl, rfl⟩
      · next h31 =>
        refine .inr ⟨h31, ?_⟩
        unfold Cbor.argument
        split at h
        · next hsmall =>
          cases h
          rw [if_pos hsmall]
          exact ⟨_, rfl, rfl⟩
        · next hwide =>
          rw [if_neg hwide]
          split at h
          · next k hk =>
            obtain ⟨n, hn, heq⟩ := Checks.except_map_eq_ok h
            cases heq
            rw [Nat.add_comm, List.drop_succ_cons, hk]
            exact ⟨n, cborHeaderInteger_eq_ok.mp hn, rfl⟩
          · cases h

/-- What a scanned item is. -/
theorem SerdeCbor.Lawful.piece (lawful : cbor.Lawful m) {bytes : Bytes} {n : Nat}
    (h : cbor.ignored bytes = .ok n) :
    ∃ piece rest v, bytes = piece ++ rest ∧ n = piece.length ∧ Reads (Cbor.decode m) piece v := by
  obtain ⟨v, rest, hdecode, hn⟩ := (lawful.ignored bytes n).mp h
  obtain ⟨piece, rfl, hreads⟩ := Cbor.element_decode.isLocal.reads hdecode
  rw [List.length_append] at hn
  exact ⟨piece, rest, v, rfl, by omega, hreads⟩

/-- `serde_cbor` reads the piece as the value, and finds its end. -/
structure Serves (cbor : SerdeCbor) (piece : Bytes) (v : Value) : Prop where
  value : cbor.value piece = .ok v
  ignored (rest : Bytes) : cbor.ignored (piece ++ rest) = .ok piece.length
  nonempty : 0 < piece.length
  head (rest : Bytes) : (piece ++ rest).head? ≠ some 0xff

theorem SerdeCbor.Lawful.serves (lawful : cbor.Lawful m) {piece : Bytes} {v : Value}
    (h : Reads (Cbor.decode m) piece v) : Serves cbor piece v where
  value := (lawful.value _ _).mpr ⟨[], h⟩
  ignored rest := (lawful.ignored _ _).mpr
    ⟨v, rest, Cbor.element_decode.isLocal.extend h, (List.length_append ..).symm⟩
  nonempty := Cbor.element_decode.length_pos h
  head _ := Cbor.element_decode.head?_append h

theorem SerdeCbor.Lawful.serves_all (lawful : cbor.Lawful m) {pieces : List Bytes}
    {values : List Value} (h : List.Forall₂ (Reads (Cbor.decode m)) pieces values) :
    List.Forall₂ (Serves cbor) pieces values :=
  h.imp fun _ _ hv => lawful.serves hv

/-- The ranges follow each other from `start` to `stop`, none of them empty. -/
def Spans (start : Nat) : List Range → Nat → Prop
  | [], stop => start = stop
  | range :: ranges, stop =>
      range.start = start ∧ start < range.stop ∧ Spans range.stop ranges stop

/-- Each range is a piece from `offset` on, up to where the array is done; `R` is what is known of
the items that `serde_cbor` skips. -/
theorem pieces_of_cborRanges {β : Type} {R : Bytes → β → Prop}
    (hitem : ∀ {bytes n}, cbor.ignored bytes = .ok n →
      ∃ piece rest v, bytes = piece ++ rest ∧ n = piece.length ∧ R piece v)
    {data : Bytes} {length : Option Nat} {rounds count offset stop : Nat} {ranges : List Range}
    (h : cborRanges cbor data length rounds count offset = .ok (ranges, stop)) :
    ∃ pieces values, data.drop offset = pieces.flatten ++ data.drop stop ∧
      List.Forall₂ R pieces values ∧ List.Forall₂ (Cut data) ranges pieces ∧
      Spans offset ranges stop ∧ stop = offset + pieces.flatten.length ∧
      cborDone data length (count + pieces.length) stop = true := by
  induction rounds generalizing count offset ranges with
  | zero => cases h
  | succ rounds ih =>
      unfold cborRanges at h
      split at h
      · next hdone =>
        cases h
        exact ⟨[], [], rfl, .nil, .nil, rfl, rfl, hdone⟩
      split at h
      · cases h
      split at h
      · cases h
      · next consumed hconsumed =>
        split at h
        · cases h
        · next hprogress =>
          obtain ⟨⟨more, stop'⟩, hmore, heq⟩ := Checks.except_bind_eq_ok h
          cases heq
          obtain ⟨piece, rest, v, hdrop, rfl, hv⟩ := hitem hconsumed
          obtain ⟨pieces, values, hpieces, hreads, hcut, hspans, hstop, hdone⟩ := ih hmore
          have hrest : data.drop (offset + piece.length) = rest := by
            rw [← List.drop_drop, hdrop, List.drop_left]
          rw [hrest] at hpieces
          have hpos := Nat.pos_of_ne_zero hprogress
          refine ⟨piece :: pieces, v :: values, ?_, .cons hv hreads,
            .cons (cut_of_drop hdrop hpos) hcut, ⟨rfl, Nat.lt_add_of_pos_right hpos, hspans⟩, ?_, ?_⟩
          · rw [hdrop, hpieces, List.flatten_cons, List.append_assoc]
          · rw [hstop, List.flatten_cons, List.length_append, Nat.add_assoc]
          · rwa [List.length_cons, Nat.add_comm pieces.length, ← Nat.add_assoc]

/-- The array is not done before its last element. -/
theorem cborDone_of_piece {data piece rest : Bytes} {length : Option Nat} {count offset n : Nat}
    {v : Value} (hdrop : data.drop offset = piece ++ rest) (hv : Serves cbor piece v)
    (hlength : ∀ total, length = some total → count + (n + 1) = total) :
    cborDone data length count offset = false := by
  cases length with
  | some total =>
      have := hlength total rfl
      exact beq_eq_false_iff_ne.mpr (by omega)
  | none =>
      refine beq_eq_false_iff_ne.mpr ?_
      have hhead := hv.head rest
      rwa [← hdrop, List.head?_drop] at hhead

theorem cborRanges_of_pieces {data : Bytes} {length : Option Nat}
    {rounds count offset stop : Nat} {pieces : List Bytes} {values : List Value}
    (hdrop : data.drop offset = pieces.flatten ++ data.drop stop)
    (hserves : List.Forall₂ (Serves cbor) pieces values)
    (hlength : ∀ total, length = some total → count + pieces.length = total)
    (hdone : cborDone data length (count + pieces.length) stop = true)
    (hstop : stop = offset + pieces.flatten.length) (hrounds : pieces.length < rounds) :
    ∃ ranges, cborRanges cbor data length rounds count offset = .ok (ranges, stop) ∧
      List.Forall₂ (Cut data) ranges pieces := by
  induction hserves generalizing rounds count offset with
  | nil =>
      obtain ⟨rounds, rfl⟩ := Nat.exists_eq_succ_of_ne_zero (Nat.ne_of_gt hrounds)
      cases hstop
      exact ⟨[], by rw [cborRanges, if_pos (by exact hdone)]; rfl, .nil⟩
  | @cons piece v pieces values hv _ ih =>
      obtain ⟨rounds, rfl⟩ :=
        Nat.exists_eq_succ_of_ne_zero (Nat.ne_of_gt (Nat.zero_lt_of_lt hrounds))
      have hpos := hv.nonempty
      rw [List.flatten_cons, List.append_assoc] at hdrop
      rw [List.flatten_cons, List.length_append] at hstop
      have hlen := congrArg List.length hdrop
      rw [List.length_drop, List.length_append] at hlen
      have hrest : data.drop (offset + piece.length) = pieces.flatten ++ data.drop stop := by
        rw [← List.drop_drop, hdrop, List.drop_left]
      have hcount (k : Nat) : count + (k + 1) = count + 1 + k := by omega
      obtain ⟨ranges, hranges, hcut⟩ := ih hrest
        (fun total h => by rw [← hcount]; exact hlength total h)
        (by rw [← hcount]; exact hdone) (by omega) (Nat.lt_of_succ_lt_succ hrounds)
      refine ⟨⟨offset, offset + piece.length⟩ :: ranges, ?_, .cons (cut_of_drop hdrop hpos) hcut⟩
      rw [cborRanges, cborDone_of_piece hdrop hv hlength, if_neg (by decide),
        if_neg (by omega), hdrop, hv.ignored]
      dsimp only
      rw [if_neg (by omega), hranges]
      rfl

theorem drop_eq_singleton {data : Bytes} {stop : Nat} {byte : UInt8}
    (h : data[stop]? = some byte) (hlen : stop + 1 = data.length) : data.drop stop = [byte] := by
  obtain ⟨hlt, hget⟩ := List.getElem?_eq_some_iff.mp h
  rw [List.drop_eq_getElem_cons hlt, hget, List.drop_eq_nil_of_le (by omega)]

theorem cborTopLevelRanges_eq {data : Bytes} {offset stop : Nat} {length : Option Nat}
    {ranges : List Range} (hheader : cborArrayHeader data = .ok (offset, length))
    (hranges : cborRanges cbor data length (data.length + 1) 0 offset = .ok (ranges, stop)) :
    cborTopLevelRanges cbor data =
      if (if length.isSome then stop else stop + 1) ≠ data.length then
        .error (.deserialize "trailing data after CBOR message array")
      else .ok ranges := by
  rw [cborTopLevelRanges, hheader]
  change (cborRanges cbor data length (data.length + 1) 0 offset >>= _) = _
  rw [hranges]
  rfl

/-- An accepted frame is the head of an array, its pieces, and the break if the head says no
length. -/
theorem framed_of_cborTopLevelRanges {β : Type} {R : Bytes → β → Prop}
    (hitem : ∀ {bytes n}, cbor.ignored bytes = .ok n →
      ∃ piece rest v, bytes = piece ++ rest ∧ n = piece.length ∧ R piece v)
    {data : Bytes} {ranges : List Range} (h : cborTopLevelRanges cbor data = .ok ranges) :
    ∃ byte front back pieces values, data = byte :: (front ++ (pieces.flatten ++ back)) ∧
      Cbor.major byte = 4 ∧ CborTrees.Sized byte front pieces.length back ∧
      List.Forall₂ R pieces values ∧ List.Forall₂ (Cut data) ranges pieces ∧
      Spans (1 + front.length) ranges (1 + front.length + pieces.flatten.length) := by
  obtain ⟨⟨offset, length⟩, hheader, h'⟩ := Checks.except_bind_eq_ok h
  obtain ⟨⟨ranges', stop⟩, hranges, -⟩ := Checks.except_bind_eq_ok h'
  rw [cborTopLevelRanges_eq hheader hranges] at h
  have hend : (if length.isSome then stop else stop + 1) = data.length := by
    by_contra hend
    rw [if_pos hend] at h
    cases h
  rw [if_neg (not_not_intro hend)] at h
  cases h
  obtain ⟨pieces, values, hdrop, hreads, hcut, hspans, rfl, hdone⟩ :=
    pieces_of_cborRanges hitem hranges
  rw [Nat.zero_add] at hdone
  obtain ⟨byte, rest, rfl, hmajor, ⟨hinfo, rfl, rfl⟩ | ⟨hinfo, n, hn, rfl⟩⟩ :=
    cborArrayHeader_eq_ok hheader
  · -- a break ends the array and the frame
    have hbreak := drop_eq_singleton (beq_iff_eq.mp hdone) hend
    rw [hbreak, List.drop_succ_cons, List.drop_zero] at hdrop
    exact ⟨byte, [], [0xff], pieces, values, congrArg (byte :: ·) hdrop, hmajor,
      .inr ⟨hinfo, rfl, rfl⟩, hreads, hcut, hspans⟩
  · rw [if_pos (by rfl)] at hend
    rw [List.drop_eq_nil_of_le (Nat.le_of_eq hend.symm), List.append_nil] at hdrop
    rw [hdrop] at hn
    obtain ⟨front, rfl, hfront⟩ := (Cbor.local_argument (Cbor.info byte)).reads hn
    obtain rfl : offset = 1 + front.length := by
      rw [List.length_cons, List.length_append] at hend
      omega
    exact ⟨byte, front, [], pieces, values, by rw [List.append_nil], hmajor,
      .inl ⟨(beq_iff_eq.mp hdone : pieces.length = n) ▸ hfront, rfl⟩, hreads, hcut, hspans⟩

/-- **The scan finds the elements of an untagged array.** -/
theorem elements_of_cborTopLevelRanges (lawful : cbor.Lawful m) {data : Bytes}
    {ranges : List Range} (h : cborTopLevelRanges cbor data = .ok ranges) :
    ∃ pieces values, Cbor.Elements m data pieces values ∧
      List.Forall₂ (Cut data) ranges pieces := by
  obtain ⟨byte, front, back, pieces, values, rfl, hmajor, hsized, hreads, hcut, -⟩ :=
    framed_of_cborTopLevelRanges lawful.piece h
  refine ⟨pieces, values, ⟨hreads, ?_⟩, hcut⟩
  rcases hsized with ⟨hfront, rfl⟩ | ⟨hinfo, rfl, rfl⟩
  · have hinfo : Cbor.info byte ≠ 31 := by
      intro hinfo
      rw [hinfo] at hfront
      cases hfront
    refine .inl ⟨byte, _, rfl, hmajor, hinfo, ?_⟩
    rw [List.append_nil]
    exact (Cbor.local_argument _).extend hfront
  · exact .inr (congrArg (· :: _) (Cbor.eq_of_major_info hmajor hinfo))

theorem cborTopLevelRanges_of_pieces {data : Bytes} {offset stop : Nat} {length : Option Nat}
    {pieces : List Bytes} {values : List Value}
    (hserves : List.Forall₂ (Serves cbor) pieces values)
    (hheader : cborArrayHeader data = .ok (offset, length))
    (hdrop : data.drop offset = pieces.flatten ++ data.drop stop)
    (hstop : stop = offset + pieces.flatten.length)
    (hlength : ∀ total, length = some total → pieces.length = total)
    (hdone : cborDone data length pieces.length stop = true)
    (hend : (if length.isSome then stop else stop + 1) = data.length) :
    ∃ ranges, cborTopLevelRanges cbor data = .ok ranges ∧
      List.Forall₂ (Cut data) ranges pieces := by
  have hcount : pieces.length ≤ pieces.flatten.length :=
    length_le_flatten (hserves.imp fun _ _ hv => hv.nonempty)
  have hrounds : pieces.length < data.length + 1 := by
    have := congrArg List.length hdrop
    rw [List.length_drop, List.length_append] at this
    omega
  obtain ⟨ranges, hranges, hcut⟩ := cborRanges_of_pieces hdrop hserves
    (fun total htotal => (Nat.zero_add _).trans (hlength total htotal))
    (by rw [Nat.zero_add]; exact hdone) hstop hrounds
  refine ⟨ranges, ?_, hcut⟩
  rw [cborTopLevelRanges_eq hheader hranges, if_neg (not_not_intro hend)]

/-- An array of known length. -/
theorem cborTopLevelRanges_of_argument {byte : UInt8} {rest : Bytes} {pieces : List Bytes}
    {values : List Value} (hserves : List.Forall₂ (Serves cbor) pieces values)
    (hmajor : Cbor.major byte = 4) (hinfo : Cbor.info byte ≠ 31)
    (harg : Cbor.argument (Cbor.info byte) rest = some (pieces.length, pieces.flatten)) :
    ∃ ranges, cborTopLevelRanges cbor (byte :: rest) = .ok ranges ∧
      List.Forall₂ (Cut (byte :: rest)) ranges pieces := by
  obtain ⟨offset, hheader, hdrop, hoffset⟩ := cborArrayHeader_of_argument hmajor hinfo harg
  have hlen := congrArg List.length hdrop
  rw [List.length_drop] at hlen
  have hstop : (byte :: rest).length = offset + pieces.flatten.length := by omega
  refine cborTopLevelRanges_of_pieces hserves hheader ?_ hstop
    (fun total htotal => Option.some.inj htotal) (beq_self_eq_true _) rfl
  rw [List.drop_length, List.append_nil, hdrop]

theorem cborTopLevelRanges_of_elements (lawful : cbor.Lawful m) {data : Bytes}
    {pieces : List Bytes} {values : List Value} (h : Cbor.Elements m data pieces values) :
    ∃ ranges, cborTopLevelRanges cbor data = .ok ranges ∧
      List.Forall₂ (Cut data) ranges pieces := by
  have hserves := lawful.serves_all h.reads
  rcases h.outer with ⟨byte, rest, rfl, hmajor, hinfo, harg⟩ | rfl
  · exact cborTopLevelRanges_of_argument hserves hmajor hinfo harg
  · have hheader : cborArrayHeader (0x9f :: (pieces.flatten ++ [0xff])) = .ok (1, none) := rfl
    have hdrop : (0x9f :: (pieces.flatten ++ [0xff])).drop (1 + pieces.flatten.length) =
        [0xff] := by
      rw [Nat.add_comm, List.drop_succ_cons, List.drop_left]
    refine cborTopLevelRanges_of_pieces hserves hheader ?_ rfl
      (fun total htotal => (nomatch htotal)) ?_ ?_
    · rw [hdrop]
      rfl
    · refine beq_iff_eq.mpr ?_
      rw [← List.head?_drop, hdrop]
      rfl
    · rw [List.length_cons, List.length_append]
      change 1 + pieces.flatten.length + 1 = pieces.flatten.length + 1 + 1
      omega

/-! ### The frame as a partition -/

namespace Spans

variable {start stop : Nat} {range : Range} {ranges : List Range}

theorem le_start (h : Spans start ranges stop) (hr : range ∈ ranges) : start ≤ range.start := by
  induction ranges generalizing start with
  | nil => cases hr
  | cons first ranges ih =>
      obtain ⟨rfl, hlt, hrest⟩ := h
      rcases List.mem_cons.mp hr with rfl | hr
      · exact Nat.le_refl _
      · exact Nat.le_trans (Nat.le_of_lt hlt) (ih hrest hr)

theorem pairwise (h : Spans start ranges stop) :
    ranges.Pairwise fun a b => a.stop ≤ b.start := by
  induction ranges generalizing start with
  | nil => exact .nil
  | cons first ranges ih =>
      obtain ⟨-, -, hrest⟩ := h
      exact .cons (fun _ hr => hrest.le_start hr) (ih hrest)

end Spans

/-- The loop of `cbor_top_level_ranges` with nothing that counts its rounds: it ends like this. -/
inductive Scans (cbor : SerdeCbor) (data : Bytes) (length : Option Nat) :
    Nat → Nat → Except ParseError (List Range × Nat) → Prop where
  | done {count offset : Nat} (h : cborDone data length count offset = true) :
      Scans cbor data length count offset (.ok ([], offset))
  | short {count offset : Nat} (h : cborDone data length count offset = false)
      (hend : data.length ≤ offset) :
      Scans cbor data length count offset
        (.error (.deserialize "unexpected end of CBOR message array"))
  | fails {count offset : Nat} {err : String} (h : cborDone data length count offset = false)
      (hlt : offset < data.length) (herr : cbor.ignored (data.drop offset) = .error err) :
      Scans cbor data length count offset (.error (.deserialize err))
  | stuck {count offset : Nat} (h : cborDone data length count offset = false)
      (hlt : offset < data.length) (hzero : cbor.ignored (data.drop offset) = .ok 0) :
      Scans cbor data length count offset
        (.error (.deserialize "CBOR value parser made no progress"))
  | next {count offset consumed : Nat} {rest : Except ParseError (List Range × Nat)}
      (h : cborDone data length count offset = false) (hlt : offset < data.length)
      (hitem : cbor.ignored (data.drop offset) = .ok consumed) (hpos : 0 < consumed)
      (hrest : Scans cbor data length (count + 1) (offset + consumed) rest) :
      Scans cbor data length count offset
        ((fun r => (⟨offset, offset + consumed⟩ :: r.1, r.2)) <$> rest)

/-- A round for each byte that is left, and one more, is all that the loop takes. -/
theorem scans_cborRanges (cbor : SerdeCbor) {data : Bytes} (length : Option Nat)
    {rounds count offset : Nat} (hrounds : data.length - offset < rounds) :
    Scans cbor data length count offset (cborRanges cbor data length rounds count offset) := by
  induction rounds generalizing count offset with
  | zero => exact absurd hrounds (Nat.not_lt_zero _)
  | succ rounds ih =>
      rw [cborRanges]
      cases hdone : cborDone data length count offset with
      | true => exact .done hdone
      | false =>
          rw [if_neg (by decide)]
          by_cases hend : data.length ≤ offset
          · rw [if_pos hend]
            exact .short hdone hend
          · rw [if_neg hend]
            have hlt := Nat.lt_of_not_le hend
            cases hitem : cbor.ignored (data.drop offset) with
            | error err => exact .fails hdone hlt hitem
            | ok consumed =>
                by_cases hzero : consumed = 0
                · subst hzero
                  exact .stuck hdone hlt hitem
                · have hrest := @ih (count + 1) (offset + consumed) (by omega)
                  dsimp only
                  rw [if_neg hzero]
                  exact .next hdone hlt hitem (Nat.pos_of_ne_zero hzero) hrest

/-- **The scan always ends, and what it accepts is the head of an array and one item after the
other**: each range has one item, they leave no gap, and only the break may follow. -/
theorem cborTopLevelRanges_partition (cbor : SerdeCbor)
    (hitem : ∀ {bytes n}, cbor.ignored bytes = .ok n → ∃ piece rest t, bytes = piece ++ rest ∧
      n = piece.length ∧ CborTrees.Written piece (.item t)) (data : Bytes) :
    (∀ offset length, Scans cbor data length 0 offset
      (cborRanges cbor data length (data.length + 1) 0 offset)) ∧
    ∀ ranges, cborTopLevelRanges cbor data = .ok ranges →
      ∃ byte front back pieces items, data = byte :: (front ++ (pieces.flatten ++ back)) ∧
        Cbor.major byte = 4 ∧ CborTrees.Sized byte front ranges.length back ∧
        Spans (1 + front.length) ranges (1 + front.length + pieces.flatten.length) ∧
        (ranges.Pairwise fun a b => a.stop ≤ b.start) ∧ List.Forall₂ (Cut data) ranges pieces ∧
        List.Forall₂ (fun piece t => CborTrees.Written piece (.item t)) pieces items := by
  refine ⟨fun offset length => scans_cborRanges cbor length (by omega), ?_⟩
  intro ranges h
  obtain ⟨byte, front, back, pieces, items, hdata, hmajor, hsized, hwritten, hcut, hspans⟩ :=
    framed_of_cborTopLevelRanges hitem h
  rw [← hcut.length_eq] at hsized
  exact ⟨byte, front, back, pieces, items, hdata, hmajor, hsized, hspans, hspans.pairwise, hcut,
    hwritten⟩

/-- Finds the end of a small integer, and of nothing else. -/
def smallIntegers : SerdeCbor where
  value _ := .error "unsupported"
  ignored
    | [] => .error "EOF while parsing a value"
    | byte :: _ => if byte.toNat < 24 then .ok 1 else .error "unsupported"
  document _ := .error "unsupported"
  toVec _ := .error "unsupported"

/-- `[1, 2]`, ended by a break. -/
theorem cborTopLevelRanges_partition_break :
    cborTopLevelRanges smallIntegers [0x9f, 0x01, 0x02, 0xff] = .ok [⟨1, 2⟩, ⟨2, 3⟩] ∧
      ∃ byte front back pieces items,
        [0x9f, 0x01, 0x02, 0xff] = byte :: (front ++ (pieces.flatten ++ back)) ∧
        Cbor.major byte = 4 ∧ CborTrees.Sized byte front 2 back ∧
        Spans (1 + front.length) [⟨1, 2⟩, ⟨2, 3⟩] (1 + front.length + pieces.flatten.length) ∧
        ([⟨1, 2⟩, ⟨2, 3⟩] : List Range).Pairwise (fun a b => a.stop ≤ b.start) ∧
        List.Forall₂ (Cut [0x9f, 0x01, 0x02, 0xff]) [⟨1, 2⟩, ⟨2, 3⟩] pieces ∧
        List.Forall₂ (fun piece t => CborTrees.Written piece (.item t)) pieces items := by
  refine ⟨rfl, (cborTopLevelRanges_partition smallIntegers ?_ [0x9f, 0x01, 0x02, 0xff]).2
    [⟨1, 2⟩, ⟨2, 3⟩] rfl⟩
  intro bytes n h
  cases bytes with
  | nil => cases h
  | cons byte rest =>
      simp only [smallIntegers] at h
      split at h
      · next hsmall =>
        cases h
        have hinfo : Cbor.info byte = byte.toNat := Nat.mod_eq_of_lt (by omega)
        have hargument : Readers.Reads (Cbor.argument (Cbor.info byte)) [] byte.toNat := by
          rw [hinfo, Readers.Reads, Cbor.argument, if_pos hsmall]
          rfl
        have hmajor : Cbor.major byte = CborTrees.intMajor false := Nat.div_eq_of_lt (by omega)
        exact ⟨[byte], rest, .int false byte.toNat, rfl, rfl, .int hmajor hargument⟩
      · cases h

/-! ### Fields -/

theorem cborValue_of_cut {data piece : Bytes} {range : Range} {v : Value}
    (hcut : Cut data range piece) (hv : Serves cbor piece v) :
    cborValue cbor (.contiguous data) range = .ok v := by
  rw [cborValue, hcut]
  change (cbor.value piece).mapError ParseError.deserialize = _
  rw [hv.value]
  rfl

/-- The value at an index, where the payload stands for its elements. -/
def standIn (payload : Option (CborPayloadSpec × Payload)) (index : Nat) (v : Value) : Value :=
  match payload with
  | none => v
  | some (spec, payload) =>
      if index = spec.argsIndex then if payload.args.isSome then .seq [] else .unit
      else if index = spec.kwargsIndex then if payload.kwargs.isSome then .map [] else .unit
      else v

theorem cborField_of_cut {data piece : Bytes} {range : Range} {v : Value}
    (payload : Option (CborPayloadSpec × Payload)) (index : Nat) (hcut : Cut data range piece)
    (hv : Serves cbor piece v) :
    cborField cbor (.contiguous data) payload index range = .ok (standIn payload index v) := by
  have hvalue := cborValue_of_cut hcut hv
  cases payload with
  | none => exact hvalue
  | some pair =>
      simp only [cborField, standIn]
      split
      · rfl
      · split
        · rfl
        · exact hvalue

theorem cborFields_of_cut {data : Bytes} {ranges : List Range}
    {pieces : List Bytes} {values : List Value} (payload : Option (CborPayloadSpec × Payload))
    (index : Nat) (hcut : List.Forall₂ (Cut data) ranges pieces)
    (hserves : List.Forall₂ (Serves cbor) pieces values) :
    cborFields cbor (.contiguous data) payload index ranges =
      .ok (values.mapIdx fun i v => standIn payload (index + i) v) := by
  induction hcut generalizing index values with
  | nil =>
      cases hserves
      rfl
  | cons hcut hcuts ih =>
      cases hserves with
      | cons hv hserves =>
          rw [cborFields, cborField_of_cut payload index hcut hv, ih (index + 1) hserves,
            List.mapIdx_cons]
          simp only [Nat.add_zero, Nat.add_assoc, Nat.add_comm 1]
          rfl

end

end Wamp

end Connectanum
