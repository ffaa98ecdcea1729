import Connectanum.Lib.BigEndian
import Connectanum.Lib.Readers

/-!
# Lib — Cbor

The grammar of CBOR items, as a reader (`decode`) over any type of values: a `Meaning` says what
each kind of item stands for.  A tag is read and dropped.

`decode` is local, and an untagged array is its head and then the pieces of its elements
(`reads_array`).
-/

namespace Cbor

open Readers

/-- What the items stand for. -/
structure Meaning (α : Type) where
  int : Int → α
  bytes : List UInt8 → α
  /-- Not all bytes are text. -/
  text : List UInt8 → Option α
  seq : List α → α
  map : List (α × α) → α
  /-- Simple values may be unassigned. -/
  simple : Nat → Option α
  float : (info bits : Nat) → α

/-- The major type of an initial byte. -/
def major (byte : UInt8) : Nat := byte.toNat / 32

/-- The additional information of an initial byte. -/
def info (byte : UInt8) : Nat := byte.toNat % 32

/-- How many bytes the argument has after the initial byte. -/
def width : Nat → Option Nat
  | 24 => some 1
  | 25 => some 2
  | 26 => some 4
  | 27 => some 8
  | _ => none

def argument (info : Nat) : Reader UInt8 Nat :=
  if info < 24 then pure info
  else do
    let k ← known (width info)
    BigEndian.read <$> take k

def pairs {α : Type} : List α → Option (List (α × α))
  | [] => some []
  | [_] => none
  | key :: value :: rest => (pairs rest).map ((key, value) :: ·)

/-- A part of a string of unknown length: a string of the same kind. -/
def chunk (kind : Nat) : Reader UInt8 (List UInt8) := do
  let byte ← next
  if major byte = kind then do
    let n ← argument (info byte)
    take n
  else known none

section

variable {α : Type} (m : Meaning α)

/-- What follows the initial byte of an item of unknown length, with `p` for its elements. -/
def unbounded (p : Reader UInt8 α) (kind : Nat) : Reader UInt8 α :=
  match kind with
  | 2 => (fun chunks => m.bytes chunks.flatten) <$> untilStop 0xff (chunk 2)
  | 3 => do
      let chunks ← untilStop 0xff (chunk 3)
      known (m.text chunks.flatten)
  | 4 => m.seq <$> untilStop 0xff p
  | 5 => do
      let items ← untilStop 0xff p
      known ((pairs items).map m.map)
  | _ => known none

/-- What follows the argument `n` of an item. -/
def content (p : Reader UInt8 α) (kind info n : Nat) : Reader UInt8 α :=
  match kind with
  | 0 => pure (m.int n)
  | 1 => pure (m.int (-1 - n))
  | 2 => m.bytes <$> take n
  | 3 => do
      let bytes ← take n
      known (m.text bytes)
  | 4 => m.seq <$> many p n
  | 5 => do
      let items ← many p (2 * n)
      known ((pairs items).map m.map)
  | 6 => p
  | _ =>
      if info < 24 then known (m.simple n)
      else if info = 24 then known (if n < 32 then none else m.simple n)
      else pure (m.float info n)

/-- An item, with `p` for the items in it. -/
def body (p : Reader UInt8 α) : Reader UInt8 α := do
  let byte ← next
  if info byte = 31 then unbounded m p (major byte)
  else do
    let n ← argument (info byte)
    content m p (major byte) (info byte) n

/-- An item of at most the given depth. -/
def item : Nat → Reader UInt8 α
  | 0 => fun _ => none
  | depth + 1 => body m (item depth)

/-- An item.  Each level takes a byte, so the length of the input bounds the depth. -/
def decode : Reader UInt8 α := fun input => item m input.length input

end

/-- The head of an item, in as few bytes as its argument needs. -/
def head (kind n : Nat) : List UInt8 :=
  if n < 24 then [UInt8.ofNat (kind * 32 + n)]
  else if n < 2 ^ 8 then UInt8.ofNat (kind * 32 + 24) :: BigEndian.write 1 n
  else if n < 2 ^ 16 then UInt8.ofNat (kind * 32 + 25) :: BigEndian.write 2 n
  else if n < 2 ^ 32 then UInt8.ofNat (kind * 32 + 26) :: BigEndian.write 4 n
  else UInt8.ofNat (kind * 32 + 27) :: BigEndian.write 8 n

/-! ### Heads -/

theorem initial_byte {kind additional : Nat} (hkind : kind < 8) (h : additional < 32) :
    major (UInt8.ofNat (kind * 32 + additional)) = kind ∧
      info (UInt8.ofNat (kind * 32 + additional)) = additional := by
  have hbyte : (UInt8.ofNat (kind * 32 + additional)).toNat = kind * 32 + additional :=
    BigEndian.toNat_ofNat (by omega)
  rw [major, info, hbyte]
  omega

theorem argument_wide {additional k n : Nat} {rest : List UInt8} (h : 24 ≤ additional)
    (hwidth : width additional = some k) (hn : n < 256 ^ k) :
    argument additional (BigEndian.write k n ++ rest) = some (n, rest) := by
  rw [argument, if_neg (by omega), hwidth]
  refine bind_eq_some.mpr ⟨k, _, rfl, map_eq_some.mpr ⟨BigEndian.write k n, rest, ?_, ?_⟩⟩
  · exact take_eq_some.mpr ⟨BigEndian.length_write k n, rfl⟩
  · rw [BigEndian.read_write hn]

/-- **A head is read as it was written.** -/
theorem head_eq {kind n : Nat} (hkind : kind < 8) (hn : n < 2 ^ 64) :
    ∃ byte rest, head kind n = byte :: rest ∧ major byte = kind ∧ info byte ≠ 31 ∧
      ∀ tail, argument (info byte) (rest ++ tail) = some (n, tail) := by
  have hwide {additional k : Nat} (h24 : 24 ≤ additional) (h : additional < 31)
      (hwidth : width additional = some k) (hn : n < 256 ^ k) :
      ∃ byte rest, UInt8.ofNat (kind * 32 + additional) :: BigEndian.write k n = byte :: rest ∧
        major byte = kind ∧ info byte ≠ 31 ∧
        ∀ tail, argument (info byte) (rest ++ tail) = some (n, tail) := by
    obtain ⟨hmajor, hinfo⟩ := initial_byte hkind (by omega : additional < 32)
    refine ⟨_, _, rfl, hmajor, by omega, fun tail => ?_⟩
    rw [hinfo]
    exact argument_wide h24 hwidth hn
  unfold head
  split
  · next hsmall =>
    obtain ⟨hmajor, hinfo⟩ := initial_byte hkind (by omega : n < 32)
    refine ⟨_, [], rfl, hmajor, by omega, fun tail => ?_⟩
    rw [hinfo, argument, if_pos hsmall]
    rfl
  split
  · exact hwide (by decide) (by decide) rfl (by omega)
  split
  · exact hwide (by decide) (by decide) rfl (by omega)
  split
  · exact hwide (by decide) (by decide) rfl (by omega)
  · exact hwide (by decide) (by decide) rfl (by omega)

/-! ### The reader of items is local -/

theorem local_argument (info : Nat) : Local (argument info) := by
  unfold argument
  split
  · exact local_pure info
  · exact local_bind (local_known _) fun k => local_map (local_take k) BigEndian.read

theorem major_stop : major 0xff = 7 := rfl

theorem element_chunk {kind : Nat} (h : kind ≠ 7) : Element 0xff (chunk kind) where
  isLocal := by
    refine local_bind local_next fun byte => ?_
    split
    · exact local_bind (local_argument _) fun n => local_take n
    · exact local_known none
  nil := rfl
  atStop rest := by
    change (if major 0xff = kind then (argument (info 0xff) >>= fun n => take n)
      else known none) rest = none
    rw [major_stop, if_neg (Ne.symm h)]
    rfl

section

variable {α : Type} {m : Meaning α} {p q : Reader UInt8 α}

theorem local_unbounded (hp : Element 0xff p) (kind : Nat) : Local (unbounded m p kind) := by
  unfold unbounded
  split
  · exact local_map (local_untilStop (element_chunk (by decide))) _
  · exact local_bind (local_untilStop (element_chunk (by decide))) fun _ => local_known _
  · exact local_map (local_untilStop hp) _
  · exact local_bind (local_untilStop hp) fun _ => local_known _
  · exact local_known none

theorem local_content (hp : Local p) (kind info n : Nat) : Local (content m p kind info n) := by
  unfold content
  split
  · exact local_pure _
  · exact local_pure _
  · exact local_map (local_take n) _
  · exact local_bind (local_take n) fun _ => local_known _
  · exact local_map (local_many hp n) _
  · exact local_bind (local_many hp _) fun _ => local_known _
  · exact hp
  · split
    · exact local_known _
    · split
      · exact local_known _
      · exact local_pure _

theorem element_body (hp : Element 0xff p) : Element 0xff (body m p) where
  isLocal := by
    refine local_bind local_next fun byte => ?_
    split
    · exact local_unbounded hp _
    · exact local_bind (local_argument _) fun n => local_content hp.isLocal _ _ n
  nil := rfl
  atStop _ := rfl

theorem element_item (depth : Nat) : Element 0xff (item m depth) := by
  induction depth with
  | zero => exact ⟨fun _ _ _ h => (nomatch h), rfl, fun _ => rfl⟩
  | succ depth ih => exact element_body ih

/-! ### The depth does not matter -/

theorem within_unbounded {n : Nat} (hp : Element 0xff p) (hq : Element 0xff q)
    (hpq : Within n p q) (kind : Nat) : Within n (unbounded m p kind) (unbounded m q kind) := by
  have huntil := within_untilStop hp hq hpq
  have hlocal := local_untilStop hp
  unfold unbounded
  split
  · exact within_refl n _
  · exact within_refl n _
  · exact within_map hlocal huntil _
  · exact within_bind hlocal huntil fun _ => within_refl n _
  · exact within_refl n _

theorem within_content {n : Nat} (hp : Local p) (hpq : Within n p q) (kind info k : Nat) :
    Within n (content m p kind info k) (content m q kind info k) := by
  unfold content
  split
  · exact within_refl n _
  · exact within_refl n _
  · exact within_refl n _
  · exact within_refl n _
  · exact within_map (local_many hp k) (within_many hp hpq k) _
  · exact within_bind (local_many hp _) (within_many hp hpq _) fun _ => within_refl n _
  · exact hpq
  · exact within_refl n _

theorem within_body {n : Nat} (hp : Element 0xff p) (hq : Element 0xff q) (hpq : Within n p q) :
    Within (n + 1) (body m p) (body m q) := by
  refine within_next fun byte => ?_
  split
  · exact within_unbounded hp hq hpq _
  · refine within_bind (local_argument _) (within_refl n _) fun k => ?_
    exact within_content hp.isLocal hpq _ _ k

/-- On inputs of at most `n` bytes, depth `n` is enough. -/
theorem within_item (depth n : Nat) : Within n (item m depth) (item m n) := by
  induction n generalizing depth with
  | zero =>
      intro input r hn h
      cases List.length_eq_zero_iff.mp (Nat.le_zero.mp hn)
      rw [(element_item depth).nil] at h
      cases h
  | succ n ih =>
      cases depth with
      | zero => exact fun _ _ _ h => nomatch h
      | succ depth => exact within_body (element_item depth) (element_item n) (ih depth)

theorem decode_of_item {depth : Nat} {input : List UInt8} {r : α × List UInt8}
    (h : item m depth input = some r) : decode m input = some r :=
  within_item depth input.length (Nat.le_refl _) h

theorem element_decode : Element 0xff (decode m) where
  isLocal input a rest h := by
    obtain ⟨used, hinput, hused⟩ := (element_item input.length).isLocal h
    exact ⟨used, hinput, fun tail => decode_of_item (hused tail)⟩
  nil := rfl
  atStop rest := (element_item (0xff :: rest).length).atStop rest

/-- **The grammar.**  An item is read with `decode` itself for the items in it. -/
theorem decode_eq : decode m = body m (decode m) := by
  funext input
  cases input with
  | nil => rfl
  | cons byte rest =>
      have hitem := element_item (m := m) rest.length
      have hto : Within rest.length (item m rest.length) (decode m) :=
        fun _ _ _ h => decode_of_item h
      have hfrom : Within rest.length (decode m) (item m rest.length) :=
        fun input _ hn h => within_item input.length rest.length hn h
      apply Option.ext
      intro r
      constructor
      · intro h
        exact within_body hitem element_decode hto (Nat.le_refl _) h
      · intro h
        exact within_body element_decode hitem hfrom (Nat.le_refl _) h

theorem decode_cons (byte : UInt8) (rest : List UInt8) :
    decode m (byte :: rest) =
      (if info byte = 31 then unbounded m (decode m) (major byte)
        else do
          let n ← argument (info byte)
          content m (decode m) (major byte) (info byte) n) rest :=
  congrFun decode_eq (byte :: rest)

/-! ### Arrays -/

/-- `data` is an untagged array, with the given pieces for its elements. -/
structure Elements (m : Meaning α) (data : List UInt8) (pieces : List (List UInt8))
    (values : List α) : Prop where
  reads : List.Forall₂ (Reads (decode m)) pieces values
  outer : (∃ byte rest, data = byte :: rest ∧ major byte = 4 ∧ info byte ≠ 31 ∧
      argument (info byte) rest = some (pieces.length, pieces.flatten)) ∨
    data = 0x9f :: (pieces.flatten ++ [0xff])

theorem eq_of_major_info {byte : UInt8} (hmajor : major byte = 4) (hinfo : info byte = 31) :
    byte = 0x9f := by
  apply UInt8.toNat_inj.mp
  change byte.toNat = 159
  rw [major] at hmajor
  rw [info] at hinfo
  omega

/-- **An array is its head and its elements.** -/
theorem reads_array {byte : UInt8} {rest : List UInt8} {v : α} (hmajor : major byte = 4) :
    Reads (decode m) (byte :: rest) v ↔
      ∃ pieces values, Elements m (byte :: rest) pieces values ∧ v = m.seq values := by
  rw [Reads, decode_cons, hmajor]
  by_cases hinfo : info byte = 31
  · rw [if_pos hinfo]
    have hbyte := eq_of_major_info hmajor hinfo
    constructor
    · intro h
      obtain ⟨values, rest', huntil, hr⟩ := map_eq_some.mp h
      cases hr
      obtain ⟨pieces, rfl, hreads⟩ := (untilStop_iff element_decode).mp huntil
      exact ⟨pieces, values, ⟨hreads, .inr (by rw [hbyte])⟩, rfl⟩
    · rintro ⟨pieces, values, ⟨hreads, houter⟩, rfl⟩
      refine map_eq_some.mpr ⟨values, [], (untilStop_iff element_decode).mpr ?_, rfl⟩
      rcases houter with ⟨byte', rest', heq, -, hinfo', -⟩ | heq
      · cases heq
        exact absurd hinfo hinfo'
      · cases heq
        exact ⟨pieces, rfl, hreads⟩
  · rw [if_neg hinfo]
    constructor
    · intro h
      obtain ⟨n, mid, hn, h⟩ := bind_eq_some.mp h
      obtain ⟨values, rest', hmany, hr⟩ := map_eq_some.mp h
      cases hr
      obtain ⟨pieces, rfl, rfl, hreads⟩ := (many_iff element_decode.isLocal).mp hmany
      rw [List.append_nil] at hn
      exact ⟨pieces, values, ⟨hreads, .inl ⟨byte, rest, rfl, hmajor, hinfo, hn⟩⟩, rfl⟩
    · rintro ⟨pieces, values, ⟨hreads, houter⟩, rfl⟩
      rcases houter with ⟨byte', rest', heq, -, -, hn⟩ | heq
      · cases heq
        refine bind_eq_some.mpr ⟨_, _, hn, map_eq_some.mpr ⟨values, [], ?_, rfl⟩⟩
        exact (many_iff element_decode.isLocal).mpr
          ⟨pieces, rfl, (List.append_nil _).symm, hreads⟩
      · cases heq
        exact absurd rfl hinfo

/-- An item of major type 5 stands for a map. -/
theorem reads_map {byte : UInt8} {rest : List UInt8} {v : α} (hmajor : major byte = 5)
    (h : Reads (decode m) (byte :: rest) v) : ∃ entries, v = m.map entries := by
  have hknown {items : List α} {mid : List UInt8}
      (h : known ((pairs items).map m.map) mid = some (v, [])) : ∃ entries, v = m.map entries := by
    cases hpairs : pairs items with
    | none =>
        rw [hpairs] at h
        cases h
    | some entries =>
        rw [hpairs] at h
        cases h
        exact ⟨entries, rfl⟩
  rw [Reads, decode_cons, hmajor] at h
  split at h
  · obtain ⟨items, mid, -, h⟩ := bind_eq_some.mp h
    exact hknown h
  · obtain ⟨n, mid, -, h⟩ := bind_eq_some.mp h
    obtain ⟨items, mid', -, h⟩ := bind_eq_some.mp h
    exact hknown h

end

end Cbor
