import Mathlib.Data.List.Basic

/-!
# Lib — Utf8

UTF-8, as the standard has it: `decode` takes the well-formed byte sequences only.  `Utf16` has the
code units of a text.
-/

namespace Utf8

/-- The byte is one of those that may follow. -/
def between (low high : Nat) (byte : UInt8) : Bool := low ≤ byte.toNat && byte.toNat ≤ high

/-- The six bits of a byte that follows. -/
def trail (byte : UInt8) : Nat := byte.toNat - 0x80

/-- The first character, and the bytes after it.  The bounds of the second byte exclude overlong
forms, surrogates, and what is past the last code point. -/
def next : List UInt8 → Option (Char × List UInt8)
  | [] => none
  | b₀ :: rest =>
      let n := b₀.toNat
      if n < 0x80 then some (Char.ofNat n, rest)
      else if 0xC2 ≤ n ∧ n ≤ 0xDF then
        match rest with
        | b₁ :: rest =>
            if between 0x80 0xBF b₁ then some (Char.ofNat ((n - 0xC0) * 64 + trail b₁), rest)
            else none
        | _ => none
      else if 0xE0 ≤ n ∧ n ≤ 0xEF then
        match rest with
        | b₁ :: b₂ :: rest =>
            if between (if n = 0xE0 then 0xA0 else 0x80) (if n = 0xED then 0x9F else 0xBF) b₁ &&
                between 0x80 0xBF b₂ then
              some (Char.ofNat ((n - 0xE0) * 4096 + trail b₁ * 64 + trail b₂), rest)
            else none
        | _ => none
      else if 0xF0 ≤ n ∧ n ≤ 0xF4 then
        match rest with
        | b₁ :: b₂ :: b₃ :: rest =>
            if between (if n = 0xF0 then 0x90 else 0x80) (if n = 0xF4 then 0x8F else 0xBF) b₁ &&
                between 0x80 0xBF b₂ && between 0x80 0xBF b₃ then
              some (Char.ofNat ((n - 0xF0) * 262144 + trail b₁ * 4096 + trail b₂ * 64 + trail b₃),
                rest)
            else none
        | _ => none
      else none

/-- At most `fuel` characters. -/
def decodeUpTo : Nat → List UInt8 → Option (List Char)
  | _, [] => some []
  | 0, _ :: _ => none
  | fuel + 1, b :: bs => do
      let (c, rest) ← next (b :: bs)
      let chars ← decodeUpTo fuel rest
      pure (c :: chars)

/-- The characters of the text.  Each takes one byte at least. -/
def chars (bytes : List UInt8) : Option (List Char) := decodeUpTo bytes.length bytes

def decode (bytes : List UInt8) : Option String := (chars bytes).map String.ofList

def encode (s : String) : List UInt8 := s.toList.flatMap String.utf8EncodeChar

/-! ### Plain ends -/

theorem rest_of_ite {p : Prop} [Decidable p] {x : Char × List UInt8} {c : Char}
    {rest : List UInt8} (h : (if p then some x else none) = some (c, rest)) : rest = x.2 := by
  obtain ⟨-, h⟩ := Option.ite_none_right_eq_some.mp h
  rw [Option.some.inj h]

theorem length_next {bytes rest : List UInt8} {c : Char} (h : next bytes = some (c, rest)) :
    rest.length < bytes.length := by
  cases bytes with
  | nil => cases h
  | cons b₀ tail =>
      unfold next at h
      dsimp only at h
      by_cases hone : b₀.toNat < 0x80
      · rw [if_pos hone] at h
        rw [(Prod.mk.inj (Option.some.inj h)).2]
        exact Nat.lt_succ_self _
      rw [if_neg hone] at h
      by_cases htwo : 0xC2 ≤ b₀.toNat ∧ b₀.toNat ≤ 0xDF
      · rw [if_pos htwo] at h
        match tail, h with
        | b₁ :: more, h =>
            rw [rest_of_ite h]
            simp only [List.length_cons]
            omega
      rw [if_neg htwo] at h
      by_cases hthree : 0xE0 ≤ b₀.toNat ∧ b₀.toNat ≤ 0xEF
      · rw [if_pos hthree] at h
        match tail, h with
        | b₁ :: b₂ :: more, h =>
            rw [rest_of_ite h]
            simp only [List.length_cons]
            omega
      rw [if_neg hthree] at h
      by_cases hfour : 0xF0 ≤ b₀.toNat ∧ b₀.toNat ≤ 0xF4
      · rw [if_pos hfour] at h
        match tail, h with
        | b₁ :: b₂ :: b₃ :: more, h =>
            rw [rest_of_ite h]
            simp only [List.length_cons]
            omega
      · rw [if_neg hfour] at h
        cases h

/-- Fuel beyond the number of bytes does not matter. -/
theorem decodeUpTo_eq {fuel : Nat} {bytes : List UInt8} (h : bytes.length ≤ fuel) :
    decodeUpTo fuel bytes = chars bytes := by
  induction fuel using Nat.strongRecOn generalizing bytes with
  | ind fuel ih =>
      cases bytes with
      | nil => cases fuel <;> rfl
      | cons b bs =>
          obtain ⟨fuel, rfl⟩ : ∃ n, fuel = n + 1 := ⟨fuel - 1, by simp at h; omega⟩
          rw [chars, List.length_cons, decodeUpTo, decodeUpTo]
          cases hnext : next (b :: bs) with
          | none => rfl
          | some x =>
              obtain ⟨c, rest⟩ := x
              have hlen := length_next hnext
              simp only [List.length_cons] at h hlen
              have hleft : decodeUpTo fuel rest = chars rest := ih fuel (by omega) (by omega)
              have hright : decodeUpTo bs.length rest = chars rest := by
                rcases Nat.lt_or_ge bs.length (fuel + 1) with hlt | hge
                · exact ih _ hlt (by omega)
                · omega
              simp only [Option.bind_eq_bind, Option.bind_some, hleft, hright]

theorem chars_cons (b : UInt8) (bs : List UInt8) :
    chars (b :: bs) = (next (b :: bs)).bind fun x => (chars x.2).map (x.1 :: ·) := by
  rw [chars, List.length_cons, decodeUpTo]
  cases hnext : next (b :: bs) with
  | none => rfl
  | some x =>
      obtain ⟨c, rest⟩ := x
      have hlen := length_next hnext
      simp only [List.length_cons] at hlen
      simp only [Option.bind_eq_bind, Option.bind_some, decodeUpTo_eq (Nat.le_of_lt_succ hlen)]
      cases chars rest <;> rfl

/-- The bytes are ASCII. -/
def Plain (bytes : List UInt8) : Prop := ∀ b ∈ bytes, b.toNat < 0x80

theorem not_between {low high : Nat} {b : UInt8} (hlow : 0x80 ≤ low) (h : b.toNat < 0x80) :
    between low high b = false := by
  unfold between
  rw [Bool.and_eq_false_iff, decide_eq_false_iff_not]
  exact .inl (by omega)

theorem ite_append {p : Prop} [Decidable p] (c : Char) (rest tail : List UInt8) :
    (if p then some (c, rest ++ tail) else none) =
      (if p then some (c, rest) else none).map fun x => (x.1, x.2 ++ tail) := by
  split <;> rfl

/-- A character that is not complete is not completed by plain bytes. -/
theorem next_append {bytes tail : List UInt8} (hne : bytes ≠ []) (h : Plain tail) :
    next (bytes ++ tail) = (next bytes).map fun x => (x.1, x.2 ++ tail) := by
  cases bytes with
  | nil => exact absurd rfl hne
  | cons b₀ bs =>
      -- a plain byte is none of those that may follow
      have hno : ∀ {low high b more}, tail = b :: more → 0x80 ≤ low → between low high b = false :=
        fun htail hlow => not_between hlow (h _ (by rw [htail]; exact List.mem_cons_self ..))
      have hlow₃ : 0x80 ≤ if b₀.toNat = 0xE0 then 0xA0 else 0x80 := by split <;> omega
      have hlow₄ : 0x80 ≤ if b₀.toNat = 0xF0 then 0x90 else 0x80 := by split <;> omega
      rw [List.cons_append]
      unfold next
      dsimp only
      by_cases hone : b₀.toNat < 0x80
      · rw [if_pos hone, if_pos hone]
        rfl
      rw [if_neg hone, if_neg hone]
      by_cases htwo : 0xC2 ≤ b₀.toNat ∧ b₀.toNat ≤ 0xDF
      · rw [if_pos htwo, if_pos htwo]
        match bs with
        | [] =>
            match tail with
            | [] => rfl
            | b₁ :: more => simp [hno rfl (Nat.le_refl 0x80)]
        | b₁ :: bs => exact ite_append _ bs tail
      rw [if_neg htwo, if_neg htwo]
      by_cases hthree : 0xE0 ≤ b₀.toNat ∧ b₀.toNat ≤ 0xEF
      · rw [if_pos hthree, if_pos hthree]
        match bs with
        | [] =>
            match tail with
            | [] => rfl
            | [b₁] => rfl
            | b₁ :: b₂ :: more => simp [hno rfl hlow₃]
        | [b₁] =>
            match tail with
            | [] => rfl
            | b₂ :: more => simp [hno rfl (Nat.le_refl 0x80)]
        | b₁ :: b₂ :: bs => exact ite_append _ bs tail
      rw [if_neg hthree, if_neg hthree]
      by_cases hfour : 0xF0 ≤ b₀.toNat ∧ b₀.toNat ≤ 0xF4
      · rw [if_pos hfour, if_pos hfour]
        match bs with
        | [] =>
            match tail with
            | [] => rfl
            | [b₁] => rfl
            | [b₁, b₂] => rfl
            | b₁ :: b₂ :: b₃ :: more => simp [hno rfl hlow₄]
        | [b₁] =>
            match tail with
            | [] => rfl
            | [b₂] => rfl
            | b₂ :: b₃ :: more => simp [hno rfl (Nat.le_refl 0x80)]
        | [b₁, b₂] =>
            match tail with
            | [] => rfl
            | b₃ :: more => simp [hno rfl (Nat.le_refl 0x80)]
        | b₁ :: b₂ :: b₃ :: bs => exact ite_append _ bs tail
      · rw [if_neg hfour, if_neg hfour]
        rfl

theorem chars_append {bytes tail : List UInt8} (h : Plain tail) :
    chars (bytes ++ tail) = (chars bytes).map (· ++ tail.map fun b => Char.ofNat b.toNat) := by
  have htail : chars tail = some (tail.map fun b => Char.ofNat b.toNat) := by
    induction tail with
    | nil => rfl
    | cons b bs ih =>
        have hb : b.toNat < 0x80 := h b (List.mem_cons_self ..)
        have hnext : next (b :: bs) = some (Char.ofNat b.toNat, bs) := by
          simp only [next, if_pos hb]
        rw [chars_cons, hnext, Option.bind_some, ih fun b hb => h b (List.mem_cons_of_mem _ hb)]
        rfl
  induction hn : bytes.length using Nat.strongRecOn generalizing bytes with
  | ind n ih =>
      cases bytes with
      | nil => 
          rw [List.nil_append, htail]
          rfl
      | cons b bs =>
          rw [List.cons_append, chars_cons, ← List.cons_append, next_append (by simp) h, chars_cons]
          cases hnext : next (b :: bs) with
          | none => rfl
          | some x =>
              obtain ⟨c, rest⟩ := x
              have hlen := length_next hnext
              simp only [Option.map_some, Option.bind_some]
              rw [ih rest.length (by omega) rfl]
              cases chars rest <;> rfl

/-! ### The codec of the standard library -/

def write (chars : List Char) : List UInt8 := chars.flatMap String.utf8EncodeChar

def read (bytes : List UInt8) : Option (List Char) :=
  bytes.toByteArray.utf8Decode?.map Array.toList

@[simp] theorem read_write (chars : List Char) : read (write chars) = some chars := by
  have h : (write chars).toByteArray = chars.utf8Encode := rfl
  rw [read, h, List.utf8Decode?_utf8Encode]
  rfl

theorem write_of_read {bytes : List UInt8} {chars : List Char} (h : read bytes = some chars) :
    write chars = bytes := by
  obtain ⟨array, harray, rfl⟩ := Option.map_eq_some_iff.mp h
  have hsome : bytes.toByteArray.utf8Decode?.isSome := by rw [harray]; rfl
  have hbytes := ByteArray.utf8Encode_get_utf8Decode? (h := hsome)
  simp only [harray, Option.get_some] at hbytes
  have hlist := congrArg (fun b : ByteArray => b.data.toList) hbytes
  simpa [List.utf8Encode, write] using hlist

end Utf8

namespace Utf16

/-- The code units of a character. -/
def unitsOf (c : Char) : List UInt16 :=
  let n := c.toNat
  if n < 0x10000 then [UInt16.ofNat n]
  else [UInt16.ofNat (0xD800 + (n - 0x10000) / 0x400), UInt16.ofNat (0xDC00 + (n - 0x10000) % 0x400)]

def encode (chars : List Char) : List UInt16 := chars.flatMap unitsOf

def isHigh (u : UInt16) : Bool := 0xD800 ≤ u.toNat && u.toNat ≤ 0xDBFF

def isLow (u : UInt16) : Bool := 0xDC00 ≤ u.toNat && u.toNat ≤ 0xDFFF

/-- The character of a unit that has no partner: a surrogate stands for nothing. -/
def scalar (u : UInt16) : Char :=
  if isHigh u || isLow u then Char.ofNat 0xFFFD else Char.ofNat u.toNat

def pair (u v : UInt16) : Char :=
  Char.ofNat (0x10000 + (u.toNat - 0xD800) * 0x400 + (v.toNat - 0xDC00))

/-- The characters of the text. -/
def scalars : List UInt16 → List Char
  | u :: v :: rest =>
      if isHigh u && isLow v then pair u v :: scalars rest else scalar u :: scalars (v :: rest)
  | [u] => [scalar u]
  | [] => []

theorem scalars_encode (chars : List Char) : scalars (encode chars) = chars := by
  induction chars with
  | nil => rfl
  | cons c rest ih =>
      have hvalid : c.toNat < 0xD800 ∨ 0xDFFF < c.toNat ∧ c.toNat < 0x110000 := c.valid
      rw [encode, List.flatMap_cons, unitsOf, ← encode]
      split
      · next hsmall =>
        have hu : (UInt16.ofNat c.toNat).toNat = c.toNat := by
          rw [UInt16.toNat_ofNat']
          omega
        have hhigh : isHigh (UInt16.ofNat c.toNat) = false := by
          rw [isHigh, hu, Bool.and_eq_false_iff, decide_eq_false_iff_not, decide_eq_false_iff_not]
          omega
        have hlow : isLow (UInt16.ofNat c.toNat) = false := by
          rw [isLow, hu, Bool.and_eq_false_iff, decide_eq_false_iff_not, decide_eq_false_iff_not]
          omega
        have hscalar : scalar (UInt16.ofNat c.toNat) = c := by
          rw [scalar, hhigh, hlow, if_neg (by decide), hu, Char.ofNat_toNat]
        rw [List.singleton_append]
        cases hrest : encode rest with
        | nil =>
            rw [hrest] at ih
            rw [scalars, hscalar, ← ih]
            rfl
        | cons v more => rw [scalars, hhigh, Bool.false_and, if_neg (by decide), hscalar, ← hrest, ih]
      · -- a pair of surrogates
        next hlarge =>
        have hu : (UInt16.ofNat (0xD800 + (c.toNat - 0x10000) / 0x400)).toNat =
            0xD800 + (c.toNat - 0x10000) / 0x400 := by
          rw [UInt16.toNat_ofNat']
          omega
        have hv : (UInt16.ofNat (0xDC00 + (c.toNat - 0x10000) % 0x400)).toNat =
            0xDC00 + (c.toNat - 0x10000) % 0x400 := by
          rw [UInt16.toNat_ofNat']
          omega
        have hsum : 0x10000 + (0xD800 + (c.toNat - 0x10000) / 0x400 - 0xD800) * 0x400 +
            (0xDC00 + (c.toNat - 0x10000) % 0x400 - 0xDC00) = c.toNat := by omega
        rw [List.cons_append, List.singleton_append, scalars, if_pos ?_, ih, pair, hu, hv, hsum,
          Char.ofNat_toNat]
        simp only [isHigh, isLow, hu, hv, Bool.and_eq_true, decide_eq_true_eq]
        omega

/-! ### UTF-8 -/

/-- `utf8.encode`. -/
def toUtf8 (units : List UInt16) : List UInt8 := Utf8.write (scalars units)

/-- A byte order mark at the start is left out. -/
def unmarked : List UInt8 → List UInt8
  | 0xEF :: 0xBB :: 0xBF :: rest => rest
  | bytes => bytes

/-- `utf8.decode`. -/
def ofUtf8 (bytes : List UInt8) : Option (List UInt16) := (Utf8.read (unmarked bytes)).map encode

theorem unmarked_eq_iff (bytes : List UInt8) :
    unmarked bytes = bytes ↔ ¬[0xEF, 0xBB, 0xBF] <+: bytes := by
  unfold unmarked
  split
  · next rest =>
    refine iff_of_false (fun h => ?_) (not_not_intro ⟨rest, rfl⟩)
    have := congrArg List.length h
    simp at this
    omega
  · next hno =>
    refine iff_of_true rfl ?_
    rintro ⟨rest, rfl⟩
    exact hno rest rfl

theorem toUtf8_of_ofUtf8 {bytes : List UInt8} {units : List UInt16} (h : ofUtf8 bytes = some units) :
    toUtf8 units = unmarked bytes := by
  obtain ⟨chars, hread, rfl⟩ := Option.map_eq_some_iff.mp h
  rw [toUtf8, scalars_encode, Utf8.write_of_read hread]

end Utf16
