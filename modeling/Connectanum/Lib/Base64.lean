import Mathlib.Data.List.Basic

/-!
# Lib — Base64

Canonical base64: the standard alphabet, padded, with no bits that the bytes do not use.

* `decode`: the bytes of a canonical text;
* `letters_of_decode`: a canonical text holds nothing but letters of the alphabet and padding.
-/

namespace Base64

/-- The number that a code unit stands for. -/
def sextet? (c : UInt16) : Option Nat :=
  if 0x41 ≤ c ∧ c ≤ 0x5A then some (c.toNat - 0x41)
  else if 0x61 ≤ c ∧ c ≤ 0x7A then some (c.toNat - 0x61 + 26)
  else if 0x30 ≤ c ∧ c ≤ 0x39 then some (c.toNat - 0x30 + 52)
  else if c = 0x2B then some 62
  else if c = 0x2F then some 63
  else none

def padding : UInt16 := 0x3D

/-- Three bytes from four numbers. -/
def bytesOf (a b c d : Nat) : List UInt8 :=
  [UInt8.ofNat (a <<< 2 ||| b >>> 4), UInt8.ofNat (b <<< 4 ||| c >>> 2),
    UInt8.ofNat (c <<< 6 ||| d)]

/-- The last four units, of which up to two are padding. -/
def decodeLast (a b c d : UInt16) : Option (List UInt8) := do
  let a ← sextet? a
  let b ← sextet? b
  if d = padding then
    if c = padding then
      if b &&& 0x0F = 0 then some ((bytesOf a b 0 0).take 1) else none
    else do
      let c ← sextet? c
      if c &&& 0x03 = 0 then some ((bytesOf a b c 0).take 2) else none
  else do
    let c ← sextet? c
    let d ← sextet? d
    some (bytesOf a b c d)

def decode : List UInt16 → Option (List UInt8)
  | [] => some []
  | [a, b, c, d] => decodeLast a b c d
  | a :: b :: c :: d :: rest => do
      let a ← sextet? a
      let b ← sextet? b
      let c ← sextet? c
      let d ← sextet? d
      let bytes ← decode rest
      some (bytesOf a b c d ++ bytes)
  | _ => none

/-- A letter of the alphabet, or padding. -/
def Letter (c : UInt16) : Prop := (sextet? c).isSome = true ∨ c = padding

theorem letters_of_decodeLast {a b c d : UInt16} {bytes : List UInt8}
    (h : decodeLast a b c d = some bytes) : Letter a ∧ Letter b ∧ Letter c ∧ Letter d := by
  unfold decodeLast at h
  obtain ⟨x, hx, h⟩ := Option.bind_eq_some_iff.mp h
  obtain ⟨y, hy, h⟩ := Option.bind_eq_some_iff.mp h
  refine ⟨.inl (by rw [hx]; rfl), .inl (by rw [hy]; rfl), ?_⟩
  split at h
  · next hd =>
      split at h
      · next hc => exact ⟨.inr hc, .inr hd⟩
      · obtain ⟨z, hz, -⟩ := Option.bind_eq_some_iff.mp h
        exact ⟨.inl (by rw [hz]; rfl), .inr hd⟩
  · obtain ⟨z, hz, h⟩ := Option.bind_eq_some_iff.mp h
    obtain ⟨w, hw, -⟩ := Option.bind_eq_some_iff.mp h
    exact ⟨.inl (by rw [hz]; rfl), .inl (by rw [hw]; rfl)⟩

theorem letters_of_decode {units : List UInt16} {bytes : List UInt8}
    (h : decode units = some bytes) : ∀ c ∈ units, Letter c := by
  induction units using decode.induct generalizing bytes with
  | case1 => simp
  | case2 a b c d =>
      obtain ⟨ha, hb, hc, hd⟩ := letters_of_decodeLast h
      simp [ha, hb, hc, hd]
  | case3 a b c d rest hrest ih =>
      rw [decode] at h
      · obtain ⟨x, hx, h⟩ := Option.bind_eq_some_iff.mp h
        obtain ⟨y, hy, h⟩ := Option.bind_eq_some_iff.mp h
        obtain ⟨z, hz, h⟩ := Option.bind_eq_some_iff.mp h
        obtain ⟨w, hw, h⟩ := Option.bind_eq_some_iff.mp h
        obtain ⟨more, hmore, -⟩ := Option.bind_eq_some_iff.mp h
        have hletter : ∀ {c : UInt16} {n : Nat}, sextet? c = some n → Letter c :=
          fun hc => .inl (by rw [hc]; rfl)
        simp only [List.mem_cons, forall_eq_or_imp]
        exact ⟨hletter hx, hletter hy, hletter hz, hletter hw, ih hmore⟩
      · exact hrest
  | case4 => 
      rw [decode] at h
      · cases h
      all_goals assumption

theorem Letter.bounds {c : UInt16} (h : Letter c) : 0x2B ≤ c.toNat ∧ c.toNat ≤ 0x7A ∧
    c.toNat ≠ 0x5C := by
  rcases h with h | rfl
  · unfold sextet? at h
    simp only [UInt16.le_iff_toNat_le, ← UInt16.toNat_inj, UInt16.reduceToNat] at h
    split at h
    · omega
    · split at h
      · omega
      · split at h
        · omega
        · split at h
          · omega
          · split at h
            · omega
            · cases h
  · decide

end Base64
