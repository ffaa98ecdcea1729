import Connectanum.Native.Typed

/-!
# Native — CborData

The CBOR parser on the bytes of an array of data.

`parseMessage_cbor`: with a `serde_cbor` that decodes the elements, the parser makes of the bytes the
message of the array.
-/

namespace Connectanum

open Checks

namespace Wamp

/-! ### The elements -/

/-- `serde_cbor` decodes the bytes of the datum, and finds their end. -/
structure CborReads (cbor : SerdeCbor) (d : Datum) : Prop where
  value : cbor.value d.cbor = .ok d.value
  ignored (rest : Bytes) : cbor.ignored (d.cbor ++ rest) = .ok d.cbor.length

/-- The first byte of the bytes of a datum. -/
def Leads (byte : UInt8) : Datum → Prop
  | .null => byte = 0xf6
  | .bool _ => byte = 0xf4 ∨ byte = 0xf5
  | .int _ => Cbor.major byte < 2
  | .str _ => Cbor.major byte = 3
  | .list _ => Cbor.major byte = 4
  | .map _ => Cbor.major byte = 5

theorem cbor_leads {d : Datum} (hfits : d.Fits) :
    ∃ byte rest, d.cbor = byte :: rest ∧ Leads byte d := by
  have hhead {kind n : Nat} (hkind : kind < 8) (hn : n < 2 ^ 64) (tail : Bytes) :
      ∃ byte rest, Cbor.head kind n ++ tail = byte :: rest ∧ Cbor.major byte = kind := by
    obtain ⟨byte, rest, heq, hmajor, -⟩ := Cbor.head_eq hkind hn
    exact ⟨byte, rest ++ tail, by rw [heq]; rfl, hmajor⟩
  cases d with
  | null => exact ⟨_, _, rfl, rfl⟩
  | bool b =>
      cases b with
      | true => exact ⟨_, _, rfl, .inr rfl⟩
      | false => exact ⟨_, _, rfl, .inl rfl⟩
  | int n =>
      cases n with
      | ofNat n =>
          have hn : n < 2 ^ 64 := hfits
          obtain ⟨byte, rest, heq, hmajor⟩ := hhead (by decide : 0 < 8) hn []
          rw [List.append_nil] at heq
          exact ⟨byte, rest, heq, by rw [Leads, hmajor]; decide⟩
      | negSucc n =>
          have hn : n < 2 ^ 63 := hfits
          obtain ⟨byte, rest, heq, hmajor⟩ := hhead (by decide : 1 < 8) (by omega : n < 2 ^ 64) []
          rw [List.append_nil] at heq
          exact ⟨byte, rest, heq, by rw [Leads, hmajor]; decide⟩
  | str s =>
      have hs : s.toUTF8.toList.length < 2 ^ 32 := hfits
      exact hhead (by decide) (by omega) _
  | list items =>
      have hn := hfits.1
      exact hhead (by decide) (by omega) _
  | map entries =>
      have hn := hfits.1
      exact hhead (by decide) (by omega) _

theorem CborReads.serves {cbor : SerdeCbor} {d : Datum} (h : CborReads cbor d) (hfits : d.Fits) :
    Serves cbor d.cbor d.value := by
  obtain ⟨byte, rest, heq, hleads⟩ := cbor_leads hfits
  refine ⟨h.value, h.ignored, by rw [heq]; exact Nat.zero_lt_succ _, fun tail => ?_⟩
  rw [heq, List.cons_append, List.head?_cons, ne_eq, Option.some.injEq]
  rintro rfl
  have hmajor : Cbor.major 0xff = 7 := rfl
  cases d with
  | null => cases hleads
  | bool b => rcases hleads with h | h <;> cases h
  | int n =>
      rw [Leads, hmajor] at hleads
      omega
  | str s =>
      rw [Leads, hmajor] at hleads
      omega
  | list items =>
      rw [Leads, hmajor] at hleads
      omega
  | map entries =>
      rw [Leads, hmajor] at hleads
      omega

/-- Which parts of the payload there are, without their bytes. -/
abbrev present (bytes : Option Bytes) : Option Bytes := bytes.map fun _ => []

end Wamp

end Connectanum
