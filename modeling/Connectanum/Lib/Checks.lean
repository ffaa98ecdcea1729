import Mathlib.Data.List.Basic

/-!
# Lib — Checks

Computations that may refuse (`Except`): what a success says of the parts.
-/

namespace Checks

universe u v

variable {ε : Type u} {α β : Type v}

@[simp]
theorem except_ok_bind (a : α) (f : α → Except ε β) : (.ok a : Except ε α) >>= f = f a := rfl

/-- A success comes from a success of each part. -/
theorem except_bind_eq_ok {x : Except ε α} {f : α → Except ε β} {b : β}
    (h : x >>= f = .ok b) : ∃ a, x = .ok a ∧ f a = .ok b := by
  cases x with
  | error e => cases h
  | ok a => exact ⟨a, rfl, h⟩

/-- What holds of every success of the last part holds of every success. -/
theorem except_bind_all {x : Except ε α} {f : α → Except ε β} {P : β → Prop}
    (hf : ∀ a b, f a = .ok b → P b) (b : β) (h : x >>= f = .ok b) : P b := by
  obtain ⟨a, -, ha⟩ := except_bind_eq_ok h
  exact hf a b ha

theorem except_map_eq_ok {x : Except ε α} {f : α → β} {b : β} (h : f <$> x = .ok b) :
    ∃ a, x = .ok a ∧ f a = b := by
  cases x with
  | error e => cases h
  | ok a => exact ⟨a, rfl, Except.ok.inj h⟩

/-! ### Results without their errors -/

theorem toOption_bind {ε α β : Type} (x : Except ε α) (f : α → Except ε β) :
    (x >>= f).toOption = x.toOption >>= fun a => (f a).toOption := by
  cases x <;> rfl

section

variable {α β γ δ α' β' γ' δ' π μ : Type} {x : Option α} {y : Option β} {z : Option γ}
  {w : Option δ} {p : Option π} {f : α → Option α'} {g : β → Option β'} {h : γ → Option γ'}
  {i : δ → Option δ'}

end

end Checks
