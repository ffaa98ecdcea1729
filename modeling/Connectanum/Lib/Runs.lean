import Mathlib.Data.List.Basic

/-!
# Lib — Runs

Runs of a state machine given by a step function, each input admitted by a condition on the
state it meets.

* `foldl_frame`: what each round of a loop leaves alone, the loop leaves alone;
* `Run.invariant`: what the start satisfies and every admitted step keeps holds at the end;
* `Run.congr_of_invariant`: conditions that agree under an invariant admit the same runs;
* `Run.history`: the invariant rule, where the invariant knows the inputs so far;
* `Run.timed`: the same, where the invariant tells the time;
* `Run.mono`: a run under a stronger condition is a run under a weaker one;
* `Run.append`, `Run.snoc`, `Run.replicate`, `Run.split`: runs are built, extended and cut piece by
  piece;
* `Run.of_admitted`: a run whose condition can be evaluated;
* `monitor_split`, `monitor_invariant`, `monitor_flag`, `monitor_count`: what a monitor, a step
  function that may reject, says of the events that it accepted.
-/

namespace Machine

universe u v w

/-- A component that no round of a loop changes is unchanged by the loop. -/
theorem foldl_frame {σ : Type u} {ι : Type v} {β : Type w} {f : σ → ι → σ} (g : σ → β)
    (h : ∀ s i, g (f s i) = g s) (l : List ι) (s : σ) : g (l.foldl f s) = g s := by
  induction l generalizing s with
  | nil => rfl
  | cons i rest ih => rw [List.foldl_cons, ih, h]

variable {σ : Type u} {ι : Type v}

/-- `Run step ok s inputs s'`: from `s`, the inputs lead to `s'`, each one admitted by `ok` in
the state in which it comes. -/
inductive Run (step : σ → ι → σ) (ok : σ → ι → Prop) : σ → List ι → σ → Prop where
  | nil (s : σ) : Run step ok s [] s
  | cons {s s' : σ} {i : ι} {rest : List ι} (h : ok s i) (t : Run step ok (step s i) rest s') :
      Run step ok s (i :: rest) s'

namespace Run

variable {step : σ → ι → σ} {ok ok' : σ → ι → Prop} {s s' s'' : σ}

theorem append {xs ys : List ι} (h : Run step ok s xs s') (h' : Run step ok s' ys s'') :
    Run step ok s (xs ++ ys) s'' := by
  induction h with
  | nil => exact h'
  | cons hi _ ih => exact .cons hi (ih h')

theorem snoc {xs : List ι} {i : ι} (h : Run step ok s xs s') (hi : ok s' i) :
    Run step ok s (xs ++ [i]) (step s' i) :=
  h.append (.cons hi (.nil _))

theorem split {xs ys : List ι} (h : Run step ok s (xs ++ ys) s'') :
    ∃ s', Run step ok s xs s' ∧ Run step ok s' ys s'' := by
  induction xs generalizing s with
  | nil => exact ⟨s, .nil s, h⟩
  | cons i rest ih =>
      obtain _ | ⟨hi, ht⟩ := h
      obtain ⟨s', hxs, hys⟩ := ih ht
      exact ⟨s', .cons hi hxs, hys⟩

theorem eq_foldl {xs : List ι} (h : Run step ok s xs s') : s' = xs.foldl step s := by
  induction h with
  | nil => rfl
  | cons _ _ ih => exact ih

theorem mono (hok : ∀ s i, ok s i → ok' s i) {xs : List ι} (h : Run step ok s xs s') :
    Run step ok' s xs s' := by
  induction h with
  | nil => exact .nil _
  | cons hi _ ih => exact .cons (hok _ _ hi) ih

/-- **The invariant rule.** -/
theorem invariant {P : σ → Prop} (hstep : ∀ s i, P s → ok s i → P (step s i)) {xs : List ι}
    (h : Run step ok s xs s') (h₀ : P s) : P s' := by
  induction h with
  | nil => exact h₀
  | cons hi _ ih => exact ih (hstep _ _ h₀ hi)

/-- Two conditions that agree wherever the invariant holds admit the same runs, if the invariant is
kept by the steps that they admit. -/
theorem congr_of_invariant {P : σ → Prop} (hiff : ∀ s i, P s → (ok s i ↔ ok' s i))
    (hstep : ∀ s i, P s → ok s i → P (step s i)) {xs : List ι} (h₀ : P s) :
    Run step ok s xs s' ↔ Run step ok' s xs s' := by
  induction xs generalizing s with
  | nil =>
      constructor
      · rintro ⟨⟩
        exact .nil _
      · rintro ⟨⟩
        exact .nil _
  | cons i rest ih =>
      constructor
      · rintro (_ | ⟨hi, ht⟩)
        exact .cons ((hiff s i h₀).mp hi) ((ih (hstep s i h₀ hi)).mp ht)
      · rintro (_ | ⟨hi, ht⟩)
        have hok := (hiff s i h₀).mpr hi
        exact .cons hok ((ih (hstep s i h₀ hok)).mpr ht)

/-- The invariant rule with the inputs so far. -/
theorem history {P : List ι → σ → Prop}
    (hstep : ∀ xs s i, P xs s → ok s i → P (xs ++ [i]) (step s i)) {xs ys : List ι}
    (h : Run step ok s ys s') (h₀ : P xs s) : P (xs ++ ys) s' := by
  induction h generalizing xs with
  | nil => rwa [List.append_nil]
  | cons hi _ ih =>
      rw [List.append_cons]
      exact ih (hstep _ _ _ h₀ hi)

/-- The invariant rule under a clock that does not go back. -/
theorem timed {P : Nat → σ → Prop} {time : ι → Nat}
    (hstep : ∀ t s i, P t s → ok s i → t ≤ time i → P (time i) (step s i)) {xs : List ι}
    (h : Run step ok s xs s') (hsorted : (xs.map time).Pairwise (· ≤ ·)) {t : Nat}
    (ht : ∀ i ∈ xs, t ≤ time i) (h₀ : P t s) : ∃ t', P t' s' := by
  induction h generalizing t with
  | nil => exact ⟨t, h₀⟩
  | cons hi _ ih =>
      rw [List.map_cons, List.pairwise_cons] at hsorted
      refine ih hsorted.2 (fun j hj => hsorted.1 _ (List.mem_map_of_mem hj)) ?_
      exact hstep _ _ _ h₀ hi (ht _ (List.mem_cons_self ..))

/-- A family of states that one input leads through, one member to the next. -/
theorem replicate {P : Nat → σ → Prop} {i : ι} {n : Nat}
    (hstep : ∀ k s, k < n → P k s → ok s i ∧ P (k + 1) (step s i)) (h₀ : P 0 s) :
    ∃ s', Run step ok s (List.replicate n i) s' ∧ P n s' := by
  induction n with
  | zero => exact ⟨s, .nil s, h₀⟩
  | succ n ih =>
      obtain ⟨s', hrun, hP⟩ := ih fun k s hk => hstep k s (Nat.lt_succ_of_lt hk)
      obtain ⟨hok, hP'⟩ := hstep n s' (Nat.lt_succ_self n) hP
      refine ⟨step s' i, ?_, hP'⟩
      rw [List.replicate_succ']
      exact hrun.snoc hok

/-- The condition, evaluated along the inputs. -/
def admitted (step : σ → ι → σ) (ok : σ → ι → Prop) [∀ s i, Decidable (ok s i)] :
    σ → List ι → Bool
  | _, [] => true
  | s, i :: rest => decide (ok s i) && admitted step ok (step s i) rest

theorem of_admitted [∀ s i, Decidable (ok s i)] {xs : List ι}
    (h : admitted step ok s xs = true) : Run step ok s xs (xs.foldl step s) := by
  induction xs generalizing s with
  | nil => exact .nil s
  | cons i rest ih =>
      obtain ⟨hi, hrest⟩ := Bool.and_eq_true_iff.mp h
      exact .cons (of_decide_eq_true hi) (ih hrest)

end Run

/-! ### Monitors -/

section

universe x

variable {σ : Type u} {ε : Type x} {next : σ → ε → Option σ} {s s' : σ}

/-- Before each event that it accepted, the monitor was in some state. -/
theorem monitor_split {xs ys : List ε} {e : ε} (h : (xs ++ e :: ys).foldlM next s = some s') :
    ∃ s₁ s₂, xs.foldlM next s = some s₁ ∧ next s₁ e = some s₂ ∧ ys.foldlM next s₂ = some s' := by
  rw [List.foldlM_append] at h
  obtain ⟨s₁, h₁, h⟩ := Option.bind_eq_some_iff.mp h
  rw [List.foldlM_cons] at h
  obtain ⟨s₂, h₂, h⟩ := Option.bind_eq_some_iff.mp h
  exact ⟨s₁, s₂, h₁, h₂, h⟩

theorem monitor_invariant {P : σ → Prop} (hnext : ∀ s e s', P s → next s e = some s' → P s')
    {es : List ε} (h : es.foldlM next s = some s') (h₀ : P s) : P s' := by
  induction es generalizing s with
  | nil => cases h; exact h₀
  | cons e rest ih =>
      obtain ⟨s₁, h₁, h⟩ := Option.bind_eq_some_iff.mp h
      exact ih h (hnext _ _ _ h₀ h₁)

/-- A flag that one kind of event raises, and nothing else changes. -/
theorem monitor_flag {g : σ → Prop} {q : ε → Prop}
    (hnext : ∀ s e s', next s e = some s' → (g s' ↔ g s ∨ q e)) {es : List ε}
    (h : es.foldlM next s = some s') : g s' ↔ g s ∨ ∃ e ∈ es, q e := by
  induction es generalizing s with
  | nil => cases h; simp
  | cons e rest ih =>
      obtain ⟨s₁, h₁, h⟩ := Option.bind_eq_some_iff.mp h
      rw [ih h, hnext _ _ _ h₁]
      simp [or_assoc]

/-- A counter of one kind of event. -/
theorem monitor_count {m : σ → Nat} {q : ε → Bool}
    (hnext : ∀ s e s', next s e = some s' → m s' = m s + (q e).toNat) {es : List ε}
    (h : es.foldlM next s = some s') : m s' = m s + es.countP q := by
  induction es generalizing s with
  | nil => cases h; simp
  | cons e rest ih =>
      obtain ⟨s₁, h₁, h⟩ := Option.bind_eq_some_iff.mp h
      rw [ih h, hnext _ _ _ h₁, List.countP_cons]
      cases q e <;> simp <;> omega

end

end Machine
