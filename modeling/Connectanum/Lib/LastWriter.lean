import Mathlib.Data.Option.Basic

/-!
# Lib — LastWriter

A state with a value at each key, and events that each write some of the keys.

* `last`: what a sequence of events leaves at a key, if it writes it;
* `replay_apply`: a replay leaves at each key its last write, or what was there;
* `Settled`: a state that a replay of the events leaves as it is, because it holds their last writes.
  New events keep it (`Settled.snoc`), and an event may be forgotten that writes no key which an
  earlier event writes (`Settled.forget`);
* `Kept`: what was read of a value holds until an event writes it.
-/

namespace LastWriter

universe u v w

variable {κ : Type u} {ν : κ → Type v} {ε : Type w}

/-- The state after an event. -/
def put (write : ε → (k : κ) → Option (ν k)) (s : (k : κ) → ν k) (e : ε) (k : κ) : ν k :=
  (write e k).getD (s k)

/-- The last value that the events write at `k`. -/
def last (write : ε → (k : κ) → Option (ν k)) : List ε → (k : κ) → Option (ν k)
  | [], _ => none
  | e :: es, k => (last write es k).or (write e k)

variable {write : ε → (k : κ) → Option (ν k)}

theorem last_append (xs ys : List ε) (k : κ) :
    last write (xs ++ ys) k = (last write ys k).or (last write xs k) := by
  induction xs with
  | nil => rw [List.nil_append, last, Option.or_none]
  | cons e xs ih => rw [List.cons_append, last, last, ih, Option.or_assoc]

theorem last_snoc (xs : List ε) (e : ε) (k : κ) :
    last write (xs ++ [e]) k = (write e k).or (last write xs k) := by
  rw [last_append, last, last, Option.none_or]

/-- What no event of the longer sequence writes, the shorter does not write either. -/
theorem last_snoc_eq_none {xs : List ε} {e : ε} {k : κ} :
    last write (xs ++ [e]) k = none ↔ last write xs k = none ∧ write e k = none := by
  rw [last_snoc, Option.or_eq_none_iff]
  exact and_comm

theorem replay_apply (es : List ε) (s : (k : κ) → ν k) (k : κ) :
    es.foldl (put write) s k = (last write es k).getD (s k) := by
  induction es generalizing s with
  | nil => rfl
  | cons e es ih =>
      rw [List.foldl_cons, ih, last, put]
      cases last write es k <;> rfl

/-- The state holds the last writes. -/
def Settled (write : ε → (k : κ) → Option (ν k)) (es : List ε) (s : (k : κ) → ν k) : Prop :=
  ∀ k v, last write es k = some v → s k = v

namespace Settled

variable {es xs ys : List ε} {s s' : (k : κ) → ν k} {e : ε}

theorem nil : Settled write [] s := nofun

theorem snoc (h : Settled write es s) (e : ε) (hs : ∀ k, s' k = put write s e k) :
    Settled write (es ++ [e]) s' := by
  intro k v hlast
  rw [last_snoc] at hlast
  rw [hs k, put]
  cases hw : write e k with
  | none =>
      rw [hw, Option.none_or] at hlast
      exact h k v hlast
  | some v' =>
      rw [hw, Option.some_or] at hlast
      exact Option.some.inj hlast

theorem forget (h : Settled write (xs ++ e :: ys) s)
    (he : ∀ k, write e k ≠ none → last write xs k = none) : Settled write (xs ++ ys) s := by
  intro k v hlast
  refine h k v ?_
  rw [last_append] at hlast
  rw [last_append, last]
  cases hy : last write ys k with
  | some v' => rwa [hy] at hlast
  | none =>
      rw [hy, Option.none_or] at hlast
      cases hw : write e k with
      | none => rw [Option.none_or, Option.none_or, hlast]
      | some v' =>
          rw [he k (hw ▸ Option.some_ne_none v')] at hlast
          cases hlast

/-- Over a start that is right where nothing is written, the replay gives the state. -/
theorem replay_eq (h : Settled write es s) {s₀ : (k : κ) → ν k}
    (h₀ : ∀ k, last write es k = none → s₀ k = s k) : es.foldl (put write) s₀ = s := by
  funext k
  rw [replay_apply]
  cases hlast : last write es k with
  | none => exact h₀ k hlast
  | some v => exact (h k v hlast).symm

end Settled

/-- What was once true of the value at `k` is true of it until it is written. -/
def Kept (write : ε → (k : κ) → Option (ν k)) (es : List ε) (s : (k : κ) → ν k) (k : κ)
    (P : ν k → Prop) : Prop :=
  last write es k = none → P (s k)

theorem Kept.snoc {es : List ε} {s s' : (k : κ) → ν k} {k : κ} {P : ν k → Prop}
    (h : Kept write es s k P) {e : ε} (hs : ∀ k, s' k = put write s e k) :
    Kept write (es ++ [e]) s' k P := by
  intro hlast
  obtain ⟨hes, he⟩ := last_snoc_eq_none.mp hlast
  rw [hs k, put, he]
  exact h hes

end LastWriter
