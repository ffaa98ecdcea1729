import Mathlib.Data.List.Basic

/-!
# Lib — Chunking

A sequence in chunks of one length, of which only the last may be shorter.

* `Chunked`: such chunks, and what they are the chunks of;
* `Chunked.of_full`: full chunks with what is left over;
* `Chunked.le`: no chunk is longer than the others.
-/

namespace Chunking

universe u

variable {α : Type u}

/-- The chunks of `xs`: all of length `n`, but for a last one that is not empty. -/
structure Chunked (n : Nat) (xs : List α) (chunks : List (List α)) : Prop where
  whole : chunks.flatten = xs
  full : ∀ c ∈ chunks.dropLast, c.length = n
  last : ∀ c ∈ chunks.getLast?, c ≠ [] ∧ c.length ≤ n

namespace Chunked

variable {n : Nat} {xs rest : List α} {chunks : List (List α)}

/-- Full chunks, and what is left over as a chunk of its own. -/
theorem of_full (hfull : ∀ c ∈ chunks, c.length = n) (hrest : rest.length < n)
    (hn : 0 < n) : Chunked n (chunks.flatten ++ rest)
      (chunks ++ if 0 < rest.length then [rest] else []) := by
  split
  · next hne =>
    refine ⟨by simp, ?_, ?_⟩
    · intro c hc
      rw [List.dropLast_concat] at hc
      exact hfull c hc
    · intro c hc
      rw [List.getLast?_concat] at hc
      obtain rfl := Option.some.inj hc
      exact ⟨List.ne_nil_of_length_pos hne, Nat.le_of_lt hrest⟩
  · next hempty =>
    obtain rfl : rest = [] := List.eq_nil_of_length_eq_zero (Nat.eq_zero_of_not_pos hempty)
    simp only [List.append_nil]
    refine ⟨rfl, fun c hc => hfull c (List.dropLast_subset _ hc), fun c hc => ?_⟩
    have hlen := hfull c (List.mem_of_getLast? hc)
    exact ⟨List.ne_nil_of_length_pos (by omega), Nat.le_of_eq hlen⟩

theorem le (h : Chunked n xs chunks) {c : List α} (hc : c ∈ chunks) : c.length ≤ n := by
  rcases List.eq_nil_or_concat' chunks with rfl | ⟨front, back, rfl⟩
  · cases hc
  · rcases List.mem_append.mp hc with hfront | hback
    · refine Nat.le_of_eq (h.full c ?_)
      rw [List.dropLast_concat]
      exact hfront
    · refine (h.last c ?_).2
      rw [List.mem_singleton.mp hback, List.getLast?_concat]
      rfl

end Chunked

end Chunking
