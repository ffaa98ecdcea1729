import Mathlib.Data.List.Nodup
import Mathlib.Data.List.Perm.Subperm

/-!
# Lib — Rotations

A queue whose first member is served and goes to its end.

While members come and go and those who stay keep their order (`Keeps`), a member that stays is
served once between two turns of another that stays: `Between` is the invariant, and
`Between.once` what it gives.
-/

namespace Rotations

universe u

variable {α : Type u} {queue queue' : List α} {a b x y : α}

/-! ### The order of two members -/

theorem pair_or_pair (ha : a ∈ queue) (hb : b ∈ queue) (hne : a ≠ b) :
    [a, b].Sublist queue ∨ [b, a].Sublist queue := by
  induction queue with
  | nil => cases ha
  | cons c rest ih =>
      rcases List.mem_cons.mp ha with rfl | ha'
      · have hb' := (List.mem_cons.mp hb).resolve_left hne.symm
        exact .inl (.cons_cons _ (List.singleton_sublist.mpr hb'))
      · rcases List.mem_cons.mp hb with rfl | hb'
        · exact .inr (.cons_cons _ (List.singleton_sublist.mpr ha'))
        · exact (ih ha' hb').imp (.cons _) (.cons _)

theorem not_pair_head (hnodup : (x :: queue).Nodup) : ¬ [y, x].Sublist (x :: queue) := by
  intro h
  have hx := (List.nodup_cons.mp hnodup).1
  cases h with
  | cons _ h => exact hx (h.subset (by simp))
  | cons_cons _ h => exact hx (List.singleton_sublist.mp h)

theorem not_pair_pair (hnodup : queue.Nodup) (h : [a, b].Sublist queue) :
    ¬ [b, a].Sublist queue := by
  induction queue with
  | nil => cases h
  | cons c rest ih =>
      intro h'
      obtain ⟨hc, hrest⟩ := List.nodup_cons.mp hnodup
      cases h with
      | cons _ h =>
          cases h' with
          | cons _ h' => exact ih hrest h h'
          | cons_cons _ h' => exact hc (h.subset (by simp))
      | cons_cons _ h =>
          cases h' with
          | cons _ h' => exact hc (h'.subset (by simp))
          | cons_cons _ h' => exact hc (List.singleton_sublist.mp h)

/-! ### Members come and go -/

/-- Those who stay keep their order. -/
def Keeps (queue queue' : List α) : Prop :=
  ∀ a b, a ∈ queue' → b ∈ queue' → [a, b].Sublist queue → [a, b].Sublist queue'

/-- Members who come do not disturb the others. -/
theorem keeps_of_comers (h : queue.Sublist queue') : Keeps queue queue' :=
  fun _ _ _ _ hab => hab.trans h

/-- Nor do members who go. -/
theorem keeps_of_leavers (hnodup : queue.Nodup) (h : queue'.Sublist queue) :
    Keeps queue queue' := by
  intro a b ha hb hab
  have hne : a ≠ b := by
    rintro rfl
    exact (hab.nodup hnodup).notMem (by simp)
  rcases pair_or_pair ha hb hne with hkept | hturned
  · exact hkept
  · exact absurd (hturned.trans h) (not_pair_pair hnodup hab)

/-- One member alone has no order to keep. -/
theorem keeps_of_length_le_one (hnodup : queue.Nodup) (h : queue'.length ≤ 1) :
    Keeps queue queue' := by
  intro a b ha hb hab
  have hsame : a = b := by
    obtain ⟨i, hi, rfl⟩ := List.getElem_of_mem ha
    obtain ⟨j, hj, rfl⟩ := List.getElem_of_mem hb
    have hij : i = j := by omega
    subst hij
    rfl
  subst hsame
  exact absurd hab (not_pair_pair hnodup hab)

/-! ### Between two turns -/

/-- Since the last turn of `x`, `y` has been served `n` times: not yet when it comes before `x`, once
when it comes after. -/
def Between (x y : α) (queue : List α) (n : Nat) : Prop :=
  ([y, x].Sublist queue ∧ n = 0) ∨ ([x, y].Sublist queue ∧ n = 1)

namespace Between

variable {n : Nat}

/-- `x` has been served. -/
theorem start (hy : y ∈ queue) : Between x y (queue ++ [x]) 0 :=
  .inl ⟨(List.singleton_sublist.mpr hy).append (List.Sublist.refl [x]), rfl⟩

theorem keep (h : Between x y queue n) (hkeeps : Keeps queue queue') (hx : x ∈ queue')
    (hy : y ∈ queue') : Between x y queue' n := by
  rcases h with ⟨h, hn⟩ | ⟨h, hn⟩
  · exact .inl ⟨hkeeps y x hy hx h, hn⟩
  · exact .inr ⟨hkeeps x y hx hy h, hn⟩

/-- Another than `x` and `y` is served. -/
theorem pass (h : Between x y (a :: queue) n) (hx : a ≠ x) (hy : a ≠ y) :
    Between x y (queue ++ [a]) n := by
  have hback : queue.Sublist (queue ++ [a]) := List.sublist_append_left _ _
  rcases h with ⟨h, hn⟩ | ⟨h, hn⟩
  · cases h with
    | cons _ h => exact .inl ⟨h.trans hback, hn⟩
    | cons_cons _ h => exact absurd rfl hy
  · cases h with
    | cons _ h => exact .inr ⟨h.trans hback, hn⟩
    | cons_cons _ h => exact absurd rfl hx

/-- `y` is served. -/
theorem serve (h : Between x y (y :: queue) n) (hnodup : (y :: queue).Nodup) :
    Between x y (queue ++ [y]) (n + 1) := by
  rcases h with ⟨h, hn⟩ | ⟨h, _⟩
  · cases h with
    | cons _ h => exact absurd (h.subset (by simp)) (List.nodup_cons.mp hnodup).1
    | cons_cons _ h =>
        have hx := List.singleton_sublist.mp h
        exact .inr ⟨(List.singleton_sublist.mpr hx).append (List.Sublist.refl [y]), by rw [hn]⟩
  · exact absurd h (not_pair_head hnodup)

/-- **Fairness.**  When `x` has its turn again, `y` has been served once. -/
theorem once (h : Between x y (x :: queue) n) (hnodup : (x :: queue).Nodup) : n = 1 := by
  rcases h with ⟨h, _⟩ | ⟨_, hn⟩
  · exact absurd h (not_pair_head hnodup)
  · exact hn

end Between

end Rotations
