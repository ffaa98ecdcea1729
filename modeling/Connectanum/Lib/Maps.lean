import Mathlib.Data.List.Nodup
import Mathlib.Algebra.Order.Ring.Int

/-!
# Lib — Maps

Finite maps that remember an iteration order, as association lists with distinct keys.

* `LinkedMap`: iteration in insertion order; writing to a present key keeps its place, a new key
  goes to the end;
* `SplayMap`: iteration in increasing key order;
* `Heap`: objects behind references, for records that several maps share.

The two maps carry the invariant of their list as a field.  A client needs only the lookup equations
(`get?_insert`, `get?_erase`), the link between iteration and lookup (`mem_entries`,
`mem_values`) and extensional emptiness (`isEmpty_iff`).
-/

namespace Collections

universe u v

/-! ### Association lists -/

section Assoc

variable {κ : Type u} {ν : Type v} [DecidableEq κ]

/-- Writes at `k`: in place when `k` occurs, at the end otherwise. -/
def assocInsert (k : κ) (v : ν) : List (κ × ν) → List (κ × ν)
  | [] => [(k, v)]
  | e :: rest => if e.1 = k then (k, v) :: rest else e :: assocInsert k v rest

def assocErase (k : κ) (l : List (κ × ν)) : List (κ × ν) :=
  l.filter (fun e => e.1 ≠ k)

theorem lookup_cons_ite (k : κ) (p : κ × ν) (l : List (κ × ν)) :
    (p :: l).lookup k = if k = p.1 then some p.2 else l.lookup k := by
  obtain ⟨a, b⟩ := p
  by_cases e : k = a
  · simp [e]
  · rw [if_neg e, List.lookup_cons, beq_eq_false_iff_ne.mpr e]

theorem lookup_assocInsert (k k' : κ) (v : ν) (l : List (κ × ν)) :
    (assocInsert k v l).lookup k' = if k' = k then some v else l.lookup k' := by
  induction l with
  | nil => rw [assocInsert, lookup_cons_ite]
  | cons p rest ih =>
      by_cases hp : p.1 = k
      · simp only [assocInsert, hp, if_true, lookup_cons_ite]
        split <;> rfl
      · simp only [assocInsert, hp, if_false, lookup_cons_ite, ih]
        by_cases e : k' = p.1
        · simp [e, hp]
        · simp [e]

theorem lookup_filter (p : κ → ν → Bool) {l : List (κ × ν)} (h : (l.map Prod.fst).Nodup) (k : κ) :
    (l.filter fun e => p e.1 e.2).lookup k = (l.lookup k).filter (p k) := by
  induction l with
  | nil => rfl
  | cons e rest ih =>
      rw [List.map_cons, List.nodup_cons] at h
      by_cases hk : k = e.1
      · have hrest : rest.lookup k = none := by
          rw [List.lookup_eq_none_iff]
          intro x hx
          rw [bne_iff_ne, hk]
          exact fun heq => h.1 (heq ▸ List.mem_map_of_mem hx)
        rw [lookup_cons_ite, if_pos hk, List.filter_cons, Option.filter_some, ← hk]
        split
        · rw [lookup_cons_ite, if_pos hk]
        · rw [ih h.2, hrest]
          rfl
      · rw [lookup_cons_ite, if_neg hk, ← ih h.2, List.filter_cons]
        split
        · rw [lookup_cons_ite, if_neg hk]
        · rfl

theorem lookup_map_snd {ν' : Type v} (f : κ → ν → ν') (l : List (κ × ν)) (k : κ) :
    (l.map fun e => (e.1, f e.1 e.2)).lookup k = (l.lookup k).map (f k) := by
  induction l with
  | nil => rfl
  | cons e rest ih =>
      rw [List.map_cons, lookup_cons_ite, lookup_cons_ite, ih]
      split
      · next hk =>
        rw [hk]
        rfl
      · rfl

theorem lookup_assocErase (k k' : κ) (l : List (κ × ν)) :
    (assocErase k l).lookup k' = if k' = k then none else l.lookup k' := by
  induction l with
  | nil => simp [assocErase]
  | cons p rest ih =>
      by_cases hp : p.1 = k
      · have he : assocErase k (p :: rest) = assocErase k rest := by simp [assocErase, hp]
        rw [he, ih, lookup_cons_ite, hp]
        split <;> rfl
      · have he : assocErase k (p :: rest) = p :: assocErase k rest := by simp [assocErase, hp]
        rw [he, lookup_cons_ite, lookup_cons_ite, ih]
        by_cases e : k' = p.1
        · simp [e, hp]
        · simp [e]

theorem map_fst_assocInsert (k : κ) (v : ν) (l : List (κ × ν)) :
    (assocInsert k v l).map Prod.fst =
      if k ∈ l.map Prod.fst then l.map Prod.fst else l.map Prod.fst ++ [k] := by
  induction l with
  | nil => rfl
  | cons p rest ih =>
      by_cases hp : p.1 = k
      · simp [assocInsert, hp]
      · have hk : ¬ k = p.1 := fun h => hp h.symm
        by_cases hm : k ∈ rest.map Prod.fst
        · simp only [assocInsert, hp, if_false, List.map_cons, ih, if_pos hm, List.mem_cons, hk,
            false_or]
        · simp only [assocInsert, hp, if_false, List.map_cons, ih, if_neg hm, List.mem_cons, hk,
            false_or, List.cons_append]

theorem nodup_assocInsert (k : κ) (v : ν) {l : List (κ × ν)} (h : (l.map Prod.fst).Nodup) :
    ((assocInsert k v l).map Prod.fst).Nodup := by
  rw [map_fst_assocInsert]
  by_cases hm : k ∈ l.map Prod.fst
  · rwa [if_pos hm]
  · rw [if_neg hm]
    exact List.nodup_append.mpr ⟨h, List.nodup_singleton k, fun a ha b hb => by
      rw [List.mem_singleton] at hb
      exact fun e => hm (hb ▸ e ▸ ha)⟩

/-- With distinct keys an entry of the list is what lookup finds at its key. -/
theorem mem_iff_lookup {l : List (κ × ν)} (h : (l.map Prod.fst).Nodup) (k : κ) (v : ν) :
    (k, v) ∈ l ↔ l.lookup k = some v := by
  induction l with
  | nil => simp
  | cons p rest ih =>
      rw [List.map_cons, List.nodup_cons] at h
      obtain ⟨hp, hr⟩ := h
      rw [lookup_cons_ite, List.mem_cons, ih hr]
      by_cases e : k = p.1
      · have hk : rest.lookup k ≠ some v := fun hl =>
          hp (e ▸ List.mem_map_of_mem ((ih hr).mpr hl))
        rw [if_pos e]
        constructor
        · rintro (rfl | hl)
          · rfl
          · exact absurd hl hk
        · intro hv
          exact .inl (Prod.ext e (Option.some.inj hv).symm)
      · have hne : (k, v) ≠ p := fun hh => e (congrArg Prod.fst hh)
        rw [if_neg e]
        exact ⟨fun hm => hm.resolve_left hne, .inr⟩

end Assoc

/-! ### Insertion-ordered maps -/

/-- A map iterated in insertion order. -/
structure LinkedMap (κ : Type u) (ν : Type v) where
  entries : List (κ × ν)
  nodup : (entries.map Prod.fst).Nodup

namespace LinkedMap

variable {κ : Type u} {ν : Type v}

def empty : LinkedMap κ ν := ⟨[], List.nodup_nil⟩

instance : Inhabited (LinkedMap κ ν) := ⟨empty⟩

def keys (m : LinkedMap κ ν) : List κ := m.entries.map Prod.fst

def values (m : LinkedMap κ ν) : List ν := m.entries.map Prod.snd

def isEmpty (m : LinkedMap κ ν) : Bool := m.entries.isEmpty

def length (m : LinkedMap κ ν) : Nat := m.entries.length

/-- Every value replaced, in its place. -/
def mapValues {ν' : Type v} (m : LinkedMap κ ν) (f : κ → ν → ν') : LinkedMap κ ν' :=
  ⟨m.entries.map fun e => (e.1, f e.1 e.2), by
    rw [List.map_map]
    exact m.nodup⟩

variable [DecidableEq κ]

def get? (m : LinkedMap κ ν) (k : κ) : Option ν := m.entries.lookup k

def contains (m : LinkedMap κ ν) (k : κ) : Bool := (m.get? k).isSome

def insert (m : LinkedMap κ ν) (k : κ) (v : ν) : LinkedMap κ ν :=
  ⟨assocInsert k v m.entries, nodup_assocInsert k v m.nodup⟩

def erase (m : LinkedMap κ ν) (k : κ) : LinkedMap κ ν :=
  ⟨assocErase k m.entries, m.nodup.sublist (List.filter_sublist.map _)⟩

/-- `removeWhere`, with the condition under which an entry stays. -/
def filter (m : LinkedMap κ ν) (p : κ → ν → Bool) : LinkedMap κ ν :=
  ⟨m.entries.filter fun e => p e.1 e.2, m.nodup.sublist (List.filter_sublist.map _)⟩

/-- What is at `k`, changed in its place. -/
def modify (m : LinkedMap κ ν) (k : κ) (f : ν → ν) : LinkedMap κ ν :=
  m.mapValues fun k' v => if k' = k then f v else v

@[simp] theorem get?_empty (k : κ) : (empty : LinkedMap κ ν).get? k = none := rfl

@[simp] theorem get?_mapValues {ν' : Type v} (m : LinkedMap κ ν) (f : κ → ν → ν') (k : κ) :
    (m.mapValues f).get? k = (m.get? k).map (f k) :=
  lookup_map_snd f m.entries k

theorem get?_modify (m : LinkedMap κ ν) (k k' : κ) (f : ν → ν) :
    (m.modify k f).get? k' = if k' = k then (m.get? k').map f else m.get? k' := by
  rw [modify, get?_mapValues]
  split
  · rfl
  · exact Option.map_id'

theorem modify_modify (m : LinkedMap κ ν) (k : κ) (f g : ν → ν) :
    (m.modify k f).modify k g = m.modify k fun v => g (f v) := by
  simp only [modify, mapValues, List.map_map, mk.injEq]
  refine List.map_congr_left fun e _ => ?_
  rw [Function.comp_apply]
  split <;> rfl

theorem get?_filter (m : LinkedMap κ ν) (p : κ → ν → Bool) (k : κ) :
    (m.filter p).get? k = (m.get? k).filter (p k) :=
  lookup_filter p m.nodup k

theorem get?_insert (m : LinkedMap κ ν) (k k' : κ) (v : ν) :
    (m.insert k v).get? k' = if k' = k then some v else m.get? k' :=
  lookup_assocInsert k k' v m.entries

theorem get?_erase (m : LinkedMap κ ν) (k k' : κ) :
    (m.erase k).get? k' = if k' = k then none else m.get? k' :=
  lookup_assocErase k k' m.entries

@[simp] theorem get?_insert_self (m : LinkedMap κ ν) (k : κ) (v : ν) :
    (m.insert k v).get? k = some v := by
  rw [get?_insert, if_pos rfl]

theorem get?_insert_of_ne (m : LinkedMap κ ν) {k k' : κ} (v : ν) (h : k' ≠ k) :
    (m.insert k v).get? k' = m.get? k' := by
  rw [get?_insert, if_neg h]

@[simp] theorem get?_erase_self (m : LinkedMap κ ν) (k : κ) : (m.erase k).get? k = none := by
  rw [get?_erase, if_pos rfl]

theorem get?_erase_of_ne (m : LinkedMap κ ν) {k k' : κ} (h : k' ≠ k) :
    (m.erase k).get? k' = m.get? k' := by
  rw [get?_erase, if_neg h]

theorem mem_entries {m : LinkedMap κ ν} {k : κ} {v : ν} :
    (k, v) ∈ m.entries ↔ m.get? k = some v :=
  mem_iff_lookup m.nodup k v

theorem mem_values {m : LinkedMap κ ν} {v : ν} : v ∈ m.values ↔ ∃ k, m.get? k = some v := by
  simp [values, ← mem_entries]

theorem mem_keys {m : LinkedMap κ ν} {k : κ} : k ∈ m.keys ↔ ∃ v, m.get? k = some v := by
  simp [keys, ← mem_entries]

theorem isEmpty_iff {m : LinkedMap κ ν} : m.isEmpty = true ↔ ∀ k, m.get? k = none := by
  constructor
  · intro h k
    rw [get?, List.isEmpty_iff.mp h]
    rfl
  · intro h
    rw [isEmpty, List.isEmpty_iff]
    refine List.eq_nil_iff_forall_not_mem.mpr fun p hp => ?_
    have := mem_entries.mp (show (p.1, p.2) ∈ m.entries from hp)
    rw [h] at this
    cases this

/-- A new key adds one entry to a count. -/
theorem countP_insert (m : LinkedMap κ ν) (q : κ × ν → Bool) {k : κ} (v : ν)
    (h : m.get? k = none) :
    (m.insert k v).entries.countP q = m.entries.countP q + (q (k, v)).toNat := by
  obtain ⟨l, hl⟩ := m
  change (assocInsert k v l).countP q = l.countP q + _
  replace h : l.lookup k = none := h
  clear hl
  induction l with
  | nil => cases hq : q (k, v) <;> simp [assocInsert, hq]
  | cons p rest ih =>
      rw [lookup_cons_ite] at h
      split at h
      · cases h
      · next hne =>
        rw [assocInsert, if_neg (fun e => hne e.symm), List.countP_cons, List.countP_cons, ih h]
        omega

/-- An erased key takes one entry from a count. -/
theorem countP_erase (m : LinkedMap κ ν) (q : κ × ν → Bool) {k : κ} {v : ν}
    (h : m.get? k = some v) :
    (m.erase k).entries.countP q + (q (k, v)).toNat = m.entries.countP q := by
  obtain ⟨l, hl⟩ := m
  change (assocErase k l).countP q + _ = l.countP q
  replace h : l.lookup k = some v := h
  induction l with
  | nil => cases h
  | cons p rest ih =>
      rw [List.map_cons, List.nodup_cons] at hl
      rw [lookup_cons_ite] at h
      split at h
      · next e =>
        obtain rfl : (k, v) = p := Prod.ext e (Option.some.inj h).symm
        have hrest : assocErase k rest = rest := by
          refine List.filter_eq_self.mpr fun x hx => ?_
          have hne : x.1 ≠ k := fun hk => hl.1 (List.mem_map.mpr ⟨x, hx, hk⟩)
          simpa using hne
        have hself : assocErase k ((k, v) :: rest) = assocErase k rest := by simp [assocErase]
        rw [hself, hrest, List.countP_cons]
        cases q (k, v) <;> rfl
      · next hne =>
        have hskip : assocErase k (p :: rest) = p :: assocErase k rest := by
          have hp : p.1 ≠ k := fun e => hne e.symm
          simp [assocErase, hp]
        rw [hskip, List.countP_cons, List.countP_cons, ← ih hl.2 h]
        omega

theorem length_insert (m : LinkedMap κ ν) {k : κ} (v : ν) (h : m.get? k = none) :
    (m.insert k v).length = m.length + 1 := by
  have hcount := m.countP_insert (fun _ => true) v h
  rwa [List.countP_true] at hcount

theorem length_erase (m : LinkedMap κ ν) {k : κ} {v : ν} (h : m.get? k = some v) :
    (m.erase k).length + 1 = m.length := by
  have hcount := m.countP_erase (fun _ => true) h
  rwa [List.countP_true] at hcount

/-- A key that occurs is written in place. -/
theorem length_insert_of_some (m : LinkedMap κ ν) {k : κ} {v v' : ν} (h : m.get? k = some v') :
    (m.insert k v).length = m.length := by
  obtain ⟨l, hl⟩ := m
  change (assocInsert k v l).length = l.length
  replace h : l.lookup k = some v' := h
  clear hl
  induction l with
  | nil => cases h
  | cons p rest ih =>
      rw [lookup_cons_ite] at h
      by_cases hp : p.1 = k
      · simp [assocInsert, hp]
      · rw [if_neg fun e => hp e.symm] at h
        simp [assocInsert, hp, ih h]

theorem length_filter_le (m : LinkedMap κ ν) (p : κ → ν → Bool) :
    (m.filter p).length ≤ m.length :=
  List.length_filter_le _ _

theorem length_erase_le (m : LinkedMap κ ν) (k : κ) : (m.erase k).length ≤ m.length :=
  List.length_filter_le _ _

theorem eq_empty_of_isEmpty {m : LinkedMap κ ν} (h : m.isEmpty = true) : m = empty := by
  obtain ⟨l, hl⟩ := m
  obtain rfl : l = [] := List.isEmpty_iff.mp h
  rfl

end LinkedMap

/-! ### Key-ordered maps -/

section Sorted

variable {κ : Type u} {ν : Type v} [LinearOrder κ]

/-- Writes at `k`, keeping the keys in increasing order. -/
def sortedInsert (k : κ) (v : ν) : List (κ × ν) → List (κ × ν)
  | [] => [(k, v)]
  | e :: rest =>
    if k < e.1 then (k, v) :: e :: rest
    else if e.1 = k then (k, v) :: rest
    else e :: sortedInsert k v rest

theorem mem_map_fst_sortedInsert {k x : κ} {v : ν} {l : List (κ × ν)}
    (h : x ∈ (sortedInsert k v l).map Prod.fst) : x = k ∨ x ∈ l.map Prod.fst := by
  induction l with
  | nil => exact .inl (by simpa [sortedInsert] using h)
  | cons p rest ih =>
      unfold sortedInsert at h
      split at h
      · simpa using h
      · split at h
        · simp only [List.map_cons, List.mem_cons] at h ⊢
          tauto
        · simp only [List.map_cons, List.mem_cons] at h ⊢
          rcases h with h | h
          · exact .inr (.inl h)
          · rcases ih h with h | h
            · exact .inl h
            · exact .inr (.inr h)

theorem pairwise_sortedInsert (k : κ) (v : ν) {l : List (κ × ν)}
    (h : (l.map Prod.fst).Pairwise (· < ·)) :
    ((sortedInsert k v l).map Prod.fst).Pairwise (· < ·) := by
  induction l with
  | nil => simp [sortedInsert]
  | cons p rest ih =>
      rw [List.map_cons, List.pairwise_cons] at h
      obtain ⟨hp, hr⟩ := h
      unfold sortedInsert
      split
      · next hlt =>
        simp only [List.map_cons, List.pairwise_cons, List.mem_cons]
        refine ⟨?_, hp, hr⟩
        rintro x (rfl | hx)
        · exact hlt
        · exact lt_trans hlt (hp x hx)
      · next hlt =>
        split
        · next heq =>
          rw [List.map_cons, List.pairwise_cons]
          exact ⟨fun x hx => heq ▸ hp x hx, hr⟩
        · next hne =>
          rw [List.map_cons, List.pairwise_cons]
          refine ⟨fun x hx => ?_, ih hr⟩
          rcases mem_map_fst_sortedInsert hx with rfl | hx
          · exact lt_of_le_of_ne (not_lt.mp hlt) hne
          · exact hp x hx

theorem lookup_sortedInsert (k k' : κ) (v : ν) (l : List (κ × ν)) :
    (sortedInsert k v l).lookup k' = if k' = k then some v else l.lookup k' := by
  induction l with
  | nil => rw [sortedInsert, lookup_cons_ite]
  | cons p rest ih =>
      unfold sortedInsert
      split
      · rw [lookup_cons_ite]
      · split
        · next heq =>
          rw [lookup_cons_ite, lookup_cons_ite, heq]
          split <;> rfl
        · next hne =>
          rw [lookup_cons_ite, lookup_cons_ite, ih]
          by_cases e : k' = p.1
          · simp [e, hne]
          · simp [e]

end Sorted

/-- A map iterated in increasing key order. -/
structure SplayMap (κ : Type u) (ν : Type v) [LinearOrder κ] where
  entries : List (κ × ν)
  sorted : (entries.map Prod.fst).Pairwise (· < ·)

namespace SplayMap

variable {κ : Type u} {ν : Type v} [LinearOrder κ]

def empty : SplayMap κ ν := ⟨[], List.Pairwise.nil⟩

instance : Inhabited (SplayMap κ ν) := ⟨empty⟩

def keys (m : SplayMap κ ν) : List κ := m.entries.map Prod.fst

def values (m : SplayMap κ ν) : List ν := m.entries.map Prod.snd

def isEmpty (m : SplayMap κ ν) : Bool := m.entries.isEmpty

def length (m : SplayMap κ ν) : Nat := m.entries.length

def get? (m : SplayMap κ ν) (k : κ) : Option ν := m.entries.lookup k

def insert (m : SplayMap κ ν) (k : κ) (v : ν) : SplayMap κ ν :=
  ⟨sortedInsert k v m.entries, pairwise_sortedInsert k v m.sorted⟩

def erase (m : SplayMap κ ν) (k : κ) : SplayMap κ ν :=
  ⟨assocErase k m.entries, m.sorted.sublist (List.filter_sublist.map _)⟩

@[simp] theorem get?_empty (k : κ) : (empty : SplayMap κ ν).get? k = none := rfl

theorem nodup (m : SplayMap κ ν) : (m.entries.map Prod.fst).Nodup :=
  m.sorted.imp fun h => ne_of_lt h

theorem get?_insert (m : SplayMap κ ν) (k k' : κ) (v : ν) :
    (m.insert k v).get? k' = if k' = k then some v else m.get? k' :=
  lookup_sortedInsert k k' v m.entries

theorem get?_erase (m : SplayMap κ ν) (k k' : κ) :
    (m.erase k).get? k' = if k' = k then none else m.get? k' :=
  lookup_assocErase k k' m.entries

@[simp] theorem get?_insert_self (m : SplayMap κ ν) (k : κ) (v : ν) :
    (m.insert k v).get? k = some v := by
  rw [get?_insert, if_pos rfl]

theorem get?_insert_of_ne (m : SplayMap κ ν) {k k' : κ} (v : ν) (h : k' ≠ k) :
    (m.insert k v).get? k' = m.get? k' := by
  rw [get?_insert, if_neg h]

@[simp] theorem get?_erase_self (m : SplayMap κ ν) (k : κ) : (m.erase k).get? k = none := by
  rw [get?_erase, if_pos rfl]

theorem mem_entries {m : SplayMap κ ν} {k : κ} {v : ν} :
    (k, v) ∈ m.entries ↔ m.get? k = some v :=
  mem_iff_lookup m.nodup k v

theorem mem_values {m : SplayMap κ ν} {v : ν} : v ∈ m.values ↔ ∃ k, m.get? k = some v := by
  simp [values, ← mem_entries]

theorem nodup_entries (m : SplayMap κ ν) : m.entries.Nodup := .of_map Prod.fst m.nodup

/-- The entries of a map that has one more than another, in some order. -/
theorem perm_cons {m m' : SplayMap κ ν} {k : κ} {v : ν} (hnone : m'.get? k = none)
    (h : ∀ k', m.get? k' = if k' = k then some v else m'.get? k') :
    m.entries.Perm ((k, v) :: m'.entries) := by
  have hgone : (k, v) ∉ m'.entries := by
    rw [mem_entries, hnone]
    nofun
  refine (List.perm_ext_iff_of_nodup (nodup_entries _)
    (List.nodup_cons.mpr ⟨hgone, nodup_entries _⟩)).mpr fun x => ?_
  obtain ⟨k', v'⟩ := x
  rw [List.mem_cons, mem_entries, mem_entries, h, Prod.mk.injEq]
  by_cases hk : k' = k
  · simp [hk, hnone, eq_comm]
  · simp [hk]

theorem perm_insert (m : SplayMap κ ν) (k : κ) (v : ν) :
    (m.insert k v).entries.Perm ((k, v) :: (m.erase k).entries) :=
  perm_cons (get?_erase_self _ _) fun k' => by
    rw [get?_insert, get?_erase]
    split <;> rfl

theorem perm_erase {m : SplayMap κ ν} {k : κ} {v : ν} (h : m.get? k = some v) :
    m.entries.Perm ((k, v) :: (m.erase k).entries) :=
  perm_cons (get?_erase_self _ _) fun k' => by
    rw [get?_erase]
    split
    · next hk => rw [hk, h]
    · rfl

theorem erase_of_get_none {m : SplayMap κ ν} {k : κ} (h : m.get? k = none) : m.erase k = m := by
  have hentries : (m.erase k).entries = m.entries := by
    refine List.filter_eq_self.mpr fun x hx => ?_
    have hne : x.1 ≠ k := by
      rintro rfl
      rw [mem_entries.mp (show (x.1, x.2) ∈ m.entries from hx)] at h
      cases h
    simpa using hne
  cases m
  exact (SplayMap.mk.injEq ..).mpr hentries

theorem isEmpty_iff {m : SplayMap κ ν} : m.isEmpty = true ↔ ∀ k, m.get? k = none := by
  constructor
  · intro h k
    rw [get?, List.isEmpty_iff.mp h]
    rfl
  · intro h
    rw [isEmpty, List.isEmpty_iff]
    refine List.eq_nil_iff_forall_not_mem.mpr fun p hp => ?_
    have := mem_entries.mp (show (p.1, p.2) ∈ m.entries from hp)
    rw [h] at this
    cases this

end SplayMap

/-! ### Shared objects -/

abbrev Ref := Nat

/-- Objects that are reached through references and never freed. -/
structure Heap (α : Type u) where
  cells : List α

namespace Heap

variable {α : Type u}

def empty : Heap α := ⟨[]⟩

instance : Inhabited (Heap α) := ⟨empty⟩

/-- The reference the next allocation returns. -/
def next (h : Heap α) : Ref := h.cells.length

def get? (h : Heap α) (r : Ref) : Option α := h.cells[r]?

def alloc (h : Heap α) (a : α) : Heap α := ⟨h.cells ++ [a]⟩

def modify (h : Heap α) (r : Ref) (f : α → α) : Heap α := ⟨h.cells.modify r f⟩

@[simp] theorem get?_empty (r : Ref) : (empty : Heap α).get? r = none := rfl

theorem get?_next (h : Heap α) : h.get? h.next = none :=
  List.getElem?_eq_none (Nat.le_refl _)

theorem lt_next {h : Heap α} {r : Ref} {a : α} (hr : h.get? r = some a) : r < h.next := by
  by_contra hn
  rw [get?, List.getElem?_eq_none (Nat.not_lt.mp hn)] at hr
  cases hr

theorem get?_alloc (h : Heap α) (a : α) (r : Ref) :
    (h.alloc a).get? r = if r = h.next then some a else h.get? r := by
  unfold alloc get? next
  by_cases e : r = h.cells.length
  · simp [e]
  · rw [if_neg e]
    rcases Nat.lt_or_gt_of_ne e with hlt | hgt
    · exact List.getElem?_append_left hlt
    · rw [List.getElem?_eq_none (by simp; omega), List.getElem?_eq_none (by omega)]

theorem get?_alloc_of_some {h : Heap α} {r : Ref} {a : α} (b : α) (hr : h.get? r = some a) :
    (h.alloc b).get? r = some a := by
  rw [get?_alloc, if_neg (Nat.ne_of_lt (lt_next hr)), hr]

theorem get?_modify (h : Heap α) (r r' : Ref) (f : α → α) :
    (h.modify r f).get? r' = if r' = r then (h.get? r).map f else h.get? r' := by
  unfold modify get?
  rw [List.getElem?_modify]
  by_cases e : r = r'
  · subst e
    simp
  · rw [if_neg (fun hh => e hh.symm)]
    simp [e]

theorem modify_of_none {h : Heap α} {r : Ref} (hr : h.get? r = none) (f : α → α) :
    h.modify r f = h := by
  have hle : h.cells.length ≤ r := List.getElem?_eq_none_iff.mp hr
  rw [modify, List.modify_eq_self hle]

end Heap

end Collections
