import Mathlib.Data.List.Nodup
import Connectanum.State.Value

/-!
# State — Ids

`WampIdGenerator` draws the identifiers of one domain in sequence from `min` to `max` and then
starts again at `min`; nothing asks whether an id that comes round again is still in use.
-/

namespace Connectanum

structure WampIdGenerator where
  min : Nat
  max : Nat
  current : Nat
  min_pos : 0 < min
  min_lt_max : min < max
  min_le : min ≤ current + 1
  le_max : current ≤ max

namespace WampIdGenerator

/-- The generator that the registry builds: ids in `1 .. 2^53 - 1`, none drawn yet. -/
def initial : WampIdGenerator where
  min := 1
  max := 0x1FFFFFFFFFFFFF
  current := 0
  min_pos := by decide
  min_lt_max := by decide
  min_le := by decide
  le_max := by decide

instance : Inhabited WampIdGenerator := ⟨initial⟩

/-- The constructor. -/
def create (min max : Int) : Except String WampIdGenerator :=
  if h : min ≤ 0 ∨ max ≤ min then .error s!"Invalid id range [{min}, {max}]"
  else
    .ok
      { min := min.toNat
        max := max.toNat
        current := min.toNat - 1
        min_pos := by omega
        min_lt_max := by omega
        min_le := by omega
        le_max := by omega }

/-- The id `next()` returns, which is also the generator's new position. -/
def nextId (g : WampIdGenerator) : Nat :=
  if g.current ≥ g.max then g.min
  else if g.current + 1 > g.max then g.min
  else g.current + 1

theorem min_le_nextId (g : WampIdGenerator) : g.min ≤ g.nextId := by
  have := g.min_le
  unfold nextId
  split
  · exact Nat.le_refl _
  · split <;> omega

theorem nextId_le_max (g : WampIdGenerator) : g.nextId ≤ g.max := by
  have := g.min_lt_max
  unfold nextId
  split
  · omega
  · split <;> omega

/-- `next()`. -/
def next (g : WampIdGenerator) : WampIdGenerator :=
  { g with
    current := g.nextId
    min_le := Nat.le_succ_of_le g.min_le_nextId
    le_max := g.nextId_le_max }

/-- Every id of the range has been drawn: the next draw starts again at `min`. -/
def Exhausted (g : WampIdGenerator) : Prop := g.max ≤ g.current

instance (g : WampIdGenerator) : Decidable g.Exhausted := inferInstanceAs (Decidable (_ ≤ _))

@[simp] theorem next_current (g : WampIdGenerator) : g.next.current = g.nextId := rfl

theorem nextId_of_not_exhausted {g : WampIdGenerator} (h : ¬ g.Exhausted) :
    g.nextId = g.current + 1 := by
  unfold Exhausted at h
  rw [nextId, if_neg (by omega), if_neg (by omega)]

theorem nextId_of_exhausted {g : WampIdGenerator} (h : g.Exhausted) : g.nextId = g.min :=
  if_pos h

/-! ### Calls in a row

The ids of the range follow each other in a circle: the id drawn after `n` calls is `n` places behind
the first one, counted around the circle.
-/

/-- How many ids the range has. -/
def size (g : WampIdGenerator) : Nat := g.max - g.min + 1

/-- The place of the next id, before the wrap-around. -/
def place (g : WampIdGenerator) : Nat := g.current + 1 - g.min

/-- What `next()` returns in so many calls. -/
def draw : Nat → WampIdGenerator → List Nat
  | 0, _ => []
  | calls + 1, g => g.nextId :: draw calls g.next

theorem nextId_eq (g : WampIdGenerator) : g.nextId = g.min + g.place % g.size := by
  have hlt := g.min_lt_max
  have hle := g.le_max
  have hmin := g.min_le
  by_cases h : g.Exhausted
  · have hplace : g.place = g.size := by
      simp only [Exhausted] at h
      simp only [place, size]
      omega
    rw [nextId_of_exhausted h, hplace, Nat.mod_self, Nat.add_zero]
  · have hplace : g.place < g.size := by
      simp only [Exhausted] at h
      simp only [place, size]
      omega
    rw [nextId_of_not_exhausted h, Nat.mod_eq_of_lt hplace, place]
    omega

theorem place_next (g : WampIdGenerator) : g.next.place = g.place % g.size + 1 := by
  have h : g.next.place = g.nextId + 1 - g.min := rfl
  rw [h, nextId_eq]
  omega

theorem draw_eq (calls : Nat) (g : WampIdGenerator) {k : Nat} (hk : k % g.size = g.place % g.size) :
    g.draw calls = (List.range' k calls).map fun i => g.min + i % g.size := by
  induction calls generalizing g k with
  | zero => rfl
  | succ calls ih =>
      -- the next generator stands one place further, reduced to the circle
      have hnext : (k + 1) % g.next.size = g.next.place % g.next.size := by
        change (k + 1) % g.size = g.next.place % g.size
        rw [place_next, Nat.add_mod, hk, Nat.mod_add_mod, Nat.add_mod_mod, Nat.mod_add_mod]
      rw [draw, ih g.next hnext, List.range'_succ, List.map_cons, nextId_eq, hk]
      rfl

/-- Ids at places less than a whole round apart differ. -/
theorem nodup_round (g : WampIdGenerator) {k n : Nat} (hn : n ≤ g.size) :
    ((List.range' k n).map fun i => g.min + i % g.size).Nodup := by
  refine List.Nodup.map_on ?_ List.nodup_range'
  intro i hi j hj h
  rw [List.mem_range'_1] at hi hj
  have hmod : i % g.size = j % g.size := Nat.add_left_cancel h
  have hij := Nat.sub_mod_eq_zero_of_mod_eq hmod
  have hji := Nat.sub_mod_eq_zero_of_mod_eq hmod.symm
  rw [Nat.mod_eq_of_lt (by omega)] at hij hji
  omega

/-- Every id that `next` returns is one of the configured range, and a whole round of calls, begun
anywhere, returns no id twice. -/
theorem draw_within_and_distinct {min max : Int} {g : WampIdGenerator} (h : create min max = .ok g)
    (calls : Nat) :
    (∀ id ∈ g.draw calls, min ≤ id ∧ id ≤ max) ∧
      ∀ i, (((g.draw calls).drop i).take (max - min + 1).toNat).Nodup := by
  by_cases hrange : min ≤ 0 ∨ max ≤ min
  · rw [create, dif_pos hrange] at h
    cases h
  rw [create, dif_neg hrange] at h
  obtain ⟨hmin, hmax⟩ : (g.min : Int) = min ∧ (g.max : Int) = max := by
    obtain rfl := Except.ok.inj h
    exact ⟨Int.toNat_of_nonneg (by omega), Int.toNat_of_nonneg (by omega)⟩
  have hdraw := draw_eq calls g (k := g.place) rfl
  refine ⟨?_, ?_⟩
  · intro id hid
    rw [hdraw, List.mem_map] at hid
    obtain ⟨i, -, rfl⟩ := hid
    have hlt : i % g.size < g.size := Nat.mod_lt i (Nat.succ_pos _)
    have hsize : g.size = g.max - g.min + 1 := rfl
    have := g.min_lt_max
    omega
  · intro i
    have hsize : (max - min + 1).toNat = g.size := by
      simp only [size]
      omega
    rw [hdraw, ← List.map_drop, ← List.map_take, List.drop_range', hsize]
    rcases Nat.le_total (calls - i) g.size with hle | hle
    · rw [List.take_range'_of_length_le hle]
      exact g.nodup_round hle
    · rw [List.take_range'_of_length_ge hle]
      exact g.nodup_round (Nat.le_refl _)

/-- Seven calls on the range `3 .. 5`: around the end twice. -/
theorem draw_three_to_five :
    ∃ g, create 3 5 = .ok g ∧ g.draw 7 = [3, 4, 5, 3, 4, 5, 3] ∧
      (∀ id ∈ g.draw 7, (3 : Int) ≤ id ∧ (id : Int) ≤ 5) ∧ (((g.draw 7).drop 2).take 3).Nodup :=
  have h := @draw_within_and_distinct 3 5 _ rfl 7
  ⟨_, rfl, rfl, h.1, h.2 2⟩

end WampIdGenerator

/-- `WampIdAllocatorRegistry`: one generator for each id domain of the store. -/
structure WampIdAllocatorRegistry where
  session : WampIdGenerator := .initial
  subscription : WampIdGenerator := .initial
  registration : WampIdGenerator := .initial
  invocation : WampIdGenerator := .initial
  publication : WampIdGenerator := .initial
  request : WampIdGenerator := .initial

end Connectanum
