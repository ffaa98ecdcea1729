import Connectanum.Lib.Maps

/-!
# Lib — Handles

Tables that give out each handle once.  A `Scheme` says which handle comes after which, and where
they end; a `Table` counts through them and keeps what the handles stand for.

* `Table.insert_cases`: in a table whose handles are all spent, an insertion gives out the next one
  or changes nothing;
* `Table.Later`: what any operations can make of a table; a handle that is gone stays gone
  (`Table.Later.none`).
-/

namespace Handles

open Collections

universe u

/-- The handle that follows each handle, as long as there is one to give out. -/
structure Scheme where
  next : Nat → Option Nat
  lt_next : ∀ {n m}, next n = some m → n < m

structure Table (α : Type u) where
  nextId : Nat
  entries : LinkedMap Nat α

namespace Table

variable {α : Type u} {scheme : Scheme} {t t' t'' : Table α}

def get? (t : Table α) (id : Nat) : Option α := t.entries.get? id

/-- The counter moves first, and an entry that stands in the way is left alone. -/
def insert (scheme : Scheme) (t : Table α) (a : α) : Option Nat × Table α :=
  match scheme.next t.nextId with
  | none => (none, t)
  | some successor =>
      if t.entries.contains t.nextId then (none, { t with nextId := successor })
      else (some t.nextId, ⟨successor, t.entries.insert t.nextId a⟩)

def remove (t : Table α) (id : Nat) : Table α := { t with entries := t.entries.erase id }

def clear (t : Table α) : Table α := { t with entries := .empty }

@[simp] theorem get?_remove_self (t : Table α) (id : Nat) : (t.remove id).get? id = none := by
  rw [get?, remove, LinkedMap.get?_erase, if_pos rfl]

/-- The handles that stand for something have been given out. -/
def Spent (t : Table α) : Prop := ∀ id, (t.get? id).isSome → id < t.nextId

theorem insert_cases (scheme : Scheme) (h : t.Spent) (a : α) :
    (scheme.next t.nextId = none ∧ t.insert scheme a = (none, t)) ∨
      ∃ successor, scheme.next t.nextId = some successor ∧
        t.insert scheme a = (some t.nextId, ⟨successor, t.entries.insert t.nextId a⟩) := by
  unfold insert
  cases hnext : scheme.next t.nextId with
  | none => exact .inl ⟨rfl, rfl⟩
  | some successor =>
      have hfree : t.entries.contains t.nextId = false := by
        cases hcontains : t.entries.contains t.nextId with
        | false => rfl
        | true => exact absurd (h t.nextId hcontains) (Nat.lt_irrefl _)
      refine .inr ⟨successor, rfl, ?_⟩
      dsimp only
      rw [hfree, if_neg Bool.false_ne_true]

theorem spent_empty (n : Nat) : (⟨n, .empty⟩ : Table α).Spent := fun _ h => nomatch h

theorem Spent.insert (scheme : Scheme) (h : t.Spent) (a : α) : (t.insert scheme a).2.Spent := by
  rcases insert_cases scheme h a with ⟨-, heq⟩ | ⟨successor, hnext, heq⟩
  · rw [heq]
    exact h
  · rw [heq]
    intro id hid
    have hlt := scheme.lt_next hnext
    simp only [get?, LinkedMap.get?_insert] at hid
    split at hid
    · next hself =>
      rw [hself]
      exact hlt
    · exact Nat.lt_trans (h id hid) hlt

theorem Spent.remove (h : t.Spent) (id : Nat) : (t.remove id).Spent := by
  intro id' hid'
  simp only [get?, Table.remove, LinkedMap.get?_erase] at hid'
  split at hid'
  · cases hid'
  · exact h id' hid'

theorem Spent.clear : t.clear.Spent := fun _ h => nomatch h

/-- What operations can make of a table: handles are spent, and entries go. -/
structure Later (t t' : Table α) : Prop where
  counter : t.nextId ≤ t'.nextId
  entry : ∀ id, id < t.nextId → t'.get? id = t.get? id ∨ t'.get? id = none

theorem Later.refl (t : Table α) : Later t t := ⟨Nat.le_refl _, fun _ _ => .inl rfl⟩

theorem Later.trans (h : Later t t') (h' : Later t' t'') : Later t t'' where
  counter := Nat.le_trans h.counter h'.counter
  entry id hid := by
    rcases h'.entry id (Nat.lt_of_lt_of_le hid h.counter) with hsame | hnone
    · rcases h.entry id hid with hsame' | hnone'
      · exact .inl (hsame.trans hsame')
      · exact .inr (hsame.trans hnone')
    · exact .inr hnone

/-- **A handle that is gone stays gone.** -/
theorem Later.none {id : Nat} (h : Later t t') (hid : id < t.nextId) (hgone : t.get? id = none) :
    t'.get? id = none := by
  rcases h.entry id hid with hsame | hnone
  · exact hsame.trans hgone
  · exact hnone

theorem later_insert (scheme : Scheme) (h : t.Spent) (a : α) : Later t (t.insert scheme a).2 := by
  rcases insert_cases scheme h a with ⟨-, heq⟩ | ⟨successor, hnext, heq⟩
  · rw [heq]
    exact .refl t
  · rw [heq]
    refine ⟨Nat.le_of_lt (scheme.lt_next hnext), fun id hid => .inl ?_⟩
    exact LinkedMap.get?_insert_of_ne _ _ (Nat.ne_of_lt hid)

theorem later_remove (id : Nat) : Later t (t.remove id) where
  counter := Nat.le_refl _
  entry id' _ := by
    simp only [get?, Table.remove, LinkedMap.get?_erase]
    split
    · exact .inr rfl
    · exact .inl rfl

theorem later_clear : Later t t.clear := ⟨Nat.le_refl _, fun _ _ => .inr rfl⟩

end Table

end Handles
