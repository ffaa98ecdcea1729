import Mathlib.Algebra.Order.Ring.Int
import Mathlib.Algebra.BigOperators.Group.List.Basic
import Mathlib.Data.List.Nodup

/-!
# Lib — Custody

Things that are taken into custody, given back, and then disposed of one at a time.

* `Move`: the four moves, each with the event that records it;
* `Sound.move`: what a record says of a custody: everything taken is outstanding or finished, and
  nothing is started twice, or before it was given back;
* `Move.total`: what the outstanding things weigh together.
-/

namespace Custody

universe u

variable {α : Type u}

inductive Event (α : Type u) where
  | taken (a : α)
  | returned (a : α)
  | started (a : α)
  | finished (a : α)
  deriving DecidableEq, Repr

def Event.item : Event α → α
  | taken a | returned a | started a | finished a => a

structure Stages (α : Type u) where
  held : List α
  queued : List α
  running : Option α

/-- Held, queued, or just being disposed of. -/
def Stages.outstanding (s : Stages α) : List α := s.held ++ s.queued ++ s.running.toList

inductive Move : Stages α → Event α → Stages α → Prop where
  | take (held queued : List α) (running : Option α) (a : α) :
      Move ⟨held, queued, running⟩ (.taken a) ⟨held ++ [a], queued, running⟩
  | giveBack (front back queued : List α) (running : Option α) (a : α) :
      Move ⟨front ++ a :: back, queued, running⟩ (.returned a)
        ⟨front ++ back, queued ++ [a], running⟩
  | start (held queued : List α) (a : α) :
      Move ⟨held, a :: queued, none⟩ (.started a) ⟨held, queued, some a⟩
  | finish (held queued : List α) (a : α) :
      Move ⟨held, queued, some a⟩ (.finished a) ⟨held, queued, none⟩

variable {s s' : Stages α} {e : Event α} {log : List (Event α)}

/-! ### What is outstanding -/

namespace Move

theorem outstanding_taken {a : α} (h : Move s (.taken a) s') :
    List.Perm s'.outstanding (a :: s.outstanding) := by
  cases h with
  | take held queued running =>
      simp only [Stages.outstanding, List.append_assoc, List.singleton_append]
      exact List.perm_middle

theorem outstanding_returned {a : α} (h : Move s (.returned a) s') :
    List.Perm s'.outstanding s.outstanding := by
  cases h with
  | giveBack front back queued running =>
      simp only [Stages.outstanding, List.append_assoc, List.cons_append]
      refine List.Perm.append_left front ?_
      rw [← List.append_assoc, ← List.append_assoc]
      exact List.perm_middle

theorem outstanding_started {a : α} (h : Move s (.started a) s') :
    List.Perm s'.outstanding s.outstanding := by
  cases h with
  | start held queued =>
      simp only [Stages.outstanding, Option.toList_some, Option.toList_none, List.append_nil]
      rw [List.append_assoc]
      exact List.Perm.append_left held (List.perm_append_singleton a queued)

theorem outstanding_finished {a : α} (h : Move s (.finished a) s') :
    List.Perm (a :: s'.outstanding) s.outstanding := by
  cases h with
  | finish held queued =>
      simp only [Stages.outstanding, Option.toList_some, Option.toList_none, List.append_nil]
      exact (List.perm_append_singleton a (held ++ queued)).symm

end Move

/-- What the outstanding things weigh together. -/
def Stages.total (s : Stages α) (f : α → Nat) : Nat := (s.outstanding.map f).sum

theorem Stages.total_one (s : Stages α) : s.total (fun _ => 1) = s.outstanding.length := by
  simp [Stages.total]

theorem Stages.le_total (f : α → Nat) {a : α} (h : a ∈ s.outstanding) : f a ≤ s.total f := by
  obtain ⟨front, back, heq⟩ := List.append_of_mem h
  rw [Stages.total, heq, List.map_append, List.map_cons, List.sum_append, List.sum_cons]
  exact Nat.le_trans (Nat.le_add_right _ _) (Nat.le_add_left _ _)

namespace Move

variable (f : α → Nat) {a : α}

theorem total_taken (h : Move s (.taken a) s') : s'.total f = s.total f + f a := by
  rw [Stages.total, (h.outstanding_taken.map f).sum_eq, List.map_cons, List.sum_cons, Nat.add_comm]
  rfl

theorem total_returned (h : Move s (.returned a) s') : s'.total f = s.total f :=
  (h.outstanding_returned.map f).sum_eq

theorem total_started (h : Move s (.started a) s') : s'.total f = s.total f :=
  (h.outstanding_started.map f).sum_eq

theorem total_finished (h : Move s (.finished a) s') : s'.total f + f a = s.total f := by
  rw [Stages.total, Stages.total, ← (h.outstanding_finished.map f).sum_eq, List.map_cons,
    List.sum_cons, Nat.add_comm]

end Move

/-! ### What a record says -/

/-- `log` is a record of how the stages came about. -/
structure Sound (s : Stages α) (log : List (Event α)) : Prop where
  nodup : s.outstanding.Nodup
  known : ∀ e ∈ log, .taken e.item ∈ log
  kept : ∀ a, .taken a ∈ log → a ∈ s.outstanding ∨ .finished a ∈ log
  present : ∀ a ∈ s.outstanding, .taken a ∈ log ∧ .finished a ∉ log
  queued : ∀ a ∈ s.queued, .returned a ∈ log
  started : ∀ a, .started a ∈ log → a ∈ s.running ∨ .finished a ∈ log
  ordered : ∀ front a back, log = front ++ .started a :: back →
    .returned a ∈ front ∧ .started a ∉ front

namespace Sound

theorem empty : Sound (⟨[], [], none⟩ : Stages α) [] where
  nodup := .nil
  known := nofun
  kept := nofun
  present := nofun
  queued := nofun
  started := nofun
  ordered front a back h := by cases front <;> cases h

/-- The order of a record that grows by one event. -/
theorem ordered_snoc (h : Sound s log)
    (hnew : ∀ a, e = .started a → .returned a ∈ log ∧ .started a ∉ log) :
    ∀ front a back, log ++ [e] = front ++ .started a :: back →
      .returned a ∈ front ∧ .started a ∉ front := by
  intro front a back heq
  rcases List.eq_nil_or_concat' back with rfl | ⟨back, last, rfl⟩
  · obtain ⟨rfl, hlast⟩ := List.append_inj' heq rfl
    exact hnew a (List.singleton_inj.mp hlast)
  · rw [← List.cons_append, ← List.append_assoc] at heq
    obtain ⟨rfl, -⟩ := List.append_inj' heq rfl
    exact h.ordered front a back rfl

theorem known_snoc (h : Sound s log) (hitem : .taken e.item ∈ log ++ [e]) :
    ∀ e' ∈ log ++ [e], .taken e'.item ∈ log ++ [e] := by
  intro e' he'
  rcases List.mem_append.mp he' with hold | hnew
  · exact List.mem_append_left _ (h.known e' hold)
  · rw [List.mem_singleton.mp hnew]
    exact hitem

/-- **A move keeps the record sound**, if what it takes has not been taken before. -/
theorem move (h : Sound s log) (hm : Move s e s') (hfresh : ∀ a, e = .taken a → e ∉ log) :
    Sound s' (log ++ [e]) := by
  cases hm with
  | take held queued running a =>
      have hperm := (Move.take held queued running a).outstanding_taken
      have hnew : a ∉ (⟨held, queued, running⟩ : Stages α).outstanding := fun hold =>
        hfresh a rfl (h.present a hold).1
      have hunfinished : .finished a ∉ log := fun hfinished => hfresh a rfl (h.known _ hfinished)
      refine ⟨hperm.nodup_iff.mpr (List.nodup_cons.mpr ⟨hnew, h.nodup⟩), ?_, ?_, ?_, ?_, ?_,
        h.ordered_snoc nofun⟩
      · exact h.known_snoc (List.mem_append_right _ (List.mem_singleton.mpr rfl))
      · intro b hb
        rw [hperm.mem_iff, List.mem_cons]
        rcases List.mem_append.mp hb with hold | hself
        · exact (h.kept b hold).imp .inr (List.mem_append_left _)
        · cases List.mem_singleton.mp hself
          exact .inl (.inl rfl)
      · intro b hb
        rw [hperm.mem_iff, List.mem_cons] at hb
        rcases hb with rfl | hold
        · simpa using hunfinished
        · obtain ⟨htaken, hfinished⟩ := h.present b hold
          simpa using ⟨.inl htaken, hfinished⟩
      · intro b hb
        exact List.mem_append_left _ (h.queued b hb)
      · intro b hb
        simp only [List.mem_append, List.mem_singleton, reduceCtorEq, or_false] at hb ⊢
        exact h.started b hb
  | giveBack front back queued running a =>
      have hperm := (Move.giveBack front back queued running a).outstanding_returned
      have hheld : a ∈ (⟨front ++ a :: back, queued, running⟩ : Stages α).outstanding := by
        simp [Stages.outstanding]
      refine ⟨hperm.nodup_iff.mpr h.nodup, ?_, ?_, ?_, ?_, ?_, h.ordered_snoc nofun⟩
      · exact h.known_snoc (List.mem_append_left _ (h.present a hheld).1)
      · intro b hb
        simp only [List.mem_append, List.mem_singleton, reduceCtorEq, or_false] at hb ⊢
        rw [hperm.mem_iff]
        exact h.kept b hb
      · intro b hb
        simp only [List.mem_append, List.mem_singleton, reduceCtorEq, or_false]
        exact h.present b (hperm.mem_iff.mp hb)
      · intro b hb
        rcases List.mem_append.mp hb with hold | hself
        · exact List.mem_append_left _ (h.queued b hold)
        · rw [List.mem_singleton.mp hself]
          exact List.mem_append_right _ (List.mem_singleton.mpr rfl)
      · intro b hb
        simp only [List.mem_append, List.mem_singleton, reduceCtorEq, or_false] at hb ⊢
        exact h.started b hb
  | start held queued a =>
      have hperm := (Move.start held queued a).outstanding_started
      have hheld : a ∈ (⟨held, a :: queued, none⟩ : Stages α).outstanding := by
        simp [Stages.outstanding]
      have hunstarted : .started a ∉ log := fun hstarted =>
        (h.started a hstarted).elim (fun hrunning => nomatch hrunning) (h.present a hheld).2
      refine ⟨hperm.nodup_iff.mpr h.nodup, ?_, ?_, ?_, ?_, ?_, h.ordered_snoc ?_⟩
      · exact h.known_snoc (List.mem_append_left _ (h.present a hheld).1)
      · intro b hb
        simp only [List.mem_append, List.mem_singleton, reduceCtorEq, or_false] at hb ⊢
        rw [hperm.mem_iff]
        exact h.kept b hb
      · intro b hb
        simp only [List.mem_append, List.mem_singleton, reduceCtorEq, or_false]
        exact h.present b (hperm.mem_iff.mp hb)
      · intro b hb
        exact List.mem_append_left _ (h.queued b (List.mem_cons_of_mem _ hb))
      · intro b hb
        rcases List.mem_append.mp hb with hold | hself
        · exact .inr (List.mem_append_left _ ((h.started b hold).resolve_left nofun))
        · cases List.mem_singleton.mp hself
          exact .inl rfl
      · intro b hb
        cases hb
        exact ⟨h.queued a List.mem_cons_self, hunstarted⟩
  | finish held queued a =>
      have hperm := (Move.finish held queued a).outstanding_finished
      have hnodup := List.nodup_cons.mp (hperm.nodup_iff.mpr h.nodup)
      have hheld := hperm.mem_iff.mp List.mem_cons_self
      refine ⟨hnodup.2, ?_, ?_, ?_, ?_, ?_, h.ordered_snoc nofun⟩
      · exact h.known_snoc (List.mem_append_left _ (h.present a hheld).1)
      · intro b hb
        simp only [List.mem_append, List.mem_singleton, reduceCtorEq, or_false] at hb
        rcases h.kept b hb with hout | hfinished
        · rcases List.mem_cons.mp (hperm.mem_iff.mpr hout) with rfl | hout'
          · exact .inr (List.mem_append_right _ (List.mem_singleton.mpr rfl))
          · exact .inl hout'
        · exact .inr (List.mem_append_left _ hfinished)
      · intro b hb
        obtain ⟨htaken, hunfinished⟩ := h.present b (hperm.mem_iff.mp (List.mem_cons_of_mem _ hb))
        refine ⟨List.mem_append_left _ htaken, fun hfinished => ?_⟩
        rcases List.mem_append.mp hfinished with hold | hself
        · exact hunfinished hold
        · cases List.mem_singleton.mp hself
          exact hnodup.1 hb
      · intro b hb
        exact List.mem_append_left _ (h.queued b hb)
      · intro b hb
        simp only [List.mem_append, List.mem_singleton, reduceCtorEq, or_false] at hb
        rcases h.started b hb with hrunning | hfinished
        · obtain rfl := Option.some.inj hrunning
          exact .inr (List.mem_append_right _ (List.mem_singleton.mpr rfl))
        · exact .inr (List.mem_append_left _ hfinished)

/-- Once nothing is outstanding, all that was taken has been disposed of. -/
theorem finished (h : Sound s log) (hnone : s.outstanding = []) {a : α} (ha : .taken a ∈ log) :
    .finished a ∈ log := by
  refine (h.kept a ha).resolve_left ?_
  rw [hnone]
  exact List.not_mem_nil

end Sound

end Custody
