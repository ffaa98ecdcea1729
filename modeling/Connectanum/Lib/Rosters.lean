import Mathlib.Data.Multiset.AddSub
import Connectanum.Lib.Maps
import Connectanum.Lib.Runs

/-!
# Lib — Rosters

A table whose rows have members, told by events: a row opens, members join and leave, and the row
closes when the last one has left.

* `Roster.apply`: the table that an event leaves;
* `Roster.Allows`: the events that may come.  Members of an exclusive row are distinct;
* `alternates`: joining and leaving an exclusive row alternate for each member;
* `opened_before`, `closed_after`, `closed_next`: a row is opened before anybody joins it, and closed
  right after the last member has left;
* `Mirrors`: the rows are those of a relation, with the members in any order; how the events of one
  change are followed.
-/

namespace Collections

open Machine

inductive RosterEvent (κ ι σ : Type) where
  | opened (key : κ) (info : ι)
  | joined (key : κ) (member : σ)
  | left (key : κ) (member : σ)
  | closed (key : κ)

structure Roster (κ ι σ : Type) where
  rows : LinkedMap κ (ι × List σ) := .empty
  /-- The row whose last member has just left. -/
  emptied : Option κ := none

/-- The values of the list take turns, and the first one is `b`. -/
def Alternates : Bool → List Bool → Prop
  | _, [] => True
  | b, x :: rest => x = b ∧ Alternates (!b) rest

namespace Roster

variable {κ ι σ : Type} [DecidableEq κ] [DecidableEq σ]

/-- The members of a row. -/
def members (r : Roster κ ι σ) (k : κ) : List σ := ((r.rows.get? k).map (·.2)).getD []

def apply (r : Roster κ ι σ) : RosterEvent κ ι σ → Roster κ ι σ
  | .opened k info => { rows := r.rows.insert k (info, []), emptied := none }
  | .joined k s =>
      match r.rows.get? k with
      | none => r
      | some (info, ms) => { rows := r.rows.insert k (info, ms ++ [s]), emptied := none }
  | .left k s =>
      match r.rows.get? k with
      | none => r
      | some (info, ms) =>
          { rows := r.rows.insert k (info, ms.erase s)
            emptied := if (ms.erase s).isEmpty then some k else none }
  | .closed k => { rows := r.rows.erase k, emptied := none }

/-- The events that may come next. -/
def Allows (exclusive : κ → Bool) (r : Roster κ ι σ) : RosterEvent κ ι σ → Prop
  | .opened k _ => r.emptied = none ∧ r.rows.get? k = none
  | .joined k s => r.emptied = none ∧
      ∃ info ms, r.rows.get? k = some (info, ms) ∧ (exclusive k = true → s ∉ ms)
  | .left k s => r.emptied = none ∧ ∃ info ms, r.rows.get? k = some (info, ms) ∧ s ∈ ms
  | .closed k => r.emptied = some k

/-- What an event tells about one member of one row. -/
def change (k : κ) (s : σ) : RosterEvent κ ι σ → Option Bool
  | .joined k' s' => if k' = k ∧ s' = s then some true else none
  | .left k' s' => if k' = k ∧ s' = s then some false else none
  | _ => none

/-! ### One event -/

section

variable {exclusive : κ → Bool} {r : Roster κ ι σ} {k : κ}

omit [DecidableEq σ] in
theorem members_of_get {info : ι} {ms : List σ} (h : r.rows.get? k = some (info, ms)) :
    r.members k = ms := by
  rw [members, h]
  rfl

omit [DecidableEq σ] in
theorem members_insert (rows : LinkedMap κ (ι × List σ)) (k k' : κ) (row : ι × List σ)
    (emptied : Option κ) :
    members { rows := rows.insert k row, emptied := emptied } k' =
      if k' = k then row.2 else members { rows := rows, emptied := emptied } k' := by
  rw [members, LinkedMap.get?_insert]
  split <;> rfl

/-- The emptied row is there, without members. -/
def Tidy (r : Roster κ ι σ) : Prop := ∀ k, r.emptied = some k → ∃ info, r.rows.get? k = some (info, [])

theorem Tidy.apply (e : RosterEvent κ ι σ) (h : r.Allows exclusive e) : (r.apply e).Tidy := by
  intro k hk
  cases e with
  | opened k' info => cases hk
  | closed k' => cases hk
  | joined k' s =>
      obtain ⟨-, info, ms, hrow, -⟩ := h
      simp only [Roster.apply, hrow] at hk
      cases hk
  | left k' s =>
      obtain ⟨-, info, ms, hrow, -⟩ := h
      simp only [Roster.apply, hrow] at hk ⊢
      split at hk
      · next hempty =>
        obtain rfl := Option.some.inj hk
        refine ⟨info, ?_⟩
        rw [LinkedMap.get?_insert_self, List.isEmpty_iff.mp hempty]
      · cases hk

/-- What an event does to the members of a row. -/
def turnout (k : κ) (ms : List σ) : RosterEvent κ ι σ → List σ
  | .joined k' s => if k = k' then ms ++ [s] else ms
  | .left k' s => if k = k' then ms.erase s else ms
  | _ => ms

theorem members_apply (e : RosterEvent κ ι σ) (h : r.Allows exclusive e) (ht : r.Tidy) :
    (r.apply e).members k = turnout k (r.members k) e := by
  cases e with
  | opened k' info =>
      have hnone : r.members k' = [] := by rw [members, h.2]; rfl
      rw [Roster.apply, members_insert]
      split
      · next hk => exact (hk ▸ hnone).symm
      · rfl
  | joined k' s =>
      obtain ⟨-, info, ms, hrow, -⟩ := h
      simp only [Roster.apply, hrow, members_insert, turnout]
      split
      · next hk => rw [hk, members_of_get hrow]
      · rfl
  | left k' s =>
      obtain ⟨-, info, ms, hrow, -⟩ := h
      simp only [Roster.apply, hrow, members_insert, turnout]
      split
      · next hk => rw [hk, members_of_get hrow]
      · rfl
  | closed k' =>
      obtain ⟨info, hrow⟩ := ht k' h
      rw [Roster.apply, members, LinkedMap.get?_erase]
      split
      · next hk => rw [hk, members_of_get hrow]; rfl
      · rfl

theorem nodup_apply (hk : exclusive k = true) (e : RosterEvent κ ι σ) (h : r.Allows exclusive e)
    (ht : r.Tidy) (hn : (r.members k).Nodup) : ((r.apply e).members k).Nodup := by
  rw [members_apply e h ht]
  cases e with
  | opened => exact hn
  | closed => exact hn
  | joined k' s =>
      obtain ⟨-, info, ms, hrow, hnew⟩ := h
      dsimp only [turnout]
      split
      · next hkk =>
        subst hkk
        have hms := members_of_get hrow
        rw [hms] at hn ⊢
        rw [List.nodup_append]
        refine ⟨hn, List.nodup_singleton s, fun a ha b hb => ?_⟩
        obtain rfl := List.mem_singleton.mp hb
        exact fun hab => hnew hk (hab ▸ ha)
      · exact hn
  | left k' s =>
      dsimp only [turnout]
      split
      · exact hn.erase s
      · exact hn

/-! ### Sequences of events -/

variable {r' : Roster κ ι σ} {events xs ys : List (RosterEvent κ ι σ)}

theorem Tidy.run (h : Run Roster.apply (Allows exclusive) r events r') (ht : r.Tidy) : r'.Tidy :=
  h.invariant (P := Tidy) (fun _ e _ hok => .apply e hok) ht

omit [DecidableEq σ] in
theorem tidy_empty : Tidy ({} : Roster κ ι σ) := nofun

/-- **Joining and leaving alternate.** -/
theorem alternates (hk : exclusive k = true) (s : σ)
    (h : Run Roster.apply (Allows exclusive) r events r') (ht : r.Tidy)
    (hn : (r.members k).Nodup) :
    Alternates (decide (s ∉ r.members k)) (events.filterMap (change k s)) := by
  induction h with
  | nil => trivial
  | @cons r r'' e rest hok _ ih =>
      have hrest := ih (.apply e hok) (nodup_apply hk e hok ht hn)
      have hmembers := members_apply (k := k) e hok ht
      rw [List.filterMap_cons]
      cases e with
      | opened k' info =>
          rw [hmembers] at hrest
          exact hrest
      | closed k' =>
          rw [hmembers] at hrest
          exact hrest
      | joined k' s' =>
          obtain ⟨-, info, ms, hrow, hnew⟩ := hok
          dsimp only [change]
          by_cases hkk : k = k'
          · subst hkk
            rw [hmembers.trans (if_pos rfl)] at hrest
            have hms := members_of_get hrow
            by_cases hs : s' = s
            · subst hs
              have hout : s' ∉ r.members k := by
                rw [hms]
                exact hnew hk
              simpa [Alternates, hout] using hrest
            · have hsame : (s ∈ r.members k ++ [s']) ↔ s ∈ r.members k := by
                simp [Ne.symm hs]
              simpa [hs, hsame] using hrest
          · rw [hmembers.trans (if_neg hkk)] at hrest
            simpa [Ne.symm hkk] using hrest
      | left k' s' =>
          obtain ⟨-, info, ms, hrow, hin⟩ := hok
          dsimp only [change]
          by_cases hkk : k = k'
          · subst hkk
            rw [hmembers.trans (if_pos rfl)] at hrest
            have hms := members_of_get hrow
            by_cases hs : s' = s
            · subst hs
              have hin' : s' ∈ r.members k := by
                rw [hms]
                exact hin
              have hout : s' ∉ (r.members k).erase s' := fun hmem => (hn.mem_erase_iff.mp hmem).1 rfl
              simpa [Alternates, hin', hout] using hrest
            · have hsame : (s ∈ (r.members k).erase s') ↔ s ∈ r.members k :=
                List.mem_erase_of_ne (Ne.symm hs)
              simpa [hs, hsame] using hrest
          · rw [hmembers.trans (if_neg hkk)] at hrest
            simpa [Ne.symm hkk] using hrest

/-- A row that is there was opened. -/
theorem opened_of_row (h : Run Roster.apply (Allows exclusive) r events r') {row : ι × List σ}
    (hrow : r'.rows.get? k = some row) (hnone : r.rows.get? k = none) :
    ∃ info, RosterEvent.opened k info ∈ events := by
  induction h with
  | nil =>
      rw [hnone] at hrow
      cases hrow
  | @cons r r'' e rest hok _ ih =>
      cases hfirst : (r.apply e).rows.get? k with
      | none =>
          obtain ⟨info, hmem⟩ := ih hrow hfirst
          exact ⟨info, List.mem_cons_of_mem _ hmem⟩
      | some row' =>
          -- only the opening event puts a row where there was none
          cases e with
          | opened k' info =>
              rw [Roster.apply, LinkedMap.get?_insert] at hfirst
              split at hfirst
              · next hk => exact ⟨info, hk ▸ List.mem_cons_self⟩
              · rw [hnone] at hfirst
                cases hfirst
          | closed k' =>
              rw [Roster.apply, LinkedMap.get?_erase, hnone, ite_self] at hfirst
              cases hfirst
          | joined k' s =>
              obtain ⟨-, info, ms, hrow', -⟩ := hok
              simp only [Roster.apply, hrow', LinkedMap.get?_insert] at hfirst
              split at hfirst
              · next hk =>
                rw [hk, hrow'] at hnone
                cases hnone
              · rw [hnone] at hfirst
                cases hfirst
          | left k' s =>
              obtain ⟨-, info, ms, hrow', -⟩ := hok
              simp only [Roster.apply, hrow', LinkedMap.get?_insert] at hfirst
              split at hfirst
              · next hk =>
                rw [hk, hrow'] at hnone
                cases hnone
              · rw [hnone] at hfirst
                cases hfirst

/-- **A row is opened before anybody joins it.** -/
theorem opened_before {s : σ}
    (h : Run Roster.apply (Allows exclusive) {} (xs ++ .joined k s :: ys) r') :
    ∃ info, RosterEvent.opened k info ∈ xs := by
  obtain ⟨r, hxs, hys⟩ := h.split
  obtain _ | ⟨hok, -⟩ := hys
  obtain ⟨-, info, ms, hrow, -⟩ := hok
  exact opened_of_row hxs hrow rfl

/-- **A row is closed right after a member has left it** … -/
theorem closed_after (h : Run Roster.apply (Allows exclusive) {} (xs ++ .closed k :: ys) r') :
    ∃ s, xs.getLast? = some (.left k s) ∧ (xs.foldl Roster.apply {}).members k = [] := by
  obtain ⟨r, hxs, hys⟩ := h.split
  obtain _ | ⟨hok, -⟩ := hys
  obtain ⟨info, hrow⟩ := Tidy.run hxs tidy_empty k hok
  have hmembers := members_of_get hrow
  rw [hxs.eq_foldl] at hmembers
  rcases List.eq_nil_or_concat xs with rfl | ⟨front, e, rfl⟩
  · cases hxs
    cases hok
  · rw [List.concat_eq_append] at hxs hmembers ⊢
    obtain ⟨r₁, hfront, hlast⟩ := hxs.split
    obtain _ | ⟨hlast, hnil⟩ := hlast
    cases hnil
    rw [List.getLast?_append_of_ne_nil _ (List.cons_ne_nil _ _), List.getLast?_singleton]
    cases e with
    | opened => cases hok
    | closed => cases hok
    | joined k' s =>
        obtain ⟨-, info, ms, hrow, -⟩ := hlast
        simp only [Allows, Roster.apply, hrow] at hok
        cases hok
    | left k' s =>
        obtain ⟨-, info, ms, hrow, -⟩ := hlast
        simp only [Allows, Roster.apply, hrow] at hok
        split at hok
        · obtain rfl := Option.some.inj hok
          exact ⟨s, rfl, hmembers⟩
        · cases hok

/-- … and as soon as the last one has left. -/
theorem closed_next {s : σ}
    (h : Run Roster.apply (Allows exclusive) {} (xs ++ .left k s :: ys) r')
    (hend : r'.emptied = none)
    (hlast : ((xs ++ [RosterEvent.left k s]).foldl Roster.apply {}).members k = []) :
    ys.head? = some (.closed k) := by
  obtain ⟨r, hxs, hys⟩ := h.split
  obtain _ | ⟨hok, hrest⟩ := hys
  obtain ⟨-, info, ms, hrow, -⟩ := hok
  have hemptied : (r.apply (.left k s)).emptied = some k := by
    rw [List.foldl_append, List.foldl_cons, List.foldl_nil, ← hxs.eq_foldl] at hlast
    simp only [Roster.apply, hrow, members_insert, if_true] at hlast ⊢
    rw [hlast]
    rfl
  cases ys with
  | nil =>
      cases hrest
      rw [hemptied] at hend
      cases hend
  | cons e rest =>
      obtain _ | ⟨hok, -⟩ := hrest
      cases e with
      | closed k' =>
          rw [Allows, hemptied] at hok
          rw [Option.some.inj hok]
          rfl
      | opened => exact absurd (hemptied.symm.trans hok.1) (by simp)
      | joined => exact absurd (hemptied.symm.trans hok.1) (by simp)
      | left => exact absurd (hemptied.symm.trans hok.1) (by simp)

/-! ### Following a relation -/

/-- The row `k` is there, with these members in some order. -/
def Has (r : Roster κ ι σ) (k : κ) (info : ι) (ms : Multiset σ) : Prop :=
  ∃ l : List σ, r.rows.get? k = some (info, l) ∧ (l : Multiset σ) = ms

/-- The rows are those of the relation, and no row waits to be closed. -/
structure Mirrors (r : Roster κ ι σ) (listed : κ → ι → Multiset σ → Prop) : Prop where
  settled : r.emptied = none
  has_iff : ∀ k info ms, r.Has k info ms ↔ listed k info ms

namespace Mirrors

variable {listed listed' : κ → ι → Multiset σ → Prop} {info : ι} {ms : Multiset σ} {s : σ}

omit [DecidableEq σ] in
theorem congr (h : r.Mirrors listed) (he : ∀ k info ms, listed' k info ms ↔ listed k info ms) :
    r.Mirrors listed' :=
  ⟨h.settled, fun k info ms => (h.has_iff k info ms).trans (he k info ms).symm⟩

omit [DecidableEq σ] in
/-- The rows after one of them was written. -/
theorem has_insert (rows : LinkedMap κ (ι × List σ)) (k : κ) (info : ι) (l : List σ)
    (emptied : Option κ) (k' : κ) (i : ι) (m : Multiset σ) :
    Has { rows := rows.insert k (info, l), emptied := emptied } k' i m ↔
      (k' = k ∧ i = info ∧ m = l) ∨ (k' ≠ k ∧ Has { rows := rows, emptied := emptied } k' i m) := by
  unfold Has
  rw [LinkedMap.get?_insert]
  by_cases hk : k' = k
  · simp only [hk, if_true, Option.some.injEq, Prod.mk.injEq, true_and, ne_eq, not_true_eq_false,
      false_and, or_false]
    constructor
    · rintro ⟨l', ⟨rfl, rfl⟩, rfl⟩
      exact ⟨rfl, rfl⟩
    · rintro ⟨rfl, rfl⟩
      exact ⟨l, ⟨rfl, rfl⟩, rfl⟩
  · simp [hk]

omit [DecidableEq σ] in
theorem has_erase (rows : LinkedMap κ (ι × List σ)) (k : κ) (emptied : Option κ) (k' : κ) (i : ι)
    (m : Multiset σ) :
    Has { rows := rows.erase k, emptied := emptied } k' i m ↔
      k' ≠ k ∧ Has { rows := rows, emptied := emptied } k' i m := by
  unfold Has
  rw [LinkedMap.get?_erase]
  by_cases hk : k' = k <;> simp [hk]

/-- Somebody joins a row. -/
theorem join (h : r.Mirrors listed) (hin : listed k info ms) (hnew : exclusive k = true → s ∉ ms)
    (he : ∀ k' i m, listed' k' i m ↔
      (k' = k ∧ i = info ∧ m = s ::ₘ ms) ∨ (k' ≠ k ∧ listed k' i m)) :
    ∃ r', Run Roster.apply (Allows exclusive) r [.joined k s] r' ∧ r'.Mirrors listed' := by
  obtain ⟨l, hrow, rfl⟩ := (h.has_iff k info ms).mpr hin
  refine ⟨_, .cons ⟨h.settled, info, l, hrow, hnew⟩ (.nil _), ?_, fun k' i m => ?_⟩
  · rw [Roster.apply, hrow]
  · rw [Roster.apply, hrow]
    dsimp only
    rw [has_insert, he]
    have hmembers : ((l ++ [s] : List σ) : Multiset σ) = s ::ₘ (l : Multiset σ) :=
      Multiset.coe_eq_coe.mpr (List.perm_append_singleton s l)
    rw [hmembers]
    exact or_congr_right (and_congr_right fun _ => h.has_iff k' i m)

/-- A row is opened, and its first member joins. -/
theorem found (h : r.Mirrors listed) (hnone : ∀ i m, ¬ listed k i m)
    (he : ∀ k' i m, listed' k' i m ↔ (k' = k ∧ i = info ∧ m = {s}) ∨ (k' ≠ k ∧ listed k' i m)) :
    ∃ r', Run Roster.apply (Allows exclusive) r [.opened k info, .joined k s] r' ∧
      r'.Mirrors listed' := by
  have hrow : r.rows.get? k = none := by
    cases hk : r.rows.get? k with
    | none => rfl
    | some row => exact absurd ((h.has_iff k row.1 row.2).mp ⟨row.2, hk, rfl⟩) (hnone _ _)
  have hopened : (r.apply (.opened k info)).Mirrors fun k' i m =>
      (k' = k ∧ i = info ∧ m = 0) ∨ (k' ≠ k ∧ listed k' i m) := by
    refine ⟨rfl, fun k' i m => ?_⟩
    rw [Roster.apply, has_insert]
    exact or_congr_right (and_congr_right fun _ => h.has_iff k' i m)
  have hjoined : ∀ k' i m, listed' k' i m ↔ (k' = k ∧ i = info ∧ m = s ::ₘ 0) ∨
      (k' ≠ k ∧ ((k' = k ∧ i = info ∧ m = 0) ∨ (k' ≠ k ∧ listed k' i m))) := by
    intro k' i m
    rw [he]
    refine or_congr_right (and_congr_right fun hk => ?_)
    simp [hk]
  obtain ⟨r', hrun, hr'⟩ := hopened.join (.inl ⟨rfl, rfl, rfl⟩) (fun _ => Multiset.notMem_zero s)
    hjoined
  exact ⟨r', .cons ⟨h.settled, hrow⟩ hrun, hr'⟩

/-- Somebody leaves a row in which others stay. -/
theorem leave (h : r.Mirrors listed) (hin : listed k info ms) (hs : s ∈ ms)
    (hrest : ms.erase s ≠ 0)
    (he : ∀ k' i m, listed' k' i m ↔
      (k' = k ∧ i = info ∧ m = ms.erase s) ∨ (k' ≠ k ∧ listed k' i m)) :
    ∃ r', Run Roster.apply (Allows exclusive) r [.left k s] r' ∧ r'.Mirrors listed' := by
  obtain ⟨l, hrow, rfl⟩ := (h.has_iff k info ms).mpr hin
  rw [Multiset.coe_erase] at hrest he
  have hstay : (l.erase s).isEmpty = false := by
    rw [Bool.eq_false_iff]
    intro hempty
    exact hrest (by rw [List.isEmpty_iff.mp hempty]; rfl)
  refine ⟨_, .cons ⟨h.settled, info, l, hrow, hs⟩ (.nil _), ?_, fun k' i m => ?_⟩
  · simp only [Roster.apply, hrow, hstay]
    rfl
  · simp only [Roster.apply, hrow]
    rw [has_insert, he]
    exact or_congr_right (and_congr_right fun _ => h.has_iff k' i m)

/-- The last member leaves a row, and it is closed. -/
theorem leaveLast (h : r.Mirrors listed) (hin : listed k info ms) (hs : s ∈ ms)
    (hrest : ms.erase s = 0) (he : ∀ k' i m, listed' k' i m ↔ k' ≠ k ∧ listed k' i m) :
    ∃ r', Run Roster.apply (Allows exclusive) r [.left k s, .closed k] r' ∧
      r'.Mirrors listed' := by
  obtain ⟨l, hrow, rfl⟩ := (h.has_iff k info ms).mpr hin
  rw [Multiset.coe_erase, Multiset.coe_eq_zero] at hrest
  have hleft : r.apply (.left k s) =
      { rows := r.rows.insert k (info, []), emptied := some k } := by
    simp only [Roster.apply, hrow, hrest]
    rfl
  refine ⟨_, .cons ⟨h.settled, info, l, hrow, hs⟩ (.cons ?_ (.nil _)), rfl, fun k' i m => ?_⟩
  · rw [hleft]
    rfl
  · rw [hleft, Roster.apply, has_erase, has_insert, he]
    refine and_congr_right fun hk => ?_
    rw [← h.has_iff k' i m]
    simp only [hk, false_and, false_or, not_false_eq_true, true_and, ne_eq]
    rfl

/-- Somebody leaves a row; it is closed if nobody is left. -/
theorem depart (h : r.Mirrors listed) (hin : listed k info ms) (hs : s ∈ ms) {last : Bool}
    (hlast : last = true ↔ ms.erase s = 0)
    (he : ∀ k' i m, listed' k' i m ↔
      (k' = k ∧ (i = info ∧ m = ms.erase s) ∧ last = false) ∨ (k' ≠ k ∧ listed k' i m)) :
    ∃ r', Run Roster.apply (Allows exclusive) r
        (.left k s :: if last then [.closed k] else []) r' ∧ r'.Mirrors listed' := by
  cases last with
  | true =>
      refine h.leaveLast hin hs (hlast.mp rfl) fun k' i m => ?_
      rw [he]
      simp
  | false =>
      have hrest : ms.erase s ≠ 0 := fun h0 => Bool.false_ne_true (hlast.mpr h0)
      refine h.leave hin hs hrest fun k' i m => ?_
      rw [he]
      simp

end Mirrors

end

end Roster

end Collections
