import Connectanum.Handshake.Lockout
import Connectanum.Lib.Runs

/-!
# Handshake — FailureTable

The tracker over any sequence of its calls, on any realms and authids, under a clock that does not
go back.  The table of a realm stays within its bound, an authid that has a live record is never
turned away for want of room, and a record whose time is over is as good as gone
(`AuthSecurityTracker.failure_table_sound`).
-/

namespace Connectanum

open Collections Machine

namespace AuthSecurityTracker

/-- The calls that the router makes. -/
inductive Operation where
  | lockoutRemaining (realmUri authId : String)
  | capacityRetryAfter (realmUri authId : String)
  | recordFailure (realmUri authId : String)
  | recordSuccess (realmUri authId : String)
  deriving DecidableEq

/-- Whom a call is about. -/
def Operation.subject : Operation → String × String
  | lockoutRemaining u x | capacityRetryAfter u x | recordFailure u x | recordSuccess u x => (u, x)

structure Call where
  time : Nat
  operation : Operation
  deriving DecidableEq

/-- The table, and the time of the last call. -/
structure Kept where
  table : AuthSecurityTracker
  clock : Nat

variable (limits : String → RealmLimitSettings)

/-- What a call leaves of the table. -/
def perform (t : AuthSecurityTracker) (now : Nat) : Operation → AuthSecurityTracker
  | .lockoutRemaining u x => (t.lockoutRemaining u x (limits u) now).1
  | .capacityRetryAfter u x => (t.capacityRetryAfter u x (limits u) now).1
  | .recordFailure u x => t.recordFailure u x (limits u) now
  | .recordSuccess u x => t.recordSuccess u x

def tick (s : Kept) (c : Call) : Kept := ⟨perform limits s.table c.time c.operation, c.time⟩

/-- The clock does not go back. -/
def OnTime (s : Kept) (c : Call) : Prop := s.clock ≤ c.time

instance (s : Kept) (c : Call) : Decidable (OnTime s c) :=
  inferInstanceAs (Decidable (s.clock ≤ c.time))

/-- How many records of the realm are live. -/
def liveRecords (t : AuthSecurityTracker) (realmUri : String) (now : Nat) : Nat :=
  ((t.realmMap realmUri).filter fun _ record => live now record).length

/-- The authid has a live record, or there is room for one beside the live ones. -/
def HasRoom (t : AuthSecurityTracker) (limits : RealmLimitSettings) (realmUri authId : String)
    (now : Nat) : Prop :=
  (∃ record, t.find realmUri authId = some record ∧ live now record = true) ∨
    t.liveRecords realmUri now < limits.maxFailedAuthRecords.toNat

/-! ### The records of one realm -/

variable {limits : String → RealmLimitSettings} {t : AuthSecurityTracker} {u u' x x' : String}
  {l : RealmLimitSettings} {now : Nat} {op : Operation}

theorem realmMap_setRealmMap (m : LinkedMap String FailureRecord) :
    (t.setRealmMap u m).realmMap u' = if u' = u then m else t.realmMap u' := by
  unfold setRealmMap realmMap
  by_cases hu : u' = u
  · rw [if_pos hu, hu]
    split
    · next hm =>
      rw [LinkedMap.get?_erase_self, LinkedMap.eq_empty_of_isEmpty hm]
      rfl
    · rw [LinkedMap.get?_insert_self]
      rfl
  · rw [if_neg hu]
    split
    · rw [LinkedMap.get?_erase_of_ne _ hu]
    · rw [LinkedMap.get?_insert_of_ne _ _ hu]

theorem realmMap_insert (m : LinkedMap String FailureRecord) :
    AuthSecurityTracker.realmMap (t.insert u m) u' = if u' = u then m else t.realmMap u' := by
  unfold realmMap
  by_cases hu : u' = u
  · rw [if_pos hu, hu, LinkedMap.get?_insert_self]
    rfl
  · rw [if_neg hu, LinkedMap.get?_insert_of_ne _ _ hu]

theorem realmMap_erase (hu : u' ≠ u) :
    AuthSecurityTracker.realmMap (t.erase u) u' = t.realmMap u' := by
  unfold realmMap
  rw [LinkedMap.get?_erase_of_ne _ hu]

theorem realmMap_removeExpired :
    (t.removeExpiredRecords u now).realmMap u' =
      if u' = u then (t.realmMap u).filter (fun _ record => live now record)
      else t.realmMap u' :=
  realmMap_setRealmMap _

/-- A call does not touch the records of another realm. -/
theorem realmMap_perform_of_ne (hu : u' ≠ op.subject.1) :
    (perform limits t now op).realmMap u' = t.realmMap u' := by
  have hexpired : ∀ {u}, u' ≠ u → (t.removeExpiredRecords u now).realmMap u' = t.realmMap u' :=
    fun h => by rw [realmMap_removeExpired, if_neg h]
  cases op with
  | lockoutRemaining u x =>
      change u' ≠ u at hu
      simp only [perform, lockoutRemaining]
      split
      · exact realmMap_erase hu
      · split
        · exact hexpired hu
        · split
          · exact hexpired hu
          · rw [realmMap_setRealmMap, if_neg hu]
            exact hexpired hu
  | capacityRetryAfter u x =>
      change u' ≠ u at hu
      simp only [perform, capacityRetryAfter]
      split
      · exact realmMap_erase hu
      · split
        · rfl
        · split
          · exact hexpired hu
          · split <;> exact hexpired hu
  | recordFailure u x =>
      change u' ≠ u at hu
      simp only [perform, recordFailure]
      split
      · rfl
      · split
        · rw [realmMap_insert, if_neg hu]
          exact hexpired hu
        · split
          · exact hexpired hu
          · rw [realmMap_insert, if_neg hu]
            exact hexpired hu
  | recordSuccess u x =>
      change u' ≠ u at hu
      simp only [perform, recordSuccess]
      split
      · rfl
      · rw [realmMap_setRealmMap, if_neg hu]

/-! ### What every call keeps -/

/-- The table of a realm is within its bound, and no record locks longer than it is kept. -/
structure Sound (l : RealmLimitSettings) (t : AuthSecurityTracker) (u : String) (clock : Nat) :
    Prop where
  bounded : (t.realmMap u).length ≤ l.maxFailedAuthRecords.toNat
  kept : ∀ x record, t.find u x = some record →
    record.retainedUntil ≤ clock + l.lockoutMs.toNat ∧
      ∀ end_, record.lockedUntil = some end_ → end_ ≤ record.retainedUntil

/-- A call that neither counts a failure of the authid nor forgives one leaves its record alone, or
drops it when its time is over. -/
theorem aged_perform (hu : trackingEnabled (limits u) = true)
    (hfailure : op ≠ .recordFailure u x) (hsuccess : op ≠ .recordSuccess u x) :
    Aged now (t.find u x) ((perform limits t now op).find u x) := by
  by_cases hrealm : u = op.subject.1
  · have htidy : t.Tidy u (limits u) := fun h => by rw [hu] at h; cases h
    cases op with
    | lockoutRemaining v y =>
        obtain rfl : u = v := hrealm
        exact aged_lockoutRemaining htidy
    | capacityRetryAfter v y =>
        obtain rfl : u = v := hrealm
        exact aged_capacityRetryAfter htidy
    | recordFailure v y =>
        obtain rfl : u = v := hrealm
        cases htakes : t.takesFailure u y (limits u) now with
        | false => exact find_recordFailure_of_not htakes u x
        | true =>
            refine (find_recordFailure_of_takes htakes).2 u x fun h => hfailure ?_
            rw [show x = y from congrArg Prod.snd h]
    | recordSuccess v y =>
        refine .inl ?_
        simp only [perform, find_recordSuccess]
        rw [if_neg fun h => hsuccess (by rw [h.1, h.2])]
  · left
    unfold find
    rw [realmMap_perform_of_ne hrealm]

/-- A call leaves a record, drops it or writes one more failure into it. -/
theorem find_perform (t : AuthSecurityTracker) (op : Operation) (now : Nat) (x : String)
    (hu : trackingEnabled (limits u) = true) :
    (perform limits t now op).find u x = t.find u x ∨
      (perform limits t now op).find u x = none ∨
      (perform limits t now op).find u x =
        some (failedRecord (limits u) now ((t.find u x).filter (live now))) := by
  by_cases hfailure : op = .recordFailure u x
  · subst hfailure
    cases htakes : t.takesFailure u x (limits u) now with
    | true => exact .inr (.inr (find_recordFailure_of_takes htakes).1)
    | false =>
        rcases find_recordFailure_of_not htakes u x with hsame | ⟨hnone, -⟩
        · exact .inl hsame
        · exact .inr (.inl hnone)
  · by_cases hsuccess : op = .recordSuccess u x
    · subst hsuccess
      exact .inr (.inl (by simp only [perform, find_recordSuccess, and_self, if_true]))
    · have haged : Aged now (t.find u x) ((perform limits t now op).find u x) :=
        aged_perform hu hfailure hsuccess
      rcases haged with hsame | ⟨hnone, -⟩
      · exact .inl hsame
      · exact .inr (.inl hnone)

/-- The record that a failure writes is kept for `lockoutMs`, and its lock ends no later. -/
theorem failedRecord_kept {record : Option FailureRecord} {clock : Nat} (hclock : clock ≤ now)
    (h : ∀ r, record = some r → r.retainedUntil ≤ clock + l.lockoutMs.toNat ∧
      ∀ end_, r.lockedUntil = some end_ → end_ ≤ r.retainedUntil) :
    (failedRecord l now record).retainedUntil = now + l.lockoutMs.toNat ∧
      ∀ end_, (failedRecord l now record).lockedUntil = some end_ →
        end_ ≤ (failedRecord l now record).retainedUntil := by
  unfold failedRecord
  dsimp only
  split
  · refine ⟨rfl, ?_⟩
    rintro _ ⟨⟩
    exact Nat.le_refl _
  · refine ⟨rfl, fun end_ hend => ?_⟩
    cases record with
    | none => cases hend
    | some r =>
        -- The lock was set by an earlier failure, and this one keeps the record for longer.
        obtain ⟨hretained, hlocked⟩ := h r rfl
        calc end_ ≤ r.retainedUntil := hlocked end_ hend
          _ ≤ clock + l.lockoutMs.toNat := hretained
          _ ≤ now + l.lockoutMs.toNat := Nat.add_le_add_right hclock _

/-- A record is only added where there is room for it. -/
theorem length_perform (hu : trackingEnabled (limits u) = true)
    (h : (t.realmMap u).length ≤ (limits u).maxFailedAuthRecords.toNat) :
    ((perform limits t now op).realmMap u).length ≤ (limits u).maxFailedAuthRecords.toNat := by
  by_cases hrealm : u = op.subject.1
  · have hexpired : (t.removeExpiredRecords u now).realmMap u =
        (t.realmMap u).filter fun _ record => live now record := by
      rw [realmMap_removeExpired, if_pos rfl]
    have hfilter : ((t.removeExpiredRecords u now).realmMap u).length ≤
        (limits u).maxFailedAuthRecords.toNat := by
      rw [hexpired]
      exact Nat.le_trans (LinkedMap.length_filter_le _ _) h
    cases op with
    | lockoutRemaining v y =>
        obtain rfl : u = v := hrealm
        simp only [perform, lockoutRemaining, hu, Bool.not_true, Bool.false_eq_true, if_false]
        split
        · exact hfilter
        · split
          · exact hfilter
          · rw [realmMap_setRealmMap, if_pos rfl]
            exact Nat.le_trans (LinkedMap.length_erase_le _ _) hfilter
    | capacityRetryAfter v y =>
        obtain rfl : u = v := hrealm
        simp only [perform, capacityRetryAfter, hu, Bool.not_true, Bool.false_eq_true, if_false]
        split
        · exact h
        · split
          · exact hfilter
          · split <;> exact hfilter
    | recordFailure v y =>
        obtain rfl : u = v := hrealm
        simp only [perform, recordFailure]
        split
        · exact h
        · split
          · next record hrecord =>
            rw [realmMap_insert, if_pos rfl, LinkedMap.length_insert_of_some _ hrecord]
            exact hfilter
          · next hnone =>
            split
            · exact hfilter
            · next hroom =>
              rw [realmMap_insert, if_pos rfl, LinkedMap.length_insert _ _ hnone]
              omega
    | recordSuccess v y =>
        obtain rfl : u = v := hrealm
        simp only [perform, recordSuccess]
        split
        · exact h
        · next records hrecords =>
          rw [realmMap_setRealmMap, if_pos rfl]
          refine Nat.le_trans (LinkedMap.length_erase_le _ _) ?_
          rwa [realmMap, hrecords] at h
  · rwa [realmMap_perform_of_ne hrealm]

theorem Sound.perform {clock : Nat} (hu : trackingEnabled (limits u) = true)
    (h : Sound (limits u) t u clock) (hclock : clock ≤ now) :
    Sound (limits u) (perform limits t now op) u now where
  bounded := length_perform hu h.bounded
  kept x record hrecord := by
    rcases find_perform t op now x hu with hsame | hnone | hfailed
    · obtain ⟨hretained, hlocked⟩ := h.kept x record (hsame ▸ hrecord)
      exact ⟨Nat.le_trans hretained (Nat.add_le_add_right hclock _), hlocked⟩
    · rw [hnone] at hrecord
      cases hrecord
    · obtain rfl := Option.some.inj (hfailed.symm.trans hrecord)
      obtain ⟨hretained, hlocked⟩ := failedRecord_kept hclock
        fun r (hr : r ∈ (t.find u x).filter (live now)) =>
          h.kept x r (Option.filter_eq_some_iff.mp hr).1
      exact ⟨Nat.le_of_eq hretained, hlocked⟩

theorem Sound.tick {s : Kept} {c : Call} (hu : trackingEnabled (limits u) = true)
    (h : Sound (limits u) s.table u s.clock) (hc : OnTime s c) :
    Sound (limits u) (tick limits s c).table u (tick limits s c).clock :=
  h.perform hu hc

theorem sound_empty (clock : Nat) : Sound l .empty u clock where
  bounded := Nat.zero_le _
  kept _ _ h := nomatch h

/-! ### What the answers say -/

/-- When the lock of an authid ends. -/
def lockEnd (t : AuthSecurityTracker) (realmUri authId : String) : Option Nat :=
  (t.find realmUri authId).bind (·.lockedUntil)

/-- The answer is about the lock alone: a record that is no longer kept locks no longer. -/
theorem lockoutRemaining_eq {clock : Nat} (hl : trackingEnabled l = true)
    (h : Sound l t u clock) :
    (t.lockoutRemaining u x l now).2 =
      (t.lockEnd u x).bind fun end_ => if now < end_ then some (end_ - now) else none := by
  have hfind : (t.removeExpiredRecords u now).find u x = (t.find u x).filter (live now) := by
    rw [find_removeExpired, if_pos rfl]
  have hanswer : (t.lockoutRemaining u x l now).2 =
      (((t.find u x).filter (live now)).bind (·.lockedUntil)).bind
        fun end_ => if now < end_ then some (end_ - now) else none := by
    rw [← hfind]
    simp only [lockoutRemaining, hl, Bool.not_true, Bool.false_eq_true, if_false, find]
    split
    · next hnone => rw [hnone]; rfl
    · next end_ hsome =>
      rw [hsome, Option.bind_some]
      split <;> rfl
  rw [hanswer, lockEnd]
  cases hrecord : t.find u x with
  | none => rfl
  | some record =>
      by_cases hlive : now < record.retainedUntil
      · rw [Option.filter_some, if_pos (by simp [live, hlive])]
      · rw [Option.filter_some, if_neg (by simp [live, hlive])]
        cases hend : record.lockedUntil with
        | none => simp [hend]
        | some end_ =>
            have hle := (h.kept x record hrecord).2 end_ hend
            simp [hend, show ¬ now < end_ by omega]

/-- Another authid's call does not change what is said of a lock from then on. -/
theorem lockoutRemaining_perform {clock now' : Nat} (hu : trackingEnabled (limits u) = true)
    (h : Sound (limits u) t u clock) (hclock : clock ≤ now) (hnow : now ≤ now')
    (hother : op.subject ≠ (u, x)) :
    ((perform limits t now op).lockoutRemaining u x (limits u) now').2 =
      (t.lockoutRemaining u x (limits u) now').2 := by
  rw [lockoutRemaining_eq hu (h.perform hu hclock), lockoutRemaining_eq hu h]
  have haged : Aged now (t.find u x) ((perform limits t now op).find u x) :=
    aged_perform hu (fun h => hother (h ▸ rfl)) fun h => hother (h ▸ rfl)
  unfold lockEnd
  rcases haged with hsame | ⟨hnone, hover⟩
  · rw [hsame]
  · rw [hnone]
    cases hrecord : t.find u x with
    | none => rfl
    | some record =>
        -- What was dropped was over, so that it does not lock at a later time.
        cases hend : record.lockedUntil with
        | none => simp [hend]
        | some end_ =>
            have hle := (h.kept x record hrecord).2 end_ hend
            have hpast : end_ ≤ now := by
              rcases hover record hrecord with hretained | ⟨end', hend', hle'⟩
              · exact Nat.le_trans hle hretained
              · rw [hend] at hend'
                obtain rfl := Option.some.inj hend'
                exact hle'
            simp [hend, show ¬ now' < end_ by omega]

/-- The condition under which the code finds room, counted on the table that it has cleaned. -/
theorem hasRoom_iff :
    ((t.removeExpiredRecords u now).realmMap u).contains x = true ∨
        (((t.removeExpiredRecords u now).realmMap u).length : Int) < l.maxFailedAuthRecords ↔
      t.HasRoom l u x now := by
  have hlive : ((t.removeExpiredRecords u now).realmMap u).contains x = true ↔
      ∃ record, t.find u x = some record ∧ live now record = true := by
    change ((t.removeExpiredRecords u now).find u x).isSome = true ↔ _
    rw [find_removeExpired, if_pos rfl, Option.isSome_iff_exists]
    simp only [Option.filter_eq_some_iff]
  rw [hlive, realmMap_removeExpired, if_pos rfl]
  refine or_congr_right ?_
  unfold liveRecords
  omega

/-- Room is counted in live records. -/
theorem capacityRetryAfter_eq_none_iff {clock : Nat} (hl : trackingEnabled l = true)
    (h : Sound l t u clock) :
    (t.capacityRetryAfter u x l now).2 = none ↔ t.HasRoom l u x now := by
  rw [← hasRoom_iff]
  have hbounded : ((t.removeExpiredRecords u now).realmMap u).length ≤
      l.maxFailedAuthRecords.toNat := by
    rw [realmMap_removeExpired, if_pos rfl]
    exact Nat.le_trans (LinkedMap.length_filter_le _ _) h.bounded
  simp only [capacityRetryAfter, hl, Bool.not_true, Bool.false_eq_true, if_false]
  split
  · next hmax =>
    -- Without a bound above zero there is no record, and the answer is a time to wait.
    have hempty : ((t.removeExpiredRecords u now).realmMap u).length = 0 := by omega
    have hnone : ((t.removeExpiredRecords u now).realmMap u).contains x = false := by
      cases hcontains : ((t.removeExpiredRecords u now).realmMap u).contains x with
      | false => rfl
      | true =>
          obtain ⟨record, hrecord⟩ := Option.isSome_iff_exists.mp hcontains
          have hmem := LinkedMap.mem_entries.mpr hrecord
          rw [List.length_eq_zero_iff.mp hempty] at hmem
          cases hmem
    simp [hnone, hempty, Int.not_lt.mpr hmax]
  · next hmax =>
    split
    · next hroom =>
      simp only [Bool.or_eq_true, decide_eq_true_eq] at hroom
      exact ⟨fun _ => hroom, fun _ => rfl⟩
    · next hroom =>
      simp only [Bool.or_eq_true, decide_eq_true_eq] at hroom
      refine ⟨fun hnone => ?_, fun hcases => absurd hcases hroom⟩
      split at hnone
      · next hmin =>
        -- The table is full, so that there is a first record to wait for.
        have hempty := List.min?_eq_none_iff.mp hmin
        rw [List.map_eq_nil_iff, LinkedMap.values, List.map_eq_nil_iff] at hempty
        refine absurd (.inr ?_) hroom
        rw [LinkedMap.length, hempty]
        simpa using hmax
      · cases hnone

/-- A failure is recorded where there is room. -/
theorem recordFailure_isSome {clock : Nat} (hl : trackingEnabled l = true) (h : Sound l t u clock)
    (hroom : t.HasRoom l u x now) : ((t.recordFailure u x l now).find u x).isSome := by
  have hmax : 0 < l.maxFailedAuthRecords := by
    rcases hroom with ⟨record, hrecord, -⟩ | hroom
    · have hpos := List.length_pos_of_mem (LinkedMap.mem_entries.mpr hrecord)
      have hbounded : (t.realmMap u).entries.length ≤ _ := h.bounded
      omega
    · omega
  have htakes : t.takesFailure u x l now = true := by
    simp only [takesFailure, hl, hmax, decide_true, Bool.true_and, Bool.or_eq_true,
      decide_eq_true_eq]
    exact hasRoom_iff.mpr hroom
  rw [(find_recordFailure_of_takes htakes).1]
  rfl

/-! ### Every sequence of calls -/

/-- What holds of a realm's table in the state that a sequence of calls has led to. -/
structure Orderly (limits : String → RealmLimitSettings) (s : Kept) (u : String) : Prop where
  /-- The table is within its bound. -/
  bounded : (s.table.realmMap u).length ≤ (limits u).maxFailedAuthRecords.toNat
  /-- An authid with a live record is not turned away. -/
  admitted : ∀ now x record, s.clock ≤ now → s.table.find u x = some record →
    now < record.retainedUntil →
    (s.table.capacityRetryAfter u x (limits u) now).2 = none ∧
      ((s.table.recordFailure u x (limits u) now).find u x).isSome
  /-- A record whose time is over does not lock. -/
  unlocked : ∀ now x record, s.clock ≤ now → s.table.find u x = some record →
    record.retainedUntil ≤ now → (s.table.lockoutRemaining u x (limits u) now).2 = none
  /-- Nor does it take room. -/
  room : ∀ now x, s.clock ≤ now → s.table.liveRecords u now < (limits u).maxFailedAuthRecords →
    (s.table.capacityRetryAfter u x (limits u) now).2 = none ∧
      ((s.table.recordFailure u x (limits u) now).find u x).isSome
  /-- Calls for others leave what is said of a lock as it was. -/
  undisturbed : ∀ x more s', Run (tick limits) OnTime s more s' →
    (∀ c ∈ more, c.operation.subject ≠ (u, x)) → ∀ now, s'.clock ≤ now →
    (s'.table.lockoutRemaining u x (limits u) now).2 =
      (s.table.lockoutRemaining u x (limits u) now).2

theorem clock_le {s s' : Kept} {calls : List Call} (h : Run (tick limits) OnTime s calls s') :
    s.clock ≤ s'.clock := by
  induction h with
  | nil => exact Nat.le_refl _
  | cons hc _ ih => exact Nat.le_trans hc ih

theorem Sound.orderly {s : Kept} (hu : trackingEnabled (limits u) = true)
    (h : Sound (limits u) s.table u s.clock) : Orderly limits s u where
  bounded := h.bounded
  admitted now x record hnow hrecord hlive := by
    have hroom : s.table.HasRoom (limits u) u x now :=
      .inl ⟨record, hrecord, decide_eq_true hlive⟩
    exact ⟨(capacityRetryAfter_eq_none_iff hu h).mpr hroom, recordFailure_isSome hu h hroom⟩
  unlocked now x record hnow hrecord hover := by
    rw [lockoutRemaining_eq hu h, lockEnd, hrecord, Option.bind_some]
    cases hend : record.lockedUntil with
    | none => rfl
    | some end_ =>
        have hle := (h.kept x record hrecord).2 end_ hend
        simp [show ¬ now < end_ by omega]
  room now x hnow hlt := by
    have hroom : s.table.HasRoom (limits u) u x now := .inr (by omega)
    exact ⟨(capacityRetryAfter_eq_none_iff hu h).mpr hroom, recordFailure_isSome hu h hroom⟩
  undisturbed x more s' hrun := by
    induction hrun with
    | nil => exact fun _ _ _ => rfl
    | @cons s s' c rest hc hrest ih =>
        intro hothers now hnow
        have hclock : c.time ≤ now := Nat.le_trans (clock_le hrest) hnow
        rw [ih (h.tick hu hc) (fun c' hc' => hothers c' (List.mem_cons_of_mem _ hc')) now hnow]
        exact lockoutRemaining_perform hu h hc hclock (hothers c (List.mem_cons_self ..))

/-- **The failure table**: over every sequence of calls under a clock that does not go back, the
table of a realm that tracks failures is orderly. -/
theorem failure_table_sound {start : Nat} {calls : List Call} {s : Kept}
    (hrun : Run (tick limits) OnTime ⟨.empty, start⟩ calls s)
    (hu : trackingEnabled (limits u) = true) : Orderly limits s u :=
  Sound.orderly hu
    (hrun.invariant (P := fun s => Sound (limits u) s.table u s.clock)
      (fun _ _ h hc => h.tick hu hc) (sound_empty start))

/-- Two failures lock the only authid there is room for; another one waits until the record's time
is over. -/
theorem failure_table_sound_full :
    let limits : String → RealmLimitSettings := fun _ =>
      { maxFailedAuth := 2, maxFailedAuthRecords := 1, lockoutMs := 10 }
    let calls : List Call :=
      [⟨0, .recordFailure "realm" "alice"⟩, ⟨3, .recordFailure "realm" "alice"⟩,
        ⟨4, .recordFailure "realm" "bob"⟩, ⟨4, .lockoutRemaining "realm" "alice"⟩,
        ⟨13, .recordFailure "realm" "bob"⟩, ⟨14, .recordSuccess "realm" "bob"⟩]
    Orderly limits (calls.foldl (tick limits) ⟨.empty, 0⟩) "realm" :=
  failure_table_sound (Run.of_admitted (by decide +kernel)) (by decide)

end AuthSecurityTracker

end Connectanum
