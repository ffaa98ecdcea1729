import Connectanum.Handshake.Machine

/-!
# Handshake — Lockout

Whether too many failed authentications lock an authid out.  The log is the measure: `streak` says
how many failures in a row an authid has had, `Locking` which failure locks it, and `LockoutKept`
that nothing is done for the authid while it is locked.

The tracker agrees with the log (`Agrees`): what it forgets is over, and what it adds is what the
log counts.
-/

namespace Connectanum

open Collections

/-! ### The tracker, one record at a time -/

namespace AuthSecurityTracker

def find (t : AuthSecurityTracker) (realmUri authId : String) : Option FailureRecord :=
  (t.realmMap realmUri).get? authId

/-- The record has not expired. -/
def live (now : Nat) (record : FailureRecord) : Bool := decide (now < record.retainedUntil)

variable {t : AuthSecurityTracker} {u u' x x' : String} {limits : RealmLimitSettings} {now : Nat}

theorem find_setRealmMap (m : LinkedMap String FailureRecord) :
    (t.setRealmMap u m).find u' x' = if u' = u then m.get? x' else t.find u' x' := by
  unfold setRealmMap find realmMap
  by_cases hu : u' = u
  · subst hu
    rw [if_pos rfl]
    split
    · next hm => rw [LinkedMap.get?_erase_self, LinkedMap.isEmpty_iff.mp hm]; rfl
    · rw [LinkedMap.get?_insert_self]; rfl
  · rw [if_neg hu]
    split
    · rw [LinkedMap.get?_erase_of_ne _ hu]
    · rw [LinkedMap.get?_insert_of_ne _ _ hu]

theorem find_erase_realm :
    AuthSecurityTracker.find (t.erase u) u' x' = if u' = u then none else t.find u' x' := by
  unfold find realmMap
  by_cases hu : u' = u
  · rw [hu, if_pos rfl, LinkedMap.get?_erase_self]
    rfl
  · rw [if_neg hu, LinkedMap.get?_erase_of_ne _ hu]

theorem find_removeExpired :
    (t.removeExpiredRecords u now).find u' x' =
      if u' = u then (t.find u' x').filter (live now) else t.find u' x' := by
  unfold removeExpiredRecords
  rw [find_setRealmMap]
  by_cases hu : u' = u
  · rw [if_pos hu, if_pos hu, hu, LinkedMap.get?_filter]
    rfl
  · rw [if_neg hu, if_neg hu]

/-- The authid is not locked at this time. -/
def Unlocked (t : AuthSecurityTracker) (realmUri authId : String) (now : Nat) : Prop :=
  ∀ record lockedUntil, t.find realmUri authId = some record →
    record.lockedUntil = some lockedUntil → lockedUntil ≤ now

/-- A record that stays as it is, or goes because its time is over. -/
def Aged (now : Nat) (before after : Option FailureRecord) : Prop :=
  after = before ∨ (after = none ∧ ∀ record ∈ before,
    record.retainedUntil ≤ now ∨ ∃ until_, record.lockedUntil = some until_ ∧ until_ ≤ now)

theorem aged_filter (record : Option FailureRecord) :
    Aged now record (record.filter (live now)) := by
  cases record with
  | none => exact .inl rfl
  | some r =>
      by_cases hr : now < r.retainedUntil
      · exact .inl (by simp [live, hr])
      · refine .inr ⟨by simp [live, Nat.not_lt.mp hr], ?_⟩
        rintro _ ⟨⟩
        exact .inl (Nat.not_lt.mp hr)

theorem aged_removeExpired : Aged now (t.find u' x') ((t.removeExpiredRecords u now).find u' x') := by
  rw [find_removeExpired]
  split
  · exact aged_filter _
  · exact .inl rfl

theorem Aged.trans {a b c : Option FailureRecord} (h : Aged now a b) (h' : Aged now b c) :
    Aged now a c := by
  rcases h' with rfl | ⟨rfl, hb⟩
  · exact h
  · rcases h with rfl | ⟨-, ha⟩
    · exact .inr ⟨rfl, hb⟩
    · exact .inr ⟨rfl, ha⟩

/-- Without tracking, there are no records. -/
def Tidy (t : AuthSecurityTracker) (realmUri : String) (limits : RealmLimitSettings) : Prop :=
  trackingEnabled limits = false → ∀ authId, t.find realmUri authId = none

theorem aged_erase_realm (h : t.Tidy u limits) (hlimits : trackingEnabled limits = false) :
    Aged now (t.find u' x') (AuthSecurityTracker.find (t.erase u) u' x') := by
  rw [find_erase_realm]
  split
  · next hu =>
    rw [hu, h hlimits]
    exact .inl rfl
  · exact .inl rfl

theorem aged_lockoutRemaining (h : t.Tidy u limits) :
    Aged now (t.find u' x') ((t.lockoutRemaining u x limits now).1.find u' x') := by
  unfold lockoutRemaining
  split
  · next hlimits => exact aged_erase_realm h (by simpa using hlimits)
  · refine Aged.trans (aged_removeExpired (t := t) (u := u)) ?_
    dsimp only
    split
    · exact .inl rfl
    · next lockedUntil hlocked =>
      split
      · exact .inl rfl
      · next hover =>
        rw [find_setRealmMap]
        split
        · next hu =>
          rw [LinkedMap.get?_erase]
          split
          · next hx =>
            obtain ⟨record, hrecord, hl⟩ := Option.bind_eq_some_iff.mp hlocked
            subst hu hx
            refine .inr ⟨rfl, fun r hr => .inr ⟨lockedUntil, ?_, Nat.not_lt.mp hover⟩⟩
            change (t.removeExpiredRecords u' now).find u' x' = some r at hr
            have : record = r := Option.some.inj (hrecord.symm.trans hr)
            rw [← this]
            exact hl
          · rw [hu]
            exact .inl rfl
        · exact .inl rfl

/-- An authid that `lockoutRemaining` lets pass is not locked. -/
theorem unlocked_lockoutRemaining
    (hnone : (t.lockoutRemaining u x limits now).2 = none) :
    (t.lockoutRemaining u x limits now).1.Unlocked u x now := by
  intro record lockedUntil hfind hlock
  unfold lockoutRemaining at hnone hfind
  split at hnone
  · next hlimits =>
    rw [if_pos hlimits] at hfind
    change AuthSecurityTracker.find (t.erase u) u x = some record at hfind
    rw [find_erase_realm, if_pos rfl] at hfind
    cases hfind
  · next hlimits =>
    rw [if_neg hlimits] at hfind
    dsimp only at hnone hfind
    split at hnone
    · next hlocked =>
      rw [hlocked] at hfind
      change (t.removeExpiredRecords u now).find u x = some record at hfind
      change (((t.removeExpiredRecords u now).find u x).bind _) = none at hlocked
      rw [hfind, Option.bind_some, hlock] at hlocked
      cases hlocked
    · next l hlocked =>
      split at hnone
      · cases hnone
      · next hover =>
        rw [hlocked] at hfind
        dsimp only at hfind
        rw [if_neg hover] at hfind
        rw [find_setRealmMap, if_pos rfl, LinkedMap.get?_erase_self] at hfind
        cases hfind

theorem aged_capacityRetryAfter (h : t.Tidy u limits) :
    Aged now (t.find u' x') ((t.capacityRetryAfter u x limits now).1.find u' x') := by
  unfold capacityRetryAfter
  split
  · next hlimits => exact aged_erase_realm h (by simpa using hlimits)
  · split
    · exact .inl rfl
    · dsimp only
      split
      · exact aged_removeExpired
      · split <;> exact aged_removeExpired

/-- The record after one more failure. -/
def failedRecord (limits : RealmLimitSettings) (now : Nat) (record : Option FailureRecord) :
    FailureRecord :=
  let record := record.getD { retainedUntil := now }
  let until_ := now + limits.lockoutMs.toNat
  if limits.maxFailedAuth ≤ (record.count : Int) + 1 then
    { count := 0, retainedUntil := until_, lockedUntil := some until_ }
  else { record with count := record.count + 1, retainedUntil := until_ }

theorem find_recordFailure_of_takes (h : t.takesFailure u x limits now = true) :
    (t.recordFailure u x limits now).find u x =
        some (failedRecord limits now ((t.find u x).filter (live now))) ∧
      ∀ u' x', (u', x') ≠ (u, x) →
        Aged now (t.find u' x') ((t.recordFailure u x limits now).find u' x') := by
  simp only [takesFailure, Bool.and_eq_true, decide_eq_true_eq, Bool.or_eq_true] at h
  obtain ⟨⟨henabled, hrecords⟩, hroom⟩ := h
  have hnot : ¬ ((!trackingEnabled limits || decide (limits.maxFailedAuthRecords ≤ 0)) = true) := by
    simp [henabled, Int.not_le.mpr hrecords]
  have hfind : (t.removeExpiredRecords u now).find u x = (t.find u x).filter (live now) := by
    rw [find_removeExpired, if_pos rfl]
  -- In both branches the record is written into the realm's map.
  have hwrite : t.recordFailure u x limits now = (t.removeExpiredRecords u now).insert u
      (((t.removeExpiredRecords u now).realmMap u).insert x
        (failedRecord limits now ((t.find u x).filter (live now)))) := by
    unfold recordFailure
    rw [if_neg hnot]
    dsimp only
    rw [← hfind]
    cases hr : (t.removeExpiredRecords u now).find u x with
    | some record =>
        have hget : ((t.removeExpiredRecords u now).realmMap u).get? x = some record := hr
        rw [hget]
        rfl
    | none =>
        have hget : ((t.removeExpiredRecords u now).realmMap u).get? x = none := hr
        rw [hget]
        have hcontains : ((t.removeExpiredRecords u now).realmMap u).contains x = false := by
          change ((t.removeExpiredRecords u now).find u x).isSome = false
          rw [hr]
          rfl
        rw [hcontains] at hroom
        have hlt := hroom.resolve_left Bool.false_ne_true
        simp only [if_neg (Int.not_le.mpr hlt)]
        rfl
  rw [hwrite]
  refine ⟨?_, fun u' x' hne => ?_⟩
  · unfold find realmMap
    rw [LinkedMap.get?_insert_self, Option.getD_some, LinkedMap.get?_insert_self]
  · refine Aged.trans (aged_removeExpired (t := t) (u := u)) (.inl ?_)
    unfold find realmMap
    by_cases hu : u' = u
    · subst hu
      have hx : x' ≠ x := fun hx => hne (by rw [hx])
      rw [LinkedMap.get?_insert_self, Option.getD_some, LinkedMap.get?_insert_of_ne _ _ hx]
    · rw [LinkedMap.get?_insert_of_ne _ _ hu]

theorem find_recordFailure_of_not (h : t.takesFailure u x limits now = false) (u' x' : String) :
    Aged now (t.find u' x') ((t.recordFailure u x limits now).find u' x') := by
  unfold recordFailure
  split
  · exact .inl rfl
  · next hon =>
    simp only [Bool.or_eq_true, Bool.not_eq_true', decide_eq_true_eq, not_or, Bool.not_eq_false,
      Int.not_le] at hon
    simp only [takesFailure, hon.1, hon.2, decide_true, Bool.true_and, Bool.or_eq_false_iff,
      decide_eq_false_iff_not, Int.not_lt] at h
    have hnone : ((t.removeExpiredRecords u now).realmMap u).get? x = none := by
      have := h.1
      unfold LinkedMap.contains at this
      simpa using this
    dsimp only
    rw [hnone]
    dsimp only
    rw [if_pos h.2]
    exact aged_removeExpired

theorem find_recordSuccess :
    (t.recordSuccess u x).find u' x' = if u' = u ∧ x' = x then none else t.find u' x' := by
  unfold recordSuccess
  split
  · next hnone =>
    split
    · next hux =>
      unfold find realmMap
      rw [hux.1, hnone]
      rfl
    · rfl
  · next records hsome =>
    have hmap : t.realmMap u = records := by
      unfold realmMap
      rw [hsome]
      rfl
    rw [find_setRealmMap]
    by_cases hu : u' = u
    · rw [if_pos hu, LinkedMap.get?_erase]
      subst hu
      by_cases hx : x' = x
      · rw [if_pos hx, if_pos ⟨rfl, hx⟩]
      · rw [if_neg hx, if_neg fun h => hx h.2, ← hmap]
        rfl
    · rw [if_neg hu, if_neg fun h => hu h.1]

theorem Unlocked.aged {t' : AuthSecurityTracker} (h : t.Unlocked u x now)
    (ha : Aged now (t.find u x) (t'.find u x)) : t'.Unlocked u x now := by
  intro record lockedUntil hfind hlock
  rcases ha with ha | ⟨ha, -⟩
  · exact h record lockedUntil (ha.symm.trans hfind) hlock
  · rw [ha] at hfind
    cases hfind

theorem Tidy.aged {t' : AuthSecurityTracker} (h : t.Tidy u limits)
    (ha : ∀ x, Aged now (t.find u x) (t'.find u x)) : t'.Tidy u limits := by
  intro hlimits authId
  rcases ha authId with ha | ⟨ha, -⟩
  · exact ha.trans (h hlimits authId)
  · exact ha

end AuthSecurityTracker

/-! ### What the log says -/

/-- The limits of a realm. -/
def AuthSettings.limitsOf (settings : AuthSettings) (realmUri : String) : RealmLimitSettings :=
  ((settings.realms.find? fun r => r.name == realmUri).map (·.limits)).getD {}

namespace HandshakeEvent

def fails (u x : String) : HandshakeEvent → Bool
  | failure v y => v == u && y == x
  | _ => false

def succeeds (u x : String) : HandshakeEvent → Bool
  | success v y => v == u && y == x
  | _ => false

/-- A session is opened for the authid, or an authenticator is called for it. -/
def serves (u x : String) : HandshakeEvent → Bool
  | sessionOpen v session _ => v == u && session.authId == some x
  | started _ v y | evaluated _ v y => v == some u && y == some x
  | _ => false

end HandshakeEvent

/-- The failures in a row, and the time of the last one.  A success ends the row; so does a time of
`lockoutMs` without a failure. -/
def streakStep (lockoutMs : Nat) (u x : String) (s : Option (Nat × Nat)) (e : LogEntry) :
    Option (Nat × Nat) :=
  if e.event.fails u x then
    match s with
    | some (n, last) => if e.time < last + lockoutMs then some (n + 1, e.time) else some (1, e.time)
    | none => some (1, e.time)
  else if e.event.succeeds u x then none
  else s

def streak (lockoutMs : Nat) (u x : String) (log : List LogEntry) : Option (Nat × Nat) :=
  log.foldl (streakStep lockoutMs u x) none

/-- The last failure of the log is the one that locks the authid out. -/
def Locking (limits : RealmLimitSettings) (u x : String) (log : List LogEntry) (e : LogEntry) :
    Prop :=
  e.event.fails u x = true ∧
    ∃ n, streak limits.lockoutMs.toNat u x (log ++ [e]) = some (n, e.time) ∧
      limits.maxFailedAuth ≤ n

/-- **The lockout is effective**: after a failure that locks an authid out, no session is opened
for it and no authenticator called until `lockoutMs` later. -/
def LockoutKept (settings : AuthSettings) (log : List LogEntry) : Prop :=
  ∀ u x before e after, log = before ++ e :: after →
    Locking (settings.limitsOf u) u x before e →
    ∀ e' ∈ after, e'.time < e.time + (settings.limitsOf u).lockoutMs.toNat →
      e'.event.serves u x = false

/-! ### The record and the log agree -/

/-- What a record says of the failures of its authid, at a time that has come to `now`. -/
def Agrees (limits : RealmLimitSettings) (now : Nat) (record : Option FailureRecord)
    (s : Option (Nat × Nat)) : Prop :=
  match record with
  | none => ∀ n last, s = some (n, last) → last + limits.lockoutMs.toNat ≤ now
  | some r => ∃ n last, s = some (n, last) ∧ r.retainedUntil = last + limits.lockoutMs.toNat ∧
      ((r.lockedUntil = none ∧ r.count = n ∧ (n : Int) < limits.maxFailedAuth) ∨
        (r.lockedUntil = some (last + limits.lockoutMs.toNat) ∧ limits.maxFailedAuth ≤ n))

namespace Agrees

variable {limits : RealmLimitSettings} {now now' : Nat} {record record' : Option FailureRecord}
  {s : Option (Nat × Nat)}

theorem mono (h : Agrees limits now record s) (hn : now ≤ now') : Agrees limits now' record s := by
  cases record with
  | none => exact fun n last hs => Nat.le_trans (h n last hs) hn
  | some r => exact h

theorem aged (h : Agrees limits now record s) (ha : AuthSecurityTracker.Aged now record record') :
    Agrees limits now record' s := by
  rcases ha with rfl | ⟨rfl, hover⟩
  · exact h
  · cases record with
    | none => exact h
    | some r =>
        obtain ⟨n, last, rfl, hretained, hlock⟩ := h
        rintro _ _ ⟨⟩
        rcases hover r rfl with ho | ⟨until_, hu, ho⟩
        · rw [← hretained]
          exact ho
        · rcases hlock with ⟨hnone, -⟩ | ⟨hsome, -⟩
          · rw [hnone] at hu
            cases hu
          · rw [hsome] at hu
            cases hu
            exact ho

/-- One more failure of an authid that is not locked. -/
theorem fails (h : Agrees limits now record s)
    (hunlocked : ∀ r until_, record = some r → r.lockedUntil = some until_ → until_ ≤ now)
    {u x : String} {e : LogEntry} (hf : e.event.fails u x = true) (ht : e.time = now) :
    Agrees limits now
      (some (AuthSecurityTracker.failedRecord limits now
        (record.filter (AuthSecurityTracker.live now))))
      (streakStep limits.lockoutMs.toNat u x s e) := by
  have hnew : ∀ r n, r.count = n → r.lockedUntil = none →
      Agrees limits now (some (AuthSecurityTracker.failedRecord limits now (some r)))
        (some (n + 1, now)) := by
    rintro r _ rfl hnone
    unfold AuthSecurityTracker.failedRecord
    dsimp only
    refine ⟨r.count + 1, now, rfl, ?_, ?_⟩
    · split <;> rfl
    · split
      · next hmax => exact .inr ⟨rfl, by push_cast; exact hmax⟩
      · next hmax => exact .inl ⟨hnone, rfl, by push_cast; exact Int.not_le.mp hmax⟩
  have hfirst : ∀ {s'}, s' = some (1, now) → Agrees limits now
      (some (AuthSecurityTracker.failedRecord limits now none)) s' := by
    rintro _ rfl
    exact hnew { retainedUntil := now } 0 rfl rfl
  unfold streakStep
  rw [if_pos hf, ht]
  cases record with
  | none =>
      refine hfirst ?_
      cases s with
      | none => rfl
      | some nl =>
          obtain ⟨n, last⟩ := nl
          exact if_neg (Nat.not_lt.mpr (h n last rfl))
  | some r =>
      obtain ⟨n, last, rfl, hretained, hlock⟩ := h
      dsimp only
      by_cases hlive : now < last + limits.lockoutMs.toNat
      · have hfilter : (some r).filter (AuthSecurityTracker.live now) = some r := by
          simp [AuthSecurityTracker.live, hretained, hlive]
        rw [hfilter, if_pos hlive]
        rcases hlock with ⟨hnone, hcount, -⟩ | ⟨hsome, -⟩
        · exact hnew r n hcount hnone
        · exact absurd (hunlocked r _ rfl hsome) (Nat.not_le.mpr hlive)
      · have hfilter : (some r).filter (AuthSecurityTracker.live now) = none := by
          simp [AuthSecurityTracker.live, hretained, Nat.not_lt.mp hlive]
        rw [hfilter, if_neg hlive]
        exact hfirst rfl

/-- A record that the log knows as locked. -/
theorem locked {n last : Nat} (h : Agrees limits now record (some (n, last)))
    (hmax : limits.maxFailedAuth ≤ n) (hnow : now < last + limits.lockoutMs.toNat) :
    ∃ r, record = some r ∧ r.lockedUntil = some (last + limits.lockoutMs.toNat) := by
  cases record with
  | none => exact absurd (h n last rfl) (Nat.not_le.mpr hnow)
  | some r =>
      obtain ⟨n', last', heq, -, hlock⟩ := h
      cases heq
      rcases hlock with ⟨-, -, hlt⟩ | ⟨hsome, -⟩
      · exact absurd hmax (Int.not_le.mpr hlt)
      · exact ⟨r, rfl, hsome⟩

end Agrees

end Connectanum
