import Connectanum.Handshake.Flight
import Connectanum.Lib.Runs

/-!
# Handshake — LockoutKept

The lockout of a worker, over whole runs with a clock that does not go back.  `LockoutSafe` leaves
out the handshakes that are in flight when the lock falls, and the sessions of a locked authid that
HELLO did not name; under it, the log keeps to the lockout (`LockoutKept`).
-/

namespace Connectanum

open Collections Machine

/-! ### The log grows -/

section

variable {ms : Nat} {u x : String} {log : List LogEntry}

theorem streak_append (evs : List LogEntry)
    (h : ∀ e ∈ evs, e.event.fails u x = false ∧ e.event.succeeds u x = false) :
    streak ms u x (log ++ evs) = streak ms u x log := by
  unfold streak
  rw [List.foldl_append]
  generalize log.foldl (streakStep ms u x) none = s
  induction evs with
  | nil => rfl
  | cons e rest ih =>
      obtain ⟨hf, hs⟩ := h e (List.mem_cons_self ..)
      have hstep : streakStep ms u x s e = s := by
        unfold streakStep
        rw [hf, hs]
        rfl
      rw [List.foldl_cons, hstep]
      exact ih fun e he => h e (List.mem_cons_of_mem _ he)

theorem streak_snoc (e : LogEntry) :
    streak ms u x (log ++ [e]) = streakStep ms u x (streak ms u x log) e := by
  unfold streak
  rw [List.foldl_append]
  rfl

end

/-- The events of a segment, as they stand in the log. -/
def entries (ref : Ref) (now : Nat) (es : List HandshakeEvent) : List LogEntry :=
  es.map fun e => ⟨ref, now, e⟩

theorem entries_quiet {ref : Ref} {now : Nat} {es : List HandshakeEvent}
    (h : ∀ e ∈ es, e.isOutcome = false) (u x : String) :
    ∀ e ∈ entries ref now es, e.event.fails u x = false ∧ e.event.succeeds u x = false := by
  intro e he
  obtain ⟨event, hevent, rfl⟩ := List.mem_map.mp he
  have := h event hevent
  cases event with
  | failure v y => cases this
  | success v y => cases this
  | _ => exact ⟨rfl, rfl⟩

/-- The records agree with the log after a segment; a failure comes to an authid that is not
locked. -/
theorem agrees_effect {settings : AuthSettings} {now : Nat} {t t' : AuthSecurityTracker}
    {es : List HandshakeEvent} {ref : Ref} {log : List LogEntry}
    (heffect : TrackerEffect settings now t es t')
    (hagrees : ∀ u x, Agrees (settings.limitsOf u) now (t.find u x)
      (streak (settings.limitsOf u).lockoutMs.toNat u x log))
    (hunlocked : ∀ u x, .failure u x ∈ es → t.Unlocked u x now) (u x : String) :
    Agrees (settings.limitsOf u) now (t'.find u x)
      (streak (settings.limitsOf u).lockoutMs.toNat u x (log ++ entries ref now es)) := by
  cases heffect with
  | aged hes haged =>
      rw [streak_append _ (entries_quiet hes u x)]
      exact (hagrees u x).aged (haged u x)
  | failed v y es' hes hes' htakes =>
      subst hes
      have hlog : log ++ entries ref now (es' ++ [.failure v y]) =
          (log ++ entries ref now es') ++ [⟨ref, now, .failure v y⟩] := by
        simp [entries]
      obtain ⟨hfind, hothers⟩ := AuthSecurityTracker.find_recordFailure_of_takes htakes
      rw [hlog, streak_snoc, streak_append _ (entries_quiet hes' u x)]
      by_cases hkey : (u, x) = (v, y)
      · cases hkey
        rw [hfind]
        refine (hagrees u x).fails ?_ (by simp [HandshakeEvent.fails]) rfl
        exact fun r until_ hr hl => hunlocked u x (by simp) r until_ hr hl
      · have hskip : streakStep (settings.limitsOf u).lockoutMs.toNat u x
            (streak (settings.limitsOf u).lockoutMs.toNat u x log) ⟨ref, now, .failure v y⟩ =
            streak (settings.limitsOf u).lockoutMs.toNat u x log := by
          have : (HandshakeEvent.failure v y).fails u x = false := by
            simp only [HandshakeEvent.fails, Bool.and_eq_false_iff, beq_eq_false_iff_ne]
            by_contra hc
            simp only [not_or, not_not] at hc
            exact hkey (by rw [hc.1, hc.2])
          unfold streakStep
          rw [this]
          rfl
        rw [hskip]
        exact (hagrees u x).aged (hothers u x hkey)
  | succeeded v y es' hes hes' =>
      subst hes
      have hlog : log ++ entries ref now (es' ++ [.success v y]) =
          (log ++ entries ref now es') ++ [⟨ref, now, .success v y⟩] := by
        simp [entries]
      rw [hlog, streak_snoc, streak_append _ (entries_quiet hes' u x),
        AuthSecurityTracker.find_recordSuccess]
      by_cases hkey : u = v ∧ x = y
      · obtain ⟨rfl, rfl⟩ := hkey
        have hnone : streakStep (settings.limitsOf u).lockoutMs.toNat u x
            (streak (settings.limitsOf u).lockoutMs.toNat u x log) ⟨ref, now, .success u x⟩ =
            none := by
          simp [streakStep, HandshakeEvent.fails, HandshakeEvent.succeeds]
        rw [hnone, if_pos ⟨rfl, rfl⟩]
        exact fun k => by rintro _ ⟨⟩
      · have hskip : streakStep (settings.limitsOf u).lockoutMs.toNat u x
            (streak (settings.limitsOf u).lockoutMs.toNat u x log) ⟨ref, now, .success v y⟩ =
            streak (settings.limitsOf u).lockoutMs.toNat u x log := by
          have : (HandshakeEvent.success v y).succeeds u x = false := by
            simp only [HandshakeEvent.succeeds, Bool.and_eq_false_iff, beq_eq_false_iff_ne]
            by_contra hc
            simp only [not_or, not_not] at hc
            exact hkey ⟨hc.1.symm, hc.2.symm⟩
          unfold streakStep
          rw [this]
          rfl
        rw [hskip, if_neg hkey]
        exact hagrees u x

/-- A failure that a segment notes is the last of its events. -/
theorem TrackerEffect.last {settings : AuthSettings} {now : Nat} {t t' : AuthSecurityTracker}
    {es before after : List HandshakeEvent} {e : HandshakeEvent} {u x : String}
    (heffect : TrackerEffect settings now t es t') (hsplit : es = before ++ e :: after)
    (hfails : e.fails u x = true) : after = [] := by
  have houtcome : e.isOutcome = true := by
    cases e with
    | failure v y => rfl
    | _ => cases hfails
  have hend : ∀ es' last, es = es' ++ [last] → (∀ e ∈ es', e.isOutcome = false) → after = [] := by
    intro es' last hes hes'
    rw [hsplit] at hes
    rcases List.eq_nil_or_concat after with rfl | ⟨init, end_, rfl⟩
    · rfl
    · have hsame : before ++ e :: init = es' := by
        rw [List.concat_eq_append, ← List.cons_append, ← List.append_assoc] at hes
        exact (List.append_inj' hes rfl).1
      have := hes' e (by rw [← hsame]; exact List.mem_append_right _ (List.mem_cons_self ..))
      rw [houtcome] at this
      cases this
  cases heffect with
  | aged hes _ =>
      have := hes e (by rw [hsplit]; exact List.mem_append_right _ (List.mem_cons_self ..))
      rw [houtcome] at this
      cases this
  | failed v y es' hes hes' _ => exact hend es' _ hes hes'
  | succeeded v y es' hes hes' => exact hend es' _ hes hes'

/-- An entry of the log after a segment is an old one or one of the segment's. -/
theorem entries_split {ref : Ref} {now : Nat} {es : List HandshakeEvent}
    {log before after : List LogEntry} {e : LogEntry}
    (h : log ++ entries ref now es = before ++ e :: after) :
    (∃ mid, log = before ++ e :: mid ∧ after = mid ++ entries ref now es) ∨
    ∃ pre ev post, es = pre ++ ev :: post ∧ e = ⟨ref, now, ev⟩ ∧
      before = log ++ entries ref now pre ∧ after = entries ref now post := by
  rcases List.append_eq_append_iff.mp h with ⟨mid, rfl, hmid⟩ | ⟨mid, rfl, hmid⟩
  · obtain ⟨pre, rest, rfl, rfl, hrest⟩ := List.map_eq_append_iff.mp hmid
    obtain ⟨ev, post, rfl, rfl, rfl⟩ := List.map_eq_cons_iff.mp hrest
    exact .inr ⟨pre, ev, post, rfl, rfl, rfl, rfl⟩
  · cases mid with
    | nil =>
        obtain ⟨ev, post, rfl, rfl, rfl⟩ := List.map_eq_cons_iff.mp hmid.symm
        exact .inr ⟨[], ev, post, rfl, rfl, by simp [entries], rfl⟩
    | cons e' mid =>
        obtain ⟨rfl, rfl⟩ := List.cons.inj hmid
        exact .inl ⟨mid, rfl, rfl⟩

/-- Without tracking there is nothing to keep. -/
theorem tidy_effect {settings : AuthSettings} {now : Nat} {t t' : AuthSecurityTracker}
    {es : List HandshakeEvent} (heffect : TrackerEffect settings now t es t')
    (htidy : ∀ u, t.Tidy u (settings.limitsOf u)) (u : String) :
    t'.Tidy u (settings.limitsOf u) := by
  cases heffect with
  | aged hes haged => exact (htidy u).aged fun x => haged u x
  | failed v y es' hes hes' htakes =>
      intro hlimits x
      have hne : (u, x) ≠ (v, y) := by
        rintro ⟨⟩
        simp [AuthSecurityTracker.takesFailure, hlimits] at htakes
      rcases (AuthSecurityTracker.find_recordFailure_of_takes htakes).2 u x hne with h | ⟨h, -⟩
      · exact h.trans (htidy u hlimits x)
      · exact h
  | succeeded v y es' hes hes' =>
      intro hlimits x
      rw [AuthSecurityTracker.find_recordSuccess]
      split
      · rfl
      · exact htidy u hlimits x

/-! ### When a lock falls -/

/-- A failure that is recorded now locks the authid. -/
def AuthSecurityTracker.wouldLock (t : AuthSecurityTracker) (u x : String)
    (limits : RealmLimitSettings) (now : Nat) : Bool :=
  t.takesFailure u x limits now &&
    decide (limits.maxFailedAuth ≤
      ((((t.find u x).filter (AuthSecurityTracker.live now)).map (·.count)).getD 0 : Nat) + 1)

/-- Only a failure locks an authid. -/
theorem locks_effect {settings : AuthSettings} {now : Nat} {t t' : AuthSecurityTracker}
    {es : List HandshakeEvent} {u x : String} (heffect : TrackerEffect settings now t es t')
    (hbefore : t.Unlocked u x now) (hafter : ¬ t'.Unlocked u x now) :
    .failure u x ∈ es ∧ t.wouldLock u x (settings.limitsOf u) now = true := by
  cases heffect with
  | aged hes haged => exact absurd (hbefore.aged (haged u x)) hafter
  | failed v y es' hes hes' htakes =>
      obtain ⟨hfind, hothers⟩ := AuthSecurityTracker.find_recordFailure_of_takes htakes
      by_cases hkey : (u, x) = (v, y)
      · cases hkey
        refine ⟨by simp [hes], ?_⟩
        unfold AuthSecurityTracker.wouldLock
        rw [htakes, Bool.true_and, decide_eq_true_eq]
        by_contra hno
        refine hafter fun record lockedUntil hrecord hlock => ?_
        rw [hfind] at hrecord
        cases hrecord
        -- The lock, if there is one, is the old record's.
        cases hr : t.find u x with
        | none =>
            rw [hr] at hno hlock
            simp only [Option.filter_none, Option.map_none, Option.getD_none] at hno
            unfold AuthSecurityTracker.failedRecord at hlock
            simp only [Option.filter_none, Option.getD_none, if_neg hno] at hlock
            cases hlock
        | some r =>
            rw [hr] at hno hlock
            cases hlive : AuthSecurityTracker.live now r with
            | false =>
                have hfilter : (some r).filter (AuthSecurityTracker.live now) = none := by
                  simp [hlive]
                rw [hfilter] at hno hlock
                simp only [Option.map_none, Option.getD_none] at hno
                unfold AuthSecurityTracker.failedRecord at hlock
                simp only [Option.getD_none, if_neg hno] at hlock
                cases hlock
            | true =>
                have hfilter : (some r).filter (AuthSecurityTracker.live now) = some r := by
                  simp [hlive]
                rw [hfilter] at hno hlock
                simp only [Option.map_some, Option.getD_some] at hno
                unfold AuthSecurityTracker.failedRecord at hlock
                simp only [Option.getD_some, if_neg hno] at hlock
                exact hbefore r lockedUntil hr hlock
      · exact absurd (hbefore.aged (hothers u x hkey)) hafter
  | succeeded v y es' hes hes' =>
      refine absurd (fun record lockedUntil hrecord hlock => ?_) hafter
      rw [AuthSecurityTracker.find_recordSuccess] at hrecord
      split at hrecord
      · cases hrecord
      · exact hbefore record lockedUntil hrecord hlock

/-! ### The worker -/

namespace HandshakeWorker

/-- No other handshake for the authid is in flight. -/
def aloneInFlight (w : HandshakeWorker) (ref : Ref) (u x : String) : Bool :=
  w.peers.cells.zipIdx.all fun q => q.2 == ref || !inFlight q.1.state q.1.handler u x

/-- The authid of the session that a handler is about to open. -/
def openingAuthId : Await → Option String
  | .sending _ (.welcomeAnonymous _ details) | .sending _ (.welcome _ _ details _ _) =>
      some details.authId
  | _ => none

/-- The authid is not locked at this time. -/
def unlocked (t : AuthSecurityTracker) (u x : String) (now : Nat) : Bool :=
  ((t.find u x).bind (·.lockedUntil)).all fun lockedUntil => decide (lockedUntil ≤ now)

def lockoutSafe (w : HandshakeWorker) (now : Nat) : HandshakeInput → Bool
  | .handler ref .done =>
      (w.peers.get? ref).all fun p =>
        ((failureKey p.state p.handler).all fun key =>
          !w.tracker.wouldLock key.1 key.2 (w.settings.limitsOf key.1) now ||
            w.aloneInFlight ref key.1 key.2) &&
        ((p.handler.bind openingAuthId).all fun authId =>
          p.state.pendingAuthId == some authId ||
            p.state.realmUri.all fun u => unlocked w.tracker u authId now)
  | _ => true

/-- When the failure that locks an authid is recorded, no other handshake for it is in flight; and a
session opens for the authid that its HELLO named, or for one that is not locked. -/
def LockoutSafe (w : HandshakeWorker) (input : Nat × HandshakeInput) : Prop :=
  w.lockoutSafe input.1 input.2 = true

instance (w : HandshakeWorker) (input : Nat × HandshakeInput) : Decidable (w.LockoutSafe input) :=
  inferInstanceAs (Decidable (_ = true))

/-- The records agree with the log; while an authid is locked no handshake for it is in flight; and
the log keeps to the lockout. -/
structure LockoutOk (settings : AuthSettings) (now : Nat) (w : HandshakeWorker) : Prop where
  configured : w.settings = settings
  realm : ∀ ref p, w.peers.get? ref = some p → RealmOk settings p.state
  await : ∀ ref p, w.peers.get? ref = some p → ∀ a ∈ p.handler, AwaitOk settings p.state a
  closing : ∀ ref p, w.peers.get? ref = some p → ∀ c ∈ p.closers,
    c.1 = .closing ∨ ∃ previous, c.1 = .sending previous .goodbye
  tidy : ∀ u, w.tracker.Tidy u (settings.limitsOf u)
  agrees : ∀ u x, Agrees (settings.limitsOf u) now (w.tracker.find u x)
    (streak (settings.limitsOf u).lockoutMs.toNat u x w.log)
  free : ∀ u x, w.tracker.Unlocked u x now ∨
    ∀ ref p, w.peers.get? ref = some p → inFlight p.state p.handler u x = false
  held : ∀ u x before e after, w.log = before ++ e :: after →
    Locking (settings.limitsOf u) u x before e →
    now < e.time + (settings.limitsOf u).lockoutMs.toNat →
    ∃ n, streak (settings.limitsOf u).lockoutMs.toNat u x w.log = some (n, e.time) ∧
      (settings.limitsOf u).maxFailedAuth ≤ n
  kept : LockoutKept settings w.log

theorem lockoutOk_initial (settings : AuthSettings) : LockoutOk settings 0 (initial settings) where
  configured := rfl
  realm ref p hp := by cases hp
  await ref p hp := by cases hp
  closing ref p hp := by cases hp
  tidy u _ x := rfl
  agrees u x := nofun
  free u x := .inl nofun
  held u x before e after hlog := by
    have := congrArg List.length hlog
    simp [initial] at this
  kept u x before e after hlog := by
    have := congrArg List.length hlog
    simp [initial] at this

variable {settings : AuthSettings} {w : HandshakeWorker} {ref : Ref} {p : Peer} {now now' : Nat}

/-- Time passes. -/
theorem LockoutOk.later (h : LockoutOk settings now w) (hn : now ≤ now') :
    LockoutOk settings now' w where
  configured := h.configured
  realm := h.realm
  await := h.await
  closing := h.closing
  tidy := h.tidy
  agrees u x := (h.agrees u x).mono hn
  free u x := (h.free u x).imp (fun hu r l hr hl => Nat.le_trans (hu r l hr hl) hn) id
  held u x before e after hlog hlock ht :=
    h.held u x before e after hlog hlock (Nat.lt_of_le_of_lt hn ht)
  kept := h.kept

/-- An authid that the log has locked is locked. -/
theorem LockoutOk.locked (h : LockoutOk settings now w) {u x : String} {before after : List LogEntry}
    {e : LogEntry} (hlog : w.log = before ++ e :: after)
    (hlock : Locking (settings.limitsOf u) u x before e)
    (ht : now < e.time + (settings.limitsOf u).lockoutMs.toNat) : ¬ w.tracker.Unlocked u x now := by
  obtain ⟨n, hstreak, hmax⟩ := h.held u x before e after hlog hlock ht
  have hagrees := h.agrees u x
  rw [hstreak] at hagrees
  obtain ⟨r, hr, hl⟩ := hagrees.locked hmax ht
  exact fun hu => absurd (hu r _ hr hl) (Nat.not_le.mpr ht)

/-- **A segment keeps to the lockout.** -/
theorem LockoutOk.settle (h : LockoutOk settings now w) (hp : w.peers.get? ref = some p) {n : Nat}
    {table : LinkedMap Nat Ref} {sc : Scene} {f : Peer → Peer}
    (hrealm : RealmOk settings (f { p with state := sc.state }).state)
    (hawait : ∀ a ∈ (f { p with state := sc.state }).handler,
      AwaitOk settings (f { p with state := sc.state }).state a)
    (hclosing : ∀ c ∈ (f { p with state := sc.state }).closers,
      c.1 = .closing ∨ ∃ previous, c.1 = .sending previous .goodbye)
    (heffect : TrackerEffect settings now w.tracker sc.events sc.tracker)
    (htouch : ∀ u x, ∀ e ∈ sc.events, e.touches u x = true →
      inFlight p.state p.handler u x = true ∨ w.tracker.Unlocked u x now)
    (hflight : ∀ u x, inFlight (f { p with state := sc.state }).state
        (f { p with state := sc.state }).handler u x = true →
      inFlight p.state p.handler u x = true ∨ sc.tracker.Unlocked u x now)
    (hlock : ∀ u x, .failure u x ∈ sc.events →
      w.tracker.wouldLock u x (settings.limitsOf u) now = true →
      inFlight (f { p with state := sc.state }).state (f { p with state := sc.state }).handler u x =
        false ∧
      ∀ r q, r ≠ ref → w.peers.get? r = some q → inFlight q.state q.handler u x = false) :
    LockoutOk settings now (HandshakeWorker.settle
      { w with connectionStates := table, nextAuthenticator := n } ref now sc f) := by
  have hget : ∀ r, (HandshakeWorker.settle
      { w with connectionStates := table, nextAuthenticator := n } ref now sc f).peers.get? r =
      if r = ref then some (f { p with state := sc.state }) else w.peers.get? r := by
    intro r
    rw [get?_settle, hp]
    rfl
  have hlog : (HandshakeWorker.settle
      { w with connectionStates := table, nextAuthenticator := n } ref now sc f).log =
      w.log ++ entries ref now sc.events := rfl
  -- Whatever the segment touches is not locked.
  have hunlocked : ∀ u x, ∀ e ∈ sc.events, e.touches u x = true → w.tracker.Unlocked u x now := by
    intro u x e he ht
    rcases htouch u x e he ht with hf | hu
    · rcases h.free u x with hu | hnone
      · exact hu
      · rw [hnone ref p hp] at hf
        cases hf
    · exact hu
  have hpeers : ∀ {P : Peer → Prop}, P (f { p with state := sc.state }) →
      (∀ r q, w.peers.get? r = some q → P q) → ∀ r q, (HandshakeWorker.settle
        { w with connectionStates := table, nextAuthenticator := n } ref now sc f).peers.get? r =
        some q → P q := by
    intro P hnew hold r q hq
    rw [hget] at hq
    split at hq
    · cases hq
      exact hnew
    · exact hold r q hq
  -- While an authid is locked, the segment does nothing about it.
  have hcalm : ∀ u x before e after, w.log = before ++ e :: after →
      Locking (settings.limitsOf u) u x before e →
      now < e.time + (settings.limitsOf u).lockoutMs.toNat →
      ∀ e' ∈ sc.events, e'.touches u x = false := by
    intro u x before e after hsplit hlocking ht e' he'
    refine Bool.eq_false_iff.mpr fun htouches => ?_
    exact h.locked hsplit hlocking ht (hunlocked u x e' he' htouches)
  refine
    { configured := h.configured
      realm := hpeers hrealm h.realm
      await := hpeers hawait h.await
      closing := hpeers hclosing h.closing
      tidy := tidy_effect heffect h.tidy
      agrees := fun u x => ?_
      free := fun u x => ?_
      held := fun u x before e after hsplit hlocking ht => ?_
      kept := fun u x before e after hsplit hlocking e' he' ht => ?_ }
  · rw [hlog]
    refine agrees_effect heffect h.agrees (fun v y he => ?_) u x
    exact hunlocked v y _ he (by simp [HandshakeEvent.touches, HandshakeEvent.fails])
  · by_cases hafter : sc.tracker.Unlocked u x now
    · exact .inl hafter
    · right
      by_cases hbefore : w.tracker.Unlocked u x now
      · obtain ⟨hfailure, hwould⟩ := locks_effect heffect hbefore hafter
        obtain ⟨hnew, hothers⟩ := hlock u x hfailure hwould
        intro r q hq
        rw [hget] at hq
        split at hq
        · cases hq
          exact hnew
        · next hr => exact hothers r q hr hq
      · have hnone := (h.free u x).resolve_left hbefore
        refine hpeers ?_ hnone
        refine Bool.eq_false_iff.mpr fun hf => ?_
        rcases hflight u x hf with hf | hu
        · rw [hnone ref p hp] at hf
          cases hf
        · exact hafter hu
  · rw [hlog] at hsplit ⊢
    rcases entries_split hsplit with ⟨mid, hmid, -⟩ | ⟨pre, ev, post, hev, rfl, rfl, rfl⟩
    · have hquiet := hcalm u x before e mid hmid hlocking ht
      rw [streak_append]
      · exact h.held u x before e mid hmid hlocking ht
      · intro e' he'
        obtain ⟨ev, hev, rfl⟩ := List.mem_map.mp he'
        have := hquiet ev hev
        simp only [HandshakeEvent.touches, Bool.or_eq_false_iff] at this
        exact ⟨this.1.2, this.2⟩
    · obtain ⟨hfails, n, hstreak, hmax⟩ := hlocking
      have hnil := heffect.last hev hfails
      subst hnil
      refine ⟨n, ?_, hmax⟩
      rw [hev]
      simpa [entries] using hstreak
  · rw [hlog] at hsplit
    rcases entries_split hsplit with ⟨mid, hmid, rfl⟩ | ⟨pre, ev, post, hev, rfl, rfl, rfl⟩
    · rcases List.mem_append.mp he' with he' | he'
      · exact h.kept u x before e mid hmid hlocking e' he' ht
      · obtain ⟨ev, hev, rfl⟩ := List.mem_map.mp he'
        have := hcalm u x before e mid hmid hlocking ht ev hev
        simp only [HandshakeEvent.touches, Bool.or_eq_false_iff] at this
        exact this.1.1
    · have hnil := heffect.last hev hlocking.1
      subst hnil
      cases he'

/-- A segment of the handler. -/
theorem LockoutOk.settle_handler (h : LockoutOk settings now w) (hp : w.peers.get? ref = some p)
    {n : Nat} {table : LinkedMap Nat Ref} {segment : Segment}
    (hreport : Report settings now w.tracker p.state p.handler segment)
    (hlock : ∀ u x, .failure u x ∈ segment.1.events → failureKey p.state p.handler = some (u, x) →
      w.tracker.wouldLock u x (settings.limitsOf u) now = true →
      ∀ r q, r ≠ ref → w.peers.get? r = some q → inFlight q.state q.handler u x = false) :
    LockoutOk settings now (HandshakeWorker.settle
      { w with connectionStates := table, nextAuthenticator := n } ref now segment.1
      fun p => { p with handler := segment.2 }) := by
  refine h.settle hp hreport.realm hreport.await (h.closing ref p hp) hreport.effect hreport.touch
    hreport.flight fun u x hfailure hwould => ?_
  obtain ⟨hkey, hended⟩ := hreport.fails u x hfailure
  exact ⟨hended u x, hlock u x hfailure hkey hwould⟩

/-- A segment of a removal or drain leaves the tracker alone. -/
theorem LockoutOk.settle_closer (h : LockoutOk settings now w) (hp : w.peers.get? ref = some p)
    {n : Nat} {table : LinkedMap Nat Ref} {sc : Scene}
    {g : List (Await × Bool) → List (Await × Bool)} (htracker : sc.tracker = w.tracker)
    (hevents : ∀ e ∈ sc.events, e.isTracked = false)
    (hstate : sc.state = { phase := .aborted } ∨
      (sc.state.realmUri = p.state.realmUri ∧ sc.state.realmSettings = p.state.realmSettings ∧
        sc.state.pendingAuthId = p.state.pendingAuthId ∧
        (sc.state.isPending = true → p.state.isPending = true)))
    (hclosing : ∀ c ∈ g p.closers,
      c.1 = .closing ∨ ∃ previous, c.1 = .sending previous .goodbye) :
    LockoutOk settings now (HandshakeWorker.settle
      { w with connectionStates := table, nextAuthenticator := n } ref now sc
      fun p => { p with closers := g p.closers }) := by
  refine h.settle hp ?_ (fun a ha => ?_) hclosing ?_ (fun u x e he ht => ?_)
    (fun u x hf => .inl ?_) fun u x he => by cases hevents _ he
  · rcases hstate with hs | ⟨hu, hset, -⟩
    · intro u hu
      change sc.state.realmUri = some u at hu
      rw [hs] at hu
      cases hu
    · intro u hu'
      change ∃ realm, sc.state.realmSettings = some realm ∧ _
      rw [hset]
      exact h.realm ref p hp u (hu.symm.trans hu')
  · refine (h.await ref p hp a ha).mono ?_
    rcases hstate with hs | ⟨hu, -⟩
    · exact .inl (by rw [hs])
    · exact .inr hu
  · rw [htracker]
    exact .aged (fun e he => HandshakeEvent.isOutcome_of_not_tracked (hevents e he))
      fun _ _ => .inl rfl
  · rw [HandshakeEvent.touches_of_not_tracked (hevents e he)] at ht
    cases ht
  · rcases inFlight_iff.mp hf with ⟨a, ha, hk⟩ | ⟨hu, hx, hpend⟩
    · exact inFlight_iff.mpr (.inl ⟨a, ha, hk⟩)
    · change sc.state.realmUri = some u at hu
      rcases hstate with hs | ⟨hu', -, hx', hpending⟩
      · rw [hs] at hu
        cases hu
      · exact inFlight_iff.mpr (.inr ⟨hu'.symm.trans hu, hx'.symm.trans hx, hpend.imp id hpending⟩)

/-- What a removal or drain that goes on does. -/
theorem resume_closing {a : Await} {host : Host} {fresh : Nat} {outcome : Outcome}
    {segment : Segment} {s : HandshakeState} {t : AuthSecurityTracker}
    (hw : a = .closing ∨ ∃ previous, a = .sending previous .goodbye)
    (hr : Scene.resume ⟨s, t, []⟩ host now fresh a outcome = some segment) :
    segment.1.tracker = t ∧ (∀ e ∈ segment.1.events, e.isTracked = false) ∧
      (segment.1.state = { phase := .aborted } ∨
        (segment.1.state.realmUri = s.realmUri ∧
          segment.1.state.realmSettings = s.realmSettings ∧
          segment.1.state.pendingAuthId = s.pendingAuthId ∧
          (segment.1.state.isPending = true → s.isPending = true))) ∧
      ∀ a' ∈ segment.2, a' = .closing := by
  have hquiet : Scene.Quiet t s ⟨s, t, []⟩ := ⟨rfl, (fun e he => by cases he), rfl, rfl, rfl⟩
  obtain ⟨habort, hpending⟩ := hquiet.abortPending
  have hclose : segment = Scene.closeSession ⟨s, t, []⟩ →
      segment.1.tracker = t ∧ (∀ e ∈ segment.1.events, e.isTracked = false) ∧
        (segment.1.state = { phase := .aborted } ∨
          (segment.1.state.realmUri = s.realmUri ∧
            segment.1.state.realmSettings = s.realmSettings ∧
            segment.1.state.pendingAuthId = s.pendingAuthId ∧
            (segment.1.state.isPending = true → s.isPending = true))) ∧
        ∀ a' ∈ segment.2, a' = .closing := by
    rintro rfl
    refine ⟨habort.tracker, habort.events, .inr ⟨habort.realm, habort.settings, habort.claim,
      fun hp => ?_⟩, ?_⟩
    · change (Scene.abortPending ⟨s, t, []⟩).state.isPending = true at hp
      rw [hpending] at hp
      cases hp
    · rintro _ ⟨⟩
      rfl
  rcases hw with rfl | ⟨previous, rfl⟩
  · cases outcome <;> cases hr
    refine ⟨?_, fun e he => ?_, .inl rfl, fun a' ha' => by cases ha'⟩
    · unfold Scene.finishClose
      dsimp only
      split <;> rfl
    · unfold Scene.finishClose at he
      dsimp only at he
      split at he
      · rw [List.mem_singleton.mp he]
        rfl
      · cases he
  · cases outcome with
    | done =>
        simp only [Scene.resume] at hr
        split at hr <;> cases hr <;> exact hclose rfl
    | thrown =>
        cases hr
        exact hclose rfl
    | allocated id => cases hr
    | result result => cases hr

theorem LockoutOk.addPeer (h : LockoutOk settings now w) (c : Nat) (listener : ListenerAuth)
    (flatBuffers : Bool) : LockoutOk settings now (w.addPeer c listener flatBuffers) := by
  have hpeers : ∀ {P : Peer → Prop},
      P { host := ⟨c, flatBuffers, w.workerId⟩, listener := listener } →
      (∀ r q, w.peers.get? r = some q → P q) →
      ∀ r q, (w.addPeer c listener flatBuffers).peers.get? r = some q → P q := by
    intro P hnew hold r q hq
    rw [get?_addPeer] at hq
    split at hq
    · cases hq
      exact hnew
    · exact hold r q hq
  exact
    { configured := h.configured
      realm := hpeers nofun h.realm
      await := hpeers (fun a ha => by cases ha) h.await
      closing := hpeers (fun a ha => by cases ha) h.closing
      tidy := h.tidy
      agrees := h.agrees
      free := fun u x => (h.free u x).imp id fun hnone => hpeers rfl hnone
      held := h.held
      kept := h.kept }

theorem LockoutOk.receive (h : LockoutOk settings now w) {message : HandshakeMessage} :
    LockoutOk settings now (w.receive now ref message) := by
  unfold HandshakeWorker.receive
  split
  · exact h
  · next p hp =>
    have hquiet : ∀ {es : List HandshakeEvent}, (∀ e ∈ es, e.isTracked = false) →
        Scene.Quiet w.tracker p.state ⟨p.state, w.tracker, es⟩ :=
      fun hes => ⟨rfl, hes, rfl, rfl, rfl⟩
    have hr := h.realm ref p hp
    have hreport : ∀ a, Report settings now w.tracker p.state a
        (begin w.settings p w.tracker now message) := by
      intro a
      rw [h.configured]
      cases message with
      | hello hello accepted =>
          exact Scene.handleHello_report (hquiet fun e he => by cases he) hr h.tidy ..
      | authenticate signature accepted =>
          exact Scene.handleAuthenticate_report (hquiet fun e he => by cases he) rfl hr ..
      | goodbye =>
          refine (hquiet fun e he => ?_).handleGoodbye hr _
          rw [List.mem_singleton.mp he]
          rfl
    -- A message records no failure by itself: that takes a handler that waits.
    refine h.settle_handler hp (hreport p.handler) fun u x hf => ?_
    cases ((hreport none).fails u x hf).1

theorem LockoutOk.leave (h : LockoutOk settings now w) (hp : w.peers.get? ref = some p)
    {table : LinkedMap Nat Ref} {segment : Segment} {isDrain : Bool}
    (hquiet : segment.1.Quiet w.tracker p.state)
    (hpending : segment.1.state.isPending = true → p.state.isPending = true)
    (hnext : ∀ a ∈ segment.2, a = .closing ∨ ∃ previous, a = .sending previous .goodbye) :
    LockoutOk settings now (HandshakeWorker.leave { w with connectionStates := table } now ref
      segment isDrain) := by
  refine h.settle_closer hp (g := fun l => l ++ segment.2.toList.map fun a => (a, isDrain))
    hquiet.tracker hquiet.events (.inr ⟨hquiet.realm, hquiet.settings, hquiet.claim, hpending⟩)
    fun c hc => ?_
  rcases List.mem_append.mp hc with hc | hc
  · exact h.closing ref p hp c hc
  · obtain ⟨a, ha, rfl⟩ := List.mem_map.mp hc
    exact hnext a (Option.mem_toList.mp ha)

theorem LockoutOk.leave_close (h : LockoutOk settings now w) (hp : w.peers.get? ref = some p)
    {table : LinkedMap Nat Ref} {isDrain : Bool} :
    LockoutOk settings now (HandshakeWorker.leave { w with connectionStates := table } now ref
      (Scene.closeSession ⟨p.state, w.tracker, [.leaving]⟩) isDrain) := by
  have hquiet : Scene.Quiet w.tracker p.state ⟨p.state, w.tracker, [.leaving]⟩ := by
    refine ⟨rfl, fun e he => ?_, rfl, rfl, rfl⟩
    rw [List.mem_singleton.mp he]
    rfl
  obtain ⟨habort, hpending⟩ := hquiet.abortPending
  refine h.leave hp habort (fun hp => ?_) ?_
  · change (Scene.abortPending ⟨p.state, w.tracker, [.leaving]⟩).state.isPending = true at hp
    rw [hpending] at hp
    cases hp
  · rintro _ ⟨⟩
    exact .inl rfl

theorem LockoutOk.resumeCloser (h : LockoutOk settings now w) {index : Nat} {outcome : Outcome} :
    LockoutOk settings now (w.resumeCloser now ref index outcome) := by
  unfold HandshakeWorker.resumeCloser
  split
  · exact h
  · next p hp =>
    split
    · exact h
    · next await isDrain hindex =>
      have hclosing := h.closing ref p hp _ (List.mem_of_getElem? hindex)
      split
      · exact h
      · next sc next hr =>
        obtain ⟨htracker, hevents, hstate, hnext⟩ := resume_closing hclosing hr
        refine h.settle_closer hp (g := fun l => l.set index (next, isDrain)) htracker hevents hstate
          fun c hc => ?_
        rcases List.mem_or_eq_of_mem_set hc with hc | rfl
        · exact h.closing ref p hp c hc
        · exact .inl (hnext next rfl)
      · next sc hr =>
        obtain ⟨htracker, hevents, hstate, -⟩ := resume_closing hclosing hr
        exact h.settle_closer hp (g := fun l => l.eraseIdx index) htracker hevents hstate
          fun c hc => h.closing ref p hp c (List.mem_of_mem_eraseIdx hc)

theorem opensSafely_of_safe {details : WelcomeDetails} (hp : w.peers.get? ref = some p)
    (hopening : p.handler.bind openingAuthId = some details.authId)
    (hsafe : w.LockoutSafe (now, .handler ref .done)) :
    Scene.OpensSafely w.tracker p.state now details := by
  simp only [LockoutSafe, lockoutSafe, hp, Option.all_some, hopening, Bool.and_eq_true,
    Bool.or_eq_true, beq_iff_eq] at hsafe
  refine hsafe.2.imp id fun hall u hu record lockedUntil hfind hlock => ?_
  rw [hu, Option.all_some] at hall
  unfold unlocked at hall
  rw [hfind, Option.bind_some, hlock] at hall
  simpa using hall

theorem alone_of_safe {u x : String} (hp : w.peers.get? ref = some p)
    (hkey : failureKey p.state p.handler = some (u, x))
    (hwould : w.tracker.wouldLock u x (w.settings.limitsOf u) now = true)
    (hsafe : w.LockoutSafe (now, .handler ref .done)) :
    ∀ r q, r ≠ ref → w.peers.get? r = some q → inFlight q.state q.handler u x = false := by
  simp only [LockoutSafe, lockoutSafe, hp, Option.all_some, hkey, hwould, Bool.not_true,
    Bool.false_or, Bool.and_eq_true] at hsafe
  intro r q hr hq
  have hmem : (q, r) ∈ w.peers.cells.zipIdx := List.mk_mem_zipIdx_iff_getElem?.mpr hq
  have := List.all_eq_true.mp hsafe.1 (q, r) hmem
  simpa [hr] using this

/-- A handler goes on. -/
theorem LockoutOk.resumeHandler (h : LockoutOk settings now w) {outcome : Outcome}
    (hsafe : w.LockoutSafe (now, .handler ref outcome)) :
    LockoutOk settings now (w.resumeHandler now ref outcome) := by
  unfold HandshakeWorker.resumeHandler
  split
  · exact h
  · next p hp =>
    split
    · exact h
    · next await hawait =>
      split
      · exact h
      · next segment hr =>
        have hquiet : Scene.Quiet w.tracker p.state ⟨p.state, w.tracker, []⟩ :=
          ⟨rfl, (fun e he => by cases he), rfl, rfl, rfl⟩
        have hreport : Report settings now w.tracker p.state p.handler segment := by
          rw [hawait]
          refine Scene.resume_report hquiet rfl (h.realm ref p hp)
            (h.await ref p hp await hawait) (fun previous next details hw hdone hnext => ?_) hr
          subst hdone
          have hopening : p.handler.bind openingAuthId = some details.authId := by
            rw [hawait, hw]
            rcases hnext with ⟨id, rfl⟩ | ⟨a, id, success, inHello, rfl⟩ <;> rfl
          exact opensSafely_of_safe hp hopening hsafe
        refine h.settle_handler hp hreport fun u x hfailure hkey hwould => ?_
        have hdone : outcome = .done := by
          rw [hawait] at hkey
          cases await with
          | sending previous next =>
              cases next with
              | abort exit => exact Scene.done_of_failure hquiet hr hfailure
              | _ => cases hkey
          | _ => cases hkey
        subst hdone
        rw [← h.configured] at hwould
        exact alone_of_safe hp hkey hwould hsafe

theorem LockoutOk.step (h : LockoutOk settings now w) {input : Nat × HandshakeInput}
    (hsafe : w.LockoutSafe input) (hn : now ≤ input.1) :
    LockoutOk settings input.1 (w.step input) := by
  obtain ⟨t, input⟩ := input
  have h := h.later hn
  cases input with
  | add c listener flatBuffers =>
      change LockoutOk settings t (if w.knows c then w else w.addPeer c listener flatBuffers)
      split
      · exact h
      · exact h.addPeer ..
  | message c message listener flatBuffers =>
      simp only [HandshakeWorker.step]
      split
      · exact h
      · split
        · exact h.receive
        · exact (h.addPeer c listener flatBuffers).receive
  | remove c =>
      exact remove_keeps h fun _ _ _ hp => h.leave_close hp
  | drain c reason =>
      refine drain_keeps h (fun _ _ hp => h.leave_close hp) fun ref p hp =>
        h.leave hp ⟨rfl, fun e he => ?_, rfl, rfl, rfl⟩ id ?_
      · simp only [List.mem_cons, List.not_mem_nil, or_false] at he
        rcases he with rfl | rfl <;> rfl
      · rintro _ ⟨⟩
        exact .inr ⟨_, rfl⟩
  | handler ref outcome => exact h.resumeHandler hsafe
  | closer ref index outcome => exact h.resumeCloser

/-- **The lockout is effective**, in every run under `LockoutSafe` whose clock does not go back. -/
theorem lockout_effective (settings : AuthSettings) (inputs : List (Nat × HandshakeInput))
    (w : HandshakeWorker) (hrun : Run step LockoutSafe (initial settings) inputs w)
    (hclock : (inputs.map Prod.fst).Pairwise (· ≤ ·)) : LockoutKept settings w.log := by
  have hok := hrun.timed (P := LockoutOk settings) (fun _ _ _ h hsafe hn => h.step hsafe hn) hclock
    (fun _ _ => Nat.zero_le _) (lockoutOk_initial settings)
  obtain ⟨t, ht⟩ := hok
  exact ht.kept

/-- A realm with tickets, where one failure locks an authid out for a second. -/
def ticketRealm : AuthSettings where
  realms := [{
    name := "realm1"
    auth := { methods := ["ticket"] }
    limits := { maxFailedAuth := 1, lockoutMs := 1000 } }]
  factories := ["ticket"]

/-- A client says HELLO as alice and is challenged. -/
def challenged (ref : Ref) (c : Nat) : List (Nat × HandshakeInput) :=
  [(0, .message c (.hello { realm := some "realm1", details := { authid := some "alice" } } true) {}
      false),
    (0, .handler ref (.allocated (c + 10))),
    (0, .handler ref .done),
    (0, .handler ref (.result .challenge)),
    (0, .handler ref .done)]

/-- The client answers, and is answered. -/
def answered (ref : Ref) (c : Nat) (result : AuthResult) : List (Nat × HandshakeInput) :=
  [(1, .message c (.authenticate (some "ticket") true) {} false), (1, .handler ref (.result result))]

/-- The ABORT goes out, and the failure is recorded. -/
def refusal (ref : Ref) : List (Nat × HandshakeInput) :=
  [(1, .handler ref .done), (1, .handler ref .done), (1, .handler ref .done)]

/-- One client fails, and another one comes too late. -/
def lateRun : List (Nat × HandshakeInput) :=
  challenged 0 1 ++ answered 0 1 (.failure "wamp.error.authentication_failed") ++ refusal 0 ++
    [(2, .message 2 (.hello { realm := some "realm1", details := { authid := some "alice" } } true)
      {} false)]

theorem lockout_effective_sample :
    ∃ w, Run step LockoutSafe (initial ticketRealm) lateRun w ∧
      streak 1000 "realm1" "alice" w.log = some (1, 1) ∧ LockoutKept ticketRealm w.log := by
  have hrun : Run step LockoutSafe (initial ticketRealm) lateRun _ :=
    Run.of_admitted (by decide +kernel)
  exact ⟨_, hrun, by decide +kernel, lockout_effective ticketRealm lateRun _ hrun
    (by decide +kernel)⟩

/-- Two clients are challenged before the first one fails; then the second one answers. -/
def raceRun : List (Nat × HandshakeInput) :=
  challenged 0 1 ++ challenged 1 2 ++
    answered 0 1 (.failure "wamp.error.authentication_failed") ++ refusal 0 ++
    answered 1 2 (.success { authId := "alice", authRole := "user" }) ++ [(1, .handler 1 .done)]

/-- **A handshake that is in flight when the lock falls goes on**: the credential is evaluated and
the session opened. -/
theorem lock_passed_in_flight :
    ¬ ∀ (settings : AuthSettings) (inputs : List (Nat × HandshakeInput)),
      (inputs.map Prod.fst).Pairwise (· ≤ ·) →
      LockoutKept settings (inputs.foldl step (initial settings)).log := by
  intro h
  have hkept := h ticketRealm raceRun (by decide +kernel)
  have hfailure : (((raceRun.foldl step (initial ticketRealm)).log)[10]?).map
      (fun e => (e.event.fails "realm1" "alice", e.time)) = some (true, 1) := by decide +kernel
  have hstreak : streak 1000 "realm1" "alice"
      ((raceRun.foldl step (initial ticketRealm)).log.take 11) = some (1, 1) := by decide +kernel
  have hserved : ((raceRun.foldl step (initial ticketRealm)).log.drop 11).any
      (fun e => e.event.serves "realm1" "alice" && decide (e.time < 1001)) = true := by
    decide +kernel
  generalize (raceRun.foldl step (initial ticketRealm)).log = log at *
  obtain ⟨e, he, hpair⟩ := Option.map_eq_some_iff.mp hfailure
  obtain ⟨hfails, htime⟩ := Prod.mk.inj hpair
  obtain ⟨hlt, rfl⟩ := List.getElem?_eq_some_iff.mp he
  have hsplit : log = log.take 10 ++ log[10] :: log.drop 11 := by
    rw [← List.drop_eq_getElem_cons hlt, List.take_append_drop]
  have hlocking : Locking (ticketRealm.limitsOf "realm1") "realm1" "alice" (log.take 10)
      log[10] := by
    refine ⟨hfails, 1, ?_, by decide +kernel⟩
    rw [List.take_append_getElem, htime]
    exact hstreak
  obtain ⟨e', he', hboth⟩ := List.any_eq_true.mp hserved
  obtain ⟨hserves, hsoon⟩ := Bool.and_eq_true_iff.mp hboth
  have hnot := hkept "realm1" "alice" _ _ _ hsplit hlocking e' he' (by
    rw [htime]
    exact of_decide_eq_true hsoon)
  rw [hserves] at hnot
  cases hnot

end HandshakeWorker

end Connectanum
