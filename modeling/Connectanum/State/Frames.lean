import Connectanum.Lib.Runs
import Connectanum.State.Integrity

/-!
# State — Frames

What each operation of the store leaves alone, and what the composite ones make of a realm's
record.  The proofs about whole commands use these equations and do not unfold the operations.
-/

namespace Connectanum

open Collections Machine

/-- The event of an output that announces a timeout. -/
def StoreOutput.timeout? : StoreOutput → Option InvocationTimeoutEvent
  | .invocationTimeout event => some event
  | _ => none

namespace RouterStateStore

variable (st : RouterStateStore)

/-! ### Sending -/

@[simp] theorem emit_realms (o : StoreOutput) : (st.emit o).realms = st.realms := rfl
@[simp] theorem emit_ids (o : StoreOutput) : (st.emit o).ids = st.ids := rfl
@[simp] theorem emit_timeouts (o : StoreOutput) :
    (st.emit o).invocationTimeouts = st.invocationTimeouts := rfl

@[simp] theorem send_realms (port : SendPort) (p : StoreReply) :
    (st.send port p).realms = st.realms := rfl
@[simp] theorem send_ids (port : SendPort) (p : StoreReply) : (st.send port p).ids = st.ids := rfl
@[simp] theorem send_leases (port : SendPort) (p : StoreReply) :
    (st.send port p).retryThrottleLeases = st.retryThrottleLeases := rfl
@[simp] theorem send_keys (port : SendPort) (p : StoreReply) :
    (st.send port p).retryThrottleKeysByInvocation = st.retryThrottleKeysByInvocation := rfl

/-! ### Realm records -/

@[simp] theorem setRealm_ids (uri : String) (r : RealmRecord) : (st.setRealm uri r).ids = st.ids :=
  rfl

theorem get?_setRealm (uri u : String) (r : RealmRecord) :
    (st.setRealm uri r).realms.get? u = if u = uri then some r else st.realms.get? u :=
  st.realms.get?_insert uri u r

theorem get?_modifyRealm (uri u : String) (f : RealmRecord → RealmRecord) :
    (st.modifyRealm uri f).realms.get? u =
      if u = uri then (st.realms.get? uri).map f else st.realms.get? u := by
  unfold modifyRealm
  cases h : st.realms.get? uri with
  | none =>
      by_cases e : u = uri
      · rw [if_pos e, e, h]
        rfl
      · rw [if_neg e]
  | some r => exact get?_setRealm st uri u (f r)

/-- `modifyRealm` changes the table of realms only. -/
theorem modifyRealm_frame {β : Type} (g : RouterStateStore → β)
    (hg : ∀ st uri r, g (setRealm st uri r) = g st) (uri : String)
    (f : RealmRecord → RealmRecord) : g (st.modifyRealm uri f) = g st := by
  unfold modifyRealm
  split
  · rfl
  · exact hg _ _ _

@[simp] theorem modifyRealm_ids (uri : String) (f : RealmRecord → RealmRecord) :
    (st.modifyRealm uri f).ids = st.ids := modifyRealm_frame st (·.ids) (fun _ _ _ => rfl) uri f
@[simp] theorem modifyRealm_timeouts (uri : String) (f : RealmRecord → RealmRecord) :
    (st.modifyRealm uri f).invocationTimeouts = st.invocationTimeouts :=
  modifyRealm_frame st (·.invocationTimeouts) (fun _ _ _ => rfl) uri f
@[simp] theorem modifyRealm_leases (uri : String) (f : RealmRecord → RealmRecord) :
    (st.modifyRealm uri f).retryThrottleLeases = st.retryThrottleLeases :=
  modifyRealm_frame st (·.retryThrottleLeases) (fun _ _ _ => rfl) uri f
@[simp] theorem modifyRealm_keys (uri : String) (f : RealmRecord → RealmRecord) :
    (st.modifyRealm uri f).retryThrottleKeysByInvocation = st.retryThrottleKeysByInvocation :=
  modifyRealm_frame st (·.retryThrottleKeysByInvocation) (fun _ _ _ => rfl) uri f
@[simp] theorem modifyRealm_debounces (uri : String) (f : RealmRecord → RealmRecord) :
    (st.modifyRealm uri f).pendingRetryDebounces = st.pendingRetryDebounces :=
  modifyRealm_frame st (·.pendingRetryDebounces) (fun _ _ _ => rfl) uri f

theorem get?_bumpAndNotify (uri u : String) :
    (st.bumpAndNotify uri).realms.get? u =
      if u = uri then (st.realms.get? uri).map (·.bumpVersion) else st.realms.get? u := by
  unfold bumpAndNotify
  cases h : st.realms.get? uri with
  | none =>
      by_cases e : u = uri
      · rw [if_pos e, e, h]
        rfl
      · rw [if_neg e]
  | some r => exact get?_setRealm st uri u _

theorem bumpAndNotify_frame {β : Type} (g : RouterStateStore → β)
    (hg : ∀ st uri r, g (setRealm st uri r) = g st) (he : ∀ st o, o.timeout? = none → g (emit st o) = g st)
    (uri : String) : g (st.bumpAndNotify uri) = g st := by
  unfold bumpAndNotify
  split
  · rfl
  · rw [he _ _ rfl, hg]

@[simp] theorem bumpAndNotify_ids (uri : String) : (st.bumpAndNotify uri).ids = st.ids :=
  bumpAndNotify_frame st (·.ids) (fun _ _ _ => rfl) (fun _ _ _ => rfl) uri
@[simp] theorem bumpAndNotify_timeouts (uri : String) :
    (st.bumpAndNotify uri).invocationTimeouts = st.invocationTimeouts :=
  bumpAndNotify_frame st (·.invocationTimeouts) (fun _ _ _ => rfl) (fun _ _ _ => rfl) uri
@[simp] theorem bumpAndNotify_leases (uri : String) :
    (st.bumpAndNotify uri).retryThrottleLeases = st.retryThrottleLeases :=
  bumpAndNotify_frame st (·.retryThrottleLeases) (fun _ _ _ => rfl) (fun _ _ _ => rfl) uri
@[simp] theorem bumpAndNotify_debounces (uri : String) :
    (st.bumpAndNotify uri).pendingRetryDebounces = st.pendingRetryDebounces :=
  bumpAndNotify_frame st (·.pendingRetryDebounces) (fun _ _ _ => rfl) (fun _ _ _ => rfl) uri

/-- A realm is there, or is created empty. -/
theorem getOrCreateRealm_ok {st st' : RouterStateStore} {uri : String} {realm : RealmRecord}
    (h : st.getOrCreateRealm uri = .ok (st', realm)) :
    (st' = st ∧ st.realms.get? uri = some realm) ∨
      (st.realms.get? uri = none ∧ realm = { realmUri := uri } ∧ st' = st.setRealm uri realm) := by
  unfold getOrCreateRealm at h
  split at h
  · next r hr =>
    simp only [Except.ok.injEq, Prod.mk.injEq] at h
    obtain ⟨rfl, rfl⟩ := h
    exact .inl ⟨rfl, hr⟩
  · next hr =>
    split at h
    · simp only [Except.ok.injEq, Prod.mk.injEq] at h
      obtain ⟨rfl, rfl⟩ := h
      exact .inr ⟨hr, rfl, rfl⟩
    · cases h

/-! ### Timers and deduplication tables -/

@[simp] theorem cancelInvocationTimeout_realms (uri : String) (id : Nat) :
    (st.cancelInvocationTimeout uri id).realms = st.realms := rfl
@[simp] theorem cancelInvocationTimeout_ids (uri : String) (id : Nat) :
    (st.cancelInvocationTimeout uri id).ids = st.ids := rfl

@[simp] theorem scheduleInvocationTimeout_realms (uri : String) (i : PendingInvocation) :
    (st.scheduleInvocationTimeout uri i).realms = st.realms := by
  unfold scheduleInvocationTimeout
  split
  · rfl
  · split <;> rfl
@[simp] theorem scheduleInvocationTimeout_ids (uri : String) (i : PendingInvocation) :
    (st.scheduleInvocationTimeout uri i).ids = st.ids := by
  unfold scheduleInvocationTimeout
  split
  · rfl
  · split <;> rfl

@[simp] theorem releaseRetryThrottleLease_realms (id : Nat) :
    (st.releaseRetryThrottleLease id).realms = st.realms := by
  unfold releaseRetryThrottleLease
  split <;> rfl
@[simp] theorem releaseRetryThrottleLease_ids (id : Nat) :
    (st.releaseRetryThrottleLease id).ids = st.ids := by
  unfold releaseRetryThrottleLease
  split <;> rfl
@[simp] theorem releaseRetryThrottleLease_timeouts (id : Nat) :
    (st.releaseRetryThrottleLease id).invocationTimeouts = st.invocationTimeouts := by
  unfold releaseRetryThrottleLease
  split <;> rfl
@[simp] theorem releaseRetryThrottleLease_debounces (id : Nat) :
    (st.releaseRetryThrottleLease id).pendingRetryDebounces = st.pendingRetryDebounces := by
  unfold releaseRetryThrottleLease
  split <;> rfl

@[simp] theorem dropLease_realms (key : RetryDeduplicationKey) :
    (st.dropLease key).realms = st.realms := by
  unfold dropLease
  split <;> rfl
@[simp] theorem dropLease_ids (key : RetryDeduplicationKey) : (st.dropLease key).ids = st.ids := by
  unfold dropLease
  split <;> rfl
@[simp] theorem dropLease_timeouts (key : RetryDeduplicationKey) :
    (st.dropLease key).invocationTimeouts = st.invocationTimeouts := by
  unfold dropLease
  split <;> rfl
@[simp] theorem dropLease_debounces (key : RetryDeduplicationKey) :
    (st.dropLease key).pendingRetryDebounces = st.pendingRetryDebounces := by
  unfold dropLease
  split <;> rfl

@[simp] theorem dropDebounce_realms (e : StoreError) (key : RetryDeduplicationKey) :
    (dropDebounce e st key).realms = st.realms := by
  unfold dropDebounce
  split <;> rfl
@[simp] theorem dropDebounce_ids (e : StoreError) (key : RetryDeduplicationKey) :
    (dropDebounce e st key).ids = st.ids := by
  unfold dropDebounce
  split <;> rfl
@[simp] theorem dropDebounce_timeouts (e : StoreError) (key : RetryDeduplicationKey) :
    (dropDebounce e st key).invocationTimeouts = st.invocationTimeouts := by
  unfold dropDebounce
  split <;> rfl
@[simp] theorem dropDebounce_leases (e : StoreError) (key : RetryDeduplicationKey) :
    (dropDebounce e st key).retryThrottleLeases = st.retryThrottleLeases := by
  unfold dropDebounce
  split <;> rfl
@[simp] theorem dropDebounce_keys (e : StoreError) (key : RetryDeduplicationKey) :
    (dropDebounce e st key).retryThrottleKeysByInvocation = st.retryThrottleKeysByInvocation := by
  unfold dropDebounce
  split <;> rfl

/-- The tables of the realms and the generators: what deduplication never touches. -/
theorem reap_frame {β : Type} (g : RouterStateStore → β)
    (hd : ∀ st key, g (dropLease st key) = g st) (hc : ∀ st, g (countExpiration st) = g st)
    (now : Nat) : g (st.reapExpiredRetryThrottleLeases now) = g st :=
  foldl_frame g (fun st key => (hc _).trans (hd st key)) _ st

@[simp] theorem reap_realms (now : Nat) :
    (st.reapExpiredRetryThrottleLeases now).realms = st.realms :=
  reap_frame st (·.realms) (fun _ _ => dropLease_realms _ _) (fun _ => rfl) now
@[simp] theorem reap_ids (now : Nat) : (st.reapExpiredRetryThrottleLeases now).ids = st.ids :=
  reap_frame st (·.ids) (fun _ _ => dropLease_ids _ _) (fun _ => rfl) now

theorem cancelDebounces_frame {β : Type} (g : RouterStateStore → β)
    (hd : ∀ e st key, g (dropDebounce e st key) = g st) (uri : String) (s : Nat) :
    g (st.cancelPendingRetryDebouncesForCaller uri s) = g st :=
  foldl_frame g (hd _) _ st

@[simp] theorem cancelDebounces_realms (uri : String) (s : Nat) :
    (st.cancelPendingRetryDebouncesForCaller uri s).realms = st.realms :=
  cancelDebounces_frame st (·.realms) (fun _ _ _ => dropDebounce_realms _ _ _) uri s
@[simp] theorem cancelDebounces_ids (uri : String) (s : Nat) :
    (st.cancelPendingRetryDebouncesForCaller uri s).ids = st.ids :=
  cancelDebounces_frame st (·.ids) (fun _ _ _ => dropDebounce_ids _ _ _) uri s
@[simp] theorem cancelDebounces_timeouts (uri : String) (s : Nat) :
    (st.cancelPendingRetryDebouncesForCaller uri s).invocationTimeouts = st.invocationTimeouts :=
  cancelDebounces_frame st (·.invocationTimeouts) (fun _ _ _ => dropDebounce_timeouts _ _ _) uri s

theorem clearRetry_frame {β : Type} (g : RouterStateStore → β)
    (hl : ∀ st key, g (dropLease st key) = g st)
    (hd : ∀ e st key, g (dropDebounce e st key) = g st) (uri : String) (id : Nat) :
    g (st.clearRetryDeduplicationForRegistration uri id) = g st := by
  unfold clearRetryDeduplicationForRegistration
  dsimp only
  rw [foldl_frame g (hd _), foldl_frame g hl]

@[simp] theorem clearRetry_realms (uri : String) (id : Nat) :
    (st.clearRetryDeduplicationForRegistration uri id).realms = st.realms :=
  clearRetry_frame st (·.realms) (fun _ _ => dropLease_realms _ _)
    (fun _ _ _ => dropDebounce_realms _ _ _) uri id
@[simp] theorem clearRetry_ids (uri : String) (id : Nat) :
    (st.clearRetryDeduplicationForRegistration uri id).ids = st.ids :=
  clearRetry_frame st (·.ids) (fun _ _ => dropLease_ids _ _)
    (fun _ _ _ => dropDebounce_ids _ _ _) uri id
@[simp] theorem clearRetry_timeouts (uri : String) (id : Nat) :
    (st.clearRetryDeduplicationForRegistration uri id).invocationTimeouts =
      st.invocationTimeouts :=
  clearRetry_frame st (·.invocationTimeouts) (fun _ _ => dropLease_timeouts _ _)
    (fun _ _ _ => dropDebounce_timeouts _ _ _) uri id

@[simp] theorem ensureCapacity_realms (e : ProcedureEntry) (p : RetryDeduplication) :
    (st.ensureRetryDeduplicationCapacity e p).1.realms = st.realms := by
  unfold ensureRetryDeduplicationCapacity
  dsimp only
  split <;> rfl
@[simp] theorem ensureCapacity_ids (e : ProcedureEntry) (p : RetryDeduplication) :
    (st.ensureRetryDeduplicationCapacity e p).1.ids = st.ids := by
  unfold ensureRetryDeduplicationCapacity
  dsimp only
  split <;> rfl

@[simp] theorem ensureCapacity_leases (e : ProcedureEntry) (p : RetryDeduplication) :
    (st.ensureRetryDeduplicationCapacity e p).1.retryThrottleLeases = st.retryThrottleLeases := by
  unfold ensureRetryDeduplicationCapacity
  dsimp only
  split <;> rfl

/-! ### Composite removals -/

@[simp] theorem removeInvocation_ids (uri : String) (id : Nat) :
    (st.removeInvocation uri id).ids = st.ids := modifyRealm_ids st uri _

theorem get?_removeSubscription (uri u : String) (s id : Nat) :
    (st.removeSubscription uri s id).realms.get? u =
      if u = uri then (st.realms.get? uri).map (·.removeSubscription s id)
      else st.realms.get? u := by
  unfold removeSubscription
  cases hr : st.realms.get? uri with
  | none =>
      by_cases e : u = uri
      · rw [if_pos e, e, hr]
        rfl
      · rw [if_neg e]
  | some realm =>
      cases hf : realm.subscriptions.findSubscriptionById id with
      | none =>
          by_cases e : u = uri
          · simp [e, hr, RealmRecord.removeSubscription, hf]
          · simp [e, hf]
      | some found =>
          simp only [hf, get?_bumpAndNotify, Option.map_some, RealmRecord.removeSubscription]
          by_cases e : u = uri
          · rw [if_pos e, if_pos e]
            split <;> split <;> simp [get?_setRealm]
          · rw [if_neg e, if_neg e]
            split <;> split <;> simp [get?_setRealm, e]

/-- An unsubscription changes the realm's record and sends events. -/
theorem removeSubscription_frame {β : Type} (g : RouterStateStore → β)
    (hg : ∀ st uri r, g (setRealm st uri r) = g st) (he : ∀ st o, o.timeout? = none → g (emit st o) = g st)
    (uri : String) (s id : Nat) : g (st.removeSubscription uri s id) = g st := by
  unfold removeSubscription
  split
  · rfl
  · split
    · rfl
    · dsimp only
      rw [bumpAndNotify_frame _ g hg he]
      split <;> split <;> simp only [he _ (subscriptionMetaEvent ..) rfl, hg]

theorem get?_unregisterProcedure (uri u : String) (s id : Nat) :
    (st.unregisterProcedure uri s id).realms.get? u =
      if u = uri then (st.realms.get? uri).map (·.unregisterProcedure s id)
      else st.realms.get? u := by
  unfold unregisterProcedure
  cases hr : st.realms.get? uri with
  | none =>
      by_cases e : u = uri
      · rw [if_pos e, e, hr]
        rfl
      · rw [if_neg e]
  | some realm =>
      cases hf : realm.procedures.findProcedureByRegistrationId id with
      | none =>
          by_cases e : u = uri
          · simp [e, hr, RealmRecord.unregisterProcedure, hf]
          · simp [e, hf]
      | some found =>
          simp only [hf, get?_bumpAndNotify, Option.map_some, RealmRecord.unregisterProcedure]
          by_cases e : u = uri
          · rw [if_pos e, if_pos e]
            split <;> split <;> simp [get?_setRealm]
          · rw [if_neg e, if_neg e]
            split <;> split <;> simp [get?_setRealm, e]

/-- An unregistration changes the realm's record and the deduplication tables. -/
theorem unregisterProcedure_frame {β : Type} (g : RouterStateStore → β)
    (hg : ∀ st uri r, g (setRealm st uri r) = g st) (he : ∀ st o, o.timeout? = none → g (emit st o) = g st)
    (hc : ∀ st uri id, g (clearRetryDeduplicationForRegistration st uri id) = g st)
    (uri : String) (s id : Nat) : g (st.unregisterProcedure uri s id) = g st := by
  unfold unregisterProcedure
  split
  · rfl
  · split
    · rfl
    · dsimp only
      rw [bumpAndNotify_frame _ g hg he]
      split <;> split <;> simp only [hc, he _ (registrationMetaEvent ..) rfl, hg]

/-- A loop whose rounds each update one realm's record updates it round by round. -/
theorem get?_foldl {ι : Type} {f : RouterStateStore → ι → RouterStateStore}
    {g : RealmRecord → ι → RealmRecord} (uri : String)
    (h : ∀ st i u, (f st i).realms.get? u =
      if u = uri then (st.realms.get? uri).map (g · i) else st.realms.get? u) (l : List ι)
    (u : String) :
    (l.foldl f st).realms.get? u =
      if u = uri then (st.realms.get? uri).map (fun r => l.foldl g r) else st.realms.get? u := by
  induction l generalizing st with
  | nil =>
      by_cases e : u = uri
      · rw [if_pos e, e]
        simp
      · rw [if_neg e]
        rfl
  | cons i rest ih =>
      rw [List.foldl_cons, ih]
      by_cases e : u = uri
      · rw [if_pos e, if_pos e, h, if_pos rfl, Option.map_map]
        rfl
      · rw [if_neg e, if_neg e, h, if_neg e]

/-- The invocations that a session's end takes with it. -/
def invocationsOf (realm : RealmRecord) (s : Nat) : List Nat :=
  (realm.invocations.values.filter fun i =>
    i.callerSessionId == s || i.calleeSessionId == s).map (·.invocationId)

/-- The record of the realm after `_removeInvocationsForSession`. -/
def withoutInvocationsOf (realm : RealmRecord) (s : Nat) : RealmRecord :=
  (invocationsOf realm s).foldl
    (fun r id => { r with invocations := r.invocations.erase id }) realm

theorem get?_removeInvocationsForSession (uri u : String) (s : Nat) :
    (st.removeInvocationsForSession uri s).realms.get? u =
      if u = uri then (st.realms.get? uri).map (withoutInvocationsOf · s)
      else st.realms.get? u := by
  unfold removeInvocationsForSession
  cases hr : st.realms.get? uri with
  | none =>
      by_cases e : u = uri
      · rw [if_pos e, e, hr]
        rfl
      · rw [if_neg e]
  | some realm =>
      have := get?_foldl st
        (f := fun st id => ((st.cancelInvocationTimeout uri id).removeInvocation uri
          id).releaseRetryThrottleLease id)
        (g := fun r id => { r with invocations := r.invocations.erase id }) uri
        (fun st id u => by
          rw [releaseRetryThrottleLease_realms]
          exact get?_modifyRealm _ uri u _) (invocationsOf realm s) u
      rw [hr] at this
      exact this

@[simp] theorem removeInvocationsForSession_ids (uri : String) (s : Nat) :
    (st.removeInvocationsForSession uri s).ids = st.ids := by
  unfold removeInvocationsForSession
  split
  · rfl
  · exact foldl_frame (·.ids) (fun st id => (releaseRetryThrottleLease_ids _ id).trans
      (removeInvocation_ids (st.cancelInvocationTimeout uri id) uri id)) _ st

@[simp] theorem removeInvocationsForSession_debounces (uri : String) (s : Nat) :
    (st.removeInvocationsForSession uri s).pendingRetryDebounces = st.pendingRetryDebounces := by
  unfold removeInvocationsForSession
  split
  · rfl
  · exact foldl_frame (·.pendingRetryDebounces) (fun st id =>
      (releaseRetryThrottleLease_debounces _ id).trans
        (modifyRealm_debounces (st.cancelInvocationTimeout uri id) uri _)) _ st

@[simp] theorem removeSubscription_ids (uri : String) (s id : Nat) :
    (st.removeSubscription uri s id).ids = st.ids :=
  removeSubscription_frame st (·.ids) (fun _ _ _ => rfl) (fun _ _ _ => rfl) uri s id

@[simp] theorem unregisterProcedure_ids (uri : String) (s id : Nat) :
    (st.unregisterProcedure uri s id).ids = st.ids :=
  unregisterProcedure_frame st (·.ids) (fun _ _ _ => rfl) (fun _ _ _ => rfl)
    (fun _ _ _ => clearRetry_ids _ _ _) uri s id

end RouterStateStore

end Connectanum
