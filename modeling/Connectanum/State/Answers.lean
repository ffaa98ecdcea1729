import Connectanum.State.Moves

/-!
# State — Answers

Every command that carries a reply port is answered on it exactly once.  A dispatch may be held;
then it is owed its answer as long as it is held, and what ends the hold sends it.

* `owed`: the answers sent on a port and the dispatches held for it;
* `owed_handle`: an input adds one for the port that it carries, and nothing else changes it;
* `EndsHold`, `hold_lasts`: a hold is ended by its timer, a later call with its key, the close of
  its caller or the removal of its registration, and by nothing else;
* `answered_once`: both over whole runs, with the disposal of the store.
-/

namespace Connectanum

open Collections Machine

/-- The port on which the sender of the input waits. -/
def StoreInput.replyPort? : StoreInput → Option SendPort
  | .command c => c.replyPort?
  | .invocationTimer _ _ => none
  | .debounceTimer _ => none

/-- The output is an answer on the port. -/
def StoreOutput.answers (port : SendPort) : StoreOutput → Bool
  | .reply p _ => p == port
  | _ => false

/-- The output announces that the registration is gone. -/
def StoreOutput.removes (registrationId : Nat) : StoreOutput → Bool
  | .registrationMeta event => event.type == .deleted && event.registrationId == registrationId
  | _ => false

namespace RouterStateStore

/-- The answers sent on a port. -/
def answersOn (st : RouterStateStore) (port : SendPort) : Nat :=
  st.outbox.countP (StoreOutput.answers port)

/-- The dispatches held for a port. -/
def heldOn (st : RouterStateStore) (port : SendPort) : Nat :=
  st.pendingRetryDebounces.entries.countP fun e => e.2.replyPort == port

/-- The answers sent on a port and those that are still owed. -/
def owed (port : SendPort) (st : RouterStateStore) : Nat := st.answersOn port + st.heldOn port

/-- One more answer, if the port is `p`. -/
def oneMore (p port : SendPort) (n : Nat) : Nat := n + (port == p).toNat

/-! ### An answer is sent or owed -/

section

variable (p : SendPort) (st : RouterStateStore)

theorem owed_emit {o : StoreOutput} (h : o.answers p = false) : owed p (st.emit o) = owed p st := by
  simp [owed, answersOn, heldOn, emit, h]

theorem quiet_owed : Quiet (owed p) where
  realm := fun _ _ _ => rfl
  notice := fun st o ho => owed_emit p st (by cases o <;> first | rfl | cases ho)
  ids := fun _ _ => rfl
  counters := fun _ _ => rfl
  timers := fun _ _ => rfl
  leases := fun _ _ _ => rfl

theorem owed_send (port : SendPort) (payload : StoreReply) :
    owed p (st.send port payload) = owed p st + (port == p).toNat := by
  have hone : List.countP (StoreOutput.answers p) [.reply port payload] = (port == p).toNat := by
    rw [List.countP_singleton]
    cases h : port == p <;> simp [StoreOutput.answers, h]
  simp only [owed, answersOn, heldOn, send, emit, List.countP_append, hone]
  omega

/-- What is dropped from the held ones is answered. -/
theorem owed_dropDebounce (e : StoreError) (key : RetryDeduplicationKey) :
    owed p (dropDebounce e st key) = owed p st := by
  unfold dropDebounce
  cases hk : st.pendingRetryDebounces.get? key with
  | none => rfl
  | some pending =>
      have hcount := st.pendingRetryDebounces.countP_erase (fun e => e.2.replyPort == p) hk
      dsimp only at hcount ⊢
      rw [owed_send]
      simp only [owed, answersOn, heldOn]
      omega

/-- Holding a dispatch is owing its answer. -/
theorem owed_hold {key : RetryDeduplicationKey} (pending : PendingRetryDebounce)
    (h : st.pendingRetryDebounces.get? key = none) :
    owed p { st with pendingRetryDebounces := st.pendingRetryDebounces.insert key pending } =
      owed p st + (pending.replyPort == p).toNat := by
  have hcount := st.pendingRetryDebounces.countP_insert (fun e => e.2.replyPort == p) pending h
  dsimp only at hcount
  simp only [owed, answersOn, heldOn, hcount]
  omega

theorem ensureCapacity_debounces (entry : ProcedureEntry) (policy : RetryDeduplication) :
    (st.ensureRetryDeduplicationCapacity entry policy).1.pendingRetryDebounces =
      st.pendingRetryDebounces := by
  simp only [ensureRetryDeduplicationCapacity]
  split <;> rfl

theorem owed_dispatchDebounced (env : StoreEnv) (uri : String) (caller request : Nat)
    (procedure : String) (options : Dict) (port : SendPort) (entry : ProcedureEntry)
    (policy : RetryDeduplication) (debounce : Int) (key : RetryDeduplicationKey) :
    owed p (st.dispatchDebounced env uri caller request procedure options port entry policy debounce
      key) = owed p st + (port == p).toNat := by
  have hcap := (quiet_owed p).resting.ensureCapacity st entry policy
  have hheld := ensureCapacity_debounces st entry policy
  unfold dispatchDebounced
  dsimp only
  split
  · next previous hprevious =>
    -- the earlier call is answered, and its place is free for the later one
    have hfree : (dropDebounce (.command autoDeduplicationUri) st key).pendingRetryDebounces.get?
        key = none := by
      rw [dropDebounce, hprevious]
      exact LinkedMap.get?_erase_self _ _
    have hdrop := owed_dropDebounce p st (.command autoDeduplicationUri) key
    generalize dropDebounce (.command autoDeduplicationUri) st key = st' at hfree hdrop
    rw [← hdrop]
    exact owed_hold p
      { st' with counters := { st'.counters with
          totalRetryDeduplicationDebounceReplacements :=
            st'.counters.totalRetryDeduplicationDebounceReplacements + 1 } } _ hfree
  · next hnone =>
    split
    · next he =>
      rw [he] at hcap
      rw [owed_send, hcap]
    · next st' he =>
      rw [he] at hcap hheld
      rw [← hcap]
      exact owed_hold p st' _ (by rw [hheld]; exact hnone)

/-- The timer of a held dispatch sends the answer that is owed. -/
theorem owed_dispatchPendingRetryDebounce (env : StoreEnv) (key : RetryDeduplicationKey) :
    owed p (st.dispatchPendingRetryDebounce env key) = owed p st := by
  unfold dispatchPendingRetryDebounce
  cases hk : st.pendingRetryDebounces.get? key with
  | none => rfl
  | some pending =>
      have hcount := st.pendingRetryDebounces.countP_erase (fun e => e.2.replyPort == p) hk
      dsimp only at hcount ⊢
      have herased : ∀ st' : RouterStateStore, st'.outbox = st.outbox →
          st'.pendingRetryDebounces = st.pendingRetryDebounces.erase key →
          owed p (replyDispatch pending.replyPort (st'.dispatchInvocation env pending.realmUri
            pending.callerSessionId pending.requestId pending.procedure pending.options)) =
            owed p st := by
        intro st' hout hheld
        refine (Quiet.replyDispatch (g := owed p) (f := oneMore p) (owed_send p) _ _).trans ?_
        rw [(quiet_owed p).resting.dispatchInvocation, oneMore, owed, answersOn, heldOn, hout, hheld, owed,
          answersOn, heldOn]
        omega
      split
      · exact herased _ rfl rfl
      · exact herased _ rfl rfl

/-- **An input adds the answer that its sender waits for**, sent or owed. -/
theorem owed_handle (env : StoreEnv) (input : StoreInput) :
    owed p (st.handle env input) = owed p st + (input.replyPort? == some p).toNat := by
  cases input with
  | invocationTimer uri id =>
      simp only [handle]
      split
      · simp only [expireInvocation]
        split
        · rfl
        · split
          · rfl
          · rw [owed_emit p _ rfl, (quiet_owed p).resting.bumpAndNotify]
            exact (quiet_owed p).resting.finish st uri id
      · rfl
  | debounceTimer key => exact owed_dispatchPendingRetryDebounce p st env key
  | command c =>
      cases hc : c.isDispatch with
      | true =>
          obtain ⟨uri, caller, request, procedure, options, port, rfl⟩ :
              ∃ uri caller request procedure options port,
                c = .invocationDispatch uri caller request procedure options port := by
            cases c with
            | invocationDispatch => exact ⟨_, _, _, _, _, _, rfl⟩
            | _ => cases hc
          rcases (quiet_owed p).handleInvocationDispatch_cases (f := oneMore p) st (owed_send p) env
            uri caller request procedure options port with h | ⟨st', _, _, _, _, hst, -, h⟩
          · exact h
          · rw [handle, dispatchCommand, h, owed_dispatchDebounced, hst]
            rfl
      | false =>
          have hdrop : ∀ e st key, owed p (dropDebounce e st key) = owed p st :=
            fun e st key => owed_dropDebounce p st e key
          have hcommand := (quiet_owed p).dispatchCommand (f := oneMore p) st (owed_send p) env hc
            (fun uri s _ => (quiet_owed p).closeSession st hdrop uri s)
            (fun uri s id _ => (quiet_owed p).unregisterProcedure st hdrop uri s id)
          refine hcommand.trans ?_
          rw [StoreInput.replyPort?]
          cases c.replyPort? <;> rfl

/-- Over a run, as many answers are sent or owed on a port as commands carry it. -/
theorem owed_run (inputs : List (StoreEnv × StoreInput)) :
    owed p (inputs.foldl step st) =
      owed p st + inputs.countP fun x => x.2.replyPort? == some p := by
  induction inputs generalizing st with
  | nil => rfl
  | cons x rest ih =>
      have hx : owed p (st.step x) = owed p st + (x.2.replyPort? == some p).toNat :=
        owed_handle p st x.1 x.2
      rw [List.foldl_cons, ih, hx, List.countP_cons]
      cases x.2.replyPort? == some p with
      | false => rfl
      | true => exact Nat.add_right_comm _ 1 _

/-- The disposal answers everything that is held. -/
theorem dispose_answers : st.dispose.answersOn p = owed p st ∧ st.dispose.heldOn p = 0 := by
  have hfold : ∀ (pendings : List PendingRetryDebounce) (st : RouterStateStore),
      (pendings.foldl (fun st pending => st.send pending.replyPort
        (.failed (.command "Router state store disposed"))) st).answersOn p =
        st.answersOn p + pendings.countP fun pending => pending.replyPort == p := by
    intro pendings
    induction pendings with
    | nil => intro st; rfl
    | cons pending rest ih =>
        intro st
        have hsend := owed_send p st pending.replyPort
          (.failed (.command "Router state store disposed"))
        have hone : (st.send pending.replyPort
            (.failed (.command "Router state store disposed"))).answersOn p =
            st.answersOn p + (pending.replyPort == p).toNat := by
          simp only [owed, heldOn, send, emit] at hsend
          exact Nat.add_right_cancel (hsend.trans (by omega))
        rw [List.foldl_cons, ih, hone, List.countP_cons]
        cases pending.replyPort == p with
        | false => rfl
        | true => exact Nat.add_right_comm _ 1 _
  refine ⟨?_, rfl⟩
  have hall := hfold st.pendingRetryDebounces.values { st with invocationTimeouts := .empty }
  refine hall.trans ?_
  rw [LinkedMap.values, List.countP_map]
  rfl

end

/-! ### What ends a hold -/

section

variable (key : RetryDeduplicationKey) (st : RouterStateStore)

/-- The dispatch held under a key. -/
def heldAt (key : RetryDeduplicationKey) (st : RouterStateStore) : Option PendingRetryDebounce :=
  st.pendingRetryDebounces.get? key

theorem quiet_heldAt : Quiet (heldAt key) where
  realm := fun _ _ _ => rfl
  notice := fun _ _ _ => rfl
  ids := fun _ _ => rfl
  counters := fun _ _ => rfl
  timers := fun _ _ => rfl
  leases := fun _ _ _ => rfl

theorem heldAt_dropDebounce (e : StoreError) (k : RetryDeduplicationKey) :
    heldAt key (dropDebounce e st k) = if key = k then none else heldAt key st := by
  unfold dropDebounce
  split
  · next hnone =>
    by_cases hk : key = k
    · rw [if_pos hk, heldAt, hk, hnone]
    · rw [if_neg hk]
  · exact LinkedMap.get?_erase _ _ _

theorem heldAt_dropDebounces (e : StoreError) (keys : List RetryDeduplicationKey) :
    heldAt key (keys.foldl (dropDebounce e) st) = if key ∈ keys then none else heldAt key st := by
  induction keys generalizing st with
  | nil => simp
  | cons k rest ih =>
      rw [List.foldl_cons, ih, heldAt_dropDebounce]
      by_cases hk : key = k
      · simp [hk]
      · simp [hk]

/-- The close of a caller ends what is held for it. -/
theorem heldAt_cancelDebounces {held : PendingRetryDebounce} (h : heldAt key st = some held)
    (uri : String) (s : Nat) :
    heldAt key (st.cancelPendingRetryDebouncesForCaller uri s) =
      if held.realmUri = uri ∧ held.callerSessionId = s then none else some held := by
  rw [cancelPendingRetryDebouncesForCaller, heldAt_dropDebounces, h]
  congr 1
  simp only [List.mem_map, List.mem_filter, Prod.exists, LinkedMap.mem_entries, Bool.and_eq_true,
    beq_iff_eq, eq_iff_iff]
  constructor
  · rintro ⟨k, pending, ⟨hk, hmatch⟩, rfl⟩
    obtain rfl := Option.some.inj (hk.symm.trans h)
    exact hmatch
  · intro hmatch
    exact ⟨key, held, ⟨h, hmatch⟩, rfl⟩

/-- The removal of a registration ends what is held for it. -/
theorem heldAt_clearRetry (uri : String) (id : Nat) :
    heldAt key (st.clearRetryDeduplicationForRegistration uri id) =
      if key.realmUri = uri ∧ key.registrationId = id then none else heldAt key st := by
  have hlease : ∀ keys : List RetryDeduplicationKey, (keys.foldl dropLease st).pendingRetryDebounces =
      st.pendingRetryDebounces :=
    fun keys => foldl_frame (·.pendingRetryDebounces) (fun st k => dropLease_debounces st k) keys st
  simp only [clearRetryDeduplicationForRegistration, heldAt_dropDebounces]
  rw [heldAt, hlease, heldAt]
  by_cases hk : key.realmUri = uri ∧ key.registrationId = id
  · rw [if_pos hk]
    cases hheld : st.pendingRetryDebounces.get? key with
    | none => exact ite_self _
    | some held =>
        refine if_pos (List.mem_filter.mpr ⟨LinkedMap.mem_keys.mpr ⟨held, hheld⟩, ?_⟩)
        simp [hk.1, hk.2]
  · rw [if_neg hk, if_neg]
    intro hmem
    have hboth := (List.mem_filter.mp hmem).2
    simp only [Bool.and_eq_true, beq_iff_eq] at hboth
    exact hk hboth

/-- The deletions of the key's registration that were announced. -/
def removals (key : RetryDeduplicationKey) (st : RouterStateStore) : Nat :=
  (st.memberEvents key.realmUri).countP (StoreOutput.removes key.registrationId)

/-- Either nothing happened to the hold and to its registration, or both are gone. -/
def KeptOrGone (key : RetryDeduplicationKey) (st st' : RouterStateStore) : Prop :=
  (heldAt key st' = heldAt key st ∧ removals key st' = removals key st) ∨
    (heldAt key st' = none ∧ removals key st < removals key st')

variable {key st} in
theorem KeptOrGone.trans {st' st'' : RouterStateStore} (h : KeptOrGone key st st')
    (h' : KeptOrGone key st' st'') : KeptOrGone key st st'' := by
  rcases h with ⟨hheld, hr⟩ | ⟨hheld, hr⟩ <;> rcases h' with ⟨hheld', hr'⟩ | ⟨hheld', hr'⟩
  · exact .inl ⟨hheld'.trans hheld, hr'.trans hr⟩
  · exact .inr ⟨hheld', hr ▸ hr'⟩
  · exact .inr ⟨hheld'.trans hheld, hr' ▸ hr⟩
  · exact .inr ⟨hheld', Nat.lt_trans hr hr'⟩

theorem KeptOrGone.foldl {ι : Type} {f : RouterStateStore → ι → RouterStateStore}
    (hf : ∀ st x, KeptOrGone key st (f st x)) (l : List ι) : KeptOrGone key st (l.foldl f st) := by
  induction l generalizing st with
  | nil => exact .inl ⟨rfl, rfl⟩
  | cons x rest ih => exact (hf st x).trans (ih (f st x))

/-- The unregistration of the last callee ends what is held for the registration. -/
theorem heldAt_unregister_found {uri : String} {realm : RealmRecord} {s id : Nat} {ref : Ref}
    {entry : ProcedureEntry} (hr : st.realms.get? uri = some realm)
    (hf : realm.procedures.findProcedureByRegistrationId id = some (ref, entry)) :
    heldAt key (st.unregisterProcedure uri s id) =
      if (entry.removeCallee id).callees.isEmpty = true ∧ key.realmUri = uri ∧
          key.registrationId = entry.registrationId then none
      else heldAt key st := by
  simp only [unregisterProcedure, hr, hf, (quiet_heldAt key).resting.bumpAndNotify]
  by_cases hlast : (entry.removeCallee id).callees.isEmpty = true
  · rw [if_pos hlast, heldAt_clearRetry]
    simp only [hlast, true_and]
    congr 1
    cases entry.callees.get? id <;> rfl
  · rw [if_neg hlast, if_neg fun hboth => hlast hboth.1]
    cases entry.callees.get? id <;> rfl

theorem removals_unregister_found {uri : String} {realm : RealmRecord} {s id : Nat} {ref : Ref}
    {entry : ProcedureEntry} (hr : st.realms.get? uri = some realm)
    (hf : realm.procedures.findProcedureByRegistrationId id = some (ref, entry)) :
    removals key (st.unregisterProcedure uri s id) = removals key st +
      if (entry.removeCallee id).callees.isEmpty = true ∧ key.realmUri = uri ∧
          key.registrationId = entry.registrationId then 1
      else 0 := by
  rw [removals, memberEvents_unregisterProcedure st _ s hr hf, List.countP_append, removals]
  congr 1
  by_cases hu : key.realmUri = uri
  · have hdeleted : ∀ details, (registrationMetaEvent uri .deleted entry details s).removes
        key.registrationId = decide (key.registrationId = entry.registrationId) := by
      intro details
      rw [Bool.eq_iff_iff]
      simp only [registrationMetaEvent, StoreOutput.removes, Bool.and_eq_true, beq_iff_eq, true_and,
        decide_eq_true_eq]
      exact eq_comm
    have hleft : ∀ details, (registrationMetaEvent uri .unregistered entry details s).removes
        key.registrationId = false := fun _ => rfl
    simp only [unregisterEvents, hu, true_and]
    cases entry.callees.get? id <;> by_cases hlast : (entry.removeCallee id).callees.isEmpty = true
    all_goals simp [hlast, hdeleted, hleft, List.countP_cons]
  · simp [hu]

/-- An unregistration ends a hold and announces that the registration is gone, or does neither. -/
theorem keptOrGone_unregister (uri : String) (s id : Nat) :
    KeptOrGone key st (st.unregisterProcedure uri s id) := by
  cases hr : st.realms.get? uri with
  | none =>
      have hkeep : st.unregisterProcedure uri s id = st := by simp only [unregisterProcedure, hr]
      rw [hkeep]
      exact .inl ⟨rfl, rfl⟩
  | some realm =>
      cases hf : realm.procedures.findProcedureByRegistrationId id with
      | none =>
          have hkeep : st.unregisterProcedure uri s id = st := by
            simp only [unregisterProcedure, hr, hf]
          rw [hkeep]
          exact .inl ⟨rfl, rfl⟩
      | some found =>
          have hheld := heldAt_unregister_found key st (s := s) hr hf
          have hgone := removals_unregister_found key st (s := s) hr hf
          split at hheld
          · next hlast =>
            rw [if_pos hlast] at hgone
            exact .inr ⟨hheld, hgone ▸ Nat.lt_succ_self _⟩
          · next hlast =>
            rw [if_neg hlast] at hgone
            exact .inl ⟨hheld, hgone⟩

theorem removals_removeSubscription (uri : String) (s id : Nat) :
    removals key (st.removeSubscription uri s id) = removals key st := by
  cases hr : st.realms.get? uri with
  | none => simp only [removeSubscription, hr]
  | some realm =>
      cases hf : realm.subscriptions.findSubscriptionById id with
      | none => simp only [removeSubscription, hr, hf]
      | some found =>
          rw [removals, memberEvents_removeSubscription st _ s hr hf, List.countP_append, removals]
          have hnone : ∀ t, (subscriptionMetaEvent uri t found.2 s).removes key.registrationId =
              false := fun _ => rfl
          split
          · rw [unsubscribeEvents, List.countP_append]
            split <;> split <;> simp [hnone]
          · simp

theorem removals_removeInvocations (uri : String) (s : Nat) :
    removals key (st.removeInvocationsForSession uri s) = removals key st := by
  unfold removeInvocationsForSession
  split
  · rfl
  · refine foldl_frame (removals key) (fun st id => ?_) _ st
    have hrelease := (Prod.mk.inj (view_release ((st.cancelInvocationTimeout uri id).removeInvocation
      uri id) key.realmUri id)).2
    rw [removals, hrelease]
    exact modifyRealm_frame _ (removals key) (fun _ _ _ => rfl) uri _

/-- The close of a session ends what is held for it as a caller, and what is held for the
registrations that are gone with it. -/
theorem heldAt_closeSession {held : PendingRetryDebounce} (h : heldAt key st = some held)
    {uri : String} {realm : RealmRecord} (hr : st.realms.get? uri = some realm) (s : Nat) :
    if held.realmUri = uri ∧ held.callerSessionId = s then heldAt key (st.closeSession uri s) = none
    else KeptOrGone key st (st.closeSession uri s) := by
  have hcancel := heldAt_cancelDebounces key st h uri s
  have hstart := (quiet_heldAt key).resting.removeInvocations
    (st.cancelPendingRetryDebouncesForCaller uri s) uri s
  have hcount : removals key ((st.cancelPendingRetryDebouncesForCaller uri s)
      |>.removeInvocationsForSession uri s) = removals key st := by
    rw [removals_removeInvocations, removals, (Prod.mk.inj (view_cancelDebounces st key.realmUri uri
      s)).2, removals]
  -- from there on only the registrations of the session matter
  have hrest : KeptOrGone key ((st.cancelPendingRetryDebouncesForCaller uri s)
      |>.removeInvocationsForSession uri s) (st.closeSession uri s) := by
    simp only [closeSession, hr]
    split
    · exact .inl ⟨rfl, rfl⟩
    · next session hsession =>
      have hleft : ∀ (subs : List Nat) (st : RouterStateStore),
          KeptOrGone key st (subs.foldl (fun st id => st.removeSubscription uri s id) st) :=
        fun subs st => KeptOrGone.foldl key st (fun st id =>
          .inl ⟨(quiet_heldAt key).calm.removeSubscription st uri s id,
            removals_removeSubscription key st uri s id⟩) subs
      have hgone : ∀ (regs : List Nat) (st : RouterStateStore),
          KeptOrGone key st (regs.foldl (fun st id => st.unregisterProcedure uri s id) st) :=
        fun regs st => KeptOrGone.foldl key st (fun st id => keptOrGone_unregister key st uri s id)
          regs
      have hbump : ∀ st : RouterStateStore,
          KeptOrGone key st ((st.bumpAndNotify uri).emit (sessionMetaEvent uri .left session)) := by
        intro st
        refine .inl ⟨(quiet_heldAt key).resting.bumpAndNotify st uri, ?_⟩
        rw [removals, memberEvents_emit, memberEvents_bumpAndNotify]
        exact congrArg (List.countP _) (List.append_nil _)
      have hforget : ∀ (st : RouterStateStore) f, KeptOrGone key st (st.modifyRealm uri f) :=
        fun st f => .inl ⟨modifyRealm_frame st (heldAt key) (fun _ _ _ => rfl) uri f,
          modifyRealm_frame st (removals key) (fun _ _ _ => rfl) uri f⟩
      exact (hforget _ _).trans ((hleft _ _).trans ((hgone _ _).trans (hbump _)))
  rw [hcancel] at hstart
  by_cases hown : held.realmUri = uri ∧ held.callerSessionId = s
  · rw [if_pos hown] at hstart ⊢
    rcases hrest with ⟨hsame, -⟩ | ⟨hnone, -⟩
    · exact hsame.trans hstart
    · exact hnone
  · rw [if_neg hown] at hstart ⊢
    exact KeptOrGone.trans (.inl ⟨hstart.trans h.symm, hcount⟩) hrest

/-- A debounced dispatch takes the place of an earlier one with its key. -/
theorem heldAt_dispatchDebounced {held : PendingRetryDebounce} (h : heldAt key st = some held)
    (env : StoreEnv) (uri : String) (caller request : Nat) (procedure : String) (options : Dict)
    (port : SendPort) (entry : ProcedureEntry) (policy : RetryDeduplication) (debounce : Int)
    (k : RetryDeduplicationKey) :
    heldAt key (st.dispatchDebounced env uri caller request procedure options port entry policy
        debounce k) = some held ∨
      key = k ∧ ∃ later, heldAt key (st.dispatchDebounced env uri caller request procedure options
        port entry policy debounce k) = some later ∧ later.replyPort = port := by
  by_cases hk : key = k
  · subst hk
    refine .inr ⟨rfl, ?_⟩
    rw [heldAt] at h
    simp only [dispatchDebounced, h]
    exact ⟨_, LinkedMap.get?_insert_self _ _ _, rfl⟩
  · left
    have hkept : ∀ (m : LinkedMap RetryDeduplicationKey PendingRetryDebounce) pending,
        (m.insert k pending).get? key = m.get? key :=
      fun m pending => (LinkedMap.get?_insert _ _ _ _).trans (if_neg hk)
    unfold dispatchDebounced
    dsimp only
    split
    · refine (hkept _ _).trans ?_
      have hdrop := heldAt_dropDebounce key st (.command autoDeduplicationUri) k
      rw [if_neg hk] at hdrop
      exact hdrop.trans h
    · have hcap := (quiet_heldAt key).resting.ensureCapacity st entry policy
      split
      · next he =>
        rw [he] at hcap
        exact hcap.trans h
      · next he =>
        rw [he] at hcap
        exact (hkept _ _).trans (hcap.trans h)

/-- What ends a hold. -/
inductive EndsHold (key : RetryDeduplicationKey) (held : PendingRetryDebounce)
    (st st' : RouterStateStore) : StoreInput → Prop where
  | fired (gone : heldAt key st' = none) : EndsHold key held st st' (.debounceTimer key)
  /-- A later call with the key is held in its place. -/
  | superseded {caller request : Nat} {procedure : String} {options : Dict} {port : SendPort}
      {later : PendingRetryDebounce}
      (sameKey : transactionHash options = .ok (some key.transactionHash))
      (taken : heldAt key st' = some later) (own : later.replyPort = port) :
      EndsHold key held st st'
        (.command (.invocationDispatch key.realmUri caller request procedure options port))
  | callerClosed (gone : heldAt key st' = none) :
      EndsHold key held st st' (.command (.sessionClose held.realmUri held.callerSessionId))
  | registrationRemoved {input : StoreInput} (gone : heldAt key st' = none)
      (removed : removals key st < removals key st') : EndsHold key held st st' input

/-- The timer takes what it dispatches out of the held ones. -/
theorem heldAt_debounceTimer (env : StoreEnv) (k : RetryDeduplicationKey) :
    heldAt key (st.handle env (.debounceTimer k)) = if key = k then none else heldAt key st := by
  simp only [handle, dispatchPendingRetryDebounce]
  cases hk : st.pendingRetryDebounces.get? k with
  | none =>
      by_cases e : key = k
      · rw [if_pos e, e]
        exact hk
      · rw [if_neg e]
  | some pending =>
      have herased : ∀ st' : RouterStateStore,
          st'.pendingRetryDebounces = st.pendingRetryDebounces.erase k →
          heldAt key (replyDispatch pending.replyPort (st'.dispatchInvocation env pending.realmUri
            pending.callerSessionId pending.requestId pending.procedure pending.options)) =
            if key = k then none else heldAt key st := by
        intro st' hst
        refine (Quiet.replyDispatch (g := heldAt key) (f := fun _ x => x) (fun _ _ _ => rfl) _
          _).trans ?_
        rw [(quiet_heldAt key).resting.dispatchInvocation, heldAt, hst]
        exact LinkedMap.get?_erase _ _ _
      dsimp only
      split
      · exact herased _ rfl
      · exact herased _ rfl

/-- **A hold lasts** until its timer, a later call with its key, the close of its caller or the
removal of its registration ends it. -/
theorem hold_lasts {held : PendingRetryDebounce} (h : heldAt key st = some held) (env : StoreEnv)
    (input : StoreInput) :
    heldAt key (st.handle env input) = some held ∨
      EndsHold key held st (st.handle env input) input := by
  cases input with
  | invocationTimer uri id =>
      left
      simp only [handle]
      split
      · refine Eq.trans ?_ h
        simp only [expireInvocation]
        split
        · rfl
        · split
          · rfl
          · exact ((quiet_heldAt key).resting.bumpAndNotify _ uri).trans
              ((quiet_heldAt key).resting.finish st uri id)
      · exact h
  | debounceTimer k =>
      have hend := heldAt_debounceTimer key st env k
      by_cases hk : key = k
      · subst hk
        exact .inr (.fired (hend.trans (if_pos rfl)))
      · exact .inl ((hend.trans (if_neg hk)).trans h)
  | command c =>
      have hsend : ∀ st port payload, heldAt key (send st port payload) = heldAt key st :=
        fun _ _ _ => rfl
      have hsame : c.isDispatch = false →
          (∀ uri s, c = .sessionClose uri s →
            heldAt key (st.closeSession uri s) = heldAt key st) →
          (∀ uri s id, c = .procedureUnregister uri s id →
            heldAt key (st.unregisterProcedure uri s id) = heldAt key st) →
          heldAt key (st.handle env (.command c)) = some held := by
        intro hc hclose hunregister
        refine ((quiet_heldAt key).dispatchCommand (f := fun _ x => x) st hsend env hc hclose
          hunregister).trans ?_
        cases c.replyPort? <;> exact h
      have hgone : KeptOrGone key st (st.handle env (.command c)) →
          heldAt key (st.handle env (.command c)) = some held ∨
            EndsHold key held st (st.handle env (.command c)) (.command c) := by
        rintro (⟨hkept, -⟩ | ⟨hnone, hless⟩)
        · exact .inl (hkept.trans h)
        · exact .inr (.registrationRemoved hnone hless)
      cases c with
      | sessionClose uri s =>
          cases hr : st.realms.get? uri with
          | none =>
              have hkeep : st.handle env (.command (.sessionClose uri s)) = st := by
                simp only [handle, dispatchCommand, closeSession, hr]
              exact .inl (by rw [hkeep, h])
          | some realm =>
              have hclose := heldAt_closeSession key st h hr s
              split at hclose
              · next hown =>
                obtain ⟨rfl, rfl⟩ := hown
                exact .inr (.callerClosed hclose)
              · exact hgone hclose
      | procedureUnregister uri s id => exact hgone (keptOrGone_unregister key st uri s id)
      | invocationDispatch uri caller request procedure options port =>
          rcases (quiet_heldAt key).handleInvocationDispatch_cases (f := fun _ x => x) st hsend env
            uri caller request procedure options port with hd | ⟨st', e, p, d, hash, hst, hwire, hd⟩
          · exact .inl (hd.trans h)
          · rcases heldAt_dispatchDebounced key st' (hst.trans h) env uri caller request procedure
              options port e p d ⟨uri, e.registrationId, hash⟩ with hd' | ⟨rfl, later, htaken, hown⟩
            · exact .inl ((congrArg (heldAt key) hd).trans hd')
            · exact .inr (.superseded hwire ((congrArg (heldAt _) hd).trans htaken) hown)
      | _ => exact .inl (hsame rfl (by rintro _ _ ⟨⟩) (by rintro _ _ _ ⟨⟩))

end

/-- The holds of the store in a state: every hold lasts until one of its four ends, and each of them
ends it. -/
structure HoldsEnd (st : RouterStateStore) : Prop where
  lasts : ∀ env input key held, heldAt key st = some held →
    heldAt key (st.handle env input) = some held ∨
      EndsHold key held st (st.handle env input) input
  fired : ∀ env key, heldAt key (st.handle env (.debounceTimer key)) = none
  /-- The caller's session is open, so its realm is there. -/
  callerClosed : ∀ env key held connection, heldAt key st = some held →
    st.connectionOf held.realmUri held.callerSessionId = some connection →
    heldAt key (st.handle env (.command (.sessionClose held.realmUri held.callerSessionId))) = none
  registrationRemoved : ∀ env key held uri s c, heldAt key st = some held →
    (c = .sessionClose uri s ∨ ∃ id, c = .procedureUnregister uri s id) →
    removals key st < removals key (st.handle env (.command c)) →
    heldAt key (st.handle env (.command c)) = none

theorem holdsEnd (st : RouterStateStore) : st.HoldsEnd where
  lasts := fun env input key held h => hold_lasts key st h env input
  fired := fun env key => (heldAt_debounceTimer key st env key).trans (if_pos rfl)
  callerClosed := by
    intro env key held connection h hopen
    cases hr : st.realms.get? held.realmUri with
    | none =>
        rw [connectionOf, hr] at hopen
        cases hopen
    | some realm =>
        have hclose := heldAt_closeSession key st h hr held.callerSessionId
        rw [if_pos ⟨rfl, rfl⟩] at hclose
        exact hclose
  registrationRemoved := by
    have hgone : ∀ {key st'}, KeptOrGone key st st' → removals key st < removals key st' →
        heldAt key st' = none := by
      rintro key st' (⟨-, hsame⟩ | ⟨hnone, -⟩) hless
      · exact absurd hsame.symm (Nat.ne_of_lt hless)
      · exact hnone
    rintro env key held uri s c h (rfl | ⟨id, rfl⟩) hless
    · cases hr : st.realms.get? uri with
      | none =>
          have hkeep : st.handle env (.command (.sessionClose uri s)) = st := by
            simp only [handle, dispatchCommand, closeSession, hr]
          rw [hkeep] at hless
          exact absurd hless (Nat.lt_irrefl _)
      | some realm =>
          have hclose := heldAt_closeSession key st h hr s
          split at hclose
          · exact hclose
          · exact hgone hclose hless
    · exact hgone (keptOrGone_unregister key st uri s id) hless

/-- **Every dispatch is answered exactly once.**  After every run of the store and for every port:

* the answers sent on the port and the dispatches held for it are as many as the commands that
  carried it.  So the port of one command is answered once and holds nothing, or it has no answer
  yet and holds that command;
* a hold lasts until its timer fires, a later call with its key takes its place, its caller closes
  or its registration is removed, and each of these ends it;
* the disposal of the store answers what is held, and nothing is held after it. -/
theorem answered_once (configs : List String) (inputs : List (StoreEnv × StoreInput))
    (port : SendPort) :
    (inputs.foldl step { realmConfigs := configs }).answersOn port +
        (inputs.foldl step { realmConfigs := configs }).heldOn port =
      inputs.countP (fun x => x.2.replyPort? == some port) ∧
    (inputs.foldl step { realmConfigs := configs }).HoldsEnd ∧
    (inputs.foldl step { realmConfigs := configs }).dispose.answersOn port =
      inputs.countP (fun x => x.2.replyPort? == some port) ∧
    (inputs.foldl step { realmConfigs := configs }).dispose.pendingRetryDebounces = .empty := by
  have hrun := owed_run port { realmConfigs := configs } inputs
  have hstart : owed port { realmConfigs := configs } = 0 := rfl
  rw [hstart, Nat.zero_add] at hrun
  exact ⟨hrun, holdsEnd _, (dispose_answers port _).1.trans hrun, rfl⟩

end RouterStateStore

end Connectanum
