import Connectanum.State.Close

/-!
# State — Effects

What one input of the store does to one invocation, and what it sends.

* `Change`: an invocation's record is left as it is, added, written over or removed, and which
  inputs do which; `change_handle` says that nothing else happens to it;
* `timeoutEvents_handle`: only an invocation's timer announces a timeout;
* `replies_*`: the commands that a worker awaits answer on the spot.
-/

namespace Connectanum

open Collections Machine

namespace RouterStateStore

/-! ### Timeout events -/

/-- The timeouts announced so far. -/
def timeoutEvents (st : RouterStateStore) : List InvocationTimeoutEvent :=
  st.outbox.filterMap StoreOutput.timeout?

section

variable {st st' : RouterStateStore}

/-- The announced timeouts do not see realms, ids, timers, leases and notices. -/
theorem quiet_timeoutEvents : Quiet timeoutEvents where
  realm := fun _ _ _ => rfl
  notice := fun st o ho => by cases o <;> simp_all [StoreOutput.isNotice, timeoutEvents, emit,
    StoreOutput.timeout?]
  ids := fun _ _ => rfl
  counters := fun _ _ => rfl
  timers := fun _ _ => rfl
  leases := fun _ _ _ => rfl

theorem timeoutEvents_send (st : RouterStateStore) (port : SendPort) (p : StoreReply) :
    (st.send port p).timeoutEvents = st.timeoutEvents := by
  simp [timeoutEvents, send, emit, StoreOutput.timeout?]

theorem timeoutEvents_dropDebounce (e : StoreError) (st : RouterStateStore)
    (key : RetryDeduplicationKey) : (dropDebounce e st key).timeoutEvents = st.timeoutEvents := by
  unfold dropDebounce
  split
  · rfl
  · exact timeoutEvents_send _ _ _

/-- A dispatch sends nothing by itself. -/
theorem outbox_dispatchInvocation (env : StoreEnv) (st : RouterStateStore) (uri : String)
    (caller request : Nat) (procedure : String) (options : Dict) :
    (st.dispatchInvocation env uri caller request procedure options).1.outbox = st.outbox := by
  have hschedule : ∀ (st : RouterStateStore) uri i,
      (scheduleInvocationTimeout st uri i).outbox = st.outbox := by
    intro st uri i
    unfold scheduleInvocationTimeout
    split
    · rfl
    · split <;> rfl
  have hasked : ∀ st', Asked st uri st' → st'.outbox = st.outbox := by
    rintro _ (rfl | ⟨realm, hg⟩)
    · rfl
    · rcases getOrCreateRealm_ok hg with ⟨rfl, _⟩ | ⟨_, _, rfl⟩ <;> rfl
  refine dispatchInvocation_elim (fun st' _ ha => hasked st' ha) ?_ ?_ ?_
  · exact fun st' realm _ _ _ hg _ _ _ _ _ _ => hasked st' (.inr ⟨realm, hg⟩)
  · intro st' st₁ realm _ _ _ _ hg _ _ _ _ hst₁
    have hout := hasked st' (.inr ⟨realm, hg⟩)
    rcases hst₁ with rfl | rfl <;> exact hout
  · exact fun st' realm _ _ _ _ _ _ hg _ _ _ =>
      (hschedule _ _ _).trans (hasked st' (.inr ⟨realm, hg⟩))

/-- No command announces a timeout. -/
theorem timeoutEvents_dispatchCommand (env : StoreEnv) (st : RouterStateStore)
    (c : RouterStateCommand) : (st.dispatchCommand env c).timeoutEvents = st.timeoutEvents := by
  cases hc : c.isDispatch with
  | false =>
      refine (quiet_timeoutEvents.dispatchCommand (f := fun _ events => events) st
        timeoutEvents_send env hc
        (fun uri s _ => quiet_timeoutEvents.closeSession st timeoutEvents_dropDebounce uri s)
        (fun uri s id _ => quiet_timeoutEvents.unregisterProcedure st timeoutEvents_dropDebounce
          uri s id)).trans ?_
      cases c.replyPort? <;> rfl
  | true =>
      cases c with
      | invocationDispatch uri caller request procedure options port =>
          rcases quiet_timeoutEvents.handleInvocationDispatch_cases (f := fun _ events => events) st
            timeoutEvents_send env uri caller request procedure options port with h | ⟨st', entry, policy, debounce, hash, hst, -, h⟩
          · exact h
          · -- the call is held, or answered because no more are held
            have hcap := quiet_timeoutEvents.resting.ensureCapacity st' entry policy
            simp only [dispatchCommand, h, dispatchDebounced]
            split
            · exact (timeoutEvents_dropDebounce _ st' _).trans hst
            · split
              · next he =>
                rw [he] at hcap
                exact (timeoutEvents_send _ _ _).trans (hcap.trans hst)
              · next he =>
                rw [he] at hcap
                exact hcap.trans hst
      | _ => cases hc

/-- The timer of a pending invocation announces its timeout. -/
theorem timeoutEvents_expireInvocation (st : RouterStateStore) (uri : String) (id : Nat) :
    (st.getInvocation uri id = none ∧
        (st.expireInvocation uri id).timeoutEvents = st.timeoutEvents) ∨
      ∃ i event, st.getInvocation uri id = some i ∧ event.realmUri = uri ∧
        event.invocationId = i.invocationId ∧ event.callerRequestId = i.callerRequestId ∧
        event.callerInternalSendPort = i.callerInternalSendPort ∧
        event.callerConnectionId = ((st.realms.get? uri).bind fun r =>
          (r.sessions.get? i.callerSessionId).map (·.connectionId)) ∧
        (st.expireInvocation uri id).timeoutEvents = st.timeoutEvents ++ [event] := by
  unfold expireInvocation getInvocation
  dsimp only
  cases hr : (st.cancelInvocationTimeout uri id).realms.get? uri with
  | none =>
      rw [cancelInvocationTimeout_realms] at hr
      simp [hr, cancelInvocationTimeout, timeoutEvents]
  | some realm =>
      rw [cancelInvocationTimeout_realms] at hr
      simp only [hr, Option.bind_some]
      cases hi : realm.invocations.get? id with
      | none => exact .inl ⟨rfl, rfl⟩
      | some i =>
          refine .inr ⟨i,
            { realmUri := uri
              invocationId := i.invocationId
              callerRequestId := i.callerRequestId
              callerSessionId := i.callerSessionId
              calleeSessionId := i.calleeSessionId
              callerConnectionId := (realm.sessions.get? i.callerSessionId).map (·.connectionId)
              calleeConnectionId := i.calleeConnectionId
              callerInternalSendPort := i.callerInternalSendPort
              calleeInternalSendPort := i.calleeInternalSendPort },
            rfl, rfl, rfl, rfl, rfl, rfl, ?_⟩
          dsimp only
          rw [timeoutEvents, emit, List.filterMap_append]
          refine congrArg (· ++ _) ?_
          exact (quiet_timeoutEvents.resting.bumpAndNotify _ uri).trans
            (quiet_timeoutEvents.resting.finish st uri id)

theorem timeoutEvents_dispatchPendingRetryDebounce (env : StoreEnv) (st : RouterStateStore)
    (key : RetryDeduplicationKey) :
    (st.dispatchPendingRetryDebounce env key).timeoutEvents = st.timeoutEvents := by
  unfold dispatchPendingRetryDebounce
  split
  · rfl
  · dsimp only
    refine (Quiet.replyDispatch (f := fun _ events => events) timeoutEvents_send _ _).trans
      ((quiet_timeoutEvents.resting.dispatchInvocation _ env _ _ _ _ _).trans ?_)
    split <;> rfl

end

/-! ### What leaves the invocations alone -/

/-- The connection of an open session. -/
def connectionOf (st : RouterStateStore) (u : String) (s : Nat) : Option Nat :=
  ((st.realms.get? u).bind (·.sessions.get? s)).map (·.connectionId)

/-- Nothing happened to the invocations, to their timers and to the connections of the
sessions. -/
structure Untouched (st st' : RouterStateStore) : Prop where
  pending : ∀ u i, st'.getInvocation u i = st.getInvocation u i
  ids : st'.ids.invocation = st.ids.invocation
  timers : st'.invocationTimeouts = st.invocationTimeouts
  connections : ∀ u s, st'.connectionOf u s = st.connectionOf u s
  configs : st'.realmConfigs = st.realmConfigs

namespace Untouched

variable {st st' st'' : RouterStateStore}

theorem refl (st : RouterStateStore) : Untouched st st :=
  ⟨fun _ _ => rfl, rfl, rfl, fun _ _ => rfl, rfl⟩

theorem trans (h : Untouched st st') (h' : Untouched st' st'') : Untouched st st'' :=
  ⟨fun u i => (h'.pending u i).trans (h.pending u i), h'.ids.trans h.ids,
    h'.timers.trans h.timers, fun u s => (h'.connections u s).trans (h.connections u s),
    h'.configs.trans h.configs⟩

/-- Only other tables changed. -/
theorem of_eq (hr : st'.realms = st.realms) (hi : st'.ids.invocation = st.ids.invocation)
    (ht : st'.invocationTimeouts = st.invocationTimeouts)
    (hc : st'.realmConfigs = st.realmConfigs) : Untouched st st' :=
  ⟨getInvocation_congr hr, hi, ht, fun u s => by rw [connectionOf, hr, connectionOf], hc⟩

theorem emit (h : Untouched st st') (o : StoreOutput) : Untouched st (st'.emit o) :=
  h.trans (of_eq rfl rfl rfl rfl)

theorem send (h : Untouched st st') (port : SendPort) (p : StoreReply) :
    Untouched st (st'.send port p) := h.emit _

theorem gentle : Gentle Untouched where
  refl := refl
  trans := trans
  realm := fun {st uri _ _} hr hs => by
    refine ⟨getInvocation_setRealm_same hr hs.invocations, rfl, rfl, fun u s => ?_, rfl⟩
    rw [connectionOf, get?_setRealm, connectionOf]
    by_cases e : u = uri
    · rw [if_pos e, e, hr]
      exact hs.connections s
    · rw [if_neg e]
  create := fun {st uri} hn => by
    refine ⟨getInvocation_create hn, rfl, rfl, fun u s => ?_, rfl⟩
    rw [connectionOf, get?_setRealm, connectionOf]
    by_cases e : u = uri
    · rw [if_pos e, e, hn]
      rfl
    · rw [if_neg e]
  output := fun _ _ => of_eq rfl rfl rfl rfl
  ids := fun _ _ hi => of_eq rfl hi rfl rfl
  counters := fun _ _ => of_eq rfl rfl rfl rfl
  dropLease := fun st key => of_eq (dropLease_realms st key) (by rw [dropLease_ids])
    (dropLease_timeouts st key) (by unfold dropLease; split <;> rfl)
  dropDebounce := fun e st key => of_eq (dropDebounce_realms st e key) (by rw [dropDebounce_ids])
    (dropDebounce_timeouts st e key) (by unfold dropDebounce; split <;> rfl)

end Untouched

/-! ### Dispatches -/

/-- `out` is what a dispatch made of `st`, up to tables that do not concern the invocations. -/
def DispatchedBy (env : StoreEnv) (st out : RouterStateStore) (uri : String)
    (caller request : Nat) (procedure : String) (options : Dict) : Prop :=
  ∃ st₁, Untouched st st₁ ∧ (st.Invocations → st₁.Invocations) ∧
    Untouched (st₁.dispatchInvocation env uri caller request procedure options).1 out

/-- A throttled dispatch is refused, or is a dispatch. -/
theorem dispatchThrottled_cases (env : StoreEnv) (st : RouterStateStore) (uri : String)
    (caller request : Nat) (procedure : String) (options : Dict) (port : SendPort)
    (entry : ProcedureEntry) (policy : RetryDeduplication) (key : RetryDeduplicationKey) :
    Untouched st (st.dispatchThrottled env uri caller request procedure options port entry policy
        key) ∨
      DispatchedBy env st (st.dispatchThrottled env uri caller request procedure options port
        entry policy key) uri caller request procedure options := by
  have hcap := Untouched.gentle.looking.ensureCapacity st entry policy
  have hinv := Invocations.gentle.looking.ensureCapacity st entry policy
  unfold dispatchThrottled
  split
  · have hcount : Untouched st { st with counters := { st.counters with
        totalRetryDeduplicationThrottleRejects :=
          st.counters.totalRetryDeduplicationThrottleRejects + 1 } } :=
      .of_eq rfl rfl rfl rfl
    exact .inl (hcount.send _ _)
  · split
    · next st₁ e he =>
      rw [he] at hcap
      exact .inl (hcap.send _ _)
    · next st₁ he =>
      rw [he] at hcap hinv
      refine .inr ⟨st₁, hcap, hinv, ?_⟩
      split
      · next hde =>
        rw [hde]
        exact (Untouched.refl _).send _ _
      · next st₂ d hde =>
        rw [hde]
        have hlease : Untouched st₂
            { st₂ with
              retryThrottleLeases := st₂.retryThrottleLeases.insert key
                { invocationId := d.invocationId, expiresAt := env.now + policy.expiry }
              retryThrottleKeysByInvocation :=
                st₂.retryThrottleKeysByInvocation.insert d.invocationId key } :=
          .of_eq rfl rfl rfl rfl
        exact hlease.send _ _

/-- A debounced dispatch is refused or held. -/
theorem Untouched.dispatchDebounced (env : StoreEnv) (st : RouterStateStore) (uri : String)
    (caller request : Nat) (procedure : String) (options : Dict) (port : SendPort)
    (entry : ProcedureEntry) (policy : RetryDeduplication) (debounce : Int)
    (key : RetryDeduplicationKey) :
    Untouched st (st.dispatchDebounced env uri caller request procedure options port entry policy
      debounce key) := by
  unfold RouterStateStore.dispatchDebounced
  dsimp only
  split
  · exact (Untouched.gentle.dropDebounce _ st key).trans (.of_eq rfl rfl rfl rfl)
  · have hcap := Untouched.gentle.looking.ensureCapacity st entry policy
    split
    · next he =>
      rw [he] at hcap
      exact hcap.send _ _
    · next he =>
      rw [he] at hcap
      exact hcap.trans (.of_eq rfl rfl rfl rfl)

/-- A dispatch command is refused or held, or is a dispatch. -/
theorem handleInvocationDispatch_cases (env : StoreEnv) (st : RouterStateStore) (uri : String)
    (caller request : Nat) (procedure : String) (options : Dict) (port : SendPort) :
    Untouched st (st.handleInvocationDispatch env uri caller request procedure options port) ∨
      DispatchedBy env st (st.handleInvocationDispatch env uri caller request procedure options
        port) uri caller request procedure options := by
  have hdirect : ∀ st : RouterStateStore, Untouched
      (st.dispatchInvocation env uri caller request procedure options).1
      (RouterStateStore.replyDispatch port
        (st.dispatchInvocation env uri caller request procedure options)) :=
    fun _ => Untouched.gentle.replyDispatch (.refl _)
  refine handleInvocationDispatch_elim (fun st' ha => .inr ⟨st', Untouched.gentle.looking.asked ha, Invocations.gentle.looking.asked ha,
      hdirect st'⟩) (fun st' e ha => .inl ((Untouched.gentle.looking.asked ha).send _ _)) ?_
  intro st' realm ref entry policy hash _ _ hg _ _
  have hreap := (Untouched.gentle.looking.getOrCreateRealm hg).1.trans
    (Untouched.gentle.looking.reap st' env.now)
  split
  · rcases dispatchThrottled_cases env (st'.reapExpiredRetryThrottleLeases env.now) uri caller
      request procedure options port _ _ _ with h | ⟨st₁, h₁, hi₁, hout⟩
    · exact .inl (hreap.trans h)
    · exact .inr ⟨st₁, hreap.trans h₁, fun h =>
        hi₁ (Invocations.gentle.looking.reap _ _ (h.getOrCreateRealm hg)), hout⟩
  · exact .inl (hreap.trans (Untouched.dispatchDebounced _ _ _ _ _ _ _ _ _ _ _ _))

/-- The timer of a held dispatch dispatches it. -/
theorem dispatchPendingRetryDebounce_cases (env : StoreEnv) (st : RouterStateStore)
    (key : RetryDeduplicationKey) :
    st.dispatchPendingRetryDebounce env key = st ∨
      ∃ held, st.pendingRetryDebounces.get? key = some held ∧
        DispatchedBy env st (st.dispatchPendingRetryDebounce env key) held.realmUri
          held.callerSessionId held.requestId held.procedure held.options := by
  unfold dispatchPendingRetryDebounce
  split
  · exact .inl rfl
  · next held hheld =>
    refine .inr ⟨held, hheld, _, ?_, ?_, Untouched.gentle.replyDispatch (.refl _)⟩
    · split <;> exact .of_eq rfl rfl rfl rfl
    · intro h
      split <;> exact h.of_frame (fun _ _ => rfl) rfl rfl rfl rfl

/-! ### One invocation through one input -/

/-- The input dispatches a call of `caller` under the id `request`. -/
def Dispatches (st : RouterStateStore) (input : StoreInput) (uri : String)
    (caller request : Nat) : Prop :=
  (∃ procedure options port,
    input = .command (.invocationDispatch uri caller request procedure options port)) ∨
  ∃ key held, input = .debounceTimer key ∧ st.pendingRetryDebounces.get? key = some held ∧
    held.realmUri = uri ∧ held.callerSessionId = caller ∧ held.requestId = request

/-- The same with what is called, and the port on which the caller is answered. -/
def DispatchesCall (st : RouterStateStore) (input : StoreInput) (uri : String)
    (caller request : Nat) (procedure : String) (options : Dict) (port : SendPort) : Prop :=
  input = .command (.invocationDispatch uri caller request procedure options port) ∨
  ∃ key, input = .debounceTimer key ∧ ∃ held, st.pendingRetryDebounces.get? key = some held ∧
    held.realmUri = uri ∧ held.callerSessionId = caller ∧ held.requestId = request ∧
    held.procedure = procedure ∧ held.options = options ∧ held.replyPort = port

theorem DispatchesCall.dispatches {st : RouterStateStore} {input : StoreInput} {uri : String}
    {caller request : Nat} {procedure : String} {options : Dict} {port : SendPort}
    (h : DispatchesCall st input uri caller request procedure options port) :
    Dispatches st input uri caller request := by
  rcases h with h | ⟨key, h, held, hheld, hu, hc, hr, -⟩
  · exact .inl ⟨procedure, options, port, h⟩
  · exact .inr ⟨key, held, h, hheld, hu, hc, hr⟩

/-- What becomes of the record of the invocation `id` of the realm `u`, whatever ids are in use:
a dispatch may write over a record whose id has come round. -/
inductive Motion (st : RouterStateStore) (u : String) (id : Nat) (input : StoreInput) :
    Option PendingInvocation → Prop where
  | same : Motion st u id input (st.getInvocation u id)
  /-- The first chunk of a call, or a plain call. -/
  | added {caller request : Nat} {procedure : String} {options : Dict} {port : SendPort}
      {callerSession calleeSession : SessionRecord} {callee : RegistrationRecord}
      {timeout : Option Int} (unclaimed : st.findInvocationByCaller u caller request = none)
      (fresh : id = st.ids.invocation.nextId) (present : (st.connectionOf u caller).isSome)
      (dispatch : DispatchesCall st input u caller request procedure options port) :
      Motion st u id input (some (newInvocation caller callerSession calleeSession callee id
        request procedure options timeout))
  /-- A further chunk of an open call. -/
  | chunk {i : PendingInvocation} {options : Dict} {port : SendPort}
      (found : st.getInvocation u id = some i) (isOpen : i.progressiveInvocationOpen = true)
      (dispatch : DispatchesCall st input u i.callerSessionId i.callerRequestId i.procedure
        options port) :
      Motion st u id input (some { i with progressiveInvocationOpen := options.flag "progress" })
  /-- A cancellation that waits for the callee. -/
  | marked {i : PendingInvocation} {mode : String} {port : SendPort}
      (found : st.getInvocation u id = some i)
      (isCancel : input = .command (.invocationCancel u id mode true port)) :
      Motion st u id input (some
        { i with cancelRequested := true, cancelMode := some mode, waitForCancelAck := true })
  | cancelled {mode : String} {port : SendPort}
      (isCancel : input = .command (.invocationCancel u id mode false port)) :
      Motion st u id input none
  | completed {port : Option SendPort}
      (isComplete : input = .command (.invocationComplete u id port)) : Motion st u id input none
  | expired (isTimer : input = .invocationTimer u id) : Motion st u id input none
  | closed {i : PendingInvocation} {s : Nat} (isClose : input = .command (.sessionClose u s))
      (found : st.getInvocation u id = some i) (involved : i.Involves s) :
      Motion st u id input none

/-- What becomes of the record of the invocation `id` of the realm `u`. -/
inductive Change (st : RouterStateStore) (u : String) (id : Nat) (input : StoreInput) :
    Option PendingInvocation → Prop where
  | same : Change st u id input (st.getInvocation u id)
  | added {record : PendingInvocation} (absent : st.getInvocation u id = none)
      (fresh : id = st.ids.invocation.nextId) (own : record.invocationId = id)
      (plain : record.cancelRequested = false)
      (dispatch : Dispatches st input u record.callerSessionId record.callerRequestId) :
      Change st u id input (some record)
  /-- A further chunk of its call. -/
  | chunk {i : PendingInvocation} {progress : Bool} (found : st.getInvocation u id = some i)
      (dispatch : Dispatches st input u i.callerSessionId i.callerRequestId) :
      Change st u id input (some { i with progressiveInvocationOpen := progress })
  /-- A cancellation that waits for the callee. -/
  | marked {i : PendingInvocation} {mode : String} {port : SendPort}
      (found : st.getInvocation u id = some i)
      (isCancel : input = .command (.invocationCancel u id mode true port)) :
      Change st u id input (some
        { i with cancelRequested := true, cancelMode := some mode, waitForCancelAck := true })
  | cancelled {mode : String} {port : SendPort}
      (isCancel : input = .command (.invocationCancel u id mode false port)) :
      Change st u id input none
  | completed {port : Option SendPort}
      (isComplete : input = .command (.invocationComplete u id port)) : Change st u id input none
  | expired (isTimer : input = .invocationTimer u id) : Change st u id input none
  | closed {i : PendingInvocation} {s : Nat} (isClose : input = .command (.sessionClose u s))
      (found : st.getInvocation u id = some i) (involved : i.Involves s) :
      Change st u id input none

theorem Motion.of_untouched {st st' : RouterStateStore} {u : String} {id : Nat}
    {input : StoreInput} (h : Untouched st st') :
    Motion st u id input (st'.getInvocation u id) := by
  rw [h.pending]
  exact .same

/-- The invocation found for a caller's request is pending under its own id. -/
theorem OwnKeys.get_of_find {st : RouterStateStore} (h : st.OwnKeys) {uri : String}
    {caller request : Nat} {i : PendingInvocation}
    (hf : st.findInvocationByCaller uri caller request = some i) :
    st.getInvocation uri i.invocationId = some i ∧ i.callerSessionId = caller ∧
      i.callerRequestId = request := by
  obtain ⟨realm, hr, hfound⟩ := Option.bind_eq_some_iff.mp hf
  obtain ⟨k, hk⟩ := LinkedMap.mem_values.mp (List.mem_of_find?_eq_some hfound)
  have hget : st.getInvocation uri k = some i := getInvocation_some.mpr ⟨realm, hr, hk⟩
  have hp := List.find?_some hfound
  simp only [Bool.and_eq_true, beq_iff_eq] at hp
  refine ⟨?_, hp.1, hp.2⟩
  rw [h uri k i hget]
  exact hget

/-- A request is unclaimed when no pending invocation is its. -/
theorem findInvocationByCaller_eq_none {st : RouterStateStore} {uri : String}
    {caller request : Nat} :
    st.findInvocationByCaller uri caller request = none ↔
      ∀ id i, st.getInvocation uri id = some i →
        ¬ (i.callerSessionId = caller ∧ i.callerRequestId = request) := by
  rw [findInvocationByCaller, Option.bind_eq_none_iff]
  constructor
  · intro h id i hi
    obtain ⟨realm, hr, hget⟩ := getInvocation_some.mp hi
    have hnone := List.find?_eq_none.mp (h realm hr) i (LinkedMap.mem_values.mpr ⟨id, hget⟩)
    simpa using hnone
  · intro h realm hr
    refine List.find?_eq_none.mpr fun i hi => ?_
    obtain ⟨id, hget⟩ := LinkedMap.mem_values.mp hi
    simpa using h id i (getInvocation_some.mpr ⟨realm, hr, hget⟩)

/-- A dispatch for a request that is pending: refused, or the record is written back. -/
theorem dispatchInvocation_found (env : StoreEnv) {st : RouterStateStore} {uri : String}
    {caller request : Nat} (procedure : String) (options : Dict) {i : PendingInvocation}
    (hf : st.findInvocationByCaller uri caller request = some i) :
    (st.dispatchInvocation env uri caller request procedure options).1 = st ∨
      i.progressiveInvocationOpen = true ∧ i.procedure = procedure ∧
        ∀ u id, (st.dispatchInvocation env uri caller request procedure
            options).1.getInvocation u id =
          if u = uri ∧ id = i.invocationId then
            some { i with progressiveInvocationOpen := options.flag "progress" }
          else st.getInvocation u id := by
  obtain ⟨realm, hr, hfound⟩ := Option.bind_eq_some_iff.mp hf
  have hg : st.getOrCreateRealm uri = .ok (st, realm) := by
    rw [RouterStateStore.getOrCreateRealm, hr]
  simp only [dispatchInvocation, hg]
  split
  · exact .inl rfl
  · rw [hfound]
    simp only [dispatchContinuation]
    split
    · exact .inl rfl
    · next hopen =>
      split
      · exact .inl rfl
      · next hproc =>
        refine .inr ⟨by simpa using hopen, not_not.mp hproc, fun u id => ?_⟩
        have hput := getInvocation_inserted hg rfl (r := RealmRecord.bumpVersion { realm with
          invocations := realm.invocations.insert i.invocationId
            { i with progressiveInvocationOpen := options.flag "progress" } }) rfl u id
        split <;> exact hput

theorem timeouts_schedule_congr {st st' : RouterStateStore}
    (ht : st'.invocationTimeouts = st.invocationTimeouts) {uri : String} {i : PendingInvocation} :
    (st'.scheduleInvocationTimeout uri i).invocationTimeouts =
      (st.scheduleInvocationTimeout uri i).invocationTimeouts := by
  rw [scheduleInvocationTimeout, scheduleInvocationTimeout]
  cases i.timeout with
  | none => exact ht
  | some t =>
      dsimp only
      split
      · exact ht
      · rw [ht]

/-- A dispatch for an unclaimed request: refused, or a record is added and its timer started. -/
theorem dispatchInvocation_unclaimed (env : StoreEnv) {st : RouterStateStore} {uri : String}
    {caller request : Nat} (procedure : String) (options : Dict)
    (hf : st.findInvocationByCaller uri caller request = none) {out : RouterStateStore}
    (hout : out = (st.dispatchInvocation env uri caller request procedure options).1) :
    (∀ u id, out.getInvocation u id = st.getInvocation u id) ∧
        out.invocationTimeouts = st.invocationTimeouts ∨
      (st.connectionOf uri caller).isSome ∧
        ∃ callerSession calleeSession callee timeout i, i = newInvocation caller callerSession
            calleeSession callee st.ids.invocation.nextId request procedure options timeout ∧
          (∀ u id, out.getInvocation u id =
            if u = uri ∧ id = st.ids.invocation.nextId then some i else st.getInvocation u id) ∧
          out.invocationTimeouts = (st.scheduleInvocationTimeout uri i).invocationTimeouts := by
  subst hout
  have hasked : ∀ st', Asked st uri st' → (∀ u id, st'.getInvocation u id = st.getInvocation u id) ∧
      st'.invocationTimeouts = st.invocationTimeouts := fun st' ha =>
    have h := Untouched.gentle.looking.asked ha
    ⟨h.pending, h.timers⟩
  refine dispatchInvocation_elim (fun st' _ ha => .inl (hasked st' ha)) ?_ ?_ ?_
  · intro _ _ _ _ _ hg _ hfound
    rw [← findInvocationByCaller_getOrCreateRealm hg, hf] at hfound
    cases hfound
  · intro st' st₁ realm _ ref entry _ hg _ _ _ _ hst₁
    have htimers := (hasked st' (.inr ⟨realm, hg⟩)).2
    rcases hst₁ with rfl | rfl <;> exact .inl ⟨getInvocation_kept hg rfl rfl, htimers⟩
  · intro st' realm session ref entry callee timeout calleeSession hg hs _ _ i
    have hids := getOrCreateRealm_ids hg
    have htimers := (hasked st' (.inr ⟨realm, hg⟩)).2
    have hconn := (Untouched.gentle.looking.getOrCreateRealm hg).1.connections uri caller
    refine .inr ⟨?_, session, calleeSession, callee, timeout, i, by rw [← hids], fun u id => ?_,
      timeouts_schedule_congr (by exact htimers)⟩
    · rw [← hconn, connectionOf, getOrCreateRealm_get hg, Option.bind_some, hs]
      rfl
    · rw [← hids]
      exact (getInvocation_congr (scheduleInvocationTimeout_realms _ uri _) u id).trans
        (getInvocation_inserted hg rfl rfl u id)

theorem motion_dispatch {env : StoreEnv} {st out : RouterStateStore} (h : st.OwnKeys)
    {uri : String} {caller request : Nat} {procedure : String} {options : Dict} {port : SendPort}
    {input : StoreInput} (hd : DispatchedBy env st out uri caller request procedure options)
    (hin : DispatchesCall st input uri caller request procedure options port) (u : String)
    (id : Nat) : Motion st u id input (out.getInvocation u id) := by
  obtain ⟨st₁, h₁, -, hout⟩ := hd
  have hkeys : st₁.OwnKeys := fun u id i hi => h u id i (by rw [← h₁.pending]; exact hi)
  rw [hout.pending]
  cases hf : st₁.findInvocationByCaller uri caller request with
  | some i =>
      rcases dispatchInvocation_found env procedure options hf with hsame | ⟨hopen, rfl, hput⟩
      · rw [hsame, h₁.pending]
        exact .same
      · obtain ⟨hget, rfl, rfl⟩ := hkeys.get_of_find hf
        rw [h₁.pending] at hget
        rw [hput, h₁.pending]
        by_cases e : u = uri ∧ id = i.invocationId
        · rw [if_pos e, e.1, e.2]
          exact .chunk hget hopen hin
        · rw [if_neg e]
          exact .same
  | none =>
      have hnone : st.findInvocationByCaller uri caller request = none := by
        rw [findInvocationByCaller_eq_none] at hf ⊢
        intro id i hi
        exact hf id i (by rw [h₁.pending]; exact hi)
      rcases dispatchInvocation_unclaimed env procedure options hf rfl with
        ⟨hsame, -⟩ | ⟨hpresent, _, _, _, _, _, rfl, hput, -⟩
      · rw [hsame, h₁.pending]
        exact .same
      · rw [hput, h₁.pending, h₁.ids]
        by_cases e : u = uri ∧ id = st.ids.invocation.nextId
        · obtain ⟨rfl, rfl⟩ := e
          rw [if_pos ⟨rfl, rfl⟩]
          exact .added hnone rfl (by rw [← h₁.connections]; exact hpresent) hin
        · rw [if_neg e]
          exact .same

theorem getInvocation_close {st : RouterStateStore} {uri : String} {realm : RealmRecord}
    (hr : st.realms.get? uri = some realm) (s : Nat) (u : String) (id : Nat) :
    (st.closeSession uri s).getInvocation u id =
      if u = uri ∧ id ∈ invocationsOf realm s then none else st.getInvocation u id := by
  have hremoved : ((st.cancelPendingRetryDebouncesForCaller uri s).removeInvocationsForSession uri
      s).getInvocation u id =
      if u = uri ∧ id ∈ invocationsOf realm s then none else st.getInvocation u id := by
    rw [getInvocation, get?_removeInvocationsForSession, cancelDebounces_realms, getInvocation]
    by_cases e : u = uri
    · rw [if_pos e, e, hr]
      simp [get?_withoutInvocationsOf]
    · simp [e]
  rw [closeSession, hr]
  dsimp only
  split
  · exact hremoved
  · have herase : ∀ st : RouterStateStore, (st.modifyRealm uri fun r =>
        { r with sessions := r.sessions.erase s }).getInvocation u id = st.getInvocation u id := by
      intro st
      unfold modifyRealm
      split
      · rfl
      · next r hr' => exact getInvocation_setRealm_same hr' (by rfl) u id
    rw [getInvocation_congr (emit_realms _ _), getInvocation_bumpAndNotify,
      (Untouched.gentle.looking.foldl _ (fun st id => Untouched.gentle.unregisterProcedure st uri s id) _).pending,
      (Untouched.gentle.looking.foldl _ (fun st id => Untouched.gentle.removeSubscription st uri s id) _).pending,
      herase]
    exact hremoved

/-- A closed session has no connection. -/
theorem connectionOf_close (st : RouterStateStore) (uri : String) (s : Nat) :
    (st.closeSession uri s).connectionOf uri s = none := by
  unfold closeSession
  split
  · next hr => rw [connectionOf, hr]; rfl
  · dsimp only
    split
    · next hn => rw [connectionOf, hn]; rfl
    · generalize (st.cancelPendingRetryDebouncesForCaller uri s).removeInvocationsForSession uri s =
        st₁
      have herase : (st₁.modifyRealm uri fun r =>
          { r with sessions := r.sessions.erase s }).connectionOf uri s = none := by
        rw [connectionOf, get?_modifyRealm, if_pos rfl]
        cases st₁.realms.get? uri with
        | none => rfl
        | some realm =>
            rw [Option.map_some, Option.bind_some, SplayMap.get?_erase_self]
            rfl
      rw [((Untouched.gentle.looking.bumpAndNotify _ uri).emit _).connections,
        (Untouched.gentle.looking.foldl _ (fun st id => Untouched.gentle.unregisterProcedure st uri s id) _).connections,
        (Untouched.gentle.looking.foldl _ (fun st id => Untouched.gentle.removeSubscription st uri s id) _).connections]
      exact herase

theorem getInvocation_complete (st : RouterStateStore) (uri : String) (i : Nat) (u : String)
    (id : Nat) :
    (st.completeInvocation uri i).1.getInvocation u id =
      if u = uri ∧ id = i then none else st.getInvocation u id := by
  unfold completeInvocation
  dsimp only
  split
  · next hnone =>
    by_cases e : u = uri ∧ id = i
    · rw [if_pos e, e.1, e.2]
      exact hnone
    · rw [if_neg e]
      rfl
  · rw [getInvocation_congr (releaseRetryThrottleLease_realms _ _), getInvocation_removeInvocation]
    rfl

theorem getInvocation_touch (st : RouterStateStore) (uri : String) (i : Nat) (u : String)
    (id : Nat) : (st.touchInvocation uri i).1.getInvocation u id = st.getInvocation u id := by
  unfold touchInvocation
  split
  · rfl
  · split
    · rfl
    · exact getInvocation_congr (scheduleInvocationTimeout_realms _ _ _) u id

/-- A cancellation that does not wait for the callee removes its invocation. -/
theorem getInvocation_cancel (st : RouterStateStore) (uri : String) (i : Nat) (mode u : String)
    (id : Nat) :
    (st.cancelInvocation uri i mode false).1.getInvocation u id =
      if u = uri ∧ id = i then none else st.getInvocation u id := by
  unfold cancelInvocation
  split
  · next hnone =>
    by_cases e : u = uri ∧ id = i
    · rw [if_pos e, e.1, e.2]
      exact hnone
    · rw [if_neg e]
  · next j hj =>
    dsimp only
    rw [if_neg Bool.false_ne_true, getInvocation_congr (releaseRetryThrottleLease_realms _ _),
      getInvocation_removeInvocation, getInvocation_congr (cancelInvocationTimeout_realms _ _ _),
      getInvocation_put hj]
    by_cases e : u = uri ∧ id = i
    · rw [if_pos e, if_pos e]
    · rw [if_neg e, if_neg e, if_neg e]

theorem getInvocation_expire (st : RouterStateStore) (uri : String) (i : Nat) (u : String)
    (id : Nat) :
    (st.expireInvocation uri i).getInvocation u id =
      if u = uri ∧ id = i then none else st.getInvocation u id := by
  have hnone : ∀ st' : RouterStateStore, (∀ u id, st'.getInvocation u id = st.getInvocation u id) →
      st.getInvocation uri i = none →
      st'.getInvocation u id = if u = uri ∧ id = i then none else st.getInvocation u id := by
    intro st' hsame hi
    by_cases e : u = uri ∧ id = i
    · rw [if_pos e, hsame, e.1, e.2]
      exact hi
    · rw [if_neg e, hsame]
  unfold expireInvocation
  dsimp only
  split
  · next hr =>
    rw [cancelInvocationTimeout_realms] at hr
    exact hnone _ (fun _ _ => rfl) (by rw [getInvocation, hr]; rfl)
  · next realm hr =>
    rw [cancelInvocationTimeout_realms] at hr
    split
    · next hi => exact hnone _ (fun _ _ => rfl) (by rw [getInvocation, hr]; exact hi)
    · rw [getInvocation_congr (emit_realms _ _), getInvocation_bumpAndNotify,
        getInvocation_congr (releaseRetryThrottleLease_realms _ _), getInvocation_removeInvocation]
      rfl

/-- **Every way in which an input changes an invocation.** -/
theorem motion_handle {st : RouterStateStore} (h : st.OwnKeys) (env : StoreEnv)
    (input : StoreInput) (u : String) (id : Nat) :
    Motion st u id input ((st.handle env input).getInvocation u id) := by
  have hsame : ∀ {st'}, Untouched st st' → Motion st u id input (st'.getInvocation u id) :=
    fun h => .of_untouched h
  cases input with
  | invocationTimer uri i =>
      simp only [handle]
      split
      · rw [getInvocation_expire]
        by_cases e : u = uri ∧ id = i
        · rw [if_pos e, e.1, e.2]
          exact .expired rfl
        · rw [if_neg e]
          exact .same
      · exact .same
  | debounceTimer key =>
      simp only [handle]
      rcases dispatchPendingRetryDebounce_cases env st key with he | ⟨held, hheld, hd⟩
      · rw [he]
        exact .same
      · exact motion_dispatch h hd
          (.inr ⟨key, rfl, held, hheld, rfl, rfl, rfl, rfl, rfl, rfl⟩) u id
  | command c =>
      simp only [handle]
      cases c with
      | sessionOpen uri session =>
          simp only [dispatchCommand, openSession]
          split
          · exact .same
          · next st' realm hg =>
            have hr := getOrCreateRealm_get hg
            rw [getInvocation_congr (emit_realms _ _), getInvocation_bumpAndNotify,
              getInvocation_setRealm_same hr (by rfl)]
            exact hsame (Untouched.gentle.looking.getOrCreateRealm hg).1
      | sessionClose uri s =>
          simp only [dispatchCommand]
          cases hr : st.realms.get? uri with
          | none =>
              simp only [closeSession, hr]
              exact .same
          | some realm =>
              rw [getInvocation_close hr]
              by_cases e : u = uri ∧ id ∈ invocationsOf realm s
              · obtain ⟨i, hi, hinv⟩ := (mem_invocationsOf h hr s id).mp e.2
                rw [if_pos e, e.1]
                exact .closed rfl hi hinv
              · rw [if_neg e]
                exact .same
      | invocationDispatch uri caller request procedure options port =>
          rcases handleInvocationDispatch_cases env st uri caller request procedure options port
            with hu | hd
          · exact hsame hu
          · exact motion_dispatch h hd (.inl rfl) u id
      | invocationCancel uri i mode waitForAck port =>
          simp only [dispatchCommand, send]
          rw [getInvocation_congr (emit_realms _ _)]
          cases waitForAck with
          | false =>
              rw [getInvocation_cancel]
              by_cases e : u = uri ∧ id = i
              · obtain ⟨rfl, rfl⟩ := e
                rw [if_pos ⟨rfl, rfl⟩]
                exact .cancelled rfl
              · rw [if_neg e]
                exact .same
          | true =>
              unfold cancelInvocation
              split
              · exact .same
              · next j hj =>
                dsimp only
                rw [if_pos rfl, getInvocation_congr (cancelInvocationTimeout_realms _ _ _),
                  getInvocation_put hj]
                by_cases e : u = uri ∧ id = i
                · obtain ⟨rfl, rfl⟩ := e
                  rw [if_pos ⟨rfl, rfl⟩]
                  exact .marked hj rfl
                · rw [if_neg e]
                  exact .same
      | invocationComplete uri i port =>
          have hdone : Motion st u id (.command (.invocationComplete uri i port))
              ((st.completeInvocation uri i).1.getInvocation u id) := by
            rw [getInvocation_complete]
            by_cases e : u = uri ∧ id = i
            · obtain ⟨rfl, rfl⟩ := e
              rw [if_pos ⟨rfl, rfl⟩]
              exact .completed rfl
            · rw [if_neg e]
              exact .same
          simp only [dispatchCommand]
          split
          · exact hdone
          · exact hdone
      | invocationTouch uri i port =>
          have htouch : Motion st u id (.command (.invocationTouch uri i port))
              ((st.touchInvocation uri i).1.getInvocation u id) := by
            rw [getInvocation_touch]
            exact .same
          simp only [dispatchCommand]
          split
          · exact htouch
          · exact htouch
      | _ => exact hsame (Untouched.gentle.dispatchCommand st env rfl)

/-- Where no id has come round, a dispatch writes over no record. -/
theorem change_handle {st : RouterStateStore} (h : st.Invocations)
    (hx : ¬ st.ids.invocation.Exhausted) (env : StoreEnv) (input : StoreInput) (u : String)
    (id : Nat) : Change st u id input ((st.handle env input).getInvocation u id) := by
  have hmotion := motion_handle h.ownKeys env input u id
  generalize (st.handle env input).getInvocation u id = o at hmotion
  cases hmotion with
  | same => exact .same
  | added _ fresh _ dispatch =>
      have hnone : st.getInvocation u id = none := by
        cases hg : st.getInvocation u id with
        | none => rfl
        | some i =>
            have hle := (h.own_key u id i hg).2
            rw [fresh, WampIdGenerator.nextId_of_not_exhausted hx] at hle
            omega
      exact .added hnone fresh rfl rfl dispatch.dispatches
  | chunk found _ dispatch => exact .chunk found dispatch.dispatches
  | marked found isCancel => exact .marked found isCancel
  | cancelled isCancel => exact .cancelled isCancel
  | completed isComplete => exact .completed isComplete
  | expired isTimer => exact .expired isTimer
  | closed isClose found involved => exact .closed isClose found involved

/-- An input draws at most one invocation id. -/
theorem invocationIds_handle (env : StoreEnv) (st : RouterStateStore) (input : StoreInput) :
    (st.handle env input).ids.invocation = st.ids.invocation ∨
      (st.handle env input).ids.invocation = st.ids.invocation.next := by
  have hdispatch : ∀ {out uri caller request procedure options},
      DispatchedBy env st out uri caller request procedure options →
      out.ids.invocation = st.ids.invocation ∨ out.ids.invocation = st.ids.invocation.next := by
    rintro out uri caller request procedure options ⟨st₁, h₁, -, hout⟩
    have hspec := (dispatchInvocation_spec env st₁ uri caller request procedure options).1
    rw [hout.ids, ← h₁.ids]
    generalize (st₁.dispatchInvocation env uri caller request procedure options).1 = st₂ at hspec
    generalize (st₁.dispatchInvocation env uri caller request procedure options).2 = r at hspec
    cases hspec with
    | refused _ _ ids => exact ids
    | continued _ _ _ ids => exact .inl ids
    | added _ _ _ _ _ _ ids => exact .inr ids
  cases input with
  | invocationTimer uri i =>
      refine .inl ?_
      simp only [handle]
      split
      · simp only [expireInvocation]
        split
        · rfl
        · split
          · rfl
          · simp
      · rfl
  | debounceTimer key =>
      rcases dispatchPendingRetryDebounce_cases env st key with he | ⟨held, _, hd⟩
      · exact .inl (by rw [handle, he])
      · exact hdispatch hd
  | command c =>
      cases c with
      | sessionOpen uri session =>
          simp only [handle, dispatchCommand, openSession]
          split
          · exact .inl rfl
          · next hg =>
            refine .inl ?_
            rw [emit_ids, bumpAndNotify_ids, setRealm_ids]
            exact (Untouched.gentle.looking.getOrCreateRealm hg).1.ids
      | sessionClose uri s =>
          refine .inl ?_
          simp only [handle, dispatchCommand]
          rw [closeSession_ids]
      | invocationDispatch uri caller request procedure options port =>
          rcases handleInvocationDispatch_cases env st uri caller request procedure options port
            with hu | hd
          · exact .inl hu.ids
          · exact hdispatch hd
      | invocationCancel uri i mode waitForAck port =>
          refine .inl ?_
          simp only [handle, dispatchCommand, cancelInvocation, send_ids]
          split
          · rfl
          · split
            · rw [cancelInvocationTimeout_ids, modifyRealm_ids]
            · rw [releaseRetryThrottleLease_ids, removeInvocation_ids, cancelInvocationTimeout_ids,
                modifyRealm_ids]
      | invocationComplete uri i port =>
          have hdone : (st.completeInvocation uri i).1.ids = st.ids := by
            simp only [completeInvocation]
            split
            · rfl
            · rw [releaseRetryThrottleLease_ids, removeInvocation_ids, cancelInvocationTimeout_ids]
          refine .inl ?_
          simp only [handle, dispatchCommand]
          split
          · rw [hdone]
          · rw [send_ids, hdone]
      | invocationTouch uri i port =>
          have htouch : (st.touchInvocation uri i).1.ids = st.ids := by
            simp only [touchInvocation]
            split
            · rfl
            · split
              · rfl
              · exact scheduleInvocationTimeout_ids _ _ _
          refine .inl ?_
          simp only [handle, dispatchCommand]
          split
          · rw [htouch]
          · rw [send_ids, htouch]
      | _ => exact .inl (Untouched.gentle.dispatchCommand st env rfl).ids

end RouterStateStore

end Connectanum
