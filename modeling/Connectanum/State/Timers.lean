import Connectanum.State.Progressive

/-!
# State — The timers of the invocations

A call with a timeout has a timer in the store, unless its callee keeps the time.  The timer is
started by the dispatch, started again by every touch, and stopped when the invocation ends or is
cancelled.

* `TimersExact`: a timer runs for exactly the pending invocations that have a positive timeout in
  the router and no cancellation requested;
* `Timely`: the input touches no such invocation that was cancelled, and draws no id whose timer
  still runs;
* `timers_exact`: in a run of timely inputs the timers are exact in every state;
* `cancelled_rearmed`: an invocation that was cancelled is touched, and its timer runs again.
-/

namespace Connectanum

open Collections Machine

namespace PendingInvocation

/-- The time that the router allows the call, if it keeps the time at all. -/
def routerTimeout (i : PendingInvocation) : Option Int :=
  if i.timeoutForwarded then none else i.timeout.filter (0 < ·)

/-- The time for which the invocation's timer should run. -/
def timer (i : PendingInvocation) : Option Int :=
  if i.cancelRequested then none else i.routerTimeout

theorem timer_eq_some {i : PendingInvocation} {t : Int} :
    i.timer = some t ↔
      i.cancelRequested = false ∧ i.timeoutForwarded = false ∧ i.timeout = some t ∧ 0 < t := by
  rw [timer, routerTimeout]
  cases i.cancelRequested with
  | true => simp
  | false =>
      cases i.timeoutForwarded with
      | true => simp
      | false => simp [Option.filter_eq_some_iff]

end PendingInvocation

namespace RouterStateStore

variable {st st' : RouterStateStore}

/-- A timer runs for exactly the pending invocations with a positive timeout in the router for
which no cancellation has been requested, and it runs for that timeout. -/
def TimersExact (st : RouterStateStore) : Prop :=
  ∀ u id t, st.invocationTimeouts.get? (u, id) = some t ↔
    ∃ i, st.getInvocation u id = some i ∧ i.cancelRequested = false ∧
      i.timeoutForwarded = false ∧ i.timeout = some t ∧ 0 < t

/-- If the call is new, then no timer is running under the id that is next. -/
def DrawsFreeId (st : RouterStateStore) (uri : String) (caller request : Nat) : Prop :=
  st.findInvocationByCaller uri caller request = none →
    st.invocationTimeouts.get? (uri, st.ids.invocation.nextId) = none

/-- The input touches no invocation with a timeout in the router whose cancellation was requested,
and draws no id whose timer is running. -/
def Timely (st : RouterStateStore) : StoreInput → Prop
  | .command (.invocationTouch uri id _) => ∀ i, st.getInvocation uri id = some i →
      i.routerTimeout ≠ none → i.cancelRequested = false
  | .command (.invocationDispatch uri caller request _ _ _) => st.DrawsFreeId uri caller request
  | .debounceTimer key => ∀ held, st.pendingRetryDebounces.get? key = some held →
      st.DrawsFreeId held.realmUri held.callerSessionId held.requestId
  | _ => True

theorem timely_touch {uri : String} {id : Nat}
    (h : (st.getInvocation uri id).all (!·.cancelRequested) = true) (port : Option SendPort) :
    st.Timely (.command (.invocationTouch uri id port)) := by
  intro i hi _
  rw [hi] at h
  simpa using h

theorem timersExact_iff :
    st.TimersExact ↔
      ∀ u id, st.invocationTimeouts.get? (u, id) = (st.getInvocation u id).bind (·.timer) := by
  constructor
  · intro h u id
    refine Option.ext fun t => ?_
    simp only [h u id t, Option.bind_eq_some_iff, PendingInvocation.timer_eq_some]
  · intro h u id t
    rw [h u id]
    simp only [Option.bind_eq_some_iff, PendingInvocation.timer_eq_some]

/-! ### What the updates do to the timers -/

theorem timers_schedule (st : RouterStateStore) (uri : String) (i : PendingInvocation)
    (u : String) (id : Nat) :
    (st.scheduleInvocationTimeout uri i).invocationTimeouts.get? (u, id) =
      if u = uri ∧ id = i.invocationId then
        i.routerTimeout.or (st.invocationTimeouts.get? (u, id))
      else st.invocationTimeouts.get? (u, id) := by
  rw [scheduleInvocationTimeout, PendingInvocation.routerTimeout]
  cases i.timeout with
  | none => simp
  | some t =>
      dsimp only
      by_cases ht : t ≤ 0 ∨ i.timeoutForwarded = true
      · -- no timer is started
        rw [if_pos ht]
        rcases ht with ht | ht
        · simp [Option.filter, not_lt.mpr ht]
        · simp [ht]
      · rw [if_neg ht, LinkedMap.get?_insert, LinkedMap.get?_erase]
        rw [not_or, not_le, Bool.not_eq_true] at ht
        by_cases e : u = uri ∧ id = i.invocationId
        · simp [e, ht.1, ht.2, Option.filter]
        · have hne : (u, id) ≠ (uri, i.invocationId) := fun hk => e (Prod.mk.inj hk)
          rw [if_neg hne, if_neg hne, if_neg e]

theorem timers_release (st : RouterStateStore) (uri : String) (i : Nat) (u : String) (id : Nat) :
    (((st.cancelInvocationTimeout uri i).removeInvocation uri i).releaseRetryThrottleLease
        i).invocationTimeouts.get? (u, id) =
      if u = uri ∧ id = i then none else st.invocationTimeouts.get? (u, id) := by
  rw [releaseRetryThrottleLease_timeouts, removeInvocation, modifyRealm_timeouts,
    cancelInvocationTimeout, LinkedMap.get?_erase]
  simp only [Prod.mk.injEq]

namespace TimersExact

theorem initial (configs : List String) : TimersExact { realmConfigs := configs } := by
  intro u id t
  constructor
  · intro ht
    cases ht
  · rintro ⟨i, hi, -⟩
    cases hi

theorem of_same (h : st.TimersExact) (hp : ∀ u i, st'.getInvocation u i = st.getInvocation u i)
    (ht : st'.invocationTimeouts = st.invocationTimeouts) : st'.TimersExact := by
  intro u id t
  rw [ht, hp]
  exact h u id t

theorem of_untouched (h : st.TimersExact) (hu : Untouched st st') : st'.TimersExact :=
  h.of_same hu.pending hu.timers

/-- Invocations ended, and their timers with them. -/
theorem of_ended (h : st.TimersExact) {ended : String → Nat → Prop}
    [∀ u id, Decidable (ended u id)]
    (hp : ∀ u id, st'.getInvocation u id =
      if ended u id then none else st.getInvocation u id)
    (ht : ∀ u id, st'.invocationTimeouts.get? (u, id) =
      if ended u id then none else st.invocationTimeouts.get? (u, id)) : st'.TimersExact := by
  rw [timersExact_iff] at h ⊢
  intro u id
  rw [hp, ht, h u id]
  split
  · rfl
  · rfl

/-- One record was written and its timer set to what it asks for. -/
theorem of_put (h : st.TimersExact) {uri : String} {k : Nat} {i : PendingInvocation}
    (hp : ∀ u id, st'.getInvocation u id =
      if u = uri ∧ id = k then some i else st.getInvocation u id)
    (ht : ∀ u id, st'.invocationTimeouts.get? (u, id) =
      if u = uri ∧ id = k then i.timer else st.invocationTimeouts.get? (u, id)) :
    st'.TimersExact := by
  rw [timersExact_iff] at h ⊢
  intro u id
  rw [hp, ht, h u id]
  split
  · rfl
  · rfl

/-- A dispatch that draws no id whose timer still runs. -/
theorem dispatchedBy (h : st.TimersExact) (hk : st.OwnKeys) {env : StoreEnv}
    {out : RouterStateStore} {uri : String} {caller request : Nat} {procedure : String}
    {options : Dict} (hd : DispatchedBy env st out uri caller request procedure options)
    (hfree : st.DrawsFreeId uri caller request) : out.TimersExact := by
  obtain ⟨st₁, h₁, -, hout⟩ := hd
  refine of_untouched ?_ hout
  have h' := h.of_untouched h₁
  have hkeys : st₁.OwnKeys := fun u id i hi => hk u id i (by rw [← h₁.pending]; exact hi)
  cases hf : st₁.findInvocationByCaller uri caller request with
  | none =>
      have hnone : st.findInvocationByCaller uri caller request = none := by
        rw [findInvocationByCaller_eq_none] at hf ⊢
        intro id i hi
        exact hf id i (by rw [h₁.pending]; exact hi)
      rcases dispatchInvocation_unclaimed env procedure options hf rfl with
        ⟨hp, ht⟩ | ⟨-, _, _, _, _, i, hi, hp, ht⟩
      · exact h'.of_same hp ht
      · have hid : i.invocationId = st₁.ids.invocation.nextId := by rw [hi]; rfl
        have hplain : i.cancelRequested = false := by rw [hi]; rfl
        rw [← hid] at hp
        refine h'.of_put hp fun u id => ?_
        rw [ht, timers_schedule]
        by_cases e : u = uri ∧ id = i.invocationId
        · -- no timer was left running under the id
          have hquiet : st₁.invocationTimeouts.get? (uri, i.invocationId) = none := by
            rw [h₁.timers, hid, h₁.ids]
            exact hfree hnone
          rw [if_pos e, if_pos e, e.1, e.2, hquiet, Option.or_none, PendingInvocation.timer,
            hplain]
          rfl
        · rw [if_neg e, if_neg e]
  | some i =>
      -- a further chunk changes nothing that the timer depends on
      obtain ⟨hget, -, -⟩ := hkeys.get_of_find hf
      have hspec := (dispatchInvocation_spec env st₁ uri caller request procedure options).1
      generalize (st₁.dispatchInvocation env uri caller request procedure options).1 = st₂ at hspec
      generalize (st₁.dispatchInvocation env uri caller request procedure options).2 = r at hspec
      cases hspec with
      | refused same timeouts _ => exact h'.of_same same timeouts
      | continued found pending timeouts =>
          obtain rfl := Option.some.inj (hf.symm.trans found)
          refine h'.of_put pending fun u id => ?_
          rw [timeouts]
          by_cases e : u = uri ∧ id = i.invocationId
          · rw [if_pos e, e.1, e.2, timersExact_iff.mp h', hget]
            rfl
          · rw [if_neg e]
      | added absent => exact absurd (hf.symm.trans absent) (by simp)

theorem touchInvocation (h : st.TimersExact) (hk : st.OwnKeys) {uri : String} {id : Nat}
    (htimely : ∀ i, st.getInvocation uri id = some i → i.routerTimeout ≠ none →
      i.cancelRequested = false) : (st.touchInvocation uri id).1.TimersExact := by
  simp only [RouterStateStore.touchInvocation]
  split
  · exact h
  · next i hi =>
    split
    · exact h
    · rw [timersExact_iff] at h ⊢
      intro u j
      rw [timers_schedule, getInvocation_congr (scheduleInvocationTimeout_realms _ _ _), h u j,
        hk uri id i hi]
      split
      · next e =>
        rw [e.1, e.2, hi, Option.bind_some, PendingInvocation.timer]
        cases hr : i.routerTimeout with
        | none => simp
        | some t => simp [htimely i hi (by simp [hr])]
      · rfl

theorem completeInvocation (h : st.TimersExact) (uri : String) (i : Nat) :
    (st.completeInvocation uri i).1.TimersExact := by
  refine h.of_ended (getInvocation_complete st uri i) fun u id => ?_
  unfold RouterStateStore.completeInvocation
  dsimp only
  split
  · rw [cancelInvocationTimeout, LinkedMap.get?_erase]
    simp only [Prod.mk.injEq]
  · exact timers_release st uri i u id

theorem expireInvocation (h : st.TimersExact) (uri : String) (i : Nat) :
    (st.expireInvocation uri i).TimersExact := by
  refine h.of_ended (getInvocation_expire st uri i) fun u id => ?_
  have hstop : (st.cancelInvocationTimeout uri i).invocationTimeouts.get? (u, id) =
      if u = uri ∧ id = i then none else st.invocationTimeouts.get? (u, id) := by
    rw [cancelInvocationTimeout, LinkedMap.get?_erase]
    simp only [Prod.mk.injEq]
  unfold RouterStateStore.expireInvocation
  dsimp only
  split
  · exact hstop
  · split
    · exact hstop
    · rw [emit_timeouts, bumpAndNotify_timeouts]
      exact timers_release st uri i u id

theorem cancelInvocation (h : st.TimersExact) (uri : String) (i : Nat)
    (mode : String) (waitForAck : Bool) :
    (st.cancelInvocation uri i mode waitForAck).1.TimersExact := by
  cases hi : st.getInvocation uri i with
  | none =>
      simp only [RouterStateStore.cancelInvocation, hi]
      exact h
  | some j =>
      have herase : ∀ u id, (st.invocationTimeouts.erase (uri, i)).get? (u, id) =
          if u = uri ∧ id = i then none else st.invocationTimeouts.get? (u, id) := by
        intro u id
        rw [LinkedMap.get?_erase]
        simp only [Prod.mk.injEq]
      cases waitForAck with
      | true =>
          -- the record stays, marked, and its timer stops
          simp only [RouterStateStore.cancelInvocation, hi, if_pos]
          refine h.of_put (getInvocation_put hi _) fun u id => ?_
          rw [cancelInvocationTimeout, modifyRealm_timeouts, herase]
          rfl
      | false =>
          refine h.of_ended (getInvocation_cancel st uri i mode) fun u id => ?_
          simp only [RouterStateStore.cancelInvocation, hi]
          rw [if_neg Bool.false_ne_true, timers_release, modifyRealm_timeouts]

theorem closeSession (h : st.TimersExact) (uri : String) (s : Nat) :
    (st.closeSession uri s).TimersExact := by
  cases hr : st.realms.get? uri with
  | none =>
      simp only [RouterStateStore.closeSession, hr]
      exact h
  | some realm =>
      refine h.of_ended (getInvocation_close hr s) fun u id => ?_
      cases hs : realm.sessions.get? s with
      | some session => exact closeSession_timeouts hr hs u id
      | none =>
          -- what the session left behind is cleared all the same
          have hr' : (st.cancelPendingRetryDebouncesForCaller uri s).realms.get? uri =
              some realm := by
            rw [cancelDebounces_realms]
            exact hr
          have hgone : (((st.cancelPendingRetryDebouncesForCaller uri
              s).removeInvocationsForSession uri s).realms.get? uri).bind (·.sessions.get? s) =
              none := by
            rw [get?_removeInvocationsForSession, cancelDebounces_realms, hr, if_pos rfl]
            refine Eq.trans ?_ hs
            exact congrArg (·.get? s) (withoutInvocationsOf_frame (·.sessions) (fun _ _ => rfl)
              realm s)
          simp only [RouterStateStore.closeSession, hr, hgone]
          rw [removeInvocationsForSession_timeouts hr', cancelDebounces_timeouts]

theorem getOrCreateRealm (h : st.TimersExact) {uri : String} {realm : RealmRecord}
    (hg : st.getOrCreateRealm uri = .ok (st', realm)) : st'.TimersExact :=
  h.of_untouched (Untouched.gentle.looking.getOrCreateRealm hg).1

theorem openSession (h : st.TimersExact) (uri : String) (session : SessionRecord) :
    (st.openSession uri session).1.TimersExact := by
  simp only [RouterStateStore.openSession]
  split
  · exact h
  · next st₁ realm hg =>
    have hput : TimersExact (st₁.setRealm uri { realm with
        sessions := realm.sessions.insert session.id session.opened }) :=
      (h.getOrCreateRealm hg).of_same
        (getInvocation_setRealm_same (getOrCreateRealm_get hg) rfl) rfl
    exact (hput.of_untouched (Untouched.gentle.looking.bumpAndNotify _ uri)).of_same (fun _ _ => rfl) rfl

/-- **Every timely input keeps the timers exact.** -/
theorem handle (h : st.TimersExact) (hk : st.OwnKeys) (env : StoreEnv) {input : StoreInput}
    (ht : st.Timely input) : (st.handle env input).TimersExact := by
  have hsame : ∀ {st'}, Untouched st st' → st'.TimersExact := fun hu => h.of_untouched hu
  have hsent : ∀ {s : RouterStateStore} (port : SendPort) (p : StoreReply), s.TimersExact →
      (s.send port p).TimersExact := fun port p hs => hs.of_same (fun _ _ => rfl) rfl
  cases input with
  | invocationTimer uri i =>
      simp only [RouterStateStore.handle]
      split
      · exact h.expireInvocation uri i
      · exact h
  | debounceTimer key =>
      simp only [RouterStateStore.handle]
      rcases dispatchPendingRetryDebounce_cases env st key with he | ⟨held, hheld, hd⟩
      · rw [he]
        exact h
      · exact h.dispatchedBy hk hd (ht held hheld)
  | command c =>
      simp only [RouterStateStore.handle]
      cases c with
      | sessionOpen uri session => exact h.openSession uri session
      | sessionClose uri s => exact h.closeSession uri s
      | invocationDispatch uri caller request procedure options port =>
          rcases handleInvocationDispatch_cases env st uri caller request procedure options port
            with hu | hd
          · exact hsame hu
          · exact h.dispatchedBy hk hd ht
      | invocationCancel uri i mode waitForAck port =>
          exact hsent _ _ (h.cancelInvocation uri i mode waitForAck)
      | invocationComplete uri i port =>
          have hdone := h.completeInvocation uri i
          cases port with
          | none => exact hdone
          | some port => exact hsent _ _ hdone
      | invocationTouch uri i port =>
          have htouched := h.touchInvocation hk ht
          cases port with
          | none => exact htouched
          | some port => exact hsent _ _ htouched
      | _ => exact hsame (Untouched.gentle.dispatchCommand st env rfl)

end TimersExact

/-! ### Runs -/

/-- **The timers in a run of timely inputs.**  In every state, a timer runs for exactly the pending
invocations that have a positive timeout in the router and no cancellation requested. -/
theorem timers_exact (configs : List String) (inputs : List (StoreEnv × StoreInput))
    (st : RouterStateStore)
    (hrun : Run step (fun st x => st.Timely x.2) { realmConfigs := configs } inputs st) :
    st.TimersExact := by
  have hinv : st.OnePerRequest ∧ st.TimersExact :=
    hrun.invariant (P := fun st => st.OnePerRequest ∧ st.TimersExact)
      (fun _ x h hok => ⟨h.1.handle x.1 x.2, h.2.handle h.1.own_key x.1 hok⟩)
      ⟨OnePerRequest.initial configs, TimersExact.initial configs⟩
  exact hinv.2

/-- The caller allows half a second. -/
def timeoutOptions : Dict := LinkedMap.empty.insert "timeout" (.int 500)

/-- Session 2 calls session 1's procedure with a timeout, and a chunk of the answer arrives. -/
def timedInputs : List (StoreEnv × StoreInput) :=
  sampleInputs.take 4 ++
    [(({} : StoreEnv), .command (.invocationDispatch "realm1" 2 7 "com.proc" timeoutOptions 0)),
     (({} : StoreEnv), .command (.invocationTouch "realm1" 1 none))]

/-- The same call, cancelled so that the callee's answer is awaited, and then touched. -/
def cancelledInputs : List (StoreEnv × StoreInput) :=
  timedInputs ++
    [(({} : StoreEnv), .command (.invocationCancel "realm1" 1 "kill" true 0)),
     (({} : StoreEnv), .command (.invocationTouch "realm1" 1 none))]

theorem timers_exact_sample :
    (timedInputs.foldl step { realmConfigs := ["realm1"] }).invocationTimeouts.get? ("realm1", 1) =
      some 500 ∧
    (timedInputs.foldl step { realmConfigs := ["realm1"] }).TimersExact := by
  refine ⟨by decide +kernel, timers_exact ["realm1"] timedInputs _ ?_⟩
  refine .cons trivial (.cons trivial (.cons trivial (.cons trivial (.cons ?_ (.cons ?_ (.nil _))))))
  · intro _
    decide +kernel
  · exact timely_touch (by decide +kernel) none

/-- **A touch starts the timer of an invocation that was cancelled.** -/
theorem cancelled_rearmed :
    ¬ ∀ (configs : List String) (inputs : List (StoreEnv × StoreInput)) (st : RouterStateStore),
      Run step (fun _ _ => True) { realmConfigs := configs } inputs st → st.TimersExact := by
  intro h
  have hexact := h ["realm1"] cancelledInputs _ (run_foldl _ _) "realm1" 1 500
  have htimer : (cancelledInputs.foldl step { realmConfigs := ["realm1"] }).invocationTimeouts.get?
      ("realm1", 1) = some 500 := by decide +kernel
  have hmarked : ((cancelledInputs.foldl step { realmConfigs := ["realm1"] }).getInvocation "realm1"
      1).map (·.cancelRequested) = some true := by decide +kernel
  obtain ⟨i, hi, hplain, -⟩ := hexact.mp htimer
  rw [hi, Option.map_some, hplain] at hmarked
  cases hmarked

end RouterStateStore

end Connectanum
