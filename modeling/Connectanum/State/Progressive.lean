import Connectanum.State.Moves

/-!
# State — Progressive calls

The chunks of a progressive call all go to the invocation of the first one.

* `PendingInvocation.Pinned`: what a later version of a record shares with an earlier one;
* `OnePerRequest`: a caller's request has one pending invocation at most, which can be reached;
  every input keeps it, also when ids come round (`OnePerRequest.handle`);
* `dispatch_claimed`, `dispatch_unclaimed`: what a chunk does, with and without such an invocation;
* `progressive_calls_pinned`: all of it, over whole runs.
-/

namespace Connectanum

open Collections Machine

/-- `i'` is a later version of `i`: the call, its callee and the options of its first chunk are
the same, and once it is closed for further chunks it stays so. -/
structure PendingInvocation.Pinned (i i' : PendingInvocation) : Prop where
  invocationId : i'.invocationId = i.invocationId
  registrationId : i'.registrationId = i.registrationId
  calleeSessionId : i'.calleeSessionId = i.calleeSessionId
  calleeConnectionId : i'.calleeConnectionId = i.calleeConnectionId
  procedure : i'.procedure = i.procedure
  initiatingOptions : i'.initiatingOptions = i.initiatingOptions
  callerSessionId : i'.callerSessionId = i.callerSessionId
  callerRequestId : i'.callerRequestId = i.callerRequestId
  closed : i'.progressiveInvocationOpen = true → i.progressiveInvocationOpen = true

theorem PendingInvocation.Pinned.refl (i : PendingInvocation) : Pinned i i :=
  ⟨rfl, rfl, rfl, rfl, rfl, rfl, rfl, rfl, id⟩

theorem PendingInvocation.Pinned.trans {i i' i'' : PendingInvocation} (h : Pinned i i')
    (h' : Pinned i' i'') : Pinned i i'' where
  invocationId := h'.invocationId.trans h.invocationId
  registrationId := h'.registrationId.trans h.registrationId
  calleeSessionId := h'.calleeSessionId.trans h.calleeSessionId
  calleeConnectionId := h'.calleeConnectionId.trans h.calleeConnectionId
  procedure := h'.procedure.trans h.procedure
  initiatingOptions := h'.initiatingOptions.trans h.initiatingOptions
  callerSessionId := h'.callerSessionId.trans h.callerSessionId
  callerRequestId := h'.callerRequestId.trans h.callerRequestId
  closed := fun hopen => h.closed (h'.closed hopen)

namespace RouterStateStore

open PendingInvocation

variable {st : RouterStateStore} {input : StoreInput} {u : String}

/-! ### Sessions stay until they are closed -/

theorem isSome_modifySession (r : RealmRecord) (k : Nat) (f : SessionRecord → SessionRecord)
    (s : Nat) : ((r.modifySession k f).sessions.get? s).isSome = (r.sessions.get? s).isSome := by
  unfold RealmRecord.modifySession
  split
  · rfl
  · next session hs =>
    rw [SplayMap.get?_insert]
    by_cases e : s = k
    · rw [if_pos e, e, hs]
      rfl
    · rw [if_neg e]

theorem isSome_session_move {r r' : RealmRecord} {events : List StoreOutput} {s : Nat}
    (h : RealmMove st input u r events r')
    (hclose : input ≠ .command (.sessionClose u s)) (hs : (r.sessions.get? s).isSome) :
    (r'.sessions.get? s).isSome := by
  cases h with
  | joined isOpen =>
      simp only [RealmRecord.bumpVersion, SplayMap.get?_insert]
      split
      · rfl
      · exact hs
  | @departed s' isClose =>
      have hne : s ≠ s' := by
        rintro rfl
        exact hclose isClose
      simp only [RealmRecord.bumpVersion, SplayMap.get?_erase, if_neg hne]
      exact hs
  | shown | invoked | turned | touched | bumped => exact hs
  | subscribed | registered =>
      simp only [RealmRecord.bumpVersion, isSome_modifySession]
      exact hs
  | unsubscribed =>
      unfold RealmRecord.removeSubscription
      split
      · exact hs
      · simp only [RealmRecord.bumpVersion, isSome_modifySession]
        exact hs
  | unregistered =>
      unfold RealmRecord.unregisterProcedure
      split
      · exact hs
      · simp only [RealmRecord.bumpVersion, isSome_modifySession]
        exact hs

theorem isSome_connectionOf (u : String) (s : Nat) :
    (st.connectionOf u s).isSome = ((st.realmOf u).sessions.get? s).isSome := by
  rw [connectionOf, realmOf]
  cases st.realms.get? u with
  | none => rfl
  | some realm => simp

theorem connectionOf_handle {s : Nat} (env : StoreEnv)
    (hclose : input ≠ .command (.sessionClose u s)) (hs : (st.connectionOf u s).isSome) :
    ((st.handle env input).connectionOf u s).isSome := by
  obtain ⟨events, hmoves, -⟩ := moved_handle env st input u
  rw [isSome_connectionOf] at hs ⊢
  generalize (st.handle env input).realmOf u = r' at hmoves
  generalize st.realmOf u = r at hmoves hs
  induction hmoves with
  | nil => exact hs
  | cons move _ ih => exact ih (isSome_session_move move hclose hs)

/-! ### One pending invocation for each request -/

/-- A record found after an input is a later version of one that was there, or it is new. -/
theorem Motion.origin {id : Nat} {i' : PendingInvocation} (h : Motion st u id input (some i')) :
    (∃ i, st.getInvocation u id = some i ∧ Pinned i i') ∨
      (id = st.ids.invocation.nextId ∧ i'.invocationId = id ∧
        st.findInvocationByCaller u i'.callerSessionId i'.callerRequestId = none ∧
        i'.calleeConnectionId.isSome ∧ (st.connectionOf u i'.callerSessionId).isSome) := by
  generalize ho : some i' = o at h
  cases h with
  | same => exact .inl ⟨i', ho.symm, .refl i'⟩
  | added unclaimed fresh present dispatch =>
      obtain rfl := Option.some.inj ho
      exact .inr ⟨fresh, rfl, unclaimed, rfl, present⟩
  | @chunk i _ _ found isOpen dispatch =>
      obtain rfl := Option.some.inj ho
      exact .inl ⟨i, found, rfl, rfl, rfl, rfl, rfl, rfl, rfl, rfl, fun _ => isOpen⟩
  | @marked i _ _ found isCancel =>
      obtain rfl := Option.some.inj ho
      exact .inl ⟨i, found, rfl, rfl, rfl, rfl, rfl, rfl, rfl, rfl, fun hopen => hopen⟩
  | cancelled | completed | expired | closed => cases ho

/-- A caller's request has at most one pending invocation in a realm; its caller is there, and its
callee can be reached. -/
structure OnePerRequest (st : RouterStateStore) : Prop where
  own_key : st.OwnKeys
  one : ∀ u id id' i i', st.getInvocation u id = some i → st.getInvocation u id' = some i' →
    i.callerSessionId = i'.callerSessionId → i.callerRequestId = i'.callerRequestId → id = id'
  reachable : ∀ u id i, st.getInvocation u id = some i → i.calleeConnectionId.isSome
  present : ∀ u id i, st.getInvocation u id = some i → (st.connectionOf u i.callerSessionId).isSome

/-- A session that was closed takes its calls with it. -/
theorem not_called_of_close (h : st.OwnKeys) {s id : Nat} {i : PendingInvocation}
    (hi : (st.closeSession u s).getInvocation u id = some i) : i.callerSessionId ≠ s := by
  cases hr : st.realms.get? u with
  | none =>
      simp only [closeSession, hr] at hi
      rw [getInvocation, hr] at hi
      cases hi
  | some realm =>
      rw [getInvocation_close hr] at hi
      split at hi
      · cases hi
      · next hnot =>
        intro hcaller
        exact hnot ⟨rfl, (mem_invocationsOf h hr s id).mpr ⟨i, hi, .inl hcaller⟩⟩

namespace OnePerRequest

theorem initial (configs : List String) : OnePerRequest { realmConfigs := configs } := by
  refine ⟨?_, ?_, ?_, ?_⟩
  · intro u id i hi
    cases hi
  · intro u id id' i i' hi
    cases hi
  · intro u id i hi
    cases hi
  · intro u id i hi
    cases hi

/-- **Every input keeps it**, whether or not an id is drawn a second time. -/
theorem handle (h : st.OnePerRequest) (env : StoreEnv) (input : StoreInput) :
    (st.handle env input).OnePerRequest := by
  have horigin : ∀ u id i', (st.handle env input).getInvocation u id = some i' → _ :=
    fun u id i' hi => (hi ▸ motion_handle h.own_key env input u id).origin
  refine ⟨fun u id i hi => ?_, fun u id id' i i' hi hi' hcaller hrequest => ?_,
    fun u id i hi => ?_, fun u id i hi => ?_⟩
  · rcases horigin u id i hi with ⟨i₀, hi₀, hp⟩ | ⟨-, hown, -⟩
    · exact hp.invocationId.trans (h.own_key u id i₀ hi₀)
    · exact hown
  · have hold : ∀ {caller request k j j₀}, st.findInvocationByCaller u caller request = none →
        st.getInvocation u k = some j₀ → Pinned j₀ j → j.callerSessionId = caller →
        j.callerRequestId = request → False := by
      intro caller request k j j₀ hnone hj₀ hp hc hq
      exact findInvocationByCaller_eq_none.mp hnone k j₀ hj₀
        ⟨hp.callerSessionId.symm.trans hc, hp.callerRequestId.symm.trans hq⟩
    rcases horigin u id i hi with ⟨i₀, hi₀, hp⟩ | ⟨hid, -, hnone, -, -⟩ <;>
      rcases horigin u id' i' hi' with ⟨i₀', hi₀', hp'⟩ | ⟨hid', -, hnone', -, -⟩
    · refine h.one u id id' i₀ i₀' hi₀ hi₀' ?_ ?_
      · rw [← hp.callerSessionId, ← hp'.callerSessionId, hcaller]
      · rw [← hp.callerRequestId, ← hp'.callerRequestId, hrequest]
    · exact (hold hnone' hi₀ hp hcaller hrequest).elim
    · exact (hold hnone hi₀' hp' hcaller.symm hrequest.symm).elim
    · rw [hid, hid']
  · rcases horigin u id i hi with ⟨i₀, hi₀, hp⟩ | ⟨-, -, -, hreach, -⟩
    · rw [hp.calleeConnectionId]
      exact h.reachable u id i₀ hi₀
    · exact hreach
  · have hclose : input ≠ .command (.sessionClose u i.callerSessionId) := by
      rintro rfl
      exact not_called_of_close h.own_key hi rfl
    refine connectionOf_handle env hclose ?_
    rcases horigin u id i hi with ⟨i₀, hi₀, hp⟩ | ⟨-, -, -, -, hpresent⟩
    · rw [hp.callerSessionId]
      exact h.present u id i₀ hi₀
    · exact hpresent

theorem run {ok : RouterStateStore → StoreEnv × StoreInput → Prop}
    {inputs : List (StoreEnv × StoreInput)} {st' : RouterStateStore} (h : st.OnePerRequest)
    (hrun : Run step ok st inputs st') : st'.OnePerRequest :=
  hrun.invariant (fun _ x h _ => h.handle x.1 x.2) h

/-- The record found for a request is the record of that request. -/
theorem find_iff (h : st.OnePerRequest) {caller request : Nat} {i : PendingInvocation} :
    st.findInvocationByCaller u caller request = some i ↔
      st.getInvocation u i.invocationId = some i ∧ i.callerSessionId = caller ∧
        i.callerRequestId = request := by
  constructor
  · exact h.own_key.get_of_find
  · rintro ⟨hi, rfl, rfl⟩
    cases hf : st.findInvocationByCaller u i.callerSessionId i.callerRequestId with
    | none => exact absurd ⟨rfl, rfl⟩ (findInvocationByCaller_eq_none.mp hf _ i hi)
    | some j =>
        obtain ⟨hj, hc, hq⟩ := h.own_key.get_of_find hf
        have hid := h.one u _ _ j i hj hi hc hq
        rw [hid] at hj
        rw [Option.some.inj (hj.symm.trans hi)]

end OnePerRequest

/-! ### What a chunk does -/

/-- The answer to a further chunk. -/
def chunkResult (i : PendingInvocation) (calleeConnectionId : Nat) (progress : Bool) :
    InvocationDispatchResult :=
  { dispatchResult i calleeConnectionId progress with progressiveInvocation := true }

/-- A dispatch for a request that is pending, worked out. -/
theorem dispatchInvocation_claimed (env : StoreEnv) {uri : String} {caller request : Nat}
    (procedure : String) (options : Dict) {i : PendingInvocation} {c : Nat}
    (hf : st.findInvocationByCaller uri caller request = some i)
    (hpresent : (st.connectionOf uri caller).isSome) (hc : i.calleeConnectionId = some c) :
    (i.progressiveInvocationOpen = true ∧ i.procedure = procedure ∧ ∃ st',
        st.dispatchInvocation env uri caller request procedure options =
          (st', .ok (chunkResult i c (options.flag "progress"))) ∧
        st'.getInvocation uri i.invocationId =
          some { i with progressiveInvocationOpen := options.flag "progress" }) ∨
      (¬ (i.progressiveInvocationOpen = true ∧ i.procedure = procedure) ∧
        ∃ e, st.dispatchInvocation env uri caller request procedure options = (st, .error e)) := by
  obtain ⟨realm, hr, hfound⟩ := Option.bind_eq_some_iff.mp hf
  obtain ⟨session, hs⟩ := Option.isSome_iff_exists.mp (by
    rwa [isSome_connectionOf, realmOf_of_get hr] at hpresent)
  have hg : st.getOrCreateRealm uri = .ok (st, realm) := by
    rw [RouterStateStore.getOrCreateRealm, hr]
  simp only [dispatchInvocation, hg, hs, hfound, dispatchContinuation]
  split
  · next hclosed =>
    refine .inr ⟨fun hboth => ?_, _, rfl⟩
    rw [hboth.1] at hclosed
    cases hclosed
  · next hopen =>
    split
    · next hproc => exact .inr ⟨fun hboth => hproc hboth.2, _, rfl⟩
    · next hproc =>
      refine .inl ⟨by simpa using hopen, not_not.mp hproc, ?_⟩
      simp only [hc]
      refine ⟨_, rfl, ?_⟩
      rw [getInvocation_setRealm, if_pos rfl]
      exact LinkedMap.get?_insert_self _ _ _

/-- An input dispatches one call at most. -/
theorem DispatchesCall.unique {uri : String} {caller request : Nat} {procedure procedure' : String}
    {options options' : Dict} {port port' : SendPort}
    (h : DispatchesCall st input uri caller request procedure options port)
    (h' : DispatchesCall st input uri caller request procedure' options' port') :
    procedure' = procedure ∧ options' = options := by
  rcases h with rfl | ⟨key, rfl, held, hheld, -, -, -, rfl, rfl, -⟩
  · rcases h' with h' | ⟨key, h', -⟩
    · cases h'
      exact ⟨rfl, rfl⟩
    · cases h'
  · rcases h' with h' | ⟨key', hkey, held', hheld', -, -, -, rfl, rfl, -⟩
    · cases h'
    · cases hkey
      obtain rfl := Option.some.inj (hheld.symm.trans hheld')
      exact ⟨rfl, rfl⟩

/-- While the request is pending its dispatch is answered at once, by the dispatch itself. -/
theorem handle_claimed (env : StoreEnv) {uri : String} {caller request : Nat} {procedure : String}
    {options : Dict} {port : SendPort} {i : PendingInvocation}
    (hf : st.findInvocationByCaller uri caller request = some i)
    (hd : DispatchesCall st input uri caller request procedure options port) :
    ∃ st₁ : RouterStateStore, st₁.realms = st.realms ∧ st₁.outbox = st.outbox ∧
      st.handle env input = replyDispatch port
        (st₁.dispatchInvocation env uri caller request procedure options) := by
  rcases hd with rfl | ⟨key, rfl, held, hheld, rfl, rfl, rfl, rfl, rfl, rfl⟩
  · refine ⟨st, rfl, rfl, ?_⟩
    simp only [handle, dispatchCommand, handleInvocationDispatch, hf]
  · simp only [handle, dispatchPendingRetryDebounce, hheld]
    refine ⟨_, ?_, ?_, rfl⟩
    · split <;> rfl
    · split <;> rfl

/-- **A further chunk** is answered with the invocation of the first one, or refused. -/
theorem dispatch_claimed (h : st.OnePerRequest) (env : StoreEnv) {uri : String}
    {caller request : Nat} {procedure : String} {options : Dict} {port : SendPort}
    {i : PendingInvocation} (hf : st.findInvocationByCaller uri caller request = some i)
    (hd : DispatchesCall st input uri caller request procedure options port) :
    (i.progressiveInvocationOpen = true ∧ i.procedure = procedure → ∃ c,
      (st.handle env input).outbox =
        st.outbox ++ [.reply port (.dispatched (chunkResult i c (options.flag "progress")))] ∧
      (st.handle env input).findInvocationByCaller uri caller request =
        some { i with progressiveInvocationOpen := options.flag "progress" }) ∧
    (¬ (i.progressiveInvocationOpen = true ∧ i.procedure = procedure) → ∃ e,
      (st.handle env input).outbox = st.outbox ++ [.reply port (.failed e)] ∧
      (st.handle env input).findInvocationByCaller uri caller request = some i) := by
  obtain ⟨hget, hcaller, hrequest⟩ := h.own_key.get_of_find hf
  obtain ⟨c, hc⟩ := Option.isSome_iff_exists.mp (h.reachable uri _ i hget)
  have hpresent : (st.connectionOf uri caller).isSome := by
    rw [← hcaller]
    exact h.present uri _ i hget
  have hnext := h.handle env input
  obtain ⟨st₁, hrealms, hout, hhandle⟩ := handle_claimed env hf hd
  have hf₁ : st₁.findInvocationByCaller uri caller request = some i := by
    rw [findInvocationByCaller, hrealms]
    exact hf
  have hpresent₁ : (st₁.connectionOf uri caller).isSome := by
    rw [connectionOf, hrealms]
    exact hpresent
  have hsent := outbox_dispatchInvocation env st₁ uri caller request procedure options
  rw [hout] at hsent
  rcases dispatchInvocation_claimed env procedure options hf₁ hpresent₁ hc with
    ⟨hopen, hproc, st₂, hok, hput⟩ | ⟨hclosed, e, herror⟩
  · rw [hok] at hsent
    refine ⟨fun _ => ⟨c, ?_, (hnext.find_iff).mpr ⟨?_, hcaller, hrequest⟩⟩,
      fun hnot => absurd ⟨hopen, hproc⟩ hnot⟩
    · rw [hhandle, hok, ← hsent]
      rfl
    · rw [hhandle, hok]
      exact hput
  · refine ⟨fun hboth => absurd hboth hclosed, fun _ => ⟨e, ?_, ?_⟩⟩
    · rw [hhandle, herror, ← hout]
      rfl
    · rw [hhandle, herror, findInvocationByCaller]
      exact hf₁

/-- **A first chunk**, or a plain call: the record that it adds keeps its options. -/
theorem dispatch_unclaimed (h : st.OnePerRequest) (env : StoreEnv) {uri : String}
    {caller request : Nat} {procedure : String} {options : Dict} {port : SendPort}
    {i : PendingInvocation} (hf : st.findInvocationByCaller uri caller request = none)
    (hd : DispatchesCall st input uri caller request procedure options port)
    (hi : (st.handle env input).findInvocationByCaller uri caller request = some i) :
    i.initiatingOptions = (options.erase "progress").erase transactionHashWireField ∧
      i.procedure = procedure ∧ i.progressiveInvocationOpen = options.flag "progress" := by
  obtain ⟨hget, hcaller, hrequest⟩ := (h.handle env input).own_key.get_of_find hi
  have hold : ∀ i₀, st.getInvocation uri i.invocationId = some i₀ →
      i₀.callerSessionId = caller → i₀.callerRequestId = request → False := fun i₀ h₀ hc hq =>
    findInvocationByCaller_eq_none.mp hf _ i₀ h₀ ⟨hc, hq⟩
  have hmotion := motion_handle h.own_key env input uri i.invocationId
  rw [hget] at hmotion
  generalize ho : some i = o at hmotion
  cases hmotion with
  | same => exact (hold i ho.symm hcaller hrequest).elim
  | added unclaimed fresh present dispatch =>
      have hrecord := Option.some.inj ho
      rw [hrecord] at hcaller hrequest ⊢
      obtain rfl : _ = caller := hcaller
      obtain rfl : _ = request := hrequest
      obtain ⟨rfl, rfl⟩ := hd.unique dispatch
      exact ⟨rfl, rfl, rfl⟩
  | chunk found isOpen dispatch =>
      rw [Option.some.inj ho] at hcaller hrequest
      exact (hold _ found hcaller hrequest).elim
  | marked found isCancel =>
      rw [Option.some.inj ho] at hcaller hrequest
      exact (hold _ found hcaller hrequest).elim
  | cancelled | completed | expired | closed => cases ho

/-- While a request stays pending, its record stays the same call. -/
theorem pinned_run {uri : String} {caller request : Nat} {i : PendingInvocation}
    {inputs : List (StoreEnv × StoreInput)} {st' : RouterStateStore} (h : st.OnePerRequest)
    (hf : st.findInvocationByCaller uri caller request = some i)
    (hrun : Run step (fun s x => ((s.step x).findInvocationByCaller uri caller request).isSome)
      st inputs st') :
    ∃ i', st'.findInvocationByCaller uri caller request = some i' ∧ Pinned i i' := by
  induction hrun generalizing i with
  | nil => exact ⟨i, hf, .refl i⟩
  | @cons s _ x _ hstays _ ih =>
      obtain ⟨i₁, hi₁⟩ := Option.isSome_iff_exists.mp hstays
      have hnext : (s.step x).OnePerRequest := h.handle x.1 x.2
      obtain ⟨hget, hcaller, hrequest⟩ := hnext.own_key.get_of_find hi₁
      have hmotion := motion_handle h.own_key x.1 x.2 uri i₁.invocationId
      have hpinned : Pinned i i₁ := by
        rcases (hget ▸ hmotion : Motion s uri i₁.invocationId x.2 (some i₁)).origin with
          ⟨i₀, hi₀, hp⟩ | ⟨-, -, hnone, -, -⟩
        · have hsame : s.findInvocationByCaller uri caller request = some i₀ :=
            h.find_iff.mpr ⟨by rw [h.own_key uri _ i₀ hi₀]; exact hi₀,
              hp.callerSessionId.symm.trans hcaller, hp.callerRequestId.symm.trans hrequest⟩
          rw [Option.some.inj (hf.symm.trans hsame)]
          exact hp
        · rw [hcaller, hrequest, hf] at hnone
          cases hnone
      obtain ⟨i', hi', hp'⟩ := ih hnext hi₁
      exact ⟨i', hi', hpinned.trans hp'⟩

/-- **Progressive calls are pinned.**  In every state that the store can reach:

* a caller's request has at most one pending invocation in a realm;
* a dispatch for a request without one adds a record, if any, that freezes its options;
* a dispatch for a request with one is answered at once.  If the invocation is open and its
  procedure is the one called, the answer names its invocation, registration and callee with the
  frozen options, and the chunk decides whether it stays open; otherwise the answer is an error,
  and the invocation is as it was;
* as long as the request stays pending, its invocation stays the same call, and one that is closed
  for further chunks stays closed. -/
theorem progressive_calls_pinned (configs : List String)
    (inputs : List (StoreEnv × StoreInput)) (st : RouterStateStore)
    (hrun : Run step (fun _ _ => True) { realmConfigs := configs } inputs st) :
    (∀ u id id' i i', st.getInvocation u id = some i → st.getInvocation u id' = some i' →
      i.callerSessionId = i'.callerSessionId → i.callerRequestId = i'.callerRequestId →
      id = id') ∧
    (∀ env input uri caller request procedure options port,
      DispatchesCall st input uri caller request procedure options port →
      (st.findInvocationByCaller uri caller request = none → ∀ i,
        (st.handle env input).findInvocationByCaller uri caller request = some i →
        i.initiatingOptions = (options.erase "progress").erase transactionHashWireField ∧
          i.procedure = procedure ∧ i.progressiveInvocationOpen = options.flag "progress") ∧
      ∀ i, st.findInvocationByCaller uri caller request = some i →
        (i.progressiveInvocationOpen = true ∧ i.procedure = procedure → ∃ d,
          (st.handle env input).outbox = st.outbox ++ [.reply port (.dispatched d)] ∧
          d.invocationId = i.invocationId ∧ d.registrationId = i.registrationId ∧
          d.calleeSessionId = i.calleeSessionId ∧ d.initiatingOptions = i.initiatingOptions ∧
          (st.handle env input).findInvocationByCaller uri caller request =
            some { i with progressiveInvocationOpen := options.flag "progress" }) ∧
        (¬ (i.progressiveInvocationOpen = true ∧ i.procedure = procedure) → ∃ e,
          (st.handle env input).outbox = st.outbox ++ [.reply port (.failed e)] ∧
          (st.handle env input).findInvocationByCaller uri caller request = some i)) ∧
    ∀ uri caller request i more st',
      st.findInvocationByCaller uri caller request = some i →
      Run step (fun s x => ((s.step x).findInvocationByCaller uri caller request).isSome) st more
        st' →
      ∃ i', st'.findInvocationByCaller uri caller request = some i' ∧ Pinned i i' := by
  have h : st.OnePerRequest := (OnePerRequest.initial configs).run hrun
  refine ⟨h.one, ?_, fun uri caller request i more st' hf hmore => pinned_run h hf hmore⟩
  intro env input uri caller request procedure options port hd
  refine ⟨fun hf i hi => dispatch_unclaimed h env hf hd hi, fun i hf => ?_⟩
  obtain ⟨haccepted, hrefused⟩ := dispatch_claimed h env hf hd
  refine ⟨fun hopen => ?_, hrefused⟩
  obtain ⟨c, hout, hfind⟩ := haccepted hopen
  exact ⟨_, hout, rfl, rfl, rfl, rfl, hfind⟩

/-- Options that announce further chunks. -/
def progressOptions : Dict := LinkedMap.empty.insert "progress" (.bool true)

/-- Session 2 sends the first chunk of a call of session 1's procedure. -/
def chunkedInputs : List (StoreEnv × StoreInput) :=
  sampleInputs.take 4 ++
    [(({} : StoreEnv), .command (.invocationDispatch "realm1" 2 7 "com.proc" progressOptions 0))]

theorem run_foldl (st : RouterStateStore) (inputs : List (StoreEnv × StoreInput)) :
    Run step (fun _ _ => True) st inputs (inputs.foldl step st) := by
  induction inputs generalizing st with
  | nil => exact .nil st
  | cons x rest ih => exact .cons trivial (ih (st.step x))

/-- The second chunk is answered with the invocation of the first. -/
theorem chunkedInputs_pinned : ∃ i d,
    (chunkedInputs.foldl step { realmConfigs := ["realm1"] }).findInvocationByCaller "realm1" 2 7 =
      some i ∧
    ((chunkedInputs.foldl step { realmConfigs := ["realm1"] }).handle {}
        (.command (.invocationDispatch "realm1" 2 7 "com.proc" .empty 1))).outbox =
      (chunkedInputs.foldl step { realmConfigs := ["realm1"] }).outbox ++
        [.reply 1 (.dispatched d)] ∧
    d.invocationId = i.invocationId := by
  have hpinned := progressive_calls_pinned ["realm1"] chunkedInputs _ (run_foldl _ _)
  obtain ⟨i, hi⟩ := Option.isSome_iff_exists.mp (show ((chunkedInputs.foldl step
    { realmConfigs := ["realm1"] }).findInvocationByCaller "realm1" 2 7).isSome = true by
      decide +kernel)
  have hopen : ((chunkedInputs.foldl step { realmConfigs := ["realm1"] }).findInvocationByCaller
      "realm1" 2 7).map (fun i => (i.progressiveInvocationOpen, i.procedure)) =
      some (true, "com.proc") := by decide +kernel
  rw [hi, Option.map_some] at hopen
  obtain ⟨hopen, hproc⟩ := Prod.mk.inj (Option.some.inj hopen)
  obtain ⟨d, hout, hid, -⟩ := ((hpinned.2.1 {} _ "realm1" 2 7 "com.proc" .empty 1
    (.inl rfl)).2 i hi).1 ⟨hopen, hproc⟩
  exact ⟨i, d, hi, hout, hid⟩

end RouterStateStore

end Connectanum
