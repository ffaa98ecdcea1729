import Connectanum.State.Frames

/-!
# State — Ways

What a function of the store comes to, each case with what it takes for granted: a dispatch, a
subscription and a registration.  `P` is what is to be shown of the outcome.
-/

namespace Connectanum

open Collections

/-- Where the entry has callees already, a registration leaves the table as it is. -/
theorem ProcedureTable.findOrCreate_kept {t table : ProcedureTable} {procedure : String}
    {id : Nat} {policy : InvocationPolicy} {matchPolicy : ProcedureMatchPolicy} {now : Nat}
    {ref : Ref} (hf : t.findOrCreateProcedure procedure id policy matchPolicy now = (table, ref))
    (hfull : ∀ entry, table.heap.get? ref = some entry → entry.callees.isEmpty = false) :
    table = t := by
  unfold ProcedureTable.findOrCreateProcedure at hf
  split at hf
  · exact (Prod.mk.inj hf).1.symm
  · obtain ⟨rfl, rfl⟩ := Prod.mk.inj hf
    have hnew := hfull _ (by rw [Heap.get?_alloc, if_pos rfl])
    cases hnew

namespace RouterStateStore

theorem getOrCreateRealm_ids {st st' : RouterStateStore} {uri : String} {realm : RealmRecord}
    (hg : st.getOrCreateRealm uri = .ok (st', realm)) : st'.ids = st.ids := by
  rcases getOrCreateRealm_ok hg with ⟨rfl, _⟩ | ⟨_, _, rfl⟩
  · rfl
  · rfl

/-- The store as it was, or once the realm was asked for. -/
def Asked (st : RouterStateStore) (uri : String) (st' : RouterStateStore) : Prop :=
  st' = st ∨ ∃ realm, st.getOrCreateRealm uri = .ok (st', realm)

theorem Asked.ids {st st' : RouterStateStore} {uri : String} (h : Asked st uri st') :
    st'.ids = st.ids := by
  obtain rfl | ⟨realm, hg⟩ := h
  · rfl
  · exact getOrCreateRealm_ids hg

/-- A dispatch is refused, perhaps after a callee was chosen and an id drawn, or it goes on with the
caller's invocation, or it adds one. -/
@[elab_as_elim]
theorem dispatchInvocation_elim
    {P : RouterStateStore × Except StoreError InvocationDispatchResult → Prop} {env : StoreEnv}
    {st : RouterStateStore} {uri : String} {caller request : Nat} {procedure : String}
    {options : Dict} (refused : ∀ st' e, Asked st uri st' → P (st', .error e))
    (continued : ∀ st' realm session i result, st.getOrCreateRealm uri = .ok (st', realm) →
      realm.sessions.get? caller = some session →
      realm.findInvocationByCaller caller request = some i →
      i.progressiveInvocationOpen = true → i.procedure = procedure →
      (∀ e, result = .error e → i.calleeConnectionId = none) →
      (∀ d, result = .ok d → d.invocationId = i.invocationId) →
      P (st'.setRealm uri (RealmRecord.bumpVersion { realm with
        invocations := realm.invocations.insert i.invocationId
          { i with progressiveInvocationOpen := options.flag "progress" } }), result))
    (turned : ∀ st' st₁ realm session ref entry e, st.getOrCreateRealm uri = .ok (st', realm) →
      realm.sessions.get? caller = some session →
      realm.findInvocationByCaller caller request = none →
      realm.procedures.procedureAtlas.lookup realm.procedures.heap procedure = some (ref, entry) →
      entry.callees.isEmpty = false → st₁ = st' ∨ st₁ = st'.drawInvocationId →
      P (st₁.setRealm uri { realm with
        procedures := realm.procedures.modify ref fun _ => (entry.nextCallee env.draw).2 }, .error e))
    (added : ∀ st' realm session ref entry callee timeout calleeSession,
      st.getOrCreateRealm uri = .ok (st', realm) → realm.sessions.get? caller = some session →
      realm.findInvocationByCaller caller request = none →
      realm.procedures.procedureAtlas.lookup realm.procedures.heap procedure = some (ref, entry) →
      let i := newInvocation caller session calleeSession callee st'.ids.invocation.nextId request
        procedure options timeout
      P (((st'.drawInvocationId.setRealm uri (RealmRecord.bumpVersion { realm with
          invocations := realm.invocations.insert st'.ids.invocation.nextId i
          procedures := (realm.procedures.modify ref fun _ => (entry.nextCallee env.draw).2).modify
            ref (·.touchCallee callee.registrationId env.now) })).scheduleInvocationTimeout uri
          i).countDispatch,
        .ok (dispatchResult i calleeSession.connectionId (options.flag "progress")))) :
    P (st.dispatchInvocation env uri caller request procedure options) := by
  unfold dispatchInvocation
  split
  · exact refused st _ (.inl rfl)
  · next st' realm hg =>
    have hasked : Asked st uri st' := .inr ⟨realm, hg⟩
    split
    · exact refused st' _ hasked
    · next session hs =>
      split
      · next i hfound =>
        unfold dispatchContinuation
        split
        · exact refused st' _ hasked
        · next hopen =>
          split
          · exact refused st' _ hasked
          · next hproc =>
            have hput := fun result => continued st' realm session i result hg hs hfound
              (by simpa using hopen) (not_not.mp hproc)
            dsimp only
            split
            · next hnone => exact hput _ (fun _ _ => hnone) nofun
            · exact hput _ nofun (fun d hd => by cases hd; rfl)
      · next hnone =>
        unfold dispatchNew
        split
        · exact refused st' _ hasked
        · next ref entry hlookup =>
          split
          · exact refused st' _ hasked
          · next hcallees =>
            have hturned := fun st₁ e => turned st' st₁ realm session ref entry e hg hs hnone hlookup
              (Bool.eq_false_iff.mpr hcallees)
            dsimp only
            split
            · exact hturned st' _ (.inl rfl)
            · next callee _ =>
              split
              · exact hturned _ _ (.inr rfl)
              · next timeout _ =>
                split
                · exact hturned _ _ (.inr rfl)
                · next calleeSession _ =>
                  exact added st' realm session ref entry callee timeout calleeSession hg hs hnone
                    hlookup

/-- A dispatch is done at once, or refused, or it is deduplicated under its transaction. -/
@[elab_as_elim]
theorem handleInvocationDispatch_elim {P : RouterStateStore → Prop} {env : StoreEnv}
    {st : RouterStateStore} {uri : String} {caller request : Nat} {procedure : String}
    {options : Dict} {port : SendPort}
    (direct : ∀ st', Asked st uri st' → P (replyDispatch port
      (st'.dispatchInvocation env uri caller request procedure options)))
    (refused : ∀ st' e, Asked st uri st' → P (st'.send port (.failed e)))
    (hashed : ∀ st' realm ref entry policy hash,
      st.findInvocationByCaller uri caller request = none →
      transactionHash options = .ok (some hash) → st.getOrCreateRealm uri = .ok (st', realm) →
      realm.procedures.procedureAtlas.lookup realm.procedures.heap procedure = some (ref, entry) →
      retryDeduplicationForEntry entry = .ok (some policy) →
      P (match policy.debounce with
        | none => (st'.reapExpiredRetryThrottleLeases env.now).dispatchThrottled env uri caller
            request procedure options port entry policy
            { realmUri := uri, registrationId := entry.registrationId, transactionHash := hash }
        | some debounce => (st'.reapExpiredRetryThrottleLeases env.now).dispatchDebounced env uri
            caller request procedure options port entry policy debounce
            { realmUri := uri, registrationId := entry.registrationId, transactionHash := hash })) :
    P (st.handleInvocationDispatch env uri caller request procedure options port) := by
  unfold handleInvocationDispatch
  split
  · exact direct st (.inl rfl)
  · next hnone =>
    cases hwire : transactionHash options with
    | error e => exact refused st _ (.inl rfl)
    | ok hash =>
        dsimp only [Except.mapError]
        split
        · exact refused st _ (.inl rfl)
        · next st' realm hg =>
          have hasked : Asked st uri st' := .inr ⟨realm, hg⟩
          split
          · exact direct st' hasked
          · unfold dispatchHashed
            dsimp only
            split
            · exact direct st' hasked
            · next hlookup =>
              split
              · exact direct st' hasked
              · split
                · exact refused st' _ hasked
                · exact direct st' hasked
                · next hpolicy => exact hashed _ _ _ _ _ _ hnone hwire hg hlookup hpolicy

/-- A subscription is refused, or the session's record and the entry's subscribers are written. -/
@[elab_as_elim]
theorem addSubscription_elim {P : RouterStateStore × Except StoreError Nat → Prop} {env : StoreEnv}
    {st : RouterStateStore} {uri : String} {s : Nat} {topic : String} {p : TopicMatchPolicy}
    {details : Dict} (refused : ∀ st' e, Asked st uri st' → P (st', .error e))
    (dangling : ∀ st' e, Asked st uri st' → P (st'.drawSubscriptionId, .error e))
    (added : ∀ st' realm session table ref entry, st.getOrCreateRealm uri = .ok (st', realm) →
      realm.sessions.get? s = some session →
      realm.subscriptions.findOrCreateSubscription topic p st'.ids.subscription.nextId env.now =
        (table, ref) → table.heap.get? ref = some entry →
      let done := (st'.drawSubscriptionId.setRealm uri (RealmRecord.modifySession { realm with
        subscriptions := table.addSubscriber ref
          { sessionId := s, authRole := session.authRole, details := details } } s
        (·.addSubscriptionId entry.id))).bumpAndNotify uri
      P ((if entry.subscribers.isEmpty then done.emit (subscriptionMetaEvent uri .created entry s)
        else done).emit (subscriptionMetaEvent uri .subscribed entry s), .ok entry.id)) :
    P (st.addSubscription env uri s topic p details) := by
  unfold addSubscription
  split
  · exact refused st _ (.inl rfl)
  · next st' realm hg =>
    have hasked : Asked st uri st' := .inr ⟨realm, hg⟩
    split
    · exact refused st' _ hasked
    · next session hs =>
      dsimp only
      cases hf : realm.subscriptions.findOrCreateSubscription topic p st'.ids.subscription.nextId
          env.now with
      | mk table ref =>
          dsimp only
          split
          · exact dangling st' _ hasked
          · next entry he => exact added st' realm session table ref entry hg hs hf he

/-- A registration is refused, at most with an id drawn, or it is written. -/
@[elab_as_elim]
theorem registerProcedure_elim {P : RouterStateStore × Except StoreError Nat → Prop}
    {env : StoreEnv} {st : RouterStateStore} {uri : String} {s : Nat} {procedure : String}
    {details : Dict} (refused : ∀ st' e, Asked st uri st' → P (st', .error e))
    (drawn : ∀ st' realm e, st.getOrCreateRealm uri = .ok (st', realm) →
      P (st'.drawRegistrationId.setRealm uri realm, .error e))
    (added : ∀ st' realm session policy matchPolicy retry table ref entry,
      st.getOrCreateRealm uri = .ok (st', realm) → realm.sessions.get? s = some session →
      registrationSettings details = .ok (policy, matchPolicy, retry) →
      realm.procedures.findOrCreateProcedure procedure st'.ids.registration.nextId policy
        matchPolicy env.now = (table, ref) → table.heap.get? ref = some entry →
      checkSharedRegistration entry procedure policy matchPolicy retry details = .ok () →
      let done := ((st'.drawRegistrationId.setRealm uri { realm with procedures := table }).setRealm
        uri (RealmRecord.modifySession { realm with
          procedures := table.addRegistration ref
            { registrationId := st'.ids.registration.nextId, procedure := procedure, sessionId := s,
              authRole := session.authRole, details := details, matchPolicy := matchPolicy } } s
          (·.addRegistrationId st'.ids.registration.nextId))).bumpAndNotify uri
      P ((if entry.callees.isEmpty then
          done.emit (registrationMetaEvent uri .created entry details s) else done).emit
        (registrationMetaEvent uri .registered entry details s),
        .ok st'.ids.registration.nextId)) :
    P (st.registerProcedure env uri s procedure details) := by
  unfold registerProcedure
  split
  · exact refused st _ (.inl rfl)
  · next st' realm hg =>
    have hasked : Asked st uri st' := .inr ⟨realm, hg⟩
    split
    · exact refused st' _ hasked
    · next session hs =>
      split
      · exact refused st' _ hasked
      · next policy matchPolicy retry hset =>
        dsimp only
        cases hf : realm.procedures.findOrCreateProcedure procedure st'.ids.registration.nextId
            policy matchPolicy env.now with
        | mk table ref =>
            -- the table changes only where a new, empty entry is made, which is not refused
            have hkept : (∀ entry, table.heap.get? ref = some entry →
                entry.callees.isEmpty = false) → ∀ e,
                P (st'.drawRegistrationId.setRealm uri { realm with procedures := table },
                  .error e) := by
              intro hfull e
              rw [ProcedureTable.findOrCreate_kept hf hfull]
              exact drawn st' realm e hg
            dsimp only
            split
            · next hnone => exact hkept (fun entry he => by rw [hnone] at he; cases he) _
            · next entry he =>
              split
              · next hcheck =>
                refine hkept (fun entry' he' => ?_) _
                obtain rfl := Option.some.inj (he.symm.trans he')
                cases hempty : entry.callees.isEmpty with
                | false => rfl
                | true =>
                    rw [checkSharedRegistration, if_pos hempty] at hcheck
                    cases hcheck
              · next hcheck =>
                exact added st' realm session policy matchPolicy retry table ref entry hg hs hset hf
                  he hcheck

end RouterStateStore

end Connectanum
