import Connectanum.State.Pending

/-!
# State — Closing a session

`NoResidue st uri s`: no table of the store mentions session `s` of realm `uri`.
`Undisturbed st st' uri s`: what belongs to other sessions is the same in both states.  A close
command gives both (`closeSession_clean`), in every state that a run reaches before an id
generator has come round.
-/

namespace Connectanum

open Collections Machine

namespace RouterStateStore

/-- The store has forgotten session `s` of realm `uri`. -/
structure NoResidue (st : RouterStateStore) (uri : String) (s : Nat) : Prop where
  session : ∀ realm, st.realms.get? uri = some realm → realm.sessions.get? s = none
  /-- No entry of the atlas has it as a subscriber. -/
  subscriber : ∀ realm ref e, st.realms.get? uri = some realm →
    realm.subscriptions.Live ref e → e.subscribers.get? s = none
  /-- No entry found by its id has it as a subscriber. -/
  subscriber_byId : ∀ realm id, st.realms.get? uri = some realm →
    realm.subscriptions.subscriberOf id s = none
  /-- It is in no callee list. -/
  callee : ∀ realm ref e id c, st.realms.get? uri = some realm →
    realm.procedures.Live ref e → e.callees.get? id = some c → c.sessionId ≠ s
  callee_byId : ∀ realm id c, st.realms.get? uri = some realm →
    realm.procedures.calleeOf id = some c → c.sessionId ≠ s
  /-- It is neither caller nor callee of a pending invocation. -/
  invocation : ∀ id i, st.getInvocation uri id = some i → ¬ i.Involves s
  /-- A timer that runs is the one of somebody else's invocation. -/
  timer : ∀ id t, st.invocationTimeouts.get? (uri, id) = some t →
    ∃ i, st.getInvocation uri id = some i ∧ ¬ i.Involves s
  /-- A lease that is held is held by somebody else's invocation. -/
  lease : ∀ key lease, st.retryThrottleLeases.get? key = some lease → key.realmUri = uri →
    ∃ i, st.getInvocation uri lease.invocationId = some i ∧ ¬ i.Involves s
  lease_byInvocation : ∀ id key, st.retryThrottleKeysByInvocation.get? id = some key →
    key.realmUri = uri → ∃ i, st.getInvocation uri id = some i ∧ ¬ i.Involves s
  /-- No dispatch of its own is held back. -/
  debounce : ∀ key held, st.pendingRetryDebounces.get? key = some held →
    ¬ (held.realmUri = uri ∧ held.callerSessionId = s)

/-- From `st` to `st'` nothing changed for the sessions other than `s` of realm `uri`. -/
structure Undisturbed (st st' : RouterStateStore) (uri : String) (s : Nat) : Prop where
  other_realm : ∀ u, u ≠ uri → st'.realms.get? u = st.realms.get? u
  session : ∀ realm realm', st.realms.get? uri = some realm → st'.realms.get? uri = some realm' →
    ∀ t, t ≠ s → realm'.sessions.get? t = realm.sessions.get? t
  subscriber : ∀ realm realm', st.realms.get? uri = some realm →
    st'.realms.get? uri = some realm' → ∀ id t, t ≠ s →
    realm'.subscriptions.subscriberOf id t = realm.subscriptions.subscriberOf id t
  callee : ∀ realm realm', st.realms.get? uri = some realm → st'.realms.get? uri = some realm' →
    ∀ id c, c.sessionId ≠ s →
    (realm'.procedures.calleeOf id = some c ↔ realm.procedures.calleeOf id = some c)
  invocation : ∀ id i, ¬ i.Involves s →
    (st'.getInvocation uri id = some i ↔ st.getInvocation uri id = some i)
  timer : ∀ id i, st.getInvocation uri id = some i → ¬ i.Involves s →
    st'.invocationTimeouts.get? (uri, id) = st.invocationTimeouts.get? (uri, id)
  other_timer : ∀ u id, u ≠ uri →
    st'.invocationTimeouts.get? (u, id) = st.invocationTimeouts.get? (u, id)

/-! ### Invocations and timers -/

theorem get?_eraseAll (m : LinkedMap Nat PendingInvocation) (ids : List Nat) (id : Nat) :
    (ids.foldl (fun m i => m.erase i) m).get? id = if id ∈ ids then none else m.get? id := by
  induction ids generalizing m with
  | nil => simp
  | cons i rest ih =>
      rw [List.foldl_cons, ih, LinkedMap.get?_erase]
      by_cases hr : id ∈ rest
      · simp [hr]
      · by_cases hi : id = i <;> simp [hr, hi]

theorem get?_withoutInvocationsOf (realm : RealmRecord) (s id : Nat) :
    (withoutInvocationsOf realm s).invocations.get? id =
      if id ∈ invocationsOf realm s then none else realm.invocations.get? id := by
  have hfold : ∀ (ids : List Nat) (r : RealmRecord),
      (ids.foldl (fun r id => { r with invocations := r.invocations.erase id }) r).invocations =
        ids.foldl (fun m i => m.erase i) r.invocations := by
    intro ids
    induction ids with
    | nil => exact fun _ => rfl
    | cons i rest ih => exact fun r => ih _
  rw [withoutInvocationsOf, hfold, get?_eraseAll]

/-- The invocations that go are those that involve `s`. -/
theorem mem_invocationsOf {st : RouterStateStore} (h : st.OwnKeys) {uri : String}
    {realm : RealmRecord} (hr : st.realms.get? uri = some realm) (s id : Nat) :
    id ∈ invocationsOf realm s ↔ ∃ i, st.getInvocation uri id = some i ∧ i.Involves s := by
  have hget : ∀ k i, realm.invocations.get? k = some i ↔ st.getInvocation uri k = some i := by
    intro k i
    rw [getInvocation, hr, Option.bind_some]
  simp only [invocationsOf, List.mem_map, List.mem_filter, LinkedMap.mem_values, Bool.or_eq_true,
    beq_iff_eq, hget]
  constructor
  · rintro ⟨i, ⟨⟨k, hk⟩, hinv⟩, rfl⟩
    rw [h uri k i hk]
    exact ⟨i, hk, hinv⟩
  · rintro ⟨i, hi, hinv⟩
    exact ⟨i, ⟨⟨id, hi⟩, hinv⟩, h uri id i hi⟩

theorem removeSubscription_invocations (realm : RealmRecord) (s id : Nat) :
    (realm.removeSubscription s id).invocations = realm.invocations := by
  unfold RealmRecord.removeSubscription
  split
  · rfl
  · simp [RealmRecord.bumpVersion]

theorem unregisterProcedure_invocations (realm : RealmRecord) (s id : Nat) :
    (realm.unregisterProcedure s id).invocations = realm.invocations := by
  unfold RealmRecord.unregisterProcedure
  split
  · rfl
  · simp [RealmRecord.bumpVersion]

theorem closed_invocations (realm : RealmRecord) (s : Nat) (subs regs : List Nat) :
    (realm.closed s subs regs).invocations = realm.invocations := by
  rw [RealmRecord.closed,
    foldl_frame (·.invocations) (fun r id => unregisterProcedure_invocations r s id),
    foldl_frame (·.invocations) (fun r id => removeSubscription_invocations r s id)]

section
variable {st : RouterStateStore} {uri : String} {realm : RealmRecord} {s : Nat}
  {session : SessionRecord}

/-- A close takes the invocations of `s` with it and no other. -/
theorem getInvocation_closeSession (h : st.Invocations) (hr : st.realms.get? uri = some realm)
    (hs : realm.sessions.get? s = some session) (id : Nat) (i : PendingInvocation) :
    (st.closeSession uri s).getInvocation uri id = some i ↔
      st.getInvocation uri id = some i ∧ ¬ i.Involves s := by
  have hpend : (st.closeSession uri s).getInvocation uri id =
      if id ∈ invocationsOf realm s then none else st.getInvocation uri id := by
    rw [getInvocation, get?_closeSession st hr hs, if_pos rfl, Option.bind_some, getInvocation, hr,
      Option.bind_some, ← get?_withoutInvocationsOf]
    exact congrArg (·.get? id) (closed_invocations _ s _ _)
  rw [hpend]
  by_cases hm : id ∈ invocationsOf realm s
  · obtain ⟨j, hj, hinv⟩ := (mem_invocationsOf h.ownKeys hr s id).mp hm
    rw [if_pos hm, hj]
    constructor
    · intro hn
      cases hn
    · rintro ⟨hj', hno⟩
      obtain rfl := Option.some.inj hj'
      exact absurd hinv hno
  · rw [if_neg hm]
    refine ⟨fun hi => ⟨hi, fun hinv => hm ?_⟩, fun hi => hi.1⟩
    exact (mem_invocationsOf h.ownKeys hr s id).mpr ⟨i, hi, hinv⟩

/-- A close with the session's record at hand. -/
theorem closeSession_eq (hr : st.realms.get? uri = some realm)
    (hs : realm.sessions.get? s = some session) :
    st.closeSession uri s =
      ((session.registrationIds.keys.foldl (fun st id => st.unregisterProcedure uri s id)
        (session.subscriptionIds.keys.foldl (fun st id => st.removeSubscription uri s id)
          (((st.cancelPendingRetryDebouncesForCaller uri s).removeInvocationsForSession uri
            s).modifyRealm uri fun r => { r with sessions := r.sessions.erase s }))).bumpAndNotify
        uri).emit (sessionMetaEvent uri .left session) := by
  have hsame : (withoutInvocationsOf realm s).sessions.get? s = some session := by
    rw [withoutInvocationsOf_frame (·.sessions) (fun _ _ => rfl)]
    exact hs
  have hfound : (((st.cancelPendingRetryDebouncesForCaller uri s).removeInvocationsForSession uri
      s).realms.get? uri).bind (·.sessions.get? s) = some session := by
    rw [get?_removeInvocationsForSession, cancelDebounces_realms, hr, if_pos rfl]
    exact hsame
  simp only [closeSession, hr, hfound]

theorem removeInvocationsForSession_timeouts (hr : st.realms.get? uri = some realm)
    (u : String) (id : Nat) :
    (st.removeInvocationsForSession uri s).invocationTimeouts.get? (u, id) =
      if u = uri ∧ id ∈ invocationsOf realm s then none
      else st.invocationTimeouts.get? (u, id) := by
  simp only [removeInvocationsForSession, hr]
  change ((invocationsOf realm s).foldl _ st).invocationTimeouts.get? (u, id) = _
  generalize invocationsOf realm s = ids
  clear hr
  induction ids generalizing st with
  | nil => simp
  | cons i rest ih =>
      rw [List.foldl_cons, ih, releaseRetryThrottleLease_timeouts, removeInvocation,
        modifyRealm_timeouts, cancelInvocationTimeout, LinkedMap.get?_erase]
      simp only [Prod.mk.injEq, List.mem_cons]
      by_cases hu : u = uri
      · by_cases hi : id = i <;> by_cases hm : id ∈ rest <;> simp [hu, hi, hm]
      · simp [hu]

theorem closeSession_timeouts (hr : st.realms.get? uri = some realm)
    (hs : realm.sessions.get? s = some session) (u : String) (id : Nat) :
    (st.closeSession uri s).invocationTimeouts.get? (u, id) =
      if u = uri ∧ id ∈ invocationsOf realm s then none
      else st.invocationTimeouts.get? (u, id) := by
  have hframe : (st.closeSession uri s).invocationTimeouts =
      ((st.cancelPendingRetryDebouncesForCaller uri s).removeInvocationsForSession uri
        s).invocationTimeouts := by
    rw [closeSession_eq hr hs, emit_timeouts, bumpAndNotify_timeouts,
      foldl_frame (·.invocationTimeouts) (fun st id => unregisterProcedure_frame st
        (·.invocationTimeouts) (fun _ _ _ => rfl) (fun _ _ _ => rfl)
        (fun _ _ _ => clearRetry_timeouts _ _ _) uri s id),
      foldl_frame (·.invocationTimeouts) (fun st id => removeSubscription_frame st
        (·.invocationTimeouts) (fun _ _ _ => rfl) (fun _ _ _ => rfl) uri s id),
      modifyRealm_timeouts]
  have hr' : (st.cancelPendingRetryDebouncesForCaller uri s).realms.get? uri = some realm := by
    rw [cancelDebounces_realms]
    exact hr
  rw [hframe, removeInvocationsForSession_timeouts hr', cancelDebounces_timeouts]

end

/-! ### Held dispatches -/

/-- No held dispatch is one of session `s`. -/
def NoDebounceOf (st : RouterStateStore) (uri : String) (s : Nat) : Prop :=
  ∀ key held, st.pendingRetryDebounces.get? key = some held →
    ¬ (held.realmUri = uri ∧ held.callerSessionId = s)

theorem get?_dropDebounce (st : RouterStateStore) (e : StoreError)
    (key k : RetryDeduplicationKey) :
    (dropDebounce e st key).pendingRetryDebounces.get? k =
      if k = key then none else st.pendingRetryDebounces.get? k := by
  simp only [dropDebounce]
  cases hk : st.pendingRetryDebounces.get? key with
  | none =>
      by_cases h : k = key
      · rw [if_pos h, h]
        exact hk
      · rw [if_neg h]
  | some held => exact st.pendingRetryDebounces.get?_erase key k

theorem get?_dropDebounces (st : RouterStateStore) (e : StoreError)
    (keys : List RetryDeduplicationKey) (k : RetryDeduplicationKey) :
    (keys.foldl (dropDebounce e) st).pendingRetryDebounces.get? k =
      if k ∈ keys then none else st.pendingRetryDebounces.get? k := by
  induction keys generalizing st with
  | nil => simp
  | cons key rest ih =>
      rw [List.foldl_cons, ih, get?_dropDebounce]
      by_cases hr : k ∈ rest
      · simp [hr]
      · by_cases hk : k = key <;> simp [hr, hk]

theorem cancelDebounces_noDebounce (st : RouterStateStore) (uri : String) (s : Nat) :
    (st.cancelPendingRetryDebouncesForCaller uri s).NoDebounceOf uri s := by
  intro key held hk
  rw [cancelPendingRetryDebouncesForCaller, get?_dropDebounces] at hk
  split at hk
  · cases hk
  · next hno =>
    rintro ⟨hu, hc⟩
    refine hno (List.mem_map.mpr ⟨(key, held), List.mem_filter.mpr ⟨?_, ?_⟩, rfl⟩)
    · exact LinkedMap.mem_entries.mpr hk
    · simp [hu, hc]

namespace NoDebounceOf

variable {st st' : RouterStateStore} {uri : String} {s : Nat}

theorem of_eq (h : st.NoDebounceOf uri s)
    (he : st'.pendingRetryDebounces = st.pendingRetryDebounces) : st'.NoDebounceOf uri s := by
  intro key held hk
  rw [he] at hk
  exact h key held hk

/-- What leaves the invocations alone holds no further dispatch. -/
theorem gentle : Gentle fun st st' => st.NoDebounceOf uri s → st'.NoDebounceOf uri s where
  refl := fun _ h => h
  trans := fun h₁ h₂ h => h₂ (h₁ h)
  realm := fun _ _ h => h
  create := fun _ h => h
  output := fun _ _ h => h
  ids := fun _ _ _ h => h
  counters := fun _ _ h => h
  dropLease := fun st key h => h.of_eq (dropLease_debounces st key)
  dropDebounce := fun e st key h k held hk => by
    rw [get?_dropDebounce] at hk
    split at hk
    · cases hk
    · exact h k held hk

end NoDebounceOf

theorem closeSession_noDebounce {st : RouterStateStore} {uri : String} {realm : RealmRecord}
    {s : Nat} {session : SessionRecord} (hr : st.realms.get? uri = some realm)
    (hs : realm.sessions.get? s = some session) :
    (st.closeSession uri s).NoDebounceOf uri s := by
  have hcut := cancelDebounces_noDebounce st uri s
  have hinv : (((st.cancelPendingRetryDebouncesForCaller uri s).removeInvocationsForSession uri
      s).modifyRealm uri fun r => { r with sessions := r.sessions.erase s }).NoDebounceOf uri s :=
    hcut.of_eq ((modifyRealm_debounces _ _ _).trans (removeInvocationsForSession_debounces _ _ _))
  have hgentle : Gentle fun st st' => st.NoDebounceOf uri s → st'.NoDebounceOf uri s :=
    NoDebounceOf.gentle
  rw [closeSession_eq hr hs]
  refine hgentle.output _ _ (hgentle.looking.bumpAndNotify _ uri ?_)
  refine hgentle.looking.foldl _ (fun st id => hgentle.unregisterProcedure st uri s id) _ ?_
  exact hgentle.looking.foldl _ (fun st id => hgentle.removeSubscription st uri s id) _ hinv

/-! ### Memberships of other sessions -/

end RouterStateStore

namespace RealmRecord

variable {ids : WampIdAllocatorRegistry} {realm : RealmRecord} {heldS heldR : Nat → Nat → Prop}

theorem subscriberOf_removeSubscription (h : realm.SoundFor ids heldS heldR) (s id i t : Nat)
    (ht : t ≠ s) :
    (realm.removeSubscription s id).subscriptions.subscriberOf i t =
      realm.subscriptions.subscriberOf i t := by
  simp only [RealmRecord.removeSubscription]
  cases hf : realm.subscriptions.findSubscriptionById id with
  | none => rfl
  | some found =>
      obtain ⟨ref, e⟩ := found
      simp only [bumpVersion, modifySession_subscriptions]
      rw [SubscriptionTable.subscriberOf_unsubscribe h.subscriptions hf, if_neg (fun hh => ht hh.1)]

theorem subscriberOf_removeSubscriptions (subs : List Nat) (h : realm.SoundFor ids heldS heldR)
    (s i t : Nat) (ht : t ≠ s) :
    (subs.foldl (fun r id => r.removeSubscription s id) realm).subscriptions.subscriberOf i t =
      realm.subscriptions.subscriberOf i t := by
  induction subs generalizing realm heldS with
  | nil => rfl
  | cons id rest ih =>
      rw [List.foldl_cons, ih (h.removeSubscription s id),
        subscriberOf_removeSubscription h s id i t ht]

theorem calleeOf_unregisterProcedures (regs : List Nat) (h : realm.SoundFor ids heldS heldR)
    {s : Nat} (ho : ∀ id ∈ regs, realm.OwnedBy s id) (i : Nat) :
    (regs.foldl (fun r id => r.unregisterProcedure s id) realm).procedures.calleeOf i =
      if i ∈ regs then none else realm.procedures.calleeOf i := by
  induction regs generalizing realm heldR with
  | nil => simp
  | cons id rest ih =>
      have hstep := h.unregisterProcedure (ho id List.mem_cons_self)
      have hcallee := calleeOf_unregisterProcedure h s id
      have ho' : ∀ j ∈ rest, (realm.unregisterProcedure s id).OwnedBy s j := by
        intro j hj c hc
        rw [hcallee] at hc
        split at hc
        · cases hc
        · exact ho j (List.mem_cons_of_mem _ hj) c hc
      rw [List.foldl_cons, ih hstep ho', hcallee]
      by_cases hi : i = id <;> by_cases hm : i ∈ rest <;> simp [hi, hm]

/-- A realm from which the record of `s` was just taken, with what `s` listed still in place. -/
theorem Sound.erase_session (h : realm.Sound ids) (s : Nat) :
    ({ realm with sessions := realm.sessions.erase s } : RealmRecord).SoundFor ids
      realm.HoldsSubscription realm.HoldsRegistration :=
  ⟨h.subscriptions, h.procedures, h.subscription_le, h.registration_le, h.entry_le⟩

theorem subscriberOf_closed (h : realm.Sound ids) (s : Nat) (subs regs : List Nat) (i t : Nat)
    (ht : t ≠ s) :
    (({ realm with sessions := realm.sessions.erase s } : RealmRecord).closed s subs
      regs).subscriptions.subscriberOf i t = realm.subscriptions.subscriberOf i t := by
  rw [closed, foldl_frame (·.subscriptions)
    (fun r id => unregisterProcedure_subscriptions r s id),
    subscriberOf_removeSubscriptions subs (h.erase_session s) s i t ht]

theorem calleeOf_closed (h : realm.Sound ids) {s : Nat} {session : SessionRecord}
    (hs : realm.sessions.get? s = some session) (subs : List Nat) (i : Nat) :
    (({ realm with sessions := realm.sessions.erase s } : RealmRecord).closed s subs
      session.registrationIds.keys).procedures.calleeOf i =
      if i ∈ session.registrationIds.keys then none else realm.procedures.calleeOf i := by
  have hproc : ∀ r : RealmRecord,
      (subs.foldl (fun r id => r.removeSubscription s id) r).procedures = r.procedures := fun r =>
    foldl_frame (·.procedures) (fun r id => removeSubscription_procedures r s id) subs r
  have ho : ∀ id ∈ session.registrationIds.keys, (subs.foldl
      (fun r id => RealmRecord.removeSubscription r s id)
      { realm with sessions := realm.sessions.erase s }).OwnedBy s id := by
    intro id hid c hc
    rw [hproc] at hc
    obtain ⟨_, hu⟩ := LinkedMap.mem_keys.mp hid
    exact h.ownedBy ⟨session, hs, hu⟩ c hc
  rw [closed, calleeOf_unregisterProcedures _ ((h.erase_session s).removeSubscriptions subs) ho,
    hproc]

end RealmRecord

namespace RouterStateStore

/-! ### The close command -/

variable {st : RouterStateStore} {uri : String} {realm : RealmRecord} {s : Nat}
  {session : SessionRecord}

theorem closedRealm_sessions (realm : RealmRecord) (s : Nat) (session : SessionRecord) :
    (closedRealm realm s session).sessions = realm.sessions.erase s := by
  let r₀ : RealmRecord := { withoutInvocationsOf realm s with
    sessions := (withoutInvocationsOf realm s).sessions.erase s }
  have hgone : r₀.sessions.get? s = none :=
    (withoutInvocationsOf realm s).sessions.get?_erase_self s
  have hsame : r₀.sessions = realm.sessions.erase s :=
    congrArg (·.erase s) (withoutInvocationsOf_frame (·.sessions) (fun _ _ => rfl) realm s)
  exact (RealmRecord.closed_sessions hgone _ _).trans hsame

theorem closeSession_noResidue (ht : st.Tables) (hi : st.Invocations)
    (hr : st.realms.get? uri = some realm) (hs : realm.sessions.get? s = some session) :
    (st.closeSession uri s).NoResidue uri s := by
  have ht' := ht.closeSession uri s
  have hi' := hi.closeSession uri s
  have hgone : ∀ r, (st.closeSession uri s).realms.get? uri = some r →
      r.sessions.get? s = none := by
    intro r hg
    rw [get?_closeSession st hr hs, if_pos rfl] at hg
    obtain rfl := Option.some.inj hg
    rw [closedRealm_sessions]
    exact realm.sessions.get?_erase_self s
  have hinv : ∀ id i, (st.closeSession uri s).getInvocation uri id = some i → ¬ i.Involves s :=
    fun id i hg => ((getInvocation_closeSession hi hr hs id i).mp hg).2
  -- the tables agree again, so a subscriber or a callee is an open session
  have hsub : ∀ r ref e, (st.closeSession uri s).realms.get? uri = some r →
      r.subscriptions.Live ref e → e.subscribers.get? s = none := by
    intro r ref e hg hl
    rw [Option.eq_none_iff_forall_ne_some]
    intro c hc
    obtain ⟨record, hrec⟩ := (ht' uri r hg).integrity.subscribers_open ref e hl s c hc
    rw [hgone r hg] at hrec
    cases hrec
  have hcallee : ∀ r ref e id c, (st.closeSession uri s).realms.get? uri = some r →
      r.procedures.Live ref e → e.callees.get? id = some c → c.sessionId ≠ s := by
    rintro r ref e id c hg hl hc rfl
    obtain ⟨record, hrec⟩ := (ht' uri r hg).integrity.callees_open ref e hl id c hc
    rw [hgone r hg] at hrec
    cases hrec
  refine ⟨hgone, hsub, fun r id hg => ?_, hcallee, fun r id c hg hc => ?_, hinv,
    fun id t hti => ?_, fun key lease hlk hu => ?_, fun id key hik hu => ?_,
    closeSession_noDebounce hr hs⟩
  · cases hf : r.subscriptions.findSubscriptionById id with
    | none => simp [SubscriptionTable.subscriberOf, hf]
    | some found =>
        obtain ⟨ref, e⟩ := found
        have hl := ((ht' uri r hg).subscriptions.live_of_findSubscriptionById hf).1
        simp [SubscriptionTable.subscriberOf, hf, hsub r ref e hg hl]
  · obtain ⟨⟨ref, e⟩, hf, hc⟩ := Option.bind_eq_some_iff.mp hc
    exact hcallee r ref e id c hg ((ht' uri r hg).procedures.live_of_find hf).1 hc
  · obtain ⟨i, hg⟩ := hi'.timer_pending uri id t hti
    exact ⟨i, hg, hinv id i hg⟩
  · obtain ⟨i, hg⟩ := hi'.lease_pending _ key (hi'.lease_key key lease hlk)
    rw [hu] at hg
    exact ⟨i, hg, hinv _ i hg⟩
  · obtain ⟨i, hg⟩ := hi'.lease_pending id key hik
    rw [hu] at hg
    exact ⟨i, hg, hinv id i hg⟩

theorem closeSession_undisturbed (ht : st.Tables) (hi : st.Invocations)
    (hr : st.realms.get? uri = some realm) (hs : realm.sessions.get? s = some session) :
    Undisturbed st (st.closeSession uri s) uri s := by
  have hses := withoutInvocationsOf_frame (·.sessions) (fun _ _ => rfl) realm s
  have hsubs := withoutInvocationsOf_frame (·.subscriptions) (fun _ _ => rfl) realm s
  have hprocs := withoutInvocationsOf_frame (·.procedures) (fun _ _ => rfl) realm s
  have hsound : (withoutInvocationsOf realm s).Sound st.ids :=
    RealmRecord.Sound.of_same (ht uri realm hr) hses hsubs hprocs (Nat.le_refl _) (Nat.le_refl _)
  have hs' : (withoutInvocationsOf realm s).sessions.get? s = some session := by
    rw [hses]
    exact hs
  have hafter : ∀ r r', st.realms.get? uri = some r →
      (st.closeSession uri s).realms.get? uri = some r' →
      r = realm ∧ r' = closedRealm realm s session := by
    intro r r' hg hg'
    rw [hr] at hg
    rw [get?_closeSession st hr hs, if_pos rfl] at hg'
    exact ⟨(Option.some.inj hg).symm, (Option.some.inj hg').symm⟩
  refine ⟨fun u hu => ?_, fun r r' hg hg' t hne => ?_, fun r r' hg hg' id t hne => ?_,
    fun r r' hg hg' id c hne => ?_, fun id i hno => ?_, fun id i hg hno => ?_,
    fun u id hu => ?_⟩
  · rw [get?_closeSession st hr hs, if_neg hu]
  · obtain ⟨rfl, rfl⟩ := hafter r r' hg hg'
    rw [closedRealm_sessions, SplayMap.get?_erase, if_neg hne]
  · obtain ⟨rfl, rfl⟩ := hafter r r' hg hg'
    refine (RealmRecord.subscriberOf_closed hsound s _ _ id t hne).trans ?_
    rw [hsubs]
  · obtain ⟨rfl, rfl⟩ := hafter r r' hg hg'
    have hclosed : (closedRealm r s session).procedures.calleeOf id = _ :=
      RealmRecord.calleeOf_closed hsound hs' session.subscriptionIds.keys id
    rw [hclosed, hprocs]
    by_cases hm : id ∈ session.registrationIds.keys
    · -- what `s` listed was its own, so `c` is not found under it before either
      obtain ⟨_, hu⟩ := LinkedMap.mem_keys.mp hm
      rw [if_pos hm]
      refine ⟨nofun, fun hc => ?_⟩
      exact absurd ((ht uri r hr).ownedBy ⟨session, hs, hu⟩ c hc) hne
    · rw [if_neg hm]
  · rw [getInvocation_closeSession hi hr hs]
    exact ⟨fun h => h.1, fun h => ⟨h, hno⟩⟩
  · rw [closeSession_timeouts hr hs, if_neg]
    rintro ⟨-, hm⟩
    obtain ⟨j, hj, hinv⟩ := (mem_invocationsOf hi.ownKeys hr s id).mp hm
    obtain rfl := Option.some.inj (hg.symm.trans hj)
    exact hno hinv
  · rw [closeSession_timeouts hr hs, if_neg (fun h => hu h.1)]

/-- **A close leaves nothing of its session and changes nothing of another's**, in every state
that legal inputs reach while no id generator has come round. -/
theorem closeSession_clean (configs : List String) (inputs : List (StoreEnv × StoreInput))
    (st : RouterStateStore)
    (hrun : Run step (fun st x => st.Legal x ∧ st.IdsLeft) { realmConfigs := configs } inputs st)
    (env : StoreEnv) (uri : String) (s : Nat) (realm : RealmRecord) (session : SessionRecord)
    (hr : st.realms.get? uri = some realm) (hs : realm.sessions.get? s = some session) :
    (st.step (env, .command (.sessionClose uri s))).NoResidue uri s ∧
      Undisturbed st (st.step (env, .command (.sessionClose uri s))) uri s := by
  have hinv : st.Tables ∧ st.Invocations :=
    hrun.invariant (P := fun st => st.Tables ∧ st.Invocations)
      (fun _ _ h hok => ⟨h.1.step hok.1 hok.2, h.2.step hok.2.invocation⟩)
      ⟨Tables.initial configs, Invocations.initial configs⟩
  exact ⟨closeSession_noResidue hinv.1 hinv.2 hr hs, closeSession_undisturbed hinv.1 hinv.2 hr hs⟩

/-- Session 1 subscribed and registered, session 2 called it; then session 1 closes. -/
theorem closeSession_clean_sample :
    ∃ st : RouterStateStore, Run step (fun st x => st.Legal x ∧ st.IdsLeft)
        { realmConfigs := ["realm1"] } sampleInputs st ∧
      (st.getInvocation "realm1" 1).isSome = true ∧
      (st.step ({}, .command (.sessionClose "realm1" 1))).NoResidue "realm1" 1 ∧
      Undisturbed st (st.step ({}, .command (.sessionClose "realm1" 1))) "realm1" 1 := by
  obtain ⟨session, hs⟩ := Option.isSome_iff_exists.mp (show
    (((sampleInputs.foldl step { realmConfigs := ["realm1"] }).realms.get?
      "realm1").bind (·.sessions.get? 1)).isSome = true by decide +kernel)
  obtain ⟨realm, hr, hs⟩ := Option.bind_eq_some_iff.mp hs
  exact ⟨_, sampleInputs_run, by decide +kernel,
    closeSession_clean _ _ _ sampleInputs_run {} _ _ realm session hr hs⟩

/-! ### When a generator comes round -/

/-- Entry `e` has an id that leads to another entry. -/
structure Shadowed (realm : RealmRecord) (e : SubscriptionEntry) : Prop where
  live : realm.subscriptions.Live 0 e
  elsewhere : ∀ ref e', realm.subscriptions.findSubscriptionById 1 = some (ref, e') →
    ref ≠ 0 ∧ realm.subscriptions.Live ref e' ∧ e'.id = 1

theorem Shadowed.removeSubscription {realm : RealmRecord} {e : SubscriptionEntry}
    (h : Shadowed realm e) (s : Nat) : Shadowed (realm.removeSubscription s 1) e := by
  cases hf : realm.subscriptions.findSubscriptionById 1 with
  | none =>
      simp only [RealmRecord.removeSubscription, hf]
      exact h
  | some found =>
      obtain ⟨ref, e'⟩ := found
      obtain ⟨hne, hl, hid⟩ := h.elsewhere ref e' hf
      have htable : (realm.removeSubscription s 1).subscriptions =
          realm.subscriptions.unsubscribe ref e' s := by
        simp [RealmRecord.removeSubscription, hf, RealmRecord.bumpVersion]
      have hlive := SubscriptionTable.live_unsubscribe hl s
      refine ⟨?_, fun ref₂ e₂ hf₂ => ?_⟩
      · rw [htable]
        exact (hlive 0 e).mpr (.inr ⟨hne.symm, h.live⟩)
      · -- id 1 leads to what is left of the same entry, or nowhere
        rw [htable] at hf₂ ⊢
        simp only [SubscriptionTable.findSubscriptionById, SubscriptionTable.byId_unsubscribe,
          SubscriptionTable.heap_unsubscribe, Option.bind_eq_some_iff, Option.map_eq_some_iff,
          Prod.mk.injEq, hid, and_true] at hf₂ hf
        obtain ⟨r, hby, e₃, hheap, rfl, rfl⟩ := hf₂
        obtain ⟨r', hby', e₄, hheap', rfl, rfl⟩ := hf
        split at hby
        · cases hby
        · next hemp =>
          obtain rfl := Option.some.inj (hby.symm.trans hby')
          rw [SubscriptionTable.heap_removeSubscriber, if_pos rfl, hheap'] at hheap
          obtain rfl := Option.some.inj hheap
          exact ⟨hne, (hlive _ _).mpr (.inl ⟨rfl, rfl, Bool.eq_false_iff.mpr hemp⟩), hid⟩

theorem Shadowed.removeSubscriptions {e : SubscriptionEntry} (s : Nat) (subs : List Nat)
    {realm : RealmRecord} (h : Shadowed realm e) (hall : ∀ id ∈ subs, id = 1) :
    Shadowed (subs.foldl (fun r id => r.removeSubscription s id) realm) e := by
  induction subs generalizing realm with
  | nil => exact h
  | cons id rest ih =>
      obtain rfl := hall id List.mem_cons_self
      exact ih (h.removeSubscription s) fun i hi => hall i (List.mem_cons_of_mem _ hi)

/-- The entry of topic `a` survives the close, with session 1 on it. -/
theorem Overtaken.residue {st : RouterStateStore} (h : st.Overtaken) :
    ∃ realm session, st.realms.get? "realm1" = some realm ∧
      realm.sessions.get? 1 = some session ∧
      ¬ (st.closeSession "realm1" 1).NoResidue "realm1" 1 := by
  obtain ⟨realm, session, e, c, ref, e', hr, hs, hl, _, hc, hne, hl', hid', hby, hone⟩ := h.realm
  refine ⟨realm, session, hr, hs, fun hclean => ?_⟩
  have hsubs := withoutInvocationsOf_frame (·.subscriptions) (fun _ _ => rfl) realm 1
  have hshadow : Shadowed { withoutInvocationsOf realm 1 with
      sessions := (withoutInvocationsOf realm 1).sessions.erase 1 } e := by
    refine ⟨?_, fun ref₂ e₂ hf => ?_⟩
    · change (withoutInvocationsOf realm 1).subscriptions.Live 0 e
      rw [hsubs]
      exact hl
    · change (withoutInvocationsOf realm 1).subscriptions.findSubscriptionById 1 = _ at hf
      change _ ∧ (withoutInvocationsOf realm 1).subscriptions.Live ref₂ e₂ ∧ _
      rw [hsubs] at hf ⊢
      simp only [SubscriptionTable.findSubscriptionById, hby, Option.bind_some, hl'.1,
        Option.map_some, Option.some.injEq, Prod.mk.injEq] at hf
      obtain ⟨rfl, rfl⟩ := hf
      exact ⟨hne, hl', hid'⟩
  have hleft := hshadow.removeSubscriptions 1 session.subscriptionIds.keys fun id hid => by
    obtain ⟨_, hu⟩ := LinkedMap.mem_keys.mp hid
    exact hone id hu
  have hlive : (closedRealm realm 1 session).subscriptions.Live 0 e := by
    rw [closedRealm, RealmRecord.closed]
    simp only [RealmRecord.bumpVersion]
    rw [foldl_frame (·.subscriptions)
      (fun r id => RealmRecord.unregisterProcedure_subscriptions r 1 id)]
    exact hleft.live
  have hnone := hclean.subscriber _ 0 e
    ((get?_closeSession st hr hs "realm1").trans (if_pos rfl)) hlive
  rw [hc] at hnone
  cases hnone

/-- A close may leave its session behind once an id in use has been drawn again. -/
theorem residue_left_when_ids_return :
    ¬ ∀ (configs : List String) (inputs : List (StoreEnv × StoreInput)) (st : RouterStateStore),
      Run step Legal { realmConfigs := configs } inputs st →
      ∀ (env : StoreEnv) (uri : String) (s : Nat) (realm : RealmRecord) (session : SessionRecord),
      st.realms.get? uri = some realm → realm.sessions.get? s = some session →
      (st.step (env, .command (.sessionClose uri s))).NoResidue uri s ∧
        Undisturbed st (st.step (env, .command (.sessionClose uri s))) uri s := by
  intro hall
  obtain ⟨inputs, st, hrun, hover⟩ := exists_overtaken
  obtain ⟨realm, session, hr, hs, hbad⟩ := hover.residue
  exact hbad (hall _ inputs st hrun {} _ _ realm session hr hs).1

end RouterStateStore

end Connectanum
