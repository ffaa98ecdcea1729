import Connectanum.Lib.Checks
import Connectanum.State.Answers

/-!
# State — Capacity

The tables of retry deduplication never claim more than a registration has room for.

* `claims`: the leases and the held dispatches of a registration;
* `Budget`: the claims of every entry fit into the room that its policy gives, and all of them into
  the global bound;
* `Budget.step`: every input keeps the budget while the registration ids last;
* `leases_sound`: the throttle tables, the pending invocations and the capacities over whole runs.
-/

namespace Connectanum

open Collections Machine

namespace RouterStateStore

/-- The key belongs to the registration `id` of the realm `u`. -/
def ofRegistration {ν : Type} (u : String) (id : Nat) (x : RetryDeduplicationKey × ν) : Bool :=
  x.1.realmUri == u && x.1.registrationId == id

/-- The leases and the held dispatches of a registration. -/
def claims (st : RouterStateStore) (u : String) (id : Nat) : Nat :=
  st.retryThrottleLeases.entries.countP (ofRegistration u id) +
    st.pendingRetryDebounces.entries.countP (ofRegistration u id)

/-- All leases and held dispatches. -/
def allClaims (st : RouterStateStore) : Nat :=
  st.retryThrottleLeases.length + st.pendingRetryDebounces.length

/-- The room that the policy of an entry gives. -/
def roomOf (e : ProcedureEntry) : Nat :=
  match retryDeduplicationForEntry e with
  | .ok (some policy) => policy.capacity.toNat
  | _ => 0

/-- The callees of an entry agree on its policy. -/
def Agreed (e : ProcedureEntry) : Prop :=
  ∀ id c, e.callees.get? id = some c →
    retryDeduplicationFromDetails c.details = retryDeduplicationForEntry e

/-- The entry is an object of the realm's table, in use or not. -/
def EntryAt (st : RouterStateStore) (u : String) (ref : Ref) (e : ProcedureEntry) : Prop :=
  (st.realmOf u).procedures.heap.get? ref = some e

/-- **The budget of retry deduplication.** -/
structure Budget (st : RouterStateStore) : Prop where
  id_le : ∀ u ref e, st.EntryAt u ref e → e.registrationId ≤ st.ids.registration.current
  own_id : ∀ u ref ref' e e', st.EntryAt u ref e → st.EntryAt u ref' e' →
    e.registrationId = e'.registrationId → ref = ref'
  agreed : ∀ u ref e, st.EntryAt u ref e → Agreed e
  lease_le : ∀ key lease, st.retryThrottleLeases.get? key = some lease →
    key.registrationId ≤ st.ids.registration.current
  held_le : ∀ key held, st.pendingRetryDebounces.get? key = some held →
    key.registrationId ≤ st.ids.registration.current
  fits : ∀ u ref e, st.EntryAt u ref e → st.claims u e.registrationId ≤ roomOf e
  bounded : st.allClaims ≤ maxGlobalRetryDeduplicationEntries

/-! ### Policies of entries -/

theorem exists_head {e : ProcedureEntry} (h : e.callees.isEmpty = false) :
    ∃ id c, e.callees.get? id = some c ∧ e.callees.values.head? = some c := by
  cases hv : e.callees.values with
  | nil =>
      rw [SplayMap.values, List.map_eq_nil_iff] at hv
      rw [SplayMap.isEmpty, hv] at h
      cases h
  | cons c rest =>
      obtain ⟨id, hid⟩ := SplayMap.mem_values.mp (by rw [hv]; exact List.mem_cons_self)
      exact ⟨id, c, hid, rfl⟩

/-- The policy of an entry whose callees agree on one. -/
theorem retryDeduplicationForEntry_eq {e : ProcedureEntry}
    {d : Except StoreError (Option RetryDeduplication)} (hne : e.callees.isEmpty = false)
    (h : ∀ id c, e.callees.get? id = some c → retryDeduplicationFromDetails c.details = d) :
    retryDeduplicationForEntry e = d := by
  obtain ⟨id, c, hc, hhead⟩ := exists_head hne
  rw [retryDeduplicationForEntry, hhead]
  exact h id c hc

theorem retryDeduplicationForEntry_empty {e : ProcedureEntry} (h : e.callees.isEmpty = true) :
    retryDeduplicationForEntry e = .ok none := by
  have hv : e.callees.values = [] := by
    rw [SplayMap.isEmpty, List.isEmpty_iff] at h
    rw [SplayMap.values, h, List.map_nil]
  rw [retryDeduplicationForEntry, hv]
  rfl

theorem roomOf_empty {e : ProcedureEntry} (h : e.callees.isEmpty = true) : roomOf e = 0 := by
  rw [roomOf, retryDeduplicationForEntry_empty h]

/-- Callees taken from those of an entry agree as these do. -/
theorem Agreed.sub {e e' : ProcedureEntry} (h : Agreed e)
    (hsub : ∀ id c', e'.callees.get? id = some c' →
      ∃ c, e.callees.get? id = some c ∧ c'.details = c.details) :
    Agreed e' ∧ (e'.callees.isEmpty = false →
      retryDeduplicationForEntry e' = retryDeduplicationForEntry e) := by
  have hall : ∀ id c', e'.callees.get? id = some c' →
      retryDeduplicationFromDetails c'.details = retryDeduplicationForEntry e := by
    intro id c' hc'
    obtain ⟨c, hc, hd⟩ := hsub id c' hc'
    rw [hd]
    exact h id c hc
  have hsame : e'.callees.isEmpty = false →
      retryDeduplicationForEntry e' = retryDeduplicationForEntry e :=
    fun hne => retryDeduplicationForEntry_eq hne hall
  refine ⟨fun id c' hc' => ?_, hsame⟩
  have hne : e'.callees.isEmpty = false := by
    rw [Bool.eq_false_iff]
    intro hempty
    rw [SplayMap.isEmpty_iff.mp hempty id] at hc'
    cases hc'
  rw [hsame hne]
  exact hall id c' hc'

theorem Agreed.sameCallees {e e' : ProcedureEntry} (h : Agreed e)
    (hs : ProcedureTable.SameCallees e e') : Agreed e' ∧ roomOf e' = roomOf e := by
  have hsub : ∀ id c', e'.callees.get? id = some c' →
      ∃ c, e.callees.get? id = some c ∧ c'.details = c.details := by
    intro id c' hc'
    obtain ⟨c, hc⟩ := (hs.callee_iff id).mp ⟨c', hc'⟩
    exact ⟨c, hc, (hs.callee id c c' hc hc').2.2⟩
  obtain ⟨hagreed, hsame⟩ := h.sub hsub
  refine ⟨hagreed, ?_⟩
  cases hempty : e'.callees.isEmpty with
  | false => rw [roomOf, hsame hempty, roomOf]
  | true =>
      have hempty' : e.callees.isEmpty = true := by
        rw [SplayMap.isEmpty_iff] at hempty ⊢
        intro id
        cases hc : e.callees.get? id with
        | none => rfl
        | some c =>
            obtain ⟨c', hc'⟩ := (hs.callee_iff id).mpr ⟨c, hc⟩
            rw [hempty id] at hc'
            cases hc'
      rw [roomOf_empty hempty, roomOf_empty hempty']

/-! ### Giving claims back -/

/-- Claims may have been given back; the registrations are the same. -/
structure Eased (st st' : RouterStateStore) : Prop where
  tables : ∀ u, ProcedureTable.Rested (st.realmOf u).procedures (st'.realmOf u).procedures
  ids : st'.ids.registration = st.ids.registration
  leases : st'.retryThrottleLeases.entries.Sublist st.retryThrottleLeases.entries
  held : st'.pendingRetryDebounces.entries.Sublist st.pendingRetryDebounces.entries

/-- What is in the smaller of two maps is in the larger one. -/
theorem get?_of_sublist {κ ν : Type} [DecidableEq κ] {m m' : LinkedMap κ ν}
    (h : m'.entries.Sublist m.entries) {k : κ} {v : ν} (hk : m'.get? k = some v) :
    m.get? k = some v :=
  LinkedMap.mem_entries.mp (h.subset (LinkedMap.mem_entries.mpr hk))

theorem erase_sublist {κ ν : Type} [DecidableEq κ] (m : LinkedMap κ ν) (k : κ) :
    (m.erase k).entries.Sublist m.entries := List.filter_sublist

namespace Eased

variable {st st' : RouterStateStore}

theorem of_eq (hr : st'.realms = st.realms) (hi : st'.ids.registration = st.ids.registration)
    (hl : st'.retryThrottleLeases.entries.Sublist st.retryThrottleLeases.entries)
    (hd : st'.pendingRetryDebounces.entries.Sublist st.pendingRetryDebounces.entries) :
    Eased st st' :=
  ⟨fun u => by rw [realmOf_congr (by rw [hr])]; exact .refl _, hi, hl, hd⟩

theorem emit (st : RouterStateStore) (o : StoreOutput) : Eased st (st.emit o) :=
  of_eq rfl rfl (.refl _) (.refl _)

theorem calm : Calm Eased where
  refl := fun _ => of_eq rfl rfl (.refl _) (.refl _)
  trans := fun h h' => ⟨fun u => (h.tables u).trans (h'.tables u), h'.ids.trans h.ids,
    h'.leases.trans h.leases, h'.held.trans h.held⟩
  realm := by
    intro st uri r hr
    refine ⟨fun u => ?_, rfl, .refl _, .refl _⟩
    rw [realmOf_setRealm]
    split
    · next hu => rwa [hu]
    · exact .refl _
  notice := fun st o _ => emit st o
  ids := fun _ _ hi => of_eq rfl hi (.refl _) (.refl _)
  counters := fun _ _ => of_eq rfl rfl (.refl _) (.refl _)
  timers := fun _ _ => of_eq rfl rfl (.refl _) (.refl _)
  lease := fun _ _ _ => of_eq rfl rfl (erase_sublist _ _) (.refl _)

theorem dropDebounce (e : StoreError) (st : RouterStateStore) (key : RetryDeduplicationKey) :
    Eased st (dropDebounce e st key) := by
  unfold RouterStateStore.dropDebounce
  split
  · exact calm.refl st
  · exact of_eq rfl rfl (.refl _) (erase_sublist _ _)

theorem clearRetry (st : RouterStateStore) (uri : String) (id : Nat) :
    Eased st (st.clearRetryDeduplicationForRegistration uri id) := by
  unfold clearRetryDeduplicationForRegistration
  exact calm.trans (calm.resting.foldl st (fun st key => calm.resting.dropLease st key) _)
    (calm.resting.foldl _ (fun st key => dropDebounce _ st key) _)

theorem claims_le (h : Eased st st') (u : String) (id : Nat) : st'.claims u id ≤ st.claims u id :=
  Nat.add_le_add h.leases.countP_le h.held.countP_le

theorem allClaims_le (h : Eased st st') : st'.allClaims ≤ st.allClaims :=
  Nat.add_le_add h.leases.length_le h.held.length_le

end Eased

namespace Budget

variable {st st' : RouterStateStore}

theorem initial (configs : List String) : Budget { realmConfigs := configs } := by
  have hnone : ∀ u ref e, ¬ EntryAt { realmConfigs := configs } u ref e := by
    intro u ref e he
    cases he
  exact ⟨fun u ref e he => absurd he (hnone u ref e), fun u ref _ e _ he => absurd he (hnone u ref e),
    fun u ref e he => absurd he (hnone u ref e), nofun, nofun,
    fun u ref e he => absurd he (hnone u ref e), Nat.zero_le _⟩

/-- Claims were given back, and every entry that changed still has room for its claims. -/
theorem of_fewer (h : st.Budget) (hi : st'.ids.registration = st.ids.registration)
    (hl : st'.retryThrottleLeases.entries.Sublist st.retryThrottleLeases.entries)
    (hd : st'.pendingRetryDebounces.entries.Sublist st.pendingRetryDebounces.entries)
    (ht : ∀ u ref e', st'.EntryAt u ref e' → ∃ e, st.EntryAt u ref e ∧
      e'.registrationId = e.registrationId ∧ Agreed e' ∧
        st'.claims u e'.registrationId ≤ roomOf e') : st'.Budget where
  id_le u ref e' he' := by
    obtain ⟨e, he, hid, -⟩ := ht u ref e' he'
    rw [hid, hi]
    exact h.id_le u ref e he
  own_id u ref ref' e e' he he' hid := by
    obtain ⟨e₁, he₁, hid₁, -⟩ := ht u ref e he
    obtain ⟨e₂, he₂, hid₂, -⟩ := ht u ref' e' he'
    exact h.own_id u ref ref' e₁ e₂ he₁ he₂ (hid₁.symm.trans (hid.trans hid₂))
  agreed u ref e' he' := by
    obtain ⟨e, -, -, hagreed, -⟩ := ht u ref e' he'
    exact hagreed
  lease_le key lease hk := by
    rw [hi]
    exact h.lease_le key lease (get?_of_sublist hl hk)
  held_le key held hk := by
    rw [hi]
    exact h.held_le key held (get?_of_sublist hd hk)
  fits u ref e' he' := by
    obtain ⟨e, -, -, -, hfits⟩ := ht u ref e' he'
    exact hfits
  bounded := Nat.le_trans (Nat.add_le_add hl.length_le hd.length_le) h.bounded

theorem of_eased (h : st.Budget) (he : Eased st st') : st'.Budget := by
  refine h.of_fewer he.ids he.leases he.held fun u ref e' he' => ?_
  obtain ⟨e, hat, hs⟩ := he.tables u ref e' he'
  obtain ⟨hagreed, hroom⟩ := (h.agreed u ref e hat).sameCallees hs
  refine ⟨e, hat, hs.registrationId, hagreed, ?_⟩
  rw [hroom, hs.registrationId]
  exact Nat.le_trans (he.claims_le u e.registrationId) (h.fits u ref e hat)

/-- That the budget is kept is a calm relation. -/
theorem calm : Calm fun st st' => st.Budget → st'.Budget where
  refl := fun _ h => h
  trans := fun h₁ h₂ h => h₂ (h₁ h)
  realm := fun st uri r hr h => h.of_eased (Eased.calm.realm st uri r hr)
  notice := fun st o ho h => h.of_eased (Eased.calm.notice st o ho)
  ids := fun st ids hi h => h.of_eased (Eased.calm.ids st ids hi)
  counters := fun st counters h => h.of_eased (Eased.calm.counters st counters)
  timers := fun st timers h => h.of_eased (Eased.calm.timers st timers)
  lease := fun st key id h => h.of_eased (Eased.calm.lease st key id)

theorem send (st : RouterStateStore) (port : SendPort) (p : StoreReply) (h : st.Budget) :
    (st.send port p).Budget := h.of_eased (Eased.emit st _)

/-! ### Taking a claim -/

/-- Other claims on the same registrations. -/
theorem of_claims (h : st.Budget) (hr : st'.realms = st.realms)
    (hi : st'.ids.registration = st.ids.registration)
    (hl : ∀ key lease, st'.retryThrottleLeases.get? key = some lease →
      key.registrationId ≤ st.ids.registration.current)
    (hd : ∀ key held, st'.pendingRetryDebounces.get? key = some held →
      key.registrationId ≤ st.ids.registration.current)
    (hfits : ∀ u ref e, st.EntryAt u ref e → st'.claims u e.registrationId ≤ roomOf e)
    (hbound : st'.allClaims ≤ maxGlobalRetryDeduplicationEntries) : st'.Budget := by
  have hat : ∀ u ref e, st'.EntryAt u ref e → st.EntryAt u ref e := by
    intro u ref e he
    have hsame : st'.realmOf u = st.realmOf u := realmOf_congr (by rw [hr])
    rwa [EntryAt, hsame] at he
  exact ⟨fun u ref e he => hi ▸ h.id_le u ref e (hat u ref e he),
    fun u ref ref' e e' he he' => h.own_id u ref ref' e e' (hat u ref e he) (hat u ref' e' he'),
    fun u ref e he => h.agreed u ref e (hat u ref e he), hi ▸ hl, hi ▸ hd,
    fun u ref e he => hfits u ref e (hat u ref e he), hbound⟩

end Budget

/-- There is room for one more claim under the key. -/
structure HasRoom (st : RouterStateStore) (key : RetryDeduplicationKey) : Prop where
  le : key.registrationId ≤ st.ids.registration.current
  fits : ∀ ref e, st.EntryAt key.realmUri ref e → e.registrationId = key.registrationId →
    st.claims key.realmUri key.registrationId < roomOf e
  bounded : st.allClaims < maxGlobalRetryDeduplicationEntries

theorem HasRoom.of_eased {st st' : RouterStateStore} {key : RetryDeduplicationKey}
    (h : st.HasRoom key) (hb : st.Budget) (he : Eased st st') : st'.HasRoom key where
  le := by
    rw [he.ids]
    exact h.le
  fits ref e' he' hid := by
    obtain ⟨e, hat, hs⟩ := he.tables key.realmUri ref e' he'
    rw [((hb.agreed _ ref e hat).sameCallees hs).2]
    exact Nat.lt_of_le_of_lt (he.claims_le _ _) (h.fits ref e hat (hs.registrationId.symm.trans hid))
  bounded := Nat.lt_of_le_of_lt he.allClaims_le h.bounded

/-- One more claim under the key. -/
theorem HasRoom.fits_one_more {st : RouterStateStore} {key : RetryDeduplicationKey}
    (h : st.HasRoom key) (hb : st.Budget) {ν : Type} (v : ν) (u : String) (ref : Ref)
    (e : ProcedureEntry) (he : st.EntryAt u ref e) :
    st.claims u e.registrationId + (ofRegistration u e.registrationId (key, v)).toNat ≤ roomOf e := by
  cases hkey : ofRegistration u e.registrationId (key, v) with
  | false => exact hb.fits u ref e he
  | true =>
      simp only [ofRegistration, Bool.and_eq_true, beq_iff_eq] at hkey
      obtain ⟨rfl, hid⟩ := hkey
      rw [← hid]
      exact h.fits ref e he hid.symm

namespace Budget

variable {st st' : RouterStateStore}

/-- A lease is taken. -/
theorem lease (h : st.Budget) {key : RetryDeduplicationKey} (hroom : st.HasRoom key)
    (hfree : st.retryThrottleLeases.get? key = none) (lease : RetryThrottleLease)
    (keys : LinkedMap Nat RetryDeduplicationKey) :
    Budget { st with
      retryThrottleLeases := st.retryThrottleLeases.insert key lease
      retryThrottleKeysByInvocation := keys } := by
  refine h.of_claims rfl rfl ?_ h.held_le ?_ ?_
  · intro k l hk
    rw [LinkedMap.get?_insert] at hk
    split at hk
    · next e => exact e ▸ hroom.le
    · exact h.lease_le k l hk
  · intro u ref e he
    have hone := hroom.fits_one_more h lease u ref e he
    have hcount := st.retryThrottleLeases.countP_insert (ofRegistration u e.registrationId) lease
      hfree
    rw [claims] at hone ⊢
    dsimp only
    omega
  · have hcount := st.retryThrottleLeases.length_insert lease hfree
    have hless := hroom.bounded
    rw [allClaims] at hless ⊢
    dsimp only
    omega

/-- A dispatch is held. -/
theorem hold (h : st.Budget) {key : RetryDeduplicationKey} (hroom : st.HasRoom key)
    (hfree : st.pendingRetryDebounces.get? key = none) (held : PendingRetryDebounce) :
    Budget { st with
      pendingRetryDebounces := st.pendingRetryDebounces.insert key held } := by
  refine h.of_claims rfl rfl h.lease_le ?_ ?_ ?_
  · intro k l hk
    rw [LinkedMap.get?_insert] at hk
    split at hk
    · next e => exact e ▸ hroom.le
    · exact h.held_le k l hk
  · intro u ref e he
    have hone := hroom.fits_one_more h held u ref e he
    have hcount := st.pendingRetryDebounces.countP_insert (ofRegistration u e.registrationId) held
      hfree
    rw [claims] at hone ⊢
    dsimp only
    omega
  · have hcount := st.pendingRetryDebounces.length_insert held hfree
    have hless := hroom.bounded
    rw [allClaims] at hless ⊢
    dsimp only
    omega

/-! ### Dispatches -/

/-- The room that `_ensureRetryDeduplicationCapacity` found. -/
theorem hasRoom (h : st.Budget) {uri : String} {ref : Ref} {entry : ProcedureEntry}
    (hat : st.EntryAt uri ref entry) {policy : RetryDeduplication}
    (hpolicy : retryDeduplicationForEntry entry = .ok (some policy)) (hash : String)
    (hok : st.ensureRetryDeduplicationCapacity entry policy = (st', .ok ())) :
    st' = st ∧ st.HasRoom ⟨uri, entry.registrationId, hash⟩ := by
  simp only [ensureRetryDeduplicationCapacity] at hok
  split at hok
  · cases hok
  · next hfull =>
    simp only [Prod.mk.injEq, and_true] at hok
    refine ⟨hok.symm, h.id_le uri ref entry hat, ?_, ?_⟩
    · intro ref' e he hid
      obtain rfl := h.own_id uri ref' ref e entry he hat hid
      obtain rfl := Option.some.inj (he.symm.trans hat)
      -- the code counts the claims of the id in all realms
      have hcount : ∀ {ν : Type} (m : LinkedMap RetryDeduplicationKey ν),
          m.entries.countP (ofRegistration uri e.registrationId) ≤
            (m.keys.filter fun key => key.registrationId == e.registrationId).length := by
        intro ν m
        rw [← List.countP_eq_length_filter, LinkedMap.keys, List.countP_map]
        refine List.countP_mono_left fun x _ hx => ?_
        exact (Bool.and_eq_true_iff.mp hx).2
      have hl := hcount st.retryThrottleLeases
      have hd := hcount st.pendingRetryDebounces
      rw [roomOf, hpolicy, claims]
      dsimp only
      omega
    · rw [allClaims]
      omega

theorem dispatchThrottled (h : st.Budget) (env : StoreEnv) (uri : String) (caller request : Nat)
    (procedure : String) (options : Dict) (port : SendPort) {ref : Ref} {entry : ProcedureEntry}
    (hat : st.EntryAt uri ref entry) {policy : RetryDeduplication}
    (hpolicy : retryDeduplicationForEntry entry = .ok (some policy)) (hash : String) :
    (st.dispatchThrottled env uri caller request procedure options port entry policy
      ⟨uri, entry.registrationId, hash⟩).Budget := by
  unfold RouterStateStore.dispatchThrottled
  split
  · exact send _ port _ (h.of_eased (Eased.calm.counters st _))
  · next hfree =>
    have hnone : st.retryThrottleLeases.get? ⟨uri, entry.registrationId, hash⟩ = none := by
      rwa [LinkedMap.contains, Bool.not_eq_true, Option.isSome_eq_false_iff,
        Option.isNone_iff_eq_none] at hfree
    split
    · next st' e he =>
      have heased := Eased.calm.resting.ensureCapacity st entry policy
      rw [he] at heased
      exact send _ port _ (h.of_eased heased)
    · next st₀ he =>
      obtain ⟨rfl, hroom⟩ := h.hasRoom hat hpolicy hash he
      have heased := Eased.calm.resting.dispatchInvocation st₀ env uri caller request procedure options
      split
      · next hd =>
        rw [hd] at heased
        exact send _ port _ (h.of_eased heased)
      · next st₁ dispatch hd =>
        rw [hd] at heased
        refine send _ port _ ((h.of_eased heased).lease (hroom.of_eased h heased) ?_ _ _)
        cases hk : st₁.retryThrottleLeases.get? ⟨uri, entry.registrationId, hash⟩ with
        | none => rfl
        | some lease =>
            rw [get?_of_sublist heased.leases hk] at hnone
            cases hnone

theorem dispatchDebounced (h : st.Budget) (env : StoreEnv) (uri : String) (caller request : Nat)
    (procedure : String) (options : Dict) (port : SendPort) {ref : Ref} {entry : ProcedureEntry}
    (hat : st.EntryAt uri ref entry) {policy : RetryDeduplication}
    (hpolicy : retryDeduplicationForEntry entry = .ok (some policy)) (debounce : Int)
    (hash : String) :
    (st.dispatchDebounced env uri caller request procedure options port entry policy debounce
      ⟨uri, entry.registrationId, hash⟩).Budget := by
  unfold RouterStateStore.dispatchDebounced
  dsimp only
  split
  · next previous hprevious =>
    -- the later call has the claim that the earlier one gives back
    have heased := Eased.dropDebounce (.command autoDeduplicationUri) st
      ⟨uri, entry.registrationId, hash⟩
    have hheld : (dropDebounce (.command autoDeduplicationUri) st
        ⟨uri, entry.registrationId, hash⟩).pendingRetryDebounces =
        st.pendingRetryDebounces.erase ⟨uri, entry.registrationId, hash⟩ := by
      rw [dropDebounce, hprevious]
      rfl
    have hleases := dropDebounce_leases st (.command autoDeduplicationUri)
      ⟨uri, entry.registrationId, hash⟩
    generalize dropDebounce (.command autoDeduplicationUri) st ⟨uri, entry.registrationId, hash⟩ =
      st₁ at heased hheld hleases
    have hroom : st₁.HasRoom ⟨uri, entry.registrationId, hash⟩ := by
      refine ⟨?_, fun ref' e' he' hid => ?_, ?_⟩
      · rw [heased.ids]
        exact h.id_le uri ref entry hat
      · obtain ⟨e, he, hs⟩ := heased.tables uri ref' e' he'
        have hfits := h.fits uri ref' e he
        have hcount := st.pendingRetryDebounces.countP_erase
          (ofRegistration uri entry.registrationId) hprevious
        rw [((h.agreed uri ref' e he).sameCallees hs).2]
        rw [← hs.registrationId, hid] at hfits
        simp only [claims, hheld, hleases] at hfits ⊢
        simp only [ofRegistration, beq_self_eq_true, Bool.and_self, Bool.toNat_true] at hcount hfits ⊢
        omega
      · have hcount := st.pendingRetryDebounces.length_erase hprevious
        have hbound := h.bounded
        rw [allClaims] at hbound ⊢
        rw [hheld, hleases]
        omega
    have hbudget : Budget { st₁ with counters := { st₁.counters with
        totalRetryDeduplicationDebounceReplacements :=
          st₁.counters.totalRetryDeduplicationDebounceReplacements + 1 } } :=
      h.of_eased (Eased.calm.trans heased (Eased.calm.counters st₁ _))
    refine hbudget.hold ⟨hroom.le, hroom.fits, hroom.bounded⟩ ?_ _
    rw [hheld]
    exact LinkedMap.get?_erase_self _ _
  · next hnone =>
    split
    · next st' e he =>
      have heased := Eased.calm.resting.ensureCapacity st entry policy
      rw [he] at heased
      exact send _ port _ (h.of_eased heased)
    · next st₀ he =>
      obtain ⟨rfl, hroom⟩ := h.hasRoom hat hpolicy hash he
      exact h.hold hroom hnone _

theorem handleInvocationDispatch (h : st.Budget) (env : StoreEnv) (uri : String)
    (caller request : Nat) (procedure : String) (options : Dict) (port : SendPort) :
    (st.handleInvocationDispatch env uri caller request procedure options port).Budget := by
  refine handleInvocationDispatch_elim (fun st' ha => ?_) (fun st' e ha => ?_) ?_
  · exact calm.resting.replyDispatch st' send port
      (calm.resting.dispatchInvocation st' env uri caller request procedure options)
      (calm.resting.asked ha h)
  · exact send st' port _ (calm.resting.asked ha h)
  · intro st' realm ref entry policy hash _ _ hg hlookup hpolicy
    obtain ⟨hkept, hr⟩ := calm.resting.getOrCreateRealm hg
    have hreap := calm.resting.reap st' env.now (hkept h)
    have hat : (st'.reapExpiredRetryThrottleLeases env.now).EntryAt uri ref entry := by
      have hsame : (st'.reapExpiredRetryThrottleLeases env.now).realmOf uri = st'.realmOf uri :=
        realmOf_congr (by rw [reap_realms])
      rw [EntryAt, hsame, realmOf_of_get hr]
      exact ProcedureTable.heap_of_lookup hlookup
    split
    · exact hreap.dispatchThrottled env uri caller request procedure options port hat hpolicy hash
    · exact hreap.dispatchDebounced env uri caller request procedure options port hat hpolicy _ hash

theorem dispatchPendingRetryDebounce (h : st.Budget) (env : StoreEnv)
    (key : RetryDeduplicationKey) : (st.dispatchPendingRetryDebounce env key).Budget := by
  unfold RouterStateStore.dispatchPendingRetryDebounce
  split
  · exact h
  · have herased : Budget { st with
        pendingRetryDebounces := st.pendingRetryDebounces.erase key } :=
      h.of_eased (.of_eq rfl rfl (.refl _) (erase_sublist _ _))
    refine calm.resting.replyDispatch _ send _ (calm.resting.dispatchInvocation _ env _ _ _ _ _) ?_
    split
    · exact calm.counters _ _ herased
    · exact herased

/-! ### Registrations -/

/-- A fresh registration id is drawn, and an entry without callees may be put under it. -/
theorem created (h : st.Budget) (hx : ¬ st.ids.registration.Exhausted) {uri : String}
    {realm : RealmRecord} (hr : st.realms.get? uri = some realm) {procedure : String}
    {policy : InvocationPolicy} {matchPolicy : ProcedureMatchPolicy} {now : Nat}
    {table : ProcedureTable} {ref : Ref}
    (hf : realm.procedures.findOrCreateProcedure procedure st.ids.registration.nextId policy
      matchPolicy now = (table, ref)) :
    (st.drawRegistrationId.setRealm uri { realm with procedures := table }).Budget := by
  have hcurrent : (st.drawRegistrationId.setRealm uri
      { realm with procedures := table }).ids.registration.current =
      st.ids.registration.current + 1 := WampIdGenerator.nextId_of_not_exhausted hx
  -- an entry of the new table is an old one, or the new one, which nobody claims yet
  have hentry : ∀ u r e, (st.drawRegistrationId.setRealm uri
      { realm with procedures := table }).EntryAt u r e → st.EntryAt u r e ∨
      (u = uri ∧ r = realm.procedures.heap.next ∧
        e.registrationId = st.ids.registration.current + 1 ∧ e.callees.isEmpty = true) := by
    intro u r e he
    rw [EntryAt, realmOf_setRealm] at he
    split at he
    · next hu =>
      subst hu
      rw [EntryAt, realmOf_of_get hr]
      simp only [ProcedureTable.findOrCreateProcedure] at hf
      split at hf
      · obtain ⟨rfl, rfl⟩ := Prod.mk.inj hf
        exact .inl he
      · obtain ⟨rfl, rfl⟩ := Prod.mk.inj hf
        dsimp only at he
        rw [Heap.get?_alloc] at he
        split at he
        · next hnew =>
          obtain rfl := Option.some.inj he
          exact .inr ⟨rfl, hnew, WampIdGenerator.nextId_of_not_exhausted hx, rfl⟩
        · exact .inl he
    · exact .inl he
  have hunclaimed : ∀ u, st.claims u (st.ids.registration.current + 1) = 0 := by
    intro u
    have hnone : ∀ {ν : Type} (m : LinkedMap RetryDeduplicationKey ν),
        (∀ key v, m.get? key = some v → key.registrationId ≤ st.ids.registration.current) →
        m.entries.countP (ofRegistration u (st.ids.registration.current + 1)) = 0 := by
      intro ν m hm
      rw [List.countP_eq_zero]
      rintro ⟨key, v⟩ hx hkey
      have hle := hm key v (LinkedMap.mem_entries.mp hx)
      simp only [ofRegistration, Bool.and_eq_true, beq_iff_eq] at hkey
      omega
    rw [claims, hnone _ h.lease_le, hnone _ h.held_le]
  refine ⟨fun u r e he => ?_, fun u r r' e e' he he' hid => ?_, fun u r e he => ?_,
    fun key lease hk => ?_, fun key held hk => ?_, fun u r e he => ?_, h.bounded⟩
  · rw [hcurrent]
    rcases hentry u r e he with he | ⟨-, -, hid, -⟩
    · exact Nat.le_succ_of_le (h.id_le u r e he)
    · exact Nat.le_of_eq hid
  · rcases hentry u r e he with he | ⟨-, rfl, hnew, -⟩ <;>
      rcases hentry u r' e' he' with he' | ⟨-, rfl, hnew', -⟩
    · exact h.own_id u r r' e e' he he' hid
    · have hle := h.id_le u r e he
      omega
    · have hle := h.id_le u r' e' he'
      omega
    · rfl
  · rcases hentry u r e he with he | ⟨-, -, -, hempty⟩
    · exact h.agreed u r e he
    · intro id c hc
      rw [SplayMap.isEmpty_iff.mp hempty id] at hc
      cases hc
  · rw [hcurrent]
    exact Nat.le_succ_of_le (h.lease_le key lease hk)
  · rw [hcurrent]
    exact Nat.le_succ_of_le (h.held_le key held hk)
  · rcases hentry u r e he with he | ⟨-, -, hid, -⟩
    · exact h.fits u r e he
    · rw [hid]
      exact Nat.le_trans (Nat.le_of_eq (hunclaimed u)) (Nat.zero_le _)

/-- A callee is added to an entry without callees, or one that agrees with those there. -/
theorem addCallee (h : st.Budget) {uri : String} {realm r : RealmRecord}
    (hr : st.realms.get? uri = some realm) {ref : Ref} {entry : ProcedureEntry}
    (he : realm.procedures.heap.get? ref = some entry) {record : RegistrationRecord}
    (hcheck : entry.callees.isEmpty = true ∨
      retryDeduplicationFromDetails record.details = retryDeduplicationForEntry entry)
    (hp : r.procedures.heap = realm.procedures.heap.modify ref (·.addCallee record)) :
    (st.setRealm uri r).Budget := by
  have hat : st.EntryAt uri ref entry := by rwa [EntryAt, realmOf_of_get hr]
  refine h.of_fewer rfl (.refl _) (.refl _) fun u ref' e' he' => ?_
  have hkept : ∀ e, st.EntryAt u ref' e → ∃ e₀, st.EntryAt u ref' e₀ ∧
      e.registrationId = e₀.registrationId ∧ Agreed e ∧ st.claims u e.registrationId ≤ roomOf e :=
    fun e he => ⟨e, he, rfl, h.agreed u ref' e he, h.fits u ref' e he⟩
  rw [EntryAt, realmOf_setRealm] at he'
  split at he'
  · next hu =>
    subst hu
    rw [hp, Heap.get?_modify] at he'
    split at he'
    · next href =>
      subst href
      rw [he, Option.map_some] at he'
      obtain rfl := Option.some.inj he'
      refine ⟨entry, hat, rfl, ?_⟩
      -- all callees ask for what the new one asks for
      have hall : ∀ id c, (entry.addCallee record).callees.get? id = some c →
          retryDeduplicationFromDetails c.details = retryDeduplicationFromDetails record.details := by
        intro id c hc
        rw [ProcedureEntry.addCallee, SplayMap.get?_insert] at hc
        split at hc
        · obtain rfl := Option.some.inj hc
          rfl
        · rcases hcheck with hempty | hsame
          · rw [SplayMap.isEmpty_iff.mp hempty id] at hc
            cases hc
          · rw [hsame]
            exact h.agreed u ref' entry hat id c hc
      have hne : (entry.addCallee record).callees.isEmpty = false := by
        rw [Bool.eq_false_iff]
        intro hempty
        have hnone := SplayMap.isEmpty_iff.mp hempty record.registrationId
        rw [ProcedureEntry.addCallee, SplayMap.get?_insert_self] at hnone
        cases hnone
      have hpolicy := retryDeduplicationForEntry_eq hne hall
      refine ⟨fun id c hc => (hall id c hc).trans hpolicy.symm, ?_⟩
      have hfits := h.fits u ref' entry hat
      rcases hcheck with hempty | hsame
      · rw [roomOf_empty hempty] at hfits
        exact Nat.le_trans hfits (Nat.zero_le _)
      · rw [roomOf, hpolicy, hsame]
        exact hfits
    · refine hkept e' ?_
      rwa [EntryAt, realmOf_of_get hr]
  · exact hkept e' he'

/-- What the checks of a registration say about its policy. -/
theorem check_agrees {entry : ProcedureEntry} {procedure : String} {policy : InvocationPolicy}
    {matchPolicy : ProcedureMatchPolicy} {retryDeduplication : Option RetryDeduplication}
    {details : Dict}
    (hsettings : registrationSettings details = .ok (policy, matchPolicy, retryDeduplication))
    (hcheck : checkSharedRegistration entry procedure policy matchPolicy retryDeduplication
      details = .ok ()) :
    entry.callees.isEmpty = true ∨
      retryDeduplicationFromDetails details = retryDeduplicationForEntry entry := by
  have hdetails : retryDeduplicationFromDetails details = .ok retryDeduplication := by
    unfold registrationSettings at hsettings
    obtain ⟨_, -, hsettings⟩ := Checks.except_bind_eq_ok hsettings
    obtain ⟨_, -, hsettings⟩ := Checks.except_bind_eq_ok hsettings
    obtain ⟨_, hretry, hsettings⟩ := Checks.except_bind_eq_ok hsettings
    cases hsettings
    exact hretry
  unfold checkSharedRegistration at hcheck
  split at hcheck
  · next hempty => exact .inl hempty
  · right
    split at hcheck
    · cases hcheck
    · split at hcheck
      · cases hcheck
      · split at hcheck
        · cases hcheck
        · split at hcheck
          · cases hcheck
          · next existing hentry =>
            split at hcheck
            · next hsame => rw [hdetails, hentry, hsame]
            · cases hcheck

theorem registerProcedure (h : st.Budget) (hx : ¬ st.ids.registration.Exhausted) (env : StoreEnv)
    (uri : String) (s : Nat) (procedure : String) (details : Dict) :
    (st.registerProcedure env uri s procedure details).1.Budget := by
  unfold RouterStateStore.registerProcedure
  split
  · exact h
  · next st' realm hg =>
    obtain ⟨hkept, hr⟩ := calm.resting.getOrCreateRealm hg
    have hx' : ¬ st'.ids.registration.Exhausted := by rwa [getOrCreateRealm_ids hg]
    split
    · exact hkept h
    · next session hs =>
      split
      · exact hkept h
      · next policy matchPolicy retryDeduplication hsettings =>
        dsimp only
        cases hf : realm.procedures.findOrCreateProcedure procedure st'.ids.registration.nextId
            policy matchPolicy env.now with
        | mk table ref =>
          have hcreated := (hkept h).created hx' hr hf
          dsimp only
          split
          · exact hcreated
          · next entry he =>
            split
            · exact hcreated
            · next hcheck =>
              have hset : (st'.drawRegistrationId.setRealm uri
                  { realm with procedures := table }).realms.get? uri =
                  some { realm with procedures := table } := by rw [get?_setRealm, if_pos rfl]
              have hadded : ∀ r : RealmRecord, r.procedures.heap = table.heap.modify ref
                  (·.addCallee { registrationId := st'.ids.registration.nextId,
                                 procedure := procedure, sessionId := s,
                                 authRole := session.authRole, details := details,
                                 matchPolicy := matchPolicy }) →
                  (((st'.drawRegistrationId.setRealm uri { realm with procedures := table }).setRealm
                    uri r).bumpAndNotify uri).Budget :=
                fun r hp => calm.resting.bumpAndNotify _ uri
                  (hcreated.addCallee hset he (check_agrees hsettings hcheck) hp)
              have hheap := fun (t : ProcedureTable) f => congrArg ProcedureTable.heap
                (Calm.procedures_modifySession { realm with procedures := t } s f)
              refine calm.notice _ _ rfl ?_
              split
              · exact calm.notice _ _ rfl (hadded _ (hheap _ _))
              · exact hadded _ (hheap _ _)

/-- The entries after an unregistration. -/
theorem heap_unregister (t : ProcedureTable) (ref : Ref) (entry : ProcedureEntry) (id : Nat) :
    (t.unregister ref entry id).heap = t.heap.modify ref (·.removeCallee id) := by
  have hdrop : ∀ (ids : List Nat) (t : ProcedureTable),
      (ids.foldl ProcedureTable.dropRegistration t).heap = t.heap := by
    intro ids
    induction ids with
    | nil => exact fun t => rfl
    | cons id rest ih => exact fun t => ih (t.dropRegistration id)
  unfold ProcedureTable.unregister
  dsimp only
  split
  · exact hdrop _ _
  · rfl

theorem get?_dropLeases (keys : List RetryDeduplicationKey) (st : RouterStateStore)
    (key : RetryDeduplicationKey) :
    (keys.foldl dropLease st).retryThrottleLeases.get? key =
      if key ∈ keys then none else st.retryThrottleLeases.get? key := by
  have hone : ∀ (st : RouterStateStore) k, (st.dropLease k).retryThrottleLeases.get? key =
      if key = k then none else st.retryThrottleLeases.get? key := by
    intro st k
    unfold dropLease
    split
    · next hnone =>
      by_cases hk : key = k
      · rw [if_pos hk, hk, hnone]
      · rw [if_neg hk]
    · exact LinkedMap.get?_erase _ _ _
  induction keys generalizing st with
  | nil => simp
  | cons k rest ih =>
      rw [List.foldl_cons, ih, hone]
      by_cases hk : key = k
      · simp [hk]
      · simp [hk]

/-- Once a registration is cleared, nobody claims it. -/
theorem claims_clearRetry (st : RouterStateStore) (uri : String) (id : Nat) :
    (st.clearRetryDeduplicationForRegistration uri id).claims uri id = 0 := by
  have hleases : (st.clearRetryDeduplicationForRegistration uri id).retryThrottleLeases =
      ((st.retryThrottleLeases.keys.filter fun key =>
        key.realmUri == uri && key.registrationId == id).foldl dropLease st).retryThrottleLeases :=
    foldl_frame (·.retryThrottleLeases) (fun st key => dropDebounce_leases st _ key) _ _
  rw [claims, Nat.add_eq_zero_iff, List.countP_eq_zero, List.countP_eq_zero]
  constructor
  · rintro ⟨key, lease⟩ hx hkey
    have hget := LinkedMap.mem_entries.mp hx
    rw [hleases, get?_dropLeases] at hget
    split at hget
    · cases hget
    · next hmem =>
      exact hmem (List.mem_filter.mpr ⟨LinkedMap.mem_keys.mpr ⟨lease, hget⟩, hkey⟩)
  · rintro ⟨key, held⟩ hx hkey
    have hget : heldAt key (st.clearRetryDeduplicationForRegistration uri id) = some held :=
      LinkedMap.mem_entries.mp hx
    simp only [ofRegistration, Bool.and_eq_true, beq_iff_eq] at hkey
    rw [heldAt_clearRetry, if_pos hkey] at hget
    cases hget

/-- A callee leaves; when it was the last one, the claims on the entry are gone. -/
theorem removeCallee (h : st.Budget) (hi : st'.ids.registration = st.ids.registration)
    (hl : st'.retryThrottleLeases.entries.Sublist st.retryThrottleLeases.entries)
    (hd : st'.pendingRetryDebounces.entries.Sublist st.pendingRetryDebounces.entries)
    {uri : String} {ref : Ref} {entry : ProcedureEntry} {id : Nat}
    (hat : st.EntryAt uri ref entry)
    (ht : ∀ u ref' e, st'.EntryAt u ref' e → (u = uri ∧ ref' = ref ∧ e = entry.removeCallee id) ∨
      st.EntryAt u ref' e)
    (hlast : (entry.removeCallee id).callees.isEmpty = true →
      st'.claims uri entry.registrationId = 0) : st'.Budget := by
  refine h.of_fewer hi hl hd fun u ref' e' he' => ?_
  have hfewer : ∀ u id, st'.claims u id ≤ st.claims u id :=
    fun _ _ => Nat.add_le_add hl.countP_le hd.countP_le
  rcases ht u ref' e' he' with ⟨rfl, rfl, rfl⟩ | he
  · have hsub : ∀ i c', (entry.removeCallee id).callees.get? i = some c' →
        ∃ c, entry.callees.get? i = some c ∧ c'.details = c.details := by
      intro i c hc
      rw [ProcedureTable.exists_removeCallee_iff] at hc
      split at hc
      · cases hc
      · exact ⟨c, hc, rfl⟩
    obtain ⟨hagreed, hsame⟩ := (h.agreed u ref' entry hat).sub hsub
    have hid := ProcedureTable.removeCallee_registrationId entry id
    refine ⟨entry, hat, hid, hagreed, ?_⟩
    rw [hid]
    cases hempty : (entry.removeCallee id).callees.isEmpty with
    | true =>
        rw [hlast hempty]
        exact Nat.zero_le _
    | false =>
        rw [roomOf, hsame hempty]
        exact Nat.le_trans (hfewer _ _) (h.fits u ref' entry hat)
  · exact ⟨e', he, rfl, h.agreed u ref' e' he, Nat.le_trans (hfewer _ _) (h.fits u ref' e' he)⟩

theorem heap_unregistered {realm : RealmRecord} {s id : Nat} {ref : Ref} {entry : ProcedureEntry}
    (hf : realm.procedures.findProcedureByRegistrationId id = some (ref, entry)) :
    (realm.unregisterProcedure s id).procedures.heap =
      realm.procedures.heap.modify ref (·.removeCallee id) := by
  rw [RealmRecord.unregisterProcedure, hf]
  exact (congrArg ProcedureTable.heap (Calm.procedures_modifySession _ s _)).trans
    (heap_unregister realm.procedures ref entry id)

/-- What an unregistration gives back. -/
theorem claims_unregister {uri : String} {realm : RealmRecord} (s : Nat) {id : Nat} {ref : Ref}
    {entry : ProcedureEntry} (hr : st.realms.get? uri = some realm)
    (hf : realm.procedures.findProcedureByRegistrationId id = some (ref, entry)) :
    (st.unregisterProcedure uri s id).retryThrottleLeases.entries.Sublist
        st.retryThrottleLeases.entries ∧
      (st.unregisterProcedure uri s id).pendingRetryDebounces.entries.Sublist
        st.pendingRetryDebounces.entries ∧
      ((entry.removeCallee id).callees.isEmpty = true →
        (st.unregisterProcedure uri s id).claims uri entry.registrationId = 0) := by
  have hbump : ∀ (st : RouterStateStore) u i, (st.bumpAndNotify uri).claims u i = st.claims u i := by
    intro st u i
    rw [claims, bumpAndNotify_leases, bumpAndNotify_debounces, claims]
  simp only [RouterStateStore.unregisterProcedure, hr, hf, bumpAndNotify_leases,
    bumpAndNotify_debounces, hbump]
  by_cases hlast : (entry.removeCallee id).callees.isEmpty = true
  · simp only [if_pos hlast, claims_clearRetry, implies_true, and_true]
    have hcleared : ∀ st₁ : RouterStateStore, st₁.retryThrottleLeases = st.retryThrottleLeases →
        st₁.pendingRetryDebounces = st.pendingRetryDebounces →
        (st₁.clearRetryDeduplicationForRegistration uri
            entry.registrationId).retryThrottleLeases.entries.Sublist
            st.retryThrottleLeases.entries ∧
          (st₁.clearRetryDeduplicationForRegistration uri
            entry.registrationId).pendingRetryDebounces.entries.Sublist
            st.pendingRetryDebounces.entries := by
      intro st₁ hl hd
      have heased := Eased.clearRetry st₁ uri entry.registrationId
      exact ⟨hl ▸ heased.leases, hd ▸ heased.held⟩
    cases entry.callees.get? id <;> exact hcleared _ rfl rfl
  · simp only [if_neg hlast]
    refine ⟨?_, ?_, fun hempty => absurd hempty hlast⟩
    · cases entry.callees.get? id <;> exact .refl _
    · cases entry.callees.get? id <;> exact .refl _

theorem unregisterProcedure (h : st.Budget) (uri : String) (s id : Nat) :
    (st.unregisterProcedure uri s id).Budget := by
  cases hr : st.realms.get? uri with
  | none =>
      simp only [RouterStateStore.unregisterProcedure, hr]
      exact h
  | some realm =>
      cases hf : realm.procedures.findProcedureByRegistrationId id with
      | none =>
          simp only [RouterStateStore.unregisterProcedure, hr, hf]
          exact h
      | some found =>
          obtain ⟨ref, entry⟩ := found
          have hentry : realm.procedures.heap.get? ref = some entry := by
            simp only [ProcedureTable.findProcedureByRegistrationId, Option.bind_eq_some_iff,
              Option.map_eq_some_iff] at hf
            obtain ⟨r, -, e, he, hpair⟩ := hf
            cases hpair
            exact he
          have htable : ∀ u ref' e, (st.unregisterProcedure uri s id).EntryAt u ref' e →
              (u = uri ∧ ref' = ref ∧ e = entry.removeCallee id) ∨ st.EntryAt u ref' e := by
            intro u ref' e he
            rw [EntryAt, realmOf, get?_unregisterProcedure] at he
            split at he
            · next hu =>
              subst hu
              rw [hr, Option.map_some, Option.getD_some, heap_unregistered hf, Heap.get?_modify]
                at he
              split at he
              · next href =>
                subst href
                rw [hentry, Option.map_some] at he
                exact .inl ⟨rfl, rfl, (Option.some.inj he).symm⟩
              · refine .inr ?_
                rwa [EntryAt, realmOf_of_get hr]
            · exact .inr he
          have hat : st.EntryAt uri ref entry := by rwa [EntryAt, realmOf_of_get hr]
          obtain ⟨hl, hd, hlast⟩ := claims_unregister s hr hf
          exact h.removeCallee (by rw [unregisterProcedure_ids]) hl hd hat htable hlast

theorem closeSession (h : st.Budget) (uri : String) (s : Nat) : (st.closeSession uri s).Budget := by
  unfold RouterStateStore.closeSession
  split
  · exact h
  · have hstart : ((st.cancelPendingRetryDebouncesForCaller uri s).removeInvocationsForSession uri
        s).Budget :=
      calm.resting.removeInvocations _ uri s
        (h.of_eased (Eased.calm.resting.foldl st (fun st key => Eased.dropDebounce _ st key) _))
    dsimp only
    split
    · exact hstart
    · have hforgotten : (((st.cancelPendingRetryDebouncesForCaller uri
          s).removeInvocationsForSession uri s).modifyRealm uri
            fun r => { r with sessions := r.sessions.erase s }).Budget :=
        calm.modifyRealm _ uri (fun _ => rfl) hstart
      refine calm.notice _ _ rfl (calm.resting.bumpAndNotify _ uri ?_)
      refine calm.resting.foldl _ (fun st id h => h.unregisterProcedure uri s id) _ ?_
      exact calm.resting.foldl _ (fun st id => calm.removeSubscription st uri s id) _ hforgotten

/-- **Every input keeps the budget**, as long as there are registration ids left. -/
theorem step (h : st.Budget) (hx : ¬ st.ids.registration.Exhausted) (x : StoreEnv × StoreInput) :
    (st.step x).Budget := by
  obtain ⟨env, input⟩ := x
  cases input with
  | invocationTimer uri id =>
      simp only [RouterStateStore.step, handle]
      split
      · exact calm.resting.expireInvocation st (fun st event h => h.of_eased (Eased.emit st _)) uri id h
      · exact h
  | debounceTimer key => exact h.dispatchPendingRetryDebounce env key
  | command c =>
      refine calm.dispatchCommand st send env c ?_ ?_ ?_ ?_ h
      · rintro uri s - h
        exact h.closeSession uri s
      · rintro uri s procedure details port - h
        exact h.registerProcedure hx env uri s procedure details
      · rintro uri s id - h
        exact h.unregisterProcedure uri s id
      · rintro uri caller request procedure options port - h
        exact h.handleInvocationDispatch env uri caller request procedure options port

end Budget

/-! ### Whole runs -/

theorem validated_capacity {debounce : Option Int} {capacity expiry : Int}
    {policy : RetryDeduplication}
    (h : RetryDeduplication.validated debounce capacity expiry = .ok policy) :
    1 ≤ policy.capacity := by
  unfold RetryDeduplication.validated at h
  split at h
  · cases h
  · next hrange =>
    split at h
    · cases h
    · split at h
      · cases h
      · split at h
        · cases h
        · cases h
          exact Int.not_lt.mp fun hlt => hrange (.inl hlt)

theorem fromWire_capacity {value capacity expiry : Value} {policy : RetryDeduplication}
    (h : RetryDeduplication.fromWire value capacity expiry = .ok policy) :
    1 ≤ policy.capacity := by
  unfold RetryDeduplication.fromWire at h
  split at h
  · split at h
    · cases h
    · cases hc : RetryDeduplication.intField capacity RetryDeduplication.capacityWireField
          RetryDeduplication.defaultCapacity with
      | error e =>
          rw [hc] at h
          cases h
      | ok c =>
          cases he : RetryDeduplication.intField expiry RetryDeduplication.expiryWireField
              RetryDeduplication.defaultExpiry with
          | error e =>
              rw [hc, he] at h
              cases h
          | ok e =>
              rw [hc, he] at h
              exact validated_capacity h
  · cases h

/-- A policy has room for a claim. -/
theorem capacity_pos {details : Dict} {policy : RetryDeduplication}
    (h : retryDeduplicationFromDetails details = .ok (some policy)) : 1 ≤ policy.capacity := by
  have hdetails : RetryDeduplication.ofDetails details = .ok (some policy) := by
    cases ho : RetryDeduplication.ofDetails details with
    | error e =>
        rw [retryDeduplicationFromDetails, ho] at h
        cases h
    | ok p =>
        rw [retryDeduplicationFromDetails, ho] at h
        cases h
        rfl
  unfold RetryDeduplication.ofDetails at hdetails
  dsimp only at hdetails
  split at hdetails
  · split at hdetails
    · cases hdetails
    · cases hdetails
  · next value hvalue =>
    cases hw : RetryDeduplication.fromWire (details.at RetryDeduplication.wireField)
        (details.at RetryDeduplication.capacityWireField)
        (details.at RetryDeduplication.expiryWireField) with
    | error e =>
        rw [hw] at hdetails
        cases hdetails
    | ok p =>
        rw [hw] at hdetails
        cases hdetails
        exact fromWire_capacity hw

/-- The leases, the table by invocation and the capacities fit together. -/
structure LeasesSound (st : RouterStateStore) : Prop where
  /-- The two throttle tables are inverse to each other. -/
  inverse : ∀ key id, st.retryThrottleKeysByInvocation.get? id = some key ↔
    ∃ lease, st.retryThrottleLeases.get? key = some lease ∧ lease.invocationId = id
  /-- A lease belongs to an invocation that is pending in its realm. -/
  pending : ∀ key lease, st.retryThrottleLeases.get? key = some lease →
    ∃ i, st.getInvocation key.realmUri lease.invocationId = some i
  /-- A realm, a registration and a transaction hash have one lease at most. -/
  single : (st.retryThrottleLeases.entries.map fun x =>
    (x.1.realmUri, x.1.registrationId, x.1.transactionHash)).Nodup
  /-- A registration has room for its leases and held dispatches. -/
  capacity : ∀ u realm ref e policy, st.realms.get? u = some realm →
    realm.procedures.heap.get? ref = some e →
    retryDeduplicationForEntry e = .ok (some policy) →
    (st.claims u e.registrationId : Int) ≤ policy.capacity
  bounded : st.retryThrottleLeases.length + st.pendingRetryDebounces.length ≤
    maxGlobalRetryDeduplicationEntries

theorem Invocations.leasesSound {st : RouterStateStore} (h : st.Invocations) (hb : st.Budget) :
    st.LeasesSound where
  inverse key id := by
    constructor
    · exact h.key_lease id key
    · rintro ⟨lease, hl, rfl⟩
      exact h.lease_key key lease hl
  pending key lease hl := h.lease_pending lease.invocationId key (h.lease_key key lease hl)
  single := by
    have hfields : (fun x : RetryDeduplicationKey × RetryThrottleLease =>
        (x.1.realmUri, x.1.registrationId, x.1.transactionHash)) =
        (fun key => (key.realmUri, key.registrationId, key.transactionHash)) ∘ Prod.fst := rfl
    rw [hfields, ← List.map_map]
    refine st.retryThrottleLeases.nodup.map fun k k' hk => ?_
    obtain ⟨u, id, hash⟩ := k
    obtain ⟨u', id', hash'⟩ := k'
    simp only [Prod.mk.injEq] at hk
    obtain ⟨rfl, rfl, rfl⟩ := hk
    rfl
  capacity u realm ref e policy hr he hp := by
    have hfits := hb.fits u ref e (by rwa [EntryAt, realmOf_of_get hr])
    rw [roomOf, hp] at hfits
    dsimp only at hfits
    have hpos : 1 ≤ policy.capacity := by
      cases hempty : e.callees.isEmpty with
      | true =>
          rw [retryDeduplicationForEntry_empty hempty] at hp
          cases hp
      | false =>
          obtain ⟨id, c, hc, -⟩ := exists_head hempty
          exact capacity_pos ((hb.agreed u ref e (by rwa [EntryAt, realmOf_of_get hr]) id c hc).trans
            hp)
    omega
  bounded := hb.bounded

/-- **The leases are sound** after every run in which the generators of registration and invocation
ids have not come round. -/
theorem leases_sound (configs : List String) (inputs : List (StoreEnv × StoreInput))
    (st : RouterStateStore)
    (hrun : Run step (fun st _ => ¬ st.ids.registration.Exhausted ∧ ¬ st.ids.invocation.Exhausted)
      { realmConfigs := configs } inputs st) : st.LeasesSound := by
  have hboth := hrun.invariant (P := fun st => st.Invocations ∧ st.Budget)
    (fun _ x h hok => ⟨h.1.step hok.2, h.2.step hok.1 x⟩)
    ⟨Invocations.initial configs, Budget.initial configs⟩
  exact hboth.1.leasesSound hboth.2

/-- A REGISTER that asks for throttling. -/
def throttleDetails : Dict := LinkedMap.empty.insert "auto_deduplication" (.int 0)

def hashOptions (hash : String) : Dict := LinkedMap.empty.insert "transaction_hash" (.str hash)

/-- Session 2 calls session 1's procedure, with the hash `a`. -/
def leasedInputs : List (StoreEnv × StoreInput) :=
  [({}, .command (.sessionOpen "realm1" { id := 1, connectionId := 1 })),
   ({}, .command (.procedureRegister "realm1" 1 "com.proc" throttleDetails 0)),
   ({}, .command (.sessionOpen "realm1" { id := 2, connectionId := 2 })),
   ({}, .command (.invocationDispatch "realm1" 2 1 "com.proc" (hashOptions "a") 0))]

def leasedStore : RouterStateStore := leasedInputs.foldl step { realmConfigs := ["realm1"] }

/-- The call has a lease, and the tables are sound. -/
theorem leasedStore_sound :
    leasedStore.retryThrottleLeases.length = 1 ∧ leasedStore.LeasesSound := by
  have hleft : ∀ st : RouterStateStore,
      (st.ids.registration.current < st.ids.registration.max ∧
        st.ids.invocation.current < st.ids.invocation.max) →
      ¬ st.ids.registration.Exhausted ∧ ¬ st.ids.invocation.Exhausted :=
    fun st h => ⟨Nat.not_le.mpr h.1, Nat.not_le.mpr h.2⟩
  refine ⟨rfl, leases_sound ["realm1"] leasedInputs leasedStore ?_⟩
  exact .cons (hleft _ (by decide +kernel)) (.cons (hleft _ (by decide +kernel))
    (.cons (hleft _ (by decide +kernel)) (.cons (hleft _ (by decide +kernel)) (.nil _))))

/-! ### When a generator comes round -/

/-- Updating an object to what it is. -/
theorem modify_self {t : ProcedureTable} {ref : Ref} {e : ProcedureEntry}
    (h : t.heap.get? ref = some e) : t.modify ref (fun _ => e) = t := by
  have hcells : t.heap.cells.modify ref (fun _ => e) = t.heap.cells := by
    refine List.ext_getElem? fun i => ?_
    rw [List.getElem?_modify]
    split
    · next hi =>
      subst hi
      have hget : t.heap.cells[ref]? = some e := h
      rw [hget]
      rfl
    · cases t.heap.cells[i]? <;> rfl
  rw [ProcedureTable.modify, Heap.modify, hcells]

/-- Where a call of `procedure` by the session 2 goes. -/
structure Callable (realm : RealmRecord) (procedure : String) (ref : Ref) (entry : ProcedureEntry)
    (callee : RegistrationRecord) (caller session : SessionRecord) : Prop where
  caller : realm.sessions.get? 2 = some caller
  found : realm.procedures.procedureAtlas.lookup realm.procedures.heap procedure =
    some (ref, entry)
  inhabited : entry.callees.isEmpty = false
  single : entry.policy = .single
  head : entry.callees.values.head? = some callee
  session : realm.sessions.get? callee.sessionId = some session

/-- A call whose timeout is refused draws an id and leaves the realm as it is. -/
theorem Callable.refused {realm : RealmRecord} {procedure : String} {ref : Ref}
    {entry : ProcedureEntry} {callee : RegistrationRecord} {caller session : SessionRecord}
    (h : Callable realm procedure ref entry callee caller session) {st : RouterStateStore}
    {uri : String} (hr : st.realms.get? uri = some realm) {request : Nat}
    (hfree : realm.findInvocationByCaller 2 request = none) (options : Dict)
    (hhash : transactionHash options = .ok none) {e : StoreError}
    (htimeout : callTimeout options = .error e) (env : StoreEnv) (port : SendPort) :
    st.handleInvocationDispatch env uri 2 request procedure options port =
      (st.drawInvocationId.setRealm uri realm).send port (.failed e) := by
  have hsame := modify_self (ProcedureTable.heap_of_lookup h.found)
  simp only [handleInvocationDispatch, findInvocationByCaller, hr, Option.bind_some, hfree, hhash,
    Except.mapError, getOrCreateRealm, dispatchInvocation, h.caller, dispatchNew, h.found,
    h.inhabited, ProcedureEntry.nextCallee, h.single, h.head, htimeout, replyDispatch, hsame,
    Bool.false_eq_true, if_false]

/-- A throttled call under the id 1 takes the place of the lease that had it. -/
theorem Callable.throttled {realm : RealmRecord} {procedure : String} {ref : Ref}
    {entry : ProcedureEntry} {callee : RegistrationRecord} {caller session : SessionRecord}
    (h : Callable realm procedure ref entry callee caller session) {st : RouterStateStore}
    {uri : String} (hr : st.realms.get? uri = some realm) {request : Nat}
    (hfree : realm.findInvocationByCaller 2 request = none) (options : Dict) {hash : String}
    (hhash : transactionHash options = .ok (some hash)) {timeout : Option Int}
    (htimeout : callTimeout options = .ok timeout) {policy : RetryDeduplication}
    (hpolicy : retryDeduplicationForEntry entry = .ok (some policy))
    (hthrottle : policy.debounce = none) (env : StoreEnv)
    (hreap : st.reapExpiredRetryThrottleLeases env.now = st)
    (hlease : st.retryThrottleLeases.contains ⟨uri, entry.registrationId, hash⟩ = false)
    (hroom : st.ensureRetryDeduplicationCapacity entry policy = (st, .ok ())) (port : SendPort) :
    (st.handleInvocationDispatch env uri 2 request procedure options port).retryThrottleLeases =
        st.retryThrottleLeases.insert ⟨uri, entry.registrationId, hash⟩
          { invocationId := st.ids.invocation.nextId, expiresAt := env.now + policy.expiry } ∧
      (st.handleInvocationDispatch env uri 2 request procedure options
          port).retryThrottleKeysByInvocation =
        st.retryThrottleKeysByInvocation.insert st.ids.invocation.nextId
          ⟨uri, entry.registrationId, hash⟩ := by
  simp only [handleInvocationDispatch, findInvocationByCaller, hr, Option.bind_some, hfree, hhash,
    Except.mapError, getOrCreateRealm, dispatchHashed, h.found, h.inhabited, Bool.false_eq_true,
    if_false, hpolicy, hreap, hthrottle, dispatchThrottled, hlease, hroom, dispatchInvocation,
    h.caller, dispatchNew, ProcedureEntry.nextCallee, h.single, h.head, htimeout, h.session]
  have hl : ∀ (st : RouterStateStore) i, (st.scheduleInvocationTimeout uri i).retryThrottleLeases =
      st.retryThrottleLeases := fun st i => (scheduleInvocationTimeout_sameLeases st uri i).1
  have hk : ∀ (st : RouterStateStore) i,
      (st.scheduleInvocationTimeout uri i).retryThrottleKeysByInvocation =
        st.retryThrottleKeysByInvocation :=
    fun st i => (scheduleInvocationTimeout_sameLeases st uri i).2.1
  simp only [send_leases, send_keys, countDispatch, hl, hk]
  exact ⟨rfl, rfl⟩

/-- A call whose timeout is refused. -/
def refusedCall : StoreEnv × StoreInput :=
  ({}, .command (.invocationDispatch "realm1" 2 2 "com.proc"
    (LinkedMap.empty.insert "timeout" (.int (-1))) 0))

/-- A call with the hash `b`. -/
def secondCall : StoreEnv × StoreInput :=
  ({}, .command (.invocationDispatch "realm1" 2 3 "com.proc" (hashOptions "b") 0))

/-- The store after `k` refused calls. -/
structure Spun (k : Nat) (st : RouterStateStore) : Prop where
  realm : st.realms.get? "realm1" = leasedStore.realms.get? "realm1"
  current : st.ids.invocation.current = k + 1
  bounds : st.ids.invocation.min = 1 ∧ st.ids.invocation.max = 0x1FFFFFFFFFFFFF
  leases : st.retryThrottleLeases = leasedStore.retryThrottleLeases
  keys : st.retryThrottleKeysByInvocation = leasedStore.retryThrottleKeysByInvocation
  held : st.pendingRetryDebounces = leasedStore.pendingRetryDebounces

/-- Where the calls of session 2 go in the realm of the leased store. -/
theorem leasedStore_callable : ∃ realm entry callee caller session,
    leasedStore.realms.get? "realm1" = some realm ∧
      Callable realm "com.proc" 0 entry callee caller session ∧ entry.registrationId = 1 ∧
      retryDeduplicationForEntry entry = .ok (some ⟨none, 1024, 300000⟩) ∧
      realm.findInvocationByCaller 2 2 = none ∧ realm.findInvocationByCaller 2 3 = none :=
  ⟨_, _, _, _, _, rfl, ⟨rfl, rfl, rfl, rfl, rfl, rfl⟩, rfl, rfl, rfl, rfl⟩

/-- A refused call draws the next id and changes nothing else that matters. -/
theorem Spun.again {k : Nat} {st : RouterStateStore} (h : Spun k st)
    (hk : k + 1 < 0x1FFFFFFFFFFFFF) : Spun (k + 1) (st.step refusedCall) := by
  obtain ⟨realm, entry, callee, caller, session, hr, hcallable, -, -, hfree, -⟩ :=
    leasedStore_callable
  have hrealm := h.realm.trans hr
  have hstep := hcallable.refused hrealm hfree
    (LinkedMap.empty.insert "timeout" (.int (-1))) rfl rfl {} 0
  have hstep' : st.step refusedCall = _ := hstep
  rw [hstep']
  have hnext : st.ids.invocation.nextId = k + 1 + 1 := by
    rw [WampIdGenerator.nextId_of_not_exhausted, h.current]
    rw [WampIdGenerator.Exhausted, h.current, h.bounds.2]
    omega
  refine ⟨?_, hnext, h.bounds, h.leases, h.keys, h.held⟩
  rw [send_realms, get?_setRealm, if_pos rfl, hr]

/-- After the last id, the second lease takes the id of the first one. -/
theorem Spun.overtaken {st : RouterStateStore} (h : Spun 0x1FFFFFFFFFFFFE st) :
    ¬ (st.step secondCall).LeasesSound := by
  obtain ⟨realm, entry, callee, caller, session, hr, hcallable, hid, hpolicy, -, hfree⟩ :=
    leasedStore_callable
  have hnext : st.ids.invocation.nextId = 1 := by
    rw [WampIdGenerator.nextId_of_exhausted, h.bounds.1]
    rw [WampIdGenerator.Exhausted, h.current, h.bounds.2]
  have hreap : st.reapExpiredRetryThrottleLeases 0 = st := by
    rw [reapExpiredRetryThrottleLeases, h.leases]
    rfl
  have hlease : st.retryThrottleLeases.contains ⟨"realm1", entry.registrationId, "b"⟩ = false := by
    rw [h.leases, hid]
    rfl
  have hroom : st.ensureRetryDeduplicationCapacity entry ⟨none, 1024, 300000⟩ = (st, .ok ()) := by
    simp only [ensureRetryDeduplicationCapacity, h.leases, h.held, hid]
    exact if_neg (by decide +kernel)
  obtain ⟨hl, hk⟩ := hcallable.throttled (h.realm.trans hr) hfree (hashOptions "b") rfl
    rfl hpolicy rfl {} hreap hlease hroom 0
  intro hsound
  -- the lease under `a` still names the invocation 1, which leads to `b` now
  have hfirst : (st.step secondCall).retryThrottleLeases.get? ⟨"realm1", 1, "a"⟩ =
      some { invocationId := 1, expiresAt := 300000 } := by
    have hl' : (st.step secondCall).retryThrottleLeases = _ := hl
    rw [hl', hid, h.leases, LinkedMap.get?_insert_of_ne _ _ (by decide)]
    rfl
  have hback := (hsound.inverse ⟨"realm1", 1, "a"⟩ 1).mpr ⟨_, hfirst, rfl⟩
  have hk' : (st.step secondCall).retryThrottleKeysByInvocation = _ := hk
  rw [hk', hnext, LinkedMap.get?_insert_self, hid] at hback
  exact absurd hback (by decide)

/-- The tables do not survive the generator's return to an invocation that is still pending. -/
theorem leases_unsound_when_ids_return :
    ¬ ∀ (configs : List String) (inputs : List (StoreEnv × StoreInput)) (st : RouterStateStore),
      Run step Legal { realmConfigs := configs } inputs st → st.LeasesSound := by
  intro hall
  have hfresh : ∀ (st : RouterStateStore) (id : Nat),
      ((st.realms.get? "realm1").bind (·.sessions.get? id)).isNone = true →
      st.FreshSession "realm1" id := by
    intro st id h realm hr
    rw [hr] at h
    exact Option.isNone_iff_eq_none.mp h
  have hleased : Run step Legal { realmConfigs := ["realm1"] } leasedInputs leasedStore :=
    .cons (hfresh _ _ rfl) (.cons trivial (.cons (hfresh _ _ rfl) (.cons trivial (.nil _))))
  have hstart : Spun 0 leasedStore := ⟨rfl, rfl, ⟨rfl, rfl⟩, rfl, rfl, rfl⟩
  have hspin : ∀ k st, k < 0x1FFFFFFFFFFFFE → Spun k st →
      st.Legal refusedCall ∧ Spun (k + 1) (st.step refusedCall) :=
    fun k st hk h => ⟨trivial, h.again (by omega)⟩
  obtain ⟨st, hmany, hlast⟩ := Run.replicate hspin hstart
  have hrun := (hleased.append hmany).snoc (i := secondCall) trivial
  exact hlast.overtaken (hall _ _ _ hrun)

end RouterStateStore

end Connectanum
