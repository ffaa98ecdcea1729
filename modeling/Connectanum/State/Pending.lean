import Connectanum.State.Gentle
import Connectanum.State.Tables

/-!
# State — Pending invocations

The pending invocations of all realms, their timers and the throttle leases, seen through
`getInvocation`.

* `Dispatched`: the three things a dispatch can do to them;
* `Invocations`: ids are own keys and not reused, timers and leases belong to pending
  invocations, and the two lease tables are inverse to each other;
* `Invocations.step`: every input keeps `Invocations`, as long as no id generator has come round.
-/

namespace Connectanum

open Collections Machine

namespace RouterStateStore

/-! ### Reading through the updates -/

theorem getInvocation_congr {st st' : RouterStateStore} (h : st'.realms = st.realms) (u : String)
    (id : Nat) : st'.getInvocation u id = st.getInvocation u id := by
  rw [getInvocation, getInvocation, h]

theorem getInvocation_some {st : RouterStateStore} {u : String} {id : Nat}
    {i : PendingInvocation} :
    st.getInvocation u id = some i ↔
      ∃ realm, st.realms.get? u = some realm ∧ realm.invocations.get? id = some i := by
  simp [getInvocation, Option.bind_eq_some_iff]

/-- One realm's record was replaced by one with the given invocations. -/
theorem getInvocation_setRealm (st : RouterStateStore) (uri u : String) (r : RealmRecord)
    (id : Nat) :
    (st.setRealm uri r).getInvocation u id =
      if u = uri then r.invocations.get? id else st.getInvocation u id := by
  rw [getInvocation, get?_setRealm]
  by_cases e : u = uri
  · rw [if_pos e, if_pos e]
    rfl
  · rw [if_neg e, if_neg e]
    rfl

/-- An update that keeps the invocations of the realm. -/
theorem getInvocation_setRealm_same {st : RouterStateStore} {uri : String} {realm r : RealmRecord}
    (hr : st.realms.get? uri = some realm) (hi : r.invocations = realm.invocations) (u : String)
    (id : Nat) : (st.setRealm uri r).getInvocation u id = st.getInvocation u id := by
  rw [getInvocation_setRealm]
  by_cases e : u = uri
  · rw [if_pos e, hi, e, getInvocation, hr]
    rfl
  · rw [if_neg e]

/-- A pending invocation's record was written over. -/
theorem getInvocation_put {st : RouterStateStore} {uri : String} {id : Nat}
    {i : PendingInvocation} (hi : st.getInvocation uri id = some i) (i' : PendingInvocation)
    (u : String) (j : Nat) :
    (st.modifyRealm uri fun r => { r with
      invocations := r.invocations.insert id i' }).getInvocation u j =
      if u = uri ∧ j = id then some i' else st.getInvocation u j := by
  obtain ⟨realm, hr, _⟩ := getInvocation_some.mp hi
  rw [getInvocation, get?_modifyRealm, getInvocation]
  by_cases e : u = uri
  · subst e
    simp [hr, LinkedMap.get?_insert]
  · simp [e]

theorem getInvocation_removeInvocation (st : RouterStateStore) (uri u : String) (id i : Nat) :
    (st.removeInvocation uri id).getInvocation u i =
      if u = uri ∧ i = id then none else st.getInvocation u i := by
  rw [getInvocation, removeInvocation, get?_modifyRealm]
  by_cases e : u = uri
  · subst e
    rw [if_pos rfl, getInvocation]
    cases st.realms.get? u with
    | none => simp
    | some realm => simp [LinkedMap.get?_erase]
  · simp [e, getInvocation]

theorem getInvocation_bumpAndNotify (st : RouterStateStore) (uri u : String) (id : Nat) :
    (st.bumpAndNotify uri).getInvocation u id = st.getInvocation u id := by
  rw [getInvocation, get?_bumpAndNotify, getInvocation]
  by_cases e : u = uri
  · subst e
    rw [if_pos rfl]
    cases st.realms.get? u <;> rfl
  · rw [if_neg e]

/-- A new realm has no invocations. -/
theorem getInvocation_create {st : RouterStateStore} {uri : String}
    (hn : st.realms.get? uri = none) (u : String) (id : Nat) :
    (st.setRealm uri { realmUri := uri }).getInvocation u id = st.getInvocation u id := by
  rw [getInvocation_setRealm]
  by_cases e : u = uri
  · rw [if_pos e, e, getInvocation, hn]
    rfl
  · rw [if_neg e]

theorem getInvocation_getOrCreateRealm {st st' : RouterStateStore} {uri : String}
    {realm : RealmRecord} (hg : st.getOrCreateRealm uri = .ok (st', realm)) (u : String)
    (id : Nat) : st'.getInvocation u id = st.getInvocation u id := by
  rcases getOrCreateRealm_ok hg with ⟨rfl, _⟩ | ⟨hn, rfl, rfl⟩
  · rfl
  · exact getInvocation_create hn u id

section

variable {st st' st₁ : RouterStateStore} {uri : String} {realm r : RealmRecord}
  (hg : st.getOrCreateRealm uri = .ok (st', realm)) (hs : st₁.realms = st'.realms)
include hg hs

/-- The realm's record was put back with the invocations it had. -/
theorem getInvocation_kept (hr : r.invocations = realm.invocations) (u : String) (id : Nat) :
    (st₁.setRealm uri r).getInvocation u id = st.getInvocation u id := by
  have hrealm : st₁.realms.get? uri = some realm := by
    rw [hs]
    exact getOrCreateRealm_get hg
  exact (getInvocation_setRealm_same hrealm hr u id).trans
    ((getInvocation_congr hs u id).trans (getInvocation_getOrCreateRealm hg u id))

/-- It was put back with one more, or with one of them written over. -/
theorem getInvocation_inserted {k : Nat} {i : PendingInvocation}
    (hr : r.invocations = realm.invocations.insert k i) (u : String) (id : Nat) :
    (st₁.setRealm uri r).getInvocation u id =
      if u = uri ∧ id = k then some i else st.getInvocation u id := by
  have hrealm := getOrCreateRealm_get hg
  rw [getInvocation_setRealm, ← getInvocation_getOrCreateRealm hg, getInvocation_congr hs]
  by_cases e : u = uri
  · simp [e, hr, LinkedMap.get?_insert, getInvocation, hrealm]
  · simp [e]

end

/-! ### What a dispatch does -/

/-- The deduplication tables, which a dispatch itself never touches. -/
def SameLeases (st st' : RouterStateStore) : Prop :=
  st'.retryThrottleLeases = st.retryThrottleLeases ∧
    st'.retryThrottleKeysByInvocation = st.retryThrottleKeysByInvocation ∧
    st'.pendingRetryDebounces = st.pendingRetryDebounces

/-- The effect of `_dispatchInvocation` on the pending invocations. -/
inductive Dispatched (st : RouterStateStore) (uri : String) (caller request : Nat) :
    RouterStateStore → Except StoreError InvocationDispatchResult → Prop where
  /-- It failed and changed none; an id may have been drawn. -/
  | refused {st' : RouterStateStore} {e : StoreError}
      (same : ∀ u i, st'.getInvocation u i = st.getInvocation u i)
      (timeouts : st'.invocationTimeouts = st.invocationTimeouts)
      (ids : st'.ids.invocation = st.ids.invocation ∨
        st'.ids.invocation = st.ids.invocation.next) :
      Dispatched st uri caller request st' (.error e)
  /-- A further chunk: the record stays under its id, open or not for more. -/
  | continued {st' : RouterStateStore} {result : Except StoreError InvocationDispatchResult}
      {existing : PendingInvocation} {progress : Bool}
      (found : st.findInvocationByCaller uri caller request = some existing)
      (pending : ∀ u i, st'.getInvocation u i =
        if u = uri ∧ i = existing.invocationId then
          some { existing with progressiveInvocationOpen := progress }
        else st.getInvocation u i)
      (timeouts : st'.invocationTimeouts = st.invocationTimeouts)
      (ids : st'.ids.invocation = st.ids.invocation)
      (answer : ∀ d, result = .ok d → d.invocationId = existing.invocationId) :
      Dispatched st uri caller request st' result
  /-- A new invocation under the next id. -/
  | added {st' : RouterStateStore} {record : PendingInvocation} {d : InvocationDispatchResult}
      (absent : st.findInvocationByCaller uri caller request = none)
      (own : record.invocationId = st.ids.invocation.nextId)
      (callerIs : record.callerSessionId = caller ∧ record.callerRequestId = request)
      (plain : record.cancelRequested = false)
      (pending : ∀ u i, st'.getInvocation u i =
        if u = uri ∧ i = record.invocationId then some record else st.getInvocation u i)
      (timeouts : st'.invocationTimeouts = st.invocationTimeouts ∨
        ∃ t, st'.invocationTimeouts =
          (st.invocationTimeouts.erase (uri, record.invocationId)).insert
            (uri, record.invocationId) t)
      (ids : st'.ids.invocation = st.ids.invocation.next)
      (answer : d = dispatchResult record d.calleeConnectionId d.progress)
      (callee : d.calleeSessionId = record.calleeSessionId) :
      Dispatched st uri caller request st' (.ok d)

theorem scheduleInvocationTimeout_cases (st : RouterStateStore) (uri : String)
    (i : PendingInvocation) :
    (st.scheduleInvocationTimeout uri i).invocationTimeouts = st.invocationTimeouts ∨
      ∃ t, (st.scheduleInvocationTimeout uri i).invocationTimeouts =
        (st.invocationTimeouts.erase (uri, i.invocationId)).insert (uri, i.invocationId) t := by
  unfold scheduleInvocationTimeout
  split
  · exact .inl rfl
  · split
    · exact .inl rfl
    · exact .inr ⟨_, rfl⟩

theorem scheduleInvocationTimeout_sameLeases (st : RouterStateStore) (uri : String)
    (i : PendingInvocation) : SameLeases st (st.scheduleInvocationTimeout uri i) := by
  unfold scheduleInvocationTimeout
  split
  · exact ⟨rfl, rfl, rfl⟩
  · split <;> exact ⟨rfl, rfl, rfl⟩

theorem findInvocationByCaller_getOrCreateRealm {st st' : RouterStateStore} {uri : String}
    {realm : RealmRecord} (hg : st.getOrCreateRealm uri = .ok (st', realm))
    (caller request : Nat) :
    st.findInvocationByCaller uri caller request =
      realm.findInvocationByCaller caller request := by
  rcases getOrCreateRealm_ok hg with ⟨_, hr⟩ | ⟨hn, rfl, _⟩
  · simp [findInvocationByCaller, hr]
  · simp only [findInvocationByCaller, hn]
    rfl

/-- **The specification of a dispatch.** -/
theorem dispatchInvocation_spec (env : StoreEnv) (st : RouterStateStore) (uri : String)
    (caller request : Nat) (procedure : String) (options : Dict) :
    Dispatched st uri caller request
        (st.dispatchInvocation env uri caller request procedure options).1
        (st.dispatchInvocation env uri caller request procedure options).2 ∧
      SameLeases st (st.dispatchInvocation env uri caller request procedure options).1 := by
  have hasked : ∀ st', Asked st uri st' → (∀ u i, st'.getInvocation u i = st.getInvocation u i) ∧
      st'.invocationTimeouts = st.invocationTimeouts ∧ SameLeases st st' := by
    rintro st' (rfl | ⟨realm, hg⟩)
    · exact ⟨fun _ _ => rfl, rfl, rfl, rfl, rfl⟩
    · refine ⟨getInvocation_getOrCreateRealm hg, ?_⟩
      rcases getOrCreateRealm_ok hg with ⟨rfl, _⟩ | ⟨_, _, rfl⟩ <;> exact ⟨rfl, rfl, rfl, rfl⟩
  refine dispatchInvocation_elim ?_ ?_ ?_ ?_
  · intro st' e ha
    obtain ⟨hsame, htimes, hleases⟩ := hasked st' ha
    exact ⟨.refused hsame htimes (.inl (by rw [ha.ids])), hleases⟩
  · intro st' realm session i result hg _ hfound _ _ _ hanswer
    obtain ⟨-, htimes, hleases⟩ := hasked st' (.inr ⟨realm, hg⟩)
    have hfind := findInvocationByCaller_getOrCreateRealm hg caller request
    exact ⟨.continued (hfind.trans hfound) (getInvocation_inserted hg rfl rfl) htimes
      (by rw [setRealm_ids, getOrCreateRealm_ids hg]) hanswer, hleases⟩
  · intro st' st₁ realm _ ref entry _ hg _ _ _ _ hst₁
    obtain ⟨-, htimes, hleases⟩ := hasked st' (.inr ⟨realm, hg⟩)
    have hids := getOrCreateRealm_ids hg
    rcases hst₁ with rfl | rfl
    · exact ⟨.refused (getInvocation_kept hg rfl rfl) htimes (.inl (by rw [setRealm_ids, hids])),
        hleases⟩
    · exact ⟨.refused (getInvocation_kept hg rfl rfl) htimes (.inr (by rw [← hids]; rfl)), hleases⟩
  · intro st' realm session ref entry callee timeout calleeSession hg _ hnone _ i
    obtain ⟨-, htimes, hleases⟩ := hasked st' (.inr ⟨realm, hg⟩)
    have hfind := findInvocationByCaller_getOrCreateRealm hg caller request
    have hids := getOrCreateRealm_ids hg
    refine ⟨.added (hfind.trans hnone) (by rw [← hids]; rfl) ⟨rfl, rfl⟩ rfl (fun u id => ?_) ?_ ?_
      rfl rfl, ?_⟩
    · exact (getInvocation_congr (scheduleInvocationTimeout_realms _ uri _) u id).trans
        (getInvocation_inserted hg rfl rfl u id)
    · rw [← htimes]
      exact scheduleInvocationTimeout_cases _ uri _
    · rw [countDispatch, scheduleInvocationTimeout_ids, ← hids]
      rfl
    · obtain ⟨h₁, h₂, h₃⟩ := scheduleInvocationTimeout_sameLeases
        (st'.drawInvocationId.setRealm uri _) uri i
      exact ⟨h₁.trans hleases.1, h₂.trans hleases.2.1, h₃.trans hleases.2.2⟩

/-! ### The invariant -/

/-- A pending record is under its own id. -/
def OwnKeys (st : RouterStateStore) : Prop :=
  ∀ u id i, st.getInvocation u id = some i → i.invocationId = id

/-- Pending invocations, their timers and the throttle leases fit together. -/
structure Invocations (st : RouterStateStore) : Prop where
  /-- A record is under its own id, which was drawn. -/
  own_key : ∀ u id i, st.getInvocation u id = some i →
    i.invocationId = id ∧ id ≤ st.ids.invocation.current
  /-- An id is pending in one realm at most. -/
  one_realm : ∀ u u' id i i', st.getInvocation u id = some i → st.getInvocation u' id = some i' →
    u = u'
  /-- A timer runs for a pending invocation. -/
  timer_pending : ∀ u id t, st.invocationTimeouts.get? (u, id) = some t →
    ∃ i, st.getInvocation u id = some i
  /-- A lease is found again through its invocation. -/
  lease_key : ∀ key lease, st.retryThrottleLeases.get? key = some lease →
    st.retryThrottleKeysByInvocation.get? lease.invocationId = some key
  /-- The table by invocation leads to leases. -/
  key_lease : ∀ id key, st.retryThrottleKeysByInvocation.get? id = some key →
    ∃ lease, st.retryThrottleLeases.get? key = some lease ∧ lease.invocationId = id
  /-- A lease is held by a pending invocation of its realm. -/
  lease_pending : ∀ id key, st.retryThrottleKeysByInvocation.get? id = some key →
    ∃ i, st.getInvocation key.realmUri id = some i

namespace Invocations

variable {st st' : RouterStateStore}

theorem ownKeys (h : st.Invocations) : st.OwnKeys :=
  fun u id i hi => (h.own_key u id i hi).1

/-- What is found after an erasure was there before. -/
theorem get?_of_erase {κ ν : Type} [DecidableEq κ] (m : LinkedMap κ ν) (k k' : κ) (v : ν)
    (h : (m.erase k).get? k' = some v) : ∃ v, m.get? k' = some v := by
  rw [LinkedMap.get?_erase] at h
  split at h
  · cases h
  · exact ⟨v, h⟩

theorem initial (configs : List String) : Invocations { realmConfigs := configs } := by
  refine ⟨?_, ?_, ?_, ?_, ?_, ?_⟩ <;> intros <;> contradiction

/-- Nothing that the invariant reads has changed, except that ids may have been drawn and timers
may have stopped. -/
theorem of_same (h : st.Invocations) (hp : ∀ u i, st'.getInvocation u i = st.getInvocation u i)
    (hc : st.ids.invocation.current ≤ st'.ids.invocation.current)
    (ht : ∀ k t, st'.invocationTimeouts.get? k = some t → ∃ t, st.invocationTimeouts.get? k = some t)
    (hl : st'.retryThrottleLeases = st.retryThrottleLeases)
    (hk : st'.retryThrottleKeysByInvocation = st.retryThrottleKeysByInvocation) :
    st'.Invocations := by
  refine ⟨fun u id i hi => ?_, fun u u' id i i' hi hi' => ?_, fun u id t hti => ?_, ?_, ?_, ?_⟩
  · rw [hp] at hi
    exact ⟨(h.own_key u id i hi).1, (h.own_key u id i hi).2.trans hc⟩
  · rw [hp] at hi hi'
    exact h.one_realm u u' id i i' hi hi'
  · obtain ⟨t', ht'⟩ := ht _ t hti
    rw [hp]
    exact h.timer_pending u id t' ht'
  · rw [hl, hk]
    exact h.lease_key
  · rw [hl, hk]
    exact h.key_lease
  · rw [hk]
    simp only [hp]
    exact h.lease_pending

theorem of_frame (h : st.Invocations) (hp : ∀ u i, st'.getInvocation u i = st.getInvocation u i)
    (hi : st'.ids = st.ids) (ht : st'.invocationTimeouts = st.invocationTimeouts)
    (hl : st'.retryThrottleLeases = st.retryThrottleLeases)
    (hk : st'.retryThrottleKeysByInvocation = st.retryThrottleKeysByInvocation) :
    st'.Invocations :=
  h.of_same hp (by rw [hi]) (fun k t hti => ⟨t, by rw [← ht]; exact hti⟩) hl hk

/-- A record was written over, under the same id. -/
theorem of_update (h : st.Invocations) {uri : String} {id : Nat} {record : PendingInvocation}
    (hold : ∃ i, st.getInvocation uri id = some i) (hid : record.invocationId = id)
    (hp : ∀ u i, st'.getInvocation u i =
      if u = uri ∧ i = id then some record else st.getInvocation u i)
    (hc : st.ids.invocation.current ≤ st'.ids.invocation.current)
    (ht : ∀ k t, st'.invocationTimeouts.get? k = some t → ∃ t, st.invocationTimeouts.get? k = some t)
    (hl : st'.retryThrottleLeases = st.retryThrottleLeases)
    (hk : st'.retryThrottleKeysByInvocation = st.retryThrottleKeysByInvocation) :
    st'.Invocations := by
  obtain ⟨i₀, hi₀⟩ := hold
  -- pending before and after are the same ids
  have hsome : ∀ u i, (∃ r, st'.getInvocation u i = some r) ↔ ∃ r, st.getInvocation u i = some r := by
    intro u i
    rw [hp]
    by_cases e : u = uri ∧ i = id
    · rw [if_pos e, e.1, e.2, hi₀]
      simp
    · rw [if_neg e]
  refine ⟨fun u i r hr => ?_, fun u u' i r r' hr hr' => ?_, fun u i t hti => ?_, ?_, ?_,
    fun i key hkey => ?_⟩
  · rw [hp] at hr
    split at hr
    · next e =>
      obtain rfl := Option.some.inj hr
      exact ⟨by rw [hid, e.2], by rw [e.2]; exact (h.own_key uri id i₀ hi₀).2.trans hc⟩
    · exact ⟨(h.own_key u i r hr).1, (h.own_key u i r hr).2.trans hc⟩
  · obtain ⟨r₁, h₁⟩ := (hsome u i).mp ⟨r, hr⟩
    obtain ⟨r₂, h₂⟩ := (hsome u' i).mp ⟨r', hr'⟩
    exact h.one_realm u u' i r₁ r₂ h₁ h₂
  · obtain ⟨t', ht'⟩ := ht _ t hti
    exact (hsome u i).mpr (h.timer_pending u i t' ht')
  · rw [hl, hk]
    exact h.lease_key
  · rw [hl, hk]
    exact h.key_lease
  · rw [hk] at hkey
    exact (hsome _ _).mpr (h.lease_pending i key hkey)

/-- A timer of a pending invocation is started, or started again. -/
theorem schedule (h : st.Invocations) {uri : String} {id : Nat} {i : PendingInvocation}
    (hi : st.getInvocation uri id = some i) :
    (st.scheduleInvocationTimeout uri i).Invocations := by
  have hid := (h.own_key uri id i hi).1
  have hreal := scheduleInvocationTimeout_realms st uri i
  obtain ⟨hl, hk, -⟩ := scheduleInvocationTimeout_sameLeases st uri i
  refine ⟨fun u j r hr => ?_, fun u u' j r r' hr hr' => ?_, fun u j t hti => ?_, ?_, ?_, ?_⟩
  · rw [getInvocation_congr hreal] at hr
    rw [scheduleInvocationTimeout_ids]
    exact h.own_key u j r hr
  · rw [getInvocation_congr hreal] at hr hr'
    exact h.one_realm u u' j r r' hr hr'
  · rw [getInvocation_congr hreal]
    rcases scheduleInvocationTimeout_cases st uri i with hsame | ⟨t', hset⟩
    · rw [hsame] at hti
      exact h.timer_pending u j t hti
    · rw [hset, LinkedMap.get?_insert] at hti
      split at hti
      · next e =>
        obtain ⟨rfl, rfl⟩ := Prod.mk.inj e
        exact ⟨i, by rw [hid]; exact hi⟩
      · obtain ⟨t, ht⟩ := get?_of_erase _ _ _ _ hti
        exact h.timer_pending u j t ht
  · rw [hl, hk]
    exact h.lease_key
  · rw [hl, hk]
    exact h.key_lease
  · rw [hk]
    simp only [getInvocation_congr hreal]
    exact h.lease_pending

/-- An invocation is over: its record, its timer and its lease are gone. -/
theorem finish (h : st.Invocations) (uri : String) (id : Nat) :
    (((st.cancelInvocationTimeout uri id).removeInvocation uri id).releaseRetryThrottleLease
      id).Invocations := by
  let s₁ := (st.cancelInvocationTimeout uri id).removeInvocation uri id
  have hp : ∀ u i, (s₁.releaseRetryThrottleLease id).getInvocation u i =
      if u = uri ∧ i = id then none else st.getInvocation u i := fun u i =>
    (getInvocation_congr (releaseRetryThrottleLease_realms s₁ id) u i).trans
      (getInvocation_removeInvocation _ uri u id i)
  have hc : (s₁.releaseRetryThrottleLease id).ids = st.ids := by
    rw [releaseRetryThrottleLease_ids, removeInvocation_ids]
    rfl
  have ht : ∀ k, (s₁.releaseRetryThrottleLease id).invocationTimeouts.get? k =
      if k = (uri, id) then none else st.invocationTimeouts.get? k := fun k => by
    rw [releaseRetryThrottleLease_timeouts]
    exact (congrArg (·.get? k) (modifyRealm_timeouts (st.cancelInvocationTimeout uri id) uri
      _)).trans (st.invocationTimeouts.get?_erase (uri, id) k)
  have hl₁ : s₁.retryThrottleLeases = st.retryThrottleLeases := modifyRealm_leases _ uri _
  have hk₁ : s₁.retryThrottleKeysByInvocation = st.retryThrottleKeysByInvocation :=
    modifyRealm_keys _ uri _
  -- the two lease tables lose the lease of `id`, if it has one
  have hkeys : ∀ i, (s₁.releaseRetryThrottleLease id).retryThrottleKeysByInvocation.get? i =
      if i = id then none else st.retryThrottleKeysByInvocation.get? i := by
    intro i
    unfold releaseRetryThrottleLease
    rw [hk₁]
    cases hk : st.retryThrottleKeysByInvocation.get? id with
    | none =>
        by_cases e : i = id
        · rw [if_pos e, e]
          exact (congrArg (·.get? id) hk₁).trans hk
        · rw [if_neg e]
          exact congrArg (·.get? i) hk₁
    | some key => exact st.retryThrottleKeysByInvocation.get?_erase id i
  have hleases : ∀ k, (s₁.releaseRetryThrottleLease id).retryThrottleLeases.get? k =
      if st.retryThrottleKeysByInvocation.get? id = some k then none
      else st.retryThrottleLeases.get? k := by
    intro k
    unfold releaseRetryThrottleLease
    rw [hk₁]
    cases hk : st.retryThrottleKeysByInvocation.get? id with
    | none => exact congrArg (·.get? k) hl₁
    | some key =>
        dsimp only
        rw [hl₁, LinkedMap.get?_erase]
        by_cases e : k = key
        · simp [e]
        · rw [if_neg e, if_neg (fun hh => e (Option.some.inj hh).symm)]
  refine ⟨fun u i r hr => ?_, fun u u' i r r' hr hr' => ?_, fun u i t hti => ?_,
    fun key lease hlk => ?_, fun i key hik => ?_, fun i key hik => ?_⟩
  · rw [hp] at hr
    split at hr
    · cases hr
    · rw [hc]
      exact h.own_key u i r hr
  · rw [hp] at hr hr'
    split at hr
    · cases hr
    · split at hr'
      · cases hr'
      · exact h.one_realm u u' i r r' hr hr'
  · rw [ht] at hti
    split at hti
    · cases hti
    · next hne =>
      rw [hp, if_neg (fun e => hne (by rw [e.1, e.2]))]
      exact h.timer_pending u i t hti
  · rw [hleases] at hlk
    split at hlk
    · cases hlk
    · next hne =>
      have := h.lease_key key lease hlk
      rw [hkeys, if_neg, this]
      intro e
      rw [e] at this
      exact hne this
  · rw [hkeys] at hik
    split at hik
    · cases hik
    · next hne =>
      obtain ⟨lease, hlease, hid⟩ := h.key_lease i key hik
      refine ⟨lease, ?_, hid⟩
      rw [hleases, if_neg, hlease]
      intro hk
      obtain ⟨lease', hlease', hid'⟩ := h.key_lease id key hk
      obtain rfl := Option.some.inj (hlease.symm.trans hlease')
      exact hne (hid.symm.trans hid')
  · rw [hkeys] at hik
    split at hik
    · cases hik
    · next hne =>
      rw [hp, if_neg (fun e => hne e.2)]
      exact h.lease_pending i key hik

/-- A lease expires or is cleared while its invocation goes on. -/
theorem dropLease (h : st.Invocations) (key : RetryDeduplicationKey) :
    (st.dropLease key).Invocations := by
  cases hlk : st.retryThrottleLeases.get? key with
  | none =>
      have hkeep : st.dropLease key = st := by rw [RouterStateStore.dropLease, hlk]
      rw [hkeep]
      exact h
  | some lease =>
      have he : st.dropLease key = { st with
          retryThrottleLeases := st.retryThrottleLeases.erase key
          retryThrottleKeysByInvocation :=
            st.retryThrottleKeysByInvocation.erase lease.invocationId } := by
        rw [RouterStateStore.dropLease, hlk]
      rw [he]
      have hback := h.lease_key key lease hlk
      refine ⟨h.own_key, h.one_realm, h.timer_pending, fun k l hl => ?_, fun i k hk => ?_,
        fun i k hk => ?_⟩
      · rw [LinkedMap.get?_erase] at hl
        split at hl
        · cases hl
        · next hne =>
          have hkl := h.lease_key k l hl
          rw [LinkedMap.get?_erase, if_neg, hkl]
          intro e
          rw [e, hback] at hkl
          exact hne (Option.some.inj hkl).symm
      · rw [LinkedMap.get?_erase] at hk
        split at hk
        · cases hk
        · next hne =>
          obtain ⟨l, hl, hi⟩ := h.key_lease i k hk
          refine ⟨l, ?_, hi⟩
          rw [LinkedMap.get?_erase, if_neg, hl]
          rintro rfl
          obtain rfl := Option.some.inj (hl.symm.trans hlk)
          exact hne hi.symm
      · rw [LinkedMap.get?_erase] at hk
        split at hk
        · cases hk
        · exact h.lease_pending i k hk

/-- What leaves the invocations alone keeps the invariant. -/
theorem gentle : Gentle fun st st' => st.Invocations → st'.Invocations where
  refl := fun _ h => h
  trans := fun h₁ h₂ h => h₂ (h₁ h)
  realm := fun hr hs h =>
    h.of_frame (getInvocation_setRealm_same hr hs.invocations) rfl rfl rfl rfl
  create := fun hn h => h.of_frame (getInvocation_create hn) rfl rfl rfl rfl
  output := fun _ _ h => h.of_frame (fun _ _ => rfl) rfl rfl rfl rfl
  ids := fun _ ids hi h => h.of_same (fun _ _ => rfl) (Nat.le_of_eq (by rw [← hi]))
    (fun _ t ht => ⟨t, ht⟩) rfl rfl
  counters := fun _ _ h => h.of_frame (fun _ _ => rfl) rfl rfl rfl rfl
  dropLease := fun _ key h => h.dropLease key
  dropDebounce := fun e st key h =>
    h.of_frame (getInvocation_congr (dropDebounce_realms st e key)) (dropDebounce_ids st e key)
      (dropDebounce_timeouts st e key) (dropDebounce_leases st e key) (dropDebounce_keys st e key)

theorem emit (h : st.Invocations) (o : StoreOutput) : (st.emit o).Invocations :=
  gentle.output st o h

theorem bumpAndNotify (h : st.Invocations) (uri : String) : (st.bumpAndNotify uri).Invocations :=
  gentle.looking.bumpAndNotify st uri h

theorem getOrCreateRealm (h : st.Invocations) {uri : String} {realm : RealmRecord}
    (hg : st.getOrCreateRealm uri = .ok (st', realm)) : st'.Invocations :=
  (gentle.looking.getOrCreateRealm hg).1 h

/-- A realm's record was replaced by one with the same invocations. -/
theorem setRealm_same (h : st.Invocations) {uri : String} {realm : RealmRecord}
    (hr : st.realms.get? uri = some realm) (r : RealmRecord)
    (hi : r.invocations = realm.invocations) : (st.setRealm uri r).Invocations :=
  h.of_frame (getInvocation_setRealm_same hr hi) rfl rfl rfl rfl

/-- A dispatch keeps the invariant. -/
theorem dispatched (h : st.Invocations) (hx : ¬ st.ids.invocation.Exhausted) {uri : String}
    {caller request : Nat} {result : Except StoreError InvocationDispatchResult}
    (hd : Dispatched st uri caller request st' result) (hs : SameLeases st st') :
    st'.Invocations := by
  have hnext := WampIdGenerator.nextId_of_not_exhausted hx
  cases hd with
  | refused same timeouts ids =>
      refine h.of_same same ?_ (fun k t hti => ⟨t, by rw [← timeouts]; exact hti⟩) hs.1 hs.2.1
      rcases ids with e | e
      · rw [e]
      · rw [e, WampIdGenerator.next_current, hnext]
        exact Nat.le_succ _
  | @continued _ existing progress found pending timeouts ids _ =>
      obtain ⟨realm, hr, hfound⟩ := Option.bind_eq_some_iff.mp found
      obtain ⟨k, hk⟩ := LinkedMap.mem_values.mp (List.mem_of_find?_eq_some hfound)
      have hold : st.getInvocation uri k = some _ := getInvocation_some.mpr ⟨realm, hr, hk⟩
      rw [← (h.own_key uri k _ hold).1] at hold
      have hid : PendingInvocation.invocationId
          { existing with progressiveInvocationOpen := progress } = existing.invocationId := rfl
      exact h.of_update ⟨_, hold⟩ hid pending (by rw [ids])
        (fun k t hti => ⟨t, by rw [← timeouts]; exact hti⟩) hs.1 hs.2.1
  | @added record d _ own _ _ pending timeouts ids _ _ =>
      -- the new id is beyond every pending one
      have hnone : ∀ u i, st.getInvocation u record.invocationId ≠ some i := by
        intro u i hi
        have := (h.own_key u _ i hi).2
        rw [own, hnext] at this
        omega
      have hcur : st'.ids.invocation.current = record.invocationId := by
        rw [ids, own]
        rfl
      refine ⟨fun u i r hr => ?_, fun u u' i r r' hr hr' => ?_, fun u i t hti => ?_, ?_, ?_,
        fun i key hik => ?_⟩
      · rw [pending] at hr
        split at hr
        · next e =>
          obtain rfl := Option.some.inj hr
          exact ⟨e.2.symm, by rw [hcur, e.2]⟩
        · have hle := h.own_key u i r hr
          refine ⟨hle.1, ?_⟩
          rw [hcur, own, hnext]
          exact hle.2.trans (Nat.le_succ _)
      · rw [pending] at hr hr'
        split at hr
        · next e =>
          split at hr'
          · next e' => exact e.1.trans e'.1.symm
          · rw [e.2] at hr'
            exact absurd hr' (hnone u' r')
        · split at hr'
          · next e' =>
            rw [e'.2] at hr
            exact absurd hr (hnone u r)
          · exact h.one_realm u u' i r r' hr hr'
      · rw [pending]
        by_cases e : u = uri ∧ i = record.invocationId
        · exact ⟨record, if_pos e⟩
        · rw [if_neg e]
          rcases timeouts with hsame | ⟨t', hset⟩
          · rw [hsame] at hti
            exact h.timer_pending u i t hti
          · rw [hset, LinkedMap.get?_insert, LinkedMap.get?_erase] at hti
            have hne : (u, i) ≠ (uri, record.invocationId) := fun hh =>
              e ⟨congrArg Prod.fst hh, congrArg Prod.snd hh⟩
            rw [if_neg hne, if_neg hne] at hti
            exact h.timer_pending u i t hti
      · rw [hs.1, hs.2.1]
        exact h.lease_key
      · rw [hs.1, hs.2.1]
        exact h.key_lease
      · rw [hs.2.1] at hik
        obtain ⟨i', hi'⟩ := h.lease_pending i key hik
        rw [pending, if_neg, hi']
        · exact ⟨i', rfl⟩
        · rintro ⟨_, rfl⟩
          exact hnone _ _ hi'

/-! ### One lemma for each operation -/

theorem openSession (h : st.Invocations) (uri : String) (session : SessionRecord) :
    (st.openSession uri session).1.Invocations := by
  simp only [RouterStateStore.openSession]
  cases hg : st.getOrCreateRealm uri with
  | error e => exact h
  | ok found =>
      obtain ⟨st', realm⟩ := found
      have hput := (h.getOrCreateRealm hg).setRealm_same (getOrCreateRealm_get hg)
        { realm with sessions := realm.sessions.insert session.id session.opened } rfl
      exact (hput.bumpAndNotify uri).emit _

theorem removeInvocationsForSession (h : st.Invocations) (uri : String) (s : Nat) :
    (st.removeInvocationsForSession uri s).Invocations := by
  simp only [RouterStateStore.removeInvocationsForSession]
  split
  · exact h
  · exact gentle.looking.foldl st (fun _ id hs => hs.finish uri id) _ h

theorem closeSession (h : st.Invocations) (uri : String) (s : Nat) :
    (st.closeSession uri s).Invocations := by
  simp only [RouterStateStore.closeSession]
  split
  · exact h
  · have hcut : ((st.cancelPendingRetryDebouncesForCaller uri s).removeInvocationsForSession uri
        s).Invocations :=
      (gentle.looking.foldl st (gentle.dropDebounce _) _ h).removeInvocationsForSession uri s
    split
    · exact hcut
    · next session hs =>
      obtain ⟨realm, hr, _⟩ := Option.bind_eq_some_iff.mp hs
      have hgone : (((st.cancelPendingRetryDebouncesForCaller uri s).removeInvocationsForSession uri
          s).modifyRealm uri fun r => { r with sessions := r.sessions.erase s }).Invocations := by
        rw [RouterStateStore.modifyRealm, hr]
        exact hcut.setRealm_same hr _ rfl
      refine emit (bumpAndNotify ?_ uri) _
      refine gentle.looking.foldl _ (fun st id => gentle.unregisterProcedure st uri s id) _ ?_
      exact gentle.looking.foldl _ (fun st id => gentle.removeSubscription st uri s id) _ hgone

theorem dispatchInvocation (h : st.Invocations) (hx : ¬ st.ids.invocation.Exhausted)
    (env : StoreEnv) (uri : String) (caller request : Nat) (procedure : String) (options : Dict) :
    (st.dispatchInvocation env uri caller request procedure options).1.Invocations :=
  have hspec := dispatchInvocation_spec env st uri caller request procedure options
  h.dispatched hx hspec.1 hspec.2

/-- An invocation that was just added takes the lease of its transaction. -/
theorem takeLease (h : st.Invocations) {uri : String} {key : RetryDeduplicationKey} {id : Nat}
    (hu : key.realmUri = uri) (hp : ∃ i, st.getInvocation uri id = some i)
    (hfree : st.retryThrottleLeases.get? key = none)
    (hnew : st.retryThrottleKeysByInvocation.get? id = none) (expiresAt : Int) :
    Invocations { st with
      retryThrottleLeases := st.retryThrottleLeases.insert key
        { invocationId := id, expiresAt := expiresAt }
      retryThrottleKeysByInvocation := st.retryThrottleKeysByInvocation.insert id key } := by
  refine ⟨h.own_key, h.one_realm, h.timer_pending, fun k l hl => ?_, fun i k hk => ?_,
    fun i k hk => ?_⟩
  · rw [LinkedMap.get?_insert] at hl
    split at hl
    · next e =>
      obtain rfl := Option.some.inj hl
      rw [LinkedMap.get?_insert_self, e]
    · have hback := h.lease_key k l hl
      rw [LinkedMap.get?_insert, if_neg, hback]
      rintro e
      rw [e, hnew] at hback
      cases hback
  · rw [LinkedMap.get?_insert] at hk
    split at hk
    · next e =>
      obtain rfl := Option.some.inj hk
      exact ⟨_, LinkedMap.get?_insert_self _ _ _, e.symm⟩
    · obtain ⟨l, hl, hi⟩ := h.key_lease i k hk
      refine ⟨l, ?_, hi⟩
      rw [LinkedMap.get?_insert, if_neg, hl]
      rintro rfl
      rw [hfree] at hl
      cases hl
  · rw [LinkedMap.get?_insert] at hk
    split at hk
    · next e =>
      obtain rfl := Option.some.inj hk
      rw [e, hu]
      exact hp
    · exact h.lease_pending i k hk

/-- The lease table by invocation has no entry for an id that is not pending. -/
theorem no_lease (h : st.Invocations) {id : Nat} (hn : ∀ u, st.getInvocation u id = none) :
    st.retryThrottleKeysByInvocation.get? id = none := by
  cases hk : st.retryThrottleKeysByInvocation.get? id with
  | none => rfl
  | some key =>
      obtain ⟨i, hi⟩ := h.lease_pending id key hk
      rw [hn] at hi
      cases hi

theorem dispatchThrottled (h : st.Invocations) (hx : ¬ st.ids.invocation.Exhausted)
    (env : StoreEnv) {uri : String} {caller request : Nat}
    (hnone : st.findInvocationByCaller uri caller request = none) (procedure : String)
    (options : Dict) (port : SendPort) (entry : ProcedureEntry) (policy : RetryDeduplication)
    {key : RetryDeduplicationKey} (hu : key.realmUri = uri) :
    (st.dispatchThrottled env uri caller request procedure options port entry policy
      key).Invocations := by
  simp only [RouterStateStore.dispatchThrottled]
  split
  · exact h.of_frame (fun _ _ => rfl) rfl rfl rfl rfl
  · next hfree =>
    have hcap := gentle.looking.ensureCapacity st entry policy h
    have hids := ensureCapacity_ids st entry policy
    have hreal := ensureCapacity_realms st entry policy
    have hlease := ensureCapacity_leases st entry policy
    split
    · next st' e he =>
      rw [he] at hcap
      exact hcap.emit _
    · next st' he =>
      rw [he] at hcap hids hreal hlease
      dsimp only at hcap hids hreal hlease
      have hspec := dispatchInvocation_spec env st' uri caller request procedure options
      have hdone := hcap.dispatchInvocation (by rw [hids]; exact hx) env uri caller request
        procedure options
      split
      · next st'' e hde =>
        rw [hde] at hdone
        exact hdone.emit _
      · next st'' d hde =>
        rw [hde] at hdone hspec
        refine (hdone.takeLease hu ?_ ?_ ?_ _).emit _
        -- the caller had no invocation open, so that the dispatch has added one
        all_goals obtain ⟨hd, hs⟩ := hspec
        all_goals cases hd with
          | continued found =>
              rw [findInvocationByCaller, hreal] at found
              exact absurd (hnone.symm.trans found) (by simp)
          | @added record _ _ own _ _ pending _ ids answer _ => ?_
        · refine ⟨record, ?_⟩
          rw [pending, if_pos ⟨rfl, by rw [answer]; rfl⟩]
        · rw [hs.1, hlease]
          simpa [LinkedMap.contains] using hfree
        · rw [hs.2.1]
          refine hcap.no_lease fun u => ?_
          rw [← hids] at hx
          have hnext := WampIdGenerator.nextId_of_not_exhausted hx
          have hid : d.invocationId = st'.ids.invocation.nextId := by
            rw [answer]
            exact own
          cases hg : st'.getInvocation u d.invocationId with
          | none => rfl
          | some i =>
              have := (hcap.own_key u _ i hg).2
              omega

theorem dispatchDebounced (h : st.Invocations) (env : StoreEnv) (uri : String)
    (caller request : Nat) (procedure : String) (options : Dict) (port : SendPort)
    (entry : ProcedureEntry) (policy : RetryDeduplication) (debounce : Int)
    (key : RetryDeduplicationKey) :
    (st.dispatchDebounced env uri caller request procedure options port entry policy debounce
      key).Invocations := by
  simp only [RouterStateStore.dispatchDebounced]
  split
  · exact (gentle.dropDebounce _ st key h).of_frame (fun _ _ => rfl) rfl rfl rfl rfl
  · have hcap := gentle.looking.ensureCapacity st entry policy h
    split
    · next st' e he =>
      rw [he] at hcap
      exact hcap.emit _
    · next st' he =>
      rw [he] at hcap
      exact hcap.of_frame (fun _ _ => rfl) rfl rfl rfl rfl

theorem findInvocationByCaller_congr {st st' : RouterStateStore} (h : st'.realms = st.realms)
    (uri : String) (caller request : Nat) :
    st'.findInvocationByCaller uri caller request =
      st.findInvocationByCaller uri caller request := by
  rw [findInvocationByCaller, findInvocationByCaller, h]

theorem handleInvocationDispatch (h : st.Invocations) (hx : ¬ st.ids.invocation.Exhausted)
    (env : StoreEnv) (uri : String) (caller request : Nat) (procedure : String) (options : Dict)
    (port : SendPort) :
    (st.handleInvocationDispatch env uri caller request procedure options port).Invocations := by
  refine handleInvocationDispatch_elim (fun st' ha => ?_) (fun st' e ha => ?_) ?_
  · rw [← ha.ids] at hx
    exact gentle.replyDispatch (gentle.refl _)
      ((gentle.looking.asked ha h).dispatchInvocation hx _ _ _ _ _ _)
  · exact (gentle.looking.asked ha h).emit _
  · intro st' realm ref entry policy hash hnone _ hg _ _
    have hreap := gentle.looking.reap st' env.now (h.getOrCreateRealm hg)
    rw [← getOrCreateRealm_ids hg] at hx
    split
    · refine hreap.dispatchThrottled (by rw [reap_ids]; exact hx) env ?_ _ _ _ _ _ rfl
      rw [findInvocationByCaller_congr (reap_realms _ _)]
      have hfind := findInvocationByCaller_getOrCreateRealm hg caller request
      rw [findInvocationByCaller, getOrCreateRealm_get hg, ← hnone, hfind]
      rfl
    · exact hreap.dispatchDebounced _ _ _ _ _ _ _ _ _ _ _

theorem completeInvocation (h : st.Invocations) (uri : String) (id : Nat) :
    (st.completeInvocation uri id).1.Invocations := by
  simp only [RouterStateStore.completeInvocation]
  split
  · exact h.of_same (fun _ _ => rfl) (Nat.le_refl _) (get?_of_erase _ _) rfl rfl
  · exact h.finish uri id

theorem touchInvocation (h : st.Invocations) (uri : String) (id : Nat) :
    (st.touchInvocation uri id).1.Invocations := by
  simp only [RouterStateStore.touchInvocation]
  split
  · exact h
  · next i hi =>
    split
    · exact h
    · exact h.schedule hi

theorem cancelInvocation (h : st.Invocations) (uri : String) (id : Nat) (mode : String)
    (waitForAck : Bool) : (st.cancelInvocation uri id mode waitForAck).1.Invocations := by
  simp only [RouterStateStore.cancelInvocation]
  split
  · exact h
  · next i hi =>
    have hmark : ∀ i', i'.invocationId = id → Invocations (st.modifyRealm uri fun r =>
        { r with invocations := r.invocations.insert id i' }) := fun i' hid =>
      h.of_update ⟨i, hi⟩ hid (getInvocation_put hi i') (by rw [modifyRealm_ids])
        (fun k t ht => ⟨t, by rw [← modifyRealm_timeouts]; exact ht⟩) (modifyRealm_leases _ _ _)
        (modifyRealm_keys _ _ _)
    let i' : PendingInvocation :=
      { i with
        cancelRequested := true
        cancelMode := some mode
        waitForCancelAck := waitForAck }
    have hmarked := hmark i' (h.own_key uri id i hi).1
    split
    · exact hmarked.of_same (fun _ _ => rfl) (Nat.le_refl _) (get?_of_erase _ _) rfl rfl
    · exact hmarked.finish uri id

theorem expireInvocation (h : st.Invocations) (uri : String) (id : Nat) :
    (st.expireInvocation uri id).Invocations := by
  have hstop : (st.cancelInvocationTimeout uri id).Invocations :=
    h.of_same (fun _ _ => rfl) (Nat.le_refl _) (get?_of_erase _ _) rfl rfl
  simp only [RouterStateStore.expireInvocation]
  split
  · exact hstop
  · split
    · exact hstop
    · exact ((h.finish uri id).bumpAndNotify uri).emit _

theorem dispatchPendingRetryDebounce (h : st.Invocations) (hx : ¬ st.ids.invocation.Exhausted)
    (env : StoreEnv) (key : RetryDeduplicationKey) :
    (st.dispatchPendingRetryDebounce env key).Invocations := by
  simp only [RouterStateStore.dispatchPendingRetryDebounce]
  split
  · exact h
  · have hdrop : Invocations
        { st with pendingRetryDebounces := st.pendingRetryDebounces.erase key } :=
      h.of_frame (fun _ _ => rfl) rfl rfl rfl rfl
    split
    · have hcount : (RouterStateStore.countExpiration
          { st with pendingRetryDebounces := st.pendingRetryDebounces.erase key }).Invocations :=
        hdrop.of_frame (fun _ _ => rfl) rfl rfl rfl rfl
      exact gentle.replyDispatch (gentle.refl _) (hcount.dispatchInvocation hx _ _ _ _ _ _)
    · exact gentle.replyDispatch (gentle.refl _) (hdrop.dispatchInvocation hx _ _ _ _ _ _)

/-- **Every input keeps the invocations, their timers and their leases together.** -/
theorem step (h : st.Invocations) {x : StoreEnv × StoreInput}
    (hx : ¬ st.ids.invocation.Exhausted) :
    (st.step x).Invocations := by
  obtain ⟨env, input⟩ := x
  cases input with
  | invocationTimer uri id =>
      simp only [RouterStateStore.step, handle]
      split
      · exact h.expireInvocation uri id
      · exact h
  | debounceTimer key => exact h.dispatchPendingRetryDebounce hx env key
  | command c =>
      simp only [RouterStateStore.step, handle]
      cases c with
      | sessionOpen uri session => exact h.openSession uri session
      | sessionClose uri s => exact h.closeSession uri s
      | invocationDispatch uri caller request procedure options port =>
          exact h.handleInvocationDispatch hx env uri caller request procedure options
            port
      | invocationCancel uri id mode waitForAck port =>
          exact (h.cancelInvocation uri id mode waitForAck).emit _
      | invocationComplete uri id port =>
          simp only [dispatchCommand]
          split
          · exact h.completeInvocation uri id
          · exact (h.completeInvocation uri id).emit _
      | invocationTouch uri id port =>
          simp only [dispatchCommand]
          split
          · exact h.touchInvocation uri id
          · exact (h.touchInvocation uri id).emit _
      | _ => exact gentle.dispatchCommand st env rfl h

end Invocations

end RouterStateStore

end Connectanum
