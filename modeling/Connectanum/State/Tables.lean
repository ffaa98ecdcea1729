import Connectanum.State.Quiet

/-!
# State — Tables

`RouterStateStore.Tables` is kept by every input of the store, as long as no id generator has
come round; with the run rule this gives referential integrity of every realm after every legal
sequence of inputs (`integrity_of_run`).
-/

namespace Connectanum

open Collections Machine

namespace RealmRecord

/-! ### Closing a session -/

theorem removeSubscription_sessions {realm : RealmRecord} {s : Nat}
    (h : realm.sessions.get? s = none) (id : Nat) :
    (realm.removeSubscription s id).sessions = realm.sessions := by
  unfold RealmRecord.removeSubscription
  split
  · rfl
  · simp only [bumpVersion, modifySession, h]

theorem unregisterProcedure_sessions {realm : RealmRecord} {s : Nat}
    (h : realm.sessions.get? s = none) (id : Nat) :
    (realm.unregisterProcedure s id).sessions = realm.sessions := by
  unfold RealmRecord.unregisterProcedure
  split
  · rfl
  · simp only [bumpVersion, modifySession, h]

theorem removeSubscription_procedures (realm : RealmRecord) (s id : Nat) :
    (realm.removeSubscription s id).procedures = realm.procedures := by
  unfold RealmRecord.removeSubscription
  split
  · rfl
  · simp [bumpVersion]

theorem unregisterProcedure_subscriptions (realm : RealmRecord) (s id : Nat) :
    (realm.unregisterProcedure s id).subscriptions = realm.subscriptions := by
  unfold RealmRecord.unregisterProcedure
  split
  · rfl
  · simp [bumpVersion]

theorem calleeOf_unregisterProcedure {ids : WampIdAllocatorRegistry} {realm : RealmRecord}
    {heldS heldR : Nat → Nat → Prop} (h : realm.SoundFor ids heldS heldR) (s id i : Nat) :
    (realm.unregisterProcedure s id).procedures.calleeOf i =
      if i = id then none else realm.procedures.calleeOf i := by
  unfold RealmRecord.unregisterProcedure
  cases hf : realm.procedures.findProcedureByRegistrationId id with
  | none =>
      by_cases hi : i = id
      · rw [if_pos hi, hi]
        simp [ProcedureTable.calleeOf, hf]
      · rw [if_neg hi]
  | some found =>
      obtain ⟨ref, e⟩ := found
      simp only [bumpVersion, modifySession_procedures]
      exact ProcedureTable.calleeOf_unregister h.procedures hf i

/-- The realm after the subscriptions and registrations that a closed session listed are gone. -/
def closed (realm : RealmRecord) (s : Nat) (subs regs : List Nat) : RealmRecord :=
  regs.foldl (fun r id => r.unregisterProcedure s id)
    (subs.foldl (fun r id => r.removeSubscription s id) realm)

theorem SoundFor.removeSubscriptions {ids : WampIdAllocatorRegistry} {s : Nat} (subs : List Nat)
    {realm : RealmRecord} {heldS heldR : Nat → Nat → Prop} (h : realm.SoundFor ids heldS heldR) :
    (subs.foldl (fun r id => r.removeSubscription s id) realm).SoundFor ids
      (fun s' i => heldS s' i ∧ ¬ (s' = s ∧ i ∈ subs)) heldR := by
  induction subs generalizing realm heldS with
  | nil => exact h.congr (by simp) (fun _ _ => Iff.rfl)
  | cons id rest ih =>
      refine (ih (h.removeSubscription s id)).congr (fun s' i => ?_) (fun _ _ => Iff.rfl)
      simp only [List.mem_cons]
      tauto

theorem SoundFor.unregisterProcedures {ids : WampIdAllocatorRegistry} {s : Nat} (regs : List Nat)
    {realm : RealmRecord} {heldS heldR : Nat → Nat → Prop} (h : realm.SoundFor ids heldS heldR)
    (ho : ∀ id ∈ regs, realm.OwnedBy s id) :
    (regs.foldl (fun r id => r.unregisterProcedure s id) realm).SoundFor ids heldS
      (fun s' i => heldR s' i ∧ ¬ (s' = s ∧ i ∈ regs)) := by
  induction regs generalizing realm heldR with
  | nil => exact h.congr (fun _ _ => Iff.rfl) (by simp)
  | cons id rest ih =>
      have hstep := h.unregisterProcedure (ho id List.mem_cons_self)
      have ho' : ∀ i ∈ rest, (realm.unregisterProcedure s id).OwnedBy s i := fun i hi c hc => by
        rw [calleeOf_unregisterProcedure h] at hc
        split at hc
        · cases hc
        · exact ho i (List.mem_cons_of_mem _ hi) c hc
      refine (ih hstep ho').congr (fun _ _ => Iff.rfl) (fun s' i => ?_)
      simp only [List.mem_cons]
      tauto

theorem closed_sessions {realm : RealmRecord} {s : Nat} (h : realm.sessions.get? s = none)
    (subs regs : List Nat) : (realm.closed s subs regs).sessions = realm.sessions := by
  have hsub : (subs.foldl (fun r id => r.removeSubscription s id) realm).sessions =
      realm.sessions := by
    induction subs generalizing realm with
    | nil => rfl
    | cons id rest ih =>
        have := removeSubscription_sessions h id
        rw [List.foldl_cons, ih (by rw [this]; exact h), this]
  unfold closed
  generalize hr : subs.foldl (fun r id => r.removeSubscription s id) realm = r at hsub
  rw [← hsub] at h ⊢
  clear hr hsub
  induction regs generalizing r with
  | nil => rfl
  | cons id rest ih =>
      have := unregisterProcedure_sessions h id
      rw [List.foldl_cons, ih _ (by rw [this]; exact h), this]

/-- A session's registrations are its own. -/
theorem Sound.ownedBy {ids : WampIdAllocatorRegistry} {realm : RealmRecord} (h : realm.Sound ids)
    {s id : Nat} (hh : realm.HoldsRegistration s id) : realm.OwnedBy s id := by
  intro c hc
  obtain ⟨ref, e, c', hf, hc', hcs⟩ := find_of_held h hh
  simp only [ProcedureTable.calleeOf, hf, Option.bind_some, hc'] at hc
  rw [← Option.some.inj hc]
  exact hcs

/-- **Closing a session keeps the realm sound.** -/
theorem Sound.close {ids : WampIdAllocatorRegistry} {realm : RealmRecord} (h : realm.Sound ids)
    {s : Nat} {session : SessionRecord} (hs : realm.sessions.get? s = some session) :
    (({ realm with sessions := realm.sessions.erase s } : RealmRecord).closed s
      session.subscriptionIds.keys session.registrationIds.keys).Sound ids := by
  let r₀ : RealmRecord := { realm with sessions := realm.sessions.erase s }
  have hgone : r₀.sessions.get? s = none := realm.sessions.get?_erase_self s
  have h₀ : r₀.SoundFor ids realm.HoldsSubscription realm.HoldsRegistration :=
    ⟨h.subscriptions, h.procedures, h.subscription_le, h.registration_le, h.entry_le⟩
  have hmem : ∀ {m : LinkedMap Nat Unit} {i : Nat}, i ∈ m.keys ↔ m.get? i = some () := by
    intro m i
    rw [LinkedMap.mem_keys]
    exact ⟨fun ⟨_, hu⟩ => hu, fun hu => ⟨(), hu⟩⟩
  have hsub := h₀.removeSubscriptions (s := s) session.subscriptionIds.keys
  have ho : ∀ id ∈ session.registrationIds.keys,
      (session.subscriptionIds.keys.foldl (fun r id => r.removeSubscription s id) r₀).OwnedBy
        s id := by
    intro id hid c hc
    have hproc : (session.subscriptionIds.keys.foldl (fun r id => r.removeSubscription s id)
        r₀).procedures = r₀.procedures :=
      foldl_frame (·.procedures) (fun r id => removeSubscription_procedures r s id) _ r₀
    rw [hproc] at hc
    exact h.ownedBy ⟨session, hs, hmem.mp hid⟩ c hc
  have hall := hsub.unregisterProcedures session.registrationIds.keys ho
  have hses := closed_sessions hgone session.subscriptionIds.keys session.registrationIds.keys
  have key : ∀ (get : SessionRecord → LinkedMap Nat Unit) s' i,
      ((∃ record, realm.sessions.get? s' = some record ∧ (get record).get? i = some ()) ∧
        ¬ (s' = s ∧ i ∈ (get session).keys)) ↔
      ∃ record, (r₀.closed s session.subscriptionIds.keys session.registrationIds.keys).sessions.get?
        s' = some record ∧ (get record).get? i = some () := by
    intro get s' i
    rw [hses, show r₀.sessions.get? s' = if s' = s then none else realm.sessions.get? s' from
      realm.sessions.get?_erase s s', hmem]
    by_cases hss : s' = s
    · subst hss
      simp [hs]
    · simp [hss]
  exact SoundFor.congr hall (key (·.subscriptionIds)) (key (·.registrationIds))

end RealmRecord

namespace RouterStateStore

/-- In every realm the tables are sound. -/
def Tables (st : RouterStateStore) : Prop :=
  ∀ uri realm, st.realms.get? uri = some realm → realm.Sound st.ids

theorem Tables.initial (configs : List String) : Tables { realmConfigs := configs } :=
  fun _ _ h => by cases h

/-- `Tables` reads the realms' records, and the generators as upper bounds. -/
theorem Tables.of_same {st st' : RouterStateStore} (h : st.Tables)
    (hr : ∀ u, st'.realms.get? u = st.realms.get? u)
    (hsub : st.ids.subscription.current ≤ st'.ids.subscription.current)
    (hreg : st.ids.registration.current ≤ st'.ids.registration.current) : st'.Tables := by
  intro uri realm hu
  rw [hr] at hu
  exact RealmRecord.Sound.of_same (h uri realm hu) rfl rfl rfl hsub hreg

/-- One realm's record was replaced by a sound one. -/
theorem Tables.of_update {st st' : RouterStateStore} (h : st.Tables) (uri : String)
    (hr : ∀ u, u ≠ uri → st'.realms.get? u = st.realms.get? u)
    (hu : ∀ realm, st'.realms.get? uri = some realm → realm.Sound st'.ids)
    (hsub : st.ids.subscription.current ≤ st'.ids.subscription.current)
    (hreg : st.ids.registration.current ≤ st'.ids.registration.current) : st'.Tables := by
  intro u realm hg
  by_cases e : u = uri
  · subst e
    exact hu realm hg
  · rw [hr u e] at hg
    exact RealmRecord.Sound.of_same (h u realm hg) rfl rfl rfl hsub hreg

theorem Tables.emit {st : RouterStateStore} (h : st.Tables) (o : StoreOutput) :
    (st.emit o).Tables := h

theorem Tables.setRealm {st : RouterStateStore} (h : st.Tables) (uri : String)
    {realm : RealmRecord} (hr : realm.Sound st.ids) : (st.setRealm uri realm).Tables := by
  refine h.of_update uri (fun u hu => ?_) (fun r hg => ?_) (Nat.le_refl _) (Nat.le_refl _)
  · rw [get?_setRealm, if_neg hu]
  · rw [get?_setRealm, if_pos rfl] at hg
    exact Option.some.inj hg ▸ hr

/-- A record that was written and written over. -/
theorem Tables.setRealm_over {st : RouterStateStore} (h : st.Tables) (uri : String)
    (realm₀ : RealmRecord) {realm : RealmRecord} (hr : realm.Sound st.ids) :
    ((st.setRealm uri realm₀).setRealm uri realm).Tables := by
  refine h.of_update uri (fun u hu => ?_) (fun r hg => ?_) (Nat.le_refl _) (Nat.le_refl _)
  · rw [get?_setRealm, if_neg hu, get?_setRealm, if_neg hu]
  · rw [get?_setRealm, if_pos rfl] at hg
    exact Option.some.inj hg ▸ hr

theorem Tables.bumpAndNotify {st : RouterStateStore} (h : st.Tables) (uri : String) :
    (st.bumpAndNotify uri).Tables := by
  unfold RouterStateStore.bumpAndNotify
  split
  · exact h
  · next r hr =>
    have hb : r.bumpVersion.Sound st.ids :=
      RealmRecord.Sound.of_same (h uri r hr) rfl rfl rfl (Nat.le_refl _) (Nat.le_refl _)
    exact (h.setRealm uri hb).emit _

theorem Tables.getOrCreateRealm {st st' : RouterStateStore} (h : st.Tables) {uri : String}
    {realm : RealmRecord} (hg : st.getOrCreateRealm uri = .ok (st', realm)) :
    st'.Tables ∧ realm.Sound st'.ids ∧ st'.ids = st.ids := by
  rcases getOrCreateRealm_ok hg with ⟨rfl, hr⟩ | ⟨_, rfl, rfl⟩
  · exact ⟨h, h uri realm hr, rfl⟩
  · exact ⟨h.setRealm uri (RealmRecord.Sound.initial _ uri), RealmRecord.Sound.initial _ uri, rfl⟩

theorem Tables.asked {st st' : RouterStateStore} (h : st.Tables) {uri : String}
    (ha : Asked st uri st') : st'.Tables := by
  obtain rfl | ⟨realm, hg⟩ := ha
  · exact h
  · exact (h.getOrCreateRealm hg).1

/-! ### One lemma for each operation -/

/-- The realm's record that an opened session id is not yet in use in. -/
def FreshSession (st : RouterStateStore) (uri : String) (id : Nat) : Prop :=
  ∀ realm, st.realms.get? uri = some realm → realm.sessions.get? id = none

/-- The registration, if there is one, is `s`'s own. -/
def OwnRegistration (st : RouterStateStore) (uri : String) (s id : Nat) : Prop :=
  ∀ realm, st.realms.get? uri = some realm → realm.OwnedBy s id

theorem Tables.openSession {st : RouterStateStore} (h : st.Tables) {uri : String}
    {session : SessionRecord} (hf : st.FreshSession uri session.id) :
    (st.openSession uri session).1.Tables := by
  unfold RouterStateStore.openSession
  cases hg : st.getOrCreateRealm uri with
  | error e => exact h
  | ok found =>
      obtain ⟨st', realm⟩ := found
      obtain ⟨h', hs, _⟩ := h.getOrCreateRealm hg
      have hfresh : realm.sessions.get? session.id = none := by
        rcases getOrCreateRealm_ok hg with ⟨_, hr⟩ | ⟨_, rfl, _⟩
        · exact hf realm hr
        · rfl
      exact ((h'.setRealm uri (RealmRecord.Sound.openSession hs hfresh)).bumpAndNotify uri).emit _

theorem Tables.drawSubscriptionId {st : RouterStateStore} (h : st.Tables)
    (hx : ¬ st.ids.subscription.Exhausted) : st.drawSubscriptionId.Tables := by
  refine h.of_same (fun _ => rfl) ?_ (Nat.le_refl _)
  change _ ≤ st.ids.subscription.nextId
  rw [WampIdGenerator.nextId_of_not_exhausted hx]
  exact Nat.le_succ _

theorem Tables.drawRegistrationId {st : RouterStateStore} (h : st.Tables)
    (hx : ¬ st.ids.registration.Exhausted) : st.drawRegistrationId.Tables := by
  refine h.of_same (fun _ => rfl) (Nat.le_refl _) ?_
  change _ ≤ st.ids.registration.nextId
  rw [WampIdGenerator.nextId_of_not_exhausted hx]
  exact Nat.le_succ _

theorem Tables.addSubscription {st : RouterStateStore} (h : st.Tables)
    (hx : ¬ st.ids.subscription.Exhausted) (env : StoreEnv) (uri : String) (s : Nat)
    (topic : String) (p : TopicMatchPolicy) (details : Dict) :
    (st.addSubscription env uri s topic p details).1.Tables := by
  refine addSubscription_elim (fun st' e ha => h.asked ha)
    (fun st' e ha => (h.asked ha).drawSubscriptionId (ha.ids ▸ hx)) ?_
  intro st' realm session table ref entry hg hses hfc hent done
  obtain ⟨h', hs, hids⟩ := h.getOrCreateRealm hg
  rw [← hids] at hx
  have hlt : st'.ids.subscription.current < st'.ids.subscription.nextId := by
    rw [WampIdGenerator.nextId_of_not_exhausted hx]
    exact Nat.lt_succ_self _
  have hsound := RealmRecord.Sound.subscribe st'.drawSubscriptionId.ids hs hses hlt hfc hent
    { sessionId := s, authRole := session.authRole, details := details } rfl (Nat.le_refl _)
    (Nat.le_refl _)
  have hdone : done.Tables := ((h'.drawSubscriptionId hx).setRealm uri hsound).bumpAndNotify uri
  split
  · exact (hdone.emit _).emit _
  · exact hdone.emit _

theorem Tables.removeSubscription {st : RouterStateStore} (h : st.Tables) (uri : String)
    (s id : Nat) : (st.removeSubscription uri s id).Tables := by
  refine h.of_update uri (fun u hu => ?_) (fun r hg => ?_) ?_ ?_
  · rw [get?_removeSubscription, if_neg hu]
  · rw [get?_removeSubscription, if_pos rfl] at hg
    obtain ⟨realm, hr, rfl⟩ := Option.map_eq_some_iff.mp hg
    rw [removeSubscription_ids]
    exact RealmRecord.Sound.removeSubscription (h uri realm hr) s id
  · rw [removeSubscription_ids]
  · rw [removeSubscription_ids]

theorem Tables.registerProcedure {st : RouterStateStore} (h : st.Tables)
    (hx : ¬ st.ids.registration.Exhausted) (env : StoreEnv) (uri : String) (s : Nat)
    (procedure : String) (details : Dict) :
    (st.registerProcedure env uri s procedure details).1.Tables := by
  refine registerProcedure_elim (fun st' e ha => h.asked ha)
    (fun st' realm e hg => ?_) ?_
  · obtain ⟨h', hs, hids⟩ := h.getOrCreateRealm hg
    rw [← hids] at hx
    refine (h'.drawRegistrationId hx).setRealm uri (RealmRecord.Sound.of_same hs rfl rfl rfl
      (Nat.le_refl _) ?_)
    change _ ≤ st'.ids.registration.nextId
    rw [WampIdGenerator.nextId_of_not_exhausted hx]
    exact Nat.le_succ _
  · intro st' realm session policy p dedup table ref entry hg hses _ hfc _ _ done
    obtain ⟨h', hs, hids⟩ := h.getOrCreateRealm hg
    rw [← hids] at hx
    have hlt : st'.ids.registration.current < st'.ids.registration.nextId := by
      rw [WampIdGenerator.nextId_of_not_exhausted hx]
      exact Nat.lt_succ_self _
    have hsound := RealmRecord.Sound.register st'.drawRegistrationId.ids hs hses
      { registrationId := st'.ids.registration.nextId, procedure := procedure, sessionId := s,
        authRole := session.authRole, details := details, matchPolicy := p } hlt hfc rfl
      (Nat.le_refl _) (Nat.le_refl _)
    have hdone : done.Tables := ((h'.drawRegistrationId hx).setRealm_over uri
      { realm with procedures := table } hsound).bumpAndNotify uri
    split
    · exact (hdone.emit _).emit _
    · exact hdone.emit _

theorem Tables.unregisterProcedure {st : RouterStateStore} (h : st.Tables) {uri : String}
    {s id : Nat} (ho : st.OwnRegistration uri s id) : (st.unregisterProcedure uri s id).Tables := by
  refine h.of_update uri (fun u hu => ?_) (fun r hg => ?_) ?_ ?_
  · rw [get?_unregisterProcedure, if_neg hu]
  · rw [get?_unregisterProcedure, if_pos rfl] at hg
    obtain ⟨realm, hr, rfl⟩ := Option.map_eq_some_iff.mp hg
    rw [unregisterProcedure_ids]
    exact RealmRecord.Sound.unregisterProcedure (h uri realm hr) (ho realm hr)
  · rw [unregisterProcedure_ids]
  · rw [unregisterProcedure_ids]

/-! ### Calls -/

/-- What calls do to a realm's record keeps its tables sound. -/
theorem sound_of_stirs {ids : WampIdAllocatorRegistry} {r r' : RealmRecord} (h : r.Sound ids)
    (hs : Stirs r r') : r'.Sound ids := by
  induction hs with
  | refl => exact h
  | tail _ hstir ih =>
      cases hstir with
      | turned at_ref =>
          exact RealmRecord.Sound.modifyProcedure (f := fun _ => _) ih at_ref
            (ProcedureTable.nextCallee_same _ _)
      | @touched _ _ id now at_ref =>
          have htouch := RealmRecord.Sound.modifyProcedure (f := (·.touchCallee id now)) ih at_ref
            (ProcedureTable.touchCallee_same _ _ _)
          exact RealmRecord.Sound.of_same htouch rfl rfl rfl (Nat.le_refl _) (Nat.le_refl _)
      | _ => exact RealmRecord.Sound.of_same ih rfl rfl rfl (Nat.le_refl _) (Nat.le_refl _)

/-- That the tables stay sound is not seen to depend on calls. -/
theorem Tables.stirred : Stirred fun st st' => st.Tables → st'.Tables where
  refl := fun _ h => h
  trans := fun h₁ h₂ h => h₂ (h₁ h)
  realm := fun {st uri r r'} hr hs h => by
    refine h.setRealm uri (sound_of_stirs ?_ hs)
    cases hg : st.realms.get? uri with
    | some realm =>
        rw [← hr, realmOf_of_get hg]
        exact h uri realm hg
    | none =>
        rw [← hr, realmOf, hg]
        exact RealmRecord.Sound.initial _ uri
  output := fun _ _ _ h => h
  aside := fun hr _ hsub hreg h =>
    h.of_same (fun u => by rw [hr]) (by rw [hsub]) (by rw [hreg])

/-- A loop that erases invocations leaves the rest of the record alone. -/
theorem withoutInvocationsOf_frame {β : Type} (g : RealmRecord → β)
    (h : ∀ (r : RealmRecord) inv, g { r with invocations := inv } = g r) (realm : RealmRecord)
    (s : Nat) : g (withoutInvocationsOf realm s) = g realm :=
  foldl_frame g (fun r _ => h r _) _ realm

/-- What a close makes of the realm's record. -/
def closedRealm (realm : RealmRecord) (s : Nat) (session : SessionRecord) : RealmRecord :=
  (RealmRecord.closed { withoutInvocationsOf realm s with
      sessions := (withoutInvocationsOf realm s).sessions.erase s } s
    session.subscriptionIds.keys session.registrationIds.keys).bumpVersion

theorem get?_closeSession (st : RouterStateStore) {uri : String} {realm : RealmRecord} {s : Nat}
    {session : SessionRecord} (hr : st.realms.get? uri = some realm)
    (hs : realm.sessions.get? s = some session) (u : String) :
    (st.closeSession uri s).realms.get? u =
      if u = uri then some (closedRealm realm s session) else st.realms.get? u := by
  have hrem : ∀ u, ((st.cancelPendingRetryDebouncesForCaller uri s).removeInvocationsForSession uri
      s).realms.get? u = if u = uri then some (withoutInvocationsOf realm s)
        else st.realms.get? u := by
    intro u
    rw [get?_removeInvocationsForSession, cancelDebounces_realms, hr]
    rfl
  have hsame : (withoutInvocationsOf realm s).sessions.get? s = some session := by
    rw [withoutInvocationsOf_frame (·.sessions) (fun _ _ => rfl)]
    exact hs
  unfold closeSession
  simp only [hr, hrem, if_true, Option.bind_some, hsame, emit_realms, get?_bumpAndNotify]
  have hsubs := fun st => get?_foldl st
    (f := fun st id => st.removeSubscription uri s id)
    (g := fun r id => r.removeSubscription s id) uri
    (fun st id u => get?_removeSubscription st uri u s id) session.subscriptionIds.keys
  have hregs := fun st => get?_foldl st
    (f := fun st id => st.unregisterProcedure uri s id)
    (g := fun r id => r.unregisterProcedure s id) uri
    (fun st id u => get?_unregisterProcedure st uri u s id) session.registrationIds.keys
  rw [hregs, hregs, hsubs, hsubs, get?_modifyRealm, get?_modifyRealm, hrem, hrem]
  by_cases e : u = uri
  · simp [e, closedRealm, RealmRecord.closed]
  · simp [e]

theorem closeSession_ids (st : RouterStateStore) (uri : String) (s : Nat) :
    (st.closeSession uri s).ids = st.ids := by
  unfold closeSession
  cases st.realms.get? uri with
  | none => rfl
  | some realm =>
      dsimp only
      cases ((st.cancelPendingRetryDebouncesForCaller uri s).removeInvocationsForSession uri
          s).realms.get? uri |>.bind (·.sessions.get? s) with
      | none => simp
      | some session =>
          simp only [emit_ids, bumpAndNotify_ids]
          rw [foldl_frame (·.ids) (fun st id => unregisterProcedure_ids st uri s id),
            foldl_frame (·.ids) (fun st id => removeSubscription_ids st uri s id)]
          simp

theorem Tables.closeSession {st : RouterStateStore} (h : st.Tables) (uri : String) (s : Nat) :
    (st.closeSession uri s).Tables := by
  cases hr : st.realms.get? uri with
  | none =>
      unfold RouterStateStore.closeSession
      rw [hr]
      exact h
  | some realm =>
      have hrem : ((st.cancelPendingRetryDebouncesForCaller uri s).removeInvocationsForSession
          uri s).Tables :=
        Tables.stirred.resting.removeInvocations _ uri s (Tables.stirred.cancelDebounces st uri s h)
      have hses := withoutInvocationsOf_frame (·.sessions) (fun _ _ => rfl) realm s
      cases hs : realm.sessions.get? s with
      | none =>
          unfold RouterStateStore.closeSession
          simp only [hr, get?_removeInvocationsForSession, cancelDebounces_realms, if_true,
            Option.map_some, Option.bind_some, hses, hs]
          exact hrem
      | some session =>
          refine h.of_update uri (fun u hu => ?_) (fun r hg => ?_) ?_ ?_
          · rw [get?_closeSession st hr hs, if_neg hu]
          · rw [get?_closeSession st hr hs, if_pos rfl] at hg
            obtain rfl := Option.some.inj hg
            rw [closeSession_ids]
            have hsound : (withoutInvocationsOf realm s).Sound st.ids :=
              RealmRecord.Sound.of_same (h uri realm hr) hses
                (withoutInvocationsOf_frame (·.subscriptions) (fun _ _ => rfl) realm s)
                (withoutInvocationsOf_frame (·.procedures) (fun _ _ => rfl) realm s)
                (Nat.le_refl _) (Nat.le_refl _)
            exact RealmRecord.Sound.of_same
              (RealmRecord.Sound.close hsound (by rw [hses]; exact hs)) rfl rfl rfl
              (Nat.le_refl _) (Nat.le_refl _)
          · rw [closeSession_ids]
          · rw [closeSession_ids]

/-! ### Runs of the store -/

/-- One input of the store, in its environment. -/
def step (st : RouterStateStore) (x : StoreEnv × StoreInput) : RouterStateStore :=
  st.handle x.1 x.2

/-- The inputs that the rest of the router sends: a session is opened under an id not in use in
its realm, and a registration is removed by its owner. -/
def Legal (st : RouterStateStore) (x : StoreEnv × StoreInput) : Prop :=
  match x.2 with
  | .command (.sessionOpen uri session) => st.FreshSession uri session.id
  | .command (.procedureUnregister uri s id) => st.OwnRegistration uri s id
  | _ => True

/-- No generator of the store's tables has drawn its last id. -/
structure IdsLeft (st : RouterStateStore) : Prop where
  subscription : ¬ st.ids.subscription.Exhausted
  registration : ¬ st.ids.registration.Exhausted
  invocation : ¬ st.ids.invocation.Exhausted

/-- **Every input keeps the tables sound.** -/
theorem Tables.step {st : RouterStateStore} (h : st.Tables) {x : StoreEnv × StoreInput}
    (hl : st.Legal x) (hx : st.IdsLeft) : (st.step x).Tables := by
  obtain ⟨env, input⟩ := x
  cases hi : input.isOfMembers with
  | false => exact Tables.stirred.handle env st hi h
  | true =>
      cases input with
      | command c =>
          simp only [RouterStateStore.step, handle]
          cases c with
          | sessionOpen uri session => exact h.openSession hl
          | sessionClose uri s => exact h.closeSession uri s
          | subscriptionAdd uri s topic p details port =>
              refine Tables.stirred.sendGuardedReply (fun h => ?_) h
              exact h.addSubscription hx.subscription env uri s topic p details
          | subscriptionRemove uri s id => exact h.removeSubscription uri s id
          | procedureRegister uri s procedure details port =>
              have hr := h.registerProcedure hx.registration env uri s procedure details
              simp only [dispatchCommand]
              split
              · next st' id he =>
                rw [he] at hr
                exact hr
              · next st' e he =>
                rw [he] at hr
                exact hr
          | procedureUnregister uri s id => exact h.unregisterProcedure hl
          | _ => cases hi
      | _ => cases hi

/-- **Referential integrity.**  After every sequence of legal inputs in which no id generator has
come round, the tables of every realm agree. -/
theorem integrity_of_run (configs : List String) (inputs : List (StoreEnv × StoreInput))
    (st : RouterStateStore)
    (hrun : Run step (fun st x => st.Legal x ∧ st.IdsLeft) { realmConfigs := configs } inputs st) :
    ∀ uri realm, st.realms.get? uri = some realm → realm.Integrity := fun uri realm hr =>
  RealmRecord.Sound.integrity (hrun.invariant (P := Tables)
    (fun _ _ h hok => h.step hok.1 hok.2) (Tables.initial configs) uri realm hr)

/-- Two sessions, one of them subscribed and registered; the other calls it. -/
def sampleInputs : List (StoreEnv × StoreInput) :=
  [({}, .command (.sessionOpen "realm1" { id := 1, connectionId := 1 })),
   ({}, .command (.subscriptionAdd "realm1" 1 "com.topic" .exact .empty 0)),
   ({}, .command (.procedureRegister "realm1" 1 "com.proc" .empty 0)),
   ({}, .command (.sessionOpen "realm1" { id := 2, connectionId := 2 })),
   ({}, .command (.invocationDispatch "realm1" 2 7 "com.proc" .empty 0))]

theorem idsLeft_of_lt {st : RouterStateStore}
    (h : st.ids.subscription.current < st.ids.subscription.max ∧
      st.ids.registration.current < st.ids.registration.max ∧
      st.ids.invocation.current < st.ids.invocation.max) : st.IdsLeft :=
  ⟨Nat.not_le.mpr h.1, Nat.not_le.mpr h.2.1, Nat.not_le.mpr h.2.2⟩

theorem sampleInputs_run :
    Run step (fun st x => st.Legal x ∧ st.IdsLeft) { realmConfigs := ["realm1"] } sampleInputs
      (sampleInputs.foldl step { realmConfigs := ["realm1"] }) := by
  have hfresh : ∀ (st : RouterStateStore) (id : Nat),
      ((st.realms.get? "realm1").bind (·.sessions.get? id)).isNone = true →
      st.FreshSession "realm1" id := fun st id h realm hr => by
    rw [hr] at h
    exact Option.isNone_iff_eq_none.mp h
  exact .cons ⟨hfresh _ _ (by decide +kernel), idsLeft_of_lt (by decide +kernel)⟩
    (.cons ⟨trivial, idsLeft_of_lt (by decide +kernel)⟩
    (.cons ⟨trivial, idsLeft_of_lt (by decide +kernel)⟩
    (.cons ⟨hfresh _ _ (by decide +kernel), idsLeft_of_lt (by decide +kernel)⟩
    (.cons ⟨trivial, idsLeft_of_lt (by decide +kernel)⟩ (.nil _)))))

theorem integrity_of_sample :
    ∃ st realm, Run step (fun st x => st.Legal x ∧ st.IdsLeft) { realmConfigs := ["realm1"] }
        sampleInputs st ∧ st.realms.get? "realm1" = some realm ∧ realm.Integrity := by
  obtain ⟨realm, hr⟩ := Option.isSome_iff_exists.mp (show ((sampleInputs.foldl step
    { realmConfigs := ["realm1"] }).realms.get? "realm1").isSome = true by decide +kernel)
  exact ⟨_, realm, sampleInputs_run, hr, integrity_of_run _ _ _ sampleInputs_run _ realm hr⟩

/-! ### When a generator comes round -/

/-- What a subscription does to its realm and to the generators. -/
theorem addSubscription_ok {st : RouterStateStore} {uri topic : String}
    {realm : RealmRecord} {s : Nat} {session : SessionRecord} {p : TopicMatchPolicy}
    (env : StoreEnv) (details : Dict) {table : SubscriptionTable} {ref : Ref} {entry : SubscriptionEntry}
    (hr : st.realms.get? uri = some realm) (hs : realm.sessions.get? s = some session)
    (hf : realm.subscriptions.findOrCreateSubscription topic p st.ids.subscription.nextId env.now =
      (table, ref))
    (he : table.heap.get? ref = some entry) :
    (st.addSubscription env uri s topic p details).1.realms.get? uri = some
        (RealmRecord.modifySession { realm with
            subscriptions := table.addSubscriber ref
              { sessionId := s, authRole := session.authRole, details := details } } s
          (·.addSubscriptionId entry.id)).bumpVersion ∧
      (st.addSubscription env uri s topic p details).1.ids = st.drawSubscriptionId.ids := by
  have hg : st.getOrCreateRealm uri = .ok (st, realm) := by
    unfold getOrCreateRealm
    rw [hr]
  unfold addSubscription
  simp only [hg, hs, hf, he]
  constructor
  · split <;> simp [get?_bumpAndNotify, get?_setRealm]
  · split <;> simp

/-- Session 1 is subscribed to topic `a` under id 1 and `k` more ids have been drawn. -/
structure Renewed (k : Nat) (st : RouterStateStore) : Prop where
  current : st.ids.subscription.current = k + 1
  bounds : st.ids.subscription.min = 1 ∧ st.ids.subscription.max = 0x1FFFFFFFFFFFFF
  realm : ∃ realm session e c, st.realms.get? "realm1" = some realm ∧
    realm.sessions.get? 1 = some session ∧ realm.subscriptions.Live 0 e ∧
    e.id = 1 ∧ e.topic = "a" ∧ e.matchPolicy = .exact ∧ e.subscribers.get? 1 = some c ∧
    realm.subscriptions.subscriptionAtlas.get? .exact "b" = none ∧
    ∀ id, session.subscriptionIds.get? id = some () → id = 1

/-- Session 1 asks for `topic`. -/
def subscribeTo (topic : String) : StoreEnv × StoreInput :=
  ({}, .command (.subscriptionAdd "realm1" 1 topic .exact .empty 0))

/-- Answering the subscriber changes nothing else. -/
theorem subscribeTo_frame {β : Type} (g : RouterStateStore → β) (hg : ∀ st o, g (emit st o) = g st)
    (st : RouterStateStore) (topic : String) :
    g (st.step (subscribeTo topic)) =
      g (st.addSubscription {} "realm1" 1 topic .exact .empty).1 := by
  simp only [step, subscribeTo, handle, dispatchCommand, sendGuardedReply]
  split <;> (next heq => rw [heq]; exact hg _ _)

theorem Renewed.again {k : Nat} {st : RouterStateStore} (h : Renewed k st)
    (hk : k + 1 < 0x1FFFFFFFFFFFFF) : Renewed (k + 1) (st.step (subscribeTo "a")) := by
  obtain ⟨realm, session, e, c, hr, hs, hl, hid, ht, hp, hc, hb, hone⟩ := h.realm
  have hat : realm.subscriptions.subscriptionAtlas.get? .exact "a" = some 0 := by
    rw [← ht, ← hp]
    exact hl.2
  have hf : realm.subscriptions.findOrCreateSubscription "a" .exact st.ids.subscription.nextId 0 =
      (realm.subscriptions, 0) := by
    simp only [SubscriptionTable.findOrCreateSubscription, hat]
  obtain ⟨hreal, hids⟩ := addSubscription_ok {} .empty hr hs hf hl.1
  refine ⟨?_, ?_, ?_⟩
  · rw [subscribeTo_frame (·.ids.subscription.current) (fun _ _ => rfl), hids]
    change st.ids.subscription.nextId = _
    rw [WampIdGenerator.nextId_of_not_exhausted, h.current]
    unfold WampIdGenerator.Exhausted
    rw [h.current, h.bounds.2]
    omega
  · rw [subscribeTo_frame (·.ids.subscription.min) (fun _ _ => rfl),
      subscribeTo_frame (·.ids.subscription.max) (fun _ _ => rfl), hids]
    exact h.bounds
  · let record : SubscriberRecord :=
      { sessionId := 1, authRole := session.authRole, details := .empty }
    have hses := RealmRecord.get?_modifySession { realm with
        subscriptions := realm.subscriptions.addSubscriber 0 record } 1 1
      (·.addSubscriptionId e.id)
    rw [if_pos rfl, hs] at hses
    refine ⟨_, _, e.addSubscriber record, record,
      (subscribeTo_frame (·.realms.get? "realm1") (fun _ _ => rfl) st "a").trans hreal, hses, ?_,
      hid, ht, hp, SplayMap.get?_insert_self _ _ _, ?_, fun id hi => ?_⟩
    · simp only [RealmRecord.bumpVersion, RealmRecord.modifySession_subscriptions]
      exact (SubscriptionTable.live_addSubscriber hl.1).mpr (.inl ⟨rfl, rfl, hl⟩)
    · simp only [RealmRecord.bumpVersion, RealmRecord.modifySession_subscriptions]
      exact hb
    · rcases RealmRecord.get?_insert_unit.mp hi with hi | hi
      · exact hone id hi
      · exact hi.trans hid

/-- Topic `a` still has session 1 as its subscriber, but id 1 leads to the entry of another
topic. -/
structure Overtaken (st : RouterStateStore) : Prop where
  realm : ∃ realm session e c ref e', st.realms.get? "realm1" = some realm ∧
    realm.sessions.get? 1 = some session ∧ realm.subscriptions.Live 0 e ∧ e.id = 1 ∧
    e.subscribers.get? 1 = some c ∧ ref ≠ 0 ∧ realm.subscriptions.Live ref e' ∧ e'.id = 1 ∧
    realm.subscriptions.subscriptionsById.get? 1 = some ref ∧
    ∀ id, session.subscriptionIds.get? id = some () → id = 1

/-- After the last id, a subscription to `b` takes over id 1, which `a` still has. -/
theorem Renewed.overtaken {st : RouterStateStore} (h : Renewed 0x1FFFFFFFFFFFFE st) :
    (st.step (subscribeTo "b")).Overtaken := by
  obtain ⟨realm, session, e, c, hr, hs, hl, hid, ht, hp, hc, hb, hone⟩ := h.realm
  have hnext : st.ids.subscription.nextId = 1 := by
    rw [WampIdGenerator.nextId_of_exhausted, h.bounds.1]
    unfold WampIdGenerator.Exhausted
    rw [h.current, h.bounds.2]
  cases hf : realm.subscriptions.findOrCreateSubscription "b" .exact st.ids.subscription.nextId
      ({} : StoreEnv).now with
  | mk table ref =>
      have hlive := SubscriptionTable.live_create hb st.ids.subscription.nextId
        ({} : StoreEnv).now
      rw [hf] at hlive
      have href : ref = realm.subscriptions.heap.next ∧
          table.subscriptionsById.get? 1 = some realm.subscriptions.heap.next := by
        simp only [SubscriptionTable.findOrCreateSubscription, hb, Prod.mk.injEq] at hf
        obtain ⟨rfl, rfl⟩ := hf
        exact ⟨rfl, by rw [hnext, LinkedMap.get?_insert_self]⟩
      have hnew := (hlive _ _).mpr (.inl ⟨rfl, rfl⟩)
      rw [← href.1] at hnew
      obtain ⟨hreal, -⟩ := addSubscription_ok {} .empty hr hs hf hnew.1
      have hne : (0 : Ref) ≠ ref := by
        rw [href.1]
        exact Nat.ne_of_lt (Heap.lt_next hl.1)
      let record : SubscriberRecord :=
        { sessionId := 1, authRole := session.authRole, details := .empty }
      let entry : SubscriptionEntry :=
        { id := st.ids.subscription.nextId, topic := "b", matchPolicy := .exact, created := 0 }
      have hses := fun eid => RealmRecord.get?_modifySession { realm with
          subscriptions := table.addSubscriber ref record } 1 1 (·.addSubscriptionId eid)
      simp only [if_pos, hs] at hses
      refine ⟨_, _, e, c, ref, entry.addSubscriber record,
        (subscribeTo_frame (·.realms.get? "realm1") (fun _ _ => rfl) st "b").trans hreal, hses _,
        ?_, hid, hc, hne.symm, ?_, hnext, ?_, fun id hi => ?_⟩
      · simp only [RealmRecord.bumpVersion, RealmRecord.modifySession_subscriptions]
        exact (SubscriptionTable.live_addSubscriber hnew.1).mpr
          (.inr ⟨hne, (hlive 0 e).mpr (.inr hl)⟩)
      · simp only [RealmRecord.bumpVersion, RealmRecord.modifySession_subscriptions]
        exact (SubscriptionTable.live_addSubscriber hnew.1).mpr (.inl ⟨rfl, rfl, hnew⟩)
      · simp only [RealmRecord.bumpVersion, RealmRecord.modifySession_subscriptions]
        exact href.2.trans (by rw [href.1])
      · rcases RealmRecord.get?_insert_unit.mp hi with hi | hi
        · exact hone id hi
        · exact hi.trans hnext

/-- The tables of such a realm do not agree. -/
theorem Overtaken.not_integrity {st : RouterStateStore} (h : st.Overtaken) :
    ∃ realm, st.realms.get? "realm1" = some realm ∧ ¬ realm.Integrity := by
  obtain ⟨realm, _, e, _, ref, _, hr, _, hl, hid, _, hne, _, _, hby, _⟩ := h.realm
  refine ⟨realm, hr, fun hint => ?_⟩
  have hex := (hint.subscriptions_exact 1 0).mpr ⟨e, hl, hid⟩
  exact hne (Option.some.inj (hby.symm.trans hex))

/-- A run that draws every subscription id, with session 1 and realm `realm1`, and one more. -/
theorem exists_overtaken : ∃ inputs st, Run step Legal { realmConfigs := ["realm1"] } inputs st ∧
    st.Overtaken := by
  let st₀ : RouterStateStore := { realmConfigs := ["realm1"] }
  let opening : StoreEnv × StoreInput :=
    ({}, .command (.sessionOpen "realm1" { id := 1, connectionId := 1 }))
  have hopen : Run step Legal st₀ [opening] (st₀.step opening) :=
    .cons (fun r h => by cases h) (.nil _)
  have hfirst := hopen.snoc (i := subscribeTo "a") trivial
  have hren : Renewed 0 ((st₀.step opening).step (subscribeTo "a")) := by
    refine ⟨rfl, ⟨rfl, rfl⟩, _, _, _, _, rfl, rfl, ⟨rfl, rfl⟩, rfl, rfl, rfl, rfl, rfl,
      fun id hi => ?_⟩
    rcases RealmRecord.get?_insert_unit.mp hi with hi | hi
    · cases hi
    · exact hi
  have hsteps : ∀ k st, k < 0x1FFFFFFFFFFFFE → Renewed k st →
      st.Legal (subscribeTo "a") ∧ Renewed (k + 1) (st.step (subscribeTo "a")) :=
    fun k st hk h => ⟨trivial, h.again (by omega)⟩
  obtain ⟨st, hmany, hlast⟩ := Run.replicate hsteps hren
  exact ⟨_, _, (hfirst.append hmany).snoc (i := subscribeTo "b") trivial, hlast.overtaken⟩

/-- Integrity does not survive the generator's return to an id that is still in use. -/
theorem integrity_lost_when_ids_return :
    ¬ ∀ (configs : List String) (inputs : List (StoreEnv × StoreInput)) (st : RouterStateStore),
      Run step Legal { realmConfigs := configs } inputs st →
      ∀ uri realm, st.realms.get? uri = some realm → realm.Integrity := by
  intro hall
  obtain ⟨inputs, st, hrun, hover⟩ := exists_overtaken
  obtain ⟨realm, hr, hbad⟩ := hover.not_integrity
  exact hbad (hall _ inputs st hrun _ realm hr)

end RouterStateStore

end Connectanum
