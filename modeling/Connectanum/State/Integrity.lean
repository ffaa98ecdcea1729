import Connectanum.Lib.Runs
import Connectanum.State.Store
import Connectanum.State.SubscriptionSound
import Connectanum.State.ProcedureSound

/-!
# State — Referential integrity

In each realm the redundant tables of the store describe one state of affairs
(`RealmRecord.Integrity`).  The inductive invariant behind it is `RouterStateStore.Tables`:
sound subscription and procedure tables in every realm, and no id in use beyond the last one
drawn.

Ids are drawn in sequence and start again after `2^53 - 1`.  A subscription under an id that is
still in use overwrites the older one's place in `subscriptionsById`, so integrity holds of the
runs in which no generator has come round.
-/

namespace Connectanum

open Collections

namespace RealmRecord

/-- Session `s` is open and lists subscription `id`. -/
def HoldsSubscription (r : RealmRecord) (s id : Nat) : Prop :=
  ∃ record, r.sessions.get? s = some record ∧ record.subscriptionIds.get? id = some ()

/-- Session `s` is open and lists registration `id`. -/
def HoldsRegistration (r : RealmRecord) (s id : Nat) : Prop :=
  ∃ record, r.sessions.get? s = some record ∧ record.registrationIds.get? id = some ()

/-- The tables of a realm agree with one another and with its sessions. -/
structure Integrity (r : RealmRecord) : Prop where
  /-- `subscriptionsById` holds exactly the entries of the atlas, each under its own id. -/
  subscriptions_exact : ∀ id ref, r.subscriptions.subscriptionsById.get? id = some ref ↔
    ∃ e, r.subscriptions.Live ref e ∧ e.id = id
  /-- Each entry of the atlas is under its own policy and topic. -/
  subscriptions_own_key : ∀ p topic ref,
    r.subscriptions.subscriptionAtlas.get? p topic = some ref →
    ∃ e, r.subscriptions.heap.get? ref = some e ∧ e.matchPolicy = p ∧ e.topic = topic
  /-- A session is among the subscribers of an entry iff it lists the entry's id. -/
  subscribers_listed : ∀ ref e, r.subscriptions.Live ref e → ∀ s record,
    r.sessions.get? s = some record →
    ((∃ c, e.subscribers.get? s = some c) ↔ record.subscriptionIds.get? e.id = some ())
  /-- A session lists no subscription that does not exist. -/
  subscriptionIds_exist : ∀ s record id, r.sessions.get? s = some record →
    record.subscriptionIds.get? id = some () →
    ∃ ref e, r.subscriptions.Live ref e ∧ e.id = id
  /-- No entry has an empty subscriber set. -/
  subscribers_inhabited : ∀ ref e, r.subscriptions.Live ref e →
    e.subscribers.isEmpty = false
  /-- `proceduresById` and the index by registration id are the same table. -/
  registrations_same : ∀ id, r.procedures.proceduresById.get? id =
    r.procedures.procedureAtlas.registrations.get? id
  /-- That table holds exactly the callees of the entries in the atlas. -/
  registrations_exact : ∀ id ref, r.procedures.proceduresById.get? id = some ref ↔
    ∃ e, r.procedures.Live ref e ∧ ∃ c, e.callees.get? id = some c
  /-- Each entry of the atlas is under its own policy and procedure. -/
  procedures_own_key : ∀ p procedure ref,
    r.procedures.procedureAtlas.patterns.get? p procedure = some ref →
    ∃ e, r.procedures.heap.get? ref = some e ∧ e.matchPolicy = p ∧ e.procedure = procedure
  /-- A session is the callee of a registration iff it lists the registration's id. -/
  callees_listed : ∀ s record, r.sessions.get? s = some record → ∀ id,
    ((∃ ref e c, r.procedures.Live ref e ∧ e.callees.get? id = some c ∧ c.sessionId = s) ↔
      record.registrationIds.get? id = some ())
  /-- No entry has an empty callee set. -/
  callees_inhabited : ∀ ref e, r.procedures.Live ref e → e.callees.isEmpty = false
  /-- Every subscriber is an open session of the realm. -/
  subscribers_open : ∀ ref e, r.subscriptions.Live ref e → ∀ s c,
    e.subscribers.get? s = some c → ∃ record, r.sessions.get? s = some record
  /-- Every callee is an open session of the realm. -/
  callees_open : ∀ ref e, r.procedures.Live ref e → ∀ id c, e.callees.get? id = some c →
    ∃ record, r.sessions.get? c.sessionId = some record

/-- The inductive form of integrity: sound tables for given listings `heldS` and `heldR`, with
the ids in use bounded by those drawn. -/
structure SoundFor (ids : WampIdAllocatorRegistry) (r : RealmRecord)
    (heldS heldR : Nat → Nat → Prop) : Prop where
  subscriptions : r.subscriptions.Sound heldS
  procedures : r.procedures.Sound heldR
  subscription_le : ∀ id ref, r.subscriptions.subscriptionsById.get? id = some ref →
    id ≤ ids.subscription.current
  registration_le : ∀ id ref, r.procedures.proceduresById.get? id = some ref →
    id ≤ ids.registration.current
  entry_le : ∀ ref e, r.procedures.Live ref e → e.registrationId ≤ ids.registration.current

/-- Sound tables for what the open sessions list. -/
def Sound (ids : WampIdAllocatorRegistry) (r : RealmRecord) : Prop :=
  r.SoundFor ids r.HoldsSubscription r.HoldsRegistration

theorem Sound.integrity {ids : WampIdAllocatorRegistry} {r : RealmRecord} (h : r.Sound ids) :
    r.Integrity where
  subscriptions_exact := h.subscriptions.byId_iff
  subscriptions_own_key := h.subscriptions.atlas_own
  subscribers_listed ref e hl s record hs := by
    rw [h.subscriptions.subscriber_iff ref e hl s]
    constructor
    · rintro ⟨record', hs', hi⟩
      obtain rfl := Option.some.inj (hs'.symm.trans hs)
      exact hi
    · exact fun hi => ⟨record, hs, hi⟩
  subscriptionIds_exist s record id hs hi := by
    obtain ⟨ref, href⟩ := h.subscriptions.held_live s id ⟨record, hs, hi⟩
    obtain ⟨e, he⟩ := (h.subscriptions.byId_iff id ref).mp href
    exact ⟨ref, e, he⟩
  subscribers_inhabited ref e hl := by
    obtain ⟨s, c, hc⟩ := h.subscriptions.inhabited ref e hl
    rw [Bool.eq_false_iff]
    intro hemp
    rw [SplayMap.isEmpty_iff.mp hemp] at hc
    cases hc
  registrations_same := h.procedures.registrations_eq
  registrations_exact := h.procedures.byId_iff
  procedures_own_key := h.procedures.atlas_own
  callees_listed s record hs id := by
    constructor
    · rintro ⟨ref, e, c, hl, hc, rfl⟩
      obtain ⟨_, record', hs', hi⟩ := h.procedures.callee_held ref e hl id c hc
      obtain rfl := Option.some.inj (hs'.symm.trans hs)
      exact hi
    · exact fun hi => h.procedures.held_callee s id ⟨record, hs, hi⟩
  callees_inhabited ref e hl := by
    obtain ⟨s, c, hc⟩ := h.procedures.inhabited ref e hl
    rw [Bool.eq_false_iff]
    intro hemp
    rw [SplayMap.isEmpty_iff.mp hemp] at hc
    cases hc
  subscribers_open ref e hl s c hc := by
    obtain ⟨record, hs, _⟩ := (h.subscriptions.subscriber_iff ref e hl s).mp ⟨c, hc⟩
    exact ⟨record, hs⟩
  callees_open ref e hl id c hc := by
    obtain ⟨_, record, hs, _⟩ := h.procedures.callee_held ref e hl id c hc
    exact ⟨record, hs⟩

/-! ### Realm records -/

theorem Sound.initial (ids : WampIdAllocatorRegistry) (uri : String) :
    Sound ids { realmUri := uri } where
  subscriptions := SubscriptionTable.Sound.empty.congr (by simp [HoldsSubscription])
  procedures := ProcedureTable.Sound.empty.congr (by simp [HoldsRegistration])
  subscription_le := by simp
  registration_le := by simp
  entry_le := by simp [ProcedureTable.Live]

/-- Only the two tables are read, and the generators as upper bounds. -/
theorem SoundFor.of_same {ids ids' : WampIdAllocatorRegistry} {r r' : RealmRecord}
    {heldS heldR : Nat → Nat → Prop} (h : r.SoundFor ids heldS heldR)
    (ht : r'.subscriptions = r.subscriptions) (hp : r'.procedures = r.procedures)
    (hsub : ids.subscription.current ≤ ids'.subscription.current)
    (hreg : ids.registration.current ≤ ids'.registration.current) :
    r'.SoundFor ids' heldS heldR := by
  refine ⟨?_, ?_, fun id ref hr => ?_, fun id ref hr => ?_, fun ref e hl => ?_⟩
  · rw [ht]
    exact h.subscriptions
  · rw [hp]
    exact h.procedures
  · rw [ht] at hr
    exact (h.subscription_le id ref hr).trans hsub
  · rw [hp] at hr
    exact (h.registration_le id ref hr).trans hreg
  · rw [hp] at hl
    exact (h.entry_le ref e hl).trans hreg

theorem SoundFor.congr {ids : WampIdAllocatorRegistry} {r : RealmRecord}
    {heldS heldS' heldR heldR' : Nat → Nat → Prop} (h : r.SoundFor ids heldS heldR)
    (hS : ∀ s id, heldS s id ↔ heldS' s id) (hR : ∀ s id, heldR s id ↔ heldR' s id) :
    r.SoundFor ids heldS' heldR' :=
  ⟨h.subscriptions.congr hS, h.procedures.congr hR, h.subscription_le, h.registration_le,
    h.entry_le⟩

theorem Sound.of_same {ids ids' : WampIdAllocatorRegistry} {r r' : RealmRecord} (h : r.Sound ids)
    (hs : r'.sessions = r.sessions) (ht : r'.subscriptions = r.subscriptions)
    (hp : r'.procedures = r.procedures)
    (hsub : ids.subscription.current ≤ ids'.subscription.current)
    (hreg : ids.registration.current ≤ ids'.registration.current) : r'.Sound ids' := by
  refine (SoundFor.of_same h ht hp hsub hreg).congr (fun s id => ?_) (fun s id => ?_)
  · unfold HoldsSubscription
    rw [hs]
  · unfold HoldsRegistration
    rw [hs]

theorem get?_modifySession (r : RealmRecord) (s s' : Nat) (f : SessionRecord → SessionRecord) :
    (r.modifySession s f).sessions.get? s' =
      if s' = s then (r.sessions.get? s).map f else r.sessions.get? s' := by
  unfold modifySession
  cases h : r.sessions.get? s with
  | none =>
      by_cases e : s' = s
      · rw [if_pos e, e, h]
        rfl
      · rw [if_neg e]
  | some record => exact r.sessions.get?_insert s s' (f record)

@[simp] theorem modifySession_subscriptions (r : RealmRecord) (s : Nat)
    (f : SessionRecord → SessionRecord) : (r.modifySession s f).subscriptions = r.subscriptions := by
  unfold modifySession
  split <;> rfl

@[simp] theorem modifySession_procedures (r : RealmRecord) (s : Nat)
    (f : SessionRecord → SessionRecord) : (r.modifySession s f).procedures = r.procedures := by
  unfold modifySession
  split <;> rfl

@[simp] theorem modifySession_invocations (r : RealmRecord) (s : Nat)
    (f : SessionRecord → SessionRecord) : (r.modifySession s f).invocations = r.invocations := by
  unfold modifySession
  split <;> rfl

/-- What the sessions list after one record was updated. -/
theorem holds_modifySession (get : SessionRecord → LinkedMap Nat Unit) (r : RealmRecord)
    (s s' id : Nat) (f : SessionRecord → SessionRecord) :
    (∃ record, (r.modifySession s f).sessions.get? s' = some record ∧
        (get record).get? id = some ()) ↔
      if s' = s then ∃ record, r.sessions.get? s = some record ∧ (get (f record)).get? id = some ()
      else ∃ record, r.sessions.get? s' = some record ∧ (get record).get? id = some () := by
  rw [get?_modifySession]
  by_cases e : s' = s
  · rw [if_pos e, if_pos e]
    constructor
    · rintro ⟨record, h, hi⟩
      obtain ⟨record', h', rfl⟩ := Option.map_eq_some_iff.mp h
      exact ⟨record', h', hi⟩
    · rintro ⟨record, h, hi⟩
      exact ⟨f record, by rw [h]; rfl, hi⟩
  · rw [if_neg e, if_neg e]

theorem get?_insert_unit {m : LinkedMap Nat Unit} {k k' : Nat} :
    (m.insert k ()).get? k' = some () ↔ m.get? k' = some () ∨ k' = k := by
  rw [LinkedMap.get?_insert]
  by_cases e : k' = k <;> simp [e]

theorem get?_erase_unit {m : LinkedMap Nat Unit} {k k' : Nat} :
    (m.erase k).get? k' = some () ↔ m.get? k' = some () ∧ k' ≠ k := by
  rw [LinkedMap.get?_erase]
  by_cases e : k' = k <;> simp [e]

/-! ### The operations on a realm -/

/-- The realm after `s` subscribed: `table` and `ref` are what `findOrCreateSubscription`
returned and `e` is the entry at `ref`. -/
theorem Sound.subscribe {ids : WampIdAllocatorRegistry} (ids' : WampIdAllocatorRegistry)
    {realm : RealmRecord} (h : realm.Sound ids) {s : Nat} {session : SessionRecord}
    (hs : realm.sessions.get? s = some session) {topic : String} {p : TopicMatchPolicy}
    {id now : Nat} (hid : ids.subscription.current < id) {table : SubscriptionTable} {ref : Ref}
    {e : SubscriptionEntry}
    (hf : realm.subscriptions.findOrCreateSubscription topic p id now = (table, ref))
    (he : table.heap.get? ref = some e) (record : SubscriberRecord) (hr : record.sessionId = s)
    (hsub : id ≤ ids'.subscription.current)
    (hreg : ids.registration.current ≤ ids'.registration.current) :
    (({ realm with subscriptions := table.addSubscriber ref record } : RealmRecord).modifySession s
      (·.addSubscriptionId e.id)).Sound ids' := by
  have hnone : realm.subscriptions.subscriptionsById.get? id = none := by
    rw [Option.eq_none_iff_forall_ne_some]
    intro ref' href'
    exact absurd (h.subscription_le id ref' href') (Nat.not_le.mpr hid)
  have hnew := h.subscriptions.subscribe hnone hf he record
  have hby : ∀ i ref', table.subscriptionsById.get? i = some ref' →
      i ≤ ids'.subscription.current := by
    intro i ref' hi
    unfold SubscriptionTable.findOrCreateSubscription at hf
    split at hf
    · obtain ⟨rfl, rfl⟩ := Prod.mk.inj hf
      exact (h.subscription_le i ref' hi).trans (Nat.le_of_lt (Nat.lt_of_lt_of_le hid hsub))
    · obtain ⟨rfl, rfl⟩ := Prod.mk.inj hf
      dsimp only at hi
      rw [LinkedMap.get?_insert] at hi
      split at hi
      · next hi' => exact hi' ▸ hsub
      · exact (h.subscription_le i ref' hi).trans (Nat.le_of_lt (Nat.lt_of_lt_of_le hid hsub))
  have hfor : (({ realm with subscriptions := table.addSubscriber ref record } :
      RealmRecord).modifySession s (·.addSubscriptionId e.id)).SoundFor ids'
      (fun s' i => realm.HoldsSubscription s' i ∨ (s' = record.sessionId ∧ i = e.id))
      realm.HoldsRegistration := by
    refine ⟨?_, ?_, ?_, ?_, ?_⟩
    · rw [modifySession_subscriptions]
      exact hnew
    · rw [modifySession_procedures]
      exact h.procedures
    · rw [modifySession_subscriptions]
      exact hby
    · rw [modifySession_procedures]
      exact fun i ref' hi => (h.registration_le i ref' hi).trans hreg
    · rw [modifySession_procedures]
      exact fun ref' e' hl => (h.entry_le ref' e' hl).trans hreg
  refine hfor.congr (fun s' i => ?_) (fun s' i => ?_)
  · unfold HoldsSubscription
    rw [holds_modifySession (·.subscriptionIds), hr]
    by_cases hss : s' = s
    · subst hss
      rw [if_pos rfl]
      simp only [SessionRecord.addSubscriptionId, get?_insert_unit, hs]
      simp
    · simp [hss]
  · unfold HoldsRegistration
    rw [holds_modifySession (·.registrationIds)]
    by_cases hss : s' = s
    · subst hss
      rw [if_pos rfl]
      rfl
    · rw [if_neg hss]

/-- The realm's part of `_removeSubscription`. -/
def removeSubscription (realm : RealmRecord) (s id : Nat) : RealmRecord :=
  match realm.subscriptions.findSubscriptionById id with
  | none => realm
  | some (ref, e) =>
      (({ realm with subscriptions := realm.subscriptions.unsubscribe ref e s } :
        RealmRecord).modifySession s (·.removeSubscriptionId id)).bumpVersion

/-- Nobody holds a subscription that is not found. -/
theorem SoundFor.not_held {ids : WampIdAllocatorRegistry} {realm : RealmRecord}
    {heldS heldR : Nat → Nat → Prop} (h : realm.SoundFor ids heldS heldR) {s id s' i : Nat}
    (hf : realm.subscriptions.findSubscriptionById id = none) (hh : heldS s' i) :
    ¬ (s' = s ∧ i = id) := by
  rintro ⟨-, rfl⟩
  obtain ⟨ref, href⟩ := h.subscriptions.held_live s' i hh
  obtain ⟨e, hl, _⟩ := (h.subscriptions.byId_iff i ref).mp href
  simp [SubscriptionTable.findSubscriptionById, href, hl.1] at hf

theorem SoundFor.removeSubscription {ids : WampIdAllocatorRegistry} {realm : RealmRecord}
    {heldS heldR : Nat → Nat → Prop} (h : realm.SoundFor ids heldS heldR) (s id : Nat) :
    (realm.removeSubscription s id).SoundFor ids
      (fun s' i => heldS s' i ∧ ¬ (s' = s ∧ i = id)) heldR := by
  unfold RealmRecord.removeSubscription
  cases hf : realm.subscriptions.findSubscriptionById id with
  | none =>
      exact h.congr (fun s' i => ⟨fun hh => ⟨hh, h.not_held hf hh⟩, And.left⟩)
        (fun _ _ => Iff.rfl)
  | some found =>
      obtain ⟨ref, e⟩ := found
      have hsound := h.subscriptions.unsubscribe hf s
      refine ⟨?_, ?_, fun i ref' hi => ?_, ?_, ?_⟩
      · simpa [bumpVersion] using hsound
      · simpa [bumpVersion] using h.procedures
      · simp only [bumpVersion, modifySession_subscriptions,
          SubscriptionTable.byId_unsubscribe] at hi
        split at hi
        · cases hi
        · exact h.subscription_le i ref' hi
      · simpa [bumpVersion] using h.registration_le
      · simpa [bumpVersion] using h.entry_le

theorem holdsSubscription_removeSubscription {ids : WampIdAllocatorRegistry} {realm : RealmRecord}
    (h : realm.Sound ids) (s id s' i : Nat) :
    (realm.removeSubscription s id).HoldsSubscription s' i ↔
      realm.HoldsSubscription s' i ∧ ¬ (s' = s ∧ i = id) := by
  unfold RealmRecord.removeSubscription
  cases hf : realm.subscriptions.findSubscriptionById id with
  | none =>
      exact ⟨fun hh => ⟨hh, h.not_held hf hh⟩, And.left⟩
  | some found =>
      have := holds_modifySession (·.subscriptionIds)
        { realm with subscriptions := realm.subscriptions.unsubscribe found.1 found.2 s } s s' i
        (·.removeSubscriptionId id)
      simp only [HoldsSubscription, bumpVersion]
      rw [this]
      by_cases hss : s' = s
      · subst hss
        simp only [if_true, SessionRecord.removeSubscriptionId, get?_erase_unit, true_and]
        constructor
        · rintro ⟨record, h₁, h₂, h₃⟩
          exact ⟨⟨record, h₁, h₂⟩, h₃⟩
        · rintro ⟨⟨record, h₁, h₂⟩, h₃⟩
          exact ⟨record, h₁, h₂, h₃⟩
      · simp [hss]

theorem holdsRegistration_removeSubscription (realm : RealmRecord) (s id s' i : Nat) :
    (realm.removeSubscription s id).HoldsRegistration s' i ↔ realm.HoldsRegistration s' i := by
  unfold RealmRecord.removeSubscription
  split
  · exact Iff.rfl
  · next ref e _ =>
    have := holds_modifySession (·.registrationIds)
      { realm with subscriptions := realm.subscriptions.unsubscribe ref e s } s s' i
      (·.removeSubscriptionId id)
    simp only [HoldsRegistration, bumpVersion]
    rw [this]
    by_cases hss : s' = s
    · subst hss
      rw [if_pos rfl]
      rfl
    · rw [if_neg hss]

theorem Sound.removeSubscription {ids : WampIdAllocatorRegistry} {realm : RealmRecord}
    (h : realm.Sound ids) (s id : Nat) : (realm.removeSubscription s id).Sound ids :=
  (SoundFor.removeSubscription h s id).congr
    (fun s' i => (holdsSubscription_removeSubscription h s id s' i).symm)
    (fun s' i => (holdsRegistration_removeSubscription realm s id s' i).symm)

/-- `id` was never drawn, so no table knows it. -/
theorem SoundFor.unused {ids : WampIdAllocatorRegistry} {realm : RealmRecord}
    {heldS heldR : Nat → Nat → Prop} (h : realm.SoundFor ids heldS heldR) {id : Nat}
    (hid : ids.registration.current < id) : realm.procedures.Unused id := by
  constructor
  · rw [Option.eq_none_iff_forall_ne_some]
    intro ref href
    exact absurd (h.registration_le id ref href) (Nat.not_le.mpr hid)
  · rintro ref e hl rfl
    exact absurd (h.entry_le ref e hl) (Nat.not_le.mpr hid)

/-- The realm after `s` registered: `table` and `ref` are what `findOrCreateProcedure`
returned. -/
theorem Sound.register {ids : WampIdAllocatorRegistry} (ids' : WampIdAllocatorRegistry)
    {realm : RealmRecord} (h : realm.Sound ids) {s : Nat} {session : SessionRecord}
    (hs : realm.sessions.get? s = some session) {procedure : String} {p : ProcedureMatchPolicy}
    {policy : InvocationPolicy} {now : Nat} {table : ProcedureTable} {ref : Ref}
    (record : RegistrationRecord) (hid : ids.registration.current < record.registrationId)
    (hf : realm.procedures.findOrCreateProcedure procedure record.registrationId policy p now =
      (table, ref))
    (hr : record.sessionId = s) (hsub : ids.subscription.current ≤ ids'.subscription.current)
    (hreg : record.registrationId ≤ ids'.registration.current) :
    (({ realm with procedures := table.addRegistration ref record } : RealmRecord).modifySession s
      (·.addRegistrationId record.registrationId)).Sound ids' := by
  have hu : realm.procedures.Unused record.registrationId := SoundFor.unused h hid
  have hnew := h.procedures.register hu hf
  have hle : ids.registration.current ≤ ids'.registration.current :=
    Nat.le_of_lt (Nat.lt_of_lt_of_le hid hreg)
  -- an entry of the new table is one of the old, or was created under the new id
  have hentry : ∀ ref' e', table.Live ref' e' →
      e'.registrationId ≤ ids'.registration.current := by
    intro ref' e' hl
    cases hat : realm.procedures.procedureAtlas.patterns.get? p procedure with
    | some ref₀ =>
        simp only [ProcedureTable.findOrCreateProcedure, hat, Prod.mk.injEq] at hf
        obtain ⟨rfl, rfl⟩ := hf
        exact (h.entry_le ref' e' hl).trans hle
    | none =>
        have hc := ProcedureTable.live_create hat policy record.registrationId now ref' e'
        rw [hf] at hc
        rcases hc.mp hl with ⟨_, rfl⟩ | hl
        · exact hreg
        · exact (h.entry_le ref' e' hl).trans hle
  have hby : table.proceduresById = realm.procedures.proceduresById := by
    unfold ProcedureTable.findOrCreateProcedure at hf
    split at hf <;> (obtain ⟨rfl, rfl⟩ := Prod.mk.inj hf; rfl)
  have hfor : (({ realm with procedures := table.addRegistration ref record } :
      RealmRecord).modifySession s (·.addRegistrationId record.registrationId)).SoundFor ids'
      realm.HoldsSubscription (fun s' i =>
        realm.HoldsRegistration s' i ∨ (s' = record.sessionId ∧ i = record.registrationId)) := by
    refine ⟨?_, ?_, ?_, fun i ref' hi => ?_, fun ref' e' hl => ?_⟩
    · rw [modifySession_subscriptions]
      exact h.subscriptions
    · rw [modifySession_procedures]
      exact hnew
    · rw [modifySession_subscriptions]
      exact fun i ref' hi => (h.subscription_le i ref' hi).trans hsub
    · rw [modifySession_procedures] at hi
      have hget := table.proceduresById.get?_insert record.registrationId i ref
      rw [show (table.addRegistration ref record).proceduresById.get? i = _ from hget, hby] at hi
      split at hi
      · next hi' => exact hi' ▸ hreg
      · exact (h.registration_le i ref' hi).trans hle
    · rw [modifySession_procedures] at hl
      cases href : table.heap.get? ref with
      | none =>
          have hheap : (table.addRegistration ref record).heap.get? ref' = table.heap.get? ref' := by
            have := table.heap.get?_modify ref ref' (·.addCallee record)
            rw [show (table.addRegistration ref record).heap.get? ref' = _ from this, href]
            by_cases hrr : ref' = ref
            · rw [if_pos hrr, hrr, href]
              rfl
            · rw [if_neg hrr]
          exact hentry ref' e' ⟨hheap ▸ hl.1, hl.2⟩
      | some e =>
          rcases (ProcedureTable.live_addRegistration href record _ _).mp hl with ⟨rfl, rfl, hl₀⟩ | ⟨_, hl₀⟩
          · exact hentry ref' e hl₀
          · exact hentry ref' e' hl₀
  refine hfor.congr (fun s' i => ?_) (fun s' i => ?_)
  · unfold HoldsSubscription
    rw [holds_modifySession (·.subscriptionIds)]
    by_cases hss : s' = s
    · subst hss
      rw [if_pos rfl]
      rfl
    · rw [if_neg hss]
  · unfold HoldsRegistration
    rw [holds_modifySession (·.registrationIds), hr]
    by_cases hss : s' = s
    · subst hss
      rw [if_pos rfl]
      simp only [SessionRecord.addRegistrationId, get?_insert_unit, hs]
      simp
    · simp [hss]

/-- The realm's part of `_unregisterProcedure`. -/
def unregisterProcedure (realm : RealmRecord) (s id : Nat) : RealmRecord :=
  match realm.procedures.findProcedureByRegistrationId id with
  | none => realm
  | some (ref, e) =>
      (({ realm with procedures := realm.procedures.unregister ref e id } :
        RealmRecord).modifySession s (·.removeRegistrationId id)).bumpVersion

theorem find_of_held {ids : WampIdAllocatorRegistry} {realm : RealmRecord}
    {heldS heldR : Nat → Nat → Prop} (h : realm.SoundFor ids heldS heldR) {s id : Nat}
    (hh : heldR s id) : ∃ ref e c, realm.procedures.findProcedureByRegistrationId id = some (ref, e) ∧
      e.callees.get? id = some c ∧ c.sessionId = s := by
  obtain ⟨ref, e, c, hl, hc, hcs⟩ := h.procedures.held_callee s id hh
  have hid := h.procedures.byId_of_live hl hc
  rw [h.procedures.registrations_eq] at hid
  exact ⟨ref, e, c, by simp [ProcedureTable.findProcedureByRegistrationId, hid, hl.1], hc, hcs⟩

/-- `s` is the only session whose unregistration of `id` may reach the store. -/
def OwnedBy (realm : RealmRecord) (s id : Nat) : Prop :=
  ∀ c, realm.procedures.calleeOf id = some c → c.sessionId = s

theorem SoundFor.unregisterProcedure {ids : WampIdAllocatorRegistry} {realm : RealmRecord}
    {heldS heldR : Nat → Nat → Prop} (h : realm.SoundFor ids heldS heldR) {s id : Nat}
    (ho : realm.OwnedBy s id) :
    (realm.unregisterProcedure s id).SoundFor ids heldS
      (fun s' i => heldR s' i ∧ ¬ (s' = s ∧ i = id)) := by
  unfold RealmRecord.unregisterProcedure
  cases hf : realm.procedures.findProcedureByRegistrationId id with
  | none =>
      refine h.congr (fun _ _ => Iff.rfl) (fun s' i => ⟨fun hh => ⟨hh, ?_⟩, fun hh => hh.1⟩)
      rintro ⟨rfl, rfl⟩
      obtain ⟨ref, e, c, hfound, _⟩ := find_of_held h hh
      rw [hf] at hfound
      cases hfound
  | some found =>
      obtain ⟨ref, e⟩ := found
      obtain ⟨hl, c, hc⟩ := h.procedures.live_of_find hf
      have hcs : c.sessionId = s := ho c (by simp [ProcedureTable.calleeOf, hf, hc])
      have hsound := h.procedures.unregister hf hc hcs
      have hu := h.procedures.unregistered hf
      refine ⟨?_, ?_, ?_, fun i ref' hi => ?_, fun ref' e' hl' => ?_⟩
      · simpa [bumpVersion] using h.subscriptions
      · simpa [bumpVersion] using hsound
      · simpa [bumpVersion] using h.subscription_le
      · simp only [bumpVersion, modifySession_procedures, hu.byId] at hi
        split at hi
        · cases hi
        · exact h.registration_le i ref' hi
      · simp only [bumpVersion, modifySession_procedures] at hl'
        rcases (ProcedureTable.live_unregister hl hu _ _).mp hl' with ⟨rfl, rfl, _⟩ | ⟨_, hl₀⟩
        · rw [ProcedureTable.removeCallee_registrationId]
          exact h.entry_le ref' e hl
        · exact h.entry_le ref' e' hl₀

theorem holdsRegistration_unregisterProcedure {ids : WampIdAllocatorRegistry}
    {realm : RealmRecord} (h : realm.Sound ids) (s id s' i : Nat) :
    (realm.unregisterProcedure s id).HoldsRegistration s' i ↔
      realm.HoldsRegistration s' i ∧ ¬ (s' = s ∧ i = id) := by
  unfold RealmRecord.unregisterProcedure
  cases hf : realm.procedures.findProcedureByRegistrationId id with
  | none =>
      refine ⟨fun hh => ⟨hh, ?_⟩, fun hh => hh.1⟩
      rintro ⟨rfl, rfl⟩
      obtain ⟨ref, e, c, hfound, _⟩ := find_of_held h hh
      rw [hf] at hfound
      cases hfound
  | some found =>
      have := holds_modifySession (·.registrationIds)
        { realm with procedures := realm.procedures.unregister found.1 found.2 id } s s' i
        (·.removeRegistrationId id)
      simp only [HoldsRegistration, bumpVersion]
      rw [this]
      by_cases hss : s' = s
      · subst hss
        simp only [if_true, SessionRecord.removeRegistrationId, get?_erase_unit, true_and]
        constructor
        · rintro ⟨record, h₁, h₂, h₃⟩
          exact ⟨⟨record, h₁, h₂⟩, h₃⟩
        · rintro ⟨⟨record, h₁, h₂⟩, h₃⟩
          exact ⟨record, h₁, h₂, h₃⟩
      · simp [hss]

theorem holdsSubscription_unregisterProcedure (realm : RealmRecord) (s id s' i : Nat) :
    (realm.unregisterProcedure s id).HoldsSubscription s' i ↔ realm.HoldsSubscription s' i := by
  unfold RealmRecord.unregisterProcedure
  split
  · exact Iff.rfl
  · next ref e _ =>
    have := holds_modifySession (·.subscriptionIds)
      { realm with procedures := realm.procedures.unregister ref e id } s s' i
      (·.removeRegistrationId id)
    simp only [HoldsSubscription, bumpVersion]
    rw [this]
    by_cases hss : s' = s
    · subst hss
      rw [if_pos rfl]
      rfl
    · rw [if_neg hss]

theorem Sound.unregisterProcedure {ids : WampIdAllocatorRegistry} {realm : RealmRecord}
    (h : realm.Sound ids) {s id : Nat} (ho : realm.OwnedBy s id) :
    (realm.unregisterProcedure s id).Sound ids :=
  (SoundFor.unregisterProcedure h ho).congr
    (fun s' i => (holdsSubscription_unregisterProcedure realm s id s' i).symm)
    (fun s' i => (holdsRegistration_unregisterProcedure h s id s' i).symm)

theorem Sound.openSession {ids : WampIdAllocatorRegistry} {realm : RealmRecord}
    (h : realm.Sound ids) {session : SessionRecord}
    (hfresh : realm.sessions.get? session.id = none) :
    ({ realm with sessions := realm.sessions.insert session.id session.opened } :
      RealmRecord).Sound ids := by
  have key : ∀ (get : SessionRecord → LinkedMap Nat Unit), get session.opened = .empty →
      ∀ s i, (∃ record, realm.sessions.get? s = some record ∧ (get record).get? i = some ()) ↔
        ∃ record, (realm.sessions.insert session.id session.opened).get? s = some record ∧
          (get record).get? i = some () := by
    intro get hempty s i
    rw [SplayMap.get?_insert]
    by_cases hs : s = session.id
    · subst hs
      simp [hfresh, hempty]
    · rw [if_neg hs]
  exact SoundFor.congr ⟨h.subscriptions, h.procedures, h.subscription_le, h.registration_le,
    h.entry_le⟩ (key (·.subscriptionIds) rfl) (key (·.registrationIds) rfl)

/-- An entry of the procedure table is updated by a dispatch. -/
theorem SoundFor.modifyProcedure {ids : WampIdAllocatorRegistry} {realm : RealmRecord}
    {heldS heldR : Nat → Nat → Prop} (h : realm.SoundFor ids heldS heldR) {ref : Ref}
    {e : ProcedureEntry} {f : ProcedureEntry → ProcedureEntry}
    (hr : realm.procedures.heap.get? ref = some e) (hs : ProcedureTable.SameCallees e (f e)) :
    ({ realm with procedures := realm.procedures.modify ref f } : RealmRecord).SoundFor ids heldS
      heldR :=
  ⟨h.subscriptions, h.procedures.modify hr hs, h.subscription_le, h.registration_le,
    fun ref' e' hl => by
      rcases (ProcedureTable.live_modify hr hs.matchPolicy hs.procedure _ _).mp hl with
        ⟨rfl, rfl, hl₀⟩ | ⟨_, hl₀⟩
      · rw [hs.registrationId]
        exact h.entry_le ref' e hl₀
      · exact h.entry_le ref' e' hl₀⟩

theorem Sound.modifyProcedure {ids : WampIdAllocatorRegistry} {realm : RealmRecord}
    (h : realm.Sound ids) {ref : Ref} {e : ProcedureEntry} {f : ProcedureEntry → ProcedureEntry}
    (hr : realm.procedures.heap.get? ref = some e) (hs : ProcedureTable.SameCallees e (f e)) :
    ({ realm with procedures := realm.procedures.modify ref f } : RealmRecord).Sound ids :=
  SoundFor.modifyProcedure h hr hs

end RealmRecord

end Connectanum
