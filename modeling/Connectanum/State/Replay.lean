import Connectanum.Lib.Rosters
import Connectanum.State.Capacity
import Connectanum.State.Snapshot

/-!
# State — Replay

The meta events about subscriptions and registrations, replayed over an empty table, give the
memberships that the snapshot shows.

* `toRoster`: what a meta event tells;
* `Listed`: the entries of a realm with their members;
* `RealmMove.followed`: the events of every change of a realm lead from the entries before it to those
  after it;
* `meta_events_replayed`: over whole runs in which no session subscribes again to what it is subscribed to;
  `subscribed_twice`: a second SUBSCRIBE is announced as if it were the first.
-/

namespace Connectanum

open Collections Machine

inductive MemberKey where
  | subscription (id : Nat)
  | registration (id : Nat)
  deriving DecidableEq

/-- What an event tells about an entry. -/
inductive MemberInfo where
  | topic (topic : String) (matchPolicy : TopicMatchPolicy) (created : Nat)
  | procedure (procedure : String) (policy : InvocationPolicy)
      (matchPolicy : ProcedureMatchPolicy) (created : Nat)

/-- A session is on a subscription once; it may have several registrations of a procedure. -/
def MemberKey.exclusive : MemberKey → Bool
  | .subscription _ => true
  | .registration _ => false

def SubscriptionEntry.info (e : SubscriptionEntry) : MemberInfo :=
  .topic e.topic e.matchPolicy e.created

def ProcedureEntry.info (e : ProcedureEntry) : MemberInfo :=
  .procedure e.procedure e.policy e.matchPolicy e.created

def SubscriptionMetaEvent.toRoster (e : SubscriptionMetaEvent) :
    Option (RosterEvent MemberKey MemberInfo Nat) :=
  match e.type with
  | .created => some (.opened (.subscription e.subscriptionId) (.topic e.topic e.matchPolicy e.created))
  | .subscribed => e.sessionId.map (.joined (.subscription e.subscriptionId))
  | .unsubscribed => e.sessionId.map (.left (.subscription e.subscriptionId))
  | .deleted => some (.closed (.subscription e.subscriptionId))

def RegistrationMetaEvent.toRoster (e : RegistrationMetaEvent) :
    Option (RosterEvent MemberKey MemberInfo Nat) :=
  match e.type with
  | .created =>
      some (.opened (.registration e.registrationId)
        (.procedure e.procedure e.policy e.matchPolicy e.created))
  | .registered => e.sessionId.map (.joined (.registration e.registrationId))
  | .unregistered => e.sessionId.map (.left (.registration e.registrationId))
  | .deleted => some (.closed (.registration e.registrationId))

/-- What an output tells about memberships. -/
def StoreOutput.toRoster : StoreOutput → Option (RosterEvent MemberKey MemberInfo Nat)
  | .subscriptionMeta event => event.toRoster
  | .registrationMeta event => event.toRoster
  | _ => none

namespace RouterStateStore

/-- The sessions of a table's records. -/
def sessionsIn {ν : Type} (f : ν → Nat) (m : SplayMap Nat ν) : Multiset Nat := (m.values.map f : List Nat)

/-- The entries of a realm's tables, with their members. -/
def Listed (subs : SubscriptionTable) (procs : ProcedureTable) :
    MemberKey → MemberInfo → Multiset Nat → Prop
  | .subscription id, info, ms => ∃ ref e, subs.Live ref e ∧ e.id = id ∧
      (info = e.info ∧ ms = sessionsIn (·.sessionId) e.subscribers)
  | .registration id, info, ms => ∃ ref e, procs.Live ref e ∧ e.registrationId = id ∧
      (info = e.info ∧ ms = sessionsIn (·.sessionId) e.callees)

/-! ### Changing one entry -/

section

variable {ν : Type} {f : ν → Nat} {m : SplayMap Nat ν} {k : Nat} {v : ν}

theorem sessionsIn_insert (v : ν) (h : m.get? k = none) :
    sessionsIn f (m.insert k v) = f v ::ₘ sessionsIn f m := by
  have hperm := ((m.perm_insert k v).map Prod.snd).map f
  rw [SplayMap.erase_of_get_none h] at hperm
  exact Multiset.coe_eq_coe.mpr hperm

/-- Only the keys and the sessions of the records count. -/
theorem sessionsIn_congr {m' : SplayMap Nat ν}
    (h : ∀ k s, (∃ v, m'.get? k = some v ∧ f v = s) ↔ ∃ v, m.get? k = some v ∧ f v = s) :
    sessionsIn f m' = sessionsIn f m := by
  have hnodup : ∀ m : SplayMap Nat ν, (m.entries.map fun x => (x.1, f x.2)).Nodup := by
    intro m
    refine List.Nodup.of_map Prod.fst ?_
    rw [List.map_map]
    exact m.nodup
  have hmem : ∀ (m : SplayMap Nat ν) x,
      x ∈ m.entries.map (fun x => (x.1, f x.2)) ↔ ∃ v, m.get? x.1 = some v ∧ f v = x.2 := by
    rintro m ⟨k, s⟩
    rw [List.mem_map]
    constructor
    · rintro ⟨⟨k', v⟩, hmem, heq⟩
      obtain ⟨rfl, rfl⟩ := Prod.mk.inj heq
      exact ⟨v, SplayMap.mem_entries.mp hmem, rfl⟩
    · rintro ⟨v, hv, rfl⟩
      exact ⟨(k, v), SplayMap.mem_entries.mpr hv, rfl⟩
  have hperm := (List.perm_ext_iff_of_nodup (hnodup m') (hnodup m)).mpr fun x => by
    rw [hmem, hmem]
    exact h x.1 x.2
  have hsnd := hperm.map Prod.snd
  rw [List.map_map, List.map_map] at hsnd
  rw [sessionsIn, sessionsIn, SplayMap.values, SplayMap.values, List.map_map, List.map_map]
  exact Multiset.coe_eq_coe.mpr hsnd

theorem sessionsIn_of_get (h : m.get? k = some v) :
    sessionsIn f m = f v ::ₘ sessionsIn f (m.erase k) :=
  Multiset.coe_eq_coe.mpr (((SplayMap.perm_erase h).map Prod.snd).map f)

theorem sessionsIn_erase (h : m.get? k = some v) :
    sessionsIn f (m.erase k) = (sessionsIn f m).erase (f v) := by
  rw [sessionsIn_of_get h, Multiset.erase_cons_head]

theorem mem_sessionsIn (h : m.get? k = some v) : f v ∈ sessionsIn f m := by
  rw [sessionsIn_of_get h]
  exact Multiset.mem_cons_self _ _

theorem isEmpty_iff_sessionsIn : m.isEmpty = true ↔ sessionsIn f m = 0 := by
  rw [sessionsIn, Multiset.coe_eq_zero, SplayMap.values, List.map_eq_nil_iff, List.map_eq_nil_iff,
    SplayMap.isEmpty, List.isEmpty_iff]

end

/-- The entries with an id after one was put at `r` under the condition `b`.  No other entry has its
id. -/
theorem exists_put {E : Type} {live live' : Ref → E → Prop} {idOf : E → Nat} {r : Ref} {e : E}
    {id : Nat} {b : Prop} (hold : ∀ r' e', live r' e' → (idOf e' = id ↔ r' = r))
    (hput : ∀ r' e', live' r' e' ↔ (r' = r ∧ e' = e ∧ b) ∨ (r' ≠ r ∧ live r' e'))
    (hid : idOf e = id) (i : Nat) (P : E → Prop) :
    (∃ r' e', live' r' e' ∧ idOf e' = i ∧ P e') ↔
      (i = id ∧ P e ∧ b) ∨ (i ≠ id ∧ ∃ r' e', live r' e' ∧ idOf e' = i ∧ P e') := by
  subst hid
  constructor
  · rintro ⟨r', e', hl, rfl, hP⟩
    rcases (hput r' e').mp hl with ⟨-, rfl, hb⟩ | ⟨hne, hl⟩
    · exact .inl ⟨rfl, hP, hb⟩
    · exact .inr ⟨fun hid => hne ((hold r' e' hl).mp hid), r', e', hl, rfl, hP⟩
  · rintro (⟨rfl, hP, hb⟩ | ⟨hne, r', e', hl, rfl, hP⟩)
    · exact ⟨r, e, (hput r e).mpr (.inl ⟨rfl, rfl, hb⟩), rfl, hP⟩
    · refine ⟨r', e', (hput r' e').mpr (.inr ⟨fun hr => ?_, hl⟩), rfl, hP⟩
      exact hne ((hold r' e' hl).mpr hr)

/-- A change of the subscriptions. -/
theorem listed_subscriptions {subs subs' : SubscriptionTable} {procs : ProcedureTable} {id : Nat}
    {Q : MemberInfo → Multiset Nat → Prop}
    (h : ∀ i info ms, Listed subs' procs (.subscription i) info ms ↔
      (i = id ∧ Q info ms) ∨ (i ≠ id ∧ Listed subs procs (.subscription i) info ms))
    (k : MemberKey) (info : MemberInfo) (ms : Multiset Nat) :
    Listed subs' procs k info ms ↔
      (k = .subscription id ∧ Q info ms) ∨ (k ≠ .subscription id ∧ Listed subs procs k info ms) := by
  cases k with
  | subscription i =>
      rw [h]
      simp
  | registration i => simp [Listed]

/-- A change of the registrations. -/
theorem listed_registrations {subs : SubscriptionTable} {procs procs' : ProcedureTable} {id : Nat}
    {Q : MemberInfo → Multiset Nat → Prop}
    (h : ∀ i info ms, Listed subs procs' (.registration i) info ms ↔
      (i = id ∧ Q info ms) ∨ (i ≠ id ∧ Listed subs procs (.registration i) info ms))
    (k : MemberKey) (info : MemberInfo) (ms : Multiset Nat) :
    Listed subs procs' k info ms ↔
      (k = .registration id ∧ Q info ms) ∨ (k ≠ .registration id ∧ Listed subs procs k info ms) := by
  cases k with
  | registration i =>
      rw [h]
      simp
  | subscription i => simp [Listed]

/-! ### Subscriptions -/

variable {roster : Roster MemberKey MemberInfo Nat} {subs : SubscriptionTable}
  {procs : ProcedureTable} {held : Nat → Nat → Prop}

/-- An entry has its id for itself. -/
theorem subscription_alone (h : subs.Sound held) {ref : Ref} {entry : SubscriptionEntry}
    (hl : subs.Live ref entry) (r' : Ref) (e' : SubscriptionEntry) (hl' : subs.Live r' e') :
    e'.id = entry.id ↔ r' = ref := by
  constructor
  · exact fun hid => h.ref_unique hl' hl hid
  · rintro rfl
    rw [Option.some.inj (hl'.1.symm.trans hl.1)]

theorem listed_subscription_iff (h : subs.Sound held) {ref : Ref} {entry : SubscriptionEntry}
    (hl : subs.Live ref entry) (info : MemberInfo) (ms : Multiset Nat) :
    Listed subs procs (.subscription entry.id) info ms ↔
      info = entry.info ∧ ms = sessionsIn (·.sessionId) entry.subscribers := by
  constructor
  · rintro ⟨r', e', hl', hid, he⟩
    obtain rfl := (subscription_alone h hl r' e' hl').mp hid
    rwa [Option.some.inj (hl'.1.symm.trans hl.1)] at he
  · exact fun he => ⟨ref, entry, hl, rfl, he⟩

/-- Each record is kept under the session it names. -/
def Own (e : SubscriptionEntry) : Prop := ∀ s c, e.subscribers.get? s = some c → c.sessionId = s

theorem Own.mem_iff {e : SubscriptionEntry} (h : Own e) {s : Nat} :
    s ∈ sessionsIn (·.sessionId) e.subscribers ↔ ∃ c, e.subscribers.get? s = some c := by
  constructor
  · intro hs
    obtain ⟨c, hc, rfl⟩ := List.mem_map.mp (Multiset.mem_coe.mp hs)
    obtain ⟨s, hs⟩ := SplayMap.mem_values.mp hc
    exact ⟨c, by rw [h s c hs]; exact hs⟩
  · rintro ⟨c, hc⟩
    have hmem := mem_sessionsIn (f := (·.sessionId)) hc
    rwa [h s c hc] at hmem

/-- Somebody subscribes to an entry. -/
theorem follow_joined (h : subs.Sound held) (hm : roster.Mirrors (Listed subs procs)) {ref : Ref}
    {entry : SubscriptionEntry} (hl : subs.Live ref entry) (hown : Own entry)
    {record : SubscriberRecord} (hnew : entry.subscribers.get? record.sessionId = none) :
    ∃ roster', Run Roster.apply (Roster.Allows MemberKey.exclusive) roster
        [.joined (.subscription entry.id) record.sessionId] roster' ∧
      roster'.Mirrors (Listed (subs.addSubscriber ref record) procs) := by
  have hin : Listed subs procs (.subscription entry.id) entry.info
      (sessionsIn (·.sessionId) entry.subscribers) := ⟨ref, entry, hl, rfl, rfl, rfl⟩
  refine hm.join hin (fun _ hmem => ?_) (listed_subscriptions fun i info ms => ?_)
  · obtain ⟨c, hc⟩ := hown.mem_iff.mp hmem
    rw [hnew] at hc
    cases hc
  · refine (exists_put (subscription_alone h hl)
      (fun _ _ => SubscriptionTable.live_addSubscriber hl.1) rfl i fun e =>
        info = e.info ∧ ms = sessionsIn (·.sessionId) e.subscribers).trans ?_
    rw [SubscriptionEntry.addSubscriber, sessionsIn_insert record hnew]
    simp only [hl, and_true]
    rfl

/-- Somebody subscribes to what nobody was subscribed to. -/
theorem follow_founded (h : subs.Sound held) (hm : roster.Mirrors (Listed subs procs))
    {topic : String} {p : TopicMatchPolicy} (hnone : subs.subscriptionAtlas.get? p topic = none)
    {fresh : Nat} (hle : ∀ id ref, subs.subscriptionsById.get? id = some ref → id < fresh) (now : Nat)
    (record : SubscriberRecord) :
    ∃ roster', Run Roster.apply (Roster.Allows MemberKey.exclusive) roster
        [.opened (.subscription fresh) (.topic topic p now),
          .joined (.subscription fresh) record.sessionId] roster' ∧
      roster'.Mirrors (Listed ((subs.findOrCreateSubscription topic p fresh now).1.addSubscriber
        subs.heap.next record) procs) := by
  have hlive := SubscriptionTable.live_create hnone fresh now
  have hfresh : ∀ r' e', subs.Live r' e' → e'.id ≠ fresh := by
    intro r' e' hl hid
    exact Nat.lt_irrefl _ (hle fresh r' (hid ▸ h.byId_of_live hl))
  have hold : ∀ r' e', subs.Live r' e' → r' ≠ subs.heap.next :=
    fun r' e' hl => Nat.ne_of_lt (Heap.lt_next hl.1)
  refine hm.found (fun i m => ?_) (listed_subscriptions fun i info ms => ?_)
  · rintro ⟨r', e', hl, hid, -⟩
    exact hfresh r' e' hl hid
  · have hnew := (hlive subs.heap.next _).mpr (.inl ⟨rfl, rfl⟩)
    have hput : ∀ r' e', ((subs.findOrCreateSubscription topic p fresh now).1.addSubscriber
        subs.heap.next record).Live r' e' ↔
        (r' = subs.heap.next ∧ e' = SubscriptionEntry.addSubscriber
          { id := fresh, topic := topic, matchPolicy := p, created := now } record ∧ True) ∨
        (r' ≠ subs.heap.next ∧ subs.Live r' e') := by
      intro r' e'
      rw [SubscriptionTable.live_addSubscriber hnew.1, hlive, hlive]
      by_cases hr : r' = subs.heap.next
      · simp [hr]
      · simp [hr]
    have halone : ∀ r' e', subs.Live r' e' → (e'.id = fresh ↔ r' = subs.heap.next) :=
      fun r' e' hl => ⟨fun hid => absurd hid (hfresh r' e' hl), fun hr => absurd hr (hold r' e' hl)⟩
    refine (exists_put halone hput rfl i fun e =>
      info = e.info ∧ ms = sessionsIn (·.sessionId) e.subscribers).trans ?_
    · rw [SubscriptionEntry.addSubscriber, sessionsIn_insert record rfl]
      simp only [and_true]
      rfl

/-- Giving up a subscription that one does not have changes nothing. -/
theorem removeSubscriber_absent {entry : SubscriptionEntry} {s : Nat}
    (h : entry.subscribers.get? s = none) : entry.removeSubscriber s = entry := by
  rw [SubscriptionEntry.removeSubscriber, SplayMap.erase_of_get_none h]

/-- The events of an unsubscription, replayed. -/
theorem toRoster_unsubscribe (u : String) {entry : SubscriptionEntry} {s : Nat}
    {c : SubscriberRecord} (hc : entry.subscribers.get? s = some c) :
    (unsubscribeEvents u entry s).filterMap StoreOutput.toRoster =
      .left (.subscription entry.id) s ::
        if (entry.removeSubscriber s).subscribers.isEmpty then [.closed (.subscription entry.id)]
        else [] := by
  rw [unsubscribeEvents, hc]
  rw [if_pos Option.isSome_some]
  split <;> rfl

/-- Somebody gives up a subscription. -/
theorem follow_unsubscribed (h : subs.Sound held) (hm : roster.Mirrors (Listed subs procs))
    {ref : Ref} {entry : SubscriptionEntry} (hl : subs.Live ref entry) (hown : Own entry)
    (u : String) (s : Nat) :
    ∃ roster', Run Roster.apply (Roster.Allows MemberKey.exclusive) roster
        ((unsubscribeEvents u entry s).filterMap StoreOutput.toRoster) roster' ∧
      roster'.Mirrors (Listed (subs.unsubscribe ref entry s) procs) := by
  have hlisted : ∀ k info ms, Listed (subs.unsubscribe ref entry s) procs k info ms ↔
      (k = .subscription entry.id ∧ (info = entry.info ∧
        ms = sessionsIn (·.sessionId) (entry.removeSubscriber s).subscribers) ∧
          (entry.removeSubscriber s).subscribers.isEmpty = false) ∨
      (k ≠ .subscription entry.id ∧ Listed subs procs k info ms) :=
    listed_subscriptions fun i info ms =>
      exists_put (subscription_alone h hl) (SubscriptionTable.live_unsubscribe hl s) rfl i
        fun e => info = e.info ∧ ms = sessionsIn (·.sessionId) e.subscribers
  have hin : Listed subs procs (.subscription entry.id) entry.info
      (sessionsIn (·.sessionId) entry.subscribers) := ⟨ref, entry, hl, rfl, rfl, rfl⟩
  cases hc : entry.subscribers.get? s with
  | none =>
      -- the entry stays as it is, and it has subscribers
      have hsome : entry.subscribers.isEmpty = false := by
        obtain ⟨s', c', hc'⟩ := h.inhabited ref entry hl
        rw [Bool.eq_false_iff]
        intro hempty
        rw [SplayMap.isEmpty_iff.mp hempty] at hc'
        cases hc'
      refine ⟨roster, ?_, hm.congr fun k info ms => ?_⟩
      · rw [unsubscribeEvents, hc, removeSubscriber_absent hc, hsome]
        exact .nil roster
      · rw [hlisted, removeSubscriber_absent hc]
        by_cases hk : k = .subscription entry.id
        · subst hk
          rw [listed_subscription_iff h hl]
          simp [hsome]
        · simp [hk]
  | some c =>
      have hs := hown s c hc
      have hrest : sessionsIn (·.sessionId) (entry.removeSubscriber s).subscribers =
          (sessionsIn (·.sessionId) entry.subscribers).erase s := by
        rw [SubscriptionEntry.removeSubscriber, sessionsIn_erase hc, hs]
      rw [toRoster_unsubscribe u hc]
      rw [hrest] at hlisted
      refine hm.depart hin (hown.mem_iff.mpr ⟨c, hc⟩) ?_ hlisted
      rw [← hrest]
      exact isEmpty_iff_sessionsIn

/-! ### Registrations -/

/-- An entry has its id for itself. -/
def Alone (procs : ProcedureTable) : Prop := ∀ ref ref' e e', procs.heap.get? ref = some e →
  procs.heap.get? ref' = some e' → e.registrationId = e'.registrationId → ref = ref'

theorem Alone.id_iff (h : Alone procs) {ref : Ref} {entry : ProcedureEntry}
    (hl : procs.Live ref entry) (r' : Ref) (e' : ProcedureEntry) (hl' : procs.Live r' e') :
    e'.registrationId = entry.registrationId ↔ r' = ref := by
  constructor
  · exact fun hid => h r' ref e' entry hl'.1 hl.1 hid
  · rintro rfl
    rw [Option.some.inj (hl'.1.symm.trans hl.1)]

/-- Entries may change in all but their id. -/
theorem Alone.of_ids {procs' : ProcedureTable} (h : Alone procs)
    (hid : ∀ ref e', procs'.heap.get? ref = some e' →
      ∃ e, procs.heap.get? ref = some e ∧ e'.registrationId = e.registrationId) : Alone procs' := by
  intro ref₁ ref₂ e₁ e₂ h₁ h₂ heq
  obtain ⟨e₁', h₁', hid₁⟩ := hid ref₁ e₁ h₁
  obtain ⟨e₂', h₂', hid₂⟩ := hid ref₂ e₂ h₂
  exact h ref₁ ref₂ e₁' e₂' h₁' h₂' (hid₁ ▸ hid₂ ▸ heq)

/-- Somebody registers under an entry. -/
theorem follow_registered (h : Alone procs) (hm : roster.Mirrors (Listed subs procs)) {ref : Ref}
    {entry : ProcedureEntry} (hl : procs.Live ref entry) {record : RegistrationRecord}
    (hnew : entry.callees.get? record.registrationId = none) :
    ∃ roster', Run Roster.apply (Roster.Allows MemberKey.exclusive) roster
        [.joined (.registration entry.registrationId) record.sessionId] roster' ∧
      roster'.Mirrors (Listed subs (procs.addRegistration ref record)) := by
  have hin : Listed subs procs (.registration entry.registrationId) entry.info
      (sessionsIn (·.sessionId) entry.callees) := ⟨ref, entry, hl, rfl, rfl, rfl⟩
  refine hm.join hin nofun (listed_registrations fun i info ms => ?_)
  refine (exists_put (h.id_iff hl) (ProcedureTable.live_addRegistration hl.1 record) rfl i fun e =>
    info = e.info ∧ ms = sessionsIn (·.sessionId) e.callees).trans ?_
  rw [ProcedureEntry.addCallee, sessionsIn_insert record hnew]
  simp only [hl, and_true]
  rfl

/-- Somebody registers a procedure that was not registered. -/
theorem follow_opened (hm : roster.Mirrors (Listed subs procs)) {procedure : String}
    {p : ProcedureMatchPolicy} (hnone : procs.procedureAtlas.patterns.get? p procedure = none)
    {fresh : Nat} (hfresh : ∀ r' e', procs.Live r' e' → e'.registrationId ≠ fresh)
    (policy : InvocationPolicy) (now : Nat) (record : RegistrationRecord) :
    ∃ roster', Run Roster.apply (Roster.Allows MemberKey.exclusive) roster
        [.opened (.registration fresh) (.procedure procedure policy p now),
          .joined (.registration fresh) record.sessionId] roster' ∧
      roster'.Mirrors (Listed subs ((procs.findOrCreateProcedure procedure fresh policy p
        now).1.addRegistration procs.heap.next record)) := by
  have hlive := ProcedureTable.live_create hnone policy fresh now
  have hold : ∀ r' e', procs.Live r' e' → r' ≠ procs.heap.next :=
    fun r' e' hl => Nat.ne_of_lt (Heap.lt_next hl.1)
  refine hm.found (fun i m => ?_) (listed_registrations fun i info ms => ?_)
  · rintro ⟨r', e', hl, hid, -⟩
    exact hfresh r' e' hl hid
  · have hnew := (hlive procs.heap.next _).mpr (.inl ⟨rfl, rfl⟩)
    have hput : ∀ r' e', ((procs.findOrCreateProcedure procedure fresh policy p
        now).1.addRegistration procs.heap.next record).Live r' e' ↔
        (r' = procs.heap.next ∧ e' = ProcedureEntry.addCallee
          { registrationId := fresh, procedure := procedure, matchPolicy := p, policy := policy,
            created := now } record ∧ True) ∨
        (r' ≠ procs.heap.next ∧ procs.Live r' e') := by
      intro r' e'
      rw [ProcedureTable.live_addRegistration hnew.1, hlive, hlive]
      by_cases hr : r' = procs.heap.next
      · simp [hr]
      · simp [hr]
    have halone : ∀ r' e', procs.Live r' e' →
        (e'.registrationId = fresh ↔ r' = procs.heap.next) :=
      fun r' e' hl => ⟨fun hid => absurd hid (hfresh r' e' hl), fun hr => absurd hr (hold r' e' hl)⟩
    refine (exists_put halone hput rfl i fun e =>
      info = e.info ∧ ms = sessionsIn (·.sessionId) e.callees).trans ?_
    rw [ProcedureEntry.addCallee, sessionsIn_insert record rfl]
    simp only [and_true]
    rfl

/-- The events of an unregistration, replayed. -/
theorem toRoster_unregister (u : String) {entry : ProcedureEntry} {s id : Nat}
    {c : RegistrationRecord} (hc : entry.callees.get? id = some c) :
    (unregisterEvents u entry s id).filterMap StoreOutput.toRoster =
      .left (.registration entry.registrationId) s ::
        if (entry.removeCallee id).callees.isEmpty then
          [.closed (.registration entry.registrationId)]
        else [] := by
  rw [unregisterEvents, hc]
  dsimp only
  split <;> rfl

theorem removeCallee_callees {entry : ProcedureEntry} {id : Nat} {c : RegistrationRecord}
    (hc : entry.callees.get? id = some c) :
    (entry.removeCallee id).callees = entry.callees.erase id ∧
      (entry.removeCallee id).info = entry.info := by
  rw [ProcedureEntry.removeCallee, hc]
  exact ⟨rfl, rfl⟩

/-- Somebody gives up a registration. -/
theorem follow_unregistered (h : procs.Sound held) (ha : Alone procs)
    (hm : roster.Mirrors (Listed subs procs)) {ref : Ref} {entry : ProcedureEntry} {id : Nat}
    {c : RegistrationRecord} (hf : procs.findProcedureByRegistrationId id = some (ref, entry))
    (hc : entry.callees.get? id = some c) (u : String) :
    ∃ roster', Run Roster.apply (Roster.Allows MemberKey.exclusive) roster
        ((unregisterEvents u entry c.sessionId id).filterMap StoreOutput.toRoster) roster' ∧
      roster'.Mirrors (Listed subs (procs.unregister ref entry id)) := by
  obtain ⟨hl, -⟩ := h.live_of_find hf
  obtain ⟨hcallees, hinfo⟩ := removeCallee_callees hc
  have hrest : sessionsIn (·.sessionId) (entry.removeCallee id).callees =
      (sessionsIn (·.sessionId) entry.callees).erase c.sessionId := by
    rw [hcallees, sessionsIn_erase hc]
  have hin : Listed subs procs (.registration entry.registrationId) entry.info
      (sessionsIn (·.sessionId) entry.callees) := ⟨ref, entry, hl, rfl, rfl, rfl⟩
  rw [toRoster_unregister u hc]
  refine hm.depart hin (mem_sessionsIn hc) (hrest ▸ isEmpty_iff_sessionsIn)
    (listed_registrations fun i info ms => ?_)
  refine (exists_put (ha.id_iff hl) (ProcedureTable.live_unregister hl (h.unregistered hf))
    (ProcedureTable.removeCallee_registrationId entry id) i fun e =>
      info = e.info ∧ ms = sessionsIn (·.sessionId) e.callees).trans ?_
  rw [hinfo, hrest]
  rfl

/-- A call changes no membership. -/
theorem listed_modify {ref : Ref} {f : ProcedureEntry → ProcedureEntry} {entry : ProcedureEntry}
    (hr : procs.heap.get? ref = some entry) (hs : ProcedureTable.SameCallees entry (f entry))
    (k : MemberKey) (info : MemberInfo) (ms : Multiset Nat) :
    Listed subs (procs.modify ref f) k info ms ↔ Listed subs procs k info ms := by
  have hinfo : (f entry).info = entry.info := by
    rw [ProcedureEntry.info, ProcedureEntry.info, hs.procedure, hs.policy, hs.matchPolicy, hs.created]
  have hsessions : sessionsIn (·.sessionId) (f entry).callees =
      sessionsIn (·.sessionId) entry.callees := by
    refine sessionsIn_congr fun k s => ?_
    constructor
    · rintro ⟨c', hc', rfl⟩
      obtain ⟨c, hc⟩ := (hs.callee_iff k).mp ⟨c', hc'⟩
      exact ⟨c, hc, (hs.callee k c c' hc hc').2.1.symm⟩
    · rintro ⟨c, hc, rfl⟩
      obtain ⟨c', hc'⟩ := (hs.callee_iff k).mpr ⟨c, hc⟩
      exact ⟨c', hc', (hs.callee k c c' hc hc').2.1⟩
  cases k with
  | subscription i => exact Iff.rfl
  | registration i =>
      have hlive := ProcedureTable.live_modify hr hs.matchPolicy hs.procedure
      constructor
      · rintro ⟨r', e', hl', rfl, rfl, rfl⟩
        rcases (hlive r' e').mp hl' with ⟨rfl, rfl, hl⟩ | ⟨-, hl⟩
        · exact ⟨r', entry, hl, hs.registrationId.symm, hinfo, hsessions⟩
        · exact ⟨r', e', hl, rfl, rfl, rfl⟩
      · rintro ⟨r', e', hl, rfl, rfl, rfl⟩
        by_cases hrr : r' = ref
        · subst hrr
          obtain rfl := Option.some.inj (hl.1.symm.trans hr)
          exact ⟨r', f e', (hlive r' _).mpr (.inl ⟨rfl, rfl, hl⟩), hs.registrationId, hinfo.symm,
            hsessions.symm⟩
        · exact ⟨r', e', (hlive r' e').mpr (.inr ⟨hrr, hl⟩), rfl, rfl, rfl⟩

/-- The callees that the registration ids name after a call. -/
theorem calleeOf_modify {ref : Ref} {f : ProcedureEntry → ProcedureEntry} {entry : ProcedureEntry}
    (hr : procs.heap.get? ref = some entry) (hs : ProcedureTable.SameCallees entry (f entry))
    {id : Nat} {c' : RegistrationRecord} (h : (procs.modify ref f).calleeOf id = some c') :
    ∃ c, procs.calleeOf id = some c ∧ c.sessionId = c'.sessionId := by
  simp only [ProcedureTable.calleeOf, ProcedureTable.findProcedureByRegistrationId,
    Option.bind_eq_some_iff, Option.map_eq_some_iff] at h ⊢
  obtain ⟨x, ⟨r', hr', e', he', rfl⟩, hc'⟩ := h
  rw [ProcedureTable.heap_modify, hr] at he'
  split at he'
  · next hrr =>
    subst hrr
    obtain rfl := Option.some.inj he'
    obtain ⟨c, hc⟩ := (hs.callee_iff id).mp ⟨c', hc'⟩
    exact ⟨c, ⟨_, ⟨r', hr', entry, hr, rfl⟩, hc⟩, (hs.callee id c c' hc hc').2.1.symm⟩
  · exact ⟨c', ⟨_, ⟨r', hr', e', he', rfl⟩, hc'⟩, rfl⟩

/-! ### The changes of a realm -/

/-- What holds of a realm's tables while memberships are given up. -/
structure Orderly (st : RouterStateStore) (u : String) (r : RealmRecord) : Prop where
  sound : ∃ heldS heldR, r.SoundFor st.ids heldS heldR
  alone : Alone r.procedures
  /-- No registration got another owner. -/
  callees : ∀ id c, r.procedures.calleeOf id = some c →
    ∃ c₀, (st.realmOf u).procedures.calleeOf id = some c₀ ∧ c₀.sessionId = c.sessionId

/-- The events up to now gave `roster`, and it shows the realm `r`. -/
structure Follows (st : RouterStateStore) (input : StoreInput) (u : String)
    (roster : Roster MemberKey MemberInfo Nat) (r : RealmRecord) : Prop where
  mirrors : roster.Mirrors (Listed r.subscriptions r.procedures)
  own : ∀ ref e, r.subscriptions.heap.get? ref = some e → Own e
  orderly : input.isLeave = true → Orderly st u r

/-- What the events tell leads from one roster to the other. -/
def Told (roster : Roster MemberKey MemberInfo Nat) (events : List StoreOutput)
    (roster' : Roster MemberKey MemberInfo Nat) : Prop :=
  Run Roster.apply (Roster.Allows MemberKey.exclusive) roster
    (events.filterMap StoreOutput.toRoster) roster'

theorem Told.append {roster roster' roster'' : Roster MemberKey MemberInfo Nat}
    {events events' : List StoreOutput} (h : Told roster events roster')
    (h' : Told roster' events' roster'') : Told roster (events ++ events') roster'' := by
  rw [Told, List.filterMap_append]
  exact Run.append h h'

section

variable {st : RouterStateStore} {input : StoreInput} {u : String} {r r' : RealmRecord}

theorem Orderly.of_tables (h : Orderly st u r) (hs : r'.subscriptions = r.subscriptions)
    (hp : r'.procedures = r.procedures) : Orderly st u r' := by
  obtain ⟨heldS, heldR, hsound⟩ := h.sound
  refine ⟨⟨heldS, heldR, hsound.of_same hs hp (Nat.le_refl _) (Nat.le_refl _)⟩, ?_, ?_⟩
  · rw [hp]
    exact h.alone
  · rw [hp]
    exact h.callees

/-- Only the two tables count. -/
theorem Follows.of_tables (h : Follows st input u roster r)
    (hs : r'.subscriptions = r.subscriptions) (hp : r'.procedures = r.procedures) :
    Follows st input u roster r' := by
  refine ⟨?_, ?_, fun hi => (h.orderly hi).of_tables hs hp⟩
  · rw [hs, hp]
    exact h.mirrors
  · rw [hs]
    exact h.own

theorem Follows.modify (h : Follows st input u roster r) {ref : Ref}
    {f : ProcedureEntry → ProcedureEntry} {entry : ProcedureEntry}
    (hr : r.procedures.heap.get? ref = some entry)
    (hs : ProcedureTable.SameCallees entry (f entry)) :
    Follows st input u roster { r with procedures := r.procedures.modify ref f } := by
  refine ⟨h.mirrors.congr (listed_modify hr hs), h.own, fun hi => ?_⟩
  obtain ⟨⟨heldS, heldR, hsound⟩, halone, hcallees⟩ := h.orderly hi
  refine ⟨⟨heldS, heldR, hsound.modifyProcedure hr hs⟩, ?_, ?_⟩
  · have hid : ∀ ref₁ e₁, (r.procedures.modify ref f).heap.get? ref₁ = some e₁ →
        ∃ e, r.procedures.heap.get? ref₁ = some e ∧ e₁.registrationId = e.registrationId := by
      intro ref₁ e₁ he₁
      rw [ProcedureTable.heap_modify, hr] at he₁
      split at he₁
      · next hrr =>
        obtain rfl := Option.some.inj he₁
        exact ⟨entry, hrr ▸ hr, hs.registrationId⟩
      · exact ⟨e₁, he₁, rfl⟩
    exact halone.of_ids hid
  · intro id c' hc'
    obtain ⟨c, hc, hcs⟩ := calleeOf_modify hr hs hc'
    obtain ⟨c₀, hc₀, hcs₀⟩ := hcallees id c hc
    exact ⟨c₀, hc₀, hcs₀.trans hcs⟩

theorem Follows.unsubscribed (h : Follows st input u roster r) (hi : input.isLeave = true) {id : Nat}
    {ref : Ref} {entry : SubscriptionEntry}
    (hf : r.subscriptions.findSubscriptionById id = some (ref, entry)) (s : Nat) :
    ∃ roster', Told roster (unsubscribeEvents u entry s) roster' ∧
      Follows st input u roster' (r.removeSubscription s id) := by
  obtain ⟨⟨heldS, heldR, hsound⟩, halone, hcallees⟩ := h.orderly hi
  obtain ⟨hl, -⟩ := hsound.subscriptions.live_of_findSubscriptionById hf
  obtain ⟨roster', htold, hm⟩ := follow_unsubscribed hsound.subscriptions h.mirrors hl
    (h.own ref entry hl.1) u s
  have hprocs := RealmRecord.removeSubscription_procedures r s id
  have hsubs : (r.removeSubscription s id).subscriptions = r.subscriptions.unsubscribe ref entry s := by
    rw [RealmRecord.removeSubscription, hf]
    simp [RealmRecord.bumpVersion]
  refine ⟨roster', htold, ?_, fun ref' e' he' => ?_, fun _ => ⟨?_, ?_, ?_⟩⟩
  · rw [hsubs, hprocs]
    exact hm
  · rw [hsubs, SubscriptionTable.heap_unsubscribe, SubscriptionTable.heap_removeSubscriber] at he'
    split at he'
    · obtain ⟨e, he, rfl⟩ := Option.map_eq_some_iff.mp he'
      intro s' c hc
      rw [SubscriptionEntry.removeSubscriber, SplayMap.get?_erase] at hc
      split at hc
      · cases hc
      · exact h.own ref e he s' c hc
    · exact h.own ref' e' he'
  · exact ⟨_, _, hsound.removeSubscription s id⟩
  · rw [hprocs]
    exact halone
  · rw [hprocs]
    exact hcallees

theorem Follows.unregistered (h : Follows st input u roster r) (hi : input.isLeave = true)
    {s id : Nat} (howned : (st.realmOf u).OwnedBy s id) {ref : Ref} {entry : ProcedureEntry}
    (hf : r.procedures.findProcedureByRegistrationId id = some (ref, entry)) :
    ∃ roster', Told roster (unregisterEvents u entry s id) roster' ∧
      Follows st input u roster' (r.unregisterProcedure s id) := by
  obtain ⟨⟨heldS, heldR, hsound⟩, halone, hcallees⟩ := h.orderly hi
  obtain ⟨hl, c, hc⟩ := hsound.procedures.live_of_find hf
  have howned' : r.OwnedBy s id := by
    intro c hc
    obtain ⟨c₀, hc₀, hcs⟩ := hcallees id c hc
    exact hcs.symm.trans (howned c₀ hc₀)
  have hcs : c.sessionId = s := howned' c (by simp [ProcedureTable.calleeOf, hf, hc])
  obtain ⟨roster', htold, hm⟩ :=
    follow_unregistered hsound.procedures halone h.mirrors hf hc u
  rw [hcs] at htold
  have hsubs := RealmRecord.unregisterProcedure_subscriptions r s id
  have hprocs : (r.unregisterProcedure s id).procedures = r.procedures.unregister ref entry id := by
    rw [RealmRecord.unregisterProcedure, hf]
    simp [RealmRecord.bumpVersion]
  refine ⟨roster', htold, ?_, ?_, fun _ => ⟨⟨_, _, hsound.unregisterProcedure howned'⟩, ?_, ?_⟩⟩
  · rw [hsubs, hprocs]
    exact hm
  · rw [hsubs]
    exact h.own
  · rw [hprocs]
    have hid : ∀ ref₁ e₁, (r.procedures.unregister ref entry id).heap.get? ref₁ = some e₁ →
        ∃ e, r.procedures.heap.get? ref₁ = some e ∧ e₁.registrationId = e.registrationId := by
      intro ref₁ e₁ he₁
      rw [(hsound.procedures.unregistered hf).heap] at he₁
      split at he₁
      · next hrr =>
        obtain rfl := Option.some.inj he₁
        exact ⟨entry, hrr ▸ hl.1, ProcedureTable.removeCallee_registrationId entry id⟩
      · exact ⟨e₁, he₁, rfl⟩
    exact halone.of_ids hid
  · rw [hprocs]
    intro i c' hc'
    rw [ProcedureTable.calleeOf_unregister hsound.procedures hf] at hc'
    split at hc'
    · cases hc'
    · exact hcallees i c' hc'

/-- The records of the entries after a subscription. -/
theorem own_addSubscriber {subs : SubscriptionTable}
    (h : ∀ ref e, subs.heap.get? ref = some e → Own e) (ref : Ref) (record : SubscriberRecord)
    (ref' : Ref) (e' : SubscriptionEntry)
    (he' : (subs.addSubscriber ref record).heap.get? ref' = some e') : Own e' := by
  rw [SubscriptionTable.heap_addSubscriber] at he'
  split at he'
  · obtain ⟨e, he, rfl⟩ := Option.map_eq_some_iff.mp he'
    intro s c hc
    rw [SubscriptionEntry.addSubscriber, SplayMap.get?_insert] at hc
    split at hc
    · next hs => rw [← Option.some.inj hc, hs]
    · exact h ref e he s c hc
  · exact h ref' e' he'

theorem Follows.subscribed (h : Follows st input u roster r) (hi : input.isLeave = false)
    (hsound : r.Sound st.ids) (hx : ¬ st.ids.subscription.Exhausted) {topic : String}
    {p : TopicMatchPolicy} {now : Nat} {table : SubscriptionTable} {ref : Ref}
    {entry : SubscriptionEntry}
    (hf : r.subscriptions.findOrCreateSubscription topic p st.ids.subscription.nextId now =
      (table, ref))
    (he : table.heap.get? ref = some entry) (record : SubscriberRecord)
    (hanew : ∀ ref e, r.subscriptions.Live ref e → e.topic = topic → e.matchPolicy = p →
      e.subscribers.get? record.sessionId = none)
    (hs : r'.subscriptions = table.addSubscriber ref record) (hp : r'.procedures = r.procedures) :
    ∃ roster', Told roster (subscribeEvents u entry record.sessionId) roster' ∧
      Follows st input u roster' r' := by
  have hend : ∀ roster', roster'.Mirrors (Listed (table.addSubscriber ref record) r.procedures) →
      (∀ ref e, table.heap.get? ref = some e → Own e) → Follows st input u roster' r' := by
    intro roster' hm hown
    refine ⟨?_, ?_, fun hi' => absurd (hi.symm.trans hi') (by simp)⟩
    · rw [hs, hp]
      exact hm
    · rw [hs]
      exact own_addSubscriber hown ref record
  rw [SubscriptionTable.findOrCreateSubscription] at hf
  cases hatlas : r.subscriptions.subscriptionAtlas.get? p topic with
  | some found =>
      rw [hatlas] at hf
      obtain ⟨rfl, rfl⟩ := Prod.mk.inj hf
      obtain ⟨e, he', hpol, htop⟩ := hsound.subscriptions.atlas_own p topic found hatlas
      obtain rfl := Option.some.inj (he.symm.trans he')
      have hl : r.subscriptions.Live found entry := ⟨he, by rw [hpol, htop]; exact hatlas⟩
      have hsome := hsound.integrity.subscribers_inhabited found entry hl
      obtain ⟨roster', hrun, hm⟩ := follow_joined hsound.subscriptions h.mirrors hl
        (h.own found entry he) (hanew found entry hl htop hpol)
      refine ⟨roster', ?_, hend roster' hm h.own⟩
      rw [Told, subscribeEvents, hsome]
      exact hrun
  | none =>
      have hle : ∀ id ref, r.subscriptions.subscriptionsById.get? id = some ref →
          id < st.ids.subscription.nextId := by
        intro id ref hid
        rw [WampIdGenerator.nextId_of_not_exhausted hx]
        exact Nat.lt_succ_of_le (hsound.subscription_le id ref hid)
      obtain ⟨roster', hrun, hm⟩ :=
        follow_founded hsound.subscriptions h.mirrors hatlas hle now record
      rw [SubscriptionTable.findOrCreateSubscription, hatlas] at hm
      rw [hatlas] at hf
      obtain ⟨rfl, rfl⟩ := Prod.mk.inj hf
      rw [Heap.get?_alloc, if_pos rfl] at he
      obtain rfl := Option.some.inj he
      refine ⟨roster', hrun, hend roster' hm fun ref' e' he' => ?_⟩
      rw [Heap.get?_alloc] at he'
      split at he'
      · obtain rfl := Option.some.inj he'
        rintro - - ⟨⟩
      · exact h.own ref' e' he'

theorem Follows.registered (h : Follows st input u roster r) (hi : input.isLeave = false)
    (hsound : r.Sound st.ids) (halone : Alone r.procedures)
    (hx : ¬ st.ids.registration.Exhausted) {procedure : String} {policy : InvocationPolicy}
    {p : ProcedureMatchPolicy} {now : Nat} {table : ProcedureTable} {ref : Ref}
    {entry : ProcedureEntry} (record : RegistrationRecord)
    (hid : record.registrationId = st.ids.registration.nextId)
    (hf : r.procedures.findOrCreateProcedure procedure st.ids.registration.nextId policy p now =
      (table, ref))
    (he : table.heap.get? ref = some entry) (details : Dict)
    (hs : r'.subscriptions = r.subscriptions) (hp : r'.procedures = table.addRegistration ref record) :
    ∃ roster', Told roster (registerEvents u entry details record.sessionId) roster' ∧
      Follows st input u roster' r' := by
  have hend : ∀ roster', roster'.Mirrors (Listed r.subscriptions (table.addRegistration ref record)) →
      Follows st input u roster' r' := by
    intro roster' hm
    refine ⟨?_, ?_, fun hi' => absurd (hi.symm.trans hi') (by simp)⟩
    · rw [hs, hp]
      exact hm
    · rw [hs]
      exact h.own
  have hunused : r.procedures.Unused st.ids.registration.nextId := by
    refine RealmRecord.SoundFor.unused hsound ?_
    rw [WampIdGenerator.nextId_of_not_exhausted hx]
    exact Nat.lt_succ_self _
  rw [ProcedureTable.findOrCreateProcedure] at hf
  cases hatlas : r.procedures.procedureAtlas.patterns.get? p procedure with
  | some found =>
      rw [hatlas] at hf
      obtain ⟨rfl, rfl⟩ := Prod.mk.inj hf
      obtain ⟨e, he', hpol, hproc⟩ := hsound.procedures.atlas_own p procedure found hatlas
      obtain rfl := Option.some.inj (he.symm.trans he')
      have hl : r.procedures.Live found entry := ⟨he, by rw [hpol, hproc]; exact hatlas⟩
      have hsome := hsound.integrity.callees_inhabited found entry hl
      have hnew : entry.callees.get? record.registrationId = none := by
        rw [Option.eq_none_iff_forall_ne_some]
        intro c hc
        have hby := hsound.procedures.byId_of_live hl hc
        rw [hid, hunused.1] at hby
        cases hby
      obtain ⟨roster', hrun, hm⟩ := follow_registered halone h.mirrors hl hnew
      refine ⟨roster', ?_, hend roster' hm⟩
      rw [Told, registerEvents, hsome]
      exact hrun
  | none =>
      obtain ⟨roster', hrun, hm⟩ := follow_opened h.mirrors hatlas hunused.2 policy now record
      rw [ProcedureTable.findOrCreateProcedure, hatlas] at hm
      rw [hatlas] at hf
      obtain ⟨rfl, rfl⟩ := Prod.mk.inj hf
      rw [Heap.get?_alloc, if_pos rfl] at he
      obtain rfl := Option.some.inj he
      exact ⟨roster', hrun, hend roster' hm⟩

/-- A SUBSCRIBE comes from a session that is not subscribed to the topic with the policy. -/
def SubscribesAnew (st : RouterStateStore) (x : StoreEnv × StoreInput) : Prop :=
  match x.2 with
  | .command (.subscriptionAdd uri s topic p _ _) =>
      ∀ ref e, (st.realmOf uri).subscriptions.Live ref e → e.topic = topic → e.matchPolicy = p →
        e.subscribers.get? s = none
  | _ => True

theorem Tables.realmOf (h : st.Tables) (u : String) : (st.realmOf u).Sound st.ids := by
  rw [RouterStateStore.realmOf]
  cases hr : st.realms.get? u with
  | none => exact RealmRecord.Sound.initial st.ids u
  | some realm => exact h u realm hr

theorem Budget.alone (h : st.Budget) (u : String) : Alone (st.realmOf u).procedures :=
  fun ref ref' e e' => h.own_id u ref ref' e e'

theorem ownedBy_of_givesUp (ht : st.Tables) {env : StoreEnv} (hl : st.Legal (env, input))
    {s id : Nat} (h : GivesUp st input u s id) : (st.realmOf u).OwnedBy s id := by
  rcases h with rfl | ⟨session, -, hsession, hid⟩
  · intro c hc
    rw [RouterStateStore.realmOf] at hc
    cases hr : st.realms.get? u with
    | none =>
        rw [hr] at hc
        cases hc
    | some realm =>
        rw [hr] at hc
        exact hl realm hr c hc
  · refine RealmRecord.Sound.ownedBy (ht.realmOf u) ⟨session, hsession, ?_⟩
    obtain ⟨x, hx, rfl⟩ := List.mem_map.mp hid
    exact LinkedMap.mem_entries.mp hx

/-- **The events of a change lead from the entries before it to those after it.** -/
theorem RealmMove.followed (ht : st.Tables) (hb : st.Budget) (hleft : st.IdsLeft) {env : StoreEnv}
    (hl : st.Legal (env, input)) (ha : st.SubscribesAnew (env, input))
    {events : List StoreOutput} (h : Follows st input u roster r)
    (move : RealmMove st input u r events r') :
    ∃ roster', Told roster events roster' ∧ Follows st input u roster' r' := by
  have hstays : ∀ r', r'.subscriptions = r.subscriptions → r'.procedures = r.procedures →
      ∃ roster', Told roster [] roster' ∧ Follows st input u roster' r' :=
    fun r' hs hp => ⟨roster, .nil roster, h.of_tables hs hp⟩
  have hmodify : ∀ ref (f : ProcedureEntry → ProcedureEntry),
      (∀ e, r.procedures.heap.get? ref = some e → ProcedureTable.SameCallees e (f e)) →
      Follows st input u roster { r with procedures := r.procedures.modify ref f } := by
    intro ref f hsame
    cases hr : r.procedures.heap.get? ref with
    | none =>
        refine h.of_tables rfl ?_
        rw [ProcedureTable.modify, Heap.modify_of_none hr]
    | some entry => exact h.modify hr (hsame entry hr)
  cases move with
  | joined isOpen => exact hstays _ rfl rfl
  | departed isClose => exact hstays _ rfl rfl
  | shown => exact hstays _ rfl rfl
  | invoked invocations => exact hstays _ rfl rfl
  | bumped => exact hstays _ rfl rfl
  | @subscribed s session topic p details port now table ref entry isAdd here present found at_ref =>
      subst isAdd here
      exact h.subscribed rfl (ht.realmOf u) hleft.subscription found at_ref
        { sessionId := s, authRole := session.authRole, details := details } ha
        (by simp [RealmRecord.bumpVersion]) (by simp [RealmRecord.bumpVersion])
  | @registered s session procedure details port policy matchPolicy retry now table ref entry
      isRegister here present settings found at_ref shared =>
      subst isRegister here
      exact h.registered rfl (ht.realmOf u) (hb.alone u) hleft.registration
        { registrationId := st.ids.registration.nextId, procedure := procedure, sessionId := s,
          authRole := session.authRole, details := details, matchPolicy := matchPolicy }
        rfl found at_ref details (by simp [RealmRecord.bumpVersion])
        (by simp [RealmRecord.bumpVersion])
  | @unsubscribed s id ref entry isLeave found => exact h.unsubscribed isLeave found s
  | @unregistered s id ref entry gives found =>
      have hi : input.isLeave = true := by
        rcases gives with rfl | ⟨session, rfl, -⟩ <;> rfl
      exact h.unregistered hi (ownedBy_of_givesUp ht hl gives) found
  | @turned ref entry draw at_ref =>
      refine ⟨roster, .nil roster, hmodify ref _ fun e he => ?_⟩
      rw [Option.some.inj (he.symm.trans at_ref)]
      exact ProcedureTable.nextCallee_same entry draw
  | @touched ref id now =>
      refine ⟨roster, .nil roster, ?_⟩
      exact (hmodify ref _ fun e _ => ProcedureTable.touchCallee_same e id now).of_tables rfl rfl

theorem Moves.followed (ht : st.Tables) (hb : st.Budget) (hleft : st.IdsLeft) {env : StoreEnv}
    (hl : st.Legal (env, input)) (ha : st.SubscribesAnew (env, input))
    {events : List StoreOutput} (moves : Moves st input u r events r')
    (h : Follows st input u roster r) :
    ∃ roster', Told roster events roster' ∧ Follows st input u roster' r' := by
  induction moves generalizing roster with
  | nil r => exact ⟨roster, .nil roster, h⟩
  | cons move _ ih =>
      obtain ⟨roster₁, htold, h₁⟩ := RealmMove.followed ht hb hleft hl ha h move
      obtain ⟨roster₂, htold', h₂⟩ := ih h₁
      exact ⟨roster₂, htold.append htold', h₂⟩

end

/-! ### Whole runs -/

/-- The rows that a snapshot shows. -/
def Shown (snapshot : RealmSnapshot) : MemberKey → MemberInfo → Multiset Nat → Prop
  | .subscription id, info, ms => ∃ x ∈ snapshot.subscriptions, x.id = id ∧
      info = .topic x.topic x.matchPolicy x.created ∧ ms = x.subscribers.map (·.sessionId)
  | .registration id, info, ms => ∃ x ∈ snapshot.registrations, x.registrationId = id ∧
      info = .procedure x.procedure x.policy x.matchPolicy x.created ∧
      ms = x.callees.map (·.sessionId)

theorem listed_iff_shown {ids : WampIdAllocatorRegistry} {r : RealmRecord} (h : r.Sound ids)
    (k : MemberKey) (info : MemberInfo) (ms : Multiset Nat) :
    Listed r.subscriptions r.procedures k info ms ↔ Shown r.buildSnapshot k info ms := by
  cases k with
  | subscription id =>
      constructor
      · rintro ⟨ref, e, hl, rfl, hinfo, hms⟩
        exact ⟨_, (RealmRecord.mem_subscriptions h).mpr ⟨ref, e, hl, rfl⟩, rfl, hinfo, hms⟩
      · rintro ⟨x, hx, rfl, hinfo, hms⟩
        obtain ⟨ref, e, hl, rfl⟩ := (RealmRecord.mem_subscriptions h).mp hx
        exact ⟨ref, e, hl, rfl, hinfo, hms⟩
  | registration id =>
      constructor
      · rintro ⟨ref, e, hl, rfl, hinfo, hms⟩
        exact ⟨_, (RealmRecord.mem_registrations h).mpr ⟨ref, e, hl, rfl⟩, rfl, hinfo, hms⟩
      · rintro ⟨x, hx, rfl, hinfo, hms⟩
        obtain ⟨ref, e, hl, rfl⟩ := (RealmRecord.mem_registrations h).mp hx
        exact ⟨ref, e, hl, rfl, hinfo, hms⟩

/-- What the meta events of a realm told so far. -/
def told (st : RouterStateStore) (u : String) : List (RosterEvent MemberKey MemberInfo Nat) :=
  (st.memberEvents u).filterMap StoreOutput.toRoster

/-- The events so far give a roster that shows the realm. -/
def Followed (st : RouterStateStore) (u : String) : Prop :=
  ∃ roster, Told {} (st.memberEvents u) roster ∧
    roster.Mirrors (Listed (st.realmOf u).subscriptions (st.realmOf u).procedures) ∧
    ∀ ref e, (st.realmOf u).subscriptions.heap.get? ref = some e → Own e

theorem Followed.initial (configs : List String) (u : String) :
    Followed { realmConfigs := configs } u := by
  refine ⟨{}, .nil _, ⟨rfl, fun k info ms => ?_⟩, by rintro - - ⟨⟩⟩
  constructor
  · rintro ⟨l, hl, -⟩
    cases hl
  · intro h
    cases k with
    | subscription id =>
        obtain ⟨ref, e, hl, -⟩ := h
        cases hl.1
    | registration id =>
        obtain ⟨ref, e, hl, -⟩ := h
        cases hl.1

/-- The inputs under which the events can be replayed. -/
def Replayable (st : RouterStateStore) (x : StoreEnv × StoreInput) : Prop :=
  st.Legal x ∧ st.IdsLeft ∧ st.SubscribesAnew x

theorem Followed.step {st : RouterStateStore} {x : StoreEnv × StoreInput} (ht : st.Tables)
    (hb : st.Budget) (hx : st.Replayable x) {u : String} (h : st.Followed u) :
    (st.step x).Followed u := by
  obtain ⟨roster, htold, hm, hown⟩ := h
  obtain ⟨env, input⟩ := x
  obtain ⟨events, hmoves, hevents⟩ := moved_handle env st input u
  have hfollows : Follows st input u roster (st.realmOf u) :=
    ⟨hm, hown, fun _ => ⟨⟨_, _, ht.realmOf u⟩, hb.alone u, fun _ c hc => ⟨c, hc, rfl⟩⟩⟩
  obtain ⟨roster', htold', h'⟩ := hmoves.followed ht hb hx.2.1 hx.1 hx.2.2 hfollows
  refine ⟨roster', ?_, h'.mirrors, h'.own⟩
  rw [RouterStateStore.step, hevents]
  exact htold.append htold'

/-- **The meta events of a realm tell its memberships.** -/
structure Replayed (st : RouterStateStore) (u : String) : Prop where
  /-- Replayed over an empty table they give the rows of the snapshot. -/
  rows : ∀ k info ms, ((st.told u).foldl Roster.apply {}).Has k info ms ↔
    Shown (st.realmOf u).buildSnapshot k info ms
  subscriptions_once : ((st.realmOf u).buildSnapshot.subscriptions.map (·.id)).Nodup
  registrations_once : ((st.realmOf u).buildSnapshot.registrations.map (·.registrationId)).Nodup
  /-- A session's subscriptions and unsubscriptions take turns. -/
  alternate : ∀ id s,
    Alternates true ((st.told u).filterMap (Roster.change (.subscription id) s))
  /-- A row is created before anybody joins it. -/
  created_first : ∀ xs ys k s, st.told u = xs ++ .joined k s :: ys →
    ∃ info, RosterEvent.opened k info ∈ xs
  /-- A row is deleted right after somebody left it as the last one … -/
  deleted_after : ∀ xs ys k, st.told u = xs ++ .closed k :: ys →
    ∃ s, xs.getLast? = some (.left k s) ∧ (xs.foldl Roster.apply {}).members k = []
  /-- … and as soon as the last one has left. -/
  deleted_next : ∀ xs ys k s, st.told u = xs ++ .left k s :: ys →
    ((xs ++ [RosterEvent.left k s]).foldl Roster.apply {}).members k = [] →
    ys.head? = some (.closed k)

theorem Followed.replayed {st : RouterStateStore} (ht : st.Tables) (hb : st.Budget) {u : String}
    (h : st.Followed u) : st.Replayed u := by
  obtain ⟨roster, htold, hm, -⟩ := h
  have hrun : Run Roster.apply (Roster.Allows MemberKey.exclusive) {} (st.told u) roster := htold
  obtain rfl := hrun.eq_foldl
  refine ⟨fun k info ms => ?_, RealmRecord.nodup_subscriptions (ht.realmOf u),
    RealmRecord.nodup_registrations (ht.realmOf u) (hb.alone u), fun id s => ?_,
    fun xs ys k s he => ?_, fun xs ys k he => ?_, fun xs ys k s he hlast => ?_⟩
  · rw [hm.has_iff, listed_iff_shown (ht.realmOf u)]
  · have hexclusive : MemberKey.exclusive (.subscription id) = true := rfl
    exact Roster.alternates hexclusive s hrun Roster.tidy_empty List.nodup_nil
  · rw [he] at hrun
    exact Roster.opened_before hrun
  · rw [he] at hrun
    exact Roster.closed_after hrun
  · have hend := hm.settled
    rw [he] at hrun hend
    exact Roster.closed_next hrun hend hlast

/-- **Meta events can be replayed** after every run in which no session subscribes to what it is
subscribed to. -/
theorem meta_events_replayed (configs : List String) (inputs : List (StoreEnv × StoreInput))
    (st : RouterStateStore) (hrun : Run step Replayable { realmConfigs := configs } inputs st)
    (u : String) : st.Replayed u := by
  have hall := hrun.invariant (P := fun st => (st.Tables ∧ st.Budget) ∧ st.Followed u)
    (fun st x h hok => ⟨⟨h.1.1.step hok.1 hok.2.1, h.1.2.step hok.2.1.registration x⟩,
      h.2.step h.1.1 h.1.2 hok⟩)
    ⟨⟨Tables.initial configs, Budget.initial configs⟩, Followed.initial configs u⟩
  exact hall.2.replayed hall.1.1 hall.1.2

/-- Session 1 subscribes, registers and leaves. -/
def visitInputs : List (StoreEnv × StoreInput) :=
  [({}, .command (.sessionOpen "realm1" { id := 1, connectionId := 1 })),
   ({}, .command (.subscriptionAdd "realm1" 1 "com.topic" .exact .empty 0)),
   ({}, .command (.procedureRegister "realm1" 1 "com.proc" .empty 0)),
   ({}, .command (.sessionClose "realm1" 1))]

theorem visitInputs_replayed :
    (visitInputs.foldl step { realmConfigs := ["realm1"] }).told "realm1" =
        [.opened (.subscription 1) (.topic "com.topic" .exact 0), .joined (.subscription 1) 1,
          .opened (.registration 1) (.procedure "com.proc" .single .exact 0),
          .joined (.registration 1) 1,
          .left (.subscription 1) 1, .closed (.subscription 1),
          .left (.registration 1) 1, .closed (.registration 1)] ∧
      (visitInputs.foldl step { realmConfigs := ["realm1"] }).Replayed "realm1" := by
  refine ⟨rfl, meta_events_replayed ["realm1"] visitInputs _ ?_ "realm1"⟩
  have hfresh : FreshSession { realmConfigs := ["realm1"] } "realm1" 1 := fun _ hr => by cases hr
  have hanew : ∀ st x, (RouterStateStore.realmOf st "realm1").subscriptions.heap.cells = [] →
      x.2 = .command (.subscriptionAdd "realm1" 1 "com.topic" .exact .empty 0) →
      SubscribesAnew st x := by
    rintro st ⟨env, input⟩ hcells rfl ref e hl
    rw [SubscriptionTable.Live, Heap.get?, hcells] at hl
    cases hl.1
  exact .cons ⟨hfresh, idsLeft_of_lt (by decide +kernel), trivial⟩
    (.cons ⟨trivial, idsLeft_of_lt (by decide +kernel), hanew _ _ rfl rfl⟩
    (.cons ⟨trivial, idsLeft_of_lt (by decide +kernel), trivial⟩
    (.cons ⟨trivial, idsLeft_of_lt (by decide +kernel), trivial⟩ (.nil _))))

/-- Session 1 subscribes twice to `com.topic`. -/
def twiceInputs : List (StoreEnv × StoreInput) :=
  [({}, .command (.sessionOpen "realm1" { id := 1, connectionId := 1 })),
   ({}, .command (.subscriptionAdd "realm1" 1 "com.topic" .exact .empty 0)),
   ({}, .command (.subscriptionAdd "realm1" 1 "com.topic" .exact .empty 1))]

/-- **A second SUBSCRIBE is announced as if it were the first.** -/
theorem subscribed_twice :
    Run step (fun st x => st.Legal x ∧ st.IdsLeft) { realmConfigs := ["realm1"] } twiceInputs
        (twiceInputs.foldl step { realmConfigs := ["realm1"] }) ∧
      (twiceInputs.foldl step { realmConfigs := ["realm1"] }).told "realm1" =
        [.opened (.subscription 1) (.topic "com.topic" .exact 0), .joined (.subscription 1) 1,
          .joined (.subscription 1) 1] ∧
      ¬ (twiceInputs.foldl step { realmConfigs := ["realm1"] }).Replayed "realm1" := by
  have htold : (twiceInputs.foldl step { realmConfigs := ["realm1"] }).told "realm1" =
      [.opened (.subscription 1) (.topic "com.topic" .exact 0), .joined (.subscription 1) 1,
        .joined (.subscription 1) 1] := rfl
  have hfresh : FreshSession { realmConfigs := ["realm1"] } "realm1" 1 := fun _ hr => by cases hr
  refine ⟨?_, htold, fun h => ?_⟩
  · exact .cons ⟨hfresh, idsLeft_of_lt (by decide +kernel)⟩
      (.cons ⟨trivial, idsLeft_of_lt (by decide +kernel)⟩
      (.cons ⟨trivial, idsLeft_of_lt (by decide +kernel)⟩ (.nil _)))
  · have halternate := h.alternate 1 1
    rw [htold] at halternate
    exact absurd halternate.2.1 nofun

end RouterStateStore

end Connectanum
