import Connectanum.State.Moves

/-!
# State — Routing

What a publication reaches: `_matchSubscriptions` combines three indexes and seven filters.

* `Passes`: what the filters ask for, one condition for each;
* `SubscriptionTable.Keyed`: the invariant it rests on, that the atlas holds each entry under its
  own policy and topic.  No id has to be unique for it, so it holds of every realm in every run;
* `publication_routed`: each subscription and member that the publication is for is returned once,
  and nothing else is.
-/

namespace Connectanum

open Collections Machine

/-! ### The filters -/

namespace RouterStateStore

/-- The filters of a PUBLISH; an option that is absent, or no list, asks for nothing. -/
structure Passes (options : Dict) (publisherSessionId sessionId : Nat) (record : SubscriberRecord)
    (session : SessionRecord) : Prop where
  exclude_me : options.flag "exclude_me" = true → sessionId ≠ publisherSessionId
  exclude : ∀ ids, decodeIdSet (options.at "exclude") = some ids → (sessionId : Int) ∉ ids
  eligible : ∀ ids, decodeIdSet (options.at "eligible") = some ids → (sessionId : Int) ∈ ids
  exclude_authid : ∀ authIds, stringSetOption options "exclude_authid" "exclude_authids" =
    some authIds → ∀ authId, session.authId = some authId → authId ∉ authIds
  eligible_authid : ∀ authIds, stringSetOption options "eligible_authid" "eligible_authids" =
    some authIds → ∃ authId, session.authId = some authId ∧ authId ∈ authIds
  exclude_authrole : ∀ roles, stringSetOption options "exclude_authrole" "exclude_authroles" =
    some roles → ∀ role, record.authRole.or session.authRole = some role → role ∉ roles
  eligible_authrole : ∀ roles, stringSetOption options "eligible_authrole" "eligible_authroles" =
    some roles → ∃ role, record.authRole.or session.authRole = some role ∧ role ∈ roles

section Filters

variable {α β : Type}

theorem not_any_iff (o : Option α) (p : α → Bool) :
    (!o.any p) = true ↔ ∀ a, o = some a → p a = false := by
  cases o <;> simp

theorem all_iff (o : Option α) (p : α → Bool) :
    o.all p = true ↔ ∀ a, o = some a → p a = true := by
  cases o <;> simp

theorem any_contains_iff [BEq α] [LawfulBEq α] (o : Option α) (l : List α) :
    o.any l.contains = true ↔ ∃ a, o = some a ∧ a ∈ l := by
  cases o <;> simp

theorem any_contains_false_iff [BEq α] [LawfulBEq α] (o : Option α) (l : List α) :
    o.any l.contains = false ↔ ∀ a, o = some a → a ∉ l := by
  cases o <;> simp

end Filters

theorem eligibleSubscriber_iff (options : Dict) (publisher s : Nat) (record : SubscriberRecord)
    (session : SessionRecord) :
    eligibleSubscriber options publisher s record session = true ↔
      Passes options publisher s record session := by
  have hme : (!(options.flag "exclude_me" && s == publisher)) = true ↔
      (options.flag "exclude_me" = true → s ≠ publisher) := by
    cases options.flag "exclude_me" <;> simp
  unfold eligibleSubscriber
  simp only [Bool.and_eq_true, hme, not_any_iff, all_iff, any_contains_iff, any_contains_false_iff,
    List.contains_eq_mem, decide_eq_true_eq, decide_eq_false_iff_not]
  constructor
  · rintro ⟨⟨⟨⟨⟨⟨h₁, h₂⟩, h₃⟩, h₄⟩, h₅⟩, h₆⟩, h₇⟩
    exact ⟨h₁, h₂, h₃, h₄, h₅, h₆, h₇⟩
  · rintro ⟨h₁, h₂, h₃, h₄, h₅, h₆, h₇⟩
    exact ⟨⟨⟨⟨⟨⟨h₁, h₂⟩, h₃⟩, h₄⟩, h₅⟩, h₆⟩, h₇⟩

end RouterStateStore

/-! ### The atlas -/

namespace SubscriptionTable

/-- The atlas holds each entry under its own policy and topic. -/
def Keyed (t : SubscriptionTable) : Prop :=
  ∀ p topic ref, t.subscriptionAtlas.get? p topic = some ref →
    ∃ e, t.heap.get? ref = some e ∧ e.matchPolicy = p ∧ e.topic = topic

variable {t : SubscriptionTable}

theorem Keyed.live (h : t.Keyed) {p : TopicMatchPolicy} {topic : String} {ref : Ref}
    {e : SubscriptionEntry} (hat : t.subscriptionAtlas.get? p topic = some ref)
    (he : t.heap.get? ref = some e) : t.Live ref e ∧ e.matchPolicy = p ∧ e.topic = topic := by
  obtain ⟨e', he', rfl, rfl⟩ := h p topic ref hat
  obtain rfl := Option.some.inj (he'.symm.trans he)
  exact ⟨⟨he, hat⟩, rfl, rfl⟩

/-- An update of the heap that keeps the key of each entry. -/
theorem Keyed.of_heap {t' : SubscriptionTable} (h : t.Keyed)
    (hatlas : ∀ p topic ref, t'.subscriptionAtlas.get? p topic = some ref →
      t.subscriptionAtlas.get? p topic = some ref)
    (hheap : ∀ ref e, t.heap.get? ref = some e → ∃ e', t'.heap.get? ref = some e' ∧
      e'.matchPolicy = e.matchPolicy ∧ e'.topic = e.topic) : t'.Keyed := by
  intro p topic ref hat
  obtain ⟨e, he, hp, ht⟩ := h p topic ref (hatlas p topic ref hat)
  obtain ⟨e', he', hp', ht'⟩ := hheap ref e he
  exact ⟨e', he', hp'.trans hp, ht'.trans ht⟩

theorem Keyed.findOrCreate (h : t.Keyed) (topic : String) (p : TopicMatchPolicy) (id now : Nat) :
    (t.findOrCreateSubscription topic p id now).1.Keyed := by
  unfold findOrCreateSubscription
  split
  · exact h
  · intro p' topic' ref hat
    rw [PatternIndex.get?_insert] at hat
    split at hat
    · next hkey =>
        obtain rfl := Option.some.inj hat
        exact ⟨_, by rw [Heap.get?_alloc, if_pos rfl], hkey.1.symm, hkey.2.symm⟩
    · obtain ⟨e, he, hkey⟩ := h p' topic' ref hat
      exact ⟨e, Heap.get?_alloc_of_some _ he, hkey⟩

theorem Keyed.addSubscriber (h : t.Keyed) (ref : Ref) (record : SubscriberRecord) :
    (t.addSubscriber ref record).Keyed := by
  refine h.of_heap (fun _ _ _ hat => hat) fun ref' e he => ?_
  rw [heap_addSubscriber]
  split
  · next hsame =>
      rw [← hsame, he]
      exact ⟨_, rfl, rfl, rfl⟩
  · exact ⟨e, he, rfl, rfl⟩

theorem Keyed.unsubscribe (h : t.Keyed) (ref : Ref) (entry : SubscriptionEntry) (s : Nat) :
    (t.unsubscribe ref entry s).Keyed := by
  refine h.of_heap (fun p topic ref' hat => ?_) fun ref' e he => ?_
  · unfold SubscriptionTable.unsubscribe at hat
    dsimp only at hat
    split at hat
    · rw [removeSubscription, PatternIndex.get?_erase] at hat
      split at hat
      · cases hat
      · exact hat
    · exact hat
  · rw [heap_unsubscribe, heap_removeSubscriber]
    split
    · next hsame =>
        rw [← hsame, he]
        exact ⟨_, rfl, rfl, rfl⟩
    · exact ⟨e, he, rfl, rfl⟩

/-- The key of an entry. -/
def keyOf (e : SubscriptionEntry) : TopicMatchPolicy × String := (e.matchPolicy, e.topic)

/-- The entries of one table have the keys of the table. -/
theorem Keyed.keys_table (h : t.Keyed) (p : TopicMatchPolicy) :
    (((t.subscriptionAtlas.table p).values.filterMap t.heap.get?).map keyOf) =
      (t.subscriptionAtlas.table p).keys.map fun topic => (p, topic) := by
  have hall : ∀ x ∈ (t.subscriptionAtlas.table p).entries,
      ∃ e, t.heap.get? x.2 = some e ∧ keyOf e = (p, x.1) := by
    intro x hx
    obtain ⟨e, he, hp, htopic⟩ := h p x.1 x.2 (LinkedMap.mem_entries.mp hx)
    exact ⟨e, he, Prod.ext hp htopic⟩
  rw [LinkedMap.values, LinkedMap.keys]
  generalize (t.subscriptionAtlas.table p).entries = entries at hall
  induction entries with
  | nil => rfl
  | cons x rest ih =>
      obtain ⟨e, he, hkey⟩ := hall x (List.mem_cons_self ..)
      rw [List.map_cons, List.filterMap_cons_some he, List.map_cons, List.map_cons, List.map_cons,
        hkey, ih fun y hy => hall y (List.mem_cons_of_mem _ hy)]

theorem Keyed.mem_table (h : t.Keyed) {p : TopicMatchPolicy} {e : SubscriptionEntry} :
    e ∈ (t.subscriptionAtlas.table p).values.filterMap t.heap.get? ↔
      ∃ ref, t.Live ref e ∧ e.matchPolicy = p := by
  rw [List.mem_filterMap]
  constructor
  · rintro ⟨ref, href, hget⟩
    obtain ⟨topic, hat⟩ := LinkedMap.mem_values.mp href
    obtain ⟨hl, hp, -⟩ := h.live hat hget
    exact ⟨ref, hl, hp⟩
  · rintro ⟨ref, hl, rfl⟩
    exact ⟨ref, LinkedMap.mem_values.mpr ⟨e.topic, hl.2⟩, hl.1⟩

/-- The exact entry is the one entry of its table that matches. -/
theorem Keyed.exact_iff (h : t.Keyed) {topic : String} {e : SubscriptionEntry} :
    e ∈ ((t.subscriptionAtlas.exact.get? topic).bind t.heap.get?).toList ↔
      ∃ ref, t.Live ref e ∧ e.matchPolicy = .exact ∧ e.matchesTopic topic = true := by
  rw [Option.mem_toList, Option.bind_eq_some_iff]
  constructor
  · rintro ⟨ref, href, hget⟩
    obtain ⟨hl, hpol, htopic⟩ := h.live (p := .exact) href hget
    refine ⟨ref, hl, hpol, ?_⟩
    rw [SubscriptionEntry.matchesTopic, hpol, htopic]
    exact beq_self_eq_true _
  · rintro ⟨ref, hl, hpol, hmatch⟩
    rw [SubscriptionEntry.matchesTopic, hpol] at hmatch
    have hatlas := hl.2
    rw [hpol, eq_of_beq hmatch] at hatlas
    exact ⟨ref, hatlas, hl.1⟩

/-- The entries that a publication reaches. -/
theorem Keyed.mem_matching (h : t.Keyed) {topic : String} {e : SubscriptionEntry} :
    e ∈ t.subscriptionAtlas.matching t.heap topic ↔
      ∃ ref, t.Live ref e ∧ e.matchesTopic topic = true := by
  have htable : ∀ p, e ∈ ((t.subscriptionAtlas.table p).values.filterMap t.heap.get?).filter
      (·.matchesTopic topic) ↔
        ∃ ref, t.Live ref e ∧ e.matchPolicy = p ∧ e.matchesTopic topic = true := by
    intro p
    rw [List.mem_filter, h.mem_table]
    constructor
    · rintro ⟨⟨ref, hl, hp⟩, hmatch⟩
      exact ⟨ref, hl, hp, hmatch⟩
    · rintro ⟨ref, hl, hp, hmatch⟩
      exact ⟨⟨ref, hl, hp⟩, hmatch⟩
  have hprefixes := htable .prefixed
  have hwildcards := htable .wildcard
  rw [SubscriptionAtlas.matching, List.mem_insertionSort, List.mem_append, List.mem_append,
    h.exact_iff]
  constructor
  · rintro ((⟨ref, hl, -, hmatch⟩ | hp) | hw)
    · exact ⟨ref, hl, hmatch⟩
    · obtain ⟨ref, hl, -, hmatch⟩ := hprefixes.mp hp
      exact ⟨ref, hl, hmatch⟩
    · obtain ⟨ref, hl, -, hmatch⟩ := hwildcards.mp hw
      exact ⟨ref, hl, hmatch⟩
  · rintro ⟨ref, hl, hmatch⟩
    cases hpol : e.matchPolicy with
    | exact => exact .inl (.inl ⟨ref, hl, rfl, hmatch⟩)
    | prefixed => exact .inl (.inr (hprefixes.mpr ⟨ref, hl, hpol, hmatch⟩))
    | wildcard => exact .inr (hwildcards.mpr ⟨ref, hl, hpol, hmatch⟩)

/-- No entry is there twice. -/
theorem Keyed.nodup_matching (h : t.Keyed) (topic : String) :
    ((t.subscriptionAtlas.matching t.heap topic).map keyOf).Nodup := by
  have htable : ∀ p, ((((t.subscriptionAtlas.table p).values.filterMap t.heap.get?).filter
      (·.matchesTopic topic)).map keyOf).Nodup := by
    intro p
    have hsub := (List.filter_sublist (p := (·.matchesTopic topic))
      (l := (t.subscriptionAtlas.table p).values.filterMap t.heap.get?)).map keyOf
    rw [h.keys_table] at hsub
    refine ((t.subscriptionAtlas.table p).nodup.map ?_).sublist hsub
    exact fun a b hab => (Prod.mk.inj hab).2
  have hpolicy : ∀ p k, k ∈ (((t.subscriptionAtlas.table p).values.filterMap t.heap.get?).filter
      (·.matchesTopic topic)).map keyOf → k.1 = p := by
    intro p k hk
    obtain ⟨e, he, rfl⟩ := List.mem_map.mp hk
    obtain ⟨_, _, hp⟩ := h.mem_table.mp (List.mem_filter.mp he).1
    exact hp
  have hexact : ∀ k, k ∈ (((t.subscriptionAtlas.exact.get? topic).bind t.heap.get?).toList).map
      keyOf → k.1 = .exact := by
    intro k hk
    obtain ⟨e, he, rfl⟩ := List.mem_map.mp hk
    obtain ⟨_, _, hp, _⟩ := h.exact_iff.mp he
    exact hp
  have hone : ((((t.subscriptionAtlas.exact.get? topic).bind t.heap.get?).toList).map
      keyOf).Nodup := by
    cases (t.subscriptionAtlas.exact.get? topic).bind t.heap.get? with
    | none => exact List.nodup_nil
    | some e => exact List.nodup_singleton _
  have hprefixes := hpolicy .prefixed
  have hwildcards := hpolicy .wildcard
  rw [SubscriptionAtlas.matching]
  refine ((List.perm_insertionSort _ _).map keyOf).nodup_iff.mpr ?_
  rw [List.map_append, List.map_append, List.nodup_append, List.nodup_append]
  refine ⟨⟨hone, htable .prefixed, fun a ha b hb hab => ?_⟩, htable .wildcard,
    fun a ha b hb hab => ?_⟩
  · have hboth := (hexact a ha).symm.trans (hab ▸ hprefixes b hb)
    cases hboth
  · have hw := hab ▸ hwildcards b hb
    rcases List.mem_append.mp ha with ha | ha
    · have hboth := (hexact a ha).symm.trans hw
      cases hboth
    · have hboth := (hprefixes a ha).symm.trans hw
      cases hboth

end SubscriptionTable

/-! ### The deliveries -/

namespace RealmRecord

/-- The publication is for the session `s` on the subscription of `topic` under the policy `p`, and
`m` is its delivery. -/
def Routed (r : RealmRecord) (published : String) (publisher : Nat) (options : Dict)
    (key : (TopicMatchPolicy × String) × Nat) (m : SubscriptionMatch) : Prop :=
  ∃ ref entry record session,
    r.subscriptions.subscriptionAtlas.get? key.1.1 key.1.2 = some ref ∧
    r.subscriptions.heap.get? ref = some entry ∧ entry.matchesTopic published = true ∧
    entry.subscribers.get? key.2 = some record ∧ r.sessions.get? key.2 = some session ∧
    RouterStateStore.Passes options publisher key.2 record session ∧
    m = { subscriptionId := entry.id, sessionId := key.2, connectionId := session.connectionId,
          serializerId := session.serializerId, internalSendPort := session.internalSendPort,
          authRole := record.authRole, details := record.details }

/-- The deliveries are those of `Routed`, each subscription and session once. -/
def RoutedOnce (r : RealmRecord) (published : String) (publisher : Nat) (options : Dict)
    (matched : List SubscriptionMatch) : Prop :=
  ∃ deliveries : List (((TopicMatchPolicy × String) × Nat) × SubscriptionMatch),
    deliveries.map Prod.snd = matched ∧ (deliveries.map Prod.fst).Nodup ∧
      ∀ key m, (key, m) ∈ deliveries ↔ r.Routed published publisher options key m

/-- The deliveries of one entry, with what they are for. -/
def keyedMatches (r : RealmRecord) (options : Dict) (publisher : Nat) (entry : SubscriptionEntry) :
    List (((TopicMatchPolicy × String) × Nat) × SubscriptionMatch) :=
  entry.subscribers.entries.filterMap fun x =>
    match r.sessions.get? x.1 with
    | none => none
    | some session =>
        if RouterStateStore.eligibleSubscriber options publisher x.1 x.2 session then
          some ((SubscriptionTable.keyOf entry, x.1),
            { subscriptionId := entry.id, sessionId := x.1, connectionId := session.connectionId,
              serializerId := session.serializerId, internalSendPort := session.internalSendPort,
              authRole := x.2.authRole, details := x.2.details })
        else none

variable {r : RealmRecord}

theorem map_keyedMatches (options : Dict) (publisher : Nat) (entry : SubscriptionEntry) :
    (r.keyedMatches options publisher entry).map Prod.snd =
      RouterStateStore.matchesOfEntry r options publisher entry := by
  rw [keyedMatches, RouterStateStore.matchesOfEntry, List.map_filterMap]
  congr 1
  funext ⟨s, record⟩
  dsimp only
  cases r.sessions.get? s with
  | none => rfl
  | some session =>
      dsimp only
      split <;> rfl

theorem mem_keyedMatches {options : Dict} {publisher : Nat} {entry : SubscriptionEntry}
    {key : (TopicMatchPolicy × String) × Nat} {m : SubscriptionMatch} :
    (key, m) ∈ r.keyedMatches options publisher entry ↔
      key.1 = SubscriptionTable.keyOf entry ∧ ∃ record session,
        entry.subscribers.get? key.2 = some record ∧ r.sessions.get? key.2 = some session ∧
        RouterStateStore.Passes options publisher key.2 record session ∧
        m = { subscriptionId := entry.id, sessionId := key.2, connectionId := session.connectionId,
              serializerId := session.serializerId, internalSendPort := session.internalSendPort,
              authRole := record.authRole, details := record.details } := by
  rw [keyedMatches, List.mem_filterMap]
  constructor
  · rintro ⟨⟨s, record⟩, hmem, hx⟩
    split at hx
    · cases hx
    · next session hs =>
        split at hx
        · next hpass =>
            cases hx
            exact ⟨rfl, record, session, SplayMap.mem_entries.mp hmem, hs,
              (RouterStateStore.eligibleSubscriber_iff ..).mp hpass, rfl⟩
        · cases hx
  · obtain ⟨k, s⟩ := key
    rintro ⟨rfl, record, session, hrecord, hs, hpass, rfl⟩
    refine ⟨(s, record), SplayMap.mem_entries.mpr hrecord, ?_⟩
    dsimp only at hs hpass ⊢
    rw [hs]
    dsimp only
    rw [if_pos ((RouterStateStore.eligibleSubscriber_iff ..).mpr hpass)]

/-- A session is on an entry once. -/
theorem nodup_keyedMatches (options : Dict) (publisher : Nat) (entry : SubscriptionEntry) :
    ((r.keyedMatches options publisher entry).map Prod.fst).Nodup := by
  have hsub : (((r.keyedMatches options publisher entry).map Prod.fst).map Prod.snd).Sublist
      (entry.subscribers.entries.map Prod.fst) := by
    rw [keyedMatches]
    induction entry.subscribers.entries with
    | nil => exact List.Sublist.refl _
    | cons x rest ih =>
        rw [List.filterMap_cons]
        split
        · exact ih.cons _
        · next y hy =>
            have hsame : y.1.2 = x.1 := by
              split at hy
              · cases hy
              · split at hy
                · cases hy
                  rfl
                · cases hy
            rw [List.map_cons, List.map_cons, List.map_cons, hsame]
            exact ih.cons_cons _
  exact List.Nodup.of_map Prod.snd (entry.subscribers.nodup.sublist hsub)

/-- **Routing is exact.** -/
theorem routedOnce_of_keyed (h : r.subscriptions.Keyed) (published : String) (publisher : Nat)
    (options : Dict) :
    r.RoutedOnce published publisher options
      ((r.subscriptions.subscriptionAtlas.matching r.subscriptions.heap published).flatMap
        (RouterStateStore.matchesOfEntry r options publisher)) := by
  refine ⟨(r.subscriptions.subscriptionAtlas.matching r.subscriptions.heap published).flatMap
    (r.keyedMatches options publisher), ?_, ?_, fun key m => ?_⟩
  · rw [List.map_flatMap]
    congr 1
    funext entry
    exact map_keyedMatches options publisher entry
  · rw [List.map_flatMap, List.nodup_flatMap]
    refine ⟨fun entry _ => nodup_keyedMatches options publisher entry, ?_⟩
    have hkeys := List.pairwise_map.mp (h.nodup_matching published)
    refine hkeys.imp fun hne key hkey hkey' => hne ?_
    obtain ⟨x, hx, rfl⟩ := List.mem_map.mp hkey
    obtain ⟨y, hy, hxy⟩ := List.mem_map.mp hkey'
    rw [← (mem_keyedMatches.mp hx).1, ← hxy, (mem_keyedMatches.mp hy).1]
  · rw [List.mem_flatMap]
    constructor
    · rintro ⟨entry, hentry, hm⟩
      obtain ⟨hkey, record, session, hrecord, hsession, hpass, hm⟩ := mem_keyedMatches.mp hm
      obtain ⟨ref, hl, hmatch⟩ := h.mem_matching.mp hentry
      exact ⟨ref, entry, record, session, by rw [hkey]; exact hl.2, hl.1, hmatch, hrecord, hsession,
        hpass, hm⟩
    · rintro ⟨ref, entry, record, session, hat, hget, hmatch, hrecord, hsession, hpass, hm⟩
      obtain ⟨hl, hp, htopic⟩ := h.live hat hget
      exact ⟨entry, h.mem_matching.mpr ⟨ref, hl, hmatch⟩,
        mem_keyedMatches.mpr ⟨Prod.ext hp.symm htopic.symm, record, session, hrecord, hsession,
          hpass, hm⟩⟩

end RealmRecord

/-! ### Runs -/

namespace RouterStateStore

variable {st : RouterStateStore} {input : StoreInput} {u : String} {r r' : RealmRecord}
  {events : List StoreOutput}

theorem subscriptions_modifySession (r : RealmRecord) (s : Nat)
    (f : SessionRecord → SessionRecord) : (r.modifySession s f).subscriptions = r.subscriptions := by
  unfold RealmRecord.modifySession
  split <;> rfl

theorem keyed_move (h : RealmMove st input u r events r') (hk : r.subscriptions.Keyed) :
    r'.subscriptions.Keyed := by
  cases h with
  | joined | departed | shown | invoked | turned | touched | bumped => exact hk
  | @subscribed s session topic p details port now table ref entry _ _ _ found _ =>
      have htable := hk.findOrCreate topic p st.ids.subscription.nextId now
      rw [found] at htable
      change (RealmRecord.modifySession _ _ _).subscriptions.Keyed
      rw [subscriptions_modifySession]
      exact htable.addSubscriber _ _
  | unsubscribed _ found =>
      rw [RealmRecord.removeSubscription, found]
      change (RealmRecord.modifySession _ _ _).subscriptions.Keyed
      rw [subscriptions_modifySession]
      exact hk.unsubscribe _ _ _
  | registered =>
      change (RealmRecord.modifySession _ _ _).subscriptions.Keyed
      rw [subscriptions_modifySession]
      exact hk
  | unregistered _ found =>
      rw [RealmRecord.unregisterProcedure, found]
      change (RealmRecord.modifySession _ _ _).subscriptions.Keyed
      rw [subscriptions_modifySession]
      exact hk

theorem keyed_moves (h : Moves st input u r events r') (hk : r.subscriptions.Keyed) :
    r'.subscriptions.Keyed := by
  induction h with
  | nil => exact hk
  | cons move _ ih => exact ih (keyed_move move hk)

theorem keyed_run (inputs : List (StoreEnv × StoreInput)) {st : RouterStateStore} {u : String}
    (h : (st.realmOf u).subscriptions.Keyed) :
    ((inputs.foldl step st).realmOf u).subscriptions.Keyed := by
  induction inputs generalizing st with
  | nil => exact h
  | cons x rest ih =>
      obtain ⟨events, hmoves, -⟩ := moved_handle x.1 st x.2 u
      exact ih (keyed_moves hmoves h)

theorem routedOnce_of_matchSubscriptions {start st : RouterStateStore} {uri published : String}
    {publisher : Nat} {options : Dict} {routing : PublicationRouting}
    (hkeyed : (start.realmOf uri).subscriptions.Keyed)
    (h : start.matchSubscriptions uri published publisher options = (st, .ok routing)) :
    (start.realmOf uri).RoutedOnce published publisher options routing.matched := by
  unfold matchSubscriptions at h
  dsimp only at h
  split at h
  · cases h
  · next st' realm hget =>
      have hrealm := realmOf_getOrCreateRealm hget
      obtain rfl : realm = start.realmOf uri := hrealm
      cases h
      exact RealmRecord.routedOnce_of_keyed hkeyed published publisher options

/-- **Publication routing.**  After every sequence of inputs, a publication is returned for each
subscription and session that it is for once, and for no other. -/
theorem publication_routed (configs : List String) (inputs : List (StoreEnv × StoreInput))
    (uri published : String) (publisher : Nat) (options : Dict) {st : RouterStateStore}
    {routing : PublicationRouting}
    (h : (inputs.foldl step { realmConfigs := configs }).matchSubscriptions uri published publisher
      options = (st, .ok routing)) :
    ((inputs.foldl step { realmConfigs := configs }).realmOf uri).RoutedOnce published publisher
      options routing.matched := by
  have hkeyed : ((inputs.foldl step { realmConfigs := configs }).realmOf uri).subscriptions.Keyed :=
    keyed_run inputs fun _ _ _ hat => by
      rw [RouterStateStore.realmOf] at hat
      simp at hat
  exact routedOnce_of_matchSubscriptions hkeyed h

/-- Session `1` is on the topic and on a wildcard, session `2` on the topic. -/
def routingInputs : List (StoreEnv × StoreInput) :=
  [({}, .command (.sessionOpen "realm1" { id := 1, connectionId := 1 })),
   ({}, .command (.sessionOpen "realm1" { id := 2, connectionId := 2 })),
   ({}, .command (.subscriptionAdd "realm1" 1 "com.topic" .exact .empty 0)),
   ({}, .command (.subscriptionAdd "realm1" 1 "com." .wildcard .empty 0)),
   ({}, .command (.subscriptionAdd "realm1" 2 "com.topic" .exact .empty 0))]

/-- A publication of session `2` that leaves session `2` out goes to session `1` twice. -/
theorem publication_routed_sample : ∃ routing : PublicationRouting,
    routing.matched.map (fun m => (m.subscriptionId, m.sessionId)) = [(1, 1), (2, 1)] ∧
      ((routingInputs.foldl step { realmConfigs := ["realm1"] }).realmOf "realm1").RoutedOnce
        "com.topic" 2 (LinkedMap.empty.insert "exclude_me" (.bool true)) routing.matched := by
  cases hm : (routingInputs.foldl step { realmConfigs := ["realm1"] }).matchSubscriptions "realm1"
      "com.topic" 2 (LinkedMap.empty.insert "exclude_me" (.bool true)) with
  | mk st result =>
      have hpairs : ((routingInputs.foldl step { realmConfigs := ["realm1"] }).matchSubscriptions
          "realm1" "com.topic" 2 (LinkedMap.empty.insert "exclude_me" (.bool true))).2.toOption.map
            (fun routing => routing.matched.map fun m => (m.subscriptionId, m.sessionId)) =
          some [(1, 1), (2, 1)] := by decide +kernel
      rw [hm] at hpairs
      cases result with
      | error e => cases hpairs
      | ok routing =>
          exact ⟨routing, Option.some.inj hpairs,
            publication_routed ["realm1"] routingInputs _ _ _ _ hm⟩

end RouterStateStore

end Connectanum
