import Connectanum.State.Realm

/-!
# State — Sound subscription tables

`SubscriptionTable.Sound t held` says that the two tables of a realm's subscriptions agree with
each other and with `held`, the relation "open session `s` lists subscription `id`".  The
relation is a parameter and not read off the sessions: while a session is being closed its
record is gone already and its remaining memberships are held by nobody's record.

* `Sound.subscribe`: a subscription under an unused id adds one pair to `held`;
* `Sound.unsubscribe`: an unsubscription takes one pair away;
* `subscriberOf_unsubscribe`: and changes no other membership.
-/

namespace Connectanum

open Collections

namespace SubscriptionTable

/-- The entry `e` at `r` is in the atlas, under its own policy and topic. -/
def Live (t : SubscriptionTable) (r : Ref) (e : SubscriptionEntry) : Prop :=
  t.heap.get? r = some e ∧ t.subscriptionAtlas.get? e.matchPolicy e.topic = some r

structure Sound (t : SubscriptionTable) (held : Nat → Nat → Prop) : Prop where
  /-- `subscriptionsById` holds the entries of the atlas, each under its id. -/
  byId_iff : ∀ id r, t.subscriptionsById.get? id = some r ↔ ∃ e, t.Live r e ∧ e.id = id
  /-- The atlas holds each entry under its own policy and topic. -/
  atlas_own : ∀ p topic r, t.subscriptionAtlas.get? p topic = some r →
    ∃ e, t.heap.get? r = some e ∧ e.matchPolicy = p ∧ e.topic = topic
  /-- The subscribers of an entry are the sessions that list it. -/
  subscriber_iff : ∀ r e, t.Live r e → ∀ s,
    (∃ record, e.subscribers.get? s = some record) ↔ held s e.id
  /-- A session lists existing subscriptions only. -/
  held_live : ∀ s id, held s id → ∃ r, t.subscriptionsById.get? id = some r
  /-- No entry is without subscribers. -/
  inhabited : ∀ r e, t.Live r e → ∃ s record, e.subscribers.get? s = some record

namespace Sound

variable {t : SubscriptionTable} {held held' : Nat → Nat → Prop}

theorem empty : Sound {} (fun _ _ => False) where
  byId_iff := by simp [Live]
  atlas_own := by simp
  subscriber_iff := by simp [Live]
  held_live := by simp
  inhabited := by simp [Live]

theorem congr (h : t.Sound held) (e : ∀ s id, held s id ↔ held' s id) : t.Sound held' := by
  have : held = held' := funext fun s => funext fun id => propext (e s id)
  exact this ▸ h

/-- What the id table holds is live, under its own id. -/
theorem live_of_byId (h : t.Sound held) {id : Nat} {r : Ref} {e : SubscriptionEntry}
    (hid : t.subscriptionsById.get? id = some r) (he : t.heap.get? r = some e) :
    t.Live r e ∧ e.id = id := by
  obtain ⟨e', hl, hi⟩ := (h.byId_iff id r).mp hid
  have : e' = e := Option.some.inj (hl.1.symm.trans he)
  exact this ▸ ⟨hl, hi⟩

theorem live_of_findSubscriptionById (h : t.Sound held) {id : Nat} {r : Ref}
    {e : SubscriptionEntry} (hf : t.findSubscriptionById id = some (r, e)) :
    t.Live r e ∧ e.id = id := by
  simp only [findSubscriptionById, Option.bind_eq_some_iff, Option.map_eq_some_iff,
    Prod.mk.injEq] at hf
  obtain ⟨r', hr', e', he', rfl, rfl⟩ := hf
  exact h.live_of_byId hr' he'

theorem byId_of_live (h : t.Sound held) {r : Ref} {e : SubscriptionEntry} (hl : t.Live r e) :
    t.subscriptionsById.get? e.id = some r :=
  (h.byId_iff e.id r).mpr ⟨e, hl, rfl⟩

/-- Two live entries with one id are one entry. -/
theorem ref_unique (h : t.Sound held) {r r' : Ref} {e e' : SubscriptionEntry}
    (hl : t.Live r e) (hl' : t.Live r' e') (hi : e.id = e'.id) : r = r' := by
  have h₁ := h.byId_of_live hl
  have h₂ := h.byId_of_live hl'
  rw [hi, h₂] at h₁
  exact (Option.some.inj h₁).symm

end Sound

/-! ### Subscribing -/

theorem heap_addSubscriber (t : SubscriptionTable) (r r' : Ref) (record : SubscriberRecord) :
    (t.addSubscriber r record).heap.get? r' =
      if r' = r then (t.heap.get? r).map (·.addSubscriber record) else t.heap.get? r' :=
  t.heap.get?_modify r r' _

theorem live_addSubscriber {t : SubscriptionTable} {r r' : Ref} {record : SubscriberRecord}
    {e e' : SubscriptionEntry} (hr : t.heap.get? r = some e) :
    (t.addSubscriber r record).Live r' e' ↔
      (r' = r ∧ e' = e.addSubscriber record ∧ t.Live r e) ∨ (r' ≠ r ∧ t.Live r' e') := by
  unfold Live
  rw [heap_addSubscriber]
  by_cases hrr : r' = r
  · subst hrr
    rw [if_pos rfl, hr]
    constructor
    · rintro ⟨h₁, h₂⟩
      obtain rfl := Option.some.inj h₁
      exact .inl ⟨rfl, rfl, rfl, h₂⟩
    · rintro (⟨_, rfl, _, h₂⟩ | ⟨hn, _⟩)
      · exact ⟨rfl, h₂⟩
      · exact absurd rfl hn
  · simp [hrr, addSubscriber]

/-- The table after a new entry was allocated for `topic`, before it has a subscriber. -/
theorem live_create {t : SubscriptionTable} {topic : String} {p : TopicMatchPolicy}
    (hnew : t.subscriptionAtlas.get? p topic = none) (id now : Nat) (r : Ref)
    (e : SubscriptionEntry) :
    (t.findOrCreateSubscription topic p id now).1.Live r e ↔
      (r = t.heap.next ∧ e = { id := id, topic := topic, matchPolicy := p, created := now }) ∨
      t.Live r e := by
  simp only [findOrCreateSubscription, hnew, Live]
  exact PatternIndex.reached_alloc SubscriptionEntry.matchPolicy SubscriptionEntry.topic hnew r e

theorem exists_addSubscriber_iff (e : SubscriptionEntry) (record : SubscriberRecord) (s : Nat) :
    (∃ c, (e.addSubscriber record).subscribers.get? s = some c) ↔
      (s = record.sessionId ∨ ∃ c, e.subscribers.get? s = some c) := by
  simp only [SubscriptionEntry.addSubscriber, SplayMap.get?_insert]
  by_cases h : s = record.sessionId <;> simp [h]

/-- Subscribing to a topic that has an entry. -/
theorem Sound.subscribe_existing {t : SubscriptionTable} {held : Nat → Nat → Prop}
    (h : t.Sound held) {r : Ref} {e : SubscriptionEntry} (hl : t.Live r e)
    (record : SubscriberRecord) :
    (t.addSubscriber r record).Sound
      (fun s id => held s id ∨ (s = record.sessionId ∧ id = e.id)) where
  byId_iff id r' := by
    rw [show (t.addSubscriber r record).subscriptionsById = t.subscriptionsById from rfl,
      h.byId_iff]
    constructor
    · rintro ⟨e', hl', hi⟩
      by_cases hr : r' = r
      · subst hr
        have : e' = e := Option.some.inj (hl'.1.symm.trans hl.1)
        exact ⟨_, (live_addSubscriber hl.1).mpr (.inl ⟨rfl, rfl, hl⟩), this ▸ hi⟩
      · exact ⟨e', (live_addSubscriber hl.1).mpr (.inr ⟨hr, hl'⟩), hi⟩
    · rintro ⟨e', hl', hi⟩
      rcases (live_addSubscriber hl.1).mp hl' with ⟨rfl, rfl, _⟩ | ⟨_, hl'⟩
      · exact ⟨e, hl, hi⟩
      · exact ⟨e', hl', hi⟩
  atlas_own p topic r' hr' := by
    obtain ⟨e', he', hp, ht⟩ := h.atlas_own p topic r' hr'
    rw [heap_addSubscriber]
    by_cases hr : r' = r
    · subst hr
      exact ⟨e'.addSubscriber record, by rw [if_pos rfl, he']; rfl, hp, ht⟩
    · exact ⟨e', by rw [if_neg hr, he'], hp, ht⟩
  subscriber_iff r' e' hl' s := by
    rcases (live_addSubscriber hl.1).mp hl' with ⟨rfl, rfl, _⟩ | ⟨hr, hl'⟩
    · rw [exists_addSubscriber_iff, h.subscriber_iff r' e hl]
      simp only [SubscriptionEntry.addSubscriber, and_true]
      tauto
    · rw [h.subscriber_iff r' e' hl']
      have : e'.id ≠ e.id := fun hi => hr (h.ref_unique hl' hl hi)
      simp [this]
  held_live s id hh := by
    rcases hh with hh | ⟨_, rfl⟩
    · exact h.held_live s id hh
    · exact ⟨r, h.byId_of_live hl⟩
  inhabited r' e' hl' := by
    rcases (live_addSubscriber hl.1).mp hl' with ⟨rfl, rfl, _⟩ | ⟨_, hl'⟩
    · exact ⟨record.sessionId, (exists_addSubscriber_iff e record _).mpr (.inl rfl)⟩
    · exact h.inhabited r' e' hl'

/-- Subscribing to a topic that has no entry, under an unused id. -/
theorem Sound.subscribe_new {t : SubscriptionTable} {held : Nat → Nat → Prop}
    (h : t.Sound held) {topic : String} {p : TopicMatchPolicy} {id : Nat}
    (hnew : t.subscriptionAtlas.get? p topic = none) (hid : t.subscriptionsById.get? id = none)
    (now : Nat) (record : SubscriberRecord) :
    ((t.findOrCreateSubscription topic p id now).1.addSubscriber t.heap.next record).Sound
      (fun s i => held s i ∨ (s = record.sessionId ∧ i = id)) := by
  let e : SubscriptionEntry := { id := id, topic := topic, matchPolicy := p, created := now }
  let t' := (t.findOrCreateSubscription topic p id now).1
  have hc : ∀ r e', t'.Live r e' ↔ (r = t.heap.next ∧ e' = e) ∨ t.Live r e' :=
    live_create hnew id now
  have he : t'.heap.get? t.heap.next = some e := ((hc _ e).mpr (.inl ⟨rfl, rfl⟩)).1
  have hold : ∀ {r e'}, t.Live r e' → r ≠ t.heap.next := fun hl hr =>
    absurd (Heap.lt_next hl.1) (by rw [hr]; exact Nat.lt_irrefl _)
  have hby : ∀ i, (t'.addSubscriber t.heap.next record).subscriptionsById.get? i =
      if i = id then some t.heap.next else t.subscriptionsById.get? i := by
    intro i
    simp only [t', addSubscriber, findOrCreateSubscription, hnew]
    exact t.subscriptionsById.get?_insert id i _
  have hl : ∀ r e', (t'.addSubscriber t.heap.next record).Live r e' ↔
      (r = t.heap.next ∧ e' = e.addSubscriber record) ∨ t.Live r e' := by
    intro r e'
    rw [live_addSubscriber he]
    constructor
    · rintro (⟨h₁, h₂, _⟩ | ⟨h₁, h₂⟩)
      · exact .inl ⟨h₁, h₂⟩
      · rcases (hc _ _).mp h₂ with ⟨h₃, _⟩ | h₃
        · exact absurd h₃ h₁
        · exact .inr h₃
    · rintro (⟨h₁, h₂⟩ | h₂)
      · exact .inl ⟨h₁, h₂, (hc _ _).mpr (.inl ⟨rfl, rfl⟩)⟩
      · exact .inr ⟨hold h₂, (hc _ _).mpr (.inr h₂)⟩
  refine ⟨fun i r => ?_, fun p' topic' r hr => ?_, fun r e' hle s => ?_, fun s i hh => ?_,
    fun r e' hle => ?_⟩
  · rw [hby]
    constructor
    · intro hi
      split at hi
      · next hi' =>
        exact ⟨_, (hl _ _).mpr (.inl ⟨(Option.some.inj hi).symm, rfl⟩), hi'.symm⟩
      · obtain ⟨e', hle, hi'⟩ := (h.byId_iff i r).mp hi
        exact ⟨e', (hl _ _).mpr (.inr hle), hi'⟩
    · rintro ⟨e', hle, hi⟩
      rcases (hl _ _).mp hle with ⟨rfl, rfl⟩ | hle
      · rw [if_pos (show i = id from hi.symm)]
      · have := h.byId_of_live hle
        rw [hi] at this
        rw [if_neg, this]
        rintro rfl
        rw [hid] at this
        cases this
  · have hat : (t'.addSubscriber t.heap.next record).subscriptionAtlas =
        t.subscriptionAtlas.insert p topic t.heap.next := by
      simp only [t', addSubscriber, findOrCreateSubscription, hnew]
    rw [hat, PatternIndex.get?_insert] at hr
    split at hr
    · next hpt =>
      refine ⟨e.addSubscriber record, ?_, hpt.1.symm, hpt.2.symm⟩
      rw [← Option.some.inj hr]
      exact ((hl _ _).mpr (.inl ⟨rfl, rfl⟩)).1
    · obtain ⟨e', he', hp', ht'⟩ := h.atlas_own _ _ _ hr
      have hle : t.Live r e' := ⟨he', by rw [hp', ht']; exact hr⟩
      exact ⟨e', ((hl _ _).mpr (.inr hle)).1, hp', ht'⟩
  · rcases (hl _ _).mp hle with ⟨rfl, rfl⟩ | hle
    · rw [exists_addSubscriber_iff]
      have hno : ¬ held s id := fun hh => by
        obtain ⟨r, hr⟩ := h.held_live s id hh
        rw [hid] at hr
        cases hr
      simp [e, SubscriptionEntry.addSubscriber, hno]
    · rw [h.subscriber_iff r e' hle]
      have : e'.id ≠ id := fun hi => by
        have := h.byId_of_live hle
        rw [hi, hid] at this
        cases this
      simp [this]
  · rw [hby]
    rcases hh with hh | ⟨_, rfl⟩
    · obtain ⟨r, hr⟩ := h.held_live s i hh
      split
      · exact ⟨_, rfl⟩
      · exact ⟨r, hr⟩
    · exact ⟨_, if_pos rfl⟩
  · rcases (hl _ _).mp hle with ⟨rfl, rfl⟩ | hle
    · exact ⟨record.sessionId, (exists_addSubscriber_iff e record _).mpr (.inl rfl)⟩
    · exact h.inhabited r e' hle

/-- **Subscribing keeps the tables sound.**  `r` is where the entry is found or created. -/
theorem Sound.subscribe {t t' : SubscriptionTable} {held : Nat → Nat → Prop} (h : t.Sound held)
    {topic : String} {p : TopicMatchPolicy} {id now : Nat} {r : Ref} {e : SubscriptionEntry}
    (hid : t.subscriptionsById.get? id = none)
    (hf : t.findOrCreateSubscription topic p id now = (t', r)) (he : t'.heap.get? r = some e)
    (record : SubscriberRecord) :
    (t'.addSubscriber r record).Sound
      (fun s i => held s i ∨ (s = record.sessionId ∧ i = e.id)) := by
  cases hat : t.subscriptionAtlas.get? p topic with
  | some r₀ =>
      simp only [findOrCreateSubscription, hat, Prod.mk.injEq] at hf
      obtain ⟨rfl, rfl⟩ := hf
      obtain ⟨e', he', hp, ht⟩ := h.atlas_own p topic r₀ hat
      have : e' = e := Option.some.inj (he'.symm.trans he)
      subst this
      exact h.subscribe_existing ⟨he, by rw [hp, ht]; exact hat⟩ record
  | none =>
      have hs := h.subscribe_new hat hid now record
      simp only [findOrCreateSubscription, hat, Prod.mk.injEq] at hf hs
      obtain ⟨rfl, rfl⟩ := hf
      have : e.id = id := by
        rw [Heap.get?_alloc, if_pos rfl] at he
        rw [← Option.some.inj he]
      exact this ▸ hs

/-! ### Unsubscribing -/

theorem heap_removeSubscriber (t : SubscriptionTable) (r r' : Ref) (s : Nat) :
    (t.removeSubscriber r s).heap.get? r' =
      if r' = r then (t.heap.get? r).map (·.removeSubscriber s) else t.heap.get? r' :=
  t.heap.get?_modify r r' _

theorem heap_unsubscribe (t : SubscriptionTable) (r : Ref) (e : SubscriptionEntry) (s : Nat) :
    (t.unsubscribe r e s).heap = (t.removeSubscriber r s).heap := by
  unfold unsubscribe
  dsimp only
  split <;> rfl

/-- The live entries after an unsubscription: the changed one while somebody is left on it, and
all the others. -/
theorem live_unsubscribe {t : SubscriptionTable} {r : Ref} {e : SubscriptionEntry}
    (hl : t.Live r e) (s : Nat) (r' : Ref) (e' : SubscriptionEntry) :
    (t.unsubscribe r e s).Live r' e' ↔
      (r' = r ∧ e' = e.removeSubscriber s ∧ (e.removeSubscriber s).subscribers.isEmpty = false) ∨
      (r' ≠ r ∧ t.Live r' e') := by
  have hatlas : (t.unsubscribe r e s).subscriptionAtlas =
      if (e.removeSubscriber s).subscribers.isEmpty then
        t.subscriptionAtlas.erase e.matchPolicy e.topic
      else t.subscriptionAtlas := by
    unfold unsubscribe
    dsimp only
    split <;> rfl
  unfold Live
  rw [heap_unsubscribe, hatlas, heap_removeSubscriber]
  by_cases hr : r' = r
  · subst hr
    rw [if_pos rfl, hl.1]
    cases hemp : (e.removeSubscriber s).subscribers.isEmpty
    · constructor
      · rintro ⟨h₁, _⟩
        exact .inl ⟨rfl, (Option.some.inj h₁).symm, rfl⟩
      · rintro (⟨_, rfl, _⟩ | ⟨hn, _⟩)
        · exact ⟨rfl, hl.2⟩
        · exact absurd rfl hn
    · constructor
      · rintro ⟨h₁, h₂⟩
        obtain rfl := Option.some.inj h₁
        rw [if_pos rfl, PatternIndex.get?_erase, if_pos ⟨rfl, rfl⟩] at h₂
        cases h₂
      · rintro (⟨_, _, hf⟩ | ⟨hn, _⟩)
        · cases hf
        · exact absurd rfl hn
  · rw [if_neg hr]
    cases hemp : (e.removeSubscriber s).subscribers.isEmpty
    · simp [hr]
    · simp only [if_true, PatternIndex.get?_erase]
      constructor
      · rintro ⟨h₁, h₂⟩
        split at h₂
        · cases h₂
        · exact .inr ⟨hr, h₁, h₂⟩
      · rintro (⟨hn, _⟩ | ⟨_, h₁, h₂⟩)
        · exact absurd hn hr
        · refine ⟨h₁, ?_⟩
          rw [if_neg]
          · exact h₂
          · rintro ⟨hp, ht⟩
            rw [hp, ht, hl.2] at h₂
            exact hr (Option.some.inj h₂).symm

theorem exists_removeSubscriber_iff (e : SubscriptionEntry) (s s' : Nat) :
    (∃ c, (e.removeSubscriber s).subscribers.get? s' = some c) ↔
      (s' ≠ s ∧ ∃ c, e.subscribers.get? s' = some c) := by
  simp only [SubscriptionEntry.removeSubscriber, SplayMap.get?_erase]
  by_cases h : s' = s <;> simp [h]

theorem byId_unsubscribe (t : SubscriptionTable) (r : Ref) (e : SubscriptionEntry) (s id : Nat) :
    (t.unsubscribe r e s).subscriptionsById.get? id =
      if (e.removeSubscriber s).subscribers.isEmpty = true ∧ id = e.id then none
      else t.subscriptionsById.get? id := by
  unfold unsubscribe
  dsimp only
  cases (e.removeSubscriber s).subscribers.isEmpty
  · simp [removeSubscriber]
  · simp only [if_true, removeSubscription, removeSubscriber, LinkedMap.get?_erase, true_and]

/-- **Unsubscribing keeps the tables sound.** -/
theorem Sound.unsubscribe {t : SubscriptionTable} {held : Nat → Nat → Prop} (h : t.Sound held)
    {id : Nat} {r : Ref} {e : SubscriptionEntry} (hf : t.findSubscriptionById id = some (r, e))
    (s : Nat) :
    (t.unsubscribe r e s).Sound (fun s' i => held s' i ∧ ¬ (s' = s ∧ i = id)) := by
  obtain ⟨hl, rfl⟩ := h.live_of_findSubscriptionById hf
  have hlive := live_unsubscribe hl s
  refine ⟨fun i r' => ?_, fun p topic r' hr' => ?_, fun r' e' hle s' => ?_, fun s' i hh => ?_,
    fun r' e' hle => ?_⟩
  · rw [byId_unsubscribe]
    constructor
    · intro hi
      split at hi
      · cases hi
      · next hcond =>
        obtain ⟨e', hle, hi'⟩ := (h.byId_iff i r').mp hi
        by_cases hr : r' = r
        · subst hr
          have he' : e' = e := Option.some.inj (hle.1.symm.trans hl.1)
          refine ⟨_, (hlive _ _).mpr (.inl ⟨rfl, rfl, ?_⟩), (by rw [← hi', he']; rfl)⟩
          rw [Bool.eq_false_iff]
          exact fun hemp => hcond ⟨hemp, by rw [← hi', he']⟩
        · exact ⟨e', (hlive _ _).mpr (.inr ⟨hr, hle⟩), hi'⟩
    · rintro ⟨e', hle, hi⟩
      rcases (hlive _ _).mp hle with ⟨rfl, rfl, hemp⟩ | ⟨hr, hle⟩
      · rw [if_neg (by simp [hemp]), ← show e.id = i from hi]
        exact h.byId_of_live hl
      · rw [if_neg]
        · exact (h.byId_iff i r').mpr ⟨e', hle, hi⟩
        · rintro ⟨_, rfl⟩
          exact hr (h.ref_unique hle hl hi)
  · have hat : t.subscriptionAtlas.get? p topic = some r' := by
      unfold SubscriptionTable.unsubscribe at hr'
      dsimp only at hr'
      split at hr'
      · simp only [removeSubscription, removeSubscriber, PatternIndex.get?_erase] at hr'
        split at hr'
        · cases hr'
        · exact hr'
      · exact hr'
    obtain ⟨e', he', hp, ht⟩ := h.atlas_own p topic r' hat
    rw [heap_unsubscribe, heap_removeSubscriber]
    by_cases hr : r' = r
    · subst hr
      exact ⟨e'.removeSubscriber s, by rw [if_pos rfl, he']; rfl, hp, ht⟩
    · exact ⟨e', by rw [if_neg hr, he'], hp, ht⟩
  · rcases (hlive _ _).mp hle with ⟨rfl, rfl, _⟩ | ⟨hr, hle⟩
    · rw [exists_removeSubscriber_iff, h.subscriber_iff r' e hl]
      simp only [SubscriptionEntry.removeSubscriber, and_true]
      tauto
    · rw [h.subscriber_iff r' e' hle]
      have : e'.id ≠ e.id := fun hi => hr (h.ref_unique hle hl hi)
      simp [this]
  · obtain ⟨hh, hne⟩ := hh
    obtain ⟨r', hr'⟩ := h.held_live s' i hh
    rw [byId_unsubscribe, if_neg]
    · exact ⟨r', hr'⟩
    · -- somebody else still lists the entry that is said to be empty
      rintro ⟨hemp, rfl⟩
      obtain ⟨c, hc⟩ := (exists_removeSubscriber_iff e s s').mpr
        ⟨fun hs => hne ⟨hs, rfl⟩, (h.subscriber_iff r e hl s').mpr hh⟩
      rw [SplayMap.isEmpty_iff.mp hemp] at hc
      cases hc
  · rcases (hlive _ _).mp hle with ⟨rfl, rfl, hemp⟩ | ⟨_, hle⟩
    · by_contra hno
      push Not at hno
      have : (e.removeSubscriber s).subscribers.isEmpty = true :=
        SplayMap.isEmpty_iff.mpr fun k => Option.eq_none_iff_forall_ne_some.mpr (hno k)
      rw [this] at hemp
      cases hemp
    · exact h.inhabited r' e' hle

/-! ### Memberships -/

/-- The record of session `s` on subscription `id`. -/
def subscriberOf (t : SubscriptionTable) (id s : Nat) : Option SubscriberRecord :=
  (t.findSubscriptionById id).bind fun (_, e) => e.subscribers.get? s

/-- An unsubscription ends one membership and touches no other. -/
theorem subscriberOf_unsubscribe {t : SubscriptionTable} {held : Nat → Nat → Prop}
    (h : t.Sound held) {id : Nat} {r : Ref} {e : SubscriptionEntry}
    (hf : t.findSubscriptionById id = some (r, e)) (s i s' : Nat) :
    (t.unsubscribe r e s).subscriberOf i s' =
      if s' = s ∧ i = id then none else t.subscriberOf i s' := by
  obtain ⟨hl, rfl⟩ := h.live_of_findSubscriptionById hf
  unfold subscriberOf findSubscriptionById
  rw [byId_unsubscribe, heap_unsubscribe]
  by_cases hi : i = e.id
  · subst hi
    rw [h.byId_of_live hl]
    cases hemp : (e.removeSubscriber s).subscribers.isEmpty
    · simp only [Bool.false_eq_true, if_false, Option.bind_some, heap_removeSubscriber,
        if_true, hl.1, Option.map_some, SubscriptionEntry.removeSubscriber, SplayMap.get?_erase,
        and_true]
    · have := SplayMap.isEmpty_iff.mp hemp s'
      simp only [SubscriptionEntry.removeSubscriber, SplayMap.get?_erase] at this
      simp only [and_self, if_true, Option.bind_none, Option.bind_some, hl.1, Option.map_some,
        and_true]
      split at this
      · next hs => rw [if_pos hs]
      · next hs => rw [if_neg hs, this]
  · simp only [hi, and_false, if_false]
    cases hr : t.subscriptionsById.get? i with
    | none => rfl
    | some r' =>
        have hne : r' ≠ r := by
          rintro rfl
          obtain ⟨e', hl', hi'⟩ := (h.byId_iff i r').mp hr
          exact hi (by rw [← hi', Option.some.inj (hl'.1.symm.trans hl.1)])
        simp [heap_removeSubscriber, hne]

end SubscriptionTable

end Connectanum
