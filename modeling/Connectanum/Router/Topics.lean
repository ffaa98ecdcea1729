import Connectanum.Lib.Sorting
import Connectanum.Router.Handlers
import Connectanum.State.Integrity
import Connectanum.State.Routing

/-!
# Router — Topics

Which events name their topic.  The store keeps the policy of a subscription in its entry, while
the worker that routes a PUBLISH reads it back from the options that the subscriber's record
retains.  A worker retains all of them; an internal session takes `match` out first.

* `InternalSession.subscribe` and `Publication.deliveries`: the paths of an internal session
  beside those of the workers;
* `Named`: what the records retain, over every run of what the sessions submit;
* `pattern_events_name_topic`: the events of a pattern subscription that name their topic.
-/

namespace Connectanum

open Collections RouterStateStore Machine

/-! ### The sessions -/

/-- `value as String?`. -/
def Value.castString : Value → Except Failure (Option String)
  | .null => .ok none
  | .str s => .ok (some s)
  | _ => .error (.other "type cast")

/-- `value as int?`. -/
def Value.castInt : Value → Except Failure (Option Int)
  | .null => .ok none
  | .int n => .ok (some n)
  | _ => .error (.other "type cast")

/-- The passthru options of a dictionary, where they are text. -/
def Dict.passthru (d : Dict) : Except Failure PPTOptions := do
  return { pptScheme := ← (d.at "ppt_scheme").castString
           pptSerializer := ← (d.at "ppt_serializer").castString
           pptCipher := ← (d.at "ppt_cipher").castString
           pptKeyId := ← (d.at "ppt_keyid").castString }

namespace InternalSession

/-- `_subscribe`, authorization aside: what the session asks the store for.  The options come as
`_subscribeOptionsToMap` writes them, which is `_subscriptionDetailsFromOptions` again. -/
def subscribe (sessionId : Nat) (topic : String) (options : Option SubscribeOptions) :
    Except Failure RealmRequest :=
  let details := subscriptionDetailsFromOptions options
  match (details.at "match").castString with
  | .error f => .error f
  | .ok raw =>
      let matchPolicy := matchPolicyFromOption raw
      match validateUri topic matchPolicy with
      | .error e => .error (.argument e)
      | .ok () => .ok (.addSubscription sessionId topic matchPolicy (details.erase "match"))

/-- `_publishOptionsToMap` of an internal session. -/
def publishOptionsToMap : Option PublishOptions → Dict
  | none => .empty
  | some options =>
      (((Connectanum.publishOptionsToMap (some options)).put "retain"
        (options.retain.map .bool)).putPPT options.toPPTOptions).addAll options.custom

/-- The options of a PUBLISH that its events do not repeat. -/
def publishOptionKeys : List String :=
  ["acknowledge", "exclude_me", "disclose_me", "retain", "exclude", "exclude_authid",
    "exclude_authrole", "eligible", "eligible_authid", "eligible_authrole", "ppt_scheme",
    "ppt_serializer", "ppt_cipher", "ppt_keyid"]

/-- The details of an EVENT that are not custom fields. -/
def eventDetailKeys : List String :=
  ["publisher", "trustlevel", "topic", "ppt_scheme", "ppt_serializer", "ppt_cipher", "ppt_keyid"]

/-- `eventDetails` of `_publish`. -/
def eventDetails (options : Dict) (ppt : PPTOptions) (matched : SubscriptionMatch) : Dict :=
  (matched.details.addAll (options.without publishOptionKeys)).putPPT ppt

/-- The EVENT that an internal session sends to another. -/
def internalEventPost (port : SendPort) (options : Dict) (ppt : PPTOptions) (publisher : Nat)
    (topic : String) (payload : Payload) (publicationId : Nat) (matched : SubscriptionMatch) :
    Post :=
  .internal port (.event matched.subscriptionId publicationId (some topic) (some publisher)
    (eventDetails options ppt matched) payload)
    (some (.publications publisher matched.subscriptionId))

/-- The EVENT that the boss makes of `_internalMsgForwardEvent`. -/
def forwardedEventPost (options : Dict) (ppt : PPTOptions) (publisher : Nat) (topic : String)
    (payload : Payload) (publicationId : Nat) (matched : SubscriptionMatch) : Option Post :=
  let detailMap := eventDetails options ppt matched
  match (detailMap.at "trustlevel").castInt with
  | .error _ => none
  | .ok trustlevel => some (.frame .boss
      { connectionId := matched.connectionId
        message := .event matched.subscriptionId publicationId
          { ppt with
            publisher := some publisher
            trustlevel := trustlevel
            topic := some topic
            custom := detailMap.without eventDetailKeys } payload
        stream := some (.publications publisher matched.subscriptionId) })

/-- What an internal session makes of `_internalMsgSubscriptionEvent`. -/
def receivedDetails (topic : Option String) (publisher : Option Nat) (detailMap : Dict) :
    Except Failure EventDetails := do
  return { ← detailMap.passthru with
           publisher := publisher
           trustlevel := ← (detailMap.at "trustlevel").castInt
           topic := topic
           custom := detailMap.without eventDetailKeys }

end InternalSession

/-- The details of an EVENT, as its subscriber gets them. -/
def Post.eventDetails? : Post → Option EventDetails
  | .frame _ { message := .event _ _ details _, .. } => some details
  | .internal _ (.event _ _ topic publisher details _) _ =>
      (InternalSession.receivedDetails topic publisher details).toOption
  | _ => none

/-- A PUBLISH, by who handles it. -/
inductive Publication where
  | worker (view : View) (options : Option PublishOptions)
  /-- `batch`: the payload is one large binary, so that the events go to the boss together. -/
  | internal (batch : Bool) (options : Option PublishOptions)

namespace Publication

def isInternal : Publication → Bool
  | .worker .. => false
  | .internal .. => true

/-- The options that the store filters by. -/
def options : Publication → Dict
  | .worker _ options => publishOptionsToMap options
  | .internal _ options => InternalSession.publishOptionsToMap options

/-- The events of a routed PUBLISH, each with what the store returned for it. -/
def deliveries (publisher : Nat) (topic : String) (payload : Payload)
    (routing : PublicationRouting) : Publication → List (SubscriptionMatch × Post)
  | .worker view options =>
      let post path m :=
        (m, eventPost path options publisher topic payload routing.publicationId m)
      let external := routing.matched.filter (·.internalSendPort.isNone)
      let canForwardNative := options.all (·.custom.isEmpty)
      let nativeMatches :=
        external.filter fun m => canForwardNative && view.native.contains m.connectionId
      let dartMatches :=
        external.filter fun m => !(canForwardNative && view.native.contains m.connectionId)
      let forwarded := if view.retains then dartMatches else dartMatches ++ nativeMatches
      (if view.retains then nativeMatches.map (post .native) else []) ++
      routing.matched.filterMap (fun m => m.internalSendPort.map fun port =>
        (m, internalEventPost port options publisher topic payload routing.publicationId m)) ++
      forwarded.map (post .forward)
  | .internal batch publishOptions =>
      let options := InternalSession.publishOptionsToMap publishOptions
      match options.passthru with
      | .error _ => []
      | .ok ppt =>
          let internalPost m := m.internalSendPort.map fun port =>
            (m, InternalSession.internalEventPost port options ppt publisher topic payload
              routing.publicationId m)
          let forwardedPost m := (InternalSession.forwardedEventPost options ppt publisher topic
            payload routing.publicationId m).map fun post => (m, post)
          if batch then
            -- an event that fails takes the others of the batch with it
            routing.matched.filterMap internalPost ++
              ((routing.matched.filter (·.internalSendPort.isNone)).mapM forwardedPost).getD []
          else
            routing.matched.filterMap fun m =>
              if m.internalSendPort.isSome then internalPost m else forwardedPost m

end Publication

/-! ### What a subscription retains -/

theorem Dict.get?_addAll (d : Dict) {other : Dict} {key : String} (h : other.get? key = none) :
    (d.addAll other).get? key = d.get? key := by
  have hother : ∀ e ∈ other.entries, key ≠ e.1 := by
    rintro ⟨k, v⟩ he rfl
    rw [LinkedMap.mem_entries.mp he] at h
    cases h
  unfold Dict.addAll
  generalize other.entries = entries at hother
  induction entries generalizing d with
  | nil => rfl
  | cons e rest ih =>
      rw [List.foldl_cons, ih _ fun x hx => hother x (List.mem_cons_of_mem _ hx),
        LinkedMap.get?_insert_of_ne _ _ (hother e (List.mem_cons_self ..))]

theorem Dict.get?_put_of_ne (d : Dict) {key key' : String} (h : key' ≠ key) (v : Option Value) :
    (d.put key v).get? key' = d.get? key' := by
  cases v with
  | none => rfl
  | some v => exact LinkedMap.get?_insert_of_ne _ _ h

/-- A worker retains the `match` of the options. -/
theorem match_subscriptionDetails {options : SubscribeOptions}
    (h : options.custom.get? "match" = none) :
    (subscriptionDetailsFromOptions (some options)).at "match" =
      (options.match.map Value.str).getD .null := by
  rw [subscriptionDetailsFromOptions, Dict.at, Dict.get?_addAll _ h,
    Dict.get?_put_of_ne _ (by decide), Dict.get?_put_of_ne _ (by decide)]
  cases options.match with
  | none => rfl
  | some raw => rw [Option.map_some, Dict.put, LinkedMap.get?_insert_self]

/-- Whether events under the policy name their topic, going by the options retained. -/
def Named (internal : Bool) (policy : TopicMatchPolicy) (details : Dict) : Prop :=
  policy ≠ .exact → ∀ topic,
    eventTopicForMatch details topic = if internal then none else some topic

theorem named_subscriptionDetails {options : Option SubscribeOptions}
    (h : ∀ o, options = some o → o.custom.get? "match" = none) :
    Named false (matchPolicyFromOption (options.bind (·.match)))
      (subscriptionDetailsFromOptions options) := by
  intro hpolicy topic
  cases options with
  | none => exact absurd rfl hpolicy
  | some options =>
      rw [eventTopicForMatch, match_subscriptionDetails (h options rfl)]
      rw [Option.bind_some] at hpolicy
      by_cases hprefixed : options.match = some "prefix"
      · rw [hprefixed]
        rfl
      · by_cases hwildcard : options.match = some "wildcard"
        · rw [hwildcard]
          rfl
        · exact absurd (by rw [matchPolicyFromOption, if_neg hprefixed, if_neg hwildcard]) hpolicy

theorem named_erase (details : Dict) (policy : TopicMatchPolicy) :
    Named true policy (details.erase "match") := by
  intro _ topic
  rw [eventTopicForMatch, Dict.at, LinkedMap.get?_erase_self]
  rfl

/-- What the sessions ask the store for when they subscribe: a worker for an external session,
whose custom options do not hold `match`, and the internal sessions. -/
inductive Subscribing (internal : Nat → Bool) : RealmRequest → Prop where
  | worker {s : Nat} (topic : String) {options : Option SubscribeOptions}
      (external : internal s = false)
      (custom : ∀ o, options = some o → o.custom.get? "match" = none) :
      Subscribing internal (.addSubscription s topic
        (matchPolicyFromOption (options.bind (·.match))) (subscriptionDetailsFromOptions options))
  | internal {s : Nat} {topic : String} {options : Option SubscribeOptions}
      {request : RealmRequest} (isInternal : internal s = true)
      (asked : InternalSession.subscribe s topic options = .ok request) :
      Subscribing internal request

theorem Subscribing.named {internal : Nat → Bool} {s : Nat} {topic : String}
    {policy : TopicMatchPolicy} {details : Dict}
    (h : Subscribing internal (.addSubscription s topic policy details)) :
    Named (internal s) policy details := by
  generalize hrequest : RealmRequest.addSubscription s topic policy details = request at h
  cases h with
  | worker topic' external custom =>
      cases hrequest
      rw [external]
      exact named_subscriptionDetails custom
  | @internal s' _ options _ isInternal asked =>
      subst hrequest
      unfold InternalSession.subscribe at asked
      dsimp only at asked
      split at asked
      · cases asked
      · split at asked
        · cases asked
        · cases asked
          rw [isInternal]
          exact named_erase _ _

/-! ### Runs -/

/-- What the sessions submit to the store, where `internal` tells which ids are those of internal
sessions: an internal session opens with its port. -/
def Submitted (internal : Nat → Bool) : StoreInput → Prop
  | .command (.sessionOpen _ session) => session.internalSendPort.isSome = internal session.id
  | .command (.subscriptionAdd _ s topic policy details _) =>
      Subscribing internal (.addSubscription s topic policy details)
  | _ => True

/-- The subscriber records of a table are those that the sessions left. -/
def SubscriptionTable.Told (internal : Nat → Bool) (t : SubscriptionTable) : Prop :=
  ∀ ref e s record, t.heap.get? ref = some e → e.subscribers.get? s = some record →
    Named (internal s) e.matchPolicy record.details

/-- The records of a realm are those of the sessions. -/
structure Told (internal : Nat → Bool) (r : RealmRecord) : Prop where
  keyed : r.subscriptions.Keyed
  table : r.subscriptions.Told internal
  sessions : ∀ s session, r.sessions.get? s = some session →
    session.internalSendPort.isSome = internal s

section Told

variable {internal : Nat → Bool} {t : SubscriptionTable} {r r' : RealmRecord}

theorem SubscriptionTable.Told.findOrCreate (h : t.Told internal) (topic : String)
    (p : TopicMatchPolicy) (id now : Nat) :
    (t.findOrCreateSubscription topic p id now).1.Told internal := by
  intro ref e s record he hrecord
  unfold findOrCreateSubscription at he
  split at he
  · exact h ref e s record he hrecord
  · dsimp only at he
    rw [Heap.get?_alloc] at he
    split at he
    · cases he
      cases hrecord
    · exact h ref e s record he hrecord

/-- An entry that is found has the policy that was asked for. -/
theorem SubscriptionTable.Keyed.policy_findOrCreate (h : t.Keyed) (topic : String)
    (p : TopicMatchPolicy) (id now : Nat) {e : SubscriptionEntry}
    (he : (t.findOrCreateSubscription topic p id now).1.heap.get?
      (t.findOrCreateSubscription topic p id now).2 = some e) : e.matchPolicy = p := by
  unfold findOrCreateSubscription at he
  split at he
  · next ref hat => exact (h.live hat he).2.1
  · dsimp only at he
    rw [Heap.get?_alloc, if_pos rfl] at he
    cases he
    rfl

theorem SubscriptionTable.Told.addSubscriber (h : t.Told internal) {ref : Ref}
    {entry : SubscriptionEntry} (hat : t.heap.get? ref = some entry) (record : SubscriberRecord)
    (hrecord : Named (internal record.sessionId) entry.matchPolicy record.details) :
    (t.addSubscriber ref record).Told internal := by
  intro ref' e s record' he hrecord'
  rw [heap_addSubscriber] at he
  split at he
  · rw [hat] at he
    cases he
    change (entry.subscribers.insert record.sessionId record).get? s = _ at hrecord'
    rw [SplayMap.get?_insert] at hrecord'
    split at hrecord'
    · next hs =>
        cases hrecord'
        rw [hs]
        exact hrecord
    · exact h ref entry s record' hat hrecord'
  · exact h ref' e s record' he hrecord'

theorem SubscriptionTable.Told.unsubscribe (h : t.Told internal) (ref : Ref)
    (entry : SubscriptionEntry) (s : Nat) : (t.unsubscribe ref entry s).Told internal := by
  intro ref' e s' record he hrecord
  rw [heap_unsubscribe, heap_removeSubscriber] at he
  split at he
  · obtain ⟨e', he', rfl⟩ := Option.map_eq_some_iff.mp he
    change (e'.subscribers.erase s).get? s' = _ at hrecord
    rw [SplayMap.get?_erase] at hrecord
    split at hrecord
    · cases hrecord
    · exact h ref e' s' record he' hrecord
  · exact h ref' e s' record he hrecord

theorem Told.modifySession (h : Told internal r) (s : Nat) {f : SessionRecord → SessionRecord}
    (hf : ∀ session, (f session).internalSendPort = session.internalSendPort) :
    Told internal (r.modifySession s f) where
  keyed := by
    rw [RealmRecord.modifySession_subscriptions]
    exact h.keyed
  table := by
    rw [RealmRecord.modifySession_subscriptions]
    exact h.table
  sessions := by
    intro s' session hs
    rw [RealmRecord.get?_modifySession] at hs
    split at hs
    · next hsame =>
        obtain ⟨session', hs', rfl⟩ := Option.map_eq_some_iff.mp hs
        rw [hf, hsame]
        exact h.sessions s session' hs'
    · exact h.sessions s' session hs

theorem Told.withSubscriptions (h : Told internal r) (hkeyed : t.Keyed) (htable : t.Told internal) :
    Told internal { r with subscriptions := t } :=
  ⟨hkeyed, htable, h.sessions⟩

theorem Told.withProcedures (h : Told internal r) (procedures : ProcedureTable) :
    Told internal { r with procedures := procedures } :=
  ⟨h.keyed, h.table, h.sessions⟩

theorem Told.bumpVersion (h : Told internal r) : Told internal r.bumpVersion :=
  ⟨h.keyed, h.table, h.sessions⟩

/-- **The step lemma.** -/
theorem told_move {st : RouterStateStore} {input : StoreInput} {u : String}
    {events : List StoreOutput} (hsub : Submitted internal input)
    (h : RealmMove st input u r events r') (hr : Told internal r) : Told internal r' := by
  cases h with
  | shown | invoked | turned | touched | bumped => exact ⟨hr.keyed, hr.table, hr.sessions⟩
  | @joined session isOpen =>
      subst isOpen
      refine ⟨hr.keyed, hr.table, fun s session' hs => ?_⟩
      change (r.sessions.insert _ _).get? s = _ at hs
      rw [r.sessions.get?_insert] at hs
      split at hs
      · next hsame =>
          cases hs
          rw [hsame]
          exact hsub
      · exact hr.sessions s session' hs
  | @departed s =>
      refine ⟨hr.keyed, hr.table, fun s' session hs => ?_⟩
      change (r.sessions.erase s).get? s' = _ at hs
      rw [r.sessions.get?_erase] at hs
      split at hs
      · cases hs
      · exact hr.sessions s' session hs
  | @subscribed s session topic p details port now table ref entry isAdd here present found at_ref =>
      subst isAdd
      have hkeyed := hr.keyed.findOrCreate topic p st.ids.subscription.nextId now
      have htable := hr.table.findOrCreate topic p st.ids.subscription.nextId now
      have hpolicy : entry.matchPolicy = p :=
        hr.keyed.policy_findOrCreate topic p st.ids.subscription.nextId now
          (by rw [found]; exact at_ref)
      have hnamed : Named (internal s) entry.matchPolicy details := by
        rw [hpolicy]
        exact Subscribing.named hsub
      rw [found] at hkeyed htable
      have hadded := htable.addSubscriber at_ref ⟨s, session.authRole, details⟩ hnamed
      refine Told.bumpVersion (Told.modifySession ?_ s fun _ => rfl)
      exact hr.withSubscriptions (hkeyed.addSubscriber ref _) hadded
  | @unsubscribed s id ref entry _ found =>
      rw [RealmRecord.removeSubscription, found]
      refine Told.bumpVersion (Told.modifySession ?_ s fun _ => rfl)
      exact hr.withSubscriptions (hr.keyed.unsubscribe ref entry s)
        (hr.table.unsubscribe ref entry s)
  | @registered s =>
      refine Told.bumpVersion (Told.modifySession ?_ s fun _ => rfl)
      exact hr.withProcedures _
  | @unregistered s id ref entry _ found =>
      rw [RealmRecord.unregisterProcedure, found]
      refine Told.bumpVersion (Told.modifySession ?_ s fun _ => rfl)
      exact hr.withProcedures _

theorem told_moves {st : RouterStateStore} {input : StoreInput} {u : String}
    {events : List StoreOutput} (hsub : Submitted internal input)
    (h : Moves st input u r events r') (hr : Told internal r) : Told internal r' := by
  induction h with
  | nil => exact hr
  | cons move _ ih => exact ih (told_move hsub move hr)

/-- **The run lemma.** -/
theorem told_run (inputs : List (StoreEnv × StoreInput))
    (hsub : ∀ x ∈ inputs, Submitted internal x.2) {st : RouterStateStore} {u : String}
    (h : Told internal (st.realmOf u)) :
    Told internal ((inputs.foldl RouterStateStore.step st).realmOf u) := by
  induction inputs generalizing st with
  | nil => exact h
  | cons x rest ih =>
      obtain ⟨events, hmoves, -⟩ := RouterStateStore.moved_handle x.1 st x.2 u
      exact ih (fun y hy => hsub y (List.mem_cons_of_mem _ hy))
        (told_moves (hsub x (List.mem_cons_self ..)) hmoves h)

theorem told_reached (configs : List String) (inputs : List (StoreEnv × StoreInput))
    (hsub : ∀ x ∈ inputs, Submitted internal x.2) (u : String) :
    Told internal ((inputs.foldl step { realmConfigs := configs }).realmOf u) := by
  refine told_run inputs hsub ⟨fun _ _ _ h => ?_, fun _ _ _ _ h => ?_, fun _ _ h => ?_⟩
  · rw [RouterStateStore.realmOf] at h
    simp at h
  · rw [RouterStateStore.realmOf] at h
    simp at h
  · rw [RouterStateStore.realmOf] at h
    simp at h

end Told

/-! ### The events -/

namespace Publication

variable {publisher : Nat} {topic : String} {payload : Payload} {routing : PublicationRouting}
  {m : SubscriptionMatch} {post : Post} {details : EventDetails}

theorem topic_received {topic : Option String} {publisher : Option Nat} {detailMap : Dict}
    (h : (InternalSession.receivedDetails topic publisher detailMap).toOption = some details) :
    details.topic = topic := by
  unfold InternalSession.receivedDetails at h
  cases hppt : detailMap.passthru with
  | error f => rw [hppt] at h; cases h
  | ok ppt =>
      cases htrust : (detailMap.at "trustlevel").castInt with
      | error f => rw [hppt, htrust] at h; cases h
      | ok trustlevel =>
          rw [hppt, htrust] at h
          cases h
          rfl

/-- A worker's event names its topic as the retained options say. -/
theorem topic_worker {view : View} {options : Option PublishOptions}
    (h : (m, post) ∈ (worker view options).deliveries publisher topic payload routing) :
    m ∈ routing.matched ∧ ∀ details, post.eventDetails? = some details →
      details.topic = eventTopicForMatch m.details topic := by
  have hframe : ∀ path m', (m', eventPost path options publisher topic payload
      routing.publicationId m') = (m, post) → ∀ details, post.eventDetails? = some details →
        details.topic = eventTopicForMatch m.details topic := by
    rintro path m' heq details hdetails
    cases heq
    cases hdetails
    rfl
  have hfilter : ∀ {p q : SubscriptionMatch → Bool} {m'},
      m' ∈ (routing.matched.filter p).filter q → m' ∈ routing.matched :=
    fun h => List.mem_of_mem_filter (List.mem_of_mem_filter h)
  unfold deliveries at h
  dsimp only at h
  rw [List.mem_append, List.mem_append] at h
  rcases h with (h | h) | h
  · split at h
    · obtain ⟨m', hm', heq⟩ := List.mem_map.mp h
      refine ⟨?_, hframe _ m' heq⟩
      cases heq
      exact hfilter hm'
    · cases h
  · obtain ⟨m', hm', heq⟩ := List.mem_filterMap.mp h
    obtain ⟨port, -, heq⟩ := Option.map_eq_some_iff.mp heq
    cases heq
    exact ⟨hm', fun details hdetails => topic_received hdetails⟩
  · obtain ⟨m', hm', heq⟩ := List.mem_map.mp h
    refine ⟨?_, hframe _ m' heq⟩
    cases heq
    split at hm'
    · exact hfilter hm'
    · rcases List.mem_append.mp hm' with hm' | hm'
      · exact hfilter hm'
      · exact hfilter hm'

/-- An internal session's event always names its topic. -/
theorem topic_internal {batch : Bool} {options : Option PublishOptions}
    (h : (m, post) ∈ (internal batch options).deliveries publisher topic payload routing) :
    m ∈ routing.matched ∧ ∀ details, post.eventDetails? = some details →
      details.topic = some topic := by
  unfold deliveries at h
  dsimp only at h
  split at h
  · cases h
  · next ppt _ =>
      have hinternal : ∀ m', (m'.internalSendPort.map fun port => (m',
          InternalSession.internalEventPost port (InternalSession.publishOptionsToMap options) ppt
            publisher topic payload routing.publicationId m')) = some (m, post) →
          m' = m ∧ ∀ details, post.eventDetails? = some details → details.topic = some topic := by
        intro m' heq
        obtain ⟨port, -, heq⟩ := Option.map_eq_some_iff.mp heq
        cases heq
        exact ⟨rfl, fun details hdetails => topic_received hdetails⟩
      have hforwarded : ∀ m', ((InternalSession.forwardedEventPost
          (InternalSession.publishOptionsToMap options) ppt publisher topic payload
          routing.publicationId m').map fun post => (m', post)) = some (m, post) →
          m' = m ∧ ∀ details, post.eventDetails? = some details → details.topic = some topic := by
        intro m' heq
        obtain ⟨post', hpost, heq⟩ := Option.map_eq_some_iff.mp heq
        cases heq
        refine ⟨rfl, fun details hdetails => ?_⟩
        unfold InternalSession.forwardedEventPost at hpost
        dsimp only at hpost
        split at hpost
        · cases hpost
        · cases hpost
          cases hdetails
          rfl
      split at h
      · rcases List.mem_append.mp h with h | h
        · obtain ⟨m', hm', heq⟩ := List.mem_filterMap.mp h
          obtain ⟨rfl, htopic⟩ := hinternal m' heq
          exact ⟨hm', htopic⟩
        · obtain ⟨m', hm', heq⟩ := exists_of_mem_mapM h
          obtain ⟨rfl, htopic⟩ := hforwarded m' heq
          exact ⟨List.mem_of_mem_filter hm', htopic⟩
      · obtain ⟨m', hm', heq⟩ := List.mem_filterMap.mp h
        split at heq
        · obtain ⟨rfl, htopic⟩ := hinternal m' heq
          exact ⟨hm', htopic⟩
        · obtain ⟨rfl, htopic⟩ := hforwarded m' heq
          exact ⟨hm', htopic⟩

theorem topic_delivered {publication : Publication}
    (h : (m, post) ∈ publication.deliveries publisher topic payload routing) :
    m ∈ routing.matched ∧ ∀ details, post.eventDetails? = some details →
      details.topic =
        if publication.isInternal then some topic else eventTopicForMatch m.details topic := by
  cases publication with
  | worker => exact topic_worker h
  | internal => exact topic_internal h

end Publication

/-- The policy of the subscription that a delivery is for decides what its record retains. -/
theorem Told.routed {internal : Nat → Bool} {r : RealmRecord} (h : Told internal r)
    {published : String} {publisher : Nat} {options : Dict}
    {key : (TopicMatchPolicy × String) × Nat} {m : SubscriptionMatch}
    (hrouted : r.Routed published publisher options key m) :
    m.internalSendPort.isSome = internal key.2 ∧ Named (internal key.2) key.1.1 m.details := by
  obtain ⟨ref, entry, record, session, hat, hentry, -, hrecord, hsession, -, rfl⟩ := hrouted
  obtain ⟨-, hpolicy, -⟩ := h.keyed.live hat hentry
  rw [← hpolicy]
  exact ⟨h.sessions key.2 session hsession, h.table ref entry key.2 record hentry hrecord⟩

/-- **Events of pattern subscriptions.**  After every sequence of inputs that the sessions submit,
the EVENT of a PUBLISH under a prefix or wildcard subscription names the published topic if and
only if the publisher is an internal session or the subscriber an external one. -/
theorem pattern_events_name_topic (internal : Nat → Bool) (configs : List String)
    (inputs : List (StoreEnv × StoreInput)) (hsub : ∀ x ∈ inputs, Submitted internal x.2)
    (uri published : String) (publisher : Nat) (payload : Payload) (publication : Publication)
    {st : RouterStateStore} {routing : PublicationRouting}
    (h : (inputs.foldl step { realmConfigs := configs }).matchSubscriptions uri published publisher
      publication.options = (st, .ok routing)) {m : SubscriptionMatch} {post : Post}
    (hpost : (m, post) ∈ publication.deliveries publisher published payload routing) :
    let realm := (inputs.foldl step { realmConfigs := configs }).realmOf uri
    (∃ key, realm.Routed published publisher publication.options key m) ∧
      ∀ key, realm.Routed published publisher publication.options key m → key.1.1 ≠ .exact →
        ∀ details, post.eventDetails? = some details →
          (details.topic = some published ↔
            publication.isInternal = true ∨ m.internalSendPort = none) := by
  intro realm
  have htold : Told internal realm := told_reached configs inputs hsub uri
  obtain ⟨keyed, hmatched, -, hkeyed⟩ := routedOnce_of_matchSubscriptions htold.keyed h
  obtain ⟨hm, htopic⟩ := Publication.topic_delivered hpost
  refine ⟨?_, fun key hrouted hpattern details hdetails => ?_⟩
  · rw [← hmatched] at hm
    obtain ⟨⟨key, m'⟩, hx, rfl⟩ := List.mem_map.mp hm
    exact ⟨key, (hkeyed key m').mp hx⟩
  · obtain ⟨hport, hnamed⟩ := htold.routed hrouted
    rw [htopic details hdetails, hnamed hpattern published, ← hport]
    cases publication.isInternal <;> cases m.internalSendPort <;> simp

/-- The sessions `1` and `3` are external, `2` is internal; `2` and `3` subscribe to a prefix. -/
def topicInputs : List (StoreEnv × StoreInput) :=
  let options : SubscribeOptions := { «match» := some "prefix" }
  [({}, .command (.sessionOpen "realm1" { id := 1, connectionId := 1 })),
   ({}, .command (.sessionOpen "realm1" { id := 2, connectionId := 0, internalSendPort := some 7 })),
   ({}, .command (.sessionOpen "realm1" { id := 3, connectionId := 3 })),
   ({}, .command (.subscriptionAdd "realm1" 2 "com" .prefixed
     ((subscriptionDetailsFromOptions (some options)).erase "match") 0)),
   ({}, .command (.subscriptionAdd "realm1" 3 "com" .prefixed
     (subscriptionDetailsFromOptions (some options)) 0))]

theorem topicInputs_submitted : ∀ x ∈ topicInputs, Submitted (· == 2) x.2 := by
  intro x hx
  rw [topicInputs] at hx
  simp only [List.mem_cons, List.not_mem_nil, or_false] at hx
  rcases hx with rfl | rfl | rfl | rfl | rfl
  · rfl
  · rfl
  · rfl
  · have asked : InternalSession.subscribe 2 "com" (some { «match» := some "prefix" }) =
        .ok (.addSubscription 2 "com" .prefixed
          ((subscriptionDetailsFromOptions (some { «match» := some "prefix" })).erase "match")) :=
      rfl
    exact .internal rfl asked
  · have custom : ∀ o, some ({ «match» := some "prefix" } : SubscribeOptions) = some o →
        o.custom.get? "match" = none := by
      intro o ho
      cases ho
      rfl
    exact .worker "com" rfl custom

/-- A PUBLISH of session `1` reaches both subscribers, and the internal one is not told what was
published. -/
theorem internal_subscriber_untold : (∀ x ∈ topicInputs, Submitted (· == 2) x.2) ∧
    ((topicInputs.foldl step { realmConfigs := ["realm1"] }).matchSubscriptions "realm1"
      "com.topic" 1 .empty).2.toOption.map (fun routing =>
        ((Publication.worker { state := {} } none).deliveries 1 "com.topic" .null routing).map
          fun x => (x.1.subscriptionId, x.1.sessionId, x.2.eventDetails?.map (·.topic))) =
      some [(1, 2, some none), (1, 3, some (some "com.topic"))] ∧
    ((((topicInputs.foldl step { realmConfigs := ["realm1"] }).realmOf
      "realm1").subscriptions.findSubscriptionById 1).map (·.2.matchPolicy)) = some .prefixed := by
  refine ⟨topicInputs_submitted, ?_, ?_⟩
  · decide +kernel
  · decide +kernel

/-- The same PUBLISH, at its external subscriber. -/
theorem pattern_events_name_topic_sample : ∃ (m : SubscriptionMatch) (post : Post),
    m.sessionId = 3 ∧
    let realm := (topicInputs.foldl step { realmConfigs := ["realm1"] }).realmOf "realm1"
    (∃ key, realm.Routed "com.topic" 1 .empty key m) ∧
      ∀ key, realm.Routed "com.topic" 1 .empty key m → key.1.1 ≠ .exact →
        ∀ details, post.eventDetails? = some details →
          (details.topic = some "com.topic" ↔ false = true ∨ m.internalSendPort = none) := by
  cases hm : (topicInputs.foldl step { realmConfigs := ["realm1"] }).matchSubscriptions "realm1"
      "com.topic" 1 .empty with
  | mk st result =>
      have hsessions : ((topicInputs.foldl step { realmConfigs := ["realm1"] }).matchSubscriptions
          "realm1" "com.topic" 1 .empty).2.toOption.map (fun routing =>
            ((Publication.worker { state := {} } none).deliveries 1 "com.topic" .null routing).map
              fun x => x.1.sessionId) = some [2, 3] := by decide +kernel
      rw [hm] at hsessions
      cases result with
      | error e => cases hsessions
      | ok routing =>
          have hthree : 3 ∈ ((Publication.worker { state := {} } none).deliveries 1 "com.topic"
              .null routing).map fun x => x.1.sessionId := by
            have hlist := Option.some.inj hsessions
            dsimp only at hlist
            rw [hlist]
            decide
          obtain ⟨⟨m, post⟩, hpost, hs⟩ := List.mem_map.mp hthree
          exact ⟨m, post, hs, pattern_events_name_topic (· == 2) ["realm1"] topicInputs
            topicInputs_submitted "realm1" "com.topic" 1 .null (.worker { state := {} } none) hm
            hpost⟩

end Connectanum
