import Connectanum.Lib.Runs
import Mathlib.Data.Finset.Basic
import Mathlib.Logic.Function.Basic

/-!
# Client — MetaCache

The cache of a realm's meta state, and the realm beside it.

The cache subscribes to the meta topics one after the other, reads what there is, and replays over it
what it has been sent in the meantime.  The router routes a meta event some time after the change that
it tells of, to those who are subscribed by then.
-/

namespace Connectanum

/-- Registrations and subscriptions, which the cache keeps in the same way. -/
inductive MetaKind where
  | registration
  | subscription
deriving DecidableEq

/-- The meta topics: `wamp.session.on_join` and `on_leave`; and of a kind `on_create`, `on_register`
or `on_subscribe`, `on_unregister` or `on_unsubscribe`, and `on_delete`. -/
inductive MetaTopic where
  | joined
  | left
  | created (kind : MetaKind)
  | added (kind : MetaKind)
  | removed (kind : MetaKind)
  | deleted (kind : MetaKind)
deriving DecidableEq

/-- `_eventTopics`, in the order in which the cache subscribes to them. -/
def eventTopics : List MetaTopic :=
  [.joined, .left,
    .created .registration, .added .registration, .removed .registration, .deleted .registration,
    .created .subscription, .added .subscription, .removed .subscription, .deleted .subscription]

/-- A string-keyed map.  The cache itself reads `session` and `id` of it. -/
structure MetaDetails (δ : Type) where
  session : Option Nat := none
  id : Option Nat := none
  rest : δ

inductive MetaArgument (δ : Type) where
  | int (n : Nat)
  | map (details : MetaDetails δ)
  | other

/-- `_BufferedMetaEvent`. -/
structure MetaEvent (δ : Type) where
  topic : MetaTopic
  arguments : List (MetaArgument δ)

/-- `WampRegistrationMeta` and `WampSubscriptionMeta`, with their callees or subscribers. -/
structure MetaEntry (δ : Type) where
  details : MetaDetails δ
  members : Finset Nat := ∅

/-- The sessions, registrations and subscriptions by their ids. -/
structure MetaTables (δ : Type) where
  sessions : Nat → Option (MetaDetails δ) := fun _ => none
  entries : MetaKind → Nat → Option (MetaEntry δ) := fun _ _ => none

variable {δ : Type}

/-! ### The events -/

def stringMap : Option (MetaArgument δ) → Option (MetaDetails δ)
  | some (.map details) => some details
  | _ => none

def asInt : Option (MetaArgument δ) → Option Nat
  | some (.int n) => some n
  | _ => none

namespace MetaTables

def setSession (t : MetaTables δ) (id : Nat) (details : Option (MetaDetails δ)) : MetaTables δ :=
  { t with sessions := Function.update t.sessions id details }

def setEntry (t : MetaTables δ) (kind : MetaKind) (id : Nat) (entry : Option (MetaEntry δ)) :
    MetaTables δ :=
  { t with entries := Function.update t.entries kind (Function.update (t.entries kind) id entry) }

def removeSessionMemberships (t : MetaTables δ) (session : Nat) : MetaTables δ :=
  { t with
    entries := fun kind id =>
      (t.entries kind id).map fun entry => { entry with members := entry.members.erase session } }

/-- `_updateRegistrationMember` and `_updateSubscriptionMember`, with whether something changed. -/
def updateMember (t : MetaTables δ) (kind : MetaKind) (arguments : List (MetaArgument δ))
    (add : Bool) : MetaTables δ × Bool :=
  match asInt arguments[0]?, asInt arguments[1]? with
  | some session, some id =>
      match t.entries kind id with
      | none => (t, false)
      | some entry =>
          if add = decide (session ∈ entry.members) then (t, false)
          else
            let members := if add then insert session entry.members else entry.members.erase session
            (t.setEntry kind id (some { entry with members }), true)
  | _, _ => (t, false)

def applyEvent (t : MetaTables δ) (event : MetaEvent δ) : MetaTables δ × Bool :=
  match event.topic with
  | .joined =>
      match stringMap event.arguments[0]? with
      | some details =>
          match details.session.or details.id with
          | some id => (t.setSession id (some details), true)
          | none => (t, false)
      | none => (t, false)
  | .left =>
      match asInt event.arguments[0]? with
      | some id => ((t.setSession id none).removeSessionMemberships id, true)
      | none => (t, false)
  | .created kind =>
      match stringMap event.arguments[1]? with
      | some details =>
          match details.id with
          | some id => (t.setEntry kind id (some { details }), true)
          | none => (t, false)
      | none => (t, false)
  | .added kind => t.updateMember kind event.arguments true
  | .removed kind => t.updateMember kind event.arguments false
  | .deleted kind =>
      match asInt event.arguments[1]? with
      | some id => (t.setEntry kind id none, (t.entries kind id).isSome)
      | none => (t, false)

/-- `addAll`, for each of the maps. -/
def addAll (t state : MetaTables δ) : MetaTables δ where
  sessions id := (state.sessions id).or (t.sessions id)
  entries kind id := (state.entries kind id).or (t.entries kind id)

end MetaTables

/-! ### The cache -/

structure MetaCache (δ : Type) where
  tables : MetaTables δ := {}
  bufferedEvents : List (MetaEvent δ) := []
  hydrating : Bool := true
  snapshot : MetaTables δ := {}

namespace MetaCache

def handleEvent (c : MetaCache δ) (event : MetaEvent δ) : MetaCache δ :=
  if c.hydrating then { c with bufferedEvents := c.bufferedEvents ++ [event] }
  else
    let (tables, changed) := c.tables.applyEvent event
    { c with tables, snapshot := if changed then tables else c.snapshot }

/-- The end of `_initialize`, from the state that has been read. -/
def hydrate (c : MetaCache δ) (state : MetaTables δ) : MetaCache δ :=
  let tables := c.bufferedEvents.foldl (fun t event => (t.applyEvent event).1)
    (c.tables.addAll state)
  { tables, bufferedEvents := [], hydrating := false, snapshot := tables }

end MetaCache

/-! ### The realm -/

/-- The changes of a realm.  A session creates an entry, and is added to one, removed from one, or
the last to leave one that is deleted. -/
inductive RealmChange (δ : Type) where
  | join (session : Nat) (details : δ)
  | leave (session : Nat)
  | create (kind : MetaKind) (session id : Nat) (details : δ)
  | add (kind : MetaKind) (session id : Nat)
  | remove (kind : MetaKind) (session id : Nat)
  | delete (kind : MetaKind) (session id : Nat)

namespace RealmChange

/-- What a change leaves of the realm. -/
def apply (t : MetaTables δ) : RealmChange δ → MetaTables δ
  | .join session rest => t.setSession session (some { session := some session, rest })
  | .leave session => (t.setSession session none).removeSessionMemberships session
  | .create kind _ id rest => t.setEntry kind id (some { details := { id := some id, rest } })
  | .add kind session id =>
      t.setEntry kind id ((t.entries kind id).map fun entry =>
        { entry with members := insert session entry.members })
  | .remove kind session id =>
      t.setEntry kind id ((t.entries kind id).map fun entry =>
        { entry with members := entry.members.erase session })
  | .delete kind _ id => t.setEntry kind id none

/-- The meta event of a change, with its arguments as the router sends them. -/
def event : RealmChange δ → MetaEvent δ
  | .join session rest => ⟨.joined, [.map { session := some session, rest }]⟩
  | .leave session => ⟨.left, [.int session, .other, .other]⟩
  | .create kind session id rest =>
      ⟨.created kind, [.int session, .map { id := some id, rest }]⟩
  | .add kind session id => ⟨.added kind, [.int session, .int id]⟩
  | .remove kind session id => ⟨.removed kind, [.int session, .int id]⟩
  | .delete kind session id => ⟨.deleted kind, [.int session, .int id]⟩

/-- A session can be added to an entry that there is. -/
def Possible (t : MetaTables δ) : RealmChange δ → Prop
  | .add kind _ id => (t.entries kind id).isSome = true
  | _ => True

end RealmChange

/-! ### Hydration -/

/-- The answers that the cache has received to its calls; `none` where there is none yet, and
`some none` for the error that there is no such session or entry. -/
structure MetaAnswers (δ : Type) where
  /-- How many of the topics the cache is subscribed to. -/
  subscribed : Nat := 0
  sessionIds : Option (List Nat) := none
  entryIds : MetaKind → Option (List Nat) := fun _ => none
  session : Nat → Option (Option (MetaDetails δ)) := fun _ => none
  details : MetaKind → Nat → Option (Option (MetaDetails δ)) := fun _ _ => none
  members : MetaKind → Nat → Option (Option (Finset Nat)) := fun _ _ => none

namespace MetaAnswers

/-- `_loadSession`. -/
def loadSession (a : MetaAnswers δ) (id : Nat) : Option (MetaDetails δ) := (a.session id).join

/-- `_loadRegistration` and `_loadSubscription`: nothing when one of the two calls has failed. -/
def loadEntry (a : MetaAnswers δ) (kind : MetaKind) (id : Nat) : Option (MetaEntry δ) :=
  match (a.details kind id).join, (a.members kind id).join with
  | some details, some members => some { details, members }
  | _, _ => none

/-- The result of `_readInitialState`. -/
def state (a : MetaAnswers δ) : MetaTables δ where
  sessions id := if id ∈ a.sessionIds.getD [] then a.loadSession id else none
  entries kind id := if id ∈ (a.entryIds kind).getD [] then a.loadEntry kind id else none

/-- Every session of the list has been loaded. -/
def SessionsLoaded (a : MetaAnswers δ) : Prop :=
  ∃ ids, a.sessionIds = some ids ∧ ∀ id ∈ ids, (a.session id).isSome = true

/-- Every entry of the list has been loaded. -/
def EntriesLoaded (a : MetaAnswers δ) (kind : MetaKind) : Prop :=
  ∃ ids, a.entryIds kind = some ids ∧
    ∀ id ∈ ids, (a.details kind id).isSome = true ∧ (a.members kind id).isSome = true

end MetaAnswers

/-- A realm, its meta events on their way, and a cache. -/
structure MetaWorld (δ : Type) where
  realm : MetaTables δ
  /-- The changes whose events the router has not yet routed. -/
  unpublished : List (RealmChange δ) := []
  /-- The changes whose events the cache has been sent, and not yet received. -/
  inFlight : List (RealmChange δ) := []
  /-- The changes whose events the cache has been sent, ever. -/
  sent : List (RealmChange δ) := []
  answers : MetaAnswers δ := {}
  cache : MetaCache δ := {}

inductive MetaStep (δ : Type) where
  | changed (change : RealmChange δ)
  /-- The router routes the oldest event. -/
  | published
  | delivered
  /-- The router subscribes the cache to its next topic. -/
  | subscribed
  /-- The answers to the calls of `_readInitialState`. -/
  | sessionList (ids : List Nat)
  | entryList (kind : MetaKind) (ids : List Nat)
  | sessionGet (id : Nat)
  | entryGet (kind : MetaKind) (id : Nat)
  | memberList (kind : MetaKind) (id : Nat)
  | hydrated

namespace MetaWorld

def isSubscribed (w : MetaWorld δ) (topic : MetaTopic) : Prop :=
  topic ∈ eventTopics.take w.answers.subscribed

instance (w : MetaWorld δ) (topic : MetaTopic) : Decidable (w.isSubscribed topic) :=
  inferInstanceAs (Decidable (_ ∈ _))

def publish (w : MetaWorld δ) : MetaWorld δ :=
  match w.unpublished with
  | [] => w
  | change :: unpublished =>
      if w.isSubscribed change.event.topic then
        { w with
          unpublished
          inFlight := w.inFlight ++ [change]
          sent := w.sent ++ [change] }
      else { w with unpublished }

def deliver (w : MetaWorld δ) : MetaWorld δ :=
  match w.inFlight with
  | [] => w
  | change :: inFlight => { w with inFlight, cache := w.cache.handleEvent change.event }

def step (w : MetaWorld δ) : MetaStep δ → MetaWorld δ
  | .changed change =>
      { w with realm := change.apply w.realm, unpublished := w.unpublished ++ [change] }
  | .published => w.publish
  | .delivered => w.deliver
  | .subscribed => { w with answers.subscribed := w.answers.subscribed + 1 }
  | .sessionList ids => { w with answers.sessionIds := some ids }
  | .entryList kind ids =>
      { w with answers.entryIds := Function.update w.answers.entryIds kind (some ids) }
  | .sessionGet id =>
      { w with
        answers.session := Function.update w.answers.session id (some (w.realm.sessions id)) }
  | .entryGet kind id =>
      { w with
        answers.details := Function.update w.answers.details kind
          (Function.update (w.answers.details kind) id
            (some ((w.realm.entries kind id).map (·.details)))) }
  | .memberList kind id =>
      { w with
        answers.members := Function.update w.answers.members kind
          (Function.update (w.answers.members kind) id
            (some ((w.realm.entries kind id).map (·.members)))) }
  | .hydrated => { w with cache := w.cache.hydrate w.answers.state }

/-- What can happen next.  The lists are called one after the other, then the sessions are loaded, the
registrations and the subscriptions. -/
def ok (w : MetaWorld δ) : MetaStep δ → Prop
  | .changed change => change.Possible w.realm
  | .published => w.unpublished ≠ []
  | .delivered => w.inFlight ≠ []
  | .subscribed => w.answers.subscribed < eventTopics.length
  | .sessionList ids =>
      w.answers.subscribed = eventTopics.length ∧ w.answers.sessionIds = none ∧
      ∀ id, id ∈ ids ↔ (w.realm.sessions id).isSome = true
  | .entryList kind ids =>
      w.answers.sessionIds ≠ none ∧
      (kind = .subscription → w.answers.entryIds .registration ≠ none) ∧
      w.answers.entryIds kind = none ∧
      ∀ id, id ∈ ids ↔ (w.realm.entries kind id).isSome = true
  | .sessionGet id =>
      w.answers.entryIds .subscription ≠ none ∧ id ∈ w.answers.sessionIds.getD [] ∧
      w.answers.session id = none
  | .entryGet kind id =>
      w.answers.SessionsLoaded ∧
      (kind = .subscription → w.answers.EntriesLoaded .registration) ∧
      id ∈ (w.answers.entryIds kind).getD [] ∧ w.answers.details kind id = none
  | .memberList kind id =>
      w.answers.SessionsLoaded ∧
      (kind = .subscription → w.answers.EntriesLoaded .registration) ∧
      id ∈ (w.answers.entryIds kind).getD [] ∧ w.answers.members kind id = none
  | .hydrated =>
      w.cache.hydrating = true ∧ w.answers.SessionsLoaded ∧
      ∀ kind, w.answers.EntriesLoaded kind

end MetaWorld

end Connectanum
