import Connectanum.State.Deduplication

/-!
# State — Realm

The mutable state of one realm.  The subscription tables (`subscriptionAtlas`,
`subscriptionsById` and the entries both refer to) and the procedure tables
(`procedureAtlas`, `proceduresById` and their entries) are two components of the record, so an
operation on the one visibly leaves the other alone.
-/

namespace Connectanum

open Collections

/-- The subscription entries of a realm with the two tables that refer to them. -/
structure SubscriptionTable where
  heap : Heap SubscriptionEntry := .empty
  subscriptionAtlas : SubscriptionAtlas := {}
  subscriptionsById : LinkedMap Nat Ref := .empty

namespace SubscriptionTable

/-- `subscriptionsById[id]`, dereferenced. -/
def findSubscriptionById (t : SubscriptionTable) (id : Nat) : Option (Ref × SubscriptionEntry) :=
  (t.subscriptionsById.get? id).bind fun r => (t.heap.get? r).map fun e => (r, e)

def findOrCreateSubscription (t : SubscriptionTable) (topic : String) (policy : TopicMatchPolicy)
    (id now : Nat) : SubscriptionTable × Ref :=
  match t.subscriptionAtlas.get? policy topic with
  | some r => (t, r)
  | none =>
      let r := t.heap.next
      ({ heap := t.heap.alloc { id := id, topic := topic, matchPolicy := policy, created := now }
         subscriptionsById := t.subscriptionsById.insert id r
         subscriptionAtlas := t.subscriptionAtlas.insert policy topic r },
        r)

/-- `entry.subscribers[sessionId] = record` on the entry at `r`. -/
def addSubscriber (t : SubscriptionTable) (r : Ref) (record : SubscriberRecord) :
    SubscriptionTable :=
  { t with heap := t.heap.modify r (·.addSubscriber record) }

/-- `entry.subscribers.remove(sessionId)` on the entry at `r`. -/
def removeSubscriber (t : SubscriptionTable) (r : Ref) (sessionId : Nat) : SubscriptionTable :=
  { t with heap := t.heap.modify r (·.removeSubscriber sessionId) }

/-- `removeSubscription(entry)`. -/
def removeSubscription (t : SubscriptionTable) (entry : SubscriptionEntry) : SubscriptionTable :=
  { t with
    subscriptionsById := t.subscriptionsById.erase entry.id
    subscriptionAtlas := t.subscriptionAtlas.erase entry.matchPolicy entry.topic }

/-- The tables' part of an unsubscription: the entry goes when nobody is left on it. -/
def unsubscribe (t : SubscriptionTable) (r : Ref) (entry : SubscriptionEntry) (sessionId : Nat) :
    SubscriptionTable :=
  let t := t.removeSubscriber r sessionId
  if (entry.removeSubscriber sessionId).subscribers.isEmpty then t.removeSubscription entry else t

end SubscriptionTable

/-- The procedure entries of a realm with the tables that refer to them. -/
structure ProcedureTable where
  heap : Heap ProcedureEntry := .empty
  procedureAtlas : ProcedureAtlas := {}
  proceduresById : LinkedMap Nat Ref := .empty

namespace ProcedureTable

/-- `findProcedureByRegistrationId`, dereferenced. -/
def findProcedureByRegistrationId (t : ProcedureTable) (registrationId : Nat) :
    Option (Ref × ProcedureEntry) :=
  (t.procedureAtlas.registrations.get? registrationId).bind fun r =>
    (t.heap.get? r).map fun e => (r, e)

def findOrCreateProcedure (t : ProcedureTable) (procedure : String) (registrationId : Nat)
    (policy : InvocationPolicy) (matchPolicy : ProcedureMatchPolicy) (now : Nat) :
    ProcedureTable × Ref :=
  match t.procedureAtlas.patterns.get? matchPolicy procedure with
  | some r => (t, r)
  | none =>
      let r := t.heap.next
      ({ t with
         heap := t.heap.alloc { registrationId := registrationId, procedure := procedure,
                                matchPolicy := matchPolicy, policy := policy, created := now }
         procedureAtlas := { t.procedureAtlas with
           patterns := t.procedureAtlas.patterns.insert matchPolicy procedure r } },
        r)

def modify (t : ProcedureTable) (r : Ref) (f : ProcedureEntry → ProcedureEntry) : ProcedureTable :=
  { t with heap := t.heap.modify r f }

/-- `entry.addCallee(record)` and the two id indexes of the registration. -/
def addRegistration (t : ProcedureTable) (r : Ref) (record : RegistrationRecord) :
    ProcedureTable :=
  { heap := t.heap.modify r (·.addCallee record)
    procedureAtlas := t.procedureAtlas.indexRegistration record.registrationId r
    proceduresById := t.proceduresById.insert record.registrationId r }

/-- `proceduresById.remove(id)` and `procedureAtlas.removeRegistration(id)`. -/
def dropRegistration (t : ProcedureTable) (registrationId : Nat) : ProcedureTable :=
  { t with
    proceduresById := t.proceduresById.erase registrationId
    procedureAtlas := t.procedureAtlas.removeRegistration t.heap registrationId }

/-- `removeProcedure(entry)`. -/
def removeProcedure (t : ProcedureTable) (entry : ProcedureEntry) : ProcedureTable :=
  (entry.callees.keys.foldl dropRegistration t).dropRegistration entry.registrationId

/-- The tables' part of an unregistration. -/
def unregister (t : ProcedureTable) (r : Ref) (entry : ProcedureEntry) (registrationId : Nat) :
    ProcedureTable :=
  let t := (t.modify r (·.removeCallee registrationId)).dropRegistration registrationId
  let entry := entry.removeCallee registrationId
  if entry.callees.isEmpty then t.removeProcedure entry else t

end ProcedureTable

structure RealmSnapshot where
  realmUri : String
  version : Nat
  sessions : List SessionInfo
  subscriptions : List SubscriptionSnapshot
  registrations : List RegistrationSnapshot

/-- Holds all mutable state for a single realm. -/
structure RealmRecord where
  realmUri : String
  version : Nat := 0
  lastSnapshot : Option RealmSnapshot := none
  sessions : SplayMap Nat SessionRecord := .empty
  subscriptions : SubscriptionTable := {}
  procedures : ProcedureTable := {}
  invocations : LinkedMap Nat PendingInvocation := .empty

namespace RealmRecord

def bumpVersion (r : RealmRecord) : RealmRecord :=
  { r with version := r.version + 1, lastSnapshot := none }

/-- `session?.update(..)` on the session's record. -/
def modifySession (r : RealmRecord) (sessionId : Nat) (f : SessionRecord → SessionRecord) :
    RealmRecord :=
  match r.sessions.get? sessionId with
  | none => r
  | some s => { r with sessions := r.sessions.insert sessionId (f s) }

def buildSnapshot (r : RealmRecord) : RealmSnapshot where
  realmUri := r.realmUri
  version := r.version
  sessions := r.sessions.values.map (·.toSessionInfo)
  subscriptions :=
    (r.subscriptions.subscriptionsById.values.filterMap r.subscriptions.heap.get?).map fun e =>
      { id := e.id, topic := e.topic, matchPolicy := e.matchPolicy,
        subscribers := e.subscribers.values, options := e.options, created := e.created }
  registrations :=
    (r.procedures.procedureAtlas.values r.procedures.heap).map fun e =>
      { registrationId := e.registrationId, procedure := e.procedure, policy := e.policy,
        matchPolicy := e.matchPolicy, callees := e.callees.values, created := e.created }

/-- The first pending invocation of the caller's request, in dispatch order. -/
def findInvocationByCaller (r : RealmRecord) (callerSessionId requestId : Nat) :
    Option PendingInvocation :=
  r.invocations.values.find? fun record =>
    record.callerSessionId == callerSessionId && record.callerRequestId == requestId

end RealmRecord

end Connectanum
