import Connectanum.State.Commands

/-!
# State — Store

`RouterStateStore`: every command and every timer as a function on the store's state.  A
function of the source that can throw returns the state reached at the throw beside its result,
since what it wrote before stays written.  What is sent goes to `outbox`.
-/

namespace Connectanum

open Collections

structure RouterStateStore where
  /-- The realms of the settings. -/
  realmConfigs : List String
  ids : WampIdAllocatorRegistry := {}
  realms : LinkedMap String RealmRecord := .empty
  invocationTimeouts : LinkedMap (String × Nat) Int := .empty
  retryThrottleLeases : LinkedMap RetryDeduplicationKey RetryThrottleLease := .empty
  retryThrottleKeysByInvocation : LinkedMap Nat RetryDeduplicationKey := .empty
  pendingRetryDebounces : LinkedMap RetryDeduplicationKey PendingRetryDebounce := .empty
  counters : StoreCounters := {}
  outbox : List StoreOutput := []

namespace RouterStateStore

def maxGlobalRetryDeduplicationEntries : Nat := 16384

def emit (st : RouterStateStore) (o : StoreOutput) : RouterStateStore :=
  { st with outbox := st.outbox ++ [o] }

/-- `replyPort.send(payload)`. -/
def send (st : RouterStateStore) (port : SendPort) (payload : StoreReply) : RouterStateStore :=
  st.emit (.reply port payload)

def setRealm (st : RouterStateStore) (uri : String) (realm : RealmRecord) : RouterStateStore :=
  { st with realms := st.realms.insert uri realm }

/-- Updates the realm's record, where there is one. -/
def modifyRealm (st : RouterStateStore) (uri : String) (f : RealmRecord → RealmRecord) :
    RouterStateStore :=
  match st.realms.get? uri with
  | none => st
  | some realm => st.setRealm uri (f realm)

def getOrCreateRealm (st : RouterStateStore) (uri : String) :
    Except StoreError (RouterStateStore × RealmRecord) :=
  match st.realms.get? uri with
  | some realm => .ok (st, realm)
  | none =>
      if uri ∈ st.realmConfigs then
        let realm : RealmRecord := { realmUri := uri }
        .ok (st.setRealm uri realm, realm)
      else .error (.state s!"Realm {uri} is not configured")

/-- `ids.subscription.next()`. -/
def drawSubscriptionId (st : RouterStateStore) : RouterStateStore :=
  { st with ids := { st.ids with subscription := st.ids.subscription.next } }

/-- `ids.registration.next()`. -/
def drawRegistrationId (st : RouterStateStore) : RouterStateStore :=
  { st with ids := { st.ids with registration := st.ids.registration.next } }

/-- `ids.invocation.next()`. -/
def drawInvocationId (st : RouterStateStore) : RouterStateStore :=
  { st with ids := { st.ids with invocation := st.ids.invocation.next } }

/-- `ids.publication.next()`. -/
def drawPublicationId (st : RouterStateStore) : RouterStateStore :=
  { st with ids := { st.ids with publication := st.ids.publication.next } }

/-- `ids.session.next()`. -/
def drawSessionId (st : RouterStateStore) : RouterStateStore :=
  { st with ids := { st.ids with session := st.ids.session.next } }

/-- `realm.bumpVersion()`, then the `StateChangedEvent`. -/
def bumpAndNotify (st : RouterStateStore) (uri : String) : RouterStateStore :=
  match st.realms.get? uri with
  | none => st
  | some realm =>
      (st.setRealm uri realm.bumpVersion).emit (.stateChanged uri realm.bumpVersion.version)

/-! ### Sessions -/

def sessionMetaEvent (uri : String) (type : SessionMetaEventType) (s : SessionRecord) :
    StoreOutput :=
  .sessionMeta { realmUri := uri, type := type, sessionId := s.id, authId := s.authId,
                 authRole := s.authRole, authMethod := s.authMethod,
                 authProvider := s.authProvider }

def openSession (st : RouterStateStore) (uri : String) (session : SessionRecord) :
    RouterStateStore × Except StoreError Unit :=
  match st.getOrCreateRealm uri with
  | .error e => (st, .error e)
  | .ok (st, realm) =>
      let st := st.setRealm uri
        { realm with sessions := realm.sessions.insert session.id session.opened }
      ((st.bumpAndNotify uri).emit (sessionMetaEvent uri .joined session), .ok ())

def getSnapshot (st : RouterStateStore) (uri : String) (knownVersion : Option Nat) :
    RouterStateStore × Except StoreError RealmSnapshotResponse :=
  match st.getOrCreateRealm uri with
  | .error e => (st, .error e)
  | .ok (st, realm) =>
      if knownVersion = some realm.version then
        (st, .ok { snapshot := realm.lastSnapshot.getD realm.buildSnapshot, isNew := false })
      else
        let snapshot := realm.buildSnapshot
        (st.setRealm uri { realm with lastSnapshot := some snapshot },
          .ok { snapshot := snapshot, isNew := true })

/-! ### Subscriptions -/

def subscriptionMetaEvent (uri : String) (type : SubscriptionMetaEventType)
    (e : SubscriptionEntry) (sessionId : Nat) : StoreOutput :=
  .subscriptionMeta { realmUri := uri, type := type, subscriptionId := e.id, topic := e.topic,
                      matchPolicy := e.matchPolicy, created := e.created, details := e.options,
                      sessionId := some sessionId }

/-- `_addSubscription`: the id is drawn even when the topic has its entry already. -/
def addSubscription (env : StoreEnv) (st : RouterStateStore) (uri : String) (sessionId : Nat)
    (topic : String) (matchPolicy : TopicMatchPolicy) (details : Dict) :
    RouterStateStore × Except StoreError Nat :=
  match st.getOrCreateRealm uri with
  | .error e => (st, .error e)
  | .ok (st, realm) =>
      match realm.sessions.get? sessionId with
      | none => (st, .error (.command s!"Session {sessionId} not found in realm {uri}"))
      | some session =>
          let id := st.ids.subscription.nextId
          let st := st.drawSubscriptionId
          let (table, r) :=
            realm.subscriptions.findOrCreateSubscription topic matchPolicy id env.now
          match table.heap.get? r with
          | none => (st, .error (.state "dangling subscription entry"))
          | some entry =>
              let wasEmpty := entry.subscribers.isEmpty
              let record : SubscriberRecord :=
                { sessionId := sessionId, authRole := session.authRole, details := details }
              let realm := { realm with subscriptions := table.addSubscriber r record }
              let realm := realm.modifySession sessionId (·.addSubscriptionId entry.id)
              let st := (st.setRealm uri realm).bumpAndNotify uri
              let st :=
                if wasEmpty then st.emit (subscriptionMetaEvent uri .created entry sessionId)
                else st
              (st.emit (subscriptionMetaEvent uri .subscribed entry sessionId), .ok entry.id)

def removeSubscription (st : RouterStateStore) (uri : String) (sessionId subscriptionId : Nat) :
    RouterStateStore :=
  match st.realms.get? uri with
  | none => st
  | some realm =>
      match realm.subscriptions.findSubscriptionById subscriptionId with
      | none => st
      | some (r, entry) =>
          let realm := { realm with subscriptions := realm.subscriptions.unsubscribe r entry sessionId }
          let st := st.setRealm uri
            (realm.modifySession sessionId (·.removeSubscriptionId subscriptionId))
          let st :=
            if (entry.subscribers.get? sessionId).isSome then
              st.emit (subscriptionMetaEvent uri .unsubscribed entry sessionId)
            else st
          let st :=
            if (entry.removeSubscriber sessionId).subscribers.isEmpty then
              st.emit (subscriptionMetaEvent uri .deleted entry sessionId)
            else st
          st.bumpAndNotify uri

/-! ### Retry deduplication tables -/

def releaseRetryThrottleLease (st : RouterStateStore) (invocationId : Nat) : RouterStateStore :=
  match st.retryThrottleKeysByInvocation.get? invocationId with
  | none => st
  | some key =>
      { st with
        retryThrottleKeysByInvocation := st.retryThrottleKeysByInvocation.erase invocationId
        retryThrottleLeases := st.retryThrottleLeases.erase key }

/-- Removes one lease with its reverse entry. -/
def dropLease (st : RouterStateStore) (key : RetryDeduplicationKey) : RouterStateStore :=
  match st.retryThrottleLeases.get? key with
  | none => st
  | some lease =>
      { st with
        retryThrottleLeases := st.retryThrottleLeases.erase key
        retryThrottleKeysByInvocation :=
          st.retryThrottleKeysByInvocation.erase lease.invocationId }

def countExpiration (st : RouterStateStore) : RouterStateStore :=
  { st with counters := { st.counters with
      totalRetryDeduplicationExpirations := st.counters.totalRetryDeduplicationExpirations + 1 } }

def reapExpiredRetryThrottleLeases (st : RouterStateStore) (now : Nat) : RouterStateStore :=
  let expiredKeys :=
    (st.retryThrottleLeases.entries.filter fun e => ¬ e.2.expiresAt > (now : Int)).map Prod.fst
  expiredKeys.foldl (fun st key => (st.dropLease key).countExpiration) st

/-- Removes one held dispatch, answering its caller with `error`. -/
def dropDebounce (error : StoreError) (st : RouterStateStore) (key : RetryDeduplicationKey) :
    RouterStateStore :=
  match st.pendingRetryDebounces.get? key with
  | none => st
  | some pending =>
      { st with pendingRetryDebounces := st.pendingRetryDebounces.erase key }.send
        pending.replyPort (.failed error)

def cancelPendingRetryDebouncesForCaller (st : RouterStateStore) (uri : String)
    (callerSessionId : Nat) : RouterStateStore :=
  let keys := (st.pendingRetryDebounces.entries.filter fun e =>
    e.2.realmUri == uri && e.2.callerSessionId == callerSessionId).map Prod.fst
  keys.foldl (dropDebounce (.command s!"Caller session {callerSessionId} closed")) st

def clearRetryDeduplicationForRegistration (st : RouterStateStore) (uri : String)
    (registrationId : Nat) : RouterStateStore :=
  let throttleKeys := st.retryThrottleLeases.keys.filter fun key =>
    key.realmUri == uri && key.registrationId == registrationId
  let st := throttleKeys.foldl dropLease st
  let debounceKeys := st.pendingRetryDebounces.keys.filter fun key =>
    key.realmUri == uri && key.registrationId == registrationId
  debounceKeys.foldl (dropDebounce (.command s!"Registration {registrationId} removed")) st

/-- `_ensureRetryDeduplicationCapacity`: counts the rejection when there is no room. -/
def ensureRetryDeduplicationCapacity (st : RouterStateStore) (entry : ProcedureEntry)
    (policy : RetryDeduplication) : RouterStateStore × Except StoreError Unit :=
  let ofRegistration (key : RetryDeduplicationKey) := key.registrationId == entry.registrationId
  let registrationCount :=
    (st.retryThrottleLeases.keys.filter ofRegistration).length +
      (st.pendingRetryDebounces.keys.filter ofRegistration).length
  let globalCount := st.retryThrottleLeases.length + st.pendingRetryDebounces.length
  if (registrationCount : Int) ≥ policy.capacity ∨
      globalCount ≥ maxGlobalRetryDeduplicationEntries then
    ({ st with counters := { st.counters with
        totalRetryDeduplicationCapacityRejects :=
          st.counters.totalRetryDeduplicationCapacityRejects + 1 } },
      .error (.command (autoDeduplicationUri ++ ": capacity exceeded")))
  else (st, .ok ())

/-! ### Registrations -/

def policyFromDetails (details : Dict) : Except StoreError InvocationPolicy :=
  match details.at "invoke" with
  | .null => .ok .single
  | .str "single" => .ok .single
  | .str "first" => .ok .first
  | .str "last" => .ok .last
  | .str "roundrobin" => .ok .roundRobin
  | .str "random" => .ok .random
  | .str other => .error (.argument ⟨some (.str other), some "invoke",
      "Unsupported invocation policy"⟩)
  | v => .error (.argument ⟨some v, some "invoke", "must be a String"⟩)

def matchPolicyFromDetails (details : Dict) : Except StoreError ProcedureMatchPolicy :=
  match details.at "match" with
  | .null => .ok .exact
  | .str "prefix" => .ok .prefixed
  | .str "wildcard" => .ok .wildcard
  | .str "exact" => .ok .exact
  | .str "exactly" => .ok .exact
  | .str other => .error (.argument ⟨some (.str other), some "match", "unsupported match policy"⟩)
  | v => .error (.argument ⟨some v, some "match", "must be a String"⟩)

def retryDeduplicationFromDetails (details : Dict) :
    Except StoreError (Option RetryDeduplication) :=
  (RetryDeduplication.ofDetails details).mapError (.invalid "Invalid auto_deduplication")

/-- The entry's policy is that of its first callee. -/
def retryDeduplicationForEntry (entry : ProcedureEntry) :
    Except StoreError (Option RetryDeduplication) :=
  match entry.callees.values.head? with
  | none => .ok none
  | some callee => retryDeduplicationFromDetails callee.details

/-- The checks of `_registerProcedure` against callees that the entry has already. -/
def checkSharedRegistration (entry : ProcedureEntry) (procedure : String)
    (policy : InvocationPolicy) (matchPolicy : ProcedureMatchPolicy)
    (retryDeduplication : Option RetryDeduplication) (details : Dict) : Except StoreError Unit :=
  if entry.callees.isEmpty then .ok ()
  else if entry.policy = .single then
    .error (.command s!"Procedure {procedure} already registered")
  else if entry.matchPolicy ≠ matchPolicy then
    .error (.command
      (s!"Procedure {procedure} already registered with match policy " ++ entry.matchPolicy.name))
  else if policy ≠ entry.policy ∧ details.contains "invoke" ∧ entry.policy ≠ .single then
    .error (.command
      (s!"Procedure {procedure} already registered with policy " ++ entry.policy.name))
  else
    match retryDeduplicationForEntry entry with
    | .error e => .error e
    | .ok existing =>
        if existing = retryDeduplication then .ok ()
        else .error (.command
          s!"Procedure {procedure} already registered with different auto_deduplication settings")

def registrationMetaEvent (uri : String) (type : RegistrationMetaEventType) (e : ProcedureEntry)
    (details : Dict) (sessionId : Nat) : StoreOutput :=
  .registrationMeta { realmUri := uri, type := type, registrationId := e.registrationId,
                      procedure := e.procedure, policy := e.policy, matchPolicy := e.matchPolicy,
                      created := e.created, details := details, sessionId := some sessionId }

/-- The settings that a REGISTER's details ask for. -/
def registrationSettings (details : Dict) :
    Except StoreError (InvocationPolicy × ProcedureMatchPolicy × Option RetryDeduplication) := do
  let policy ← policyFromDetails details
  let matchPolicy ← matchPolicyFromDetails details
  let retryDeduplication ← retryDeduplicationFromDetails details
  return (policy, matchPolicy, retryDeduplication)

def registerProcedure (env : StoreEnv) (st : RouterStateStore) (uri : String) (sessionId : Nat)
    (procedure : String) (details : Dict) : RouterStateStore × Except StoreError Nat :=
  match st.getOrCreateRealm uri with
  | .error e => (st, .error e)
  | .ok (st, realm) =>
      match realm.sessions.get? sessionId with
      | none => (st, .error (.command s!"Session {sessionId} not found in realm {uri}"))
      | some session =>
          match registrationSettings details with
          | .error e => (st, .error e)
          | .ok (policy, matchPolicy, retryDeduplication) =>
              let registrationId := st.ids.registration.nextId
              let st := st.drawRegistrationId
              let (table, r) := realm.procedures.findOrCreateProcedure procedure registrationId
                policy matchPolicy env.now
              let st := st.setRealm uri { realm with procedures := table }
              match table.heap.get? r with
              | none => (st, .error (.state "dangling procedure entry"))
              | some entry =>
                  match checkSharedRegistration entry procedure policy matchPolicy
                      retryDeduplication details with
                  | .error e => (st, .error e)
                  | .ok () =>
                      let record : RegistrationRecord :=
                        { registrationId := registrationId, procedure := procedure,
                          sessionId := sessionId, authRole := session.authRole,
                          details := details, matchPolicy := matchPolicy }
                      let realm := { realm with procedures := table.addRegistration r record }
                      let realm := realm.modifySession sessionId
                        (·.addRegistrationId registrationId)
                      let st := (st.setRealm uri realm).bumpAndNotify uri
                      let st :=
                        if entry.callees.isEmpty then
                          st.emit (registrationMetaEvent uri .created entry details sessionId)
                        else st
                      (st.emit (registrationMetaEvent uri .registered entry details sessionId),
                        .ok registrationId)

def unregisterProcedure (st : RouterStateStore) (uri : String) (sessionId registrationId : Nat) :
    RouterStateStore :=
  match st.realms.get? uri with
  | none => st
  | some realm =>
      match realm.procedures.findProcedureByRegistrationId registrationId with
      | none => st
      | some (r, entry) =>
          let removed := entry.callees.get? registrationId
          let lastOne := (entry.removeCallee registrationId).callees.isEmpty
          let realm := { realm with procedures := realm.procedures.unregister r entry registrationId }
          let st := st.setRealm uri
            (realm.modifySession sessionId (·.removeRegistrationId registrationId))
          let st := match removed with
            | none => st
            | some callee =>
                st.emit (registrationMetaEvent uri .unregistered entry callee.details sessionId)
          let st :=
            if lastOne then
              (st.emit (registrationMetaEvent uri .deleted entry
                ((removed.map (·.details)).getD .empty) sessionId)).clearRetryDeduplicationForRegistration
                uri entry.registrationId
            else st
          st.bumpAndNotify uri

/-! ### Invocations -/

def findInvocationByCaller (st : RouterStateStore) (uri : String)
    (callerSessionId requestId : Nat) : Option PendingInvocation :=
  (st.realms.get? uri).bind (·.findInvocationByCaller callerSessionId requestId)

def getInvocation (st : RouterStateStore) (uri : String) (invocationId : Nat) :
    Option PendingInvocation :=
  (st.realms.get? uri).bind (·.invocations.get? invocationId)

def cancelInvocationTimeout (st : RouterStateStore) (uri : String) (invocationId : Nat) :
    RouterStateStore :=
  { st with invocationTimeouts := st.invocationTimeouts.erase (uri, invocationId) }

/-- Starts, or starts again, the invocation's timer. -/
def scheduleInvocationTimeout (st : RouterStateStore) (uri : String) (i : PendingInvocation) :
    RouterStateStore :=
  match i.timeout with
  | none => st
  | some timeout =>
      if timeout ≤ 0 ∨ i.timeoutForwarded then st
      else
        { st with
          invocationTimeouts :=
            (st.invocationTimeouts.erase (uri, i.invocationId)).insert
              (uri, i.invocationId) timeout }

def removeInvocation (st : RouterStateStore) (uri : String) (invocationId : Nat) :
    RouterStateStore :=
  st.modifyRealm uri fun r => { r with invocations := r.invocations.erase invocationId }

def removeInvocationsForSession (st : RouterStateStore) (uri : String) (sessionId : Nat) :
    RouterStateStore :=
  match st.realms.get? uri with
  | none => st
  | some realm =>
      let invocationIds := (realm.invocations.values.filter fun i =>
        i.callerSessionId == sessionId || i.calleeSessionId == sessionId).map (·.invocationId)
      invocationIds.foldl (fun st invocationId =>
        ((st.cancelInvocationTimeout uri invocationId).removeInvocation uri
          invocationId).releaseRetryThrottleLease invocationId) st

def closeSession (st : RouterStateStore) (uri : String) (sessionId : Nat) : RouterStateStore :=
  match st.realms.get? uri with
  | none => st
  | some _ =>
      let st := st.cancelPendingRetryDebouncesForCaller uri sessionId
      let st := st.removeInvocationsForSession uri sessionId
      match (st.realms.get? uri).bind (·.sessions.get? sessionId) with
      | none => st
      | some session =>
          let st := st.modifyRealm uri fun r => { r with sessions := r.sessions.erase sessionId }
          let st := session.subscriptionIds.keys.foldl
            (fun st subId => st.removeSubscription uri sessionId subId) st
          let st := session.registrationIds.keys.foldl
            (fun st regId => st.unregisterProcedure uri sessionId regId) st
          (st.bumpAndNotify uri).emit (sessionMetaEvent uri .left session)

/-- A further chunk of a progressive call goes to the callee of its first one. -/
def dispatchContinuation (st : RouterStateStore) (uri : String) (realm : RealmRecord)
    (existing : PendingInvocation) (procedure : String) (progress : Bool) :
    RouterStateStore × Except StoreError InvocationDispatchResult :=
  if !existing.progressiveInvocationOpen then
    (st, .error (.command
      s!"Invalid progressive invocation: invocation {existing.invocationId} is not accepting more chunks"))
  else if existing.procedure ≠ procedure then
    (st, .error (.command
      s!"Invalid progressive invocation: procedure changed from {existing.procedure} to {procedure}"))
  else
    let realm := { realm with
      invocations := realm.invocations.insert existing.invocationId
        { existing with progressiveInvocationOpen := progress } }
    let st := st.setRealm uri realm.bumpVersion
    match existing.calleeConnectionId with
    | none => (st, .error (.state "calleeConnectionId is null"))
    | some connectionId =>
        (st, .ok
          { invocationId := existing.invocationId
            registrationId := existing.registrationId
            calleeSessionId := existing.calleeSessionId
            calleeConnectionId := connectionId
            calleeInternalSendPort := existing.calleeInternalSendPort
            callerInternalSendPort := existing.callerInternalSendPort
            disclosedCallerSessionId := existing.disclosedCallerSessionId
            disclosedCallerAuthId := existing.disclosedCallerAuthId
            disclosedCallerAuthRole := existing.disclosedCallerAuthRole
            initiatingOptions := existing.initiatingOptions
            progressiveInvocation := true
            progress := progress
            timeoutForwarded := existing.timeoutForwarded })

/-- The timeout a CALL asks for; `0` asks for none. -/
def callTimeout (options : Dict) : Except StoreError (Option Int) :=
  match options.at "timeout" with
  | .null => .ok none
  | .int n =>
      if n < 0 then .error (.command "CALL timeout must be >= 0")
      else .ok (if n > 0 then some n else none)
  | _ => .error (.command "CALL timeout must be an integer")

/-- The record that a dispatch to `callee` adds. -/
def newInvocation (callerSessionId : Nat) (caller calleeSession : SessionRecord)
    (callee : RegistrationRecord) (invocationId requestId : Nat) (procedure : String)
    (options : Dict) (timeout : Option Int) : PendingInvocation :=
  let discloseCaller := options.flag "disclose_me" || callee.details.flag "disclose_caller"
  { invocationId := invocationId
    registrationId := callee.registrationId
    procedure := procedure
    callerRequestId := requestId
    calleeSessionId := callee.sessionId
    calleeConnectionId := some calleeSession.connectionId
    allowProgress := options.flag "receive_progress"
    callerSessionId := callerSessionId
    calleeInternalSendPort := calleeSession.internalSendPort
    callerInternalSendPort := caller.internalSendPort
    initiatingOptions := (options.erase "progress").erase transactionHashWireField
    progressiveInvocation := options.flag "progress"
    progressiveInvocationOpen := options.flag "progress"
    timeout := timeout
    timeoutForwarded := callee.details.flag "forward_timeout"
    disclosedCallerSessionId := if discloseCaller then some callerSessionId else none
    disclosedCallerAuthId := if discloseCaller then caller.authId else none
    disclosedCallerAuthRole := if discloseCaller then caller.authRole else none }

/-- The answer to the dispatch that added `i`. -/
def dispatchResult (i : PendingInvocation) (calleeConnectionId : Nat) (progress : Bool) :
    InvocationDispatchResult where
  invocationId := i.invocationId
  registrationId := i.registrationId
  calleeSessionId := i.calleeSessionId
  calleeConnectionId := calleeConnectionId
  calleeInternalSendPort := i.calleeInternalSendPort
  callerInternalSendPort := i.callerInternalSendPort
  disclosedCallerSessionId := i.disclosedCallerSessionId
  disclosedCallerAuthId := i.disclosedCallerAuthId
  disclosedCallerAuthRole := i.disclosedCallerAuthRole
  initiatingOptions := i.initiatingOptions
  progressiveInvocation := progress
  progress := progress
  timeoutForwarded := i.timeoutForwarded

def countDispatch (st : RouterStateStore) : RouterStateStore :=
  { st with counters := { st.counters with
      totalInvocationsDispatched := st.counters.totalInvocationsDispatched + 1 } }

/-- A first chunk, or a plain call: chooses a callee, draws an id and adds the record. -/
def dispatchNew (env : StoreEnv) (st : RouterStateStore) (uri : String) (realm : RealmRecord)
    (callerSessionId : Nat) (caller : SessionRecord) (requestId : Nat) (procedure : String)
    (options : Dict) : RouterStateStore × Except StoreError InvocationDispatchResult :=
  match realm.procedures.procedureAtlas.lookup realm.procedures.heap procedure with
  | none => (st, .error (.command s!"No registration for procedure {procedure}"))
  | some (r, entry) =>
      if entry.callees.isEmpty then
        (st, .error (.command s!"No registration for procedure {procedure}"))
      else
        let (chosen, advanced) := entry.nextCallee env.draw
        let realm := { realm with procedures := realm.procedures.modify r fun _ => advanced }
        match chosen with
        | none =>
            (st.setRealm uri realm,
              .error (.command s!"No available callee for procedure {procedure}"))
        | some callee =>
            let invocationId := st.ids.invocation.nextId
            let st := st.drawInvocationId
            match callTimeout options with
            | .error e => (st.setRealm uri realm, .error e)
            | .ok timeout =>
                match realm.sessions.get? callee.sessionId with
                | none =>
                    (st.setRealm uri realm,
                      .error (.state s!"Session {callee.sessionId} not found in realm {uri}"))
                | some calleeSession =>
                    let record := newInvocation callerSessionId caller calleeSession callee
                      invocationId requestId procedure options timeout
                    let realm := { realm with
                      invocations := realm.invocations.insert invocationId record
                      procedures := realm.procedures.modify r
                        (·.touchCallee callee.registrationId env.now) }
                    let st := st.setRealm uri realm.bumpVersion
                    ((st.scheduleInvocationTimeout uri record).countDispatch,
                      .ok (dispatchResult record calleeSession.connectionId
                        (options.flag "progress")))

def dispatchInvocation (env : StoreEnv) (st : RouterStateStore) (uri : String)
    (callerSessionId requestId : Nat) (procedure : String) (options : Dict) :
    RouterStateStore × Except StoreError InvocationDispatchResult :=
  match st.getOrCreateRealm uri with
  | .error e => (st, .error e)
  | .ok (st, realm) =>
      match realm.sessions.get? callerSessionId with
      | none => (st, .error (.command s!"Caller session {callerSessionId} not found"))
      | some caller =>
          match realm.findInvocationByCaller callerSessionId requestId with
          | some existing =>
              st.dispatchContinuation uri realm existing procedure (options.flag "progress")
          | none => st.dispatchNew env uri realm callerSessionId caller requestId procedure options

/-- Answers a dispatch command. -/
def replyDispatch (port : SendPort)
    (result : RouterStateStore × Except StoreError InvocationDispatchResult) :
    RouterStateStore :=
  match result with
  | (st, .ok dispatch) => st.send port (.dispatched dispatch)
  | (st, .error e) => st.send port (.failed e)

/-- A throttled dispatch: one live invocation for each transaction hash. -/
def dispatchThrottled (env : StoreEnv) (st : RouterStateStore) (uri : String)
    (callerSessionId requestId : Nat) (procedure : String) (options : Dict) (port : SendPort)
    (entry : ProcedureEntry) (policy : RetryDeduplication) (key : RetryDeduplicationKey) :
    RouterStateStore :=
  if st.retryThrottleLeases.contains key then
    { st with counters := { st.counters with
        totalRetryDeduplicationThrottleRejects :=
          st.counters.totalRetryDeduplicationThrottleRejects + 1 } }.send
      port (.failed (.command autoDeduplicationUri))
  else
    match st.ensureRetryDeduplicationCapacity entry policy with
    | (st, .error e) => st.send port (.failed e)
    | (st, .ok ()) =>
        match st.dispatchInvocation env uri callerSessionId requestId procedure options with
        | (st, .error e) => st.send port (.failed e)
        | (st, .ok dispatch) =>
            { st with
              retryThrottleLeases := st.retryThrottleLeases.insert key
                { invocationId := dispatch.invocationId, expiresAt := env.now + policy.expiry }
              retryThrottleKeysByInvocation :=
                st.retryThrottleKeysByInvocation.insert dispatch.invocationId key }.send
              port (.dispatched dispatch)

/-- A debounced dispatch: held until the hash has been quiet, the latest call displacing an
earlier one. -/
def dispatchDebounced (env : StoreEnv) (st : RouterStateStore) (uri : String)
    (callerSessionId requestId : Nat) (procedure : String) (options : Dict) (port : SendPort)
    (entry : ProcedureEntry) (policy : RetryDeduplication) (debounce : Int)
    (key : RetryDeduplicationKey) : RouterStateStore :=
  let hold (st : RouterStateStore) (expiresAt : Int) : RouterStateStore :=
    { st with
      pendingRetryDebounces := st.pendingRetryDebounces.insert key
        { realmUri := uri, callerSessionId := callerSessionId, requestId := requestId,
          procedure := procedure, options := options, replyPort := port,
          expiresAt := expiresAt, expires := ¬ (env.now + debounce < expiresAt) } }
  match st.pendingRetryDebounces.get? key with
  | some previous =>
      let st := dropDebounce (.command autoDeduplicationUri) st key
      hold { st with counters := { st.counters with
        totalRetryDeduplicationDebounceReplacements :=
          st.counters.totalRetryDeduplicationDebounceReplacements + 1 } } previous.expiresAt
  | none =>
      match st.ensureRetryDeduplicationCapacity entry policy with
      | (st, .error e) => st.send port (.failed e)
      | (st, .ok ()) => hold st (env.now + policy.expiry)

/-- A dispatch that carries a transaction hash. -/
def dispatchHashed (env : StoreEnv) (st : RouterStateStore) (uri : String)
    (callerSessionId requestId : Nat) (procedure : String) (options : Dict) (port : SendPort)
    (realm : RealmRecord) (hash : String) : RouterStateStore :=
  let direct (st : RouterStateStore) :=
    replyDispatch port (st.dispatchInvocation env uri callerSessionId requestId procedure options)
  match realm.procedures.procedureAtlas.lookup realm.procedures.heap procedure with
  | none => direct st
  | some (_, entry) =>
      if entry.callees.isEmpty then direct st
      else match retryDeduplicationForEntry entry with
        | .error e => st.send port (.failed e)
        | .ok none => direct st
        | .ok (some policy) =>
            let st := st.reapExpiredRetryThrottleLeases env.now
            let key := { realmUri := uri, registrationId := entry.registrationId,
                         transactionHash := hash }
            match policy.debounce with
            | none =>
                st.dispatchThrottled env uri callerSessionId requestId procedure options port
                  entry policy key
            | some debounce =>
                st.dispatchDebounced env uri callerSessionId requestId procedure options port
                  entry policy debounce key

def handleInvocationDispatch (env : StoreEnv) (st : RouterStateStore) (uri : String)
    (callerSessionId requestId : Nat) (procedure : String) (options : Dict) (port : SendPort) :
    RouterStateStore :=
  match st.findInvocationByCaller uri callerSessionId requestId with
  | some _ =>
      replyDispatch port
        (st.dispatchInvocation env uri callerSessionId requestId procedure options)
  | none =>
      match (transactionHash options).mapError (StoreError.invalid "Invalid transaction_hash") with
      | .error e => st.send port (.failed e)
      | .ok hash =>
          match st.getOrCreateRealm uri with
          | .error e => st.send port (.failed e)
          | .ok (st, realm) =>
              match hash with
              | none =>
                  replyDispatch port
                    (st.dispatchInvocation env uri callerSessionId requestId procedure options)
              | some hash =>
                  st.dispatchHashed env uri callerSessionId requestId procedure options port
                    realm hash

/-- The timer of a held dispatch. -/
def dispatchPendingRetryDebounce (env : StoreEnv) (st : RouterStateStore)
    (key : RetryDeduplicationKey) : RouterStateStore :=
  match st.pendingRetryDebounces.get? key with
  | none => st
  | some pending =>
      let st := { st with pendingRetryDebounces := st.pendingRetryDebounces.erase key }
      let st := if pending.expires then st.countExpiration else st
      replyDispatch pending.replyPort
        (st.dispatchInvocation env pending.realmUri pending.callerSessionId pending.requestId
          pending.procedure pending.options)

def completeInvocation (st : RouterStateStore) (uri : String) (invocationId : Nat) :
    RouterStateStore × Option PendingInvocation :=
  let st := st.cancelInvocationTimeout uri invocationId
  match st.getInvocation uri invocationId with
  | none => (st, none)
  | some i => ((st.removeInvocation uri invocationId).releaseRetryThrottleLease invocationId, some i)

def touchInvocation (st : RouterStateStore) (uri : String) (invocationId : Nat) :
    RouterStateStore × Bool :=
  match st.getInvocation uri invocationId with
  | none => (st, false)
  | some i =>
      if i.timeout.isNone || i.timeoutForwarded then (st, true)
      else (st.scheduleInvocationTimeout uri i, true)

/-- `_expireInvocation`, the callback of an invocation's timer. -/
def expireInvocation (st : RouterStateStore) (uri : String) (invocationId : Nat) :
    RouterStateStore :=
  let st := st.cancelInvocationTimeout uri invocationId
  match st.realms.get? uri with
  | none => st
  | some realm =>
      match realm.invocations.get? invocationId with
      | none => st
      | some i =>
          let st := (st.removeInvocation uri invocationId).releaseRetryThrottleLease invocationId
          (st.bumpAndNotify uri).emit (.invocationTimeout
            { realmUri := uri
              invocationId := i.invocationId
              callerRequestId := i.callerRequestId
              callerSessionId := i.callerSessionId
              calleeSessionId := i.calleeSessionId
              callerConnectionId := (realm.sessions.get? i.callerSessionId).map (·.connectionId)
              calleeConnectionId := i.calleeConnectionId
              callerInternalSendPort := i.callerInternalSendPort
              calleeInternalSendPort := i.calleeInternalSendPort })

def cancelInvocation (st : RouterStateStore) (uri : String) (invocationId : Nat) (mode : String)
    (waitForAck : Bool) : RouterStateStore × Bool :=
  match st.getInvocation uri invocationId with
  | none => (st, false)
  | some i =>
      let st := st.modifyRealm uri fun r =>
        { r with
          invocations := r.invocations.insert invocationId
            { i with cancelRequested := true, cancelMode := some mode,
                     waitForCancelAck := waitForAck } }
      let st := st.cancelInvocationTimeout uri invocationId
      if waitForAck then (st, true)
      else ((st.removeInvocation uri invocationId).releaseRetryThrottleLease invocationId, true)

/-- The caller of an active invocation, for its own callee only. -/
def invocationCaller (st : RouterStateStore) (uri : String) (invocationId calleeSessionId : Nat) :
    RouterStateStore × Except StoreError (Option SessionInfo) :=
  match st.getOrCreateRealm uri with
  | .error e => (st, .error e)
  | .ok (st, realm) =>
      match realm.invocations.get? invocationId with
      | none => (st, .ok none)
      | some i =>
          if i.calleeSessionId ≠ calleeSessionId then (st, .ok none)
          else (st, .ok ((realm.sessions.get? i.callerSessionId).map (·.toSessionInfo)))

/-! ### Publications -/

/-- `_decodeIdSet`. -/
def decodeIdSet : Value → Option (List Int)
  | .list items => some (items.filterMap fun element =>
      match element with
      | .int n => some n
      | v => intTryParse v.toText)
  | _ => none

/-- `_decodeStringSet`. -/
def decodeStringSet : Value → Option (List String)
  | .list items => some ((items.filter fun v => !v.isNull).map Value.toText |>.filter
      fun text => !text.isEmpty)
  | _ => none

/-- The first of two spellings of an option that is a list. -/
def stringSetOption (options : Dict) (key alternative : String) : Option (List String) :=
  (decodeStringSet (options.at key)).or (decodeStringSet (options.at alternative))

/-- The subscriber passes the black and white lists of a PUBLISH. -/
def eligibleSubscriber (options : Dict) (publisherSessionId sessionId : Nat)
    (record : SubscriberRecord) (session : SessionRecord) : Bool :=
  let authRole := record.authRole.or session.authRole
  !(options.flag "exclude_me" && sessionId == publisherSessionId) &&
  !((decodeIdSet (options.at "exclude")).any (·.contains (sessionId : Int))) &&
  (decodeIdSet (options.at "eligible")).all (·.contains (sessionId : Int)) &&
  !((stringSetOption options "exclude_authid" "exclude_authids").any fun ids =>
    session.authId.any ids.contains) &&
  (stringSetOption options "eligible_authid" "eligible_authids").all (fun ids =>
    session.authId.any ids.contains) &&
  !((stringSetOption options "exclude_authrole" "exclude_authroles").any fun roles =>
    authRole.any roles.contains) &&
  (stringSetOption options "eligible_authrole" "eligible_authroles").all fun roles =>
    authRole.any roles.contains

/-- The deliveries of one entry, in session order. -/
def matchesOfEntry (realm : RealmRecord) (options : Dict) (publisherSessionId : Nat)
    (entry : SubscriptionEntry) : List SubscriptionMatch :=
  entry.subscribers.entries.filterMap fun (sessionId, record) =>
    match realm.sessions.get? sessionId with
    | none => none
    | some session =>
        if eligibleSubscriber options publisherSessionId sessionId record session then
          some { subscriptionId := entry.id, sessionId := sessionId,
                 connectionId := session.connectionId, serializerId := session.serializerId,
                 internalSendPort := session.internalSendPort, authRole := record.authRole,
                 details := record.details }
        else none

def matchSubscriptions (st : RouterStateStore) (uri topic : String) (publisherSessionId : Nat)
    (options : Dict) : RouterStateStore × Except StoreError PublicationRouting :=
  let st := { st with counters := { st.counters with
    totalPublicationsRouted := st.counters.totalPublicationsRouted + 1 } }
  match st.getOrCreateRealm uri with
  | .error e => (st, .error e)
  | .ok (st, realm) =>
      let publicationId := st.ids.publication.nextId
      let st := st.drawPublicationId
      let entries := SubscriptionAtlas.matching realm.subscriptions.subscriptionAtlas
        realm.subscriptions.heap topic
      (st, .ok { publicationId := publicationId
                 matched := entries.flatMap (matchesOfEntry realm options publisherSessionId) })

def collectMetrics (env : StoreEnv) (st : RouterStateStore) :
    RouterStateStore × RouterStateMetrics :=
  let total (f : RealmRecord → Nat) := (st.realms.values.map f).sum
  let st' := st.reapExpiredRetryThrottleLeases env.now
  (st',
    { realmCount := st.realms.length
      sessionCount := total (·.sessions.length)
      subscriptionCount := total (·.subscriptions.subscriptionsById.length)
      registrationCount := total (·.procedures.proceduresById.length)
      pendingInvocationCount := total (·.invocations.length)
      retryDeduplicationActiveCount :=
        st'.retryThrottleLeases.length + st'.pendingRetryDebounces.length
      counters := st'.counters })

/-- `dispose()`: what is held is answered, and the tables are emptied. -/
def dispose (st : RouterStateStore) : RouterStateStore :=
  let st := { st with invocationTimeouts := .empty }
  let st := st.pendingRetryDebounces.values.foldl (fun st pending =>
    st.send pending.replyPort (.failed (.command "Router state store disposed"))) st
  { st with
    pendingRetryDebounces := .empty
    retryThrottleLeases := .empty
    retryThrottleKeysByInvocation := .empty
    realms := .empty }

/-! ### The command port -/

/-- `_sendGuardedReply`: the action's result, or its error, on the port. -/
def sendGuardedReply {α : Type} (port : SendPort) (wrap : α → StoreReply)
    (result : RouterStateStore × Except StoreError α) : RouterStateStore :=
  match result with
  | (st, .ok a) => st.send port (wrap a)
  | (st, .error e) => st.send port (.failed e)

/-- A failed registration sends a `StoreCommandError` as text and any other error as it is. -/
def registerReply (error : StoreError) : StoreReply :=
  match error with
  | .command _ | .invalid _ _ => .failed error
  | .state _ | .argument _ => .thrown error

def dispatchCommand (env : StoreEnv) (st : RouterStateStore) :
    RouterStateCommand → RouterStateStore
  | .realmEnsure uri =>
      match st.getOrCreateRealm uri with
      | .ok (st, _) => st
      | .error _ => st
  | .realmSnapshot uri known port => sendGuardedReply port .snapshot (st.getSnapshot uri known)
  | .sessionOpen uri session => (st.openSession uri session).1
  | .sessionAllocateId port =>
      st.drawSessionId.send port (.id st.ids.session.nextId)
  | .sessionClose uri sessionId => st.closeSession uri sessionId
  | .subscriptionAdd uri sessionId topic policy details port =>
      sendGuardedReply port .id (st.addSubscription env uri sessionId topic policy details)
  | .subscriptionRemove uri sessionId subscriptionId =>
      st.removeSubscription uri sessionId subscriptionId
  | .subscriptionMatch uri topic publisher options port =>
      sendGuardedReply port .routing (st.matchSubscriptions uri topic publisher options)
  | .procedureRegister uri sessionId procedure details port =>
      match st.registerProcedure env uri sessionId procedure details with
      | (st, .ok id) => st.send port (.id id)
      | (st, .error e) => st.send port (registerReply e)
  | .procedureUnregister uri sessionId registrationId =>
      st.unregisterProcedure uri sessionId registrationId
  | .invocationDispatch uri caller request procedure options port =>
      st.handleInvocationDispatch env uri caller request procedure options port
  | .invocationFindByCaller uri caller request port =>
      st.send port (.invocation (st.findInvocationByCaller uri caller request))
  | .invocationCancel uri invocationId mode waitForAck port =>
      let (st, found) := st.cancelInvocation uri invocationId mode waitForAck
      st.send port (.flag found)
  | .invocationGet uri invocationId port =>
      st.send port (.invocation (st.getInvocation uri invocationId))
  | .invocationCaller uri invocationId callee port =>
      sendGuardedReply port .caller (st.invocationCaller uri invocationId callee)
  | .invocationComplete uri invocationId port =>
      let (st, record) := st.completeInvocation uri invocationId
      match port with
      | none => st
      | some port => st.send port (.invocation record)
  | .invocationTouch uri invocationId port =>
      let (st, found) := st.touchInvocation uri invocationId
      match port with
      | none => st
      | some port => st.send port (.flag found)
  | .metricsSnapshot port =>
      let (st, metrics) := st.collectMetrics env
      st.send port (.metrics metrics)

/-- One input of the store.  A timer that is not running does not fire. -/
def handle (env : StoreEnv) (st : RouterStateStore) : StoreInput → RouterStateStore
  | .command c => st.dispatchCommand env c
  | .invocationTimer uri invocationId =>
      if st.invocationTimeouts.contains (uri, invocationId) then
        st.expireInvocation uri invocationId
      else st
  | .debounceTimer key => st.dispatchPendingRetryDebounce env key

end RouterStateStore

end Connectanum
