import Connectanum.Router.Messages

/-!
# Router — Handlers

The handlers of `router_worker_session.dart` for SUBSCRIBE, REGISTER, PUBLISH, CALL, CANCEL,
YIELD and ERROR, the relay of an internal callee's answer, and the boss's handling of a timed
out invocation.  A handler reads as its source does: each `ask` is an `await`, and the branches
of a `catch` stand where the awaited reply is an error.
-/

namespace Connectanum

open Collections Machine

/-- `text.contains(part)`. -/
def containsText (text part : String) : Bool :=
  text.toList.tails.any fun rest => part.toList.isPrefixOf rest

/-! ### Errors -/

/-- `details['message']`, unless there is nothing to say. -/
def errorDetails : Option String → Dict
  | none => .empty
  | some text => if text.isEmpty then .empty else Dict.put .empty "message" (some (.str text))

/-- `_sendSessionError`. -/
def sessionError (connectionId requestType requestId : Nat) (reason : String)
    (detailsMessage : Option String) (stream : Option Stream) : Post :=
  .frame .send
    { connectionId := connectionId
      message := .error requestType requestId (errorDetails detailsMessage) (some reason) .null
      stream := stream }

/-- `_sendInvocationErrorToCallee`. -/
def invocationErrorToCallee (connectionId invocationId : Nat) (reason : String)
    (detailsMessage : Option String) : Post :=
  sessionError connectionId MessageTypes.codeInvocation invocationId reason detailsMessage none

def reasonForInvocationDispatchError (message : String) : String :=
  if containsText message autoDeduplicationUri then autoDeduplicationUri
  else if containsText message "No registration" || containsText message "No available callee" then
    WampError.noSuchProcedure
  else if containsText message "Caller session" then WampError.noSuchSession
  else if containsText message "Invalid progressive invocation" then WampError.invalidArgument
  else if containsText message "Invalid transaction_hash" then WampError.invalidArgument
  else WampError.unknown

def reasonForRegisterStateError (message : String) : String :=
  if containsText message "already registered" then WampError.procedureAlreadyExists
  else if containsText message "Session" then WampError.noSuchSession
  else if containsText message "Invalid auto_deduplication" then WampError.invalidArgument
  else WampError.unknown

/-- An `ArgumentError` of SUBSCRIBE and REGISTER. -/
def reasonForArgumentError (e : ArgumentError) : String :=
  if containsText e.toText "invalid_uri" then WampError.invalidUri else WampError.invalidArgument

/-- The `catch` clauses of `_handleSubscribe`: the error's reason and message. -/
def subscribeFailure : Failure → String × String
  | .argument e => (reasonForArgumentError e, e.toText)
  | .state message => (WampError.noSuchSession, message)
  | .other text => (WampError.unknown, text)

def registerFailure : Failure → String × String
  | .argument e => (reasonForArgumentError e, e.toText)
  | .state message => (reasonForRegisterStateError message, message)
  | .other text => (WampError.unknown, text)

def publishFailure : Failure → String × String
  | .argument e => (WampError.invalidArgument, e.message)
  | .state message => (WampError.noSuchSession, message)
  | .other text => (WampError.unknown, "_TypeError: " ++ text)

def callFailure : Failure → String × String
  | .argument e => (WampError.invalidArgument, e.message)
  | .state message => (reasonForInvocationDispatchError message, message)
  | .other text => (WampError.unknown, text)

/-- The `catch` clauses of `_handleCancel`, `_handleYield` and `_handleInvocationError`. -/
def invocationFailure : Failure → String × String
  | .state message => (WampError.noSuchInvocation, message)
  | f => (WampError.unknown, f.toText)

/-- `_authorizeStateActionOrSendError`, going on with `allowed`. -/
def authorizeStateAction (connectionId requestType requestId : Nat) (action : AuthorizationAction)
    (uri : String) (options : Dict) (targetMatchPolicy : Option PermissionMatchPolicy)
    (allowed : Handler) : Handler :=
  .ask .look fun view =>
    match view.state.realmSettings, view.state.realmUri, view.state.sessionId with
    | some _, some realmUri, some sessionId =>
        .ask (.authorize
          { realmUri := realmUri, action := action, uri := uri, sessionId := sessionId,
            connectionId := some connectionId, authId := view.state.authId,
            authRole := view.state.authRole, authMethod := view.state.authMethod,
            authProvider := view.state.authProvider, options := options,
            targetMatchPolicy := targetMatchPolicy }) fun decision =>
          if decision.allowed then allowed
          else
            .send (sessionError connectionId requestType requestId decision.reason
              (some (decision.message.getD
                ("Not authorized to " ++ action.operationName ++ " " ++ uri))) none) .done
    | _, _, _ =>
        .send (sessionError connectionId requestType requestId WampError.notSupported
          (some "Session authorization context unavailable") none) .done

/-! ### SUBSCRIBE and REGISTER -/

def handleSubscribe (connectionId requestId : Nat) (options : Option SubscribeOptions)
    (topic : String) : Handler :=
  let fail (f : Failure) : Handler :=
    .send (sessionError connectionId MessageTypes.codeSubscribe requestId (subscribeFailure f).1
      (some (subscribeFailure f).2) none) .done
  .ask .look fun view =>
    match view.state.realmUri with
    | none =>
        .send (sessionError connectionId MessageTypes.codeSubscribe requestId
          WampError.notSupported (some "Router state store unavailable") none) .done
    | some realmUri =>
        let matchPolicy := matchPolicyFromOption (options.bind (·.match))
        let details := subscriptionDetailsFromOptions options
        match validateUri topic matchPolicy with
        | .error e => fail (.argument e)
        | .ok () =>
            authorizeStateAction connectionId MessageTypes.codeSubscribe requestId .subscribe topic
              details (some matchPolicy) <|
            .ask .look fun view =>
              match view.state.sessionId with
              | none => fail .nullCheck
              | some sessionId =>
                  .ask (.store .subscribeAdd realmUri
                    (.addSubscription sessionId topic matchPolicy details)) fun reply =>
                  match reply.asId "subscription response" with
                  | .error f => fail f
                  | .ok subscriptionId =>
                      .ask (.store .subscribeSnapshot realmUri .snapshot) fun reply =>
                      match reply.asSnapshot with
                      | .error f => fail f
                      | .ok _ =>
                          .send (.frame .send
                            { connectionId := connectionId
                              message := .subscribed requestId subscriptionId }) .done

def handleRegister (connectionId requestId : Nat) (options : Option RegisterOptions)
    (procedure : String) : Handler :=
  let fail (f : Failure) : Handler :=
    .send (sessionError connectionId MessageTypes.codeRegister requestId (registerFailure f).1
      (some (registerFailure f).2) none) .done
  .ask .look fun view =>
    match view.state.realmUri with
    | none =>
        .send (sessionError connectionId MessageTypes.codeRegister requestId
          WampError.notSupported (some "Router state store unavailable") none) .done
    | some realmUri =>
        match RegisterOptions.verify options with
        | .error e => fail (.argument e)
        | .ok () =>
            let matchPolicy := matchPolicyFromOption (options.bind (·.match))
            let details := registrationDetailsFromOptions options
            match validateUri procedure matchPolicy with
            | .error e => fail (.argument e)
            | .ok () =>
                authorizeStateAction connectionId MessageTypes.codeRegister requestId .register
                  procedure details (some matchPolicy) <|
                .ask .look fun view =>
                  match view.state.sessionId with
                  | none => fail .nullCheck
                  | some sessionId =>
                      .ask (.store .registerAdd realmUri
                        (.registerProcedure sessionId procedure details)) fun reply =>
                      match reply.asId "register response" with
                      | .error f => fail f
                      | .ok registrationId =>
                          .ask (.store .registerSnapshot realmUri .snapshot) fun reply =>
                          match reply.asSnapshot with
                          | .error f => fail f
                          | .ok _ =>
                              .send (.frame .send
                                { connectionId := connectionId
                                  message := .registered requestId registrationId }) .done

/-! ### PUBLISH -/

/-- The EVENT of one external subscriber, by the given path. -/
def eventPost (path : Path) (options : Option PublishOptions) (publisher : Nat) (topic : String)
    (payload : Payload) (publicationId : Nat) (matched : SubscriptionMatch) : Post :=
  .frame path
    { connectionId := matched.connectionId
      message := .event matched.subscriptionId publicationId
        (eventDetailsForMatch options (some publisher) matched topic) payload
      stream := some (.publications publisher matched.subscriptionId) }

/-- The EVENT of an internal subscriber. -/
def internalEventPost (port : SendPort) (options : Option PublishOptions) (publisher : Nat)
    (topic : String) (payload : Payload) (publicationId : Nat) (matched : SubscriptionMatch) :
    Post :=
  let details := Dict.putPPT
    (Dict.addAll matched.details ((options.map (·.custom)).getD .empty))
    ((options.map (·.toPPTOptions)).getD {})
  .internal port (.event matched.subscriptionId publicationId
    (eventTopicForMatch matched.details topic)
    (if options.any (·.discloseMe == some true) then some publisher else none) details payload)
    (some (.publications publisher matched.subscriptionId))

/-- What a routed publication sends, in order: the acknowledgement, the events forwarded
natively, those of internal sessions, and those that other workers serialize. -/
def publicationPosts (view : View) (connectionId requestId : Nat)
    (options : Option PublishOptions) (publisher : Nat) (topic : String) (payload : Payload)
    (routing : PublicationRouting) : List Post :=
  let external := routing.matched.filter (·.internalSendPort.isNone)
  let canForwardNative := options.all (·.custom.isEmpty)
  let nativeMatches :=
    external.filter fun m => canForwardNative && view.native.contains m.connectionId
  let dartMatches :=
    external.filter fun m => !(canForwardNative && view.native.contains m.connectionId)
  -- without a handle of its own for each of them, nobody is served natively
  let forwarded := if view.retains then dartMatches else dartMatches ++ nativeMatches
  (if options.any (·.acknowledge == some true) then
    [.frame .send
      { connectionId := connectionId, message := .published requestId routing.publicationId }]
  else []) ++
  (if view.retains then
    nativeMatches.map (eventPost .native options publisher topic payload routing.publicationId)
  else []) ++
  routing.matched.filterMap (fun m => m.internalSendPort.map fun port =>
    internalEventPost port options publisher topic payload routing.publicationId m) ++
  forwarded.map (eventPost .forward options publisher topic payload routing.publicationId)

def handlePublish (connectionId requestId : Nat) (options : Option PublishOptions)
    (topic : String) (payload : Payload) : Handler :=
  let fail (f : Failure) : Handler :=
    .send (sessionError connectionId MessageTypes.codePublish requestId (publishFailure f).1
      (some (publishFailure f).2) none) .done
  .ask .look fun view =>
    -- the payload is transferred first, outside of any `try`
    if view.failure.isSome then .done
    else
      match view.state.realmUri with
      | none =>
          .send (sessionError connectionId MessageTypes.codePublish requestId
            WampError.notSupported (some "Router state store unavailable") none) .done
      | some _ =>
          authorizeStateAction connectionId MessageTypes.codePublish requestId .publish topic
            (publishOptionsToMap options) none <|
          .ask .look fun view =>
            match view.state.realmUri, view.state.sessionId with
            | some realmUri, some sessionId =>
                .ask (.store .publishMatch realmUri
                  (.matchSubscriptions sessionId topic (publishOptionsToMap options))) fun reply =>
                match reply.asRouting with
                | .error f => fail f
                | .ok routing =>
                    .ask .look fun view =>
                      Script.sendAll (publicationPosts view connectionId requestId options
                        sessionId topic payload routing) .done
            | _, _ => fail .nullCheck

/-! ### The answer of an internal callee -/

/-- `_sendInternalInvocationError`. -/
def sendInternalInvocationError (realmUri : String) (invocationId calleeSessionId : Nat)
    (errorUri : String) (details : Dict) (payload : Payload) : Handler :=
  .ask (.store .relayErrorGet realmUri (.getInvocation invocationId)) fun reply =>
    match reply.asInvocation with
    | .error _ | .ok none => .done
    | .ok (some invocation) =>
        if invocation.calleeSessionId ≠ calleeSessionId then
          .ask (.store .relayErrorMismatch realmUri (.completeInvocation invocationId))
            fun _ => .done
        else
          .ask (.store .relayErrorComplete realmUri (.completeInvocation invocationId)) fun reply =>
            match reply.asInvocation with
            | .error _ => .done
            | .ok _ =>
                match invocation.callerInternalSendPort with
                | some port =>
                    .send (.internal port
                      (.callError invocation.callerRequestId (some errorUri) details payload)
                      (some (.invocation (realmUri, invocationId)))) .done
                | none =>
                    .ask (.store .relayErrorSnapshot realmUri .snapshot) fun reply =>
                      match reply.asSnapshot with
                      | .error _ => .done
                      | .ok snapshot =>
                          match findConnectionIdForSession snapshot invocation.callerSessionId with
                          | none => .done
                          | some callerConnectionId =>
                              .send (.frame .forward
                                { connectionId := callerConnectionId
                                  message := .error MessageTypes.codeCall
                                    invocation.callerRequestId details (some errorUri) payload
                                  stream := some (.invocation (realmUri, invocationId)) }) .done

/-- The details of a RESULT for an internal callee's answer. -/
def relayedDetails (progress : Bool) (ppt : PPTOptions) (details : Dict) : ResultDetails :=
  { toPPTOptions := ppt
    progress := some progress
    custom := details.without
      ["progress", "ppt_scheme", "ppt_serializer", "ppt_cipher", "ppt_keyid"] }

/-- The end of `_sendInternalInvocationResult`, once the invocation has been touched or
completed. -/
def relayResult (realmUri : String) (invocationId calleeSessionId : Nat)
    (invocation : PendingInvocation) (progress : Bool) (ppt : PPTOptions) (details : Dict)
    (payload : Payload) : Handler :=
  match invocation.callerInternalSendPort with
  | some port =>
      .send (.internal port
        (.callResult invocation.callerRequestId progress ppt details payload)
        (some (.invocation (realmUri, invocationId)))) .done
  | none =>
      .ask (.store .relaySnapshot realmUri .snapshot) fun reply =>
        match reply.asSnapshot with
        | .error f =>
            sendInternalInvocationError realmUri invocationId calleeSessionId WampError.unknown
              .empty (.list [.str f.toText])
        | .ok snapshot =>
            match findConnectionIdForSession snapshot invocation.callerSessionId with
            | none => .done
            | some callerConnectionId =>
                .ask .look fun view =>
                  .send (.frame
                    (if view.native.contains callerConnectionId && !progress &&
                        decide (ppt = {}) && details.isEmpty then .native else .forward)
                    { connectionId := callerConnectionId
                      message := .result invocation.callerRequestId
                        (relayedDetails progress ppt details) payload
                      stream := some (.invocation (realmUri, invocationId)) }) .done

/-- A response that the call does not allow: completed, and answered with an error. -/
def refuseResult (realmUri : String) (invocationId calleeSessionId : Nat)
    (invocation : PendingInvocation) (errorUri text : String) : Handler :=
  .ask (.store (.relayRefused invocation.callerInternalSendPort) realmUri
    (.completeInvocation invocationId)) fun reply =>
    match reply.asInvocation, invocation.callerInternalSendPort with
    | .error f, _ =>
        sendInternalInvocationError realmUri invocationId calleeSessionId WampError.unknown .empty
          (.list [.str f.toText])
    | .ok _, some port =>
        .send (.internal port
          (.callError invocation.callerRequestId (some errorUri) .empty (.list [.str text]))
          (some (.invocation (realmUri, invocationId)))) .done
    | .ok _, none =>
        sendInternalInvocationError realmUri invocationId calleeSessionId errorUri .empty
          (.list [.str text])

/-- `_sendInternalInvocationResult`. -/
def sendInternalInvocationResult (realmUri : String) (invocationId calleeSessionId : Nat)
    (progress : Bool) (ppt : PPTOptions) (details : Dict) (payload : Payload) : Handler :=
  let fail (f : Failure) : Handler :=
    sendInternalInvocationError realmUri invocationId calleeSessionId WampError.unknown .empty
      (.list [.str f.toText])
  .ask (.store .relayGet realmUri (.getInvocation invocationId)) fun reply =>
    match reply.asInvocation with
    | .error f => fail f
    | .ok none => .done
    | .ok (some invocation) =>
        if invocation.calleeSessionId ≠ calleeSessionId then
          .ask (.store .relayMismatch realmUri (.completeInvocation invocationId)) fun reply =>
            match reply.asInvocation with
            | .error f => fail f
            | .ok _ => .done
        else if invocation.cancelRequested then
          refuseResult realmUri invocationId calleeSessionId invocation
            WampError.invocationCanceled "Invocation cancelled"
        else if progress && !invocation.allowProgress then
          refuseResult realmUri invocationId calleeSessionId invocation
            WampError.invalidArgument "Invocation does not allow progress"
        else if progress then
          .ask (.store .relayTouch realmUri (.touchInvocation invocationId)) fun reply =>
            match reply.asFlag with
            | .error f => fail f
            | .ok false => .done
            | .ok true =>
                relayResult realmUri invocationId calleeSessionId invocation progress ppt details
                  payload
        else
          .ask (.store .relayComplete realmUri (.completeInvocation invocationId)) fun reply =>
            match reply.asInvocation with
            | .error f => fail f
            | .ok none => .done
            | .ok (some _) =>
                relayResult realmUri invocationId calleeSessionId invocation progress ppt details
                  payload

/-- The first response on the reply port of an internal invocation. -/
def relayResponse (realmUri : String) (invocationId calleeSessionId : Nat) (procedure : String) :
    InternalResponse → Handler
  | .result progress ppt details payload =>
      sendInternalInvocationResult realmUri invocationId calleeSessionId progress ppt details
        payload
  | .error error details payload =>
      sendInternalInvocationError realmUri invocationId calleeSessionId
        (error.getD WampError.runtimeError) details payload
  | .invalid =>
      sendInternalInvocationError realmUri invocationId calleeSessionId WampError.runtimeError
        .empty (.list [.str ("Internal session returned invalid response for " ++ procedure)])

/-! ### CALL -/

/-- The procedures that a worker answers from a snapshot, without an invocation. -/
def standardMetaProcedures : List String :=
  ["wamp.session.count", "wamp.session.list", "wamp.session.get", "wamp.registration.list",
    "wamp.registration.lookup", "wamp.registration.match", "wamp.registration.get",
    "wamp.registration.list_callees", "wamp.registration.count_callees",
    "wamp.subscription.list", "wamp.subscription.lookup", "wamp.subscription.match",
    "wamp.subscription.get", "wamp.subscription.list_subscribers",
    "wamp.subscription.count_subscribers"]

/-- `_handleInternalInvocation`: the invocation goes to the callee's port, and its first answer
is relayed. -/
def handleInternalInvocation (view : View) (connectionId requestId : Nat) (procedure : String)
    (payload : Payload) (dispatch : InvocationDispatchResult) (port : SendPort)
    (key : InvocationKey) : Handler :=
  match view.state.realmUri, view.state.sessionId with
  | some realmUri, some _ =>
      match view.failure with
      | some f =>
          .send (sessionError connectionId MessageTypes.codeCall requestId WampError.unknown
            (some f.toText) (some (.invocation key))) .done
      | none =>
          let options := dispatch.initiatingOptions
          let options := if dispatch.timeoutForwarded then options else options.erase "timeout"
          let options :=
            if dispatch.progressiveInvocation then options.insert "progress" (.bool dispatch.progress)
            else options
          .send (.internal port (.invocation dispatch.invocationId dispatch.registrationId procedure
            options realmUri dispatch.disclosedCallerSessionId dispatch.disclosedCallerAuthId
            dispatch.disclosedCallerAuthRole requestId payload) (some (.invocation key))) <|
          .ask .response fun response =>
            relayResponse realmUri dispatch.invocationId dispatch.calleeSessionId procedure response
  | _, _ =>
      .send (sessionError connectionId MessageTypes.codeCall requestId WampError.notSupported
        (some "Session is not open") (some (.invocation key))) .done

/-- `_canUseNativeProgressiveInvocationForwarding`, with the checks before it. -/
def canForwardInvocationNatively (options : Option CallOptions)
    (dispatch : InvocationDispatchResult) : Bool :=
  !dispatch.timeoutForwarded &&
  (options.map (·.custom.at transactionHashWireField)).all (·.isNull) &&
  (!dispatch.progressiveInvocation ||
    decide (dispatch.initiatingOptions.ppt = (options.map (·.toPPTOptions)).getD {})) &&
  (filteredInvocationOptionDetails dispatch.initiatingOptions).isEmpty

/-- The details of an INVOCATION that the native runtime writes. -/
def nativeInvocationDetails (options : Option CallOptions) (dispatch : InvocationDispatchResult)
    (procedure : String) : InvocationDetails :=
  { toPPTOptions := (options.map (·.toPPTOptions)).getD {}
    caller := dispatch.disclosedCallerSessionId
    procedure := some procedure
    receiveProgress := dispatch.initiatingOptions.bool? "receive_progress"
    progress := if dispatch.progressiveInvocation then some dispatch.progress else none
    custom := (Dict.put .empty "caller_authid" (dispatch.disclosedCallerAuthId.map .str)).put
      "caller_authrole" (dispatch.disclosedCallerAuthRole.map .str) }

/-- The rest of `_handleCall`, once the dispatch has been accepted. -/
def forwardInvocation (connectionId requestId : Nat) (options : Option CallOptions)
    (procedure : String) (payload : Payload) (dispatch : InvocationDispatchResult)
    (key : InvocationKey) (view : View) : Handler :=
  match dispatch.calleeInternalSendPort with
  | some port =>
      handleInternalInvocation view connectionId requestId procedure payload dispatch port key
  | none =>
      if canForwardInvocationNatively options dispatch &&
          view.native.contains dispatch.calleeConnectionId then
        .send (.frame .native
          { connectionId := dispatch.calleeConnectionId
            message := .invocation dispatch.invocationId dispatch.registrationId
              (nativeInvocationDetails options dispatch procedure) payload
            stream := some (.invocation key) }) .done
      else
        match view.failure with
        | some f =>
            .send (sessionError connectionId MessageTypes.codeCall requestId (callFailure f).1
              (some (callFailure f).2) (some (.invocation key))) .done
        | none =>
            .send (.frame .forward
              { connectionId := dispatch.calleeConnectionId
                message := .invocation dispatch.invocationId dispatch.registrationId
                  (invocationDetailsForCall dispatch procedure) payload
                stream := some (.invocation key) }) .done

def handleCall (connectionId requestId : Nat) (options : Option CallOptions) (procedure : String)
    (payload : Payload) : Handler :=
  let fail (f : Failure) : Handler :=
    .send (sessionError connectionId MessageTypes.codeCall requestId (callFailure f).1
      (some (callFailure f).2) none) .done
  .ask .look fun view =>
    match view.state.realmUri with
    | none =>
        .send (sessionError connectionId MessageTypes.codeCall requestId WampError.notSupported
          (some "Router state store unavailable") none) .done
    | some _ =>
        if standardMetaProcedures.contains procedure then .done
        else
          match callOptionsToMap options with
          | .error e => fail (.argument e)
          | .ok map =>
              authorizeStateAction connectionId MessageTypes.codeCall requestId .call procedure map
                none <|
              .ask .look fun view =>
                match view.state.realmUri, view.state.sessionId with
                | some realmUri, some sessionId =>
                    .ask (.store .callDispatch realmUri
                      (.dispatchInvocation sessionId requestId procedure map)) fun reply =>
                    match reply.asDispatch with
                    | .error f => fail f
                    | .ok dispatch =>
                        .ask (.handOver (realmUri, dispatch.invocationId)
                          dispatch.calleeInternalSendPort.isSome) fun view =>
                          forwardInvocation connectionId requestId options procedure payload
                            dispatch (realmUri, dispatch.invocationId) view
                | _, _ => fail .nullCheck

/-! ### CANCEL -/

inductive CancelMode where
  | skip
  | kill
  | killNoWait
  deriving DecidableEq

def CancelMode.name : CancelMode → String
  | .skip => "skip"
  | .kill => "kill"
  | .killNoWait => "killnowait"

def normalizeCancelMode : Option String → Option CancelMode
  | none => some .skip
  | some "skip" => some .skip
  | some "kill" => some .kill
  | some "killnowait" => some .killNoWait
  | some _ => none

/-- `_sendCancelAck`. -/
def cancelAck (connectionId requestId : Nat) (key : InvocationKey) : Post :=
  .frame .send
    { connectionId := connectionId
      message := .error MessageTypes.codeCall requestId .empty (some WampError.invocationCanceled)
        .null
      stream := some (.invocation key) }

/-- Interrupts the callee of the cancelled invocation, and goes on. -/
def interruptCallee (realmUri : String) (invocation : PendingInvocation) (mode : CancelMode)
    (fail : Failure → Handler) (rest : Handler) : Handler :=
  let toConnection (calleeConnectionId : Nat) : Handler :=
    .send (.frame .forward
      { connectionId := calleeConnectionId
        message := .interrupt invocation.invocationId mode.name }) rest
  match invocation.calleeInternalSendPort, invocation.calleeConnectionId with
  | some port, _ => .send (.internal port (.interrupt invocation.invocationId mode.name) none) rest
  | none, some calleeConnectionId => toConnection calleeConnectionId
  | none, none =>
      .ask (.store .cancelSnapshot realmUri .snapshot) fun reply =>
        match reply.asSnapshot with
        | .error f => fail f
        | .ok snapshot =>
            match findConnectionIdForSession snapshot invocation.calleeSessionId with
            | none => rest
            | some calleeConnectionId => toConnection calleeConnectionId

def handleCancel (connectionId requestId : Nat) (mode : Option String) : Handler :=
  let error (reason text : String) : Handler :=
    .send (sessionError connectionId MessageTypes.codeCancel requestId reason (some text) none)
      .done
  let fail (f : Failure) : Handler := error (invocationFailure f).1 (invocationFailure f).2
  let noInvocation : Handler :=
    error WampError.noSuchInvocation ("No active invocation for request " ++ toString requestId)
  .ask .look fun view =>
    match view.state.realmUri, view.state.sessionId with
    | none, _ => error WampError.notSupported "Router state store unavailable"
    | some _, none => fail .nullCheck
    | some realmUri, some sessionId =>
        .ask (.store .cancelFind realmUri (.findInvocationByCaller sessionId requestId)) fun reply =>
        match reply.asInvocation with
        | .error f => fail f
        | .ok none => noInvocation
        | .ok (some invocation) =>
            let key := (realmUri, invocation.invocationId)
            authorizeStateAction connectionId MessageTypes.codeCancel requestId .cancel
              invocation.procedure .empty none <|
            match normalizeCancelMode mode with
            | none =>
                error WampError.invalidArgument ("Unsupported cancel mode: " ++ mode.getD "null")
            | some .skip =>
                .ask (.store .cancelSkip realmUri
                  (.completeInvocation invocation.invocationId)) fun reply =>
                match reply.asInvocation with
                | .error f => fail f
                | .ok _ => .send (cancelAck connectionId requestId key) .done
            | some kill =>
                let waitForAck := kill = .kill
                .ask (.store .cancelMark realmUri
                  (.cancelInvocation invocation.invocationId kill.name waitForAck)) fun reply =>
                match reply.asFlag with
                | .error f => fail f
                | .ok false => noInvocation
                | .ok true =>
                    interruptCallee realmUri invocation kill fail <|
                      if waitForAck then .done
                      else .send (cancelAck connectionId requestId key) .done

/-! ### YIELD and ERROR -/

/-- The end of `_handleYield` and `_handleInvocationError`, once the invocation has been touched
or completed: the callee's message goes to the caller, as `internal` to a port and as `external`
to a connection. -/
def replyToCaller (snapshotPoint : Point) (realmUri : String) (connectionId invocationId : Nat)
    (invocation : PendingInvocation) (internal : InternalMessage) (external : RouterMessage)
    (callerGone : Handler) : Handler :=
  let fail (f : Failure) : Handler :=
    .send (invocationErrorToCallee connectionId invocationId (invocationFailure f).1
      (some (invocationFailure f).2)) .done
  let stream := some (Stream.invocation (realmUri, invocationId))
  match invocation.callerInternalSendPort with
  | some port =>
      .ask (.reply (realmUri, invocationId)) fun view =>
        match view.failure with
        | some f => fail f
        | none => .send (.internal port internal stream) .done
  | none =>
      .ask (.store snapshotPoint realmUri .snapshot) fun reply =>
        match reply.asSnapshot with
        | .error f => fail f
        | .ok snapshot =>
            match findConnectionIdForSession snapshot invocation.callerSessionId with
            | none =>
                .send (invocationErrorToCallee connectionId invocationId WampError.noSuchSession
                  (some ("Caller session " ++ toString invocation.callerSessionId ++
                    " not available"))) callerGone
            | some callerConnectionId =>
                .ask (.reply (realmUri, invocationId)) fun view =>
                  if view.native.contains callerConnectionId then
                    .send (.frame .native
                      { connectionId := callerConnectionId, message := external, stream := stream })
                      .done
                  else
                    match view.failure with
                    | some f => fail f
                    | none =>
                        .send (.frame .forward
                          { connectionId := callerConnectionId, message := external,
                            stream := stream }) .done

def handleYield (connectionId invocationId : Nat) (options : Option YieldOptions)
    (payload : Payload) : Handler :=
  let error (reason : String) (text : Option String) (rest : Handler) : Handler :=
    .send (invocationErrorToCallee connectionId invocationId reason text) rest
  let fail (f : Failure) : Handler :=
    error (invocationFailure f).1 (some (invocationFailure f).2) .done
  let isProgress := (options.map (·.progress)).getD false
  let ppt := (options.map (·.toPPTOptions)).getD {}
  let custom := (options.map (·.custom)).getD .empty
  .ask .look fun view =>
    match view.state.realmUri with
    | none => error WampError.notSupported (some "Router state store unavailable") .done
    | some realmUri =>
        let complete (point : Point) : Handler :=
          .ask (.store point realmUri (.completeInvocation invocationId)) fun answer =>
            match answer.asInvocation with
            | .error f => fail f
            | .ok _ => .done
        let reply (invocation : PendingInvocation) : Handler :=
          replyToCaller .yieldSnapshot realmUri connectionId invocationId invocation
            (.callResult invocation.callerRequestId isProgress ppt custom payload)
            (.result invocation.callerRequestId
              { toPPTOptions := ppt, progress := some isProgress, custom := custom } payload)
            (complete .yieldAbandon)
        .ask (.store (.yieldGet isProgress) realmUri (.getInvocation invocationId)) fun answer =>
        match answer.asInvocation with
        | .error f => fail f
        | .ok none => error WampError.noSuchInvocation none .done
        | .ok (some invocation) =>
            .ask .look fun view =>
              if some invocation.calleeSessionId ≠ view.state.sessionId then
                error WampError.notAuthorized none (complete .yieldForeign)
              else if invocation.cancelRequested then
                error WampError.invocationCanceled
                  (some ("Invocation " ++ toString invocationId ++ " was cancelled")) .done
              else if isProgress && !invocation.allowProgress then
                error WampError.invalidArgument
                  (some ("Invocation " ++ toString invocationId ++ " does not allow progress"))
                  (complete .yieldDisallowed)
              else if isProgress then
                .ask (.store .yieldTouch realmUri (.touchInvocation invocationId)) fun answer =>
                  match answer.asFlag with
                  | .error f => fail f
                  | .ok false => error WampError.noSuchInvocation none .done
                  | .ok true => reply invocation
              else
                .ask (.store .yieldComplete realmUri
                  (.completeInvocation invocationId)) fun answer =>
                  match answer.asInvocation with
                  | .error f => fail f
                  | .ok none => error WampError.noSuchInvocation none .done
                  | .ok (some _) => reply invocation

/-- `_handleInvocationError`. -/
def handleInvocationError (connectionId invocationId : Nat) (details : Dict)
    (errorUri : Option String) (payload : Payload) : Handler :=
  let error (reason : String) (text : Option String) (rest : Handler) : Handler :=
    .send (invocationErrorToCallee connectionId invocationId reason text) rest
  let fail (f : Failure) : Handler :=
    error (invocationFailure f).1 (some (invocationFailure f).2) .done
  .ask .look fun view =>
    match view.state.realmUri with
    | none => error WampError.notSupported (some "Router state store unavailable") .done
    | some realmUri =>
        .ask (.store .errorGet realmUri (.getInvocation invocationId)) fun answer =>
        match answer.asInvocation with
        | .error f => fail f
        | .ok none => error WampError.noSuchInvocation none .done
        | .ok (some invocation) =>
            .ask .look fun view =>
              if some invocation.calleeSessionId ≠ view.state.sessionId then
                error WampError.notAuthorized none
                  (.ask (.store .errorForeign realmUri (.completeInvocation invocationId))
                    fun answer =>
                      match answer.asInvocation with
                      | .error f => fail f
                      | .ok _ => .done)
              else
                .ask (.store .errorComplete realmUri
                  (.completeInvocation invocationId)) fun answer =>
                  match answer.asInvocation with
                  | .error f => fail f
                  | .ok none => error WampError.noSuchInvocation none .done
                  | .ok (some _) =>
                      replyToCaller .errorSnapshot realmUri connectionId invocationId invocation
                        (.callError invocation.callerRequestId errorUri details payload)
                        (.error MessageTypes.codeCall invocation.callerRequestId details errorUri
                          payload) .done

/-! ### The dispatch of a message -/

/-- `_messageTypeCode` and `_extractRequestId`; an ERROR has neither. -/
def ClientMessage.request : ClientMessage → Option (Nat × Nat)
  | .subscribe requestId _ _ => some (MessageTypes.codeSubscribe, requestId)
  | .register requestId _ _ => some (MessageTypes.codeRegister, requestId)
  | .publish requestId _ _ _ => some (MessageTypes.codePublish, requestId)
  | .call requestId _ _ _ => some (MessageTypes.codeCall, requestId)
  | .cancel requestId _ => some (MessageTypes.codeCancel, requestId)
  | .yield invocationRequestId _ _ => some (MessageTypes.codeYield, invocationRequestId)
  | .error _ _ _ _ => none

def handleMessage (connectionId : Nat) : ClientMessage → Handler
  | .subscribe requestId options topic => handleSubscribe connectionId requestId options topic
  | .register requestId options procedure =>
      handleRegister connectionId requestId options procedure
  | .publish requestId options topic payload =>
      handlePublish connectionId requestId options topic payload
  | .call requestId options procedure payload =>
      handleCall connectionId requestId options procedure payload
  | .cancel requestId mode => handleCancel connectionId requestId mode
  | .yield invocationRequestId options payload =>
      handleYield connectionId invocationRequestId options payload
  | .error requestId details errorUri payload =>
      handleInvocationError connectionId requestId details errorUri payload

/-- `_handleSessionMessage`. -/
def handleSessionMessage (connectionId : Nat) (message : ClientMessage) : Handler :=
  .ask .look fun view =>
    if !view.state.phaseOpen || view.state.sessionId.isNone then
      match message.request with
      | none => .done
      | some (requestType, requestId) =>
          .send (sessionError connectionId requestType requestId WampError.noSuchSession
            (some "Session is not open") none) .done
    else handleMessage connectionId message

/-- `_handleInvocationTimeoutEvent` of the boss. -/
def invocationTimeoutPosts (event : InvocationTimeoutEvent) : List Post :=
  let arguments : Payload := .list [.str "Call timed out"]
  let stream := some (Stream.invocation (event.realmUri, event.invocationId))
  (match event.callerInternalSendPort, event.callerConnectionId with
  | some port, _ =>
      [.internal port
        (.callError event.callerRequestId (some WampError.timeout) .empty arguments) stream]
  | none, some connectionId =>
      [.frame .boss
        { connectionId := connectionId
          message := .error MessageTypes.codeCall event.callerRequestId .empty
            (some WampError.timeout) arguments
          stream := stream }]
  | none, none => []) ++
  (match event.calleeInternalSendPort, event.calleeConnectionId with
  | some port, _ =>
      [.internal port (.interrupt event.invocationId CancelMode.killNoWait.name) none]
  | none, some connectionId =>
      [.frame .boss
        { connectionId := connectionId
          message := .interrupt event.invocationId CancelMode.killNoWait.name }]
  | none, none => [])

end Connectanum
