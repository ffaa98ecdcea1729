import Connectanum.Router.Ledger
import Connectanum.Router.Relay

/-!
# Router — Cancels

What a CANCEL stops.  A call can be outstanding as a pending invocation, as an open stream of
progressive chunks or as a held dispatch; the router is watched for the INVOCATIONs that it sends
and for the CANCELs that it has handled.

* `Observed`: the router with the requests that its handlers dispatch and cancel, and the log;
* `Quiet`, `Passing`, `Handing`, `Calling`: how far a handler is from sending an INVOCATION;
* `calling_handleSessionMessage`: every handler starts as `Calling`;
* `cancellation_effective`: after the CANCEL of a request no INVOCATION is sent for it, as long as
  no dispatch of the request is under way when the CANCEL has been handled and none is accepted
  afterwards.
-/

namespace Connectanum

open Collections Machine

/-- A request of a caller: its realm, its session and the id. -/
abbrev RequestKey := String × Nat × Nat

inductive CallEvent where
  /-- A handler has sent an INVOCATION, after the dispatch of the given request. -/
  | invoked (key : Option RequestKey)
  /-- The CANCEL of an outstanding request has been handled. -/
  | cancelled (key : RequestKey)
  deriving DecidableEq

def PendingInvocation.requestKey (uri : String) (i : PendingInvocation) : RequestKey :=
  (uri, i.callerSessionId, i.callerRequestId)

/-- The request is held back as a debounced dispatch. -/
def RouterStateStore.holds (st : RouterStateStore) (key : RequestKey) : Bool :=
  st.pendingRetryDebounces.values.any fun pending =>
    (pending.realmUri, pending.callerSessionId, pending.requestId) == key

/-- The dispatch of a CALL is held by the store, or it has been accepted and the handler has not
run on. -/
def Task.underWay (task : Task) : Bool :=
  match task.stage, task.script with
  | .waiting, .ask (.store _ _ (.dispatchInvocation _ _ _ _)) _ => true
  | .ready, .ask (.handOver _ _) _ => true
  | _, _ => false

namespace Router

/-- The request that the command of the handler dispatches. -/
def dispatching (st : Router) (port : SendPort) : Option RequestKey :=
  match st.tasks.get? port with
  | some ⟨_, .queued, .ask (.store _ uri (.dispatchInvocation s request _ _)) _⟩ =>
      some (uri, s, request)
  | _ => none

/-- The outstanding request that the command of a CANCEL ends, or that a CANCEL looks for while it
is held. -/
def cancelling (st : Router) (port : SendPort) : Option RequestKey :=
  match st.tasks.get? port with
  | some ⟨_, .queued, .ask (.store .cancelSkip uri (.completeInvocation id)) _⟩ =>
      (st.store.getInvocation uri id).map (·.requestKey uri)
  | some ⟨_, .queued, .ask (.store .cancelMark uri (.cancelInvocation id _ _)) _⟩ =>
      (st.store.getInvocation uri id).map (·.requestKey uri)
  | some ⟨_, .queued, .ask (.store .cancelFind uri (.findInvocationByCaller s request)) _⟩ =>
      if (st.store.findInvocationByCaller uri s request).isNone && st.store.holds (uri, s, request)
      then some (uri, s, request) else none
  | _ => none

end Router

/-- A dispatch of a request whose stream of chunks is closed is refused on the spot. -/
theorem RouterStateStore.replies_refused (env : StoreEnv) (st : RouterStateStore) {uri : String}
    {s request : Nat} {i : PendingInvocation} (procedure : String) (options : Dict)
    (port : SendPort) (hfind : st.findInvocationByCaller uri s request = some i)
    (hclosed : i.progressiveInvocationOpen = false) :
    ∃ e, (st.handle env (.command
      (.invocationDispatch uri s request procedure options port))).replies =
      st.replies ++ [(port, .failed e)] := by
  obtain ⟨realm, hr, hfound⟩ := Option.bind_eq_some_iff.mp hfind
  have hdispatch : ∃ e, st.dispatchInvocation env uri s request procedure options =
      (st, .error e) := by
    simp only [dispatchInvocation, getOrCreateRealm, hr]
    cases realm.sessions.get? s with
    | none => exact ⟨_, rfl⟩
    | some caller => simp [hfound, dispatchContinuation, hclosed]
  obtain ⟨e, he⟩ := hdispatch
  refine ⟨e, ?_⟩
  simp only [handle, dispatchCommand, handleInvocationDispatch, hfind, he, replyDispatch]
  exact replies_send st port _

structure Observed where
  router : Router
  /-- The requests whose dispatches the store has handled, by the port of the handler. -/
  calls : LinkedMap SendPort RequestKey := .empty
  /-- The outstanding requests that CANCELs have ended, by the port of the handler. -/
  cancels : LinkedMap SendPort RequestKey := .empty
  log : List CallEvent := []

namespace Observed

def initial (realms : List String) : Observed := { router := .initial realms }

/-- What one segment of a handler adds to the log. -/
def segmentEvents (o : Observed) (port : SendPort) (posts : List Post) (rest : Handler) :
    List CallEvent :=
  (if posts.any Post.isInvocation then [.invoked (o.calls.get? port)] else []) ++
  match rest with
  | .done => ((o.cancels.get? port).map .cancelled).toList
  | _ => []

def events (o : Observed) : RouterInput → List CallEvent
  | .resume port native retains failure =>
      match o.router.tasks.get? port with
      | some ⟨connectionId, .ready, script⟩ =>
          let now :=
            (o.router.viewOf ⟨connectionId, .ready, script⟩ native retains failure).now
          o.segmentEvents port (script.sent now) (script.remainder now)
      | _ => []
  | _ => []

/-- Notes the request of the handler at the port. -/
def note (m : LinkedMap SendPort RequestKey) (port : SendPort) :
    Option RequestKey → LinkedMap SendPort RequestKey
  | none => m
  | some key => m.insert port key

def step (o : Observed) (input : RouterInput) : Observed where
  router := o.router.step input
  calls :=
    match input with
    | .execute port _ => note o.calls port (o.router.dispatching port)
    | _ => o.calls
  cancels :=
    match input with
    | .execute port _ => note o.cancels port (o.router.cancelling port)
    | _ => o.cancels
  log := o.log ++ o.events input

/-- No handler with the request has its dispatch under way. -/
def idle (o : Observed) (key : RequestKey) : Bool :=
  o.router.tasks.entries.all fun (p, task) => !(o.calls.get? p == some key && task.underWay)

/-- When the CANCEL of a request has been handled, no dispatch of the request is under way; and
after it, a further dispatch of the request finds its stream of chunks closed. -/
def careful (o : Observed) : RouterInput → Bool
  | .execute port _ =>
      (o.router.dispatching port).all fun key =>
        !o.log.contains (.cancelled key) ||
        (o.router.store.findInvocationByCaller key.1 key.2.1 key.2.2).any
          (!·.progressiveInvocationOpen)
  | .resume port native retains failure =>
      (o.events (.resume port native retains failure)).all fun
        | .cancelled key => o.idle key
        | .invoked _ => true
  | _ => true

/-- No INVOCATION of a request comes after its CANCEL. -/
def Effective (log : List CallEvent) : Prop :=
  ∀ earlier key later, log = earlier ++ .invoked key :: later →
    ∃ k, key = some k ∧ .cancelled k ∉ earlier

/-! ### How far a handler is from an INVOCATION -/

/-- No path of the handler sends an INVOCATION. -/
def Quiet : Handler → Prop
  | .done => True
  | .send p rest => p.isInvocation = false ∧ Quiet rest
  | .ask _ next => ∀ a, Quiet (next a)

/-- An INVOCATION is sent before the handler stops again, if at all. -/
def Passing : Handler → Prop
  | .done => True
  | .send p rest => p.isInvocation = true ∧ Quiet rest ∨ p.isInvocation = false ∧ Passing rest
  | .ask q next => Quiet (.ask q next)

/-- The handler goes on with the hand-over of its invocation, or sends none. -/
def Handing (script : Handler) : Prop :=
  Quiet script ∨ ∃ key toInternal next, script = .ask (.handOver key toInternal) next ∧
    ∀ view, Passing (next view)

def isDispatch : Query → Bool
  | .store _ _ request => request.isDispatch
  | _ => false

/-- The answer to a dispatch is an error. -/
def refused : (q : Query) → q.Answer → Prop
  | .store _ _ _, reply => ∀ d, reply ≠ .dispatched d
  | _, _ => False

/-- An INVOCATION is sent after an accepted dispatch only. -/
def Calling : Handler → Prop
  | .done => True
  | .send p rest => p.isInvocation = false ∧ Calling rest
  | .ask q next => ∀ a,
      if isDispatch q then Handing (next a) ∧ (refused q a → Quiet (next a)) else Calling (next a)

theorem Calling.ask {q : Query} {next : q.Answer → Handler} (hq : isDispatch q = false)
    (h : ∀ a, Calling (next a)) : Calling (.ask q next) := by
  intro a
  rw [if_neg (by simp [hq])]
  exact h a

theorem Calling.dispatch {q : Query} {next : q.Answer → Handler} (hq : isDispatch q = true)
    (h : ∀ a, Handing (next a) ∧ (refused q a → Quiet (next a))) : Calling (.ask q next) := by
  intro a
  rw [if_pos hq]
  exact h a

theorem Calling.answered {q : Query} {next : q.Answer → Handler} (h : Calling (.ask q next))
    (hq : isDispatch q = true) (a : q.Answer) :
    Handing (next a) ∧ (refused q a → Quiet (next a)) := by
  have hnext := h a
  rwa [if_pos hq] at hnext

theorem Quiet.calling {script : Handler} (h : Quiet script) : Calling script := by
  induction script with
  | done => trivial
  | send p rest ih => exact ⟨h.1, ih h.2⟩
  | ask q next ih =>
      intro a
      split
      · exact ⟨.inl (h a), fun _ => h a⟩
      · exact ih a (h a)

section

variable {now : (q : Query) → Option q.Answer}

theorem Quiet.segment {script : Handler} (h : Quiet script) :
    (script.sent now).any Post.isInvocation = false ∧ Quiet (script.remainder now) := by
  induction script with
  | done => exact ⟨rfl, trivial⟩
  | send p rest ih =>
      obtain ⟨hsent, hrest⟩ := ih h.2
      exact ⟨by simp [Script.sent, h.1, hsent], hrest⟩
  | ask q next ih =>
      simp only [Script.sent, Script.remainder]
      cases now q with
      | none => exact ⟨rfl, h⟩
      | some a => exact ih a (h a)

theorem Calling.segment (hnow : ∀ q, isDispatch q = true → now q = none) {script : Handler}
    (h : Calling script) :
    (script.sent now).any Post.isInvocation = false ∧ Calling (script.remainder now) := by
  induction script with
  | done => exact ⟨rfl, trivial⟩
  | send p rest ih =>
      obtain ⟨hsent, hrest⟩ := ih h.2
      exact ⟨by simp [Script.sent, h.1, hsent], hrest⟩
  | ask q next ih =>
      simp only [Script.sent, Script.remainder]
      cases hq : now q with
      | none => exact ⟨rfl, h⟩
      | some a =>
          have hnext := h a
          rw [if_neg (fun hd => by rw [hnow q hd] at hq; cases hq)] at hnext
          exact ih a hnext

theorem Passing.segment {script : Handler} (h : Passing script) :
    Quiet (script.remainder now) := by
  induction script with
  | done => trivial
  | send p rest ih =>
      obtain ⟨-, hrest⟩ | ⟨-, hrest⟩ := h
      · exact hrest.segment.2
      · exact ih hrest
  | ask q next ih => exact Quiet.segment h |>.2

end

/-- What a handler finds on the spot is never the answer to a dispatch. -/
theorem now_dispatch (view : View) (q : Query) (h : isDispatch q = true) : view.now q = none := by
  cases q with
  | store point uri request => rfl
  | _ => cases h

/-! ### The handlers -/

theorem Quiet.of_ends {script : Handler} (h : script.Ends fun p => p.isInvocation = false) :
    Quiet script := by
  induction script with
  | done => trivial
  | send p rest ih =>
      cases rest with
      | done => exact ⟨h, trivial⟩
      | send p' rest => exact h.elim
      | ask q next => exact h.elim
  | ask q next ih => exact fun a => ih a (h a)

theorem quiet_sendAll {posts : List Post} (h : ∀ p ∈ posts, p.isInvocation = false)
    {rest : Handler} (hrest : Quiet rest) : Quiet (Script.sendAll posts rest) := by
  induction posts with
  | nil => exact hrest
  | cons p ps ih =>
      exact ⟨h p (List.mem_cons_self ..), ih fun q hq => h q (List.mem_cons_of_mem _ hq)⟩

theorem quiet_authorize {connectionId requestType requestId : Nat} {action : AuthorizationAction}
    {uri : String} {options : Dict} {policy : Option PermissionMatchPolicy} {allowed : Handler}
    (h : Quiet allowed) :
    Quiet (authorizeStateAction connectionId requestType requestId action uri options policy
      allowed) := by
  intro view
  dsimp only
  split
  · intro decision
    dsimp only
    split
    · exact h
    · exact ⟨rfl, trivial⟩
  · exact ⟨rfl, trivial⟩

theorem quiet_handleSubscribe (connectionId requestId : Nat) (options : Option SubscribeOptions)
    (topic : String) : Quiet (handleSubscribe connectionId requestId options topic) := by
  intro view
  dsimp only
  split
  · exact ⟨rfl, trivial⟩
  · split
    · exact ⟨rfl, trivial⟩
    · refine quiet_authorize fun view => ?_
      dsimp only
      split
      · exact ⟨rfl, trivial⟩
      · intro reply
        dsimp only
        split
        · exact ⟨rfl, trivial⟩
        · intro reply
          dsimp only
          split <;> exact ⟨rfl, trivial⟩

theorem quiet_handleRegister (connectionId requestId : Nat) (options : Option RegisterOptions)
    (procedure : String) : Quiet (handleRegister connectionId requestId options procedure) := by
  intro view
  dsimp only
  split
  · exact ⟨rfl, trivial⟩
  · split
    · exact ⟨rfl, trivial⟩
    · split
      · exact ⟨rfl, trivial⟩
      · refine quiet_authorize fun view => ?_
        dsimp only
        split
        · exact ⟨rfl, trivial⟩
        · intro reply
          dsimp only
          split
          · exact ⟨rfl, trivial⟩
          · intro reply
            dsimp only
            split <;> exact ⟨rfl, trivial⟩

theorem publicationPosts_plain (view : View) (connectionId requestId : Nat)
    (options : Option PublishOptions) (publisher : Nat) (topic : String) (payload : Payload)
    (routing : PublicationRouting) :
    ∀ p ∈ publicationPosts view connectionId requestId options publisher topic payload routing,
      p.isInvocation = false := by
  intro p hp
  simp only [publicationPosts, List.mem_append] at hp
  obtain ((hp | hp) | hp) | hp := hp
  · split at hp
    · obtain rfl := List.mem_singleton.mp hp
      rfl
    · cases hp
  · split at hp
    · obtain ⟨m, -, rfl⟩ := List.mem_map.mp hp
      rfl
    · cases hp
  · obtain ⟨m, -, hm⟩ := List.mem_filterMap.mp hp
    obtain ⟨port, -, rfl⟩ := Option.map_eq_some_iff.mp hm
    rfl
  · obtain ⟨m, -, rfl⟩ := List.mem_map.mp hp
    rfl

theorem quiet_handlePublish (connectionId requestId : Nat) (options : Option PublishOptions)
    (topic : String) (payload : Payload) :
    Quiet (handlePublish connectionId requestId options topic payload) := by
  intro view
  dsimp only
  split
  · trivial
  · split
    · exact ⟨rfl, trivial⟩
    · refine quiet_authorize fun view => ?_
      dsimp only
      split
      · intro reply
        dsimp only
        split
        · exact ⟨rfl, trivial⟩
        · intro view
          exact quiet_sendAll (publicationPosts_plain _ _ _ _ _ _ _ _) trivial
      · exact ⟨rfl, trivial⟩

/-- The accepted invocation is handed on in one go; what an internal callee answers is relayed. -/
theorem passing_forwardInvocation (connectionId requestId : Nat) (options : Option CallOptions)
    (procedure : String) (payload : Payload) (dispatch : InvocationDispatchResult)
    (key : InvocationKey) (view : View) :
    Passing (forwardInvocation connectionId requestId options procedure payload dispatch key
      view) := by
  rw [forwardInvocation]
  split
  · rw [handleInternalInvocation]
    split
    · split
      · exact .inr ⟨rfl, trivial⟩
      · exact .inl ⟨rfl, fun response => .of_ends (ends_response _ _ _ _ response)⟩
    · exact .inr ⟨rfl, trivial⟩
  · split
    · exact .inl ⟨rfl, trivial⟩
    · split
      · exact .inr ⟨rfl, trivial⟩
      · exact .inl ⟨rfl, trivial⟩

theorem calling_authorize {connectionId requestType requestId : Nat} {action : AuthorizationAction}
    {uri : String} {options : Dict} {policy : Option PermissionMatchPolicy} {allowed : Handler}
    (h : Calling allowed) :
    Calling (authorizeStateAction connectionId requestType requestId action uri options policy
      allowed) := by
  refine .ask rfl fun view => ?_
  split
  · refine .ask rfl fun decision => ?_
    split
    · exact h
    · exact ⟨rfl, trivial⟩
  · exact ⟨rfl, trivial⟩

theorem calling_handleCall (connectionId requestId : Nat) (options : Option CallOptions)
    (procedure : String) (payload : Payload) :
    Calling (handleCall connectionId requestId options procedure payload) := by
  refine .ask rfl fun view => ?_
  dsimp only
  split
  · exact ⟨rfl, trivial⟩
  · split
    · trivial
    · split
      · exact ⟨rfl, trivial⟩
      · refine calling_authorize (.ask rfl fun view => ?_)
        split
        · refine .dispatch rfl fun reply => ?_
          -- an error ends the call, an accepted dispatch is handed over
          cases hreply : StoreReply.asDispatch reply with
          | error f => exact ⟨.inl ⟨rfl, trivial⟩, fun _ => ⟨rfl, trivial⟩⟩
          | ok dispatch =>
              refine ⟨.inr ⟨_, _, _, rfl, passing_forwardInvocation _ _ _ _ _ _ _⟩, fun href => ?_⟩
              have hd : reply = .dispatched dispatch := by
                cases reply with
                | dispatched d => exact congrArg _ (Except.ok.inj hreply)
                | _ => cases hreply
              exact absurd hd (href dispatch)
        · exact ⟨rfl, trivial⟩

theorem quiet_interruptCallee (realmUri : String) (invocation : PendingInvocation)
    (mode : CancelMode) {fail : Failure → Handler} {rest : Handler} (hfail : ∀ f, Quiet (fail f))
    (hrest : Quiet rest) : Quiet (interruptCallee realmUri invocation mode fail rest) := by
  rw [interruptCallee]
  split
  · exact ⟨rfl, hrest⟩
  · exact ⟨rfl, hrest⟩
  · intro reply
    dsimp only
    split
    · exact hfail _
    · split
      · exact hrest
      · exact ⟨rfl, hrest⟩

theorem quiet_handleCancel (connectionId requestId : Nat) (mode : Option String) :
    Quiet (handleCancel connectionId requestId mode) := by
  intro view
  dsimp only
  split
  · exact ⟨rfl, trivial⟩
  · exact ⟨rfl, trivial⟩
  · intro reply
    dsimp only
    split
    · exact ⟨rfl, trivial⟩
    · exact ⟨rfl, trivial⟩
    · refine quiet_authorize ?_
      split
      · exact ⟨rfl, trivial⟩
      · intro reply
        dsimp only
        split <;> exact ⟨rfl, trivial⟩
      · intro reply
        dsimp only
        split
        · exact ⟨rfl, trivial⟩
        · exact ⟨rfl, trivial⟩
        · refine quiet_interruptCallee _ _ _ (fun _ => ⟨rfl, trivial⟩) ?_
          split
          · trivial
          · exact ⟨rfl, trivial⟩

theorem quiet_replyToCaller (point : Point) (realmUri : String) (connectionId id : Nat)
    (invocation : PendingInvocation) {internal : InternalMessage} {external : RouterMessage}
    {gone : Handler}
    (hinternal : ∀ port stream, (Post.internal port internal stream).isInvocation = false)
    (hexternal : ∀ path c stream, (Post.frame path ⟨c, external, stream⟩).isInvocation = false)
    (hgone : Quiet gone) :
    Quiet (replyToCaller point realmUri connectionId id invocation internal external gone) := by
  rw [replyToCaller]
  dsimp only
  split
  · intro view
    dsimp only
    split
    · exact ⟨rfl, trivial⟩
    · exact ⟨hinternal _ _, trivial⟩
  · intro reply
    dsimp only
    split
    · exact ⟨rfl, trivial⟩
    · split
      · exact ⟨rfl, hgone⟩
      · intro view
        dsimp only
        split
        · exact ⟨hexternal _ _ _, trivial⟩
        · split
          · exact ⟨rfl, trivial⟩
          · exact ⟨hexternal _ _ _, trivial⟩

theorem quiet_completion (connectionId id : Nat) (point : Point) (realmUri : String) :
    Quiet (.ask (.store point realmUri (.completeInvocation id)) fun answer =>
      match StoreReply.asInvocation answer with
      | .error f => .send (invocationErrorToCallee connectionId id (invocationFailure f).1
          (some (invocationFailure f).2)) .done
      | .ok _ => .done) := by
  intro answer
  dsimp only
  split
  · exact ⟨rfl, trivial⟩
  · trivial

theorem quiet_handleYield (connectionId id : Nat) (options : Option YieldOptions)
    (payload : Payload) : Quiet (handleYield connectionId id options payload) := by
  intro view
  dsimp only
  split
  · exact ⟨rfl, trivial⟩
  · next realmUri _ =>
    have hcomplete := fun point => quiet_completion connectionId id point realmUri
    intro answer
    dsimp only
    split
    · exact ⟨rfl, trivial⟩
    · exact ⟨rfl, trivial⟩
    · intro view
      dsimp only
      split
      · exact ⟨rfl, hcomplete _⟩
      · split
        · exact ⟨rfl, trivial⟩
        · split
          · exact ⟨rfl, hcomplete _⟩
          · split
            · intro answer
              dsimp only
              split
              · exact ⟨rfl, trivial⟩
              · exact ⟨rfl, trivial⟩
              · exact quiet_replyToCaller _ _ _ _ _ (fun _ _ => rfl) (fun _ _ _ => rfl)
                  (hcomplete .yieldAbandon)
            · intro answer
              dsimp only
              split
              · exact ⟨rfl, trivial⟩
              · exact ⟨rfl, trivial⟩
              · exact quiet_replyToCaller _ _ _ _ _ (fun _ _ => rfl) (fun _ _ _ => rfl)
                  (hcomplete .yieldAbandon)

theorem quiet_handleInvocationError (connectionId id : Nat) (details : Dict)
    (errorUri : Option String) (payload : Payload) :
    Quiet (handleInvocationError connectionId id details errorUri payload) := by
  intro view
  dsimp only
  split
  · exact ⟨rfl, trivial⟩
  · intro answer
    dsimp only
    split
    · exact ⟨rfl, trivial⟩
    · exact ⟨rfl, trivial⟩
    · intro view
      dsimp only
      split
      · refine ⟨rfl, fun answer => ?_⟩
        dsimp only
        split
        · exact ⟨rfl, trivial⟩
        · trivial
      · intro answer
        dsimp only
        split
        · exact ⟨rfl, trivial⟩
        · exact ⟨rfl, trivial⟩
        · exact quiet_replyToCaller _ _ _ _ _ (fun _ _ => rfl) (fun _ _ _ => rfl) trivial

/-- **Every handler** sends its INVOCATION after an accepted dispatch only. -/
theorem calling_handleSessionMessage (connectionId : Nat) (message : ClientMessage) :
    Calling (handleSessionMessage connectionId message) := by
  refine .ask rfl fun view => ?_
  split
  · split
    · trivial
    · exact ⟨rfl, trivial⟩
  · cases message with
    | subscribe requestId options topic => exact (quiet_handleSubscribe _ _ _ _).calling
    | register requestId options procedure => exact (quiet_handleRegister _ _ _ _).calling
    | publish requestId options topic payload => exact (quiet_handlePublish _ _ _ _ _).calling
    | call requestId options procedure payload => exact calling_handleCall _ _ _ _ _
    | cancel requestId mode => exact (quiet_handleCancel _ _ _).calling
    | yield id options payload => exact (quiet_handleYield _ _ _ _).calling
    | error requestId details errorUri payload => exact (quiet_handleInvocationError _ _ _ _ _).calling

/-! ### The invariant -/

/-- A handler whose dispatch is under way. -/
inductive Held : Task → Prop where
  | waiting {c s request : Nat} {point : Point} {uri procedure : String} {options : Dict}
      {next : StoreReply → Handler}
      (calling : Calling (.ask (.store point uri (.dispatchInvocation s request procedure options))
        next)) :
      Held ⟨c, .waiting, .ask (.store point uri (.dispatchInvocation s request procedure options))
        next⟩
  | accepted {c : Nat} {key : InvocationKey} {toInternal : Bool} {next : View → Handler}
      (passing : ∀ view, Passing (next view)) :
      Held ⟨c, .ready, .ask (.handOver key toInternal) next⟩

theorem Held.underWay {task : Task} (h : Held task) : task.underWay = true := by
  cases h <;> rfl

/-- The handler stops at a dispatch. -/
def atDispatch : Handler → Bool
  | .ask q _ => isDispatch q
  | _ => false

/-- A handler and what is known of its dispatch: before it, the store has none of its dispatches;
after it, no INVOCATION follows unless the dispatch is under way and its request is not
cancelled. -/
def Fits (log : List CallEvent) (task : Task) : Option RequestKey → Prop
  | none => Calling task.script ∧ (task.stage = .waiting → atDispatch task.script = false)
  | some key => Quiet task.script ∨ Held task ∧ .cancelled key ∉ log

structure Sound (o : Observed) : Prop where
  settled : o.router.Settled
  noted : ∀ p, (o.calls.get? p).isSome → p ≤ o.router.lastPort
  fits : ∀ p task, o.router.tasks.get? p = some task → Fits o.log task (o.calls.get? p)
  effective : Effective o.log

theorem Sound.initial (realms : List String) : Sound (initial realms) where
  settled := .initial realms
  noted := fun _ hp => by cases hp
  fits := fun _ _ hp => by cases hp
  effective := fun earlier key later h => by
    cases earlier <;> cases h

/-! ### One handler in one step -/

section

variable {log : List CallEvent}

theorem Fits.calling {task : Task} (hstage : task.stage = .queued) {key : Option RequestKey}
    (h : Fits log task key) : Calling task.script := by
  cases key with
  | none => exact h.1
  | some key =>
      obtain hquiet | ⟨hheld, -⟩ := h
      · exact hquiet.calling
      · cases hheld <;> cases hstage

/-- A segment of a handler sends an INVOCATION only where its dispatch was accepted and its request
is not cancelled. -/
theorem Fits.segment {c : Nat} {script : Handler} {key : Option RequestKey}
    (h : Fits log ⟨c, .ready, script⟩ key) (view : View) :
    ((script.sent view.now).any Post.isInvocation = true →
        ∃ k, key = some k ∧ .cancelled k ∉ log) ∧
      ∀ task, Task.stop c (script.remainder view.now) = some task → Fits log task key := by
  cases key with
  | none =>
      obtain ⟨hsent, hrest⟩ := h.1.segment (now_dispatch view)
      refine ⟨fun hany => (by rw [hsent] at hany; cases hany), fun task hstop => ?_⟩
      refine ⟨by rwa [(Task.stop_script hstop).1], fun hstage => ?_⟩
      obtain ⟨c', stage, rest⟩ := task
      cases hstage
      cases rest with
      | ask q next =>
          cases q with
          | store point uri request => exact absurd hstop Task.stop_store
          | _ => rfl
      | _ => rfl
  | some k =>
      obtain hquiet | ⟨hheld, hlog⟩ := h
      · have hsegment : (script.sent view.now).any Post.isInvocation = false ∧
            Quiet (script.remainder view.now) := hquiet.segment
        obtain ⟨hsent, hrest⟩ := hsegment
        refine ⟨fun hany => (by rw [hsent] at hany; cases hany), fun task hstop => .inl ?_⟩
        rwa [(Task.stop_script hstop).1]
      · refine ⟨fun _ => ⟨k, rfl, hlog⟩, fun task hstop => .inl ?_⟩
        cases hheld with
        | accepted passing =>
            rw [(Task.stop_script hstop).1]
            exact (passing view).segment

/-- An answer that is not one to a dispatch. -/
theorem Fits.answer {c : Nat} {stage : Stage} {q : Query} {next : q.Answer → Handler}
    {key : Option RequestKey} (h : Fits log ⟨c, stage, .ask q next⟩ key) (hstage : stage ≠ .ready)
    (hq : isDispatch q = false) (a : q.Answer) : Fits log ⟨c, .ready, next a⟩ key := by
  cases key with
  | none =>
      have hnext := h.1 a
      rw [if_neg (by simp [hq])] at hnext
      exact ⟨hnext, fun hw => by cases hw⟩
  | some k =>
      obtain hquiet | ⟨hheld, -⟩ := h
      · exact .inl (hquiet a)
      · cases hheld with
        | waiting => cases hq
        | accepted => exact absurd rfl hstage

/-- The answer to a dispatch that the store had. -/
theorem Fits.dispatched {c : Nat} {q : Query} {next : q.Answer → Handler}
    {key : Option RequestKey} (h : Fits log ⟨c, .waiting, .ask q next⟩ key)
    (hq : isDispatch q = true) (a : q.Answer) : Fits log ⟨c, .ready, next a⟩ key := by
  cases key with
  | none => exact absurd (h.2 rfl) (by simp [atDispatch, hq])
  | some k =>
      obtain hquiet | ⟨hheld, hlog⟩ := h
      · exact .inl (hquiet a)
      · cases hheld with
        | waiting calling =>
            obtain hquiet | ⟨key, toInternal, next', heq, hpassing⟩ := (calling.answered hq a).1
            · exact .inl hquiet
            · rw [heq]
              exact .inr ⟨.accepted hpassing, hlog⟩

end

theorem dispatching_of_queued {st : Router} {p : SendPort} {c : Nat} {point : Point} {u : String}
    {request : RealmRequest} {next : StoreReply → Handler}
    (ht : st.tasks.get? p = some ⟨c, .queued, .ask (.store point u request) next⟩)
    (hd : request.isDispatch = true) : (st.dispatching p).isSome := by
  cases request with
  | dispatchInvocation s id procedure options =>
      rw [Router.dispatching, ht]
      rfl
  | _ => cases hd

variable {o : Observed} {input : RouterInput}

/-- A handler whose dispatch is not the one that the store handles. -/
theorem Sound.moved (h : Sound o) {p : SendPort} {t : Option Task} {task : Task}
    (hm : Router.Moved o.router input p t) (ht : t = some task)
    (hother : ∀ env, input = .execute p env → o.router.dispatching p = none) :
    Fits o.log task (o.calls.get? p) := by
  cases hm with
  | same => exact h.fits p task ht
  | received isInput fresh =>
      cases ht
      have hnone : o.calls.get? p = none := by
        rw [Option.eq_none_iff_forall_ne_some]
        intro key hkey
        have hle := h.noted p (by rw [hkey]; rfl)
        exact absurd fresh (Nat.not_lt.mpr hle)
      rw [hnone]
      exact ⟨calling_handleSessionMessage _ _, fun hw => by cases hw⟩
  | resumed isInput found => exact ((h.fits p _ found).segment _).2 task ht
  | authorized isInput found =>
      cases ht
      exact (h.fits p _ found).answer (by nofun) rfl _
  | responded isInput found =>
      cases ht
      exact (h.fits p _ found).answer (by nofun) rfl _
  | executed isInput found direct reply =>
      cases ht
      exact (h.fits p _ found).answer (by nofun) direct _
  | waiting isInput found dispatch =>
      have hsome := dispatching_of_queued found dispatch
      rw [hother _ isInput] at hsome
      cases hsome
  | dispatched found dispatch reply handled origin =>
      cases ht
      obtain rfl | ⟨rfl, env, hinput⟩ := origin
      · exact (h.fits p _ found).dispatched dispatch _
      · have hsome := dispatching_of_queued found dispatch
        rw [hother env hinput] at hsome
        cases hsome

/-- The handler whose dispatch the store handles: refused where its request is cancelled. -/
theorem Sound.dispatch (h : Sound o) {p : SendPort} {env : StoreEnv} {key : RequestKey}
    (hd : o.router.dispatching p = some key) (hc : o.careful (.execute p env) = true) {task : Task}
    (ht : (o.router.execute p env).tasks.get? p = some task) : Fits o.log task (some key) := by
  obtain ⟨c, point, u, s, request, procedure, options, next, hfound, rfl⟩ :
      ∃ c point u s request procedure options next, o.router.tasks.get? p = some ⟨c, .queued,
        .ask (.store point u (.dispatchInvocation s request procedure options)) next⟩ ∧
        key = (u, s, request) := by
    unfold Router.dispatching at hd
    split at hd
    · next hfound => exact ⟨_, _, _, _, _, _, _, _, hfound, (Option.some.inj hd).symm⟩
    · cases hd
  have hcalling := (h.fits p _ hfound).calling rfl
  have hwaiting : ∀ t, ((o.router.setTask p t).tasks.get? p) = t := fun t => by
    rw [Router.setTask_get?, if_pos rfl]
  have hexecute : o.router.execute p env = (o.router.setTask p (some ⟨c, .waiting,
      .ask (.store point u (.dispatchInvocation s request procedure options)) next⟩)).absorb
      (o.router.store.handle env (.command
        (.invocationDispatch u s request procedure options p))) := by
    rw [Router.execute, hfound]
    rfl
  by_cases hcancelled : .cancelled (u, s, request) ∈ o.log
  · -- the store answers with an error at once
    obtain ⟨i, hfind, hclosed⟩ : ∃ i, o.router.store.findInvocationByCaller u s request = some i ∧
        i.progressiveInvocationOpen = false := by
      simpa [careful, hd, hcancelled, Option.any_eq_true] using hc
    obtain ⟨e, hreplies⟩ := RouterStateStore.replies_refused env o.router.store procedure options p
      hfind hclosed
    rw [h.settled.replies, List.nil_append] at hreplies
    rw [hexecute] at ht
    have hafter := ht.symm.trans (Router.absorb_reply hreplies (hwaiting _) p)
    rw [if_pos rfl] at hafter
    cases hafter
    exact .inl ((hcalling.answered rfl (.failed e)).2 fun _ hreply => by cases hreply)
  · have hanswered := Router.answered_absorb (o.router.setTask p (some ⟨c, .waiting,
      .ask (.store point u (.dispatchInvocation s request procedure options)) next⟩))
      (o.router.store.handle env (.command (.invocationDispatch u s request procedure options p))) p
    rw [← hexecute, ht, hwaiting] at hanswered
    have hbefore : Fits o.log ⟨c, .waiting,
        .ask (.store point u (.dispatchInvocation s request procedure options)) next⟩
        (some (u, s, request)) := .inr ⟨.waiting hcalling, hcancelled⟩
    cases hanswered with
    | same => exact hbefore
    | delivered mem => exact hbefore.dispatched rfl _

/-! ### A step of the whole -/

/-- The requests that are noted: the one of the dispatch that the store handles, the others as
before. -/
theorem calls_step (o : Observed) (input : RouterInput) (p : SendPort) :
    (∃ env key, input = .execute p env ∧ o.router.dispatching p = some key ∧
        (o.step input).calls.get? p = some key) ∨
      ((∀ env, input = .execute p env → o.router.dispatching p = none) ∧
        (o.step input).calls.get? p = o.calls.get? p) := by
  cases input with
  | execute port env =>
      cases hd : o.router.dispatching port with
      | none =>
          refine .inr ⟨fun env' heq => ?_, by simp [step, hd, note]⟩
          cases heq
          exact hd
      | some key =>
          by_cases hp : p = port
          · subst hp
            refine .inl ⟨env, key, rfl, hd, ?_⟩
            simp [step, hd, note]
          · refine .inr ⟨fun env' heq => ?_, ?_⟩
            · cases heq
              exact absurd rfl hp
            · simp [step, hd, note, LinkedMap.get?_insert, hp]
  | _ => exact .inr ⟨fun _ heq => (by cases heq), rfl⟩

/-- What a step adds to the log comes from a segment of a handler. -/
theorem events_cases (o : Observed) (input : RouterInput) :
    o.events input = [] ∨ ∃ port native retains failure c script,
      input = .resume port native retains failure ∧
      o.router.tasks.get? port = some ⟨c, .ready, script⟩ ∧
      o.events input = o.segmentEvents port
        (script.sent (o.router.viewOf ⟨c, .ready, script⟩ native retains failure).now)
        (script.remainder (o.router.viewOf ⟨c, .ready, script⟩ native retains failure).now) := by
  cases input with
  | resume port native retains failure =>
      unfold events
      dsimp only
      split
      · next c script hfound =>
        exact .inr ⟨port, native, retains, failure, c, script, rfl, hfound, rfl⟩
      · exact .inl rfl
  | _ => exact .inl rfl

theorem mem_segmentEvents {port : SendPort} {posts : List Post} {rest : Handler}
    {key : RequestKey} (h : .cancelled key ∈ o.segmentEvents port posts rest) : rest = .done := by
  cases rest with
  | done => rfl
  | _ =>
      have hinvoked : .cancelled key ∈ (if posts.any Post.isInvocation then
          [CallEvent.invoked (o.calls.get? port)] else []) ++ [] := h
      rw [List.append_nil] at hinvoked
      split at hinvoked
      · cases List.mem_singleton.mp hinvoked
      · cases hinvoked

/-- When a CANCEL has been handled, no dispatch of its request is under way. -/
theorem idle_of_cancelled (hc : o.careful input = true) {key : RequestKey}
    (hkey : .cancelled key ∈ o.events input) {p : SendPort} {task : Task}
    (ht : (o.step input).router.tasks.get? p = some task)
    (hcall : (o.step input).calls.get? p = some key) : task.underWay = false := by
  obtain hnone | ⟨port, native, retains, failure, c, script, rfl, hfound, hevents⟩ :=
    events_cases o input
  · rw [hnone] at hkey
    cases hkey
  · have hdone := mem_segmentEvents (hevents ▸ hkey)
    have hidle : o.idle key = true := by
      have hall := List.all_eq_true.mp hc
      exact hall _ hkey
    have hresume : (o.step (.resume port native retains failure)).router.tasks.get? p =
        if p = port then none else o.router.tasks.get? p := by
      change (o.router.resume port native retains failure).tasks.get? p = _
      simp only [Router.resume, hfound, hdone, Task.stop]
      exact Router.setTask_get? ..
    rw [hresume] at ht
    split at ht
    · cases ht
    · have hentry := List.all_eq_true.mp hidle _ (LinkedMap.mem_entries.mpr ht)
      have hcalls : o.calls.get? p = some key := hcall
      simpa [hcalls] using hentry

theorem Effective.cancel {log : List CallEvent} (h : Effective log) (key : RequestKey) :
    Effective (log ++ [.cancelled key]) := by
  intro earlier k later heq
  obtain rfl | ⟨later', x, rfl⟩ := List.eq_nil_or_concat later
  · have hlast := (List.append_inj' heq rfl).2
    cases hlast
  · rw [List.concat_eq_append, ← List.cons_append, ← List.append_assoc] at heq
    exact h earlier k later' (List.append_inj' heq rfl).1

theorem Effective.invoke {log : List CallEvent} (h : Effective log) {key : RequestKey}
    (hkey : .cancelled key ∉ log) : Effective (log ++ [.invoked (some key)]) := by
  intro earlier k later heq
  obtain rfl | ⟨later', x, rfl⟩ := List.eq_nil_or_concat later
  · obtain ⟨rfl, hlast⟩ := List.append_inj' heq rfl
    cases hlast
    exact ⟨key, rfl, hkey⟩
  · rw [List.concat_eq_append, ← List.cons_append, ← List.append_assoc] at heq
    exact h earlier k later' (List.append_inj' heq rfl).1

theorem Effective.segment (h : Effective o.log) {port : SendPort} {posts : List Post}
    (hposts : posts.any Post.isInvocation = true →
      ∃ k, o.calls.get? port = some k ∧ .cancelled k ∉ o.log) (rest : Handler) :
    Effective (o.log ++ o.segmentEvents port posts rest) := by
  have hinvoked : Effective (o.log ++
      if posts.any Post.isInvocation then [.invoked (o.calls.get? port)] else []) := by
    split
    · next hany =>
      obtain ⟨k, hk, hlog⟩ := hposts hany
      rw [hk]
      exact h.invoke hlog
    · rw [List.append_nil]
      exact h
  unfold segmentEvents
  rw [← List.append_assoc]
  cases rest with
  | done =>
      cases o.cancels.get? port with
      | none => exact (List.append_nil _).symm ▸ hinvoked
      | some key => exact hinvoked.cancel key
  | _ => exact (List.append_nil _).symm ▸ hinvoked

theorem Sound.effective_step (h : Sound o) (input : RouterInput) :
    Effective (o.step input).log := by
  change Effective (o.log ++ o.events input)
  obtain hnone | ⟨port, native, retains, failure, c, script, rfl, hfound, hevents⟩ :=
    events_cases o input
  · rw [hnone, List.append_nil]
    exact h.effective
  · rw [hevents]
    exact h.effective.segment ((h.fits port _ hfound).segment _).1 _

/-- **The step lemma.** -/
theorem Sound.step (h : Sound o) (hc : o.careful input = true) : Sound (o.step input) where
  settled := h.settled.step input
  noted := by
    intro p hp
    have hmono := Router.lastPort_step o.router input
    obtain ⟨env, key, rfl, hd, -⟩ | ⟨-, hcalls⟩ := calls_step o input p
    · have htask : (o.router.tasks.get? p).isSome := by
        cases ht : o.router.tasks.get? p with
        | none => simp [Router.dispatching, ht] at hd
        | some task => rfl
      exact (h.settled.ports p htask).2.trans hmono
    · rw [hcalls] at hp
      exact (h.noted p hp).trans hmono
  fits := by
    intro p task ht
    have hold : Fits o.log task ((o.step input).calls.get? p) := by
      obtain ⟨env, key, rfl, hd, hcalls⟩ | ⟨hother, hcalls⟩ := calls_step o input p
      · rw [hcalls]
        exact h.dispatch hd hc ht
      · rw [hcalls]
        exact h.moved (Router.moved_step h.settled input p) ht hother
    cases hkey : (o.step input).calls.get? p with
    | none =>
        rw [hkey] at hold
        exact hold
    | some key =>
        rw [hkey] at hold
        obtain hquiet | ⟨hheld, hlog⟩ := hold
        · exact .inl hquiet
        · refine .inr ⟨hheld, fun hmem => ?_⟩
          obtain hmem | hmem := List.mem_append.mp hmem
          · exact hlog hmem
          · have hidle := idle_of_cancelled hc hmem ht hkey
            rw [hheld.underWay] at hidle
            cases hidle
  effective := h.effective_step input

/-- `careful`, as a condition on the steps of a run. -/
def Careful (o : Observed) (input : RouterInput) : Prop := o.careful input = true

instance (o : Observed) (input : RouterInput) : Decidable (Careful o input) := by
  unfold Careful
  infer_instance

/-- **Cancellation is effective**: after the CANCEL of an outstanding request no INVOCATION is sent
for it, if no dispatch of the request is under way at that moment, and each later one finds the
record of the request with its stream closed. -/
theorem cancellation_effective (realms : List String) (inputs : List RouterInput) (o : Observed)
    (hrun : Run step Careful (initial realms) inputs o) : Effective o.log := by
  have hsound : Sound o :=
    hrun.invariant (P := Sound) (fun _ _ h hc => h.step hc) (.initial realms)
  exact hsound.effective

/-- Session 1 sends a chunk of a progressive call, from its reading to the INVOCATION. -/
def sampleChunk (port : SendPort) : List RouterInput :=
  [.receive port 1 (.call 7 (some { progress := some true }) "com.proc" .null),
   Router.sampleResume port, .authorize port .allow, Router.sampleResume port, .execute port {},
   Router.sampleResume port]

/-- Session 1 cancels the call. -/
def sampleKill (port : SendPort) : List RouterInput :=
  [.receive port 1 (.cancel 7 (some "kill")), Router.sampleResume port, .execute port {},
   Router.sampleResume port, .authorize port .allow, Router.sampleResume port, .execute port {},
   Router.sampleResume port]

theorem cancellation_effective_sample :
    Run step Careful (initial ["realm1"]) (Router.sampleStart ++ sampleChunk 1 ++ sampleKill 2)
        ((Router.sampleStart ++ sampleChunk 1 ++ sampleKill 2).foldl step (initial ["realm1"])) ∧
      Effective ((Router.sampleStart ++ sampleChunk 1 ++ sampleKill 2).foldl step
        (initial ["realm1"])).log := by
  have hrun : Run step Careful (initial ["realm1"])
      (Router.sampleStart ++ sampleChunk 1 ++ sampleKill 2)
      ((Router.sampleStart ++ sampleChunk 1 ++ sampleKill 2).foldl step (initial ["realm1"])) :=
    Run.of_admitted (by decide +kernel)
  exact ⟨hrun, cancellation_effective _ _ _ hrun⟩

/-- **A chunk that follows the cancellation is sent on to the callee.** -/
theorem chunk_after_cancel :
    ¬ ∀ (realms : List String) (inputs : List RouterInput),
      Effective (inputs.foldl step (initial realms)).log := by
  intro h
  have hlog : ((Router.sampleStart ++ sampleChunk 1 ++ sampleKill 2 ++ sampleChunk 3).foldl step
      (initial ["realm1"])).log =
      [.invoked (some ("realm1", 1, 7)), .cancelled ("realm1", 1, 7)] ++
        .invoked (some ("realm1", 1, 7)) :: [] := by
    decide +kernel
  obtain ⟨key, hkey, hnot⟩ := h _ _ _ _ _ hlog
  cases hkey
  exact hnot (by decide)

end Observed

end Connectanum
