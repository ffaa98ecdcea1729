import Connectanum.Router.Machine
import Connectanum.State.Effects

/-!
# Router — Steps

What the steps of the router do, said once: how the outputs of the store reach the handlers and
the boss, which commands are answered on the spot, and that a handler is left waiting by a
dispatch only.
-/

namespace Connectanum

open Collections Machine

/-- The port and the payload of a reply. -/
def StoreOutput.reply? : StoreOutput → Option (SendPort × StoreReply)
  | .reply port payload => some (port, payload)
  | _ => none

namespace RouterStateStore

/-- The replies sent so far. -/
def replies (st : RouterStateStore) : List (SendPort × StoreReply) :=
  st.outbox.filterMap StoreOutput.reply?

theorem replies_send (st : RouterStateStore) (port : SendPort) (p : StoreReply) :
    (st.send port p).replies = st.replies ++ [(port, p)] := by
  simp [replies, send, emit, StoreOutput.reply?]

theorem quiet_replies : Quiet replies where
  realm := fun _ _ _ => rfl
  notice := fun st o ho => by cases o <;> simp_all [StoreOutput.isNotice, replies, emit,
    StoreOutput.reply?]
  ids := fun _ _ => rfl
  counters := fun _ _ => rfl
  timers := fun _ _ => rfl
  leases := fun _ _ _ => rfl

theorem replies_get (env : StoreEnv) (st : RouterStateStore) (uri : String) (id : Nat)
    (port : SendPort) :
    (st.handle env (.command (.invocationGet uri id port))).replies =
      st.replies ++ [(port, .invocation (st.getInvocation uri id))] :=
  replies_send st port (.invocation (st.getInvocation uri id))

theorem replies_find (env : StoreEnv) (st : RouterStateStore) (uri : String)
    (caller request : Nat) (port : SendPort) :
    (st.handle env (.command (.invocationFindByCaller uri caller request port))).replies =
      st.replies ++ [(port, .invocation (st.findInvocationByCaller uri caller request))] :=
  replies_send st port (.invocation (st.findInvocationByCaller uri caller request))

/-- A completion answers with the record that it removes. -/
theorem replies_complete (env : StoreEnv) (st : RouterStateStore) (uri : String) (id : Nat)
    (port : SendPort) :
    (st.handle env (.command (.invocationComplete uri id (some port)))).replies =
      st.replies ++ [(port, .invocation (st.getInvocation uri id))] := by
  have hanswer : (st.completeInvocation uri id).2 = st.getInvocation uri id := by
    unfold completeInvocation
    dsimp only
    split
    · next h => exact h.symm
    · next h => exact h.symm
  have hsend := replies_send (st.completeInvocation uri id).1 port
    (.invocation (st.completeInvocation uri id).2)
  refine hsend.trans ?_
  rw [quiet_replies.resting.completeInvocation, hanswer]

theorem replies_cancel (env : StoreEnv) (st : RouterStateStore) (uri : String) (id : Nat)
    (mode : String) (waitForAck : Bool) (port : SendPort) :
    (st.handle env (.command (.invocationCancel uri id mode waitForAck port))).replies =
      st.replies ++ [(port, .flag (st.getInvocation uri id).isSome)] := by
  have hanswer : (st.cancelInvocation uri id mode waitForAck).2 =
      (st.getInvocation uri id).isSome := by
    unfold cancelInvocation
    split
    · next h => rw [h]; rfl
    · next h =>
      rw [h]
      dsimp only
      split <;> rfl
  have hsend := replies_send (st.cancelInvocation uri id mode waitForAck).1 port
    (.flag (st.cancelInvocation uri id mode waitForAck).2)
  refine hsend.trans ?_
  rw [quiet_replies.resting.cancelInvocation, hanswer]

theorem replies_touch (env : StoreEnv) (st : RouterStateStore) (uri : String) (id : Nat)
    (port : SendPort) :
    (st.handle env (.command (.invocationTouch uri id (some port)))).replies =
      st.replies ++ [(port, .flag (st.getInvocation uri id).isSome)] := by
  have hanswer : (st.touchInvocation uri id).2 = (st.getInvocation uri id).isSome := by
    unfold touchInvocation
    split
    · next h => rw [h]; rfl
    · next h =>
      rw [h]
      split <;> rfl
  have hsend := replies_send (st.touchInvocation uri id).1 port
    (.flag (st.touchInvocation uri id).2)
  refine hsend.trans ?_
  rw [quiet_replies.resting.touchInvocation, hanswer]

theorem replies_sendGuardedReply {α : Type} (port : SendPort) (wrap : α → StoreReply)
    (result : RouterStateStore × Except StoreError α) :
    ∃ r, (sendGuardedReply port wrap result).replies = result.1.replies ++ [(port, r)] := by
  obtain ⟨st, e | a⟩ := result
  · exact ⟨_, replies_send st port _⟩
  · exact ⟨_, replies_send st port _⟩

end RouterStateStore

/-- The request is a dispatch, which may be answered later. -/
def RealmRequest.isDispatch : RealmRequest → Bool
  | .dispatchInvocation _ _ _ _ => true
  | _ => false

namespace RealmRequest

/-- Every call but a dispatch is answered on the spot, and nobody else is. -/
theorem replies_command {request : RealmRequest} (h : request.isDispatch = false)
    (env : StoreEnv) (st : RouterStateStore) (realmUri : String) (port : SendPort) :
    ∃ r, (st.handle env (.command (request.command realmUri port))).replies =
      st.replies ++ [(port, r)] := by
  cases request with
  | snapshot =>
      obtain ⟨r, hr⟩ := RouterStateStore.replies_sendGuardedReply port StoreReply.snapshot
        (st.getSnapshot realmUri none)
      exact ⟨r, hr.trans (by rw [RouterStateStore.quiet_replies.resting.getSnapshot])⟩
  | addSubscription s topic p details =>
      obtain ⟨r, hr⟩ := RouterStateStore.replies_sendGuardedReply port StoreReply.id
        (st.addSubscription env realmUri s topic p details)
      exact ⟨r, hr.trans (by rw [RouterStateStore.quiet_replies.calm.addSubscription])⟩
  | registerProcedure s procedure details =>
      have hreg := RouterStateStore.quiet_replies.registerProcedure st env realmUri s procedure details
      simp only [command, RouterStateStore.handle, RouterStateStore.dispatchCommand]
      split
      · next he =>
        rw [he] at hreg
        exact ⟨_, (RouterStateStore.replies_send _ port _).trans (by rw [hreg])⟩
      · next he =>
        rw [he] at hreg
        exact ⟨_, (RouterStateStore.replies_send _ port _).trans (by rw [hreg])⟩
  | matchSubscriptions s topic options =>
      obtain ⟨r, hr⟩ := RouterStateStore.replies_sendGuardedReply port StoreReply.routing
        (st.matchSubscriptions realmUri topic s options)
      exact ⟨r, hr.trans (by rw [RouterStateStore.quiet_replies.resting.matchSubscriptions])⟩
  | dispatchInvocation s request procedure options => cases h
  | getInvocation id => exact ⟨_, RouterStateStore.replies_get env st realmUri id port⟩
  | findInvocationByCaller s request =>
      exact ⟨_, RouterStateStore.replies_find env st realmUri s request port⟩
  | cancelInvocation id mode waitForAck =>
      exact ⟨_, RouterStateStore.replies_cancel env st realmUri id mode waitForAck port⟩
  | completeInvocation id => exact ⟨_, RouterStateStore.replies_complete env st realmUri id port⟩
  | touchInvocation id => exact ⟨_, RouterStateStore.replies_touch env st realmUri id port⟩

end RealmRequest

/-! ### The answers of the store -/

/-- What the replies of the store make of the handler at a port. -/
inductive Answered (replies : List (SendPort × StoreReply)) (port : SendPort) :
    Option Task → Option Task → Prop where
  | same (task : Option Task) : Answered replies port task task
  | delivered {c : Nat} {point : Point} {u : String} {request : RealmRequest}
      {next : StoreReply → Handler} {r : StoreReply} (mem : (port, r) ∈ replies) :
      Answered replies port (some ⟨c, .waiting, .ask (.store point u request) next⟩)
        (some ⟨c, .ready, next r⟩)

theorem Answered.mono {replies replies' : List (SendPort × StoreReply)} {port : SendPort}
    {t t' : Option Task} (h : Answered replies port t t')
    (hsub : ∀ x ∈ replies, x ∈ replies') : Answered replies' port t t' := by
  cases h with
  | same => exact .same _
  | delivered mem => exact .delivered (hsub _ mem)

theorem Answered.isSome {replies : List (SendPort × StoreReply)} {port : SendPort}
    {t t' : Option Task} (h : Answered replies port t t') : t'.isSome = t.isSome := by
  cases h <;> rfl

namespace Task

theorem stop_script {c : Nat} {script : Handler} {task : Task} (h : stop c script = some task) :
    task.script = script ∧ task.connectionId = c := by
  unfold stop at h
  split at h <;> cases h <;> exact ⟨rfl, rfl⟩

/-- A handler that has come to a query of the store has sent its command, no more. -/
theorem stop_store {c c' : Nat} {script : Handler} {point : Point} {u : String}
    {request : RealmRequest} {next : StoreReply → Handler} :
    stop c script ≠ some ⟨c', .waiting, .ask (.store point u request) next⟩ := by
  intro h
  unfold stop at h
  split at h
  · cases h
  · cases h
  · next hdone hstore =>
    cases h
    exact hstore _ _ _ _ rfl

end Task

namespace Router

variable {st : Router}

theorem setTask_get? (st : Router) (port p : SendPort) (t : Option Task) :
    (st.setTask port t).tasks.get? p = if p = port then t else st.tasks.get? p := by
  cases t with
  | none => exact LinkedMap.get?_erase ..
  | some task => exact LinkedMap.get?_insert ..

theorem setTask_frame {β : Type} (g : Router → β) (h : ∀ st ts, g { st with tasks := ts } = g st)
    (st : Router) (port : SendPort) (t : Option Task) : g (st.setTask port t) = g st := by
  cases t <;> exact h st _

theorem deliver_frame {β : Type} (g : Router → β) (h : ∀ st ts, g { st with tasks := ts } = g st)
    (st : Router) (port : SendPort) (r : StoreReply) : g (st.deliver port r) = g st := by
  unfold deliver
  split
  · exact setTask_frame g h ..
  · rfl

theorem take_frame {β : Type} (g : Router → β) (h : ∀ st ts, g { st with tasks := ts } = g st)
    (h' : ∀ st events, g { st with timeouts := events } = g st) (st : Router) (o : StoreOutput) :
    g (st.take o) = g st := by
  cases o with
  | reply port r => exact deliver_frame g h st port r
  | invocationTimeout event => exact h' st _
  | _ => rfl

theorem absorb_frame {β : Type} (g : Router → β) (h : ∀ st ts, g { st with tasks := ts } = g st)
    (h' : ∀ st events, g { st with timeouts := events } = g st) (st : Router)
    (s : RouterStateStore) :
    g (st.absorb s) = g { st with store := { s with outbox := [] } } :=
  foldl_frame g (take_frame g h h') _ _

@[simp] theorem absorb_store (st : Router) (s : RouterStateStore) :
    (st.absorb s).store = { s with outbox := [] } :=
  absorb_frame Router.store (fun _ _ => rfl) (fun _ _ => rfl) st s

@[simp] theorem absorb_lastPort (st : Router) (s : RouterStateStore) :
    (st.absorb s).lastPort = st.lastPort :=
  absorb_frame Router.lastPort (fun _ _ => rfl) (fun _ _ => rfl) st s

@[simp] theorem absorb_posted (st : Router) (s : RouterStateStore) :
    (st.absorb s).posted = st.posted :=
  absorb_frame Router.posted (fun _ _ => rfl) (fun _ _ => rfl) st s

@[simp] theorem absorb_timeouts (st : Router) (s : RouterStateStore) :
    (st.absorb s).timeouts = st.timeouts ++ s.timeoutEvents := by
  have hfold : ∀ (outbox : List StoreOutput) (st : Router),
      (outbox.foldl take st).timeouts = st.timeouts ++ outbox.filterMap StoreOutput.timeout? := by
    intro outbox
    induction outbox with
    | nil => intro st; exact (List.append_nil _).symm
    | cons o rest ih =>
        intro st
        rw [List.foldl_cons, ih]
        cases o with
        | reply port r =>
            rw [show (st.take (.reply port r)).timeouts = st.timeouts from
              deliver_frame Router.timeouts (fun _ _ => rfl) st port r]
            rfl
        | invocationTimeout event => simp [take, StoreOutput.timeout?]
        | _ => rfl
  exact hfold s.outbox _

theorem deliver_get? (st : Router) (port p : SendPort) (r : StoreReply) :
    (st.deliver port r).tasks.get? p = st.tasks.get? p ∨
      ∃ c point u request next, p = port ∧
        st.tasks.get? p = some ⟨c, .waiting, .ask (.store point u request) next⟩ ∧
        (st.deliver port r).tasks.get? p = some ⟨c, .ready, next r⟩ := by
  unfold deliver
  split
  · next c point u request next ht =>
    rw [setTask_get?]
    by_cases hp : p = port
    · subst hp
      exact .inr ⟨c, point, u, request, next, rfl, ht, if_pos rfl⟩
    · exact .inl (if_neg hp)
  · exact .inl rfl

/-- A handler is answered at most once: it does not wait any more. -/
theorem answered_fold (p : SendPort) (outbox : List StoreOutput) (st : Router) :
    Answered (outbox.filterMap StoreOutput.reply?) p (st.tasks.get? p)
      ((outbox.foldl take st).tasks.get? p) := by
  induction outbox generalizing st with
  | nil => exact .same _
  | cons o rest ih =>
      have hrest : Answered ((o :: rest).filterMap StoreOutput.reply?) p
          ((st.take o).tasks.get? p) ((rest.foldl take (st.take o)).tasks.get? p) := by
        refine (ih (st.take o)).mono fun x hx => ?_
        rw [List.filterMap_cons]
        split
        · exact hx
        · exact List.mem_cons_of_mem _ hx
      rw [List.foldl_cons]
      cases o with
      | reply port r =>
          obtain hsame | ⟨c, point, u, request, next, rfl, ht, ht'⟩ := deliver_get? st port p r
          · rw [← hsame]
            exact hrest
          · change Answered _ _ ((st.deliver p r).tasks.get? p) _ at hrest
            rw [ht'] at hrest
            generalize (rest.foldl take (st.take (.reply p r))).tasks.get? p = after at hrest ⊢
            cases hrest with
            | same =>
                rw [ht]
                exact .delivered (by simp [StoreOutput.reply?])
      | _ => exact hrest

theorem answered_absorb (st : Router) (s : RouterStateStore) (p : SendPort) :
    Answered s.replies p (st.tasks.get? p) ((st.absorb s).tasks.get? p) :=
  answered_fold p s.outbox { st with store := { s with outbox := [] } }

/-- Without replies no handler moves. -/
theorem tasks_fold {outbox : List StoreOutput} (h : outbox.filterMap StoreOutput.reply? = [])
    (st : Router) : (outbox.foldl take st).tasks = st.tasks := by
  induction outbox generalizing st with
  | nil => rfl
  | cons o rest ih =>
      rw [List.foldl_cons]
      cases o with
      | reply port r => cases h
      | _ => exact ih h _

/-- The only reply arrives. -/
theorem absorb_reply {s : RouterStateStore} {port : SendPort} {r : StoreReply}
    (h : s.replies = [(port, r)]) {c : Nat} {point : Point} {u : String}
    {request : RealmRequest} {next : StoreReply → Handler}
    (ht : st.tasks.get? port = some ⟨c, .waiting, .ask (.store point u request) next⟩)
    (p : SendPort) :
    (st.absorb s).tasks.get? p =
      if p = port then some ⟨c, .ready, next r⟩ else st.tasks.get? p := by
  have hfold : ∀ (outbox : List StoreOutput) (st : Router),
      outbox.filterMap StoreOutput.reply? = [(port, r)] →
      st.tasks.get? port = some ⟨c, .waiting, .ask (.store point u request) next⟩ →
      (outbox.foldl take st).tasks.get? p =
        if p = port then some ⟨c, .ready, next r⟩ else st.tasks.get? p := by
    intro outbox
    induction outbox with
    | nil => intro st hone; cases hone
    | cons o rest ih =>
        intro st hone hw
        rw [List.foldl_cons]
        cases o with
        | reply port' r' =>
            obtain ⟨heq, hrest⟩ := List.cons.inj hone
            cases heq
            rw [tasks_fold hrest]
            simp only [take, deliver, hw]
            exact setTask_get? ..
        | _ => exact ih _ hone hw
  exact hfold s.outbox { st with store := { s with outbox := [] } } h ht

/-! ### One step -/

theorem receive_cases (st : Router) (port : SendPort) (c : Nat) (message : ClientMessage) :
    st.step (.receive port c message) = st ∨
      (st.lastPort < port ∧ st.step (.receive port c message) =
        { st with
          lastPort := port
          tasks := st.tasks.insert port ⟨c, .ready, handleSessionMessage c message⟩ }) := by
  by_cases hlt : st.lastPort < port
  · exact .inr ⟨hlt, if_pos hlt⟩
  · exact .inl (if_neg hlt)

theorem timeout_cases (st : Router) :
    st.step .timeout = st ∨ ∃ event rest, st.timeouts = event :: rest ∧
      st.step .timeout = { st with timeouts := rest }.post (invocationTimeoutPosts event) := by
  unfold step
  cases st.timeouts with
  | nil => exact .inl rfl
  | cons event rest => exact .inr ⟨event, rest, rfl, rfl⟩

theorem resume_cases (st : Router) (port : SendPort) (native : List Nat) (retains : Bool)
    (failure : Option Failure) :
    st.resume port native retains failure = st ∨
      ∃ c script, st.tasks.get? port = some ⟨c, .ready, script⟩ ∧
        st.resume port native retains failure =
          (st.post (script.sent (st.viewOf ⟨c, .ready, script⟩ native retains failure).now)).setTask
            port (Task.stop c
              (script.remainder (st.viewOf ⟨c, .ready, script⟩ native retains failure).now)) := by
  unfold resume
  split
  · next c script ht => exact .inr ⟨c, script, ht, rfl⟩
  · exact .inl rfl

theorem execute_cases (st : Router) (port : SendPort) (env : StoreEnv) :
    st.execute port env = st ∨
      ∃ c point u request next,
        st.tasks.get? port = some ⟨c, .queued, .ask (.store point u request) next⟩ ∧
        st.execute port env =
          (st.setTask port (some ⟨c, .waiting, .ask (.store point u request) next⟩)).absorb
            (st.store.handle env (.command (request.command u port))) := by
  unfold execute
  split
  · next c point u request next ht => exact .inr ⟨c, point, u, request, next, ht, rfl⟩
  · exact .inl rfl

theorem authorize_cases (st : Router) (port : SendPort) (decision : AuthorizationDecision) :
    st.authorize port decision = st ∨
      ∃ c request next, st.tasks.get? port = some ⟨c, .waiting, .ask (.authorize request) next⟩ ∧
        st.authorize port decision = st.setTask port (some ⟨c, .ready, next decision⟩) := by
  unfold authorize
  split
  · next c request next ht => exact .inr ⟨c, request, next, ht, rfl⟩
  · exact .inl rfl

theorem respond_cases (st : Router) (port : SendPort) (response : InternalResponse) :
    st.respond port response = st ∨
      ∃ c next, st.tasks.get? port = some ⟨c, .waiting, .ask .response next⟩ ∧
        st.respond port response = st.setTask port (some ⟨c, .ready, next response⟩) := by
  unfold respond
  split
  · next c next ht => exact .inr ⟨c, next, ht, rfl⟩
  · exact .inl rfl

/-- The store moves by one of its inputs, or not at all. -/
theorem store_step (st : Router) (input : RouterInput) :
    (st.step input).store = st.store ∨
      ∃ env storeInput, (st.step input).store =
        { st.store.handle env storeInput with outbox := [] } := by
  cases input with
  | receive port c message =>
      obtain heq | ⟨-, heq⟩ := receive_cases st port c message <;> rw [heq] <;> exact .inl rfl
  | resume port native retains failure =>
      obtain heq | ⟨c, script, -, heq⟩ := resume_cases st port native retains failure
      · exact .inl (congrArg Router.store heq)
      · exact .inl ((congrArg Router.store heq).trans
          (setTask_frame Router.store (fun _ _ => rfl) ..))
  | execute port env =>
      obtain heq | ⟨c, point, u, request, next, -, heq⟩ := execute_cases st port env
      · exact .inl (congrArg Router.store heq)
      · exact .inr ⟨env, _, (congrArg Router.store heq).trans (absorb_store ..)⟩
  | authorize port decision =>
      obtain heq | ⟨c, request, next, -, heq⟩ := authorize_cases st port decision <;>
        exact .inl ((congrArg Router.store heq).trans rfl)
  | respond port response =>
      obtain heq | ⟨c, next, -, heq⟩ := respond_cases st port response <;>
        exact .inl ((congrArg Router.store heq).trans rfl)
  | store env input => exact .inr ⟨env, _, absorb_store ..⟩
  | timeout =>
      obtain heq | ⟨event, rest, -, heq⟩ := timeout_cases st <;> rw [heq] <;> exact .inl rfl
  | connection c state => exact .inl rfl
  | link input => exact .inl rfl

/-- What holds of the handlers between two steps. -/
structure Settled (st : Router) : Prop where
  /-- The ports of the handlers were taken, and are not the others' port. -/
  ports : ∀ p, (st.tasks.get? p).isSome → otherPort < p ∧ p ≤ st.lastPort
  outbox : st.store.outbox = []
  /-- Only a dispatch keeps a handler waiting for the store. -/
  waits : ∀ p c point u request next,
    st.tasks.get? p = some ⟨c, .waiting, .ask (.store point u request) next⟩ →
    request.isDispatch = true

/-- What holds between two steps. -/
structure Orderly (st : Router) : Prop where
  /-- The ports of the handlers were taken, and are not the others' port. -/
  ports : ∀ p, (st.tasks.get? p).isSome → otherPort < p ∧ p ≤ st.lastPort
  outbox : st.store.outbox = []
  /-- Only a dispatch keeps a handler waiting for the store. -/
  waits : ∀ p c point u request next,
    st.tasks.get? p = some ⟨c, .waiting, .ask (.store point u request) next⟩ →
    request.isDispatch = true
  invocations : st.store.Invocations

theorem Orderly.initial (realms : List String) : Orderly (initial realms) where
  ports := fun _ hp => by cases hp
  outbox := rfl
  waits := fun _ _ _ _ _ _ hp => by cases hp
  invocations := RouterStateStore.Invocations.initial realms

theorem Orderly.settled (h : Orderly st) : Settled st := ⟨h.ports, h.outbox, h.waits⟩

theorem Settled.initial (realms : List String) : Settled (initial realms) :=
  (Orderly.initial realms).settled

theorem Settled.replies (h : Settled st) : st.store.replies = [] := by
  rw [RouterStateStore.replies, h.outbox]
  rfl

theorem Orderly.replies (h : Orderly st) : st.store.replies = [] := h.settled.replies

/-- A command that is answered on the spot: its handler goes on with the reply, the others stay
as they are. -/
theorem execute_answered (h : Settled st) {port : SendPort} {c : Nat} {point : Point} {u : String}
    {request : RealmRequest} {next : StoreReply → Handler} (env : StoreEnv)
    (ht : st.tasks.get? port = some ⟨c, .queued, .ask (.store point u request) next⟩)
    (hd : request.isDispatch = false) :
    ∃ r, (st.store.handle env (.command (request.command u port))).replies = [(port, r)] ∧
      ∀ p, (st.execute port env).tasks.get? p =
        if p = port then some ⟨c, .ready, next r⟩ else st.tasks.get? p := by
  obtain ⟨r, hr⟩ := RealmRequest.replies_command hd env st.store u port
  rw [h.replies, List.nil_append] at hr
  refine ⟨r, hr, fun p => ?_⟩
  have hset : (st.setTask port (some ⟨c, .waiting, .ask (.store point u request) next⟩)).tasks.get?
      port = some ⟨c, .waiting, .ask (.store point u request) next⟩ := by
    rw [setTask_get?, if_pos rfl]
  unfold execute
  rw [ht]
  refine (absorb_reply hr hset p).trans ?_
  by_cases hp : p = port
  · rw [if_pos hp, if_pos hp]
  · rw [if_neg hp, if_neg hp, setTask_get?, if_neg hp]

theorem Settled.absorb {s : RouterStateStore}
    (hports : ∀ p, (st.tasks.get? p).isSome → otherPort < p ∧ p ≤ st.lastPort)
    (hwaits : ∀ p c point u request next,
      (st.absorb s).tasks.get? p = some ⟨c, .waiting, .ask (.store point u request) next⟩ →
      request.isDispatch = true) : Settled (st.absorb s) where
  ports := by
    intro p ht
    rw [(answered_absorb st s p).isSome] at ht
    rw [absorb_lastPort]
    exact hports p ht
  outbox := by rw [absorb_store]
  waits := hwaits

/-- A waiting handler was waiting before the answers came. -/
theorem waiting_of_absorb {s : RouterStateStore} {p : SendPort} {c : Nat} {script : Handler}
    (h : (st.absorb s).tasks.get? p = some ⟨c, .waiting, script⟩) :
    st.tasks.get? p = some ⟨c, .waiting, script⟩ := by
  have ha := answered_absorb st s p
  rw [h] at ha
  generalize st.tasks.get? p = before at ha
  cases ha with
  | same => rfl

/-- Another task at one port. -/
theorem Settled.setTask (h : Settled st) {port : SendPort} {t : Option Task}
    (hport : otherPort < port ∧ port ≤ st.lastPort)
    (hwaits : ∀ c point u request next,
      t = some ⟨c, .waiting, .ask (.store point u request) next⟩ → request.isDispatch = true) :
    Settled (st.setTask port t) := by
  have hstore : (st.setTask port t).store = st.store :=
    setTask_frame Router.store (fun _ _ => rfl) st port t
  have hlast : (st.setTask port t).lastPort = st.lastPort :=
    setTask_frame Router.lastPort (fun _ _ => rfl) st port t
  refine ⟨fun p hp => ?_, ?_, fun p c point u request next hp => ?_⟩
  · rw [setTask_get?] at hp
    rw [hlast]
    by_cases heq : p = port
    · rw [heq]
      exact hport
    · rw [if_neg heq] at hp
      exact h.ports p hp
  · rw [hstore]
    exact h.outbox
  · rw [setTask_get?] at hp
    by_cases heq : p = port
    · rw [if_pos heq] at hp
      exact hwaits c point u request next hp
    · rw [if_neg heq] at hp
      exact h.waits p c point u request next hp

theorem Settled.execute (h : Settled st) (port : SendPort) (env : StoreEnv) :
    Settled (st.execute port env) := by
  obtain heq | ⟨c, point, u, request, next, ht, heq⟩ := execute_cases st port env
  · rw [heq]
    exact h
  · have hport := h.ports port (by rw [ht]; rfl)
    rw [heq]
    refine .absorb (fun p hp => ?_) fun p c' point' u' request' next' hp => ?_
    · rw [setTask_frame Router.lastPort (fun _ _ => rfl)]
      rw [setTask_get?] at hp
      by_cases hpp : p = port
      · rw [hpp]
        exact hport
      · rw [if_neg hpp] at hp
        exact h.ports p hp
    · by_cases hpp : p = port
      · subst hpp
        cases hd : request.isDispatch with
        | true =>
            have hbefore := waiting_of_absorb hp
            rw [setTask_get?, if_pos rfl] at hbefore
            cases hbefore
            exact hd
        | false =>
            obtain ⟨r, -, htasks⟩ := execute_answered h env ht hd
            rw [← heq, htasks p, if_pos rfl] at hp
            cases hp
      · have hbefore := waiting_of_absorb hp
        rw [setTask_get?, if_neg hpp] at hbefore
        exact h.waits _ _ _ _ _ _ hbefore

/-- **The step lemma** of the handlers. -/
theorem Settled.step (h : Settled st) (input : RouterInput) : Settled (st.step input) := by
  cases input with
  | receive port c message =>
      obtain heq | ⟨hlt, heq⟩ := receive_cases st port c message
      · rw [heq]
        exact h
      · rw [heq]
        refine ⟨fun p hp => ?_, h.outbox, fun p c point u request next hp => ?_⟩
        · rw [LinkedMap.get?_insert] at hp
          by_cases hpp : p = port
          · rw [hpp]
            exact ⟨Nat.lt_of_le_of_lt (Nat.zero_le _) hlt, Nat.le_refl _⟩
          · rw [if_neg hpp] at hp
            exact ⟨(h.ports p hp).1, (h.ports p hp).2.trans hlt.le⟩
        · rw [LinkedMap.get?_insert] at hp
          by_cases hpp : p = port
          · rw [if_pos hpp] at hp
            cases hp
          · rw [if_neg hpp] at hp
            exact h.waits _ _ _ _ _ _ hp
  | resume port native retains failure =>
      obtain heq | ⟨c, script, ht, heq⟩ := resume_cases st port native retains failure
      · rw [Router.step, heq]
        exact h
      · have hport := h.ports port (by rw [ht]; rfl)
        rw [Router.step, heq]
        have hpost : ∀ posts, Settled (st.post posts) := fun _ => ⟨h.1, h.2, h.3⟩
        exact (hpost _).setTask hport fun _ _ _ _ _ hstop => absurd hstop Task.stop_store
  | execute port env => exact h.execute port env
  | authorize port decision =>
      obtain heq | ⟨c, request, next, ht, heq⟩ := authorize_cases st port decision
      · rw [Router.step, heq]
        exact h
      · rw [Router.step, heq]
        exact h.setTask (h.ports port (by rw [ht]; rfl)) fun _ _ _ _ _ hw => by cases hw
  | respond port response =>
      obtain heq | ⟨c, next, ht, heq⟩ := respond_cases st port response
      · rw [Router.step, heq]
        exact h
      · rw [Router.step, heq]
        exact h.setTask (h.ports port (by rw [ht]; rfl)) fun _ _ _ _ _ hw => by cases hw
  | store env input =>
      exact .absorb h.ports fun _ _ _ _ _ _ hp => h.waits _ _ _ _ _ _ (waiting_of_absorb hp)
  | timeout =>
      obtain heq | ⟨event, rest, -, heq⟩ := timeout_cases st
      · rw [heq]
        exact h
      · rw [heq]
        exact ⟨h.1, h.2, h.3⟩
  | connection c state => exact ⟨h.1, h.2, h.3⟩
  | link input => exact ⟨h.1, h.2, h.3⟩

/-- **The step lemma** of the order between two steps. -/
theorem Orderly.step (h : Orderly st) (hx : ¬ st.store.ids.invocation.Exhausted)
    (input : RouterInput) : Orderly (st.step input) := by
  obtain ⟨hports, houtbox, hwaits⟩ := h.settled.step input
  refine ⟨hports, houtbox, hwaits, ?_⟩
  obtain heq | ⟨env, storeInput, heq⟩ := store_step st input
  · rw [heq]
    exact h.invocations
  · rw [heq]
    exact (h.invocations.step (x := (env, storeInput)) hx).of_frame (fun _ _ => rfl) rfl rfl rfl rfl

/-! ### The handler at one port -/

/-- What a step makes of the handler at a port. -/
inductive Moved (st : Router) (input : RouterInput) (port : SendPort) : Option Task → Prop where
  | same : Moved st input port (st.tasks.get? port)
  | received {c : Nat} {message : ClientMessage} (isInput : input = .receive port c message)
      (fresh : st.lastPort < port) :
      Moved st input port (some ⟨c, .ready, handleSessionMessage c message⟩)
  | resumed {native : List Nat} {retains : Bool} {failure : Option Failure} {c : Nat}
      {script : Handler} (isInput : input = .resume port native retains failure)
      (found : st.tasks.get? port = some ⟨c, .ready, script⟩) :
      Moved st input port (Task.stop c
        (script.remainder (st.viewOf ⟨c, .ready, script⟩ native retains failure).now))
  | authorized {decision : AuthorizationDecision} {c : Nat} {request : AuthorizationRequest}
      {next : AuthorizationDecision → Handler} (isInput : input = .authorize port decision)
      (found : st.tasks.get? port = some ⟨c, .waiting, .ask (.authorize request) next⟩) :
      Moved st input port (some ⟨c, .ready, next decision⟩)
  | responded {response : InternalResponse} {c : Nat} {next : InternalResponse → Handler}
      (isInput : input = .respond port response)
      (found : st.tasks.get? port = some ⟨c, .waiting, .ask .response next⟩) :
      Moved st input port (some ⟨c, .ready, next response⟩)
  /-- Its command was answered on the spot. -/
  | executed {env : StoreEnv} {c : Nat} {point : Point} {u : String} {request : RealmRequest}
      {next : StoreReply → Handler} {r : StoreReply} (isInput : input = .execute port env)
      (found : st.tasks.get? port = some ⟨c, .queued, .ask (.store point u request) next⟩)
      (direct : request.isDispatch = false)
      (reply : (st.store.handle env (.command (request.command u port))).replies = [(port, r)]) :
      Moved st input port (some ⟨c, .ready, next r⟩)
  /-- Its dispatch was handled, and waits for its answer. -/
  | waiting {env : StoreEnv} {c : Nat} {point : Point} {u : String} {request : RealmRequest}
      {next : StoreReply → Handler} (isInput : input = .execute port env)
      (found : st.tasks.get? port = some ⟨c, .queued, .ask (.store point u request) next⟩)
      (dispatch : request.isDispatch = true) :
      Moved st input port (some ⟨c, .waiting, .ask (.store point u request) next⟩)
  /-- Its dispatch was answered, now or later. -/
  | dispatched {stage : Stage} {c : Nat} {point : Point} {u : String} {request : RealmRequest}
      {next : StoreReply → Handler} {r : StoreReply} {env : StoreEnv} {command : StoreInput}
      (found : st.tasks.get? port = some ⟨c, stage, .ask (.store point u request) next⟩)
      (dispatch : request.isDispatch = true)
      (reply : (port, r) ∈ (st.store.handle env command).replies)
      (handled : (st.step input).store = { st.store.handle env command with outbox := [] })
      (origin : stage = .waiting ∨ stage = .queued ∧ ∃ env, input = .execute port env) :
      Moved st input port (some ⟨c, .ready, next r⟩)

theorem moved_setTask {input : RouterInput} {port port' : SendPort} {t : Option Task}
    (h : port = port' → Moved st input port t) :
    Moved st input port ((st.setTask port' t).tasks.get? port) := by
  rw [setTask_get?]
  split
  · next heq => exact h heq
  · exact .same

theorem moved_execute (h : Settled st) (port' : SendPort) (env : StoreEnv) (port : SendPort) :
    Moved st (.execute port' env) port ((st.execute port' env).tasks.get? port) := by
  obtain heq | ⟨c, point, u, request, next, ht, heq⟩ := execute_cases st port' env
  · rw [heq]
    exact .same
  · cases hd : request.isDispatch with
    | false =>
        obtain ⟨r, hr, htasks⟩ := execute_answered h env ht hd
        rw [htasks port]
        split
        · next hp =>
          subst hp
          exact .executed rfl ht hd hr
        · exact .same
    | true =>
        have hstore : (st.step (.execute port' env)).store =
            { st.store.handle env (.command (request.command u port')) with outbox := [] } := by
          rw [step, heq, absorb_store]
        have ha := answered_absorb
          (st.setTask port' (some ⟨c, .waiting, .ask (.store point u request) next⟩))
          (st.store.handle env (.command (request.command u port'))) port
        rw [← heq, setTask_get?] at ha
        generalize (st.execute port' env).tasks.get? port = after at ha
        split at ha
        · next hp =>
          subst hp
          cases ha with
          | same => exact .waiting rfl ht hd
          | delivered mem => exact .dispatched ht hd mem hstore (.inr ⟨rfl, env, rfl⟩)
        · generalize hb : st.tasks.get? port = before at ha
          cases ha with
          | same =>
              rw [← hb]
              exact .same
          | delivered mem => exact .dispatched hb (h.waits _ _ _ _ _ _ hb) mem hstore (.inl rfl)

/-- **Every way in which a step moves a handler.** -/
theorem moved_step (h : Settled st) (input : RouterInput) (port : SendPort) :
    Moved st input port ((st.step input).tasks.get? port) := by
  cases input with
  | receive port' c message =>
      obtain heq | ⟨hlt, heq⟩ := receive_cases st port' c message
      · rw [heq]
        exact .same
      · rw [heq]
        exact moved_setTask (t := some _) fun hp => by
          subst hp
          exact .received rfl hlt
  | resume port' native retains failure =>
      obtain heq | ⟨c, script, ht, heq⟩ := resume_cases st port' native retains failure
      · rw [step, heq]
        exact .same
      · rw [step, heq, setTask_get?]
        split
        · next hp =>
          subst hp
          exact .resumed rfl ht
        · exact .same
  | execute port' env => exact moved_execute h port' env port
  | authorize port' decision =>
      obtain heq | ⟨c, request, next, ht, heq⟩ := authorize_cases st port' decision
      · rw [step, heq]
        exact .same
      · rw [step, heq]
        refine moved_setTask fun hp => ?_
        subst hp
        exact .authorized rfl ht
  | respond port' response =>
      obtain heq | ⟨c, next, ht, heq⟩ := respond_cases st port' response
      · rw [step, heq]
        exact .same
      · rw [step, heq]
        refine moved_setTask fun hp => ?_
        subst hp
        exact .responded rfl ht
  | store env input =>
      have ha := answered_absorb st (st.store.handle env input.fromOther) port
      have hstore : (st.step (.store env input)).store =
          { st.store.handle env input.fromOther with outbox := [] } := absorb_store ..
      rw [step]
      generalize (st.absorb (st.store.handle env input.fromOther)).tasks.get? port = after at ha
      generalize hb : st.tasks.get? port = before at ha
      cases ha with
      | same =>
          rw [← hb]
          exact .same
      | delivered mem => exact .dispatched hb (h.waits _ _ _ _ _ _ hb) mem hstore (.inl rfl)
  | timeout =>
      obtain heq | ⟨event, rest, -, heq⟩ := timeout_cases st <;> rw [heq] <;> exact .same
  | connection c state => exact .same
  | link input => exact .same

/-- A component of the router that only new messages and changes of a connection's state can
change. -/
theorem step_frame {β : Type} (g : Router → β) (htasks : ∀ st ts, g { st with tasks := ts } = g st)
    (hstore : ∀ st s, g { st with store := s } = g st)
    (htimeouts : ∀ st events, g { st with timeouts := events } = g st)
    (hposted : ∀ st posts l, g { st with posted := posts, link := l } = g st)
    {input : RouterInput}
    (hreceive : ∀ port c message, input = .receive port c message → g (st.step input) = g st)
    (hconnection : ∀ c state, input = .connection c state → g (st.step input) = g st) :
    g (st.step input) = g st := by
  have habsorb : ∀ (st : Router) s, g (st.absorb s) = g st := fun st s =>
    (absorb_frame g htasks htimeouts st s).trans (hstore st _)
  cases input with
  | receive port c message => exact hreceive port c message rfl
  | resume port native retains failure =>
      obtain heq | ⟨c, script, -, heq⟩ := resume_cases st port native retains failure
      · rw [step, heq]
      · rw [step, heq, setTask_frame g htasks]
        exact hposted st _ _
  | execute port env =>
      obtain heq | ⟨c, point, u, request, next, -, heq⟩ := execute_cases st port env
      · rw [step, heq]
      · rw [step, heq, habsorb]
        exact setTask_frame g htasks ..
  | authorize port decision =>
      obtain heq | ⟨c, request, next, -, heq⟩ := authorize_cases st port decision
      · rw [step, heq]
      · rw [step, heq]
        exact setTask_frame g htasks ..
  | respond port response =>
      obtain heq | ⟨c, next, -, heq⟩ := respond_cases st port response
      · rw [step, heq]
      · rw [step, heq]
        exact setTask_frame g htasks ..
  | store env input => exact habsorb ..
  | timeout =>
      obtain heq | ⟨event, rest, -, heq⟩ := timeout_cases st
      · rw [heq]
      · rw [heq]
        exact (hposted _ _ _).trans (htimeouts st rest)
  | connection c state => exact hconnection c state rfl
  | link input => exact hposted st st.posted _

theorem lastPort_step (st : Router) (input : RouterInput) :
    st.lastPort ≤ (st.step input).lastPort := by
  cases input with
  | receive port c message =>
      obtain heq | ⟨hlt, heq⟩ := receive_cases st port c message
      · rw [heq]
      · rw [heq]
        exact hlt.le
  | _ =>
      refine (step_frame Router.lastPort (fun _ _ => rfl) (fun _ _ => rfl) (fun _ _ => rfl)
        (fun _ _ _ => rfl) (fun _ _ _ heq => by cases heq) fun _ _ _ => ?_).ge
      first | rfl | contradiction

/-- The state of a connection changes by an input about it only. -/
theorem stateOf_step {c : Nat} {input : RouterInput}
    (hconn : ∀ state, input ≠ .connection c state) :
    (st.step input).stateOf c = st.stateOf c := by
  have hconnections : (st.step input).connections.get? c = st.connections.get? c := by
    refine step_frame (fun st => st.connections.get? c) (fun _ _ => rfl) (fun _ _ => rfl)
      (fun _ _ => rfl) (fun _ _ _ => rfl) (fun port c' message heq => ?_) fun c' state heq => ?_
    · subst heq
      obtain heq | ⟨-, heq⟩ := receive_cases st port c' message <;> rw [heq]
    · subst heq
      refine LinkedMap.get?_insert_of_ne _ _ fun hc => ?_
      subst hc
      exact hconn state rfl
  rw [stateOf, hconnections, stateOf]

end Router

end Connectanum
