import Connectanum.Router.Link

/-!
# Router — Machine

The router as a state machine: the state store, the handlers in progress, and what is between
them and the connections.  One step is one command or timer of the store, one segment of a
handler between two awaits, the arrival of an answer, or one event of the boss or of a worker's
command queue; they come in any order.
-/

namespace Connectanum

open Collections Machine

inductive Stage where
  /-- The handler can run on. -/
  | ready
  /-- Its command is on the way to the store. -/
  | queued
  /-- The answer is outstanding. -/
  | waiting
  deriving DecidableEq

/-- A handler in progress. -/
structure Task where
  connectionId : Nat
  stage : Stage
  script : Handler

/-- The handler has come to an await, or to its end. -/
def Task.stop (connectionId : Nat) : Handler → Option Task
  | .done => none
  | .ask (.store point realmUri request) next =>
      some ⟨connectionId, .queued, .ask (.store point realmUri request) next⟩
  | script => some ⟨connectionId, .waiting, script⟩

structure Router where
  store : RouterStateStore
  connections : LinkedMap Nat WorkerConnectionState := .empty
  /-- The handlers in progress, by the port on which they are answered. -/
  tasks : LinkedMap SendPort Task := .empty
  lastPort : SendPort := 0
  /-- The timeout events that the store has emitted and the boss has not handled. -/
  timeouts : List InvocationTimeoutEvent := []
  /-- Everything the handlers have sent, in order. -/
  posted : List Post := []
  link : Link := {}

inductive RouterInput where
  /-- A worker takes up a message of a connection, on a new port. -/
  | receive (port : SendPort) (connectionId : Nat) (message : ClientMessage)
  /-- A handler runs to its next await. -/
  | resume (port : SendPort) (native : List Nat) (retains : Bool) (failure : Option Failure)
  /-- The store handles the command of a handler. -/
  | execute (port : SendPort) (env : StoreEnv)
  | authorize (port : SendPort) (decision : AuthorizationDecision)
  | respond (port : SendPort) (response : InternalResponse)
  /-- A command of another component, or a timer of the store. -/
  | store (env : StoreEnv) (input : StoreInput)
  /-- The boss handles the next timeout event. -/
  | timeout
  /-- The state that a worker keeps of a connection changes. -/
  | connection (connectionId : Nat) (state : WorkerConnectionState)
  | link (input : LinkInput)

/-- The reply port of the components that are not handlers. -/
def otherPort : SendPort := 0

/-- A command of another component, which has a port of its own. -/
def RouterStateCommand.fromOther : RouterStateCommand → RouterStateCommand
  | .realmSnapshot uri known _ => .realmSnapshot uri known otherPort
  | .sessionAllocateId _ => .sessionAllocateId otherPort
  | .subscriptionAdd uri s topic policy details _ =>
      .subscriptionAdd uri s topic policy details otherPort
  | .subscriptionMatch uri topic publisher options _ =>
      .subscriptionMatch uri topic publisher options otherPort
  | .procedureRegister uri s procedure details _ =>
      .procedureRegister uri s procedure details otherPort
  | .invocationDispatch uri caller request procedure options _ =>
      .invocationDispatch uri caller request procedure options otherPort
  | .invocationFindByCaller uri caller request _ =>
      .invocationFindByCaller uri caller request otherPort
  | .invocationCancel uri id mode waitForAck _ => .invocationCancel uri id mode waitForAck otherPort
  | .invocationGet uri id _ => .invocationGet uri id otherPort
  | .invocationCaller uri id callee _ => .invocationCaller uri id callee otherPort
  | .invocationComplete uri id port => .invocationComplete uri id (port.map fun _ => otherPort)
  | .invocationTouch uri id port => .invocationTouch uri id (port.map fun _ => otherPort)
  | .metricsSnapshot _ => .metricsSnapshot otherPort
  | c => c

def StoreInput.fromOther : StoreInput → StoreInput
  | .command c => .command c.fromOther
  | i => i

/-- What a handler can read on the spot. -/
def View.now (view : View) : (q : Query) → Option q.Answer
  | .look => some view
  | .handOver _ _ => some view
  | .reply _ => some view
  | .store _ _ _ => none
  | .authorize _ => none
  | .response => none

namespace Router

/-- The router of the given realms, with nothing open. -/
def initial (realms : List String) : Router := { store := { realmConfigs := realms } }

def stateOf (st : Router) (connectionId : Nat) : WorkerConnectionState :=
  (st.connections.get? connectionId).getD {}

def setTask (st : Router) (port : SendPort) : Option Task → Router
  | none => { st with tasks := st.tasks.erase port }
  | some task => { st with tasks := st.tasks.insert port task }

/-- The posts leave in order. -/
def post (st : Router) (posts : List Post) : Router :=
  { st with posted := st.posted ++ posts, link := posts.foldl Link.post st.link }

/-- An answer of the store arrives at the handler that waits for it. -/
def deliver (st : Router) (port : SendPort) (reply : StoreReply) : Router :=
  match st.tasks.get? port with
  | some ⟨connectionId, .waiting, .ask (.store _ _ _) next⟩ =>
      st.setTask port (some ⟨connectionId, .ready, next reply⟩)
  | _ => st

/-- What leaves the store: replies go to their handlers, timeout events to the boss. -/
def take (st : Router) : StoreOutput → Router
  | .reply port reply => st.deliver port reply
  | .invocationTimeout event => { st with timeouts := st.timeouts ++ [event] }
  | _ => st

/-- The store has handled something. -/
def absorb (st : Router) (store : RouterStateStore) : Router :=
  store.outbox.foldl take { st with store := { store with outbox := [] } }

def viewOf (st : Router) (task : Task) (native : List Nat) (retains : Bool)
    (failure : Option Failure) : View :=
  { state := st.stateOf task.connectionId, native := native, retains := retains,
    failure := failure }

/-- A handler in progress runs to its next await. -/
def resume (st : Router) (port : SendPort) (native : List Nat) (retains : Bool)
    (failure : Option Failure) : Router :=
  match st.tasks.get? port with
  | some ⟨connectionId, .ready, script⟩ =>
      let now := (st.viewOf ⟨connectionId, .ready, script⟩ native retains failure).now
      (st.post (script.sent now)).setTask port (Task.stop connectionId (script.remainder now))
  | _ => st

/-- The store handles the command that a handler has sent. -/
def execute (st : Router) (port : SendPort) (env : StoreEnv) : Router :=
  match st.tasks.get? port with
  | some ⟨connectionId, .queued, .ask (.store point realmUri request) next⟩ =>
      (st.setTask port
        (some ⟨connectionId, .waiting, .ask (.store point realmUri request) next⟩)).absorb
        (st.store.handle env (.command (request.command realmUri port)))
  | _ => st

def authorize (st : Router) (port : SendPort) (decision : AuthorizationDecision) : Router :=
  match st.tasks.get? port with
  | some ⟨connectionId, .waiting, .ask (.authorize _) next⟩ =>
      st.setTask port (some ⟨connectionId, .ready, next decision⟩)
  | _ => st

def respond (st : Router) (port : SendPort) (response : InternalResponse) : Router :=
  match st.tasks.get? port with
  | some ⟨connectionId, .waiting, .ask .response next⟩ =>
      st.setTask port (some ⟨connectionId, .ready, next response⟩)
  | _ => st

/-- One step of the router.  An input that does not apply changes nothing. -/
def step (st : Router) : RouterInput → Router
  | .receive port connectionId message =>
      if st.lastPort < port then
        { st with
          lastPort := port
          tasks := st.tasks.insert port
            ⟨connectionId, .ready, handleSessionMessage connectionId message⟩ }
      else st
  | .resume port native retains failure => st.resume port native retains failure
  | .execute port env => st.execute port env
  | .authorize port decision => st.authorize port decision
  | .respond port response => st.respond port response
  | .store env input => st.absorb (st.store.handle env input.fromOther)
  | .timeout =>
      match st.timeouts with
      | [] => st
      | event :: rest => { st with timeouts := rest }.post (invocationTimeoutPosts event)
  | .connection connectionId state =>
      { st with connections := st.connections.insert connectionId state }
  | .link input => { st with link := st.link.step input }

end Router

end Connectanum
