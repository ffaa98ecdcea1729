import Connectanum.Router.Handlers

/-!
# Router — Link

How a posted frame reaches the transport.  A frame that is sent or forwarded natively is in the
boss's queue once.  A frame that another worker serializes goes through the boss's queue to the
command queue of the worker that owns the connection, and from there through the boss's queue
again.
-/

namespace Connectanum

open Collections Machine

structure Link where
  /-- The events that the workers have sent to the boss, oldest first. -/
  bossQueue : List (Path × WireFrame) := []
  /-- The send commands waiting at each worker, oldest first. -/
  workerQueues : LinkedMap Nat (List WireFrame) := .empty
  connectionOwners : LinkedMap Nat Nat := .empty
  /-- The connections that have had an owner. -/
  assigned : List Nat := []
  closed : List Nat := []
  /-- The frames that the transport has accepted, in order. -/
  enqueued : List WireFrame := []

inductive LinkInput where
  /-- The boss takes its next event; `accepted` is the transport's answer. -/
  | boss (accepted : Bool)
  /-- The worker takes its next send command; `present` says that it still has the connection. -/
  | worker (worker : Nat) (present : Bool)
  | assign (connectionId worker : Nat)
  | detach (connectionId : Nat)

namespace Link

/-- The send commands waiting at a worker. -/
def waiting (l : Link) (worker : Nat) : List WireFrame := (l.workerQueues.get? worker).getD []

/-- `commandPort.send([_workerCmdSendMessage, connectionId, message])` to the owner. -/
def forwardMessageToConnection (l : Link) (f : WireFrame) : Link :=
  match l.connectionOwners.get? f.connectionId with
  | none => l
  | some worker =>
      { l with workerQueues := l.workerQueues.insert worker (l.waiting worker ++ [f]) }

def accepts (l : Link) (accepted : Bool) (f : WireFrame) : Bool :=
  accepted && !l.closed.contains f.connectionId

/-- `_handleEvent`.  The connection of a `worker_send` that is rejected is closed. -/
def handleEvent (l : Link) (accepted : Bool) : Path × WireFrame → Link
  | (.send, f) =>
      if l.accepts accepted f then { l with enqueued := l.enqueued ++ [f] }
      else
        { l with
          closed := f.connectionId :: l.closed
          connectionOwners := l.connectionOwners.erase f.connectionId }
  | (.native, f) =>
      if l.accepts accepted f then { l with enqueued := l.enqueued ++ [f] } else l
  | (.forward, f) | (.boss, f) => l.forwardMessageToConnection f

def step (l : Link) : LinkInput → Link
  | .boss accepted =>
      match l.bossQueue with
      | [] => l
      | event :: rest => { l with bossQueue := rest }.handleEvent accepted event
  | .worker worker present =>
      match l.waiting worker with
      | [] => l
      | f :: rest =>
          { l with
            workerQueues := l.workerQueues.insert worker rest
            bossQueue := if present then l.bossQueue ++ [(.send, f)] else l.bossQueue }
  | .assign connectionId worker =>
      if l.assigned.contains connectionId then l
      else
        { l with
          assigned := connectionId :: l.assigned
          connectionOwners := l.connectionOwners.insert connectionId worker }
  | .detach connectionId =>
      { l with connectionOwners := l.connectionOwners.erase connectionId }

/-- A post leaves its sender. -/
def post (l : Link) : Post → Link
  | .frame .boss f => l.forwardMessageToConnection f
  | .frame path f => { l with bossQueue := l.bossQueue ++ [(path, f)] }
  | .internal _ _ _ => l

end Link

end Connectanum
