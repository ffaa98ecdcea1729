import Connectanum.Native.TlsReload

/-!
# Native — TlsAccepts

Reloads beside accepted connections.  A reload holds the registry's mutex from beginning to end and
writes one lock after the other (`Act.write`); a connection reads the endpoint configuration of its
listener and then, under another lock, its TLS acceptor (`negotiate_accepted_connection`).

A connection is served with values of one configuration where no write of its listener falls between
its two reads but the one that a reload in progress still owes (`Undivided`).
-/

namespace Connectanum

namespace TlsReload

open Collections

variable {ρ σ α κ ε : Type}

/-- What a reload writes next for a listener. -/
inductive Stage where
  | endpointConfig
  | tlsAcceptor
  | http3
  deriving DecidableEq, Repr

inductive Reload (σ α κ : Type) where
  | idle
  | writing (stage : Stage) (p : Prepared σ α κ) (rest : List (Prepared σ α κ))

/-- The loop of the installation goes on to the next listener. -/
def Reload.next : List (Prepared σ α κ) → Reload σ α κ
  | [] => .idle
  | p :: rest => .writing .endpointConfig p rest

/-- What has happened under the locks of the listeners. -/
inductive Event where
  | readEndpoint (connection listener : Nat)
  | readAcceptor (connection listener : Nat)
  | wroteEndpoint (listener : Nat)
  | wroteAcceptor (listener : Nat)
  deriving DecidableEq, Repr

structure Sys (σ α κ : Type) where
  listeners : Listeners σ α κ
  reload : Reload σ α κ
  /-- The connections that have read the endpoint configuration of their listener. -/
  reading : LinkedMap Nat (Nat × Installed (EndpointRuntimeConfig σ))
  served : LinkedMap Nat (Installed (EndpointRuntimeConfig σ) × Installed (Option α))
  log : List Event

inductive Act (ρ σ α κ ε : Type) where
  | reload (b : Builders ρ σ α κ ε) (selected : Option (List Nat)) (cfg : Option (RouterConfig ρ))
  | write
  | readEndpoint (connection listener : Nat)
  | readAcceptor (connection : Nat)

/-- What the act makes of the listeners where it is one step. -/
def Act.atOnce (listeners : Listeners σ α κ) : Act ρ σ α κ ε → Listeners σ α κ
  | .reload b selected cfg => (reloadTlsSelected b listeners selected cfg).2
  | .write | .readEndpoint .. | .readAcceptor _ => listeners

namespace Sys

/-- One write of the reload in progress. -/
def write (s : Sys σ α κ) : Option (Sys σ α κ) :=
  match s.reload with
  | .idle => none
  | .writing .endpointConfig p rest =>
      some { s with
        listeners := s.listeners.modify p.listener (·.writeEndpointConfig p)
        reload := .writing .tlsAcceptor p rest
        log := s.log ++ [.wroteEndpoint p.listener] }
  | .writing .tlsAcceptor p rest =>
      some { s with
        listeners := s.listeners.modify p.listener (·.writeTlsAcceptor p)
        reload := .writing .http3 p rest
        log := s.log ++ [.wroteAcceptor p.listener] }
  | .writing .http3 p rest =>
      some { s with
        listeners := s.listeners.modify p.listener (·.writeHttp3 p)
        reload := .next rest }

/-- The first statements of `negotiate_accepted_connection`. -/
def readEndpoint (s : Sys σ α κ) (connection listener : Nat) : Option (Sys σ α κ) :=
  match s.reading.get? connection, s.served.get? connection, s.listeners.get? listener with
  | none, none, some entry =>
      some { s with
        reading := s.reading.insert connection (listener, entry.configState.endpointConfig)
        log := s.log ++ [.readEndpoint connection listener] }
  | _, _, _ => none

def readAcceptor (s : Sys σ α κ) (connection : Nat) : Option (Sys σ α κ) :=
  match s.reading.get? connection with
  | none => none
  | some (listener, endpoint) =>
      match s.listeners.get? listener with
      | none => none
      | some entry =>
          some { s with
            reading := s.reading.erase connection
            served := s.served.insert connection (endpoint, entry.configState.tlsAcceptor)
            log := s.log ++ [.readAcceptor connection listener] }

/-- One step, where it can be taken: a reload waits for the registry's mutex. -/
def step (s : Sys σ α κ) : Act ρ σ α κ ε → Option (Sys σ α κ)
  | .reload b selected cfg =>
      match s.reload with
      | .writing .. => none
      | .idle =>
          match selectAndPrepare b s.listeners selected cfg with
          | .error _ => some s
          | .ok prepared => some { s with reload := .next prepared }
  | .write => s.write
  | .readEndpoint connection listener => s.readEndpoint connection listener
  | .readAcceptor connection => s.readAcceptor connection

def perform (s : Sys σ α κ) (act : Act ρ σ α κ ε) : Sys σ α κ := (s.step act).getD s

end Sys

/-- What `listen_endpoint` makes a listener of. -/
structure Opening (σ α κ : Type) where
  routerScoped : Bool
  configuredEndpointIndex : Option Nat
  http3Endpoint : Option κ
  runtimeConfig : EndpointRuntimeConfig σ
  tlsAcceptor : Option α

def Opening.entry (o : Opening σ α κ) : ListenerEntry σ α κ :=
  { routerScoped := o.routerScoped
    configuredEndpointIndex := o.configuredEndpointIndex
    http3Endpoint := o.http3Endpoint
    configState := .new o.runtimeConfig o.tlsAcceptor }

def start (opened : LinkedMap Nat (Opening σ α κ)) : Sys σ α κ :=
  ⟨opened.mapValues fun _ o => o.entry, .idle, .empty, .empty, []⟩

def run (opened : LinkedMap Nat (Opening σ α κ)) (acts : List (Act ρ σ α κ ε)) : Sys σ α κ :=
  acts.foldl Sys.perform (start opened)

/-! ### A reload in steps -/

/-- What is left of the listeners once the reload in progress is over. -/
def Sys.settled (s : Sys σ α κ) : Listeners σ α κ :=
  match s.reload with
  | .idle => s.listeners
  | .writing .endpointConfig p rest => installAll (s.listeners.modify p.listener (·.update p)) rest
  | .writing .tlsAcceptor p rest =>
      installAll (s.listeners.modify p.listener fun entry =>
        (entry.writeTlsAcceptor p).writeHttp3 p) rest
  | .writing .http3 p rest => installAll (s.listeners.modify p.listener (·.writeHttp3 p)) rest

variable {s s' : Sys σ α κ} {act : Act ρ σ α κ ε}

theorem settled_next (prepared : List (Prepared σ α κ)) :
    Sys.settled { s with reload := .next prepared } = installAll s.listeners prepared := by
  cases prepared <;> rfl

theorem settled_write (h : s.write = some s') : s'.settled = s.settled := by
  unfold Sys.write at h
  split at h
  · cases h
  · next p rest hreload =>
    cases h
    simp only [Sys.settled, hreload, LinkedMap.modify_modify]
    rfl
  · next p rest hreload =>
    cases h
    simp only [Sys.settled, hreload, LinkedMap.modify_modify]
  · next p rest hreload =>
    cases h
    have hsettled : s.settled =
        installAll (s.listeners.modify p.listener (·.writeHttp3 p)) rest := by
      rw [Sys.settled, hreload]
    rw [hsettled]
    exact settled_next (s := { s with
      listeners := s.listeners.modify p.listener (·.writeHttp3 p) }) rest

theorem settled_readEndpoint {connection listener : Nat}
    (h : s.readEndpoint connection listener = some s') : s'.settled = s.settled := by
  unfold Sys.readEndpoint at h
  split at h
  · cases h
    rfl
  · cases h

theorem settled_readAcceptor {connection : Nat} (h : s.readAcceptor connection = some s') :
    s'.settled = s.settled := by
  unfold Sys.readAcceptor at h
  split at h
  · cases h
  split at h
  · cases h
  · cases h
    rfl

/-- **A reload in steps is a reload**: it begins with what is left of it in the end, and nothing that
happens meanwhile changes that. -/
theorem settled_step (h : s.step act = some s') :
    s'.settled = act.atOnce s.settled := by
  cases act with
  | reload b selected cfg =>
      simp only [Sys.step] at h
      split at h
      · cases h
      next hidle =>
      have hsettled : s.settled = s.listeners := by rw [Sys.settled, hidle]
      rw [hsettled, Act.atOnce, reloadTlsSelected]
      cases hprepared : selectAndPrepare b s.listeners selected cfg with
      | error e =>
          rw [hprepared] at h
          cases h
          exact hsettled
      | ok prepared =>
          rw [hprepared] at h
          cases h
          exact settled_next prepared
  | write => exact settled_write h
  | readEndpoint connection listener => exact settled_readEndpoint h
  | readAcceptor connection => exact settled_readAcceptor h

/-! ### Which configuration a value is of -/

/-- How often a listener has been given another endpoint configuration. -/
def endpoints (log : List Event) (listener : Nat) : Nat := log.count (.wroteEndpoint listener)

/-- How often a listener has been given another TLS acceptor. -/
def acceptors (log : List Event) (listener : Nat) : Nat := log.count (.wroteAcceptor listener)

theorem endpoints_append (log log' : List Event) (listener : Nat) :
    endpoints (log ++ log') listener = endpoints log listener + endpoints log' listener :=
  List.count_append

theorem acceptors_append (log log' : List Event) (listener : Nat) :
    acceptors (log ++ log') listener = acceptors log listener + acceptors log' listener :=
  List.count_append

@[simp] theorem endpoints_wroteEndpoint (l listener : Nat) :
    endpoints [.wroteEndpoint l] listener = if l = listener then 1 else 0 := by
  by_cases h : l = listener <;> simp [endpoints, h]

@[simp] theorem acceptors_wroteAcceptor (l listener : Nat) :
    acceptors [.wroteAcceptor l] listener = if l = listener then 1 else 0 := by
  by_cases h : l = listener <;> simp [acceptors, h]

@[simp] theorem acceptors_wroteEndpoint (l listener : Nat) :
    acceptors [.wroteEndpoint l] listener = 0 := rfl

/-- A reload is between its two writes to the listener. -/
def Reload.owes : Reload σ α κ → Nat → Nat
  | .writing .tlsAcceptor p _, listener => if p.listener = listener then 1 else 0
  | _, _ => 0

theorem Reload.owes_le_one (r : Reload σ α κ) (listener : Nat) : r.owes listener ≤ 1 := by
  unfold owes
  split
  · split
    · exact Nat.le_refl 1
    · exact Nat.zero_le 1
  · exact Nat.zero_le 1

/-- What was prepared for a listener is its next configuration. -/
def Prepared.Due (log : List Event) (p : Prepared σ α κ) : Prop :=
  p.next.origin = endpoints log p.listener + 1 ∧
    p.tlsAcceptor.origin = endpoints log p.listener + 1

/-- What a reload has still to write. -/
def Reload.Sound (log : List Event) : Reload σ α κ → Prop
  | .idle => True
  | .writing stage p rest =>
      ((p :: rest).map (·.listener)).Nodup ∧ (∀ q ∈ rest, q.Due log) ∧
        match stage with
        | .endpointConfig => p.Due log
        | .tlsAcceptor => p.tlsAcceptor.origin = endpoints log p.listener
        | .http3 => True

/-- The condition: between the reads of the endpoint configuration and of the acceptor, the acceptor
is written only if, at the first of them, a reload had written the endpoint configuration and not
yet the acceptor, and then it is written once. -/
def Undivided (listener : Nat) (before between : List Event) : Prop :=
  acceptors between listener = endpoints before listener - acceptors before listener

structure Sys.Sound (s : Sys σ α κ) : Prop where
  origins : ∀ listener entry, s.listeners.get? listener = some entry →
    entry.configState.endpointConfig.origin = endpoints s.log listener ∧
      entry.configState.tlsAcceptor.origin = acceptors s.log listener
  balance : ∀ listener,
    endpoints s.log listener = acceptors s.log listener + s.reload.owes listener
  bounded : ∀ front back, s.log = front ++ back → ∀ listener,
    acceptors front listener ≤ endpoints front listener ∧
      endpoints front listener ≤ acceptors front listener + 1
  reload : s.reload.Sound s.log
  reading : ∀ connection listener endpoint, s.reading.get? connection = some (listener, endpoint) →
    ∃ before between, s.log = before ++ .readEndpoint connection listener :: between ∧
      endpoint.origin = endpoints before listener
  served : ∀ connection endpoint acceptor,
    s.served.get? connection = some (endpoint, acceptor) →
    ∃ listener before between after,
      s.log = before ++ .readEndpoint connection listener ::
        (between ++ .readAcceptor connection listener :: after) ∧
      endpoint.origin = endpoints before listener ∧
      acceptor.origin = acceptors before listener + acceptors between listener

theorem sound_start (opened : LinkedMap Nat (Opening σ α κ)) : (start opened).Sound where
  origins listener entry h := by
    rw [start, LinkedMap.get?_mapValues] at h
    obtain ⟨o, -, rfl⟩ := Option.map_eq_some_iff.mp h
    exact ⟨rfl, rfl⟩
  balance _ := rfl
  bounded front back h listener := by
    obtain ⟨rfl, -⟩ := List.append_eq_nil_iff.mp h.symm
    exact ⟨Nat.le_refl 0, Nat.zero_le 1⟩
  reload := trivial
  reading := nofun
  served := nofun

namespace Sys.Sound

/-- The parts of the invariant that only tell the past go on holding as the log grows. -/
theorem grow (h : s.Sound) {e : Event} (hlog : s'.log = s.log ++ [e])
    (hbalance : ∀ listener,
      endpoints s'.log listener = acceptors s'.log listener + s'.reload.owes listener) :
    ∀ front back, s'.log = front ++ back → ∀ listener,
      acceptors front listener ≤ endpoints front listener ∧
        endpoints front listener ≤ acceptors front listener + 1 := by
  intro front back heq listener
  rcases List.eq_nil_or_concat' back with rfl | ⟨back, last, rfl⟩
  · rw [List.append_nil] at heq
    have hle := s'.reload.owes_le_one listener
    rw [← heq, hbalance listener]
    exact ⟨Nat.le_add_right _ _, Nat.add_le_add_left hle _⟩
  · rw [hlog, ← List.append_assoc] at heq
    exact h.bounded front back (List.append_inj' heq rfl).1 listener

theorem reading_grow (h : s.Sound) (e : Event) {connection listener : Nat}
    {endpoint : Installed (EndpointRuntimeConfig σ)}
    (hget : s.reading.get? connection = some (listener, endpoint)) :
    ∃ before between, s.log ++ [e] = before ++ .readEndpoint connection listener :: between ∧
      endpoint.origin = endpoints before listener := by
  obtain ⟨before, between, hlog, horigin⟩ := h.reading connection listener endpoint hget
  refine ⟨before, between ++ [e], ?_, horigin⟩
  rw [hlog, List.append_assoc, List.cons_append]

theorem served_grow (h : s.Sound) (e : Event) {connection : Nat}
    {endpoint : Installed (EndpointRuntimeConfig σ)} {acceptor : Installed (Option α)}
    (hget : s.served.get? connection = some (endpoint, acceptor)) :
    ∃ listener before between after,
      s.log ++ [e] = before ++ .readEndpoint connection listener ::
        (between ++ .readAcceptor connection listener :: after) ∧
      endpoint.origin = endpoints before listener ∧
      acceptor.origin = acceptors before listener + acceptors between listener := by
  obtain ⟨listener, before, between, after, hlog, horigins⟩ :=
    h.served connection endpoint acceptor hget
  refine ⟨listener, before, between, after ++ [e], ?_, horigins⟩
  rw [hlog, List.append_assoc, List.cons_append, List.append_assoc, List.cons_append]

/-- What is due stays due until its own endpoint configuration is written. -/
theorem due_grow {p : Prepared σ α κ} {log : List Event} {e : Event} (h : p.Due log)
    (hother : endpoints [e] p.listener = 0) : p.Due (log ++ [e]) := by
  rw [Prepared.Due, endpoints_append, hother]
  exact h

/-- Reads leave everything but the log as it is. -/
theorem read (h : s.Sound) {e : Event} (hendpoints : ∀ listener, endpoints [e] listener = 0)
    (hacceptors : ∀ listener, acceptors [e] listener = 0)
    {reading : LinkedMap Nat (Nat × Installed (EndpointRuntimeConfig σ))}
    {served : LinkedMap Nat (Installed (EndpointRuntimeConfig σ) × Installed (Option α))}
    (hreading : ∀ connection listener endpoint, reading.get? connection = some (listener, endpoint) →
      ∃ before between, s.log ++ [e] = before ++ .readEndpoint connection listener :: between ∧
        endpoint.origin = endpoints before listener)
    (hserved : ∀ connection endpoint acceptor, served.get? connection = some (endpoint, acceptor) →
      ∃ listener before between after,
        s.log ++ [e] = before ++ .readEndpoint connection listener ::
          (between ++ .readAcceptor connection listener :: after) ∧
        endpoint.origin = endpoints before listener ∧
        acceptor.origin = acceptors before listener + acceptors between listener) :
    Sys.Sound { s with reading, served, log := s.log ++ [e] } := by
  have hbalance : ∀ listener, endpoints (s.log ++ [e]) listener =
      acceptors (s.log ++ [e]) listener + s.reload.owes listener := fun listener => by
    rw [endpoints_append, acceptors_append, hendpoints, hacceptors]
    exact h.balance listener
  refine ⟨fun listener entry hentry => ?_, hbalance, h.grow rfl hbalance, ?_, hreading, hserved⟩
  · rw [endpoints_append, acceptors_append, hendpoints, hacceptors]
    exact h.origins listener entry hentry
  · have hreload := h.reload
    dsimp only
    cases hcase : s.reload with
    | idle => trivial
    | writing stage p rest =>
        rw [hcase] at hreload
        obtain ⟨hnodup, hrest, hstage⟩ := hreload
        refine ⟨hnodup, fun q hq => due_grow (hrest q hq) (hendpoints _), ?_⟩
        cases stage with
        | endpointConfig => exact due_grow hstage (hendpoints _)
        | tlsAcceptor =>
            change p.tlsAcceptor.origin = endpoints (s.log ++ [e]) p.listener
            rw [endpoints_append, hendpoints]
            exact hstage
        | http3 => trivial

theorem readEndpoint (h : s.Sound) {connection listener : Nat}
    (hread : s.readEndpoint connection listener = some s') : s'.Sound := by
  unfold Sys.readEndpoint at hread
  split at hread
  · next entry _ _ hentry =>
    cases hread
    refine h.read (fun _ => rfl) (fun _ => rfl) (fun connection' listener' endpoint hget => ?_)
      fun connection' endpoint acceptor hget => h.served_grow _ hget
    rw [LinkedMap.get?_insert] at hget
    split at hget
    · next hself =>
      cases hget
      rw [hself]
      exact ⟨s.log, [], rfl, (h.origins _ entry hentry).1⟩
    · exact h.reading_grow _ hget
  · cases hread

theorem readAcceptor (h : s.Sound) {connection : Nat}
    (hread : s.readAcceptor connection = some s') : s'.Sound := by
  unfold Sys.readAcceptor at hread
  split at hread
  · cases hread
  next listener endpoint hreading =>
  split at hread
  · cases hread
  next entry hentry =>
  cases hread
  refine h.read (fun _ => rfl) (fun _ => rfl) (fun connection' listener' endpoint' hget => ?_)
    fun connection' endpoint' acceptor hget => ?_
  · rw [LinkedMap.get?_erase] at hget
    split at hget
    · cases hget
    · exact h.reading_grow _ hget
  · rw [LinkedMap.get?_insert] at hget
    split at hget
    · next hself =>
      cases hget
      obtain ⟨before, between, hlog, horigin⟩ := h.reading _ _ _ hreading
      refine ⟨listener, before, between, [], ?_, horigin, ?_⟩
      · rw [hself, hlog, List.append_assoc, List.cons_append]
      · rw [(h.origins listener entry hentry).2, hlog, acceptors_append]
        exact congrArg _ ((acceptors_append [.readEndpoint connection listener] between
          listener).trans (Nat.zero_add _))
    · exact h.served_grow _ hget

/-- What a write leaves of the origins: the listener's entry is `f` of what it was. -/
theorem origins_modify {log : List Event} {l : Nat} {f : ListenerEntry σ α κ → ListenerEntry σ α κ}
    (h : s.Sound)
    (hself : ∀ entry, s.listeners.get? l = some entry →
      (f entry).configState.endpointConfig.origin = endpoints log l ∧
        (f entry).configState.tlsAcceptor.origin = acceptors log l)
    (hother : ∀ listener, listener ≠ l → endpoints log listener = endpoints s.log listener ∧
      acceptors log listener = acceptors s.log listener) :
    ∀ listener entry, (s.listeners.modify l f).get? listener = some entry →
      entry.configState.endpointConfig.origin = endpoints log listener ∧
        entry.configState.tlsAcceptor.origin = acceptors log listener := by
  intro listener entry hget
  rw [LinkedMap.get?_modify] at hget
  split at hget
  · next heq =>
    obtain ⟨old, hold, rfl⟩ := Option.map_eq_some_iff.mp hget
    subst heq
    exact hself old hold
  · next hne =>
    obtain ⟨hendpoints, hacceptors⟩ := hother listener hne
    rw [hendpoints, hacceptors]
    exact h.origins listener entry hget

theorem writeEndpointConfig (h : s.Sound) {p : Prepared σ α κ} {rest : List (Prepared σ α κ)}
    (hreload : s.reload = .writing .endpointConfig p rest) :
    Sys.Sound { s with
      listeners := s.listeners.modify p.listener (·.writeEndpointConfig p)
      reload := .writing .tlsAcceptor p rest
      log := s.log ++ [.wroteEndpoint p.listener] } := by
  have hsound := h.reload
  rw [hreload] at hsound
  obtain ⟨hnodup, hrest, hdue, hdue'⟩ := hsound
  have hbalance : ∀ listener, endpoints (s.log ++ [.wroteEndpoint p.listener]) listener =
      acceptors (s.log ++ [.wroteEndpoint p.listener]) listener +
        (Reload.writing .tlsAcceptor p rest).owes listener := fun listener => by
    have hbefore := h.balance listener
    rw [hreload] at hbefore
    rw [endpoints_append, acceptors_append, endpoints_wroteEndpoint, acceptors_wroteEndpoint,
      hbefore]
    rfl
  refine ⟨h.origins_modify (fun entry hentry => ?_) fun listener hne => ?_, hbalance,
    h.grow rfl hbalance, ⟨hnodup, fun q hq => due_grow (hrest q hq) ?_, ?_⟩,
    fun _ _ _ hget => h.reading_grow _ hget, fun _ _ _ hget => h.served_grow _ hget⟩
  · rw [endpoints_append, acceptors_append, endpoints_wroteEndpoint, if_pos rfl]
    exact ⟨hdue, (h.origins _ entry hentry).2⟩
  · rw [endpoints_append, acceptors_append, endpoints_wroteEndpoint, if_neg (Ne.symm hne)]
    exact ⟨rfl, rfl⟩
  · have hne : p.listener ≠ q.listener := fun heq =>
      (List.nodup_cons.mp hnodup).1 (List.mem_map.mpr ⟨q, hq, heq.symm⟩)
    rw [endpoints_wroteEndpoint, if_neg hne]
  · change p.tlsAcceptor.origin = endpoints (s.log ++ [.wroteEndpoint p.listener]) p.listener
    rw [endpoints_append, endpoints_wroteEndpoint, if_pos rfl]
    exact hdue'

theorem writeTlsAcceptor (h : s.Sound) {p : Prepared σ α κ} {rest : List (Prepared σ α κ)}
    (hreload : s.reload = .writing .tlsAcceptor p rest) :
    Sys.Sound { s with
      listeners := s.listeners.modify p.listener (·.writeTlsAcceptor p)
      reload := .writing .http3 p rest
      log := s.log ++ [.wroteAcceptor p.listener] } := by
  have hsound := h.reload
  rw [hreload] at hsound
  obtain ⟨hnodup, hrest, hdue⟩ := hsound
  have howes : ∀ listener, endpoints s.log listener =
      acceptors s.log listener + if p.listener = listener then 1 else 0 := fun listener => by
    have hbefore := h.balance listener
    rw [hreload] at hbefore
    exact hbefore
  have hbalance : ∀ listener, endpoints (s.log ++ [.wroteAcceptor p.listener]) listener =
      acceptors (s.log ++ [.wroteAcceptor p.listener]) listener +
        (Reload.writing .http3 p rest).owes listener := fun listener => by
    rw [endpoints_append, acceptors_append, acceptors_wroteAcceptor, howes]
    rfl
  refine ⟨h.origins_modify (fun entry hentry => ?_) fun listener hne => ?_, hbalance,
    h.grow rfl hbalance, ⟨hnodup, fun q hq => due_grow (hrest q hq) rfl, trivial⟩,
    fun _ _ _ hget => h.reading_grow _ hget, fun _ _ _ hget => h.served_grow _ hget⟩
  · rw [endpoints_append, acceptors_append, acceptors_wroteAcceptor, if_pos rfl]
    refine ⟨(h.origins _ entry hentry).1, ?_⟩
    have hself := howes p.listener
    rw [if_pos rfl] at hself
    exact hdue.trans hself
  · rw [endpoints_append, acceptors_append, acceptors_wroteAcceptor, if_neg (Ne.symm hne)]
    exact ⟨rfl, rfl⟩

theorem writeHttp3 (h : s.Sound) {p : Prepared σ α κ} {rest : List (Prepared σ α κ)}
    (hreload : s.reload = .writing .http3 p rest) :
    Sys.Sound { s with
      listeners := s.listeners.modify p.listener (·.writeHttp3 p)
      reload := .next rest } := by
  have hsound := h.reload
  rw [hreload] at hsound
  obtain ⟨hnodup, hrest, -⟩ := hsound
  have hnext : ∀ listener, (Reload.next rest).owes listener = 0 := fun listener => by
    cases rest <;> rfl
  refine ⟨h.origins_modify (fun entry hentry => ?_) fun listener _ => ⟨rfl, rfl⟩,
    fun listener => ?_, h.bounded, ?_, h.reading, h.served⟩
  · have hconfig : (entry.writeHttp3 p).configState = entry.configState := by
      unfold ListenerEntry.writeHttp3
      split <;> rfl
    rw [hconfig]
    exact h.origins _ entry hentry
  · have hbefore := h.balance listener
    rw [hreload] at hbefore
    dsimp only
    rw [hnext]
    exact hbefore
  · cases rest with
    | nil => trivial
    | cons q rest =>
        exact ⟨(List.nodup_cons.mp hnodup).2, fun q' hq' => hrest q' (List.mem_cons_of_mem _ hq'),
          hrest q List.mem_cons_self⟩

theorem write (h : s.Sound) (hwrite : s.write = some s') : s'.Sound := by
  unfold Sys.write at hwrite
  split at hwrite
  · cases hwrite
  · next hreload =>
    cases hwrite
    exact h.writeEndpointConfig hreload
  · next hreload =>
    cases hwrite
    exact h.writeTlsAcceptor hreload
  · next hreload =>
    cases hwrite
    exact h.writeHttp3 hreload

/-- A reload that begins has prepared the next configuration of each of its listeners. -/
theorem reload_begins (h : s.Sound) (hidle : s.reload = .idle) {b : Builders ρ σ α κ ε}
    {selected : Option (List Nat)} {cfg : Option (RouterConfig ρ)}
    {prepared : List (Prepared σ α κ)}
    (hprepared : selectAndPrepare b s.listeners selected cfg = .ok prepared) :
    Sys.Sound { s with reload := .next prepared } := by
  simp only [selectAndPrepare] at hprepared
  split at hprepared
  · cases hprepared
  next entries hentries =>
  obtain ⟨hnodup, hentry, -⟩ := selectEntries_spec hentries
  obtain ⟨hlisteners, hprepare⟩ := prepareAll_spec hprepared
  rw [← hlisteners] at hnodup
  have hdue : ∀ p ∈ prepared, p.Due s.log := fun p hp => by
    obtain ⟨entry, hmem, hp'⟩ := hprepare p hp
    obtain ⟨-, hnext, hacceptor⟩ := prepare_spec hp'
    rw [(h.origins _ entry (hentry _ hmem)).1] at hnext hacceptor
    exact ⟨hnext, hacceptor⟩
  refine ⟨h.origins, fun listener => ?_, h.bounded, ?_, h.reading, h.served⟩
  · have hbefore := h.balance listener
    rw [hidle] at hbefore
    cases prepared <;> exact hbefore
  · cases prepared with
    | nil => trivial
    | cons p rest =>
        exact ⟨hnodup, fun q hq => hdue q (List.mem_cons_of_mem _ hq), hdue p List.mem_cons_self⟩

theorem step (h : s.Sound) (hstep : s.step act = some s') : s'.Sound := by
  cases act with
  | reload b selected cfg =>
      simp only [Sys.step] at hstep
      split at hstep
      · cases hstep
      next hidle =>
      split at hstep
      · cases hstep
        exact h
      · next hprepared =>
        cases hstep
        exact h.reload_begins hidle hprepared
  | write => exact h.write hstep
  | readEndpoint connection listener => exact h.readEndpoint hstep
  | readAcceptor connection => exact h.readAcceptor hstep

end Sys.Sound

theorem sound_run (opened : LinkedMap Nat (Opening σ α κ)) (acts : List (Act ρ σ α κ ε)) :
    (run opened acts).Sound := by
  suffices h : ∀ s : Sys σ α κ, s.Sound → (acts.foldl Sys.perform s).Sound from
    h _ (sound_start opened)
  induction acts with
  | nil => exact fun s hs => hs
  | cons act acts ih =>
      intro s hs
      refine ih _ ?_
      rw [Sys.perform]
      cases hstep : s.step act with
      | none => exact hs
      | some s' => exact hs.step hstep

/-- The two reads of a connection give values of one configuration exactly where nothing but what
was owed comes between them. -/
theorem Sys.Sound.same_iff (h : s.Sound) {connection : Nat}
    {endpoint : Installed (EndpointRuntimeConfig σ)} {acceptor : Installed (Option α)}
    (hserved : s.served.get? connection = some (endpoint, acceptor)) :
    ∃ listener before between after,
      s.log = before ++ .readEndpoint connection listener ::
        (between ++ .readAcceptor connection listener :: after) ∧
      (endpoint.origin = acceptor.origin ↔ Undivided listener before between) := by
  obtain ⟨listener, before, between, after, hlog, hendpoint, hacceptor⟩ :=
    h.served connection endpoint acceptor hserved
  refine ⟨listener, before, between, after, hlog, ?_⟩
  have hle := (h.bounded before _ hlog listener).1
  rw [hendpoint, hacceptor, Undivided]
  omega

/-- **TLS reload.**  Reloads that fail change nothing, reloads that succeed change the selected
listeners, in one step or in many; and a connection is served with values of one configuration
exactly where its reads are undivided. -/
theorem tls_reload (opened : LinkedMap Nat (Opening σ α κ)) (acts : List (Act ρ σ α κ ε)) :
    (∀ (b : Builders ρ σ α κ ε) (listeners : Listeners σ α κ) selected cfg,
      (∀ e, (reloadTlsSelected b listeners selected cfg).1 = .error e →
        (reloadTlsSelected b listeners selected cfg).2 = listeners) ∧
      ∀ count, (reloadTlsSelected b listeners selected cfg).1 = .ok count → ∀ id,
        (¬ Selected listeners selected id →
          (reloadTlsSelected b listeners selected cfg).2.get? id = listeners.get? id) ∧
        (Selected listeners selected id → ∃ entry p, listeners.get? id = some entry ∧
          prepare b cfg id entry = .ok p ∧
          (reloadTlsSelected b listeners selected cfg).2.get? id = some (entry.update p))) ∧
    (∀ (act : Act ρ σ α κ ε) s', (run opened acts).step act = some s' →
      s'.settled = act.atOnce (run opened acts).settled) ∧
    (∀ connection endpoint acceptor,
      (run opened acts).served.get? connection = some (endpoint, acceptor) →
      ∃ listener before between after,
        (run opened acts).log = before ++ .readEndpoint connection listener ::
          (between ++ .readAcceptor connection listener :: after) ∧
        (endpoint.origin = acceptor.origin ↔ Undivided listener before between)) :=
  ⟨fun _ _ _ _ => ⟨fun _ h => reload_error h, fun _ h id => reload_ok h id⟩,
    fun _ _ h => settled_step h,
    fun _ _ _ h => (sound_run opened acts).same_iff h⟩

/-- A connection that reads the old endpoint configuration and, after a reload, the new acceptor. -/
theorem reload_between_reads :
    ((run
        ⟨[(1, ⟨false, none, none, ⟨"localhost", 443, .native, [], 0⟩, some 0⟩)], by decide⟩
        [.readEndpoint 9 1,
          .reload
            ({ tryFromEndpoint := fun e => .ok ⟨e.host, e.port, .native, [], e.rest⟩
               buildTlsAcceptor := fun c => .ok (some c.rest)
               buildHttp3ServerConfig := fun _ => .error (.routerConfigInvalid "") } :
              Builders Nat Nat Nat Empty Empty)
            none (some ⟨[⟨"localhost", 443, 1⟩]⟩),
          .write, .write, .readAcceptor 9]).served.get? 9).map
      (fun served => (served.1.value.rest, served.1.origin, served.2.value, served.2.origin)) =
    some (0, 0, some 1, 1) := by
  decide +kernel

end TlsReload

end Connectanum
