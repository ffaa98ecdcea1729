import Connectanum.Lib.Maps

/-!
# Native — TlsReload

`reload_tls_selected`: new TLS identities for running listeners.  All of them are built before the
first listener is touched; then each listener's endpoint configuration, its TLS acceptor and the
configuration of its QUIC endpoint are written one after the other.

How a runtime configuration, an acceptor and a QUIC configuration are built from an endpoint of the
router's configuration is a parameter here (`Builders`).
-/

namespace Connectanum

namespace Http1

/-- `to_ascii_lowercase`. -/
def lower (c : Char) : Char := if 65 ≤ c.toNat ∧ c.toNat ≤ 90 then Char.ofNat (c.toNat + 32) else c

def eqIgnoreAsciiCase (a b : List Char) : Bool := a.map lower == b.map lower

end Http1

namespace TlsReload

open Collections

inductive TlsMode where
  | disabled
  | native
  | dart
  deriving DecidableEq, Repr

inductive TransportProtocol where
  | rawsocket
  | websocket
  | mqtt
  | http
  | http2
  | http3
  deriving DecidableEq, Repr

def TlsMode.debug : TlsMode → String
  | disabled => "Disabled"
  | native => "Native"
  | dart => "Dart"

/-- `rest`: what only the builders read. -/
structure EndpointConfig (ρ : Type) where
  host : String
  port : Nat
  rest : ρ

structure RouterConfig (ρ : Type) where
  endpoints : List (EndpointConfig ρ)

structure EndpointRuntimeConfig (σ : Type) where
  host : String
  port : Nat
  tlsMode : TlsMode
  protocols : List TransportProtocol
  rest : σ

def EndpointRuntimeConfig.supportsProtocol {σ : Type} (c : EndpointRuntimeConfig σ)
    (protocol : TransportProtocol) : Bool :=
  c.protocols.contains protocol

inductive Error (ε : Type) where
  | listenerNotFound (id : Nat)
  | endpointNotConfigured (host : String) (port : Nat)
  | routerConfigInvalid (message : String)
  | other (e : ε)
  deriving DecidableEq, Repr

variable {ρ σ α κ ε : Type}

/-- `try_from_endpoint`, `build_tls_acceptor` and `build_http3_server_config`. -/
structure Builders (ρ σ α κ ε : Type) where
  tryFromEndpoint : EndpointConfig ρ → Except (Error ε) (EndpointRuntimeConfig σ)
  buildTlsAcceptor : EndpointRuntimeConfig σ → Except (Error ε) (Option α)
  buildHttp3ServerConfig : EndpointRuntimeConfig σ → Except (Error ε) κ

/-! ### Listeners -/

/-- `origin` is not in the code: it numbers the configurations of a listener, to tell which of
them a value was built from. -/
structure Installed (β : Type) where
  value : β
  origin : Nat
  deriving DecidableEq, Repr

structure ListenerConfigState (σ α : Type) where
  endpointConfig : Installed (EndpointRuntimeConfig σ)
  tlsAcceptor : Installed (Option α)

def ListenerConfigState.new (endpointConfig : EndpointRuntimeConfig σ) (tlsAcceptor : Option α) :
    ListenerConfigState σ α :=
  ⟨⟨endpointConfig, 0⟩, ⟨tlsAcceptor, 0⟩⟩

/-- `http3Endpoint`: the server configuration of the QUIC endpoint, where there is one. -/
structure ListenerEntry (σ α κ : Type) where
  routerScoped : Bool
  configuredEndpointIndex : Option Nat
  http3Endpoint : Option κ
  configState : ListenerConfigState σ α

abbrev Listeners (σ α κ : Type) := LinkedMap Nat (ListenerEntry σ α κ)

/-! ### The endpoint of a listener -/

def EndpointConfig.isAt (endpoint : EndpointConfig ρ) (host : String) (port : Nat) : Bool :=
  Http1.eqIgnoreAsciiCase endpoint.host.toList host.toList && endpoint.port == port

def findEndpointIn (cfg : RouterConfig ρ) (host : String) (port : Nat) :
    Option (EndpointConfig ρ) :=
  match cfg.endpoints.filter (·.isAt host port) with
  | [] => none
  | [endpoint] => some endpoint
  -- An address alone cannot tell separately configured ephemeral sockets apart.
  | _ :: _ :: _ => none

def findEndpointAtIn (cfg : RouterConfig ρ) (index : Nat) (host : String) (port : Nat) :
    Option (EndpointConfig ρ) :=
  match cfg.endpoints[index]? with
  | none => none
  | some endpoint => if endpoint.isAt host port then some endpoint else none

/-! ### Preparation -/

structure Prepared (σ α κ : Type) where
  listener : Nat
  next : Installed (EndpointRuntimeConfig σ)
  tlsAcceptor : Installed (Option α)
  http3 : Option κ

/-- The `Debug` of a `ListenerId`. -/
def debugId (id : Nat) : String := "ListenerId(" ++ toString id ++ ")"

def tlsModeChanged (id : Nat) (current next : TlsMode) : Error ε :=
  .routerConfigInvalid ("listener " ++ debugId id ++ " tls_mode changed (" ++ current.debug ++
    " -> " ++ next.debug ++ "); restart required")

def http3Changed (id : Nat) : Error ε :=
  .routerConfigInvalid ("listener " ++ debugId id ++ " http3 enablement changed; restart required")

def http3Missing (id : Nat) : Error ε :=
  .routerConfigInvalid ("listener " ++ debugId id ++ " missing http3 endpoint during reload")

def duplicateListener : Error ε := .routerConfigInvalid "duplicate listener id"

def notRouterScoped : Error ε :=
  .routerConfigInvalid "scoped reload requires router-scoped listeners"

def selectIds (listeners : Listeners σ α κ) (seen : List Nat) :
    List Nat → Except (Error ε) (List (Nat × ListenerEntry σ α κ))
  | [] => .ok []
  | id :: ids =>
      if id ∈ seen then .error duplicateListener
      else
        match listeners.get? id with
        | none => .error (.listenerNotFound id)
        | some entry =>
            if !entry.routerScoped then .error notRouterScoped
            else
              match selectIds listeners (id :: seen) ids with
              | .error e => .error e
              | .ok entries => .ok ((id, entry) :: entries)

def selectEntries (listeners : Listeners σ α κ) :
    Option (List Nat) → Except (Error ε) (List (Nat × ListenerEntry σ α κ))
  | some ids => selectIds listeners [] ids
  | none => .ok (listeners.entries.filter fun e => !e.2.routerScoped)

def prepareHttp3 (b : Builders ρ σ α κ ε) (id : Nat) (entry : ListenerEntry σ α κ)
    (next : EndpointRuntimeConfig σ) (currentHttp3 : Bool) : Except (Error ε) (Option κ) :=
  if currentHttp3 then
    match entry.http3Endpoint with
    | none => .error (http3Missing id)
    | some _ =>
        match b.buildHttp3ServerConfig next with
        | .error e => .error e
        | .ok serverConfig => .ok (some serverConfig)
  else .ok none

/-- The body of the loop that builds the identities. -/
def prepare (b : Builders ρ σ α κ ε) (cfg : Option (RouterConfig ρ)) (id : Nat)
    (entry : ListenerEntry σ α κ) : Except (Error ε) (Prepared σ α κ) :=
  let current := entry.configState.endpointConfig.value
  let endpointCfg := cfg.bind fun cfg =>
    match entry.configuredEndpointIndex with
    | some index => findEndpointAtIn cfg index current.host current.port
    | none => findEndpointIn cfg current.host current.port
  match endpointCfg with
  | none => .error (.endpointNotConfigured current.host current.port)
  | some endpointCfg =>
  match b.tryFromEndpoint endpointCfg with
  | .error e => .error e
  | .ok next =>
  if next.tlsMode ≠ current.tlsMode then .error (tlsModeChanged id current.tlsMode next.tlsMode)
  else
  let currentHttp3 := current.supportsProtocol .http3
  let nextHttp3 := next.supportsProtocol .http3
  if currentHttp3 ≠ nextHttp3 then .error (http3Changed id)
  else
  match b.buildTlsAcceptor next with
  | .error e => .error e
  | .ok tlsAcceptor =>
  match prepareHttp3 b id entry next currentHttp3 with
  | .error e => .error e
  | .ok http3 =>
      let origin := entry.configState.endpointConfig.origin + 1
      .ok ⟨id, ⟨next, origin⟩, ⟨tlsAcceptor, origin⟩, http3⟩

def prepareAll (b : Builders ρ σ α κ ε) (cfg : Option (RouterConfig ρ)) :
    List (Nat × ListenerEntry σ α κ) → Except (Error ε) (List (Prepared σ α κ))
  | [] => .ok []
  | (id, entry) :: entries =>
      match prepare b cfg id entry with
      | .error e => .error e
      | .ok p =>
          match prepareAll b cfg entries with
          | .error e => .error e
          | .ok prepared => .ok (p :: prepared)

def selectAndPrepare (b : Builders ρ σ α κ ε) (listeners : Listeners σ α κ)
    (selected : Option (List Nat)) (cfg : Option (RouterConfig ρ)) :
    Except (Error ε) (List (Prepared σ α κ)) :=
  match selectEntries listeners selected with
  | .error e => .error e
  | .ok entries => prepareAll b cfg entries

/-! ### Installation -/

namespace ListenerEntry

def writeEndpointConfig (p : Prepared σ α κ) (entry : ListenerEntry σ α κ) : ListenerEntry σ α κ :=
  { entry with configState := { entry.configState with endpointConfig := p.next } }

def writeTlsAcceptor (p : Prepared σ α κ) (entry : ListenerEntry σ α κ) : ListenerEntry σ α κ :=
  { entry with configState := { entry.configState with tlsAcceptor := p.tlsAcceptor } }

/-- `set_server_config`. -/
def writeHttp3 (p : Prepared σ α κ) (entry : ListenerEntry σ α κ) : ListenerEntry σ α κ :=
  match p.http3 with
  | none => entry
  | some serverConfig => { entry with http3Endpoint := entry.http3Endpoint.map fun _ => serverConfig }

/-- All that a reload writes. -/
def update (p : Prepared σ α κ) (entry : ListenerEntry σ α κ) : ListenerEntry σ α κ :=
  ((entry.writeEndpointConfig p).writeTlsAcceptor p).writeHttp3 p

end ListenerEntry

def installAll (listeners : Listeners σ α κ) : List (Prepared σ α κ) → Listeners σ α κ
  | [] => listeners
  | p :: prepared => installAll (listeners.modify p.listener (·.update p)) prepared

/-- `reload_tls_selected`: how many listeners it has reloaded, and what is left of them. -/
def reloadTlsSelected (b : Builders ρ σ α κ ε) (listeners : Listeners σ α κ)
    (selected : Option (List Nat)) (cfg : Option (RouterConfig ρ)) :
    Except (Error ε) UInt32 × Listeners σ α κ :=
  match selectAndPrepare b listeners selected cfg with
  | .error e => (.error e, listeners)
  | .ok prepared => (.ok (UInt32.ofNat prepared.length), installAll listeners prepared)

/-! ### What a reload changes -/

/-- The listeners that a reload is about. -/
def Selected (listeners : Listeners σ α κ) (selected : Option (List Nat)) (id : Nat) : Prop :=
  match selected with
  | some ids => id ∈ ids
  | none => ∃ entry, listeners.get? id = some entry ∧ entry.routerScoped = false

variable {b : Builders ρ σ α κ ε} {listeners : Listeners σ α κ} {selected : Option (List Nat)}
  {cfg : Option (RouterConfig ρ)} {entries : List (Nat × ListenerEntry σ α κ)}
  {prepared : List (Prepared σ α κ)}

/-- The entries of a list of ids: each once, and each as it stands in the registry. -/
theorem selectIds_spec {seen ids : List Nat}
    (h : selectIds (ε := ε) listeners seen ids = .ok entries) :
    entries.map Prod.fst = ids ∧ ids.Nodup ∧ (∀ id ∈ ids, id ∉ seen) ∧
      ∀ e ∈ entries, listeners.get? e.1 = some e.2 := by
  induction ids generalizing seen entries with
  | nil =>
      cases h
      exact ⟨rfl, .nil, nofun, nofun⟩
  | cons id ids ih =>
      simp only [selectIds] at h
      split at h
      · cases h
      next hseen =>
      split at h
      · cases h
      next entry hentry =>
      split at h
      · cases h
      split at h
      · cases h
      next rest hrest =>
      cases h
      obtain ⟨hfst, hnodup, hfresh, hentries⟩ := ih hrest
      refine ⟨?_, ?_, ?_, ?_⟩
      · rw [List.map_cons, hfst]
      · exact List.nodup_cons.mpr ⟨fun hid => hfresh id hid List.mem_cons_self, hnodup⟩
      · intro id' hid'
        rcases List.mem_cons.mp hid' with rfl | hid'
        · exact hseen
        · exact fun hold => hfresh id' hid' (List.mem_cons_of_mem _ hold)
      · intro e he
        rcases List.mem_cons.mp he with rfl | he
        · exact hentry
        · exact hentries e he

/-- **The entries of a reload are those of the selected listeners**, each once. -/
theorem selectEntries_spec (h : selectEntries (ε := ε) listeners selected = .ok entries) :
    (entries.map Prod.fst).Nodup ∧ (∀ e ∈ entries, listeners.get? e.1 = some e.2) ∧
      ∀ id, id ∈ entries.map Prod.fst ↔ Selected listeners selected id := by
  cases selected with
  | some ids =>
      obtain ⟨hfst, hnodup, -, hentries⟩ := selectIds_spec h
      rw [hfst]
      exact ⟨hnodup, hentries, fun id => Iff.rfl⟩
  | none =>
      cases h
      refine ⟨listeners.nodup.sublist (List.filter_sublist.map _), fun e he => ?_, fun id => ?_⟩
      · exact LinkedMap.mem_entries.mp (List.mem_of_mem_filter he)
      · simp only [Selected, List.mem_map, List.mem_filter, Bool.not_eq_true']
        constructor
        · rintro ⟨e, ⟨he, hscoped⟩, rfl⟩
          exact ⟨e.2, LinkedMap.mem_entries.mp he, hscoped⟩
        · rintro ⟨entry, hentry, hscoped⟩
          exact ⟨(id, entry), ⟨LinkedMap.mem_entries.mpr hentry, hscoped⟩, rfl⟩

/-- What is prepared for a listener carries its id, and the number of its next configuration. -/
theorem prepare_spec {id : Nat} {entry : ListenerEntry σ α κ} {p : Prepared σ α κ}
    (h : prepare b cfg id entry = .ok p) :
    p.listener = id ∧ p.next.origin = entry.configState.endpointConfig.origin + 1 ∧
      p.tlsAcceptor.origin = entry.configState.endpointConfig.origin + 1 := by
  simp only [prepare] at h
  split at h
  · cases h
  split at h
  · cases h
  split at h
  · cases h
  split at h
  · cases h
  split at h
  · cases h
  split at h
  · cases h
  cases h
  exact ⟨rfl, rfl, rfl⟩

theorem prepareAll_spec (h : prepareAll b cfg entries = .ok prepared) :
    prepared.map (·.listener) = entries.map Prod.fst ∧
      ∀ p ∈ prepared, ∃ entry, (p.listener, entry) ∈ entries ∧
        prepare b cfg p.listener entry = .ok p := by
  induction entries generalizing prepared with
  | nil =>
      cases h
      exact ⟨rfl, nofun⟩
  | cons e entries ih =>
      obtain ⟨id, entry⟩ := e
      simp only [prepareAll] at h
      split at h
      · cases h
      next p hp =>
      split at h
      · cases h
      next rest hrest =>
      cases h
      obtain ⟨hlisteners, hrest⟩ := ih hrest
      obtain ⟨hid, -⟩ := prepare_spec hp
      refine ⟨?_, fun p' hp' => ?_⟩
      · rw [List.map_cons, List.map_cons, hlisteners, hid]
      · rcases List.mem_cons.mp hp' with rfl | hp'
        · refine ⟨entry, ?_, ?_⟩
          · rw [hid]
            exact List.mem_cons_self
          · rw [hid]
            exact hp
        · obtain ⟨entry', hmem, hprepare⟩ := hrest p' hp'
          exact ⟨entry', List.mem_cons_of_mem _ hmem, hprepare⟩

/-- A listener for which nothing was prepared. -/
theorem get?_installAll_of_not_mem {id : Nat} (h : id ∉ prepared.map (·.listener)) :
    (installAll listeners prepared).get? id = listeners.get? id := by
  induction prepared generalizing listeners with
  | nil => rfl
  | cons p prepared ih =>
      rw [List.map_cons, List.mem_cons, not_or] at h
      rw [installAll, ih h.2, LinkedMap.get?_modify, if_neg h.1]

theorem get?_installAll {p : Prepared σ α κ} (hnodup : (prepared.map (·.listener)).Nodup)
    (hp : p ∈ prepared) :
    (installAll listeners prepared).get? p.listener =
      (listeners.get? p.listener).map (·.update p) := by
  induction prepared generalizing listeners with
  | nil => cases hp
  | cons p' prepared ih =>
      rw [List.map_cons, List.nodup_cons] at hnodup
      rw [installAll]
      rcases List.mem_cons.mp hp with rfl | hp
      · rw [get?_installAll_of_not_mem hnodup.1, LinkedMap.get?_modify, if_pos rfl]
      · have hne : p.listener ≠ p'.listener := fun heq =>
          hnodup.1 (heq ▸ List.mem_map_of_mem hp)
        rw [ih hnodup.2 hp, LinkedMap.get?_modify, if_neg hne]

/-- A reload that fails changes nothing. -/
theorem reload_error {e : Error ε} (h : (reloadTlsSelected b listeners selected cfg).1 = .error e) :
    (reloadTlsSelected b listeners selected cfg).2 = listeners := by
  unfold reloadTlsSelected at h ⊢
  split
  · rfl
  · next hprepared =>
    rw [hprepared] at h
    cases h

/-- A reload that succeeds changes the selected listeners, each to what was prepared for it, and no
other one. -/
theorem reload_ok {count : UInt32}
    (h : (reloadTlsSelected b listeners selected cfg).1 = .ok count) (id : Nat) :
    (¬ Selected listeners selected id →
        (reloadTlsSelected b listeners selected cfg).2.get? id = listeners.get? id) ∧
      (Selected listeners selected id → ∃ entry p, listeners.get? id = some entry ∧
        prepare b cfg id entry = .ok p ∧
        (reloadTlsSelected b listeners selected cfg).2.get? id = some (entry.update p)) := by
  unfold reloadTlsSelected at h ⊢
  cases hprepared : selectAndPrepare b listeners selected cfg with
  | error e =>
      rw [hprepared] at h
      cases h
  | ok prepared =>
      simp only [selectAndPrepare] at hprepared
      split at hprepared
      · cases hprepared
      next entries hentries =>
      obtain ⟨hnodup, hentry, hselected⟩ := selectEntries_spec hentries
      obtain ⟨hlisteners, hprepare⟩ := prepareAll_spec hprepared
      dsimp only
      rw [← hselected, ← hlisteners]
      refine ⟨get?_installAll_of_not_mem, fun hid => ?_⟩
      obtain ⟨p, hp, rfl⟩ := List.mem_map.mp hid
      obtain ⟨entry, hmem, hp'⟩ := hprepare p hp
      refine ⟨entry, p, hentry _ hmem, hp', ?_⟩
      rw [← hlisteners] at hnodup
      rw [get?_installAll hnodup hp, hentry _ hmem]
      rfl

end TlsReload

end Connectanum
