import Connectanum.Lib.Maps
import Connectanum.Lib.Runs
import Connectanum.Mqtt.Framing
import Connectanum.Mqtt.TopicFilters

/-!
# Mqtt — Broker

The QoS 0 broker: its peers, their filters, and whom it gives a publication.

`_deliver` encodes a publication when the first peer of a version needs it, and an encoding that fails
ends the loop.  What a peer of MQTT 3.1.1 may send can be too long for one of MQTT 5, whose packets
have one more byte (`oversized_for_v5`); but for that, the peers with a matching filter are given it
once each, and no others (`mqtt_delivery_set`).

What bounds the queues of a peer is left out: a peer whose queue overflows is closed.
-/

namespace Connectanum

namespace Mqtt

open Collections Machine
open Wamp (Bytes)

inductive MqttVersion where
  | v311
  | v5
  deriving DecidableEq

/-! ### Packets -/

/-- `_validateTopic`. -/
def validTopic (topic : String) : Bool :=
  !(topic.isEmpty || topic.toList.contains '+' || topic.toList.contains '#')

def maxPacketSize : Nat := 1024 * 1024

def publishBodyLength (version : MqttVersion) (topic : String) (payload : Bytes) : Nat :=
  2 + (Utf8.encode topic).length + (if version = .v5 then 1 else 0) + payload.length

/-- `MqttPacketCodec.encodePublish`. -/
def encodePublish (version : MqttVersion) (topic : String) (payload : Bytes)
    (retain : Bool := false) : Except String Bytes :=
  if !validTopic topic then .error "invalid PUBLISH topic"
  else if (Utf8.encode topic).length > 65535 then .error "16-bit field out of range"
  else
    match encodeMqttVariableByteInteger (publishBodyLength version topic payload) with
    | .error message => .error message
    | .ok lengthBytes =>
        if 1 + lengthBytes.length + publishBodyLength version topic payload > maxPacketSize then
          .error "packet exceeds configured size limit"
        else
          .ok ((if retain then 0x31 else 0x30) :: lengthBytes ++
            [UInt8.ofNat ((Utf8.encode topic).length / 256),
              UInt8.ofNat ((Utf8.encode topic).length % 256)] ++
            Utf8.encode topic ++ (if version = .v5 then [0] else []) ++ payload)

/-- The size of the packet. -/
def publishSize (version : MqttVersion) (topic : String) (payload : Bytes) : Nat :=
  1 + (variableByteInteger (publishBodyLength version topic payload)).length +
    publishBodyLength version topic payload

theorem encodePublish_isOk_iff {version : MqttVersion} {topic : String} {payload : Bytes}
    (htopic : validTopic topic = true) (hshort : (Utf8.encode topic).length ≤ 65535) :
    (∃ encoded, encodePublish version topic payload = .ok encoded) ↔
      publishSize version topic payload ≤ maxPacketSize := by
  have hbody : maxPacketSize ≤ maxRemainingLength := by decide
  simp only [encodePublish, htopic, publishSize, encodeMqttVariableByteInteger, Bool.not_true,
    Bool.false_eq_true, if_false, if_neg (Nat.not_lt.mpr hshort)]
  by_cases hmax : publishBodyLength version topic payload > maxRemainingLength
  · rw [if_pos hmax]
    constructor
    · rintro ⟨_, h⟩
      cases h
    · intro h
      omega
  · rw [if_neg hmax]
    dsimp only
    split
    · next hsize =>
      constructor
      · rintro ⟨_, h⟩
        cases h
      · intro h
        omega
    · next hsize => exact ⟨fun _ => Nat.not_lt.mp hsize, fun _ => ⟨_, rfl⟩⟩

/-- A packet that the codec has decoded; `unsupported` for any other, and for one that it refuses. -/
inductive Packet where
  | connect (version : MqttVersion) (credentials : Bool)
  | publish (topic : MqttString) (payload : Bytes) (retain : Bool)
  | subscribe (filters : List MqttString)
  | pingreq (emptyBody : Bool)
  | disconnect
  | unsupported

/-! ### The broker -/

/-- `_Peer`. -/
structure Peer where
  realm : Option String
  version : Option MqttVersion := none
  connected : Bool := false
  /-- A set in its insertion order. -/
  filters : List MqttString := []

/-- The version that a publication to the peer is encoded for. -/
def Peer.encoding (peer : Peer) : MqttVersion := if peer.version = some .v5 then .v5 else .v311

/-- `filters.add`. -/
def addFilter (filters : List MqttString) (filter : MqttString) : List MqttString :=
  if filters.any (·.text == filter.text) then filters else filters ++ [filter]

structure GatewayPolicy where
  id : Nat
  isClosed : Bool := false
  deriving DecidableEq

structure MqttQos0Broker where
  /-- `_peers`, by an identity that is given at the attachment. -/
  peers : LinkedMap Nat Peer := .empty
  attached : Nat := 0
  gateways : LinkedMap String GatewayPolicy := .empty

/-- A peer is given a publication: `_queuePublish`, or a task of the gateway that asks its policy. -/
structure Given where
  peer : Nat
  encoded : Bytes
  gateway : Option GatewayPolicy

namespace MqttQos0Broker

/-- `_gateways[realm]`. -/
def gateway (b : MqttQos0Broker) (realm : Option String) : Option GatewayPolicy :=
  realm.bind b.gateways.get?

/-- Whether `_deliver` goes on with the peer. -/
def wants (realm : Option String) (topic : String) (peer : Peer) : Bool :=
  peer.connected && peer.realm == realm && peer.filters.any fun f => topicMatches f.text topic

/-- The loop of `_deliver`: whom it gives the publication, and the exception that ends it.  The two
encodings are made once each. -/
def deliverTo (gateway : Option GatewayPolicy) (realm : Option String) (topic : String)
    (payload : Bytes) : List (Nat × Peer) → List Given × Option String
  | [] => ([], none)
  | (id, peer) :: rest =>
      if !wants realm topic peer then deliverTo gateway realm topic payload rest
      else
        match encodePublish peer.encoding topic payload with
        | .error message => ([], some message)
        | .ok encoded =>
            let r := deliverTo gateway realm topic payload rest
            (⟨id, encoded, gateway⟩ :: r.1, r.2)

/-- `_deliver`. -/
def deliver (b : MqttQos0Broker) (realm : Option String) (topic : String) (payload : Bytes) :
    List Given × Option String :=
  deliverTo (b.gateway realm) realm topic payload b.peers.entries

def setPeer (b : MqttQos0Broker) (id : Nat) (peer : Peer) : MqttQos0Broker :=
  { b with peers := b.peers.insert id peer }

/-- `_close`, for whatever reason. -/
def close (b : MqttQos0Broker) (id : Nat) : MqttQos0Broker := { b with peers := b.peers.erase id }

/-- `_publish`; the exception closes the sender. -/
def publish (b : MqttQos0Broker) (id : Nat) (sender : Peer) (topic : String) (payload : Bytes) :
    MqttQos0Broker :=
  match (b.deliver sender.realm topic payload).2 with
  | none => b
  | some _ => b.close id

/-- The loop over the filters of a SUBSCRIBE. -/
def subscribe (peer : Peer) (filters : List MqttString) : Peer :=
  { peer with
    filters := filters.foldl
      (fun accepted f => if validFilter f.text then addFilter accepted f else accepted)
      peer.filters }

/-- `_handle`, and the exceptions that close the peer. -/
def handle (b : MqttQos0Broker) (id : Nat) (peer : Peer) (packet : Packet) : MqttQos0Broker :=
  if !peer.connected then
    match packet with
    | .connect version credentials =>
        if credentials then b.close id
        else b.setPeer id { peer with version := some version, connected := true }
    | _ => b.close id
  else
    match packet with
    | .publish topic payload retain =>
        if retain then b.close id else b.publish id peer topic.text payload
    | .subscribe filters => b.setPeer id (subscribe peer filters)
    | .pingreq true => b
    | .pingreq false | .disconnect | .connect .. | .unsupported => b.close id

/-- `closeRealm`. -/
def closeRealm (b : MqttQos0Broker) (realm : String) : MqttQos0Broker :=
  { b with peers := b.peers.filter fun _ peer => peer.realm != some realm }

/-- `installGateway`. -/
def installGateway (b : MqttQos0Broker) (realm : String) (id : Nat) : MqttQos0Broker :=
  if realm.isEmpty || (b.gateways.get? realm).any fun p => !p.isClosed then b
  else { b with gateways := b.gateways.insert realm ⟨id, false⟩ }.closeRealm realm

/-- What happens to the broker; the answers of a gateway's policy come in any order. -/
inductive Event where
  | attached (realm : Option String)
  /-- `_handle`, of a frame that does not go through a gateway or that its policy is not asked of. -/
  | handled (peer : Nat) (packet : Packet)
  /-- A PUBLISH in a gateway, with the answer of the policy. -/
  | gatewayPublish (peer : Nat) (topic : MqttString) (payload : Bytes) (retain allowed : Bool)
  /-- One round of the loop over the filters of a SUBSCRIBE in a gateway. -/
  | gatewayFilter (peer : Nat) (filter : MqttString) (allowed : Bool)
  | gatewayInstalled (realm : String) (policy : Nat)
  | gatewayClosed (realm : String)
  /-- `publishFromGateway`. -/
  | published (realm : String) (policy : Nat) (topic : MqttString) (payload : Bytes)
  | closed (peer : Nat)

/-- An operation on a peer that is still there. -/
def onPeer (b : MqttQos0Broker) (id : Nat) (f : Peer → MqttQos0Broker) : MqttQos0Broker :=
  match b.peers.get? id with
  | none => b
  | some peer => f peer

def step (b : MqttQos0Broker) : Event → MqttQos0Broker
  | .attached realm =>
      { b with peers := b.peers.insert b.attached { realm }, attached := b.attached + 1 }
  | .handled id packet => b.onPeer id fun peer => b.handle id peer packet
  | .gatewayPublish id topic payload retain allowed =>
      b.onPeer id fun peer =>
        if retain || !allowed then b.close id else b.publish id peer topic.text payload
  | .gatewayFilter id filter allowed =>
      b.onPeer id fun peer =>
        if validFilter filter.text && allowed then
          b.setPeer id { peer with filters := addFilter peer.filters filter }
        else b
  | .gatewayInstalled realm policy => b.installGateway realm policy
  | .gatewayClosed realm =>
      { b with gateways := b.gateways.modify realm fun p => { p with isClosed := true } }
  | .published .. => b
  | .closed id => b.close id

/-- The PUBLISH is one packet of the peer's version. -/
def Sendable (peer : Peer) (topic : MqttString) (payload : Bytes) : Prop :=
  validTopic topic.text = true ∧ publishSize peer.encoding topic.text payload ≤ maxPacketSize

/-- What can happen: a connected peer in a gateway has its PUBLISH and SUBSCRIBE answered by the
policy, the packets have passed the frame decoder, and a gateway checks its own publications. -/
def ok (b : MqttQos0Broker) : Event → Prop
  | .handled id packet =>
      ∃ peer, b.peers.get? id = some peer ∧
        match packet with
        | .publish topic payload _ =>
            peer.connected = true → b.gateway peer.realm = none ∧ Sendable peer topic payload
        | .subscribe _ => peer.connected = true → b.gateway peer.realm = none
        | _ => True
  | .gatewayPublish id topic payload _ _ =>
      ∃ peer, b.peers.get? id = some peer ∧ peer.connected = true ∧
        (b.gateway peer.realm).isSome = true ∧ Sendable peer topic payload
  | .gatewayFilter id _ _ =>
      ∃ peer, b.peers.get? id = some peer ∧ peer.connected = true ∧
        (b.gateway peer.realm).isSome = true
  | .published realm policy topic payload =>
      b.gateways.get? realm = some ⟨policy, false⟩ ∧ validTopic topic.text = true ∧
        publishSize .v5 topic.text payload ≤ maxPacketSize
  | _ => True

/-! ### Whom a publication is given -/

section
variable {b b' : MqttQos0Broker} {realm : Option String} {topic : String} {payload : Bytes}
  {gateway : Option GatewayPolicy} {entries : List (Nat × Peer)}

/-- Who is given it wants it, and is given it as its version has it. -/
theorem mem_deliverTo {g : Given} (h : g ∈ (deliverTo gateway realm topic payload entries).1) :
    ∃ peer, (g.peer, peer) ∈ entries ∧ wants realm topic peer = true ∧
      encodePublish peer.encoding topic payload = .ok g.encoded := by
  induction entries with
  | nil => cases h
  | cons entry rest ih =>
      obtain ⟨id, peer⟩ := entry
      have hothers : g ∈ (deliverTo gateway realm topic payload rest).1 →
          ∃ peer', (g.peer, peer') ∈ (id, peer) :: rest ∧ wants realm topic peer' = true ∧
            encodePublish peer'.encoding topic payload = .ok g.encoded := by
        intro hg
        obtain ⟨peer', hmem, hrest⟩ := ih hg
        exact ⟨peer', List.mem_cons_of_mem _ hmem, hrest⟩
      rw [deliverTo] at h
      split at h
      · exact hothers h
      · next hwants =>
        split at h
        · cases h
        · next encoded hencoded =>
          rcases List.mem_cons.mp h with rfl | h
          · exact ⟨peer, List.mem_cons_self, by simpa using hwants, hencoded⟩
          · exact hothers h

/-- The loop goes over the peers once. -/
theorem deliverTo_sublist :
    ((deliverTo gateway realm topic payload entries).1.map (·.peer)).Sublist
      (entries.map Prod.fst) := by
  induction entries with
  | nil => exact List.Sublist.slnil
  | cons entry rest ih =>
      obtain ⟨id, peer⟩ := entry
      rw [deliverTo]
      split
      · exact ih.cons _
      · split
        · exact List.nil_sublist _
        · exact ih.cons_cons _

/-- Without an exception, all who want it are given it. -/
theorem deliverTo_complete
    (hfits : ∀ e ∈ entries, wants realm topic e.2 = true →
      ∃ encoded, encodePublish e.2.encoding topic payload = .ok encoded)
    {id : Nat} {peer : Peer} (hmem : (id, peer) ∈ entries)
    (hwants : wants realm topic peer = true) :
    id ∈ (deliverTo gateway realm topic payload entries).1.map (·.peer) := by
  induction entries with
  | nil => cases hmem
  | cons entry rest ih =>
      obtain ⟨id', peer'⟩ := entry
      have hrest := ih fun e he => hfits e (List.mem_cons_of_mem _ he)
      rw [deliverTo]
      split
      · next hskip =>
        rcases List.mem_cons.mp hmem with heq | hmem
        · obtain ⟨rfl, rfl⟩ := Prod.mk.inj heq
          rw [hwants] at hskip
          cases hskip
        · exact hrest hmem
      · next hnext =>
        obtain ⟨encoded, hencoded⟩ := hfits _ List.mem_cons_self (by simpa using hnext)
        rw [hencoded]
        rcases List.mem_cons.mp hmem with heq | hmem
        · obtain ⟨rfl, rfl⟩ := Prod.mk.inj heq
          exact List.mem_cons_self
        · exact List.mem_cons_of_mem _ (hrest hmem)

/-! ### Reachable brokers -/

/-- Every filter of a peer was accepted. -/
def Accepted (b : MqttQos0Broker) : Prop :=
  ∀ id peer, b.peers.get? id = some peer → ∀ f ∈ peer.filters, validFilter f.text = true

theorem accepted_of_get? (h : Accepted b)
    (hsub : ∀ id peer, b'.peers.get? id = some peer → b.peers.get? id = some peer) :
    Accepted b' :=
  fun id peer hp => h id peer (hsub id peer hp)

theorem Accepted.close (h : Accepted b) (id : Nat) : Accepted (b.close id) := by
  refine accepted_of_get? h fun id' peer hp => ?_
  rw [MqttQos0Broker.close, LinkedMap.get?_erase] at hp
  split at hp
  · cases hp
  · exact hp

theorem Accepted.setPeer (h : Accepted b) (id : Nat) {peer : Peer}
    (hpeer : ∀ f ∈ peer.filters, validFilter f.text = true) : Accepted (b.setPeer id peer) := by
  intro id' peer' hp
  rw [MqttQos0Broker.setPeer, LinkedMap.get?_insert] at hp
  split at hp
  · obtain rfl := Option.some.inj hp
    exact hpeer
  · exact h id' peer' hp

theorem Accepted.publish (h : Accepted b) (id : Nat) (sender : Peer) (topic : String)
    (payload : Bytes) : Accepted (b.publish id sender topic payload) := by
  rw [MqttQos0Broker.publish]
  split
  · exact h
  · exact h.close id

theorem mem_addFilter {filters : List MqttString} {filter f : MqttString}
    (h : f ∈ addFilter filters filter) : f ∈ filters ∨ f = filter := by
  rw [addFilter] at h
  split at h
  · exact .inl h
  · rcases List.mem_append.mp h with h | h
    · exact .inl h
    · exact .inr (List.mem_singleton.mp h)

theorem subscribe_accepted {peer : Peer} (h : ∀ f ∈ peer.filters, validFilter f.text = true)
    (filters : List MqttString) :
    ∀ f ∈ (subscribe peer filters).filters, validFilter f.text = true := by
  rw [subscribe]
  generalize peer.filters = accepted at h
  induction filters generalizing accepted with
  | nil => exact h
  | cons filter rest ih =>
      rw [List.foldl_cons]
      refine ih _ ?_
      split
      · next hvalid =>
        intro f hf
        rcases mem_addFilter hf with hf | rfl
        · exact h f hf
        · exact hvalid
      · exact h

theorem Accepted.handle (h : Accepted b) {id : Nat} {peer : Peer}
    (hp : b.peers.get? id = some peer) (packet : Packet) : Accepted (b.handle id peer packet) := by
  rw [MqttQos0Broker.handle.eq_def]
  split
  · cases packet with
    | connect version credentials =>
        dsimp only
        split
        · exact h.close id
        · exact h.setPeer id (h id peer hp)
    | publish => exact h.close id
    | subscribe => exact h.close id
    | pingreq => exact h.close id
    | disconnect => exact h.close id
    | unsupported => exact h.close id
  · cases packet with
    | connect => exact h.close id
    | publish topic payload retain =>
        dsimp only
        split
        · exact h.close id
        · exact h.publish id peer topic.text payload
    | subscribe filters => exact h.setPeer id (subscribe_accepted (h id peer hp) filters)
    | pingreq emptyBody =>
        cases emptyBody with
        | true => exact h
        | false => exact h.close id
    | disconnect => exact h.close id
    | unsupported => exact h.close id

theorem Accepted.onPeer (h : Accepted b) {id : Nat} {f : Peer → MqttQos0Broker}
    (hf : ∀ peer, b.peers.get? id = some peer → Accepted (f peer)) : Accepted (b.onPeer id f) := by
  rw [MqttQos0Broker.onPeer]
  split
  · exact h
  · next peer hp => exact hf peer hp

/-- **A step** keeps the filters accepted. -/
theorem Accepted.step (h : Accepted b) (e : Event) : Accepted (b.step e) := by
  cases e with
  | attached realm => exact h.setPeer b.attached fun f hf => nomatch hf
  | handled id packet => exact h.onPeer fun peer hp => h.handle hp packet
  | gatewayPublish id topic payload retain allowed =>
      refine h.onPeer fun peer hp => ?_
      split
      · exact h.close id
      · exact h.publish id peer topic.text payload
  | gatewayFilter id filter allowed =>
      refine h.onPeer fun peer hp => ?_
      split
      · next hallowed =>
        refine h.setPeer id fun f hf => ?_
        rcases mem_addFilter hf with hf | rfl
        · exact h id peer hp f hf
        · exact (Bool.and_eq_true_iff.mp hallowed).1
      · exact h
  | gatewayInstalled realm policy =>
      rw [MqttQos0Broker.step, installGateway]
      split
      · exact h
      · refine accepted_of_get? h fun id peer hp => ?_
        rw [closeRealm, LinkedMap.get?_filter] at hp
        exact (Option.filter_eq_some_iff.mp hp).1
  | gatewayClosed realm => exact h
  | published realm policy topic payload => exact h
  | closed id => exact h.close id

theorem accepted_run {events : List Event} (h : Run step ok {} events b) : Accepted b :=
  h.invariant (fun _ e hs _ => hs.step e) fun _ _ hp => nomatch hp

/-! ### The delivery set -/

/-- The connected peer of the realm has a filter that matches the topic. -/
def Matching (realm : Option String) (topic : String) (peer : Peer) : Prop :=
  peer.connected = true ∧ peer.realm = realm ∧ ∃ f ∈ peer.filters, FilterMatches f.text topic

theorem Accepted.wants_iff (h : Accepted b) {id : Nat} {peer : Peer}
    (hp : b.peers.get? id = some peer) :
    wants realm topic peer = true ↔ Matching realm topic peer := by
  have hfilters : (peer.filters.any fun f => topicMatches f.text topic) = true ↔
      ∃ f ∈ peer.filters, FilterMatches f.text topic := by
    rw [List.any_eq_true]
    exact exists_congr fun f =>
      and_congr_right fun hf => topicMatches_iff (h id peer hp f hf) topic
  rw [wants, Bool.and_eq_true, Bool.and_eq_true, beq_iff_eq, hfilters, and_assoc]
  exact Iff.rfl

/-- Each connected peer of the realm is given the publication at most once, and if and only if one of
its filters matches; others are not given it. -/
structure Delivered (b : MqttQos0Broker) (realm : Option String) (topic : String)
    (payload : Bytes) : Prop where
  once : ((b.deliver realm topic payload).1.map (·.peer)).Nodup
  complete : ∀ id peer, b.peers.get? id = some peer → Matching realm topic peer →
    id ∈ (b.deliver realm topic payload).1.map (·.peer)
  sound : ∀ g ∈ (b.deliver realm topic payload).1, ∃ peer, b.peers.get? g.peer = some peer ∧
    Matching realm topic peer ∧ encodePublish peer.encoding topic payload = .ok g.encoded

/-- The publication is within the packet limit for every peer with a matching filter. -/
def Fits (b : MqttQos0Broker) (realm : Option String) (topic : String) (payload : Bytes) : Prop :=
  ∀ id peer, b.peers.get? id = some peer → Matching realm topic peer →
    publishSize peer.encoding topic payload ≤ maxPacketSize

theorem Accepted.delivered_iff (h : Accepted b) {topic : MqttString}
    (htopic : validTopic topic.text = true) :
    Delivered b realm topic.text payload ↔ Fits b realm topic.text payload := by
  have hencoded : ∀ version, (∃ encoded, encodePublish version topic.text payload = .ok encoded) ↔
      publishSize version topic.text payload ≤ maxPacketSize :=
    fun _ => encodePublish_isOk_iff htopic topic.short
  have hgiven : ∀ g ∈ (b.deliver realm topic.text payload).1, ∃ peer,
      b.peers.get? g.peer = some peer ∧ Matching realm topic.text peer ∧
        encodePublish peer.encoding topic.text payload = .ok g.encoded := by
    intro g hg
    obtain ⟨peer, hmem, hwants, henc⟩ := mem_deliverTo hg
    have hp := LinkedMap.mem_entries.mp hmem
    exact ⟨peer, hp, (h.wants_iff hp).mp hwants, henc⟩
  constructor
  · intro hd id peer hp hmatching
    obtain ⟨g, hg, rfl⟩ := List.mem_map.mp (hd.complete id peer hp hmatching)
    obtain ⟨peer', hp', -, henc⟩ := hgiven g hg
    obtain rfl := Option.some.inj (hp.symm.trans hp')
    exact (hencoded _).mp ⟨_, henc⟩
  · intro hfits
    refine ⟨deliverTo_sublist.nodup b.peers.nodup, fun id peer hp hmatching => ?_, hgiven⟩
    refine deliverTo_complete (fun e he hwants => ?_) (LinkedMap.mem_entries.mpr hp)
      ((h.wants_iff hp).mpr hmatching)
    have hp' : b.peers.get? e.1 = some e.2 := LinkedMap.mem_entries.mp he
    exact (hencoded _).mpr (hfits e.1 e.2 hp' ((h.wants_iff hp').mp hwants))

/-- **The delivery set.**  In every reachable broker, a publication is given once to each connected
peer of its realm with a matching filter, and to nobody else, if and only if it is within the packet
limit for all of them; and the accepted filters are the well-formed ones. -/
theorem mqtt_delivery_set {events : List Event} {b : MqttQos0Broker}
    (hrun : Run step ok {} events b) (realm : Option String) {topic : MqttString}
    (htopic : validTopic topic.text = true) (payload : Bytes) :
    (Delivered b realm topic.text payload ↔ Fits b realm topic.text payload) ∧
      ∀ filter : MqttString, validFilter filter.text = true ↔ WellFormed filter.text :=
  ⟨(accepted_run hrun).delivered_iff htopic, validFilter_iff⟩

/-! ### A packet that is too long for MQTT 5 -/

def sampleTopic : MqttString := ⟨"t", by decide, by decide⟩

/-- A sender of MQTT 3.1.1, a subscriber of MQTT 5, and a later one of MQTT 3.1.1. -/
def sampleEvents : List Event :=
  [.attached none, .attached none, .attached none, .handled 0 (.connect .v311 false),
    .handled 1 (.connect .v5 false), .handled 2 (.connect .v311 false),
    .handled 1 (.subscribe [sampleTopic]), .handled 2 (.subscribe [sampleTopic])]

def sampleBroker : MqttQos0Broker := sampleEvents.foldl step {}

theorem sampleEvents_run : Run step ok {} sampleEvents sampleBroker := by
  refine .cons trivial (.cons trivial (.cons trivial ?_))
  refine .cons ⟨_, rfl, trivial⟩ (.cons ⟨_, rfl, trivial⟩ (.cons ⟨_, rfl, trivial⟩ ?_))
  exact .cons ⟨_, rfl, fun _ => rfl⟩ (.cons ⟨_, rfl, fun _ => rfl⟩ (.nil _))

/-- An empty message for the two subscribers. -/
theorem delivery_sampleBroker :
    (Delivered sampleBroker none sampleTopic.text [] ↔ Fits sampleBroker none sampleTopic.text []) ∧
      ∀ filter : MqttString, validFilter filter.text = true ↔ WellFormed filter.text :=
  mqtt_delivery_set sampleEvents_run none (by decide) []

/-- The length takes three digits. -/
theorem publishSize_of_length {version : MqttVersion} {topic : String} {payload : Bytes} {n : Nat}
    (h : publishBodyLength version topic payload = n) (hlow : 128 * 128 ≤ n)
    (hhigh : n < 128 * 128 * 128) : publishSize version topic payload = 4 + n := by
  rw [publishSize, h, variableByteInteger_of_ge (by omega), variableByteInteger_of_ge (by omega),
    variableByteInteger_of_lt (by omega)]
  simp only [List.length_cons, List.length_nil]

/-- A payload that fills a packet of MQTT 3.1.1. -/
def samplePayload : Bytes := List.replicate 1048569 0

theorem publishBodyLength_sample (version : MqttVersion) :
    publishBodyLength version "t" samplePayload =
      3 + (if version = .v5 then 1 else 0) + 1048569 := by
  have htopic : (Utf8.encode "t").length = 1 := by decide
  rw [publishBodyLength, htopic, samplePayload, List.length_replicate]

theorem sampleSender_sendable :
    Sendable { realm := none, version := some .v311, connected := true } sampleTopic
      samplePayload := by
  refine ⟨by decide, ?_⟩
  have hsize := publishSize_of_length (publishBodyLength_sample .v311) (by decide) (by decide)
  exact Nat.le_of_eq hsize

/-- The sender's packet is one that the broker takes, and it is not delivered. -/
theorem oversized_for_v5 :
    Run step ok {} sampleEvents sampleBroker ∧
      sampleBroker.ok (.handled 0 (.publish sampleTopic samplePayload false)) ∧
      ¬Delivered sampleBroker none sampleTopic.text samplePayload := by
  have hmatch : FilterMatches "t" "t" :=
    ⟨.same _ .done, fun h => absurd h (by decide)⟩
  refine ⟨sampleEvents_run, ⟨_, rfl, fun _ => ⟨rfl, sampleSender_sendable⟩⟩, fun h => ?_⟩
  have hfits := ((accepted_run sampleEvents_run).delivered_iff (by decide)).mp h
  have hsize := hfits 1 ⟨none, some .v5, true, [sampleTopic]⟩ rfl
    ⟨rfl, rfl, sampleTopic, List.mem_singleton_self _, hmatch⟩
  change publishSize .v5 "t" samplePayload ≤ _ at hsize
  rw [publishSize_of_length (publishBodyLength_sample .v5) (by decide) (by decide)] at hsize
  exact absurd hsize (by decide)

end

end MqttQos0Broker

end Mqtt

end Connectanum
