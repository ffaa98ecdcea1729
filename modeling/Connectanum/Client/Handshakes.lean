import Connectanum.Client.Meeting
import Mathlib.Data.List.Induction

/-!
# Client — Handshakes

The native client and the Dart client are parties of the handshake, and agree with the listener for
the same numbers.
-/

namespace Connectanum

namespace RawSocket

open Wamp (Bytes Serializer)

/-! ### The native client -/

namespace Connector

variable {serializer : Serializer} {desiredExponent : Nat}

/-- `connect` reads what it needs of a chunk, byte by byte. -/
def receive (serializer : Serializer) (desiredExponent : Nat) (k : Connector) (chunk : Bytes) :
    Connector × Bytes :=
  chunk.foldl
    (fun (k, sent) byte =>
      let (k, answer) := k.read serializer desiredExponent byte
      (k, sent ++ answer))
    (k, [])

def stage : Connector → Stage
  | .response got => .response got
  | .upgrade got => .upgrade got
  | .opened exponent received => .opened exponent received
  | .failed => .failed

def party (serializer : Serializer) (desiredExponent : Nat) : Party Connector where
  receive := receive serializer desiredExponent
  timeout
    | .response _ | .upgrade _ => some .failed
    | .opened _ _ | .failed => none
  result k := k.stage.result

def asks (serializer : Serializer) (desiredExponent : Nat) : Asks where
  own := desiredExponent
  serializer
  upgrade := UInt8.ofNat (min (requestedExponent desiredExponent - 25) 15)
  cap n := n
  cap_of_le := fun _ => rfl
  upgrade_eq := by
    intro h
    rw [UInt8.toNat_ofNat', requestedExponent, connectanumMaxRawsocketSizeExponent]
    omega

theorem header_eq : header serializer desiredExponent = (asks serializer desiredExponent).hello := by
  have hbase : min (min (requestedExponent desiredExponent) 24 - 9) 15 =
      min 15 (desiredExponent - 9) := by
    rw [requestedExponent, connectanumMaxRawsocketSizeExponent]
    omega
  simp only [header, hbase, Asks.hello, asks]

theorem receive_snoc (k : Connector) (chunk : Bytes) (byte : UInt8) :
    receive serializer desiredExponent k (chunk ++ [byte]) =
      (((receive serializer desiredExponent k chunk).1.read serializer desiredExponent byte).1,
        (receive serializer desiredExponent k chunk).2 ++
          ((receive serializer desiredExponent k chunk).1.read serializer desiredExponent byte).2) := by
  rw [receive, List.foldl_append]
  rfl

/-- Bytes that do not complete the response. -/
theorem receive_response {got chunk : Bytes} (h : (got ++ chunk).length < 4) :
    receive serializer desiredExponent (.response got) chunk = (.response (got ++ chunk), []) := by
  induction chunk using List.reverseRecOn with
  | nil => rw [List.append_nil]; rfl
  | append_singleton chunk byte ih =>
      rw [← List.append_assoc, List.length_append, List.length_singleton] at h
      rw [receive_snoc, ih (by omega), read]
      · rw [List.append_assoc]
        rfl
      · intro magic options reserved hgot
        rw [hgot] at h
        simp at h

theorem receive_upgrade {got chunk : Bytes} (h : (got ++ chunk).length < 2) :
    receive serializer desiredExponent (.upgrade got) chunk = (.upgrade (got ++ chunk), []) := by
  induction chunk using List.reverseRecOn with
  | nil => rw [List.append_nil]; rfl
  | append_singleton chunk byte ih =>
      rw [← List.append_assoc, List.length_append, List.length_singleton] at h
      rw [receive_snoc, ih (by omega), read]
      · rw [List.append_assoc]
        rfl
      · intro first hgot
        rw [hgot] at h
        simp at h

theorem receive_opened {exponent : Nat} {got chunk : Bytes} :
    receive serializer desiredExponent (.opened exponent got) chunk =
      (.opened exponent (got ++ chunk), []) := by
  induction chunk using List.reverseRecOn with
  | nil => rw [List.append_nil]; rfl
  | append_singleton chunk byte ih =>
      rw [receive_snoc, ih, read, List.append_assoc]
      rfl

/-- The bytes that complete the response. -/
theorem receive_answer {got chunk : Bytes} {magic options reserved reserved' : UInt8}
    (hchunk : chunk ≠ []) (h : got ++ chunk = [magic, options, reserved, reserved']) :
    receive serializer desiredExponent (.response got) chunk =
      answer serializer desiredExponent magic options reserved reserved' := by
  obtain ⟨init, last, rfl⟩ := List.eq_nil_or_concat' chunk |>.resolve_left hchunk
  have hlast : (got ++ init) ++ [last] = [magic, options, reserved] ++ [reserved'] := by
    rw [List.append_assoc]
    exact h
  obtain ⟨hinit, hbyte⟩ := List.append_inj' hlast rfl
  obtain rfl := List.singleton_inj.mp hbyte
  have hshort : (got ++ init).length < 4 := by
    rw [hinit]
    simp
  rw [receive_snoc, receive_response hshort, hinit, read, List.nil_append]

theorem receive_upgraded {got chunk : Bytes} {first second : UInt8}
    (hchunk : chunk ≠ []) (h : got ++ chunk = [first, second]) :
    receive serializer desiredExponent (.upgrade got) chunk = (upgraded first second, []) := by
  obtain ⟨init, last, rfl⟩ := List.eq_nil_or_concat' chunk |>.resolve_left hchunk
  have hlast : (got ++ init) ++ [last] = [first] ++ [second] := by
    rw [List.append_assoc]
    exact h
  obtain ⟨hinit, hbyte⟩ := List.append_inj' hlast rfl
  obtain rfl := List.singleton_inj.mp hbyte
  have hshort : (got ++ init).length < 2 := by
    rw [hinit]
    simp
  rw [receive_snoc, receive_upgrade hshort, hinit, read, List.nil_append]

theorem answer_response {exponent : Nat} (h : 9 ≤ exponent) (h' : exponent ≤ 24) :
    answer serializer desiredExponent metaHeader
        (UInt8.ofNat ((exponent - 9) * 16 + serializerToWireId serializer)) 0 0 =
      if 24 < desiredExponent ∧ exponent = 24 then
        (.upgrade [], [upgradeHeader, (asks serializer desiredExponent).upgrade])
      else (.opened exponent [], []) := by
  obtain ⟨hpos, hlt⟩ := serializerToWireId_pos_lt serializer
  have hoptions := options_toNat (show exponent - 9 ≤ 15 by omega) hlt
  rw [answer, if_neg (by simp), if_neg (by simp), hoptions.1, hoptions.2, if_neg (by omega),
    if_neg (by simp [serializerFromWireId_toWireId])]
  have hwants : (requestedExponent desiredExponent > 24 ∧ exponent ≥ 24) ↔
      24 < desiredExponent ∧ exponent = 24 := by
    rw [requestedExponent, connectanumMaxRawsocketSizeExponent]
    omega
  simp only [Nat.sub_add_cancel h, hwants]
  rfl

theorem simulates : Simulates (party serializer desiredExponent) (asks serializer desiredExponent)
    (fun k st => st = k.stage) where
  result := by
    rintro k _ rfl
    rfl
  timeout := by
    rintro (_ | _ | _ | _) k' _ rfl h
    · cases h
      exact ⟨rfl, rfl⟩
    · cases h
      exact ⟨rfl, rfl⟩
    · cases h
    · cases h
  partly := by
    rintro (_ | _ | _ | _) got chunk h hshort -
    all_goals cases h
    change _ = (receive _ _ _ _).1.stage ∧ (receive _ _ _ _).2 = []
    rw [receive_response hshort]
    exact ⟨rfl, rfl⟩
  more := by
    rintro (_ | _ | _ | _) got chunk h hchunk hresponse hown
    all_goals cases h
    change _ = (receive _ _ _ _).1.stage ∧ (receive _ _ _ _).2 = _
    rw [receive_answer hchunk hresponse]
    have hanswer := @answer_response serializer desiredExponent 24 (by decide) (by decide)
    rw [if_pos ⟨hown, rfl⟩] at hanswer
    rw [show (asks serializer desiredExponent).serializer = serializer from rfl, hanswer]
    exact ⟨rfl, rfl⟩
  content := by
    rintro (_ | _ | _ | _) got chunk exponent h hchunk hresponse hle hle' hnot
    all_goals cases h
    change _ = (receive _ _ _ _).1.stage ∧ (receive _ _ _ _).2 = _
    rw [receive_answer hchunk hresponse]
    have hanswer := @answer_response serializer desiredExponent _ hle hle'
    rw [if_neg (show ¬ (24 < desiredExponent ∧ exponent = 24) from hnot)] at hanswer
    rw [show (asks serializer desiredExponent).serializer = serializer from rfl, hanswer]
    exact ⟨rfl, rfl⟩
  refused := by
    rintro (_ | _ | _ | _) got chunk h hchunk herror
    all_goals cases h
    change _ = (receive _ _ _ _).1.stage ∧ (receive _ _ _ _).2 = _
    rw [receive_answer hchunk herror]
    exact ⟨rfl, rfl⟩
  upgradePartly := by
    rintro (_ | _ | _ | _) chunk h hchunk
    all_goals cases h
    change _ = (receive _ _ _ _).1.stage ∧ (receive _ _ _ _).2 = []
    rw [receive_upgrade (by rw [hchunk]; decide)]
    exact ⟨rfl, rfl⟩
  upgraded := by
    rintro (_ | _ | _ | _) got chunk exponent h hchunk hanswer hle hle'
    all_goals cases h
    change _ = (receive _ _ _ _).1.stage ∧ (receive _ _ _ _).2 = []
    have hexponent : (UInt8.ofNat (exponent - 25)).toNat % 16 + 25 = exponent := by
      rw [UInt8.toNat_ofNat']
      omega
    rw [receive_upgraded hchunk hanswer, upgraded, if_pos rfl, hexponent]
    exact ⟨rfl, rfl⟩
  session := by
    rintro (_ | _ | _ | _) exponent got chunk h hshort
    all_goals cases h
    change _ = (receive _ _ _ _).1.stage ∧ (receive _ _ _ _).2 = []
    rw [receive_opened]
    exact ⟨rfl, rfl⟩

end Connector

/-! ### The Dart client -/

namespace SocketTransport

variable {σ μ : Type} {codec : Codec σ μ} {messageLengthExponent : Nat} {serializer : Serializer}
  {t : SocketTransport σ}

/-- A transport that has opened its socket and sent what it asks for. -/
def dial (messageLengthExponent : Nat) (serializer : Serializer) (profile : σ) :
    SocketTransport σ where
  messageLengthExponent
  serializerType := serializerToWireId serializer
  profile
  sent := [getInitialHandshake messageLengthExponent (serializerToWireId serializer)]

/-- The bytes that a chunk makes the transport write. -/
def receiveChunk (codec : Codec σ μ) (t : SocketTransport σ) (chunk : Bytes) :
    SocketTransport σ × Bytes :=
  if !t.socket then (t, [])
  else
    match t.consumeInboundChunk codec chunk with
    | none => (t, [])
    | some (_, t') => (t', (t'.sent.drop t.sent.length).flatten)

def result (t : SocketTransport σ) : Result :=
  match t.handshake, t.messageLength with
  | .pending, _ => .waiting
  | .failed _, _ => .failed
  | .completed, some length => .opened length t.headerLength
  | .completed, none => .waiting

/-- It has no time limit of its own. -/
def party (codec : Codec σ μ) : Party (SocketTransport σ) where
  receive := receiveChunk codec
  timeout _ := none
  result := SocketTransport.result

def asks (messageLengthExponent : Nat) (serializer : Serializer) : Asks where
  own := messageLengthExponent
  serializer
  upgrade := UInt8.ofNat (min 15 (messageLengthExponent - 25))
  cap n := min n messageLengthExponent
  cap_of_le := fun h => Nat.min_eq_left h
  upgrade_eq := by
    intro h
    rw [UInt8.toNat_ofNat']
    omega

/-- A transport in the handshake. -/
structure Negotiates (messageLengthExponent : Nat) (serializer : Serializer) (upgrades : Bool)
    (got : Bytes) (t : SocketTransport σ) : Prop where
  exponent : t.messageLengthExponent = messageLengthExponent
  serializerType : t.serializerType = serializerToWireId serializer
  socket : t.socket = true
  frame : t.inboundFrame = none
  handshake : t.handshake = .pending
  upgrade : t.upgradeRequested = upgrades
  buffer : t.inboundBuffer = got

/-- Where the transport is. -/
def At (messageLengthExponent : Nat) (serializer : Serializer) (t : SocketTransport σ) :
    Stage → Prop
  | .response got => Negotiates messageLengthExponent serializer false got t
  | .upgrade got => Negotiates messageLengthExponent serializer true got t
  | .opened exponent got =>
      t.handshake = .completed ∧ t.messageLength = some (2 ^ exponent) ∧ t.socket = true ∧
        t.inboundFrame = none ∧ t.inboundBuffer = got
  | .failed => ∃ errorNumber, t.handshake = .failed errorNumber

theorem consumeInboundChunk_of_none (hframe : t.inboundFrame = none) (chunk : Bytes) :
    t.consumeInboundChunk codec chunk = t.consumeFresh codec chunk := by
  rw [consumeInboundChunk, hframe]

/-- A chunk of which the handshake leaves nothing. -/
theorem receiveChunk_eq (hsocket : t.socket = true) (hframe : t.inboundFrame = none)
    {chunk : Bytes} {t' : SocketTransport σ} (h : { t with inboundBuffer := [] }.consumeNegotiation
      (t.inboundBuffer ++ chunk) = some ([], t')) :
    receiveChunk codec t chunk = (t', (t'.sent.drop t.sent.length).flatten) := by
  have hconsume : t.consumeInboundChunk codec chunk = some ([], t') := by
    rw [consumeInboundChunk_of_none hframe]
    simp only [consumeFresh, mergeInboundChunk, h]
    rfl
  rw [receiveChunk, hsocket, hconsume]
  rfl

section

variable {upgrades : Bool} {got chunk : Bytes}

/-- What is kept of a transport that goes on waiting. -/
theorem Negotiates.receive (h : Negotiates messageLengthExponent serializer upgrades got t)
    (hdata : { t with inboundBuffer := [] }.consumeNegotiation (got ++ chunk) =
      some ([], { t with inboundBuffer := got ++ chunk })) :
    Negotiates messageLengthExponent serializer upgrades (got ++ chunk)
        (receiveChunk codec t chunk).1 ∧ (receiveChunk codec t chunk).2 = [] := by
  rw [receiveChunk_eq h.socket h.frame (by rw [h.buffer]; exact hdata)]
  refine ⟨⟨h.exponent, h.serializerType, h.socket, h.frame, h.handshake, h.upgrade, rfl⟩, ?_⟩
  simp

theorem Negotiates.partly (h : Negotiates messageLengthExponent serializer false got t)
    (hshort : (got ++ chunk).length < 4) (hhead : (got ++ chunk).head? = some metaHeader) :
    Negotiates messageLengthExponent serializer false (got ++ chunk)
        (receiveChunk codec t chunk).1 ∧ (receiveChunk codec t chunk).2 = [] := by
  refine h.receive ?_
  have hne : got ++ chunk ≠ [] := by
    intro hnil
    rw [hnil] at hhead
    cases hhead
  rw [consumeNegotiation, if_neg (not_not_intro h.handshake), if_neg hne,
    if_neg (by rw [isUpgrade, hhead]; decide), if_pos hshort]

/-- A whole response, and what the transport makes of it. -/
theorem Negotiates.response {exponent : Nat}
    (h : Negotiates messageLengthExponent serializer false got t)
    (hdata : got ++ chunk = (asks messageLengthExponent serializer).response exponent)
    (hle : 9 ≤ exponent) (hle' : exponent ≤ 24) :
    { t with inboundBuffer := [] }.consumeNegotiation (got ++ chunk) =
      if 24 < messageLengthExponent ∧ exponent = 24 then
        some ([], { t with
          inboundBuffer := []
          upgradeRequested := true
          sent := t.sent ++ [getUpgradeHandshake messageLengthExponent] })
      else
        some ([], { t with
          inboundBuffer := []
          messageLength := some (2 ^ min exponent messageLengthExponent)
          handshake := .completed }) := by
  obtain ⟨hpos, hlt⟩ := serializerToWireId_pos_lt serializer
  obtain ⟨hid, hexponent⟩ := options_toNat (show exponent - 9 ≤ 15 by omega) hlt
  have hsize : getMaxMessageSizeExponent ((asks messageLengthExponent serializer).response exponent)
      = exponent := by
    change (UInt8.ofNat ((exponent - 9) * 16 + serializerToWireId serializer)).toNat / 16 + 9 = _
    omega
  have herror : getErrorNumber ((asks messageLengthExponent serializer).response exponent) = 0 := by
    change (if metaHeader = upgradeHeader then 0 else
      if (UInt8.ofNat ((exponent - 9) * 16 + serializerToWireId serializer)).toNat % 16 ≠ 0 then 0
      else _) = 0
    rw [if_neg (by decide), if_pos (by omega)]
  have hserializer : (((asks messageLengthExponent serializer).response exponent).getD 1 0).toNat
      % 16 = serializerToWireId serializer := hid
  have htake : ((asks messageLengthExponent serializer).response exponent).take 4 =
    (asks messageLengthExponent serializer).response exponent := rfl
  rw [hdata, consumeNegotiation, if_neg (not_not_intro h.handshake), if_neg (by simp [Asks.response]),
    if_neg (by simp [isUpgrade, Asks.response, metaHeader, upgradeHeader]),
    if_neg (by simp [Asks.response])]
  dsimp only
  rw [htake, if_neg (not_not_intro herror), if_neg (by simp [isRawSocket, Asks.response]),
    if_neg (not_not_intro (hserializer.trans h.serializerType.symm)), hsize]
  obtain rfl := h.exponent
  by_cases hwants : 24 < t.messageLengthExponent ∧ exponent = 24
  · rw [if_pos ⟨hwants.2, hwants.1⟩, if_pos hwants, send0, if_pos h.socket, Option.map_some,
      if_neg (by simp [Asks.response])]
  · rw [if_neg (fun h => hwants ⟨h.2, h.1⟩), if_neg hwants]
    rfl

theorem Negotiates.more (h : Negotiates messageLengthExponent serializer false got t)
    (hdata : got ++ chunk = (asks messageLengthExponent serializer).response 24)
    (hown : 24 < messageLengthExponent) :
    Negotiates messageLengthExponent serializer true [] (receiveChunk codec t chunk).1 ∧
      (receiveChunk codec t chunk).2 = getUpgradeHandshake messageLengthExponent := by
  have hresponse := h.response hdata (by decide) (by decide)
  rw [if_pos ⟨hown, rfl⟩] at hresponse
  rw [receiveChunk_eq h.socket h.frame (by rw [h.buffer]; exact hresponse)]
  refine ⟨⟨h.exponent, h.serializerType, h.socket, h.frame, h.handshake, rfl, rfl⟩, ?_⟩
  simp

theorem Negotiates.content {exponent : Nat}
    (h : Negotiates messageLengthExponent serializer false got t)
    (hdata : got ++ chunk = (asks messageLengthExponent serializer).response exponent)
    (hle : 9 ≤ exponent) (hle' : exponent ≤ 24)
    (hnot : ¬ (24 < messageLengthExponent ∧ exponent = 24)) :
    At messageLengthExponent serializer (receiveChunk codec t chunk).1
        (.opened (min exponent messageLengthExponent) []) ∧ (receiveChunk codec t chunk).2 = [] := by
  have hresponse := h.response hdata hle hle'
  rw [if_neg hnot] at hresponse
  rw [receiveChunk_eq h.socket h.frame (by rw [h.buffer]; exact hresponse)]
  refine ⟨⟨rfl, rfl, h.socket, h.frame, rfl⟩, ?_⟩
  simp

theorem Negotiates.refused (h : Negotiates messageLengthExponent serializer false got t)
    (hdata : got ++ chunk = getError errorMessageLengthExceeded) :
    At messageLengthExponent serializer (receiveChunk codec t chunk).1 .failed ∧
      (receiveChunk codec t chunk).2 = [] := by
  have herror : { t with inboundBuffer := [] }.consumeNegotiation (got ++ chunk) =
      some ([], { t with inboundBuffer := [] }.handleError errorMessageLengthExceeded) := by
    rw [hdata, consumeNegotiation, if_neg (not_not_intro h.handshake)]
    rfl
  rw [receiveChunk_eq h.socket h.frame (by rw [h.buffer]; exact herror)]
  refine ⟨⟨_, rfl⟩, ?_⟩
  simp [SocketTransport.handleError, close]

theorem Negotiates.upgradePartly (h : Negotiates messageLengthExponent serializer true [] t)
    (hdata : chunk = [upgradeHeader]) :
    Negotiates messageLengthExponent serializer true chunk (receiveChunk codec t chunk).1 ∧
      (receiveChunk codec t chunk).2 = [] := by
  refine h.receive ?_
  subst hdata
  have hrequested : ¬ (!t.upgradeRequested) = true := by simp [h.upgrade]
  rw [List.nil_append, consumeNegotiation, if_neg (not_not_intro h.handshake),
    if_neg (List.cons_ne_nil _ _), if_pos (show isUpgrade (upgradeHeader :: _) = true from rfl)]
  dsimp only
  rw [if_neg hrequested, if_pos (by simp)]

theorem Negotiates.upgraded {exponent : Nat}
    (h : Negotiates messageLengthExponent serializer true got t)
    (hdata : got ++ chunk = [upgradeHeader, UInt8.ofNat (exponent - 25)])
    (hle : 25 ≤ exponent) (hle' : exponent ≤ 30) :
    At messageLengthExponent serializer (receiveChunk codec t chunk).1
        (.opened (min exponent messageLengthExponent) []) ∧ (receiveChunk codec t chunk).2 = [] := by
  have hsize : getMaxUpgradeMessageSizeExponent [upgradeHeader, UInt8.ofNat (exponent - 25)] =
      exponent := by
    change (UInt8.ofNat (exponent - 25)).toNat % 16 + 25 = exponent
    rw [UInt8.toNat_ofNat']
    omega
  have hanswer : { t with inboundBuffer := [] }.consumeNegotiation (got ++ chunk) =
      some ([], { t with
        inboundBuffer := []
        messageLength := some (2 ^ min exponent messageLengthExponent)
        upgradeRequested := false
        handshake := .completed }) := by
    have hrequested : ¬ (!t.upgradeRequested) = true := by simp [h.upgrade]
    rw [hdata, consumeNegotiation, if_neg (not_not_intro h.handshake), if_neg (List.cons_ne_nil _ _),
      if_pos (show isUpgrade (upgradeHeader :: _) = true from rfl)]
    dsimp only
    rw [if_neg hrequested, if_neg (by simp), hsize]
    obtain rfl := h.exponent
    rfl
  rw [receiveChunk_eq h.socket h.frame (by rw [h.buffer]; exact hanswer)]
  refine ⟨⟨rfl, rfl, h.socket, h.frame, rfl⟩, ?_⟩
  simp

/-- Bytes of the session that are no header yet. -/
theorem at_session {exponent : Nat} (h : At messageLengthExponent serializer t (.opened exponent got))
    (hshort : (got ++ chunk).length < 4) :
    At messageLengthExponent serializer (receiveChunk codec t chunk).1
        (.opened exponent (got ++ chunk)) ∧ (receiveChunk codec t chunk).2 = [] := by
  obtain ⟨hhandshake, hlength, hsocket, hframe, hbuffer⟩ := h
  have hnegotiated : { t with inboundBuffer := [] }.consumeNegotiation (got ++ chunk) =
      some (got ++ chunk, { t with inboundBuffer := [] }) := by
    rw [consumeNegotiation, if_pos (by rw [hhandshake]; decide)]
  have hheader : 4 ≤ t.headerLength := by
    rw [headerLength]
    split <;> decide
  have hconsume : t.consumeInboundChunk codec chunk =
      some ([], { t with inboundBuffer := got ++ chunk }) := by
    rw [consumeInboundChunk_of_none hframe]
    simp only [consumeFresh, mergeInboundChunk, hbuffer, hnegotiated]
    change (if got ++ chunk = [] then some ([], { t with inboundBuffer := [] })
      else if (got ++ chunk).length < t.headerLength then
        some ([], { t with inboundBuffer := got ++ chunk })
      else _) = _
    by_cases hnil : got ++ chunk = []
    · rw [if_pos hnil, hnil]
    · rw [if_neg hnil, if_pos (Nat.lt_of_lt_of_le hshort hheader)]
  rw [receiveChunk, hsocket, hconsume]
  refine ⟨⟨hhandshake, hlength, hsocket, hframe, rfl⟩, ?_⟩
  simp

end

theorem simulates (codec : Codec σ μ) (messageLengthExponent : Nat) (serializer : Serializer) :
    Simulates (party codec) (asks messageLengthExponent serializer)
      (At messageLengthExponent serializer) where
  result := by
    rintro t (got | got | ⟨exponent, got⟩ | _) h
    · change t.result = .waiting
      rw [SocketTransport.result, h.handshake]
    · change t.result = .waiting
      rw [SocketTransport.result, h.handshake]
    · obtain ⟨hhandshake, hlength, -⟩ := h
      change t.result = .ofExponent exponent
      have hheader : t.headerLength = if exponent > 24 then 5 else 4 := by
        have hpow : maxMessageLength < 2 ^ exponent ↔ 24 < exponent :=
          Nat.pow_lt_pow_iff_right (by decide)
        have hupgraded : t.isUpgradedProtocol = decide (exponent > 24) := by
          rw [isUpgradedProtocol, hlength]
          exact decide_eq_decide.mpr hpow
        rw [headerLength, hupgraded]
        simp
      rw [SocketTransport.result, hhandshake, hlength]
      dsimp only
      rw [hheader, Result.ofExponent]
    · obtain ⟨errorNumber, hhandshake⟩ := h
      change t.result = .failed
      rw [SocketTransport.result, hhandshake]
  timeout := fun _ h => (nomatch h)
  partly := fun h hshort hhead => Negotiates.partly h hshort hhead
  more := fun h _ hdata hown => Negotiates.more h hdata hown
  content := fun h _ hdata hle hle' hnot => Negotiates.content h hdata hle hle' hnot
  refused := fun h _ hdata => Negotiates.refused h hdata
  upgradePartly := fun h hdata => Negotiates.upgradePartly h hdata
  upgraded := fun h _ hdata hle hle' => Negotiates.upgraded h hdata hle hle'
  session := fun h hshort => at_session h hshort

end SocketTransport

/-! ### Agreement -/

/-- **The handshake, for both clients.**  Every run comes to an end at which client and listener have
the same message length and header length within the limits of both, with every byte of the session
at the listener, or have both failed: if and only if the limit of the listener is too low for any
client, or the client asks for nine at least, does not ask for more than 24 of a limit of exactly
24, and, if it asks for 24 of a higher limit, does not begin its session like an upgrade. -/
theorem handshake_meets {σ μ : Type} (codec : Codec σ μ) (profile : σ) (serializer : Serializer)
    (exponent limit : Nat) (app : Bytes) :
    (Net.Meet (Connector.party serializer exponent) exponent limit (.response [])
        (Connector.header serializer exponent) app ↔ Net.Compatible exponent limit app) ∧
      (Net.Meet (SocketTransport.party codec) exponent limit
        (SocketTransport.dial exponent serializer profile)
        (SocketTransport.dial exponent serializer profile).sent.flatten app ↔
          Net.Compatible exponent limit app) := by
  constructor
  · rw [Connector.header_eq]
    exact Net.meet_iff Connector.simulates rfl
  · exact Net.meet_iff (SocketTransport.simulates codec exponent serializer)
      ⟨rfl, rfl, rfl, rfl, rfl, rfl, rfl⟩

/-- A client that may send messages of up to 2^25 bytes, and a listener with a limit of 2^24: the
client waits for an answer to its upgrade, which the listener takes for the session. -/
theorem upgrade_unanswered :
    ¬ Net.Meet (Connector.party .json 25) 25 24 (.response []) (Connector.header .json 25) [] ∧
      ¬ Net.Meet (SocketTransport.party (⟨fun _ _ => none, fun _ => false⟩ : Codec Unit Unit)) 25 24
        (SocketTransport.dial 25 .json ()) (SocketTransport.dial 25 .json ()).sent.flatten [] := by
  have hnot : ¬ Net.Compatible 25 24 [] := by
    rintro (h | ⟨-, h, -⟩)
    · omega
    · exact h ⟨by decide, rfl⟩
  constructor
  · rw [Connector.header_eq]
    exact fun h => hnot ((Net.meet_iff Connector.simulates rfl).mp h)
  · exact fun h => hnot ((Net.meet_iff (SocketTransport.simulates _ 25 .json)
      ⟨rfl, rfl, rfl, rfl, rfl, rfl, rfl⟩).mp h)

end RawSocket

end Connectanum
