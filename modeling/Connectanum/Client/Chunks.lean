import Connectanum.Client.SocketTransport
import Connectanum.Lib.Streams

/-!
# Client — Chunks

The frames of a RawSocket connection, whatever the chunks in which they come in.

The frames of a stream are what a `Cutter` cuts off it.  A transport that has got a part of a stream
has handled the frames in it and waits with the rest (`waiting`), as long as every header has a known
type and a length within the limit (`Framed`).
-/

namespace Connectanum

namespace RawSocket

open Wamp (Bytes)
open Streams (Cutter)

/-! ### The frames of a stream -/

theorem getPayloadLength_append {h : Nat} {s : Bytes} (hs : h ≤ s.length) (t : Bytes) :
    getPayloadLength (s ++ t) h = getPayloadLength s h := by
  have hdrop : (s ++ t).drop 1 = s.drop 1 ++ t ∨ s = [] := by
    cases s with
    | nil => exact .inr rfl
    | cons b s => exact .inl rfl
  rw [getPayloadLength, getPayloadLength, if_pos hs, if_pos (by rw [List.length_append]; omega)]
  obtain hdrop | rfl := hdrop
  · rw [hdrop, List.take_append_of_le_length (by rw [List.length_drop]; omega)]
  · have hzero : h = 0 := Nat.le_zero.mp hs
    rw [hzero]
    rfl

/-- A frame: a header of `h` bytes and the payload that it announces. -/
def frames (h : Nat) (hpos : 0 < h) : Cutter UInt8 Bytes where
  cut s :=
    if s.length < h then none
    else if h + getPayloadLength s h ≤ s.length then
      some (s.take (h + getPayloadLength s h), s.drop (h + getPayloadLength s h))
    else none
  shorter := by
    intro s b rest hcut
    split at hcut
    · cases hcut
    split at hcut
    · cases hcut
      rw [List.length_drop]
      omega
    · cases hcut
  stable := by
    intro s b rest t hcut
    split at hcut
    · cases hcut
    split at hcut
    · next hlen hle =>
        cases hcut
        have hpayload := getPayloadLength_append (Nat.le_of_not_lt hlen) t
        rw [if_neg (by rw [List.length_append]; omega), hpayload,
          if_pos (by rw [List.length_append]; omega), List.take_append_of_le_length hle,
          List.drop_append_of_le_length hle]
    · cases hcut

/-- The header has a known type, and announces no more than the limit. -/
def HeaderOk (h limit : Nat) (s : Bytes) : Prop :=
  isValidMessage s = true ∧ getPayloadLength s h ≤ limit

theorem headerOk_append {h limit : Nat} (hpos : 0 < h) {s : Bytes} (hs : h ≤ s.length) (t : Bytes) :
    HeaderOk h limit (s ++ t) ↔ HeaderOk h limit s := by
  cases s with
  | nil => simp only [List.length_nil] at hs; omega
  | cons b s =>
      rw [HeaderOk, HeaderOk, getPayloadLength_append hs]
      rfl

/-- Every header of the stream is in order. -/
def Framed (h limit : Nat) (hpos : 0 < h) (s : Bytes) : Prop :=
  (∀ frame ∈ ((frames h hpos).drain s).1, HeaderOk h limit frame) ∧
    (h ≤ ((frames h hpos).drain s).2.length → HeaderOk h limit ((frames h hpos).drain s).2)

section

variable {h limit : Nat} {hpos : 0 < h}

theorem cut_eq_some {s frame rest : Bytes} :
    (frames h hpos).cut s = some (frame, rest) ↔
      h ≤ s.length ∧ h + getPayloadLength s h ≤ s.length ∧
        frame = s.take (h + getPayloadLength s h) ∧ rest = s.drop (h + getPayloadLength s h) := by
  change (if s.length < h then none else _) = _ ↔ _
  by_cases hlen : s.length < h
  · rw [if_pos hlen]
    exact ⟨fun hcut => (nomatch hcut), fun hcut => by omega⟩
  · rw [if_neg hlen]
    by_cases hle : h + getPayloadLength s h ≤ s.length
    · rw [if_pos hle]
      constructor
      · rintro ⟨⟩
        exact ⟨by omega, hle, rfl, rfl⟩
      · rintro ⟨-, -, rfl, rfl⟩
        rfl
    · rw [if_neg hle]
      exact ⟨fun hcut => (nomatch hcut), fun hcut => absurd hcut.2.1 hle⟩

theorem cut_eq_none {s : Bytes} :
    (frames h hpos).cut s = none ↔ h ≤ s.length → s.length < h + getPayloadLength s h := by
  change (if s.length < h then none else _) = _ ↔ _
  by_cases hlen : s.length < h
  · rw [if_pos hlen]
    exact ⟨fun _ hge => by omega, fun _ => rfl⟩
  · rw [if_neg hlen]
    by_cases hle : h + getPayloadLength s h ≤ s.length
    · rw [if_pos hle]
      exact ⟨fun hcut => (nomatch hcut), fun hcut => by have := hcut (by omega); omega⟩
    · rw [if_neg hle]
      exact ⟨fun _ _ => by omega, fun _ => rfl⟩

/-- The first header of a stream in order. -/
theorem Framed.head {s : Bytes} (hs : Framed h limit hpos s) (hlen : h ≤ s.length) :
    HeaderOk h limit s := by
  cases hcut : (frames h hpos).cut s with
  | none =>
      rw [Framed, Cutter.drain_of_none hcut] at hs
      exact hs.2 hlen
  | some r =>
      obtain ⟨frame, rest⟩ := r
      have hframe := hs.1 frame (by rw [Cutter.drain_of_some hcut]; exact List.mem_cons_self)
      obtain ⟨-, hle, rfl, -⟩ := cut_eq_some.mp hcut
      rw [← List.take_append_drop (h + getPayloadLength s h) s]
      exact (headerOk_append hpos (by rw [List.length_take]; omega) _).mpr hframe

theorem Framed.congr {h' : Nat} {hpos' : 0 < h'} {s : Bytes} (hs : Framed h limit hpos s)
    (e : h' = h) : Framed h' limit hpos' s := by
  subst e
  exact hs

theorem Framed.rest {s frame rest : Bytes} (hs : Framed h limit hpos s)
    (hcut : (frames h hpos).cut s = some (frame, rest)) : Framed h limit hpos rest := by
  rw [Framed, Cutter.drain_of_some hcut] at hs
  exact ⟨fun f hf => hs.1 f (List.mem_cons_of_mem _ hf), hs.2⟩

theorem framed_of_cut {s frame rest : Bytes} (hcut : (frames h hpos).cut s = some (frame, rest))
    (hframe : HeaderOk h limit frame) (hrest : Framed h limit hpos rest) :
    Framed h limit hpos s := by
  rw [Framed, Cutter.drain_of_some hcut]
  refine ⟨fun f hf => ?_, hrest.2⟩
  obtain rfl | hf := List.mem_cons.mp hf
  · exact hframe
  · exact hrest.1 f hf

theorem framed_nil : Framed h limit hpos [] := by
  rw [Framed, Cutter.drain_of_none (cut_eq_none.mpr fun hlen =>
    absurd hpos (Nat.not_lt.mpr hlen))]
  exact ⟨fun _ hf => (nomatch hf), fun hlen => absurd hpos (Nat.not_lt.mpr hlen)⟩

/-- What is left of the first part of a stream in order, with the second part. -/
theorem Framed.parts {s t : Bytes} (hst : Framed h limit hpos (s ++ t)) :
    (∀ frame ∈ ((frames h hpos).drain s).1, HeaderOk h limit frame) ∧
      Framed h limit hpos (((frames h hpos).drain s).2 ++ t) := by
  rw [Framed, Cutter.drain_append] at hst
  exact ⟨fun f hf => hst.1 f (List.mem_append_left _ hf),
    fun f hf => hst.1 f (List.mem_append_right _ hf), hst.2⟩

theorem Framed.left {s t : Bytes} (hst : Framed h limit hpos (s ++ t)) : Framed h limit hpos s := by
  refine ⟨hst.parts.1, fun hlen => ?_⟩
  exact (headerOk_append hpos hlen t).mp (hst.parts.2.head (by rw [List.length_append]; omega))

end

namespace SocketTransport

variable {σ μ : Type} {codec : Codec σ μ} {t : SocketTransport σ} {limit : Nat}

/-! ### A frame leaves the buffers alone -/

/-- The transport with other buffers. -/
def put (t : SocketTransport σ) (buffer : Bytes) (frame : Option InboundFrame) :
    SocketTransport σ :=
  { t with inboundBuffer := buffer, inboundFrame := frame }

def Handled.map (f : SocketTransport σ → SocketTransport σ) : Handled σ μ → Handled σ μ
  | .next message t => .next message (f t)
  | .stop t => .stop (f t)
  | .threw t => .threw (f t)

theorem handlePing_put (payload buffer : Bytes) (frame : Option InboundFrame) :
    (t.put buffer frame).handlePing payload =
      (t.handlePing payload).map (put · buffer frame) := by
  unfold handlePing
  change (getPong payload.length t.isUpgradedProtocol >>= _) = _
  cases getPong payload.length t.isUpgradedProtocol with
  | none => rfl
  | some pong =>
      obtain ⟨e, k, profile, length, upgrade, b, f, hs, socket, lost, gs, gr, ping, sent⟩ := t
      cases socket with
      | false => rfl
      | true => cases payload <;> rfl

theorem handleFrame_put (message buffer : Bytes) (frame : Option InboundFrame) :
    handleFrame codec (t.put buffer frame) message =
      (handleFrame codec t message).map (put · buffer frame) := by
  unfold handleFrame
  have hheader : (t.put buffer frame).headerLength = t.headerLength := rfl
  have hprofile : (t.put buffer frame).profile = t.profile := rfl
  simp only [hheader, hprofile, handlePing_put]
  split
  · cases codec.accept t.profile (message.drop t.headerLength) with
    | none => rfl
    | some r =>
        obtain ⟨deserialized, profile⟩ := r
        dsimp only
        cases codec.isGoodbye deserialized <;> rfl
  split
  · cases t.handlePing (message.drop t.headerLength) <;> rfl
  split
  · have hping : (t.put buffer frame).ping = t.ping := rfl
    rw [hping]
    by_cases hwaits : t.ping = some none
    · rw [if_pos hwaits, if_pos hwaits]
      rfl
    · rw [if_neg hwaits, if_neg hwaits]
      rfl
  · obtain ⟨e, k, profile, length, upgrade, b, f, hs, socket, lost, gs, gr, ping, sent⟩ := t
    cases socket <;> rfl

theorem handleFrames_put (messages : List Bytes) (buffer : Bytes) (frame : Option InboundFrame) :
    handleFrames codec (t.put buffer frame) messages =
      ((handleFrames codec t messages).1, (handleFrames codec t messages).2.put buffer frame) := by
  induction messages generalizing t with
  | nil => rfl
  | cons message rest ih =>
      simp only [handleFrames, handleFrame_put]
      cases handleFrame codec t message with
      | next deserialized t' => simp only [Handled.map, ih]
      | stop t' => rfl
      | threw t' => rfl

/-! ### Open and closed -/

/-- Frames can come in. -/
structure Ready (limit : Nat) (t : SocketTransport σ) : Prop where
  handshake : t.handshake = .completed
  messageLength : t.messageLength = some limit
  socket : t.socket = true
  connectionLost : t.connectionLost = false

/-- The transport has closed after an error. -/
structure Broken (limit : Nat) (t : SocketTransport σ) : Prop where
  messageLength : t.messageLength = some limit
  socket : t.socket = false
  connectionLost : t.connectionLost = true

theorem handlePing_ready (ht : t.Ready limit) {payload : Bytes} {t' : SocketTransport σ}
    (h : t.handlePing payload = some t') : t'.Ready limit := by
  obtain ⟨e, k, profile, length, upgrade, b, f, hs, socket, lost, gs, gr, ping, sent⟩ := t
  obtain ⟨hhs, hlength, hsocket, hlost⟩ := ht
  dsimp only at hhs hlength hsocket hlost
  subst hhs hlength hsocket hlost
  unfold handlePing at h
  rw [Option.bind_eq_bind, Option.bind_eq_some_iff] at h
  obtain ⟨pong, -, h⟩ := h
  cases payload <;> cases h <;> exact ⟨rfl, rfl, rfl, rfl⟩

/-- A frame of a known type is handled and the next one comes, or its handler threw. -/
theorem handleFrame_ready (codec : Codec σ μ) (ht : t.Ready limit) {message : Bytes}
    (hvalid : isValidMessage message = true) :
    (∃ deserialized t', handleFrame codec t message = .next deserialized t' ∧ t'.Ready limit) ∨
      handleFrame codec t message = .threw t := by
  obtain ⟨hhs, hlength, hsocket, hlost⟩ := ht
  unfold handleFrame
  dsimp only
  split
  · cases codec.accept t.profile (message.drop t.headerLength) with
    | none => exact .inr rfl
    | some r =>
        obtain ⟨deserialized, profile⟩ := r
        refine .inl ⟨some deserialized, _, rfl, ?_⟩
        split <;> exact ⟨hhs, hlength, hsocket, hlost⟩
  split
  · cases hping : t.handlePing (message.drop t.headerLength) with
    | none => exact .inr rfl
    | some t' =>
        exact .inl ⟨none, t', rfl, handlePing_ready ⟨hhs, hlength, hsocket, hlost⟩ hping⟩
  split
  · refine .inl ⟨none, _, rfl, ?_⟩
    split <;> exact ⟨hhs, hlength, hsocket, hlost⟩
  · next hwamp hping hpong =>
      cases message with
      | nil => cases hvalid
      | cons b rest =>
          simp only [List.getD_cons_zero] at hwamp hping hpong
          simp [isValidMessage, hwamp, hping, hpong] at hvalid

/-- The frames are all handled, or the first handler that threw has closed the transport. -/
theorem handleFrames_ready (codec : Codec σ μ) (ht : t.Ready limit) {messages : List Bytes}
    (hvalid : ∀ message ∈ messages, isValidMessage message = true) :
    (handleFrames codec t messages).2.Ready limit ∨
      (handleFrames codec t messages).2.Broken limit := by
  induction messages generalizing t with
  | nil => exact .inl ht
  | cons message rest ih =>
      obtain ⟨deserialized, t', hnext, ht'⟩ | hthrew :=
        handleFrame_ready codec ht (hvalid message List.mem_cons_self)
      · rw [handleFrames, hnext]
        exact ih ht' fun m hm => hvalid m (List.mem_cons_of_mem _ hm)
      · rw [handleFrames, hthrew]
        exact .inr ⟨ht.messageLength, rfl, rfl⟩

theorem handleFrames_append (codec : Codec σ μ) (ht : t.Ready limit) {messages : List Bytes}
    (hvalid : ∀ message ∈ messages, isValidMessage message = true) (more : List Bytes) :
    handleFrames codec t (messages ++ more) =
      if (handleFrames codec t messages).2.socket then
        ((handleFrames codec t messages).1 ++
            (handleFrames codec (handleFrames codec t messages).2 more).1,
          (handleFrames codec (handleFrames codec t messages).2 more).2)
      else handleFrames codec t messages := by
  induction messages generalizing t with
  | nil => rw [handleFrames, if_pos ht.socket]; rfl
  | cons message rest ih =>
      obtain ⟨deserialized, t', hnext, ht'⟩ | hthrew :=
        handleFrame_ready codec ht (hvalid message List.mem_cons_self)
      · simp only [List.cons_append, handleFrames, hnext]
        rw [ih ht' fun m hm => hvalid m (List.mem_cons_of_mem _ hm)]
        split
        · rw [List.append_assoc]
        · rfl
      · rw [List.cons_append, handleFrames, handleFrames, hthrew]
        rfl

/-! ### What waits -/

theorem headerLength_pos (t : SocketTransport σ) : 0 < t.headerLength := by
  unfold headerLength
  split <;> decide

/-- The frames of this transport's connection. -/
abbrev cutter (t : SocketTransport σ) : Cutter UInt8 Bytes := frames t.headerLength t.headerLength_pos

/-- The transport with the start of a frame: a part of the header, or a buffer for the frame. -/
def waiting (t : SocketTransport σ) (start : Bytes) : SocketTransport σ :=
  if start.length < t.headerLength then t.put start none
  else t.put [] (some ⟨t.headerLength + getPayloadLength start t.headerLength, start⟩)

theorem Ready.waiting (ht : t.Ready limit) (start : Bytes) : (t.waiting start).Ready limit := by
  unfold SocketTransport.waiting
  split <;> exact ⟨ht.handshake, ht.messageLength, ht.socket, ht.connectionLost⟩

theorem headerLength_congr {t' : SocketTransport σ} (h : t'.messageLength = t.messageLength) :
    t'.headerLength = t.headerLength := by
  rw [headerLength, headerLength, isUpgradedProtocol, isUpgradedProtocol, h]

theorem headerLength_handleFrames (ht : t.Ready limit) {messages : List Bytes}
    (hvalid : ∀ message ∈ messages, isValidMessage message = true) :
    (handleFrames codec t messages).2.headerLength = t.headerLength := by
  obtain h | h := handleFrames_ready codec ht hvalid
  · exact headerLength_congr (h.messageLength.trans ht.messageLength.symm)
  · exact headerLength_congr (h.messageLength.trans ht.messageLength.symm)

theorem handleFrames_waiting (ht : t.Ready limit) {messages : List Bytes}
    (hvalid : ∀ message ∈ messages, isValidMessage message = true) (start : Bytes) :
    handleFrames codec (t.waiting start) messages =
      ((handleFrames codec t messages).1, (handleFrames codec t messages).2.waiting start) := by
  unfold waiting
  rw [headerLength_handleFrames ht hvalid]
  split
  · rw [handleFrames_put]
  · rw [handleFrames_put]

/-- **Splitting.**  Where every header is in order, the data splits into its frames, and the
transport waits with the rest. -/
theorem splitMessages_eq (ht : t.Ready limit) {rounds : Nat} {data : Bytes}
    (hrounds : data.length < rounds)
    (hframed : Framed t.headerLength limit t.headerLength_pos data) :
    splitMessages rounds (t.put [] none) data =
      some ((t.cutter.drain data).1, t.waiting (t.cutter.drain data).2) := by
  have hlimit : (t.put [] none).messageLength = some limit := ht.messageLength
  have hheader : (t.put [] none).headerLength = t.headerLength := rfl
  induction rounds generalizing data with
  | zero => cases hrounds
  | succ rounds ih =>
      unfold splitMessages
      rw [hheader]
      by_cases hnil : data = []
      · have hcut : t.cutter.cut data = none := by
          rw [cut_eq_none, hnil]
          intro hlen
          exact absurd t.headerLength_pos (Nat.not_lt.mpr hlen)
        rw [if_pos hnil, Cutter.drain_of_none hcut, waiting, hnil,
          if_pos (show ([] : Bytes).length < _ from t.headerLength_pos)]
        rfl
      rw [if_neg hnil]
      by_cases hshort : data.length < t.headerLength
      · have hcut : t.cutter.cut data = none := by
          rw [cut_eq_none]
          intro hlen
          omega
        rw [if_pos hshort, Cutter.drain_of_none hcut, waiting, if_pos hshort]
        rfl
      have hlen := Nat.le_of_not_lt hshort
      have hpayload := (hframed.head hlen).2
      rw [if_neg hshort]
      dsimp only
      split
      · next hnone =>
          rw [hlimit] at hnone
          cases hnone
      next limit' hsome =>
      rw [hlimit] at hsome
      cases hsome
      rw [if_neg (Nat.not_lt.mpr hpayload)]
      by_cases hwhole : t.headerLength + getPayloadLength data t.headerLength ≤ data.length
      · have hcut : t.cutter.cut data = some (data.take _, data.drop _) :=
          cut_eq_some.mpr ⟨hlen, hwhole, rfl, rfl⟩
        have hpos := t.headerLength_pos
        rw [if_pos hwhole, Cutter.drain_of_some hcut,
          ih (by rw [List.length_drop]; omega) (hframed.rest hcut)]
        rfl
      · have hcut : t.cutter.cut data = none := by
          rw [cut_eq_none]
          intro _
          omega
        rw [if_neg hwhole, Cutter.drain_of_none hcut, waiting, if_neg hshort]
        rfl

/-! ### Chunks -/

/-- What data in order comes to: its frames are handled, and the rest waits. -/
def advance (codec : Codec σ μ) (t : SocketTransport σ) (data : Bytes) :
    List μ × SocketTransport σ :=
  ((handleFrames codec t (t.cutter.drain data).1).1,
    (handleFrames codec t (t.cutter.drain data).1).2.waiting (t.cutter.drain data).2)

theorem handleMessage_eq (codec : Codec σ μ) (ht : t.Ready limit) {data : Bytes}
    (hframed : Framed t.headerLength limit t.headerLength_pos data) :
    handleMessage codec (t.put [] none) data = advance codec t data := by
  rw [handleMessage, splitMessages_eq ht (Nat.lt_succ_self _) hframed]
  exact handleFrames_waiting ht (fun m hm => (hframed.1 m hm).1) _

theorem consumeFresh_eq (codec : Codec σ μ) (ht : t.Ready limit) {start chunk : Bytes}
    (hframed : Framed t.headerLength limit t.headerLength_pos (start ++ chunk)) :
    (t.put start none).consumeFresh codec chunk = some (advance codec t (start ++ chunk)) := by
  have hheader : (t.put [] none).headerLength = t.headerLength := rfl
  have hlimit : (t.put [] none).messageLength = some limit := ht.messageLength
  have hnegotiated : (t.put [] none).consumeNegotiation (start ++ chunk) =
      some (start ++ chunk, t.put [] none) := by
    have hdone : (t.put [] none).handshake ≠ .pending := by
      change t.handshake ≠ .pending
      rw [ht.handshake]
      decide
    rw [consumeNegotiation, if_pos hdone]
  have hmerged : (t.put start none).mergeInboundChunk chunk = (start ++ chunk, t.put [] none) := rfl
  simp only [consumeFresh, hmerged, hnegotiated, hheader, Option.bind_eq_bind, Option.bind_some,
    Option.pure_def]
  generalize start ++ chunk = data at hframed
  by_cases hshort : data.length < t.headerLength
  · have hcut : t.cutter.cut data = none := cut_eq_none.mpr fun hlen => by omega
    have hadvance : advance codec t data = ([], t.put data none) := by
      rw [advance, Cutter.drain_of_none hcut, waiting]
      change ([], if data.length < t.headerLength then _ else _) = _
      rw [if_pos hshort]
      rfl
    rw [hadvance, if_pos hshort]
    split
    · next hnil => rw [hnil]
    · rfl
  have hlen := Nat.le_of_not_lt hshort
  have hnil : data ≠ [] := by
    rintro rfl
    exact absurd t.headerLength_pos (Nat.not_lt.mpr hlen)
  obtain ⟨hvalid, hpayload⟩ := hframed.head hlen
  rw [if_neg hnil, if_neg hshort, hvalid, if_neg (by decide)]
  refine Option.bind_eq_some_iff.mpr ⟨limit, hlimit, ?_⟩
  rw [if_neg (Nat.not_lt.mpr hpayload)]
  by_cases hwhole : data.length < t.headerLength + getPayloadLength data t.headerLength
  · have hcut : t.cutter.cut data = none := cut_eq_none.mpr fun _ => hwhole
    rw [if_pos hwhole, advance, Cutter.drain_of_none hcut, waiting]
    change _ = some ([], if data.length < t.headerLength then _ else _)
    rw [if_neg hshort]
    rfl
  · rw [if_neg hwhole, handleMessage_eq codec ht hframed]

/-- The transport is `u` apart from its buffers, and waits with `rest` if it is open. -/
structure After (u : SocketTransport σ) (rest : Bytes) (t' : SocketTransport σ) : Prop where
  same : t'.put [] none = u.put [] none
  waits : u.socket = true → t' = u.waiting rest

theorem after_waiting (u : SocketTransport σ) (rest : Bytes) : After u rest (u.waiting rest) where
  same := by
    unfold waiting
    split <;> rfl
  waits _ := rfl

theorem drain_nil (t : SocketTransport σ) : t.cutter.drain [] = ([], []) :=
  Cutter.drain_of_none (cut_eq_none.mpr fun hlen =>
    absurd t.headerLength_pos (Nat.not_lt.mpr hlen))

theorem cutter_congr {u : SocketTransport σ} (h : u.headerLength = t.headerLength) :
    u.cutter = t.cutter := by
  simp only [cutter, h]

/-- A frame buffer that is filled holds one frame. -/
theorem cut_filled {start : Bytes} {more : Bytes} (hlen : t.headerLength ≤ start.length)
    (hfull : (start ++ more).length = t.headerLength + getPayloadLength start t.headerLength) :
    t.cutter.cut (start ++ more) = some (start ++ more, []) := by
  have hpayload := getPayloadLength_append hlen more
  refine cut_eq_some.mpr ⟨by omega, by omega, ?_, ?_⟩
  · rw [hpayload, List.take_of_length_le (by omega)]
  · rw [hpayload, List.drop_of_length_le (by omega)]

theorem consumeInboundChunk_eq (codec : Codec σ μ) (ht : t.Ready limit) {start chunk : Bytes}
    (hstart : t.cutter.cut start = none)
    (hframed : Framed t.headerLength limit t.headerLength_pos (start ++ chunk)) :
    ∃ t', (t.waiting start).consumeInboundChunk codec chunk =
        some ((handleFrames codec t (t.cutter.drain (start ++ chunk)).1).1, t') ∧
      After (handleFrames codec t (t.cutter.drain (start ++ chunk)).1).2
        (t.cutter.drain (start ++ chunk)).2 t' := by
  by_cases hshort : start.length < t.headerLength
  · have hwaiting : t.waiting start = t.put start none := if_pos hshort
    refine ⟨_, ?_, after_waiting _ _⟩
    rw [hwaiting]
    exact consumeFresh_eq codec ht hframed
  have hlen := Nat.le_of_not_lt hshort
  have hpart := cut_eq_none.mp hstart hlen
  have hwaiting : t.waiting start = t.put [] (some ⟨_, start⟩) := if_neg hshort
  rw [hwaiting]
  unfold consumeInboundChunk
  dsimp only [put]
  by_cases hless : (start ++ chunk).length <
      t.headerLength + getPayloadLength start t.headerLength
  · -- the buffer takes the whole chunk and is not full yet
    have htake : min (t.headerLength + getPayloadLength start t.headerLength - start.length)
        chunk.length = chunk.length := by
      rw [List.length_append] at hless
      omega
    have hcut : t.cutter.cut (start ++ chunk) = none := by
      rw [cut_eq_none, getPayloadLength_append hlen]
      exact fun _ => hless
    rw [htake, List.take_length, if_pos hless, Cutter.drain_of_none hcut]
    refine ⟨_, rfl, ?_⟩
    have hlong : ¬ (start ++ chunk).length < t.headerLength := by
      rw [List.length_append]
      omega
    have hsame : t.waiting (start ++ chunk) =
        t.put [] (some ⟨t.headerLength + getPayloadLength start t.headerLength, start ++ chunk⟩) := by
      rw [waiting, if_neg hlong, getPayloadLength_append hlen]
    exact ⟨rfl, fun _ => hsame.symm⟩
  · -- the buffer holds a frame, and the rest of the chunk comes after it
    rw [List.length_append] at hless
    generalize hn : min (t.headerLength + getPayloadLength start t.headerLength - start.length)
      chunk.length = n
    have hfull : (start ++ chunk.take n).length =
        t.headerLength + getPayloadLength start t.headerLength := by
      rw [List.length_append, List.length_take]
      omega
    have hsplit : start ++ chunk = (start ++ chunk.take n) ++ chunk.drop n := by
      rw [List.append_assoc, List.take_append_drop]
    have hcut := cut_filled (t := t) hlen hfull
    have hfilled : t.cutter.drain (start ++ chunk.take n) = ([start ++ chunk.take n], []) := by
      rw [Cutter.drain_of_some hcut, drain_nil]
    have hrest := Cutter.drain_of_some (t.cutter.stable (chunk.drop n) hcut)
    rw [hsplit] at hframed ⊢
    rw [List.nil_append] at hrest
    rw [if_neg (by omega), hrest]
    have hmessage := handleMessage_eq codec ht hframed.left
    have hvalid : ∀ m ∈ [start ++ chunk.take n], isValidMessage m = true := by
      intro m hm
      exact (hframed.parts.1 m (hfilled ▸ hm)).1
    have hframed' : Framed t.headerLength limit t.headerLength_pos (chunk.drop n) := by
      have := hframed.parts.2
      rwa [hfilled] at this
    have happend := handleFrames_append codec ht hvalid (t.cutter.drain (chunk.drop n)).1
    rw [List.singleton_append] at happend
    dsimp only [put] at hmessage ⊢
    rw [hmessage, advance, hfilled]
    dsimp only
    obtain hready | hbroken := handleFrames_ready codec ht hvalid
    · rw [happend, if_pos hready.socket]
      have hheader := headerLength_congr (hready.messageLength.trans ht.messageLength.symm)
      generalize handleFrames codec t [start ++ chunk.take n] = done at hready hheader
      have hcutter := cutter_congr hheader
      have hlost : (done.2.waiting []).connectionLost = false :=
        (hready.waiting []).connectionLost
      have hwaits : done.2.waiting [] = done.2.put [] none := if_pos done.2.headerLength_pos
      rw [hlost, ← hcutter]
      by_cases hmore : n < chunk.length
      · have hfresh : (done.2.put [] none).consumeFresh codec (chunk.drop n) =
            some (advance codec done.2 ([] ++ chunk.drop n)) :=
          consumeFresh_eq codec hready (hframed'.congr hheader)
        rw [List.nil_append] at hfresh
        rw [if_pos ⟨hmore, rfl⟩, hwaits, hfresh]
        exact ⟨_, rfl, after_waiting _ _⟩
      · have hnone : chunk.drop n = [] := List.drop_of_length_le (by omega)
        rw [if_neg (fun h => hmore h.1), hnone, drain_nil]
        refine ⟨_, ?_, after_waiting _ _⟩
        rw [handleFrames, List.append_nil]
    · have hlost : ((handleFrames codec t [start ++ chunk.take n]).2.waiting []).connectionLost =
          true := by
        unfold waiting
        split <;> exact hbroken.connectionLost
      rw [happend, hlost, if_neg (fun h => Bool.noConfusion h.2), if_neg (by simp [hbroken.socket])]
      refine ⟨_, rfl, (after_waiting _ _).same, fun hopen => ?_⟩
      rw [hbroken.socket] at hopen
      cases hopen

/-- What a stream has come to, in whatever chunks: its frames are handled, and the rest waits. -/
structure Follows (codec : Codec σ μ) (t : SocketTransport σ) (s : Bytes) (r : Received σ μ) :
    Prop where
  messages : r.messages = (handleFrames codec t (t.cutter.drain s).1).1
  threw : r.threw = false
  after : After (handleFrames codec t (t.cutter.drain s).1).2 (t.cutter.drain s).2 r.transport

theorem Follows.receive (ht : t.Ready limit) {s chunk : Bytes} {r : Received σ μ}
    (hr : Follows codec t s r)
    (hframed : Framed t.headerLength limit t.headerLength_pos (s ++ chunk)) :
    Follows codec t (s ++ chunk) (SocketTransport.receive codec r chunk) := by
  obtain ⟨hmessages, hthrew, hsame, hwaits⟩ := hr
  obtain ⟨hheaders, hframed'⟩ := hframed.parts
  have hvalid := fun m hm => (hheaders m hm).1
  have happend := handleFrames_append codec ht hvalid
    (t.cutter.drain ((t.cutter.drain s).2 ++ chunk)).1
  have hdrain := t.cutter.drain_append s chunk
  have hsocket : r.transport.socket = (handleFrames codec t (t.cutter.drain s).1).2.socket := by
    have hput := congrArg socket hsame
    exact hput
  have hcut := t.cutter.cut_drain s
  unfold SocketTransport.receive
  obtain hready | hbroken := handleFrames_ready codec ht hvalid
  · have hheader := headerLength_congr (hready.messageLength.trans ht.messageLength.symm)
    have hcutter := cutter_congr hheader
    rw [if_pos hready.socket] at happend
    rw [hsocket, hready.socket, if_neg (by decide), hwaits hready.socket]
    have hcut' : (handleFrames codec t (t.cutter.drain s).1).2.cutter.cut (t.cutter.drain s).2 =
        none := by rw [hcutter]; exact hcut
    obtain ⟨t', hconsume, hafter⟩ :=
      consumeInboundChunk_eq codec hready hcut' (hframed'.congr hheader)
    rw [hconsume]
    rw [hcutter] at hafter ⊢
    exact ⟨by rw [hdrain, happend, hmessages], hthrew, by rw [hdrain, happend]; exact hafter⟩
  · rw [if_neg (by simp [hbroken.socket])] at happend
    rw [hsocket, hbroken.socket, if_pos (show (!false) = true from rfl)]
    refine ⟨by rw [hdrain, happend, hmessages], hthrew, ?_⟩
    rw [hdrain, happend]
    refine ⟨hsame, fun hopen => ?_⟩
    rw [hbroken.socket] at hopen
    cases hopen

theorem Follows.foldl (ht : t.Ready limit) {s : Bytes} {r : Received σ μ}
    (hr : Follows codec t s r) {chunks : List Bytes}
    (hframed : Framed t.headerLength limit t.headerLength_pos (s ++ chunks.flatten)) :
    Follows codec t (s ++ chunks.flatten) (chunks.foldl (SocketTransport.receive codec) r) := by
  induction chunks generalizing s r with
  | nil =>
      rw [List.flatten_nil, List.append_nil]
      exact hr
  | cons chunk chunks ih =>
      rw [List.flatten_cons, ← List.append_assoc] at hframed ⊢
      exact ih (hr.receive ht hframed.left) hframed

theorem follows_receiveAll (codec : Codec σ μ) (ht : t.Ready limit) (hbuffer : t.inboundBuffer = [])
    (hframe : t.inboundFrame = none) {chunks : List Bytes}
    (hframed : Framed t.headerLength limit t.headerLength_pos chunks.flatten) :
    Follows codec t chunks.flatten (receiveAll codec t chunks) := by
  have hstart : t = t.waiting [] := by
    rw [waiting, if_pos (show ([] : Bytes).length < _ from t.headerLength_pos), put, ← hbuffer,
      ← hframe]
  have hfollows : Follows codec t [] { transport := t } := by
    refine ⟨by rw [drain_nil]; rfl, rfl, ?_⟩
    rw [drain_nil]
    refine ⟨rfl, fun _ => hstart⟩
  exact hfollows.foldl ht hframed

/-- What the session and the peer see of the stream: the messages, whether an exception went to the
listener, and the transport with all it has sent, apart from its buffers. -/
def Received.outcome (r : Received σ μ) : List μ × Bool × SocketTransport σ :=
  (r.messages, r.threw, r.transport.put [] none)

/-- Every payload is a message. -/
def plainCodec : Codec Unit Bytes where
  accept _ payload := some (payload, ())
  isGoodbye _ := false

/-- A transport after a handshake for messages of 2 ^ 9 bytes. -/
def negotiated : SocketTransport Unit where
  messageLengthExponent := 9
  serializerType := 1
  profile := ()
  messageLength := some 512
  handshake := .completed

end SocketTransport

end RawSocket

end Connectanum
