import Connectanum.Lib.BigEndian
import Connectanum.Lib.Streams
import Connectanum.Lib.Utf8
import Connectanum.Native.Frame

/-!
# Mqtt — WebSocket

The task that reads MQTT over a WebSocket, `spawn_mqtt_websocket_reader`.

It reads one frame after the other and collects the payloads of the binary messages in `pending`.
These go into the queue when 64 KiB are full, before the task answers a control frame, and before it
waits for more input.  On plain TCP it coalesces the messages of a burst: with two of them pending
and no complete frame in its buffer it tries the next read twice before it flushes.

What is put into the queue is, together with `pending`, the payloads of the complete binary messages
of the stream received so far (`Steady`), and a task that waits has nothing pending (`Kept.reading`).
-/

namespace Connectanum

namespace Mqtt

open Readers
open Streams (Cutter)
open Wamp (Bytes)

/-! ### Frames -/

structure FrameError where
  message : String
  closeCode : Nat
  deriving DecidableEq, Repr

namespace FrameError

def protocol (message : String) : FrameError := { message, closeCode := 1002 }

def invalidPayload (message : String) : FrameError := { message, closeCode := 1007 }

def messageTooBig (message : String) : FrameError := { message, closeCode := 1009 }

end FrameError

inductive Frame where
  | data (opcode : UInt8) (fin : Bool) (payload : Bytes)
  | ping (payload : Bytes)
  | pong (payload : Bytes)
  | close (code : Option Nat) (reason : String)
  deriving DecidableEq, Repr

def maxMessageLen : Nat := 2 ^ 24

/-- `parse_websocket_close_frame_payload`. -/
def parseClosePayload : Bytes → Except FrameError Frame
  | [] => .ok (.close none "")
  | [_] =>
      .error (.protocol
        "websocket close frame payload must be empty or include a 2-byte status code")
  | b₀ :: b₁ :: rest =>
      match Utf8.decode rest with
      | some reason => .ok (.close (some (BigEndian.read [b₀, b₁])) reason)
      | none => .error (.invalidPayload "websocket close reason must be valid UTF-8")

/-- `xor_websocket_mask`. -/
def xorMask (mask payload : Bytes) : Bytes :=
  payload.mapIdx fun i byte => byte ^^^ mask.getD (i % 4) 0

def frameOf (opcode : UInt8) (fin : Bool) (payload : Bytes) : Except FrameError Frame :=
  if opcode = 0x0 ∨ opcode = 0x1 ∨ opcode = 0x2 then .ok (.data opcode fin payload)
  else if opcode = 0x8 then parseClosePayload payload
  else if opcode = 0x9 then .ok (.ping payload)
  else if opcode = 0xA then .ok (.pong payload)
  else .error (.protocol "unsupported websocket opcode")

/-- The payload length, of which the header's second byte holds the code. -/
def readLength (code : UInt8) : Reader UInt8 Nat :=
  if code = 126 then BigEndian.read <$> take 2
  else if code = 127 then BigEndian.read <$> take 8
  else pure code.toNat

def readMask (masked : Bool) : Reader UInt8 Bytes := if masked then take 4 else pure []

def isControlFrame (opcode : UInt8) : Bool := opcode &&& 0x08 ≠ 0

def maskingError (expectMasked : Bool) : FrameError :=
  .protocol
    (if expectMasked then "client websocket frames must be masked"
      else "server websocket frames must not be masked")

/-- What follows the length of a frame. -/
def readPayload (opcode : UInt8) (fin masked : Bool) (len : Nat) :
    Reader UInt8 (Except FrameError Frame) :=
  if isControlFrame opcode && decide (125 < len) then
    pure (.error (.protocol "websocket control frames must not exceed 125 bytes"))
  else if maxMessageLen < len then
    pure (.error (.messageTooBig "websocket frame exceeds supported length"))
  else do
    let mask ← readMask masked
    let payload ← take len
    pure (frameOf opcode fin (if masked then xorMask mask payload else payload))

/-- What follows the first two bytes of a frame. -/
def readBody (expectMasked fin masked : Bool) (h₀ h₁ : UInt8) :
    Reader UInt8 (Except FrameError Frame) :=
  if h₀ &&& 0x70 ≠ 0 then pure (.error (.protocol "websocket reserved bits must be zero"))
  else if masked ≠ expectMasked then pure (.error (maskingError expectMasked))
  else if isControlFrame (h₀ &&& 0x0F) && !fin then
    pure (.error (.protocol "websocket control frames must not be fragmented"))
  else readLength (h₁ &&& 0x7F) >>= readPayload (h₀ &&& 0x0F) fin masked

/-- `read_websocket_frame_mode`, on the bytes that have come in.  `none`: it waits for more. -/
def readFrame (expectMasked : Bool) : Reader UInt8 (Except FrameError Frame) := do
  let h₀ ← next
  let h₁ ← next
  readBody expectMasked (h₀ &&& 0x80 ≠ 0) (h₁ &&& 0x80 ≠ 0) h₀ h₁

theorem local_readLength (code : UInt8) : Local (readLength code) := by
  rw [readLength]
  split
  · exact local_map (local_take 2) _
  · split
    · exact local_map (local_take 8) _
    · exact local_pure _

theorem local_readMask (masked : Bool) : Local (readMask masked) := by
  rw [readMask]
  split
  · exact local_take 4
  · exact local_pure _

theorem local_readFrame (expectMasked : Bool) : Local (readFrame expectMasked) := by
  refine local_bind local_next fun h₀ => local_bind local_next fun h₁ => ?_
  rw [readBody]
  split
  · exact local_pure _
  split
  · exact local_pure _
  split
  · exact local_pure _
  refine local_bind (local_readLength _) fun len => ?_
  rw [readPayload]
  split
  · exact local_pure _
  split
  · exact local_pure _
  exact local_bind (local_readMask _) fun mask =>
    local_bind (local_take len) fun payload => local_pure _

theorem readFrame_shorter {expectMasked : Bool} {s rest : Bytes} {r : Except FrameError Frame}
    (h : readFrame expectMasked s = some (r, rest)) : rest.length < s.length := by
  obtain ⟨used, rfl, hused⟩ := local_readFrame expectMasked h
  cases used with
  | nil => cases hused []
  | cons b used =>
      rw [List.length_append, List.length_cons]
      omega

/-- The frames of a stream. -/
def frames : Cutter UInt8 (Except FrameError Frame) :=
  .ofReader (readFrame true) (local_readFrame true) readFrame_shorter

/-- `websocket_buffer_contains_complete_frame`. -/
def containsCompleteFrame (buffer : Bytes) : Bool :=
  match buffer with
  | _ :: h₁ :: rest =>
      let extendedLength := if h₁ &&& 0x7F = 126 then 2 else if h₁ &&& 0x7F = 127 then 8 else 0
      let headerLength := 2 + extendedLength + (if h₁ &&& 0x80 ≠ 0 then 4 else 0)
      let payloadLength :=
        if h₁ &&& 0x7F = 126 then BigEndian.read (rest.take 2)
        else if h₁ &&& 0x7F = 127 then BigEndian.read (rest.take 8)
        else (h₁ &&& 0x7F).toNat
      decide (headerLength ≤ buffer.length) && decide (payloadLength ≤ buffer.length - headerLength)
  | _ => false

theorem take_of_le {n : Nat} {input : Bytes} (h : n ≤ input.length) :
    (take n : Reader UInt8 Bytes) input = some (input.take n, input.drop n) :=
  if_neg (Nat.not_lt.mpr h)

theorem isSome_bind {α β : Type} {p : Reader UInt8 α} {f : α → Reader UInt8 β} {input rest : Bytes}
    {a : α} (hp : p input = some (a, rest)) (hf : (f a rest).isSome) :
    ((p >>= f) input).isSome := by
  obtain ⟨r, hr⟩ := Option.isSome_iff_exists.mp hf
  exact Option.isSome_iff_exists.mpr ⟨r, bind_eq_some.mpr ⟨a, rest, hp, hr⟩⟩

/-- The length of the payload is read where `containsCompleteFrame` looks for it. -/
theorem readLength_eq {code : UInt8} {rest : Bytes}
    (h : (if code = 126 then 2 else if code = 127 then 8 else 0) ≤ rest.length) :
    readLength code rest =
      some (if code = 126 then BigEndian.read (rest.take 2)
        else if code = 127 then BigEndian.read (rest.take 8) else code.toNat,
        rest.drop (if code = 126 then 2 else if code = 127 then 8 else 0)) := by
  rw [readLength]
  by_cases h₁ : code = 126
  · simp only [if_pos h₁] at h ⊢
    exact map_eq_some.mpr ⟨_, _, take_of_le h, rfl⟩
  by_cases h₂ : code = 127
  · simp only [if_neg h₁, if_pos h₂] at h ⊢
    exact map_eq_some.mpr ⟨_, _, take_of_le h, rfl⟩
  · simp only [if_neg h₁, if_neg h₂]
    rfl

theorem isSome_readPayload {opcode : UInt8} {fin masked : Bool} {len : Nat} {rest : Bytes}
    (h : (if masked then 4 else 0) + len ≤ rest.length) :
    (readPayload opcode fin masked len rest).isSome := by
  rw [readPayload]
  split
  · rfl
  split
  · rfl
  cases masked with
  | true =>
      rw [if_pos rfl] at h
      refine isSome_bind (take_of_le (n := 4) (by omega)) (isSome_bind (take_of_le ?_) rfl)
      rw [List.length_drop]
      omega
  | false =>
      rw [if_neg (by decide)] at h
      exact isSome_bind rfl (isSome_bind (take_of_le (by omega)) rfl)

/-- The read of a frame does not wait when the buffer has a complete one. -/
theorem isSome_readFrame {expectMasked : Bool} {buffer : Bytes}
    (h : containsCompleteFrame buffer = true) : (readFrame expectMasked buffer).isSome := by
  obtain _ | ⟨h₀, _ | ⟨h₁, rest⟩⟩ := buffer
  · cases h
  · cases h
  rw [containsCompleteFrame] at h
  generalize hextended :
    (if h₁ &&& 0x7F = 126 then 2 else if h₁ &&& 0x7F = 127 then 8 else 0) = extended at h
  obtain ⟨hheader, hpayload⟩ := Bool.and_eq_true_iff.mp h
  have hheader := of_decide_eq_true hheader
  have hpayload := of_decide_eq_true hpayload
  rw [List.length_cons, List.length_cons] at hheader hpayload
  refine isSome_bind rfl (isSome_bind rfl ?_)
  rw [readBody]
  split
  · rfl
  split
  · rfl
  split
  · rfl
  refine isSome_bind (readLength_eq (by rw [hextended]; omega)) (isSome_readPayload ?_)
  rw [hextended, List.length_drop]
  simp only [decide_eq_true_eq]
  omega

/-! ### Messages -/

/-- The message with the next fragment of it; `begun`: what there is of the message.  `none`: the
fragment continues nothing or is out of place, is not binary, or is too long. -/
def fragment (begun : Option Bytes) (opcode : UInt8) (payload : Bytes) : Option Bytes :=
  match begun with
  | none => if opcode = 0x2 ∧ payload.length ≤ maxMessageLen then some payload else none
  | some message =>
      if opcode = 0x0 ∧ message.length + payload.length ≤ maxMessageLen then
        some (message ++ payload)
      else none

/-- The payloads of the complete binary messages, up to a frame that closes the connection. -/
def payloads : Option Bytes → List (Except FrameError Frame) → Bytes
  | begun, .ok (.data opcode fin payload) :: rest =>
      match fragment begun opcode payload with
      | some message =>
          if fin then message ++ payloads none rest else payloads (some message) rest
      | none => []
  | begun, .ok (.ping _) :: rest => payloads begun rest
  | begun, .ok (.pong _) :: rest => payloads begun rest
  | _, _ => []

/-- `WebSocketMessageAccumulator`. -/
structure Accumulator where
  opcode : Option UInt8 := none
  segments : List Bytes := []
  complete : Bool := false
  deriving DecidableEq, Repr

namespace Accumulator

def len (a : Accumulator) : Nat := a.segments.flatten.length

/-- The opcode of the message to which a data frame belongs. -/
def opcodeOf (a : Accumulator) (opcode : UInt8) : Except FrameError (Option UInt8) :=
  if opcode = 0x0 then
    if a.opcode = none then
      .error (.protocol "received continuation frame without initial opcode")
    else .ok a.opcode
  else if opcode = 0x1 ∨ opcode = 0x2 then
    if a.opcode ≠ none then
      .error (.protocol "received new data frame before finishing continuation")
    else .ok (some opcode)
  else .error (.protocol "unsupported data opcode")

def push (a : Accumulator) (opcode : UInt8) (fin : Bool) (payload : Bytes) :
    Except FrameError Accumulator :=
  match a.opcodeOf opcode with
  | .error e => .error e
  | .ok opcode =>
      if a.len + payload.length > maxMessageLen then
        .error (.messageTooBig "websocket message exceeds supported length")
      else
        .ok { opcode, segments := a.segments ++ [payload], complete := a.complete || fin }

def takeComplete (a : Accumulator) : Option (List Bytes) × Accumulator :=
  if a.complete then (if a.segments = [] then none else some a.segments, {}) else (none, a)

/-- The message that is being received. -/
def begun (a : Accumulator) : Option Bytes := a.opcode.map fun _ => a.segments.flatten

/-- Between two frames: nothing complete is left, and there are segments of a message only. -/
structure Clean (a : Accumulator) : Prop where
  complete : a.complete = false
  segments : a.opcode = none → a.segments = []

theorem clean_new : Clean {} := ⟨rfl, fun _ => rfl⟩

/-- A data frame that is not text extends the message, or is refused where it extends none. -/
theorem push_eq {a : Accumulator} (h : a.Clean) {opcode : UInt8} (htext : opcode ≠ 0x1) (fin : Bool)
    (payload : Bytes) :
    match a.push opcode fin payload with
    | .error _ => fragment a.begun opcode payload = none
    | .ok a' =>
        fragment a.begun opcode payload = some a'.segments.flatten ∧ a'.segments ≠ [] ∧
          a'.complete = fin ∧ a'.opcode ≠ none := by
  have hok (code : Option UInt8) (hcode : code ≠ none) (message : Bytes)
      (hmessage : message = a.segments.flatten ++ payload)
      (hfragment : fragment a.begun opcode payload =
        if a.len + payload.length ≤ maxMessageLen then some message else none) :
      match (if a.len + payload.length > maxMessageLen then
        .error (.messageTooBig "websocket message exceeds supported length")
        else .ok { opcode := code, segments := a.segments ++ [payload],
                   complete := a.complete || fin } : Except FrameError Accumulator) with
      | .error _ => fragment a.begun opcode payload = none
      | .ok a' =>
          fragment a.begun opcode payload = some a'.segments.flatten ∧ a'.segments ≠ [] ∧
            a'.complete = fin ∧ a'.opcode ≠ none := by
    rw [hfragment]
    by_cases hlen : a.len + payload.length ≤ maxMessageLen
    · rw [if_pos hlen, if_neg (Nat.not_lt.mpr hlen)]
      refine ⟨?_, by simp, by simp [h.complete], hcode⟩
      rw [hmessage]
      simp
    · rw [if_neg hlen, if_pos (Nat.lt_of_not_le hlen)]
  rw [push, opcodeOf]
  by_cases hzero : opcode = 0x0
  · subst hzero
    cases hopcode : a.opcode with
    | none => simp [fragment, begun, hopcode]
    | some code =>
        rw [if_pos rfl, if_neg (by simp)]
        refine hok (some code) (by simp) (a.segments.flatten ++ payload) rfl ?_
        simp [fragment, begun, hopcode, len]
  by_cases htwo : opcode = 0x2
  · subst htwo
    cases hopcode : a.opcode with
    | none =>
        have hsegments := h.segments hopcode
        rw [if_neg hzero, if_pos (.inr rfl), if_neg (by simp)]
        refine hok (some 0x2) (by simp) payload (by simp [hsegments]) ?_
        simp [fragment, begun, hopcode, len, hsegments]
    | some code => simp [fragment, begun, hopcode]
  · rw [if_neg hzero, if_neg (by simp [htext, htwo])]
    cases hopcode : a.opcode with
    | none => simp [fragment, begun, hopcode, htwo]
    | some code => simp [fragment, begun, hopcode, hzero]

end Accumulator

/-! ### The segments of a message -/

def chunkSize : Nat := 64 * 1024

/-- One segment of a message goes into `pending`, or in chunks into the queue; `fuel`: the rounds,
each of which takes some of the segment. -/
def spread : Nat → Bytes → Nat → Bytes → List Bytes × Bytes × Nat
  | 0, pending, messages, _ => ([], pending, messages)
  | fuel + 1, pending, messages, segment =>
      if segment = [] then ([], pending, messages)
      else if pending = [] ∧ chunkSize ≤ segment.length then
        let r := spread fuel [] messages (segment.drop chunkSize)
        (segment.take chunkSize :: r.1, r.2)
      else
        let taken := min (chunkSize - pending.length) segment.length
        let pending := pending ++ segment.take taken
        if pending.length = chunkSize then
          let r := spread fuel [] 0 (segment.drop taken)
          (pending :: r.1, r.2)
        else spread fuel pending messages (segment.drop taken)

def deliver : Bytes → Nat → List Bytes → List Bytes × Bytes × Nat
  | pending, messages, [] => ([], pending, messages)
  | pending, messages, segment :: rest =>
      let r := spread segment.length pending messages segment
      let r' := deliver r.2.1 r.2.2 rest
      (r.1 ++ r'.1, r'.2)

theorem spread_eq {fuel : Nat} {pending segment : Bytes} (messages : Nat)
    (hpending : pending.length < chunkSize) (hfuel : segment.length ≤ fuel) :
    (spread fuel pending messages segment).1.flatten ++ (spread fuel pending messages segment).2.1 =
        pending ++ segment ∧
      (spread fuel pending messages segment).2.1.length < chunkSize := by
  induction fuel generalizing pending messages segment with
  | zero =>
      obtain rfl : segment = [] := List.eq_nil_of_length_eq_zero (Nat.le_zero.mp hfuel)
      exact ⟨(List.append_nil _).symm, hpending⟩
  | succ fuel ih =>
      rw [spread]
      split
      · next hnil =>
          subst hnil
          exact ⟨(List.append_nil _).symm, hpending⟩
      next hne =>
      have hpos : 0 < segment.length := List.length_pos_iff.mpr hne
      have hchunk : 0 < chunkSize := by decide
      split
      · next hdirect =>
          obtain ⟨rfl, hlen⟩ := hdirect
          obtain ⟨hflat, hlt⟩ := @ih [] (segment.drop chunkSize) messages hchunk
            (by rw [List.length_drop]; omega)
          refine ⟨?_, hlt⟩
          dsimp only
          rw [List.flatten_cons, List.append_assoc, hflat, List.nil_append,
            List.take_append_drop, List.nil_append]
      · dsimp only
        generalize htaken : min (chunkSize - pending.length) segment.length = taken
        have hshort : (segment.drop taken).length ≤ fuel := by rw [List.length_drop]; omega
        have hwhole (more : Bytes) :
            pending ++ segment.take taken ++ (segment.drop taken ++ more) =
              pending ++ segment ++ more := by
          rw [List.append_assoc, ← List.append_assoc (segment.take taken),
            List.take_append_drop, List.append_assoc]
        have hwhole := hwhole []
        rw [List.append_nil, List.append_nil] at hwhole
        split
        · obtain ⟨hflat, hlt⟩ := @ih [] (segment.drop taken) 0 hchunk hshort
          refine ⟨?_, hlt⟩
          dsimp only
          rw [List.flatten_cons, List.append_assoc, hflat, List.nil_append, hwhole]
        · next hfull =>
            rw [List.length_append, List.length_take] at hfull
            have hshort' : (pending ++ segment.take taken).length < chunkSize := by
              rw [List.length_append, List.length_take]
              omega
            obtain ⟨hflat, hlt⟩ := ih messages hshort' hshort
            exact ⟨hflat.trans hwhole, hlt⟩

theorem deliver_eq {pending : Bytes} (messages : Nat) (segments : List Bytes)
    (hpending : pending.length < chunkSize) :
    (deliver pending messages segments).1.flatten ++ (deliver pending messages segments).2.1 =
        pending ++ segments.flatten ∧
      (deliver pending messages segments).2.1.length < chunkSize := by
  induction segments generalizing pending messages with
  | nil => exact ⟨(List.append_nil _).symm, hpending⟩
  | cons segment rest ih =>
      obtain ⟨hflat, hlt⟩ := spread_eq messages hpending (Nat.le_refl segment.length)
      obtain ⟨hflat', hlt'⟩ := ih (spread segment.length pending messages segment).2.2 hlt
      rw [deliver]
      refine ⟨?_, hlt'⟩
      dsimp only
      rw [List.flatten_append, List.append_assoc, hflat', ← List.append_assoc, hflat,
        List.flatten_cons, List.append_assoc]

/-! ### The task -/

/-- Where the task is: it reads a frame, it tries to (for the first or the second time), or it has
left its loop. -/
inductive Stage where
  | reading
  | trying (second : Bool)
  | ended
  deriving DecidableEq, Repr

structure WebSocket where
  coalesceBursts : Bool
  /-- What the buffer holds, after what the read of a frame that is under way has taken from it. -/
  input : Bytes := []
  pending : Bytes := []
  pendingMessages : Nat := 0
  accumulator : Accumulator := {}
  stage : Stage := .reading
  graceful : Bool := false
  /-- What the task sent on the control channel. -/
  controls : List (UInt8 × Bytes) := []
  /-- Everything that came in. -/
  stream : Bytes := []
  deriving Repr

inductive Event where
  /-- A read of the socket gives some bytes, none for now, or no more. -/
  | bytes (chunk : Bytes)
  | notReady
  | eof
  /-- The frame read completes; `accepted`: the control channel is open. -/
  | frame (accepted : Bool)
  deriving DecidableEq, Repr

/-- What `flush_mqtt_websocket_inbound` puts into the queue. -/
def flush (pending : Bytes) : List Bytes := if pending = [] then [] else [pending]

theorem flatten_flush (pending : Bytes) : (flush pending).flatten = pending := by
  rw [flush]
  split
  · next h => rw [h]; rfl
  · simp

namespace WebSocket

/-- The task leaves its loop. -/
def leave (w : WebSocket) : WebSocket × List Bytes :=
  ({ w with pending := [], stage := .ended }, flush w.pending)

/-- It leaves with a close frame. -/
def close (w : WebSocket) (payload : Bytes) (graceful : Bool) : WebSocket × List Bytes :=
  leave { w with controls := w.controls ++ [(0x8, payload)], graceful }

/-- The head of the loop. -/
def enter (w : WebSocket) : WebSocket :=
  let messages := if w.pending = [] then 0 else w.pendingMessages
  { w with
    pendingMessages := messages
    stage :=
      if w.coalesceBursts && decide (2 ≤ messages) && !containsCompleteFrame w.input then
        .trying false
      else .reading }

/-- The end of the loop's body. -/
def turn (w : WebSocket) : WebSocket × List Bytes :=
  if !containsCompleteFrame w.input && (!w.coalesceBursts || decide (w.pendingMessages < 2)) then
    (enter { w with pending := [] }, flush w.pending)
  else (enter w, [])

/-- A message is complete. -/
def message (w : WebSocket) (segments : List Bytes) : WebSocket × List Bytes :=
  let nonempty := w.coalesceBursts && segments.any fun segment => segment ≠ []
  let r := deliver w.pending w.pendingMessages segments
  let messages := if nonempty ∧ r.2.1 ≠ [] then r.2.2 + 1 else r.2.2
  let t := turn { w with pending := r.2.1, pendingMessages := messages }
  (t.1, r.1 ++ t.2)

/-- A data frame that is not text. -/
def data (w : WebSocket) (accepted : Bool) (opcode : UInt8) (fin : Bool) (payload : Bytes) :
    WebSocket × List Bytes :=
  match w.accumulator.push opcode fin payload with
  | .error e => close w (BigEndian.write 2 e.closeCode) accepted
  | .ok accumulator =>
      match accumulator.takeComplete with
      | (none, accumulator) => turn { w with accumulator }
      | (some segments, accumulator) => message { w with accumulator } segments

/-- What the task does with a frame.  All but binary data and its continuation is preceded by a
flush. -/
def handle (w : WebSocket) (accepted : Bool) : Except FrameError Frame → WebSocket × List Bytes
  | .error e => close w (BigEndian.write 2 e.closeCode) accepted
  | .ok (.data opcode fin payload) =>
      if opcode = 0x1 then close w [0x03, 0xEB] true else data w accepted opcode fin payload
  | .ok (.ping payload) =>
      if accepted then
        let t := turn { w with pending := [], controls := w.controls ++ [(0xA, payload)] }
        (t.1, flush w.pending ++ t.2)
      else leave w
  | .ok (.pong _) =>
      let t := turn { w with pending := [] }
      (t.1, flush w.pending ++ t.2)
  | .ok (.close code reason) =>
      match code with
      | some code => close w (BigEndian.write 2 code ++ Utf8.encode reason) true
      | none => close w [] true

/-- An event, and the chunks that the task then puts into the queue. -/
def act (w : WebSocket) : Event → WebSocket × List Bytes
  | .bytes chunk => ({ w with input := w.input ++ chunk, stream := w.stream ++ chunk }, [])
  | .notReady =>
      match w.stage with
      | .trying false => ({ w with stage := .trying true }, [])
      | .trying true =>
          ({ w with pending := [], pendingMessages := 0, stage := .reading }, flush w.pending)
      | _ => (w, [])
  | .eof => leave w
  | .frame accepted =>
      match readFrame true w.input with
      | some (result, rest) => handle { w with input := rest } accepted result
      | none => (w, [])

/-- The socket is read while the frame is incomplete. -/
def ok (w : WebSocket) : Event → Prop
  | .bytes chunk => chunk ≠ [] ∧ w.stage ≠ .ended ∧ readFrame true w.input = none
  | .notReady => (w.stage = .trying false ∨ w.stage = .trying true) ∧ readFrame true w.input = none
  | .eof => w.stage ≠ .ended ∧ readFrame true w.input = none
  | .frame _ => w.stage ≠ .ended ∧ readFrame true w.input ≠ none

instance (w : WebSocket) : (e : Event) → Decidable (w.ok e)
  | .bytes chunk =>
      inferInstanceAs (Decidable (chunk ≠ [] ∧ w.stage ≠ .ended ∧ readFrame true w.input = none))
  | .notReady =>
      inferInstanceAs (Decidable ((w.stage = .trying false ∨ w.stage = .trying true) ∧
        readFrame true w.input = none))
  | .eof => inferInstanceAs (Decidable (w.stage ≠ .ended ∧ readFrame true w.input = none))
  | .frame _ => inferInstanceAs (Decidable (w.stage ≠ .ended ∧ readFrame true w.input ≠ none))

/-- The task waits for input. -/
def Waits (w : WebSocket) : Prop := w.stage = .reading ∧ readFrame true w.input = none

/-- The payloads of the complete binary messages that came in. -/
def content (w : WebSocket) : Bytes := payloads none (frames.drain w.stream).1

/-! ### What holds in every state reached -/

/-- `emitted` and `pending` are what the messages so far held, whatever comes next. -/
structure Steady (w : WebSocket) (emitted : Bytes) : Prop where
  short : w.pending.length < chunkSize
  clean : w.accumulator.Clean
  accounts : ∀ more, payloads none (frames.drain (w.stream ++ more)).1 =
    emitted ++ w.pending ++ payloads w.accumulator.begun (frames.drain (w.input ++ more)).1

structure Kept (w : WebSocket) (emitted : Bytes) : Prop where
  within : emitted ++ w.pending <+: w.content
  steady : w.stage ≠ .ended → Steady w emitted
  reading : w.stage = .reading → w.pending = [] ∨ containsCompleteFrame w.input = true

variable {w : WebSocket} {emitted : Bytes}

theorem Steady.within (h : Steady w emitted) : emitted ++ w.pending <+: w.content := by
  have haccounts := h.accounts []
  rw [List.append_nil] at haccounts
  exact ⟨_, haccounts.symm⟩

/-- The flush of `pending`. -/
theorem Steady.flush (h : Steady w emitted) :
    Steady { w with pending := [] } (emitted ++ (flush w.pending).flatten) where
  short := (by decide : 0 < chunkSize)
  clean := h.clean
  accounts more := by
    rw [flatten_flush, List.append_nil]
    exact h.accounts more

theorem Steady.enter (h : Steady w emitted)
    (hempty : w.pending = [] ∨ containsCompleteFrame w.input = true ∨
      w.coalesceBursts = true ∧ 2 ≤ w.pendingMessages) :
    Kept w.enter emitted where
  within := h.within
  steady _ := ⟨h.short, h.clean, h.accounts⟩
  reading hreading := by
    obtain hnil | hcomplete | ⟨hcoalesce, htwo⟩ := hempty
    · exact .inl hnil
    · exact .inr hcomplete
    · by_cases hnil : w.pending = []
      · exact .inl hnil
      · refine .inr ?_
        change containsCompleteFrame w.input = true
        simpa [WebSocket.enter, hnil, hcoalesce, htwo] using hreading

theorem Steady.turn (h : Steady w emitted) : Kept w.turn.1 (emitted ++ w.turn.2.flatten) := by
  rw [WebSocket.turn]
  split
  · exact h.flush.enter (.inl rfl)
  · next hstay =>
      rw [List.flatten_nil, List.append_nil]
      refine h.enter (.inr ?_)
      rw [Bool.and_eq_true_iff, Bool.or_eq_true_iff, decide_eq_true_eq] at hstay
      cases hcomplete : containsCompleteFrame w.input with
      | true => exact .inl rfl
      | false =>
          refine .inr ?_
          cases hcoalesce : w.coalesceBursts with
          | true =>
              have hnone : (!containsCompleteFrame w.input) = true := by rw [hcomplete]; rfl
              exact ⟨rfl, Nat.le_of_not_lt fun hfew => hstay ⟨hnone, .inr hfew⟩⟩
          | false => simp [hcomplete, hcoalesce] at hstay

theorem kept_leave (h : emitted ++ w.pending <+: w.content) :
    Kept w.leave.1 (emitted ++ w.leave.2.flatten) where
  within := by
    rw [leave, flatten_flush, List.append_nil]
    exact h
  steady hstage := absurd rfl hstage
  reading hstage := nomatch hstage

/-- A frame is next, and `rest` comes after it. -/
theorem Steady.accounts_of_frame (h : Steady w emitted) {result : Except FrameError Frame}
    {rest : Bytes} (hframe : readFrame true w.input = some (result, rest)) (more : Bytes) :
    payloads none (frames.drain (w.stream ++ more)).1 =
      emitted ++ w.pending ++
        payloads w.accumulator.begun (result :: (frames.drain (rest ++ more)).1) := by
  rw [h.accounts more, Cutter.drain_of_some (frames.stable more hframe)]

/-- A complete message. -/
theorem Steady.message {segments : List Bytes} (hshort : w.pending.length < chunkSize)
    (hnew : w.accumulator = {})
    (haccounts : ∀ more, payloads none (frames.drain (w.stream ++ more)).1 =
      emitted ++ w.pending ++
        (segments.flatten ++ payloads none (frames.drain (w.input ++ more)).1)) :
    Kept (w.message segments).1 (emitted ++ (w.message segments).2.flatten) := by
  obtain ⟨hflat, hlt⟩ := deliver_eq w.pendingMessages segments hshort
  rw [WebSocket.message]
  dsimp only
  generalize deliver w.pending w.pendingMessages segments = r at hflat hlt ⊢
  rw [List.flatten_append, ← List.append_assoc]
  refine Steady.turn ⟨hlt, hnew ▸ Accumulator.clean_new, fun more => ?_⟩
  dsimp only
  rw [haccounts more, List.append_assoc emitted r.1.flatten, hflat, hnew]
  simp [Accumulator.begun]

theorem Steady.data (h : Steady w emitted) {opcode : UInt8} {fin : Bool} {payload rest : Bytes}
    (hframe : readFrame true w.input = some (.ok (.data opcode fin payload), rest))
    (htext : opcode ≠ 0x1) (accepted : Bool) :
    Kept (data { w with input := rest } accepted opcode fin payload).1
      (emitted ++ (data { w with input := rest } accepted opcode fin payload).2.flatten) := by
  have haccounts := h.accounts_of_frame hframe
  have hpush := Accumulator.push_eq h.clean htext fin payload
  rw [WebSocket.data]
  dsimp only
  cases hresult : w.accumulator.push opcode fin payload with
  | error e => exact kept_leave h.within
  | ok a =>
      rw [hresult] at hpush
      obtain ⟨hfragment, hsegments, hcomplete, hopcode⟩ := hpush
      simp only [payloads, hfragment] at haccounts
      dsimp only
      cases fin with
      | false =>
          have htake : a.takeComplete = (none, a) := by
            rw [Accumulator.takeComplete, hcomplete]
            rfl
          have hbegun : a.begun = some a.segments.flatten := by
            obtain ⟨code, hcode⟩ := Option.ne_none_iff_exists'.mp hopcode
            rw [Accumulator.begun, hcode]
            rfl
          rw [htake]
          refine Steady.turn ⟨h.short, ⟨hcomplete, fun hnone => absurd hnone hopcode⟩, ?_⟩
          intro more
          dsimp only
          rw [haccounts more, hbegun]
          rfl
      | true =>
          have htake : a.takeComplete = (some a.segments, {}) := by
            rw [Accumulator.takeComplete, hcomplete, if_pos rfl, if_neg hsegments]
          rw [htake]
          refine Steady.message h.short rfl fun more => ?_
          rw [haccounts more]
          rfl

theorem Steady.handle (h : Steady w emitted) {result : Except FrameError Frame} {rest : Bytes}
    (hframe : readFrame true w.input = some (result, rest)) (accepted : Bool) :
    Kept (handle { w with input := rest } accepted result).1
      (emitted ++ (handle { w with input := rest } accepted result).2.flatten) := by
  have hleave := h.within
  -- A frame between two others: what was pending is flushed, and the messages go on.
  have hother (hpayloads : ∀ frames, payloads w.accumulator.begun (result :: frames) =
      payloads w.accumulator.begun frames) (controls : List (UInt8 × Bytes)) :
      Kept (WebSocket.turn { w with input := rest, pending := [], controls }).1
        (emitted ++ (Mqtt.flush w.pending ++
          (WebSocket.turn { w with input := rest, pending := [], controls }).2).flatten) := by
    rw [List.flatten_append, ← List.append_assoc]
    refine Steady.turn ⟨(by decide : 0 < chunkSize), h.clean, fun more => ?_⟩
    dsimp only
    rw [h.accounts_of_frame hframe more, hpayloads, flatten_flush, List.append_nil]
  cases result with
  | error e => exact kept_leave hleave
  | ok frame =>
      cases frame with
      | data opcode fin payload =>
          rw [WebSocket.handle]
          split
          · exact kept_leave hleave
          · next htext => exact h.data hframe htext accepted
      | ping payload =>
          rw [WebSocket.handle]
          split
          · exact hother (fun _ => rfl) _
          · exact kept_leave hleave
      | pong payload => exact hother (fun _ => rfl) w.controls
      | close code reason =>
          cases code with
          | none => exact kept_leave hleave
          | some code => exact kept_leave hleave

/-- Nothing is pending while the task waits. -/
theorem Kept.pending_of_waits (h : Kept w emitted) (hwaits : w.Waits) : w.pending = [] := by
  obtain ⟨hreading, hnone⟩ := hwaits
  obtain hnil | hcomplete := h.reading hreading
  · exact hnil
  · have hsome : (readFrame true w.input).isSome := isSome_readFrame hcomplete
    rw [hnone] at hsome
    cases hsome

theorem Kept.act (h : Kept w emitted) (e : Event) (hok : w.ok e) :
    Kept (w.act e).1 (emitted ++ (w.act e).2.flatten) := by
  cases e with
  | bytes chunk =>
      obtain ⟨-, hstage, hnone⟩ := hok
      have hsteady := h.steady hstage
      have hsteady' : Steady { w with input := w.input ++ chunk, stream := w.stream ++ chunk }
          emitted := by
        refine ⟨hsteady.short, hsteady.clean, fun more => ?_⟩
        dsimp only
        rw [List.append_assoc w.stream, List.append_assoc w.input, hsteady.accounts]
      change Kept _ (emitted ++ [])
      rw [List.append_nil]
      exact ⟨hsteady'.within, fun _ => hsteady', fun hreading =>
        .inl (h.pending_of_waits ⟨hreading, hnone⟩)⟩
  | notReady =>
      obtain ⟨htrying, -⟩ := hok
      have hsteady : Steady w emitted := h.steady (by obtain h | h := htrying <;> rw [h] <;> nofun)
      obtain htrying | htrying := htrying
      · rw [WebSocket.act, htrying]
        dsimp only
        rw [List.flatten_nil, List.append_nil]
        exact ⟨h.within, fun _ => ⟨hsteady.short, hsteady.clean, hsteady.accounts⟩,
          fun hreading => nomatch hreading⟩
      · rw [WebSocket.act, htrying]
        have hflush := hsteady.flush
        exact ⟨hflush.within, fun _ => ⟨hflush.short, hflush.clean, hflush.accounts⟩,
          fun _ => .inl rfl⟩
  | eof => exact kept_leave h.within
  | frame accepted =>
      obtain ⟨hstage, hsome⟩ := hok
      obtain ⟨⟨result, rest⟩, hframe⟩ := Option.ne_none_iff_exists'.mp hsome
      rw [WebSocket.act, hframe]
      exact (h.steady hstage).handle hframe accepted

theorem kept_new (coalesceBursts : Bool) : Kept { coalesceBursts } [] := by
  have hsteady : Steady { coalesceBursts } [] :=
    ⟨(by decide : 0 < chunkSize), Accumulator.clean_new, fun more => rfl⟩
  exact ⟨hsteady.within, fun _ => hsteady, fun _ => .inl rfl⟩

end WebSocket

end Mqtt

end Connectanum
