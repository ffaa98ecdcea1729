import Connectanum.Lib.Chunking
import Connectanum.Lib.Utf8
import Connectanum.Native.Frame
import Connectanum.State.Value

/-!
# Client — FileTransfer

`setFile`: a file as one progressive call.  The header carries the metadata; the bytes follow in
chunks of one length, cut from whatever the source emits (`_rechunkBytes`), the last one final.

The sender is one chunk behind the source, for only when the source ends does it know which chunk
is the last.
-/

namespace Connectanum

namespace FileTransfer

open Wamp (Bytes)
open Chunking (Chunked)

/-- A byte stream: what it emits, and whether it then ends in an error. -/
structure ByteStream where
  chunks : List Bytes
  fails : Bool := false

def ByteStream.bytes (s : ByteStream) : Bytes := s.chunks.flatten

/-! ### Chunks of one length -/

/-- The variables of `_rechunkBytes`, with the chunks that it has emitted. -/
structure Rechunker (chunkSize : Nat) where
  emitted : List Bytes
  buffered : Bytes
  bufferedBytes : Nat
  counted : buffered.length = bufferedBytes
  room : bufferedBytes < chunkSize
  full : ∀ c ∈ emitted, c.length = chunkSize

namespace Rechunker

variable {chunkSize : Nat}

def start (hpos : 0 < chunkSize) : Rechunker chunkSize :=
  ⟨[], [], 0, rfl, hpos, nofun⟩

/-- What has been taken from the source. -/
def taken (r : Rechunker chunkSize) : Bytes := r.emitted.flatten ++ r.buffered

/-- `yield`, with nothing left in the buffer. -/
def yield (r : Rechunker chunkSize) (chunk : Bytes) (h : chunk.length = chunkSize) :
    Rechunker chunkSize :=
  ⟨r.emitted ++ [chunk], [], 0, rfl, Nat.zero_lt_of_lt r.room, by
    intro c hc
    rcases List.mem_append.mp hc with hc | hc
    · exact r.full c hc
    · rw [List.mem_singleton.mp hc, h]⟩

/-- The rest of a source chunk, from an offset on. -/
def rechunk (sourceChunk : Bytes) (offset : Nat) (r : Rechunker chunkSize) :
    Rechunker chunkSize :=
  if hmore : offset < sourceChunk.length then
    let remaining := sourceChunk.length - offset
    if hwhole : r.bufferedBytes = 0 ∧ chunkSize ≤ remaining then
      -- Nothing is waiting: the chunk is a part of what the source has emitted.
      rechunk sourceChunk (offset + chunkSize)
        (r.yield ((sourceChunk.drop offset).take chunkSize) (by
          rw [List.length_take, List.length_drop]
          exact Nat.min_eq_left hwhole.2))
    else
      let missing := chunkSize - r.bufferedBytes
      let take := if remaining < missing then remaining else missing
      let buffered := r.buffered ++ (sourceChunk.drop offset).take take
      have hlen : buffered.length = r.bufferedBytes + take := by
        simp only [buffered, List.length_append, List.length_take, List.length_drop, r.counted]
        grind
      if hfull : r.bufferedBytes + take = chunkSize then
        rechunk sourceChunk (offset + take) (r.yield buffered (hlen.trans hfull))
      else
        rechunk sourceChunk (offset + take)
          { r with
            buffered := buffered
            bufferedBytes := r.bufferedBytes + take
            counted := hlen
            room := by
              have hroom := r.room
              grind }
  else r
termination_by sourceChunk.length - offset
decreasing_by
  all_goals
    have hroom := r.room
    grind

@[simp] theorem taken_start (hpos : 0 < chunkSize) : (start hpos).taken = [] := rfl

@[simp] theorem taken_yield (r : Rechunker chunkSize) (chunk : Bytes)
    (h : chunk.length = chunkSize) : (r.yield chunk h).taken = r.emitted.flatten ++ chunk := by
  simp [taken, yield]

/-- The rest of the source chunk is taken, and nothing else. -/
theorem taken_rechunk (sourceChunk : Bytes) (offset : Nat) (r : Rechunker chunkSize) :
    (r.rechunk sourceChunk offset).taken = r.taken ++ sourceChunk.drop offset := by
  have hsplit : ∀ offset n, (sourceChunk.drop offset).take n ++ sourceChunk.drop (offset + n) =
      sourceChunk.drop offset := fun offset n => by
    rw [← List.drop_drop, List.take_append_drop]
  fun_induction rechunk sourceChunk offset r with
  | case1 offset r hmore remaining hwhole ih =>
      have hempty : r.buffered = [] :=
        List.eq_nil_of_length_eq_zero (r.counted.trans hwhole.1)
      rw [ih, taken_yield, List.append_assoc, hsplit, taken, hempty, List.append_nil]
  | case2 offset r hmore remaining hwhole missing take buffered hlen hfull ih =>
      rw [ih, taken_yield, List.append_assoc, List.append_assoc, hsplit, ← List.append_assoc, taken]
  | case3 offset r hmore remaining hwhole missing take buffered hlen hfull ih =>
      rw [ih, taken, List.append_assoc, List.append_assoc, hsplit, ← List.append_assoc, taken]
  | case4 offset r hover =>
      rw [List.drop_eq_nil_of_le (Nat.not_lt.mp hover), List.append_nil]

/-- A source chunk of the right length is passed on when nothing waits. -/
theorem rechunk_whole {chunk : Bytes} (r : Rechunker chunkSize) (hempty : r.bufferedBytes = 0)
    (h : chunk.length = chunkSize) : r.rechunk chunk 0 = r.yield chunk h := by
  have hpos : 0 < chunk.length := h ▸ Nat.zero_lt_of_lt r.room
  have htake : (chunk.drop 0).take chunkSize = chunk := by
    rw [List.drop_zero, ← h, List.take_length]
  rw [rechunk, dif_pos hpos]
  dsimp only
  rw [dif_pos ⟨hempty, Nat.le_of_eq h.symm⟩, rechunk, dif_neg (by omega)]
  simp only [htake]

theorem taken_foldl (chunks : List Bytes) (r : Rechunker chunkSize) :
    (chunks.foldl (fun r chunk => r.rechunk chunk 0) r).taken = r.taken ++ chunks.flatten := by
  induction chunks generalizing r with
  | nil => simp
  | cons chunk rest ih =>
      rw [List.foldl_cons, ih, taken_rechunk, List.drop_zero, List.flatten_cons,
        List.append_assoc]

end Rechunker

/-- `_rechunkBytes`. -/
def rechunkBytes (source : ByteStream) (chunkSize : Nat) (hpos : 0 < chunkSize) : ByteStream :=
  let r := source.chunks.foldl (fun r chunk => r.rechunk chunk 0) (Rechunker.start hpos)
  -- The error of a source passes through, and what waits in the buffer is lost.
  if source.fails then ⟨r.emitted, true⟩
  else ⟨r.emitted ++ if 0 < r.bufferedBytes then [r.buffered] else [], false⟩

/-! ### The metadata -/

structure ArgumentError where
  name : String
  message : String
  deriving DecidableEq

/-- `String.length`: UTF-16 code units. -/
def codeUnits (s : String) : Nat := (Utf16.encode s.toList).length

structure WampFileMetadata where
  name : String
  size : Nat
  chunkSize : Nat
  contentType : Option String
  sha256Digest : Option String
  custom : Dict
  chunkSize_pos : 0 < chunkSize

def isHexDigest (digest : String) : Bool :=
  digest.toList.length == 64 && digest.toList.all fun c =>
    ('0' ≤ c && c ≤ '9') || ('a' ≤ c && c ≤ 'f') || ('A' ≤ c && c ≤ 'F')

/-- The constructor, with `_validate`. -/
def WampFileMetadata.validated (name : String) (size chunkSize : Int)
    (contentType sha256Digest : Option String) (custom : Dict) :
    Except ArgumentError WampFileMetadata :=
  if name.isEmpty || decide (1024 < codeUnits name) || name.toList.contains '\x00' then
    .error ⟨"name", "must be 1-1024 safe chars"⟩
  else if size < 0 then .error ⟨"size", "must be >= 0"⟩
  else if hpos : chunkSize ≤ 0 then .error ⟨"chunkSize", "must be > 0"⟩
  else if contentType.any fun type => type.isEmpty || decide (255 < codeUnits type) then
    .error ⟨"contentType", "must be 1-255 chars when set"⟩
  else if sha256Digest.any fun digest => !isHexDigest digest then
    .error ⟨"sha256Digest", "must be a 64-character hexadecimal SHA-256 digest"⟩
  else .ok ⟨name, size.toNat, chunkSize.toNat, contentType, sha256Digest, custom, by omega⟩

structure WampFileSource where
  name : String
  length : Int
  openRead : ByteStream
  openReadChunks : Option (Nat → ByteStream) := none
  contentType : Option String := none
  sha256Digest : Option String := none
  nativePath : Option String := none
  custom : Dict := .empty

/-! ### The sender -/

/-- What a call sends. -/
inductive Sent where
  | header (metadata : WampFileMetadata)
  | chunk (bytes : Bytes) (progress : Bool)
  | segment (offset length : Nat) (progress : Bool)

/-- Why a transfer breaks off. -/
inductive TransferError where
  | chunkAboveLimit (length chunkSize : Nat)
  | moreThanDeclared (declared : Nat)
  | fewerThanDeclared (sent declared : Nat)
  /-- The procedure gave its final result while there was more to send. -/
  | earlyResult
  /-- The procedure answered with an error. -/
  | remoteError
  | drainFailed
  /-- The call is no longer active, or its transport does not take the chunk. -/
  | sendFailed
  | sourceFailed
  | fileFailed
  deriving DecidableEq

/-- The text of a `WampFileTransferException`.  The other errors are passed on as they are. -/
def TransferError.message : TransferError → Option String
  | chunkAboveLimit length chunkSize =>
      some s!"Source emitted a {length}-byte chunk above the {chunkSize}-byte limit"
  | moreThanDeclared declared =>
      some s!"Source emitted more than its declared {declared} bytes"
  | fewerThanDeclared sent declared =>
      some s!"Source emitted {sent} of its declared {declared} bytes"
  | earlyResult =>
      some "Remote procedure completed before the file source was exhausted"
  | remoteError | drainFailed | sendFailed | sourceFailed | fileFailed => none

inductive Outcome where
  | rejected (error : ArgumentError)
  /-- The call could not be started. -/
  | notStarted
  /-- The final chunk is sent, and the result is waited for. -/
  | awaiting
  /-- The call is cancelled (`killnowait`) and the error thrown. -/
  | cancelled (error : TransferError)
  deriving DecidableEq

/-- What the session, the transport and the procedure do to a call. -/
structure CallFate where
  starts : Bool := true
  supportsFileSegments : Bool := false
  opensFile : Bool := true
  /-- The `n`-th chunk is sent. -/
  sends : Nat → Bool := fun _ => true
  /-- The error that comes up between the `n`-th chunk and the next one. -/
  interrupts : Nat → Option TransferError := fun _ => none

section

variable (length chunkSize : Nat) (fate : CallFate)

/-- The `await for` loop, with what follows it.  `n` chunks have been sent. -/
def sendChunks : List Bytes → Bool → Nat → Option Bytes → Nat → List Sent × Outcome
  | [], fails, sentBytes, pending, n =>
      if fails then ([], .cancelled .sourceFailed)
      else if sentBytes ≠ length then ([], .cancelled (.fewerThanDeclared sentBytes length))
      else if fate.sends n then ([.chunk (pending.getD []) false], .awaiting)
      else ([], .cancelled .sendFailed)
  | chunk :: rest, fails, sentBytes, pending, n =>
      if chunkSize < chunk.length then
        ([], .cancelled (.chunkAboveLimit chunk.length chunkSize))
      else if length < sentBytes + chunk.length then ([], .cancelled (.moreThanDeclared length))
      else
        match pending with
        | none => sendChunks rest fails (sentBytes + chunk.length) (some chunk) n
        | some previous =>
            if !fate.sends n then ([], .cancelled .sendFailed)
            else
              match fate.interrupts n with
              | some error => ([.chunk previous true], .cancelled error)
              | none =>
                  let later := sendChunks rest fails (sentBytes + chunk.length) (some chunk) (n + 1)
                  (.chunk previous true :: later.1, later.2)

/-- The loop over the segments of a native file. -/
def sendSegments (hpos : 0 < chunkSize) (offset n : Nat) : List Sent × Outcome :=
  if hmore : offset < length then
    let remaining := length - offset
    let size := if remaining < chunkSize then remaining else chunkSize
    if !fate.sends n then ([], .cancelled .sendFailed)
    else if offset + size = length then ([.segment offset size false], .awaiting)
    else
      match fate.interrupts n with
      | some error => ([.segment offset size true], .cancelled error)
      | none =>
          let later := sendSegments hpos (offset + size) (n + 1)
          (.segment offset size true :: later.1, later.2)
  else ([], .awaiting)
termination_by length - offset
decreasing_by grind

end

/-- The file goes out as segments that the transport reads by itself. -/
def usesSegments (source : WampFileSource) (fate : CallFate) : Bool :=
  source.nativePath.isSome && decide (0 < source.length) && fate.supportsFileSegments

def setFile (source : WampFileSource) (chunkSize timeout : Int) (fate : CallFate) :
    List Sent × Outcome :=
  if timeout < 0 then ([], .rejected ⟨"timeout", "must not be negative"⟩)
  else
    match WampFileMetadata.validated source.name source.length chunkSize source.contentType
      source.sha256Digest source.custom with
    | .error error => ([], .rejected error)
    | .ok metadata =>
        if !fate.starts then ([], .notStarted)
        else
          let data :=
            if usesSegments source fate then
              if !fate.opensFile then ([], .cancelled .fileFailed)
              else sendSegments metadata.size metadata.chunkSize fate metadata.chunkSize_pos 0 0
            else
              let chunks :=
                match source.openReadChunks with
                | some open_ => open_ metadata.chunkSize
                | none => rechunkBytes source.openRead metadata.chunkSize metadata.chunkSize_pos
              sendChunks metadata.size metadata.chunkSize fate chunks.chunks chunks.fails 0 none 0
          (.header metadata :: data.1, data.2)

/-! ### The chunks -/

/-- The chunks are the source, in the length that was asked for. -/
theorem chunked_rechunkBytes (source : ByteStream) {chunkSize : Nat} (hpos : 0 < chunkSize)
    (h : source.fails = false) :
    Chunked chunkSize source.bytes (rechunkBytes source chunkSize hpos).chunks := by
  unfold rechunkBytes
  rw [if_neg (by rw [h]; decide)]
  dsimp only
  generalize hr : source.chunks.foldl (fun r chunk => r.rechunk chunk 0) (Rechunker.start hpos) = r
  have htaken := Rechunker.taken_foldl source.chunks (Rechunker.start hpos)
  rw [hr, Rechunker.taken_start, List.nil_append] at htaken
  rw [ByteStream.bytes, ← htaken, Rechunker.taken, ← r.counted]
  exact .of_full r.full (r.counted ▸ r.room) hpos

/-- A source that fails has given the start of its bytes. -/
theorem flatten_rechunkBytes_prefix (source : ByteStream) {chunkSize : Nat}
    (hpos : 0 < chunkSize) :
    (rechunkBytes source chunkSize hpos).chunks.flatten <+: source.bytes ∧
      ∀ c ∈ (rechunkBytes source chunkSize hpos).chunks, c.length ≤ chunkSize := by
  cases h : source.fails with
  | false =>
      have hchunked := chunked_rechunkBytes source hpos h
      exact ⟨hchunked.whole ▸ List.prefix_refl _, fun c hc => hchunked.le hc⟩
  | true =>
      unfold rechunkBytes
      rw [if_pos h]
      dsimp only
      generalize hr :
        source.chunks.foldl (fun r chunk => r.rechunk chunk 0) (Rechunker.start hpos) = r
      have htaken := Rechunker.taken_foldl source.chunks (Rechunker.start hpos)
      rw [hr, Rechunker.taken_start, List.nil_append] at htaken
      refine ⟨⟨r.buffered, ?_⟩, fun c hc => Nat.le_of_eq (r.full c hc)⟩
      rw [ByteStream.bytes, ← htaken, Rechunker.taken]

@[simp] theorem fails_rechunkBytes (source : ByteStream) {chunkSize : Nat} (hpos : 0 < chunkSize) :
    (rechunkBytes source chunkSize hpos).fails = source.fails := by
  unfold rechunkBytes
  cases h : source.fails <;> simp

/-! ### The whole transfer -/

/-- Nothing comes between the chunks of a call: `m` of them are sent from the `n`-th one on. -/
def CallFate.Carries (fate : CallFate) (n m : Nat) : Prop :=
  (∀ i < m, fate.sends (n + i) = true) ∧ ∀ i, i + 1 < m → fate.interrupts (n + i) = none

theorem CallFate.carries_succ {fate : CallFate} {n m : Nat} :
    fate.Carries n (m + 2) ↔
      fate.sends n = true ∧ fate.interrupts n = none ∧ fate.Carries (n + 1) (m + 1) := by
  constructor
  · rintro ⟨hsends, hinterrupts⟩
    refine ⟨hsends 0 (by omega), hinterrupts 0 (by omega), fun i hi => ?_, fun i hi => ?_⟩
    · rw [Nat.add_right_comm]
      exact hsends (i + 1) (by omega)
    · rw [Nat.add_right_comm]
      exact hinterrupts (i + 1) (by omega)
  · rintro ⟨hsend, hinterrupt, hsends, hinterrupts⟩
    refine ⟨fun i hi => ?_, fun i hi => ?_⟩
    · cases i with
      | zero => exact hsend
      | succ i =>
          have := hsends i (by omega)
          rwa [Nat.add_right_comm] at this
    · cases i with
      | zero => exact hinterrupt
      | succ i =>
          have := hinterrupts i (by omega)
          rwa [Nat.add_right_comm] at this

/-- The transfer runs to its end: the source gives the bytes that were declared, and every chunk is
sent. -/
structure Complete (length : Nat) (fate : CallFate) (fails : Bool) (sentBytes : Nat)
    (chunks later : List Bytes) (n : Nat) : Prop where
  ends : fails = false
  declared : sentBytes + later.flatten.length = length
  carried : fate.Carries n (max 1 chunks.length)

section

variable {length chunkSize sentBytes n : Nat} {fate : CallFate} {fails : Bool}

/-- The same transfer, once the first of two chunks has been sent. -/
theorem complete_cons {previous chunk : Bytes} {rest : List Bytes} :
    Complete length fate fails sentBytes (previous :: chunk :: rest) (chunk :: rest) n ↔
      fate.sends n = true ∧ fate.interrupts n = none ∧
        Complete length fate fails (sentBytes + chunk.length) (chunk :: rest) rest (n + 1) := by
  have hmax : max 1 (previous :: chunk :: rest).length = rest.length + 2 := by simp
  have hmax' : max 1 (chunk :: rest).length = rest.length + 1 := by simp
  constructor
  · rintro ⟨hends, hdeclared, hcarried⟩
    rw [hmax, CallFate.carries_succ] at hcarried
    rw [List.flatten_cons, List.length_append, ← Nat.add_assoc] at hdeclared
    exact ⟨hcarried.1, hcarried.2.1, hends, hdeclared, hmax' ▸ hcarried.2.2⟩
  · rintro ⟨hsend, hinterrupt, hends, hdeclared, hcarried⟩
    rw [hmax'] at hcarried
    refine ⟨hends, ?_, hmax ▸ CallFate.carries_succ.mpr ⟨hsend, hinterrupt, hcarried⟩⟩
    rw [List.flatten_cons, List.length_append, ← Nat.add_assoc]
    exact hdeclared

/-- The first chunk only goes into `pending`. -/
theorem complete_first {chunk : Bytes} {rest : List Bytes} :
    Complete length fate fails sentBytes (chunk :: rest) (chunk :: rest) n ↔
      Complete length fate fails (sentBytes + chunk.length) (chunk :: rest) rest n := by
  constructor
  · rintro ⟨hends, hdeclared, hcarried⟩
    rw [List.flatten_cons, List.length_append, ← Nat.add_assoc] at hdeclared
    exact ⟨hends, hdeclared, hcarried⟩
  · rintro ⟨hends, hdeclared, hcarried⟩
    refine ⟨hends, ?_, hcarried⟩
    rw [List.flatten_cons, List.length_append, ← Nat.add_assoc]
    exact hdeclared

/-- When the source has ended, one chunk is left to send, which may be empty. -/
theorem complete_nil {pending : Option Bytes} :
    Complete length fate fails sentBytes (pending.toList ++ []) [] n ↔
      fails = false ∧ sentBytes = length ∧ fate.sends n = true := by
  have hmax : max 1 (pending.toList ++ []).length = 1 := by cases pending <;> rfl
  constructor
  · rintro ⟨hends, hdeclared, hcarried⟩
    rw [hmax] at hcarried
    exact ⟨hends, hdeclared, hcarried.1 0 Nat.one_pos⟩
  · rintro ⟨hends, hdeclared, hsend⟩
    refine ⟨hends, hdeclared, hmax ▸ ⟨fun i hi => ?_, fun i hi => ?_⟩⟩
    · obtain rfl : i = 0 := by omega
      exact hsend
    · omega

/-- What the transfer sends when it runs to its end. -/
def finished (chunks : List Bytes) : List Sent :=
  chunks.dropLast.map (Sent.chunk · true) ++ [.chunk (chunks.getLast?.getD []) false]

/-- What it has sent when it breaks off. -/
def Broken (chunks : List Bytes) (r : List Sent × Outcome) : Prop :=
  ∃ front error, front <+: chunks ∧ r = (front.map (Sent.chunk · true), .cancelled error)

theorem broken_nil {chunks : List Bytes} (error : TransferError) :
    Broken chunks ([], .cancelled error) :=
  ⟨[], error, List.nil_prefix, rfl⟩

/-- **The sender**: it ends with the final chunk where the transfer is complete, and nowhere else. -/
theorem sendChunks_spec (length : Nat) (fate : CallFate) (fails : Bool) (sentBytes n : Nat) {later : List Bytes}
    (hle : ∀ c ∈ later, c.length ≤ chunkSize) (pending : Option Bytes) :
    (Complete length fate fails sentBytes (pending.toList ++ later) later n →
        sendChunks length chunkSize fate later fails sentBytes pending n =
          (finished (pending.toList ++ later), .awaiting)) ∧
      (¬ Complete length fate fails sentBytes (pending.toList ++ later) later n →
        Broken (pending.toList ++ later)
          (sendChunks length chunkSize fate later fails sentBytes pending n)) := by
  induction later generalizing sentBytes pending n with
  | nil =>
      rw [complete_nil, sendChunks]
      cases fails with
      | true => exact ⟨fun h => (nomatch h.1), fun _ => broken_nil _⟩
      | false =>
          rw [if_neg Bool.false_ne_true]
          by_cases hlength : sentBytes = length
          · rw [if_neg (fun h => h hlength)]
            cases hsend : fate.sends n with
            | true =>
                refine ⟨fun _ => ?_, fun h => absurd ⟨rfl, hlength, rfl⟩ h⟩
                cases pending <;> rfl
            | false => exact ⟨fun h => (nomatch h.2.2), fun _ => broken_nil _⟩
          · rw [if_pos hlength]
            exact ⟨fun h => absurd h.2.1 hlength, fun _ => broken_nil _⟩
  | cons chunk rest ih =>
      have hchunk := hle chunk (List.mem_cons_self ..)
      rw [sendChunks.eq_def]
      dsimp only
      rw [if_neg (Nat.not_lt.mpr hchunk)]
      by_cases hmore : length < sentBytes + chunk.length
      · rw [if_pos hmore]
        refine ⟨fun h => ?_, fun _ => broken_nil _⟩
        have hdeclared := h.declared
        rw [List.flatten_cons, List.length_append] at hdeclared
        omega
      rw [if_neg hmore]
      have ih' := fun n => ih (sentBytes + chunk.length) n
        (fun c hc => hle c (List.mem_cons_of_mem _ hc)) (some chunk)
      cases pending with
      | none =>
          change (Complete length fate fails sentBytes (chunk :: rest) (chunk :: rest) n → _) ∧
            (¬ Complete length fate fails sentBytes (chunk :: rest) (chunk :: rest) n → _)
          rw [complete_first]
          exact ih' n
      | some previous =>
          change (Complete length fate fails sentBytes (previous :: chunk :: rest) (chunk :: rest) n
              → _) ∧
            (¬ Complete length fate fails sentBytes (previous :: chunk :: rest) (chunk :: rest) n
              → _)
          rw [complete_cons]
          dsimp only
          cases hsend : fate.sends n with
          | false => exact ⟨fun h => (nomatch h.1), fun _ => broken_nil _⟩
          | true =>
              rw [if_neg (by decide)]
              cases hinterrupt : fate.interrupts n with
              | some error =>
                  refine ⟨fun h => (nomatch h.2.1), fun _ => ⟨[previous], error, ?_, rfl⟩⟩
                  exact ⟨chunk :: rest, rfl⟩
              | none =>
                  obtain ⟨hcomplete, hbroken⟩ := ih' (n + 1)
                  constructor
                  · intro h
                    dsimp only
                    rw [hcomplete h.2.2]
                    rfl
                  · intro h
                    obtain ⟨front, error, hfront, hr⟩ := hbroken fun h' => h ⟨rfl, rfl, h'⟩
                    refine ⟨previous :: front, error, ?_, ?_⟩
                    · exact List.cons_prefix_cons.mpr ⟨rfl, hfront⟩
                    · dsimp only
                      rw [hr]
                      rfl

end

/-- The bytes, in chunks that are marked progressive but for a final one. -/
def SentWhole (bytes : Bytes) (data : List Sent) : Prop :=
  ∃ (front : List Bytes) (last : Bytes),
    data = front.map (Sent.chunk · true) ++ [.chunk last false] ∧ front.flatten ++ last = bytes

/-- A start of the bytes, and no final chunk. -/
def SentPart (bytes : Bytes) (data : List Sent) : Prop :=
  ∃ front : List Bytes, data = front.map (Sent.chunk · true) ∧ front.flatten <+: bytes

theorem sentWhole_finished (chunks : List Bytes) : SentWhole chunks.flatten (finished chunks) := by
  refine ⟨chunks.dropLast, chunks.getLast?.getD [], rfl, ?_⟩
  rcases List.eq_nil_or_concat' chunks with rfl | ⟨front, back, rfl⟩ <;> simp

/-- The source gives the bytes that were declared, and the call carries all of its chunks. -/
def CompleteSource (source : WampFileSource) (fate : CallFate) (metadata : WampFileMetadata) :
    Prop :=
  source.openRead.fails = false ∧ (source.openRead.bytes.length : Int) = source.length ∧
    fate.Carries 0 (max 1
      (rechunkBytes source.openRead metadata.chunkSize metadata.chunkSize_pos).chunks.length)

theorem size_validated {name : String} {size chunkSize : Int}
    {contentType sha256Digest : Option String} {custom : Dict} {metadata : WampFileMetadata}
    (h : WampFileMetadata.validated name size chunkSize contentType sha256Digest custom =
      .ok metadata) : (metadata.size : Int) = size := by
  unfold WampFileMetadata.validated at h
  split at h
  · cases h
  split at h
  · cases h
  next hsize =>
  split at h
  · cases h
  split at h
  · cases h
  split at h
  · cases h
  cases h
  exact Int.toNat_of_nonneg (Int.not_lt.mp hsize)

/-- **A file is sent as it is**: the chunks are its bytes, in the length asked for, and a transfer
ends with one final chunk where the source has the declared length and nothing comes between, and
without one everywhere else. -/
theorem file_sent_in_chunks :
    (∀ (source : ByteStream) (chunkSize : Nat) (hpos : 0 < chunkSize), source.fails = false →
      Chunked chunkSize source.bytes (rechunkBytes source chunkSize hpos).chunks) ∧
    ∀ (source : WampFileSource) (chunkSize timeout : Int) (fate : CallFate)
      (metadata : WampFileMetadata),
      WampFileMetadata.validated source.name source.length chunkSize source.contentType
        source.sha256Digest source.custom = .ok metadata →
      0 ≤ timeout → fate.starts = true → source.openReadChunks = none →
      usesSegments source fate = false →
      ∃ data outcome, setFile source chunkSize timeout fate = (.header metadata :: data, outcome) ∧
        (CompleteSource source fate metadata → SentWhole source.openRead.bytes data) ∧
        (¬ CompleteSource source fate metadata → SentPart source.openRead.bytes data) := by
  refine ⟨fun source chunkSize hpos h => chunked_rechunkBytes source hpos h, ?_⟩
  intro source chunkSize timeout fate metadata hvalid htimeout hstarts hchunks hsegments
  have hset : setFile source chunkSize timeout fate =
      (fun data => (.header metadata :: data.1, data.2)) (sendChunks metadata.size
        metadata.chunkSize fate
        (rechunkBytes source.openRead metadata.chunkSize metadata.chunkSize_pos).chunks
        source.openRead.fails 0 none 0) := by
    rw [setFile, if_neg (Int.not_lt.mpr htimeout), hvalid]
    dsimp only
    rw [if_neg (by rw [hstarts]; decide), hsegments, if_neg Bool.false_ne_true, hchunks]
    dsimp only
    rw [fails_rechunkBytes]
  refine ⟨_, _, hset, ?_⟩
  generalize hcs :
    rechunkBytes source.openRead metadata.chunkSize metadata.chunkSize_pos = stream
  obtain ⟨hpart, hle⟩ := flatten_rechunkBytes_prefix source.openRead metadata.chunkSize_pos
  rw [hcs] at hpart hle
  obtain ⟨hfinished, hbroken⟩ :=
    sendChunks_spec metadata.size fate source.openRead.fails 0 0 hle none
  have hcomplete : CompleteSource source fate metadata ↔
      Complete metadata.size fate source.openRead.fails 0 stream.chunks stream.chunks 0 := by
    have hsize := size_validated hvalid
    unfold CompleteSource
    rw [hcs]
    constructor
    · rintro ⟨hends, hlength, hcarried⟩
      have hwhole := (chunked_rechunkBytes source.openRead metadata.chunkSize_pos hends).whole
      rw [hcs] at hwhole
      exact ⟨hends, by rw [hwhole]; omega, hcarried⟩
    · rintro ⟨hends, hlength, hcarried⟩
      have hwhole := (chunked_rechunkBytes source.openRead metadata.chunkSize_pos hends).whole
      rw [hcs] at hwhole
      exact ⟨hends, by rw [hwhole] at hlength; omega, hcarried⟩
  constructor
  · intro h
    have hwhole := (chunked_rechunkBytes source.openRead metadata.chunkSize_pos h.1).whole
    rw [hcs] at hwhole
    have hdata := hfinished (hcomplete.mp h)
    rw [hdata, ← hwhole]
    exact sentWhole_finished stream.chunks
  · intro h
    obtain ⟨front, error, hfront, hdata⟩ := hbroken fun h' => h (hcomplete.mpr h')
    rw [hdata]
    obtain ⟨rest, hrest⟩ := hfront
    refine ⟨front, rfl, List.IsPrefix.trans ⟨rest.flatten, ?_⟩ hpart⟩
    rw [← List.flatten_append, hrest]
    rfl

/-- Three bytes, given in chunks of one and two and sent in chunks of two. -/
theorem file_sent_in_chunks_sample :
    let source : WampFileSource :=
      { name := "a.bin", length := 3, openRead := ⟨[[1], [2, 3]], false⟩ }
    ∃ metadata data outcome,
      setFile source 2 0 {} = (.header metadata :: data, outcome) ∧ SentWhole [1, 2, 3] data := by
  intro source
  have hvalid : WampFileMetadata.validated "a.bin" 3 2 none none .empty =
      .ok ⟨"a.bin", 3, 2, none, none, .empty, by decide⟩ := by
    rw [WampFileMetadata.validated, if_neg (by decide +kernel), if_neg (by decide),
      dif_neg (by decide)]
    rfl
  obtain ⟨data, outcome, hset, hwhole, -⟩ :=
    file_sent_in_chunks.2 source 2 0 {} _ hvalid (by decide) rfl rfl rfl
  exact ⟨_, data, outcome, hset, hwhole ⟨rfl, rfl, fun _ _ => rfl, fun _ _ => rfl⟩⟩

/-- The procedure gives its final result after the first of two chunks: the source has the declared
length, and there is no final chunk. -/
theorem early_result_leaves_no_final_chunk :
    let source : WampFileSource :=
      { name := "a.bin", length := 2, openRead := ⟨[[1], [2]], false⟩ }
    (source.openRead.bytes.length : Int) = source.length ∧
      ∃ metadata, setFile source 1 0 { interrupts := fun _ => some .earlyResult } =
        ([.header metadata, .chunk [1] true], .cancelled .earlyResult) := by
  have hvalid : WampFileMetadata.validated "a.bin" 2 1 none none .empty =
      .ok ⟨"a.bin", 2, 1, none, none, .empty, by decide⟩ := by
    rw [WampFileMetadata.validated, if_neg (by decide +kernel), if_neg (by decide),
      dif_neg (by decide)]
    rfl
  have hchunks : rechunkBytes ⟨[[1], [2]], false⟩ 1 Nat.one_pos = ⟨[[1], [2]], false⟩ := by
    unfold rechunkBytes
    rw [List.foldl_cons, Rechunker.rechunk_whole (.start Nat.one_pos) rfl rfl, List.foldl_cons,
      Rechunker.rechunk_whole (.yield (.start Nat.one_pos) [1] rfl) rfl rfl]
    rfl
  refine ⟨rfl, ⟨"a.bin", 2, 1, none, none, .empty, by decide⟩, ?_⟩
  rw [setFile, if_neg (by decide), hvalid]
  dsimp only
  rw [if_neg (by decide), if_neg (by decide), hchunks]
  rfl

end FileTransfer

end Connectanum
