import Connectanum.Flat.Validators

/-!
# Flat — Dictionaries

The two CBOR validators compared.

Both walk over a value in the same way (`walk`), and differ in how they read the keys of a dictionary.
The native validator takes the text of a key as it stands.  The Dart library decodes each run of bytes
of it on its own, and so drops a byte order mark at the start of each run.  A walk that checks the
keys as it goes accepts what the walk that collects them accepts, where no dictionary has a key twice
(`checked_walk`), so the validators agree exactly on the inputs on which the two readings of the keys
agree (`validators_agree_iff`).
-/

namespace Connectanum

namespace FlatBuffers

open Cbor (major info)
open Scans

/-- A key, by the runs of bytes of which it is made. -/
abbrev Key := List Text

/-! ### Walks over a value -/

/-- What a walk does on its way: `σ` is what it knows in an array or a map, `τ` what it returns. -/
structure Visitor (σ τ : Type) where
  leaf : τ
  start : σ
  onKey : σ → Key → Option σ
  onItem : σ → τ → σ
  finish : (dictionary : Bool) → σ → τ

namespace Walk

def charge : Scan Unit Unit := Scans.charge 1000000 ()

def length (info : Nat) : Scan Unit Nat :=
  if info < 24 then pure info
  else
    match Cbor.width info with
    | some size => BigEndian.read <$> take () size
    | none => fail ()

def chunk (kind info : Nat) : Scan Unit Text := do
  let length ← length info
  let bytes ← take () length
  if kind = 3 then
    match Utf8.chars bytes with
    | some text => pure text
    | none => fail ()
  else pure []

/-- One more run of a string of unknown length. -/
def nextChunk (kind : Nat) (chunks : Key) : Scan Unit Key := do
  charge
  let header ← byte ()
  if major header ≠ kind ∨ info header = 31 then fail ()
  else do
    let text ← chunk kind (info header)
    pure (chunks ++ [text])

/-- The runs of a string. -/
def chunks (kind info : Nat) : Scan Unit Key :=
  if info ≠ 31 then (fun text => [text]) <$> chunk kind info
  else whileMore () (fun _ => not <$> atStop 255) (nextChunk kind) []

def counted (info : Nat) : Scan Unit (Option Nat) :=
  if info = 31 then pure none else some <$> length info

def more (count : Option Nat) (index : Nat) : Scan Unit Bool :=
  match count with
  | some count => pure (index < count)
  | none => not <$> atStop 255

def key : Scan Unit Key := do
  charge
  let header ← byte ()
  if major header ≠ 3 then fail () else chunks 3 (info header)

def simple (info : Nat) : Scan Unit Unit :=
  if info ≤ 23 then pure ()
  else if info = 24 then do
    let byte ← byte ()
    if byte < 32 then fail () else pure ()
  else do
    let _ ← length info
    pure ()

section

variable {σ τ : Type} (v : Visitor σ τ) (dictionary : Nat → Bool)

def element (nested : Scan Unit τ) (kind : Nat) (dictionary : Bool) (st : σ) : Scan Unit σ :=
  if dictionary then do
    let key ← key
    match v.onKey st key with
    | none => fail ()
    | some st => v.onItem st <$> nested
  else do
    let item ← nested
    if kind = 5 then v.onItem (v.onItem st item) <$> nested else pure (v.onItem st item)

/-- The elements of an array or a map. -/
def elements (nested : Scan Unit τ) (kind info depth : Nat) : Scan Unit τ :=
  if depth ≥ 64 then fail ()
  else do
    let count ← counted info
    let dictionary := decide (kind = 5) && dictionary depth
    let st ← whileMore () (more count) (element v nested kind dictionary) v.start
    pure (v.finish dictionary st)

def tagged (nested : Scan Unit τ) (info depth : Nat) : Scan Unit τ :=
  if depth ≥ 64 then fail ()
  else do
    let _ ← length info
    let item ← nested
    pure (v.finish false (v.onItem v.start item))

def walkWith (nested : Scan Unit τ) (depth : Nat) : Scan Unit τ := do
  charge
  let header ← byte ()
  match major header with
  | 0 | 1 => do
      let _ ← length (info header)
      pure v.leaf
  | kind@2 | kind@3 => do
      let _ ← chunks kind (info header)
      pure v.leaf
  | kind@4 | kind@5 => elements v dictionary nested kind (info header) depth
  | 6 => tagged v nested (info header) depth
  | _ => do
      simple (info header)
      pure v.leaf

/-- A value; `dictionary`: the maps at that depth are dictionaries. -/
def walk : (room depth : Nat) → Scan Unit τ
  | 0, _ => fail ()
  | room + 1, depth => walkWith v dictionary (walk room (depth + 1)) depth

end

/-! ### A walk takes bytes -/

theorem shrinks_length (info : Nat) : Shrinks (length info) := by
  rw [length]
  split
  · exact shrinks_pure _
  · split
    · exact (shrinks_take _ _).map _
    · exact shrinks_fail _

theorem shrinks_chunk (kind info : Nat) : Shrinks (chunk kind info) := by
  refine (shrinks_length info).bind fun n => (shrinks_take _ _).bind fun bytes => ?_
  split
  · split
    · exact shrinks_pure _
    · exact shrinks_fail _
  · exact shrinks_pure _

theorem shrinks_nextChunk (kind : Nat) (chunks : Key) : Shrinks (nextChunk kind chunks) := by
  refine (shrinks_charge _ _).bind fun _ => (consumes_byte _).shrinks.bind fun header => ?_
  split
  · exact shrinks_fail _
  · exact (shrinks_chunk _ _).bind fun _ => shrinks_pure _

theorem shrinks_stop : Shrinks (not <$> atStop 255 : Scan Unit Bool) := (shrinks_atStop 255).map _

theorem shrinks_chunks (kind info : Nat) : Shrinks (chunks kind info) := by
  rw [chunks]
  split
  · exact (shrinks_chunk _ _).map _
  · exact shrinks_whileMore (fun _ => shrinks_stop) (shrinks_nextChunk kind) _

theorem shrinks_counted (info : Nat) : Shrinks (counted info) := by
  rw [counted]
  split
  · exact shrinks_pure _
  · exact (shrinks_length info).map _

theorem shrinks_more (count : Option Nat) (index : Nat) : Shrinks (more count index) := by
  cases count with
  | some count => exact shrinks_pure _
  | none => exact shrinks_stop

theorem consumes_key : Consumes key := by
  refine (shrinks_charge _ _).bind_consumes fun _ => (consumes_byte _).bind fun header => ?_
  split
  · exact shrinks_fail _
  · exact shrinks_chunks _ _

theorem shrinks_simple (info : Nat) : Shrinks (simple info) := by
  rw [simple]
  split
  · exact shrinks_pure _
  · split
    · refine (consumes_byte _).shrinks.bind fun b => ?_
      split
      · exact shrinks_fail _
      · exact shrinks_pure _
    · exact (shrinks_length info).bind fun _ => shrinks_pure _

section

variable {σ τ : Type} {v : Visitor σ τ} {dictionary : Nat → Bool} {nested : Scan Unit τ}

theorem consumes_element (hnested : Consumes nested) (kind : Nat) (dictionary : Bool) (st : σ) :
    Consumes (element v nested kind dictionary st) := by
  rw [element]
  split
  · refine consumes_key.bind fun key => ?_
    split
    · exact shrinks_fail _
    · exact hnested.shrinks.map _
  · refine hnested.bind fun item => ?_
    split
    · exact hnested.shrinks.map _
    · exact shrinks_pure _

theorem shrinks_elements (hnested : Consumes nested) (kind info depth : Nat) :
    Shrinks (elements v dictionary nested kind info depth) := by
  rw [elements]
  split
  · exact shrinks_fail _
  · refine (shrinks_counted info).bind fun count => ?_
    refine (shrinks_whileMore (shrinks_more count) (fun st => ?_) _).bind fun _ => shrinks_pure _
    exact (consumes_element hnested kind _ st).shrinks

theorem shrinks_tagged (hnested : Consumes nested) (info depth : Nat) :
    Shrinks (tagged v nested info depth) := by
  rw [tagged]
  split
  · exact shrinks_fail _
  · exact (shrinks_length _).bind fun _ => hnested.shrinks.bind fun _ => shrinks_pure _

theorem consumes_walkWith (hnested : Consumes nested) (depth : Nat) :
    Consumes (walkWith v dictionary nested depth) := by
  refine (shrinks_charge _ _).bind_consumes fun _ => (consumes_byte _).bind fun header => ?_
  match major header with
  | 0 | 1 => exact (shrinks_length _).bind fun _ => shrinks_pure _
  | 2 | 3 => exact (shrinks_chunks _ _).bind fun _ => shrinks_pure _
  | 4 | 5 => exact shrinks_elements hnested _ _ _
  | 6 => exact shrinks_tagged hnested _ _
  | n + 7 => exact (shrinks_simple _).bind fun _ => shrinks_pure _

theorem consumes_walk (room depth : Nat) : Consumes (walk v dictionary room depth) := by
  induction room generalizing depth with
  | zero => exact fun _ _ _ h => nomatch h
  | succ room ih => exact consumes_walkWith (ih (depth + 1)) depth

end

/-- The walk that checks the keys as it goes, each read by `view`. -/
def checking (view : Key → Text) : Visitor (List Text) Unit where
  leaf := ()
  start := []
  onKey seen key := if view key ∈ seen then none else some (view key :: seen)
  onItem seen _ := seen
  finish _ _ := ()

end Walk

/-- An argument in the bytes that follow. -/
theorem length_wide {info : Nat} (h : 24 ≤ info) :
    Walk.length info =
      if info ≤ 27 then BigEndian.read <$> take () (2 ^ (info - 24)) else fail () := by
  match info, h with
  | 24, _ | 25, _ | 26, _ | 27, _ => rfl
  | n + 28, _ =>
      rw [if_neg (by omega), Walk.length, if_neg (by omega)]
      rfl

/-! ### The native validator -/

namespace Native.Scanner

variable {sc : Scanner}

theorem maps_take' (htotal : sc.total < 2 ^ 64) (count : Nat) :
    Maps sc.total id (sc.take count) (Scans.take () count) := by
  intro s hs
  by_cases h : 2 ^ 64 ≤ sc.total - s.rest.length + count
  · rw [take, if_pos h, Scans.take, if_pos (by omega)]
    rfl
  · rw [take, if_neg h]
    exact maps_take _ _ count hs

theorem maps_length (htotal : sc.total < 2 ^ 64) (info : Nat) :
    Maps sc.total id (sc.length info) (Walk.length info) := by
  rw [length, Walk.length]
  refine Maps.ite (maps_pure _) ?_
  cases Cbor.width info with
  | some size => exact (maps_take' htotal size).map (shrinks_take _ _) fun _ => rfl
  | none => exact maps_fail _ _

theorem maps_chunk (htotal : sc.total < 2 ^ 64) (kind info : Nat) (text : Option Text) :
    Maps sc.total (fun t => text.map (· ++ t)) (sc.chunk kind info text) (Walk.chunk kind info) := by
  refine (maps_length htotal info).bind (Walk.shrinks_length info) fun count => ?_
  refine (maps_take' htotal count).bind (shrinks_take _ _) fun bytes => ?_
  refine Maps.ite ?_ ?_
  · dsimp only [id]
    cases Utf8.chars bytes with
    | some chunk => exact maps_pure chunk
    | none => exact maps_fail _ _
  · have hnil : text.map (· ++ []) = text := by cases text <;> simp
    intro s hs
    exact congrArg (fun t => some (t, s)) hnil.symm

theorem maps_stop : Maps sc.total id (not <$> stop) (not <$> atStop 255 : Scan Unit Bool) :=
  (maps_atStop 255).map (shrinks_atStop 255) fun _ => rfl

/-- The text that is collected from the runs of a string. -/
def collected (kind : Nat) (collect : Bool) (chunks : Key) : Option Text :=
  if kind = 3 ∧ collect then some chunks.flatten else none

theorem collected_snoc (kind : Nat) (collect : Bool) (chunks : Key) (text : Text) :
    collected kind collect (chunks ++ [text]) = (collected kind collect chunks).map (· ++ text) := by
  rw [collected, collected]
  split
  · simp
  · rfl

theorem maps_string (htotal : sc.total < 2 ^ 64) (kind info : Nat) (collect : Bool) :
    Maps sc.total (collected kind collect) (sc.string kind info collect) (Walk.chunks kind info) := by
  have hnext (chunks : Key) (info : Nat) :
      Maps sc.total (collected kind collect) (sc.chunk kind info (collected kind collect chunks))
        (Walk.chunk kind info >>= fun text => pure (chunks ++ [text])) :=
    (maps_chunk htotal kind info _).map_right fun text =>
      (collected_snoc kind collect chunks text).symm
  rw [string, Walk.chunks]
  refine Maps.ite (hnext [] info) ?_
  refine maps_whileMore (fun _ => maps_stop) (fun _ => Walk.shrinks_stop) (fun chunks => ?_)
    (Walk.shrinks_nextChunk kind) []
  refine (maps_charge _ _ _).bind (shrinks_charge _ _) fun _ => ?_
  refine (maps_byte _ _).bind (consumes_byte _).shrinks fun header => ?_
  exact Maps.ite (maps_fail _ _) (hnext chunks _)

theorem maps_counted (htotal : sc.total < 2 ^ 64) (info : Nat) :
    Maps sc.total id (sc.counted info) (Walk.counted info) := by
  rw [counted, Walk.counted]
  split
  · exact maps_pure _
  · exact (maps_length htotal info).map (Walk.shrinks_length info) fun _ => rfl

theorem maps_more (count : Option Nat) (index : Nat) :
    Maps sc.total id (more count index) (Walk.more count index) := by
  cases count with
  | some count => exact maps_pure _
  | none => exact maps_stop

theorem maps_key (htotal : sc.total < 2 ^ 64) :
    Maps sc.total List.flatten sc.key Walk.key := by
  refine (maps_charge _ _ _).bind (shrinks_charge _ _) fun _ => ?_
  refine (maps_byte _ _).bind (consumes_byte _).shrinks fun header => ?_
  refine Maps.ite (maps_fail _ _) ?_
  intro s hs
  rw [toOption_bind, maps_string htotal 3 _ true hs]
  dsimp only [id]
  cases Walk.chunks 3 (info header) s with
  | error e => rfl
  | ok r => rfl

theorem maps_simple (htotal : sc.total < 2 ^ 64) (info : Nat) :
    Maps sc.total id (sc.simple info) (Walk.simple info) := by
  rw [simple, Walk.simple]
  by_cases hsmall : info ≤ 23
  · rw [if_pos hsmall, if_pos hsmall]
    exact maps_pure _
  rw [if_neg hsmall, if_neg hsmall]
  refine Maps.ite ?_ ?_
  · refine (maps_byte _ _).bind (consumes_byte _).shrinks fun b => ?_
    exact Maps.ite (maps_fail _ _) (maps_pure _)
  · rw [length_wide (by omega)]
    by_cases hwide : info ≤ 27
    · rw [if_pos hwide, if_pos hwide, bind_map_left]
      exact (maps_take' htotal _).bind (shrinks_take _ _) fun _ => maps_pure _
    · rw [if_neg hwide, if_neg hwide]
      exact fun _ _ => rfl

section

variable {nested : Scan String Unit} {nested' : Scan Unit Unit}

theorem maps_element (htotal : sc.total < 2 ^ 64) (hnested : Maps sc.total id nested nested')
    (hshrinks : Shrinks nested') (kind : Nat) (dictionary : Bool) (keys : List Text) :
    Maps sc.total id (sc.element nested kind dictionary keys)
      (Walk.element (Walk.checking List.flatten) nested' kind dictionary keys) := by
  rw [element, Walk.element]
  refine Maps.ite ?_ ?_
  · refine (maps_key htotal).bind Walk.consumes_key.shrinks fun key => ?_
    dsimp only [Walk.checking]
    split
    · exact maps_fail _ _
    · exact hnested.bind_map hshrinks fun _ => rfl
  · refine hnested.bind hshrinks fun _ => Maps.ite ?_ (maps_pure _)
    exact hnested.bind_map hshrinks fun _ => rfl

/-- The maps at a depth are dictionaries. -/
def dictionary (metadata : Bool) (depth : Nat) : Bool := metadata || decide (depth = 0)

theorem maps_valueWith (htotal : sc.total < 2 ^ 64) (hnested : Maps sc.total id nested nested')
    (hconsumes : Consumes nested') (depth : Nat) :
    Maps sc.total id (sc.valueWith nested depth)
      (Walk.walkWith (Walk.checking List.flatten) (dictionary sc.metadata) nested' depth) := by
  have hshrinks := hconsumes.shrinks
  have helements (kind info : Nat) :
      Maps sc.total id
        (if depth ≥ 64 then fail (invalid "CBOR depth")
          else do
            let count ← sc.counted info
            let dictionary := decide (kind = 5) && (sc.metadata || decide (depth = 0))
            let _ ← whileMore outOfRounds (more count) (sc.element nested kind dictionary) []
            pure ())
        (Walk.elements (Walk.checking List.flatten) (dictionary sc.metadata) nested' kind info
          depth) := by
    refine Maps.ite (maps_fail _ _) ?_
    refine (maps_counted htotal info).bind (Walk.shrinks_counted info) fun count => ?_
    refine Maps.bind (f := id) (maps_whileMore (maps_more count) (Walk.shrinks_more count)
      (maps_element htotal hnested hshrinks kind _) (fun st => ?_) _) ?_ fun _ => maps_pure _
    · exact (Walk.consumes_element hconsumes kind _ st).shrinks
    · exact shrinks_whileMore (Walk.shrinks_more count)
        (fun st => (Walk.consumes_element hconsumes kind _ st).shrinks) _
  refine (maps_charge _ _ _).bind (shrinks_charge _ _) fun _ => ?_
  refine (maps_byte _ _).bind (consumes_byte _).shrinks fun header => ?_
  dsimp only [id]
  match major header with
  | 0 | 1 =>
      exact (maps_length htotal _).bind (Walk.shrinks_length _) fun _ => maps_pure _
  | 2 | 3 =>
      exact (maps_string htotal _ _ false).bind (Walk.shrinks_chunks _ _) fun _ => maps_pure _
  | 4 => exact helements 4 _
  | 5 => exact helements 5 _
  | 6 =>
      refine Maps.ite (maps_fail _ _) ?_
      refine (maps_length htotal _).bind (Walk.shrinks_length _) fun _ => ?_
      exact hnested.map_right fun _ => rfl
  | k + 7 => exact (maps_simple htotal _).map_right fun _ => rfl

theorem maps_value (htotal : sc.total < 2 ^ 64) (room depth : Nat) :
    Maps sc.total id (sc.value room depth)
      (Walk.walk (Walk.checking List.flatten) (dictionary sc.metadata) room depth) := by
  induction room generalizing depth with
  | zero => exact maps_fail _ _
  | succ room ih => exact maps_valueWith htotal (ih (depth + 1)) (Walk.consumes_walk _ _) depth

end

end Native.Scanner

/-! ### The Dart validator -/

namespace Dart

open Utf8 (between)

/-- A character ends where the standard says. -/
theorem utf8Character_eq (first : UInt8) (rest : Bytes) :
    utf8Character first rest = (Utf8.next (first :: rest)).map Prod.snd := by
  unfold Utf8.next utf8Character
  dsimp only
  by_cases h₀ : first.toNat < 128
  · rw [if_pos h₀, if_pos h₀]
    rfl
  rw [if_neg h₀, if_neg h₀]
  by_cases h₁ : 0xC2 ≤ first.toNat ∧ first.toNat ≤ 0xDF
  · have hfollowing : following first = some (1, 0x80, 0xBF) := if_pos h₁
    rw [if_pos h₁, hfollowing]
    match rest with
    | [] => rfl
    | b₁ :: rest =>
        simp [between]
        grind
  rw [if_neg h₁]
  by_cases h₂ : 0xE0 ≤ first.toNat ∧ first.toNat ≤ 0xEF
  · have hfollowing : following first = some (2, if first.toNat = 0xE0 then 0xA0 else 0x80,
        if first.toNat = 0xED then 0x9F else 0xBF) := (if_neg h₁).trans (if_pos h₂)
    rw [if_pos h₂, hfollowing]
    generalize (if first.toNat = 0xE0 then 0xA0 else 0x80) = low
    generalize (if first.toNat = 0xED then 0x9F else 0xBF) = high
    match rest with
    | [] => rfl
    | [b₁] => simp
    | b₁ :: b₂ :: rest =>
        simp [between]
        grind
  rw [if_neg h₂]
  by_cases h₃ : 0xF0 ≤ first.toNat ∧ first.toNat ≤ 0xF4
  · have hfollowing : following first = some (3, if first.toNat = 0xF0 then 0x90 else 0x80,
        if first.toNat = 0xF4 then 0x8F else 0xBF) :=
      (if_neg h₁).trans ((if_neg h₂).trans (if_pos h₃))
    rw [if_pos h₃, hfollowing]
    generalize (if first.toNat = 0xF0 then 0x90 else 0x80) = low
    generalize (if first.toNat = 0xF4 then 0x8F else 0xBF) = high
    match rest with
    | [] => rfl
    | [b₁] => simp
    | [b₁, b₂] => simp
    | b₁ :: b₂ :: b₃ :: rest =>
        simp [between]
        grind
  · have hfollowing : following first = none :=
      (if_neg h₁).trans ((if_neg h₂).trans (if_neg h₃))
    rw [if_neg h₃, hfollowing]
    cases rest <;> rfl

/-- The text check of the library is that of the standard. -/
theorem utf8Range_eq (fuel : Nat) (bytes : Bytes) :
    utf8Range fuel bytes = (Utf8.decodeUpTo fuel bytes).isSome := by
  induction fuel generalizing bytes with
  | zero =>
      cases bytes with
      | nil => rfl
      | cons first rest => rfl
  | succ fuel ih =>
      cases bytes with
      | nil => rfl
      | cons first rest =>
          rw [utf8Range, Utf8.decodeUpTo, utf8Character_eq]
          cases Utf8.next (first :: rest) with
          | none => rfl
          | some r =>
              obtain ⟨c, rest'⟩ := r
              change utf8Range fuel rest' = _
              rw [ih]
              cases hdecode : Utf8.decodeUpTo fuel rest' with
              | none => simp [hdecode]
              | some chars => simp [hdecode]

namespace Scanner

variable {sc : Scanner}

/-- The number that more bytes give. -/
def folded (result : Nat) (bytes : Bytes) : Nat :=
  bytes.foldl (fun n byte => n * 256 + byte.toNat) result

theorem le_folded (result : Nat) (bytes : Bytes) : result ≤ folded result bytes := by
  induction bytes generalizing result with
  | nil => exact Nat.le_refl _
  | cons b bytes ih =>
      have hle : result ≤ result * 256 + b.toNat := by omega
      exact Nat.le_trans hle (ih _)

/-- The bytes of a length are read as a number, which must not be longer than the input. -/
theorem lengthBytes_eq (count : Nat) {result : Nat} (s : Cursor) (h : result ≤ sc.total) :
    (sc.lengthBytes count result s).toOption =
      (take () count s).toOption.bind fun r =>
        if folded result r.1 ≤ sc.total then some (folded result r.1, r.2) else none := by
  induction count generalizing result s with
  | zero =>
      rw [take, if_neg (Nat.not_lt_zero _)]
      exact (if_pos h).symm
  | succ count ih =>
      rw [lengthBytes, toOption_bind]
      obtain ⟨rest, items⟩ := s
      cases rest with
      | nil => rfl
      | cons b rest =>
          rw [take_succ]
          change ((if result * 256 + b.toNat > sc.total then fail (invalid "declared length")
            else sc.lengthBytes count (result * 256 + b.toNat)) ⟨rest, items⟩).toOption = _
          by_cases hlong : result * 256 + b.toNat > sc.total
          · rw [if_pos hlong]
            cases take () count ⟨rest, items⟩ with
            | error e => rfl
            | ok r =>
                have hle := le_folded (result * 256 + b.toNat) r.1
                refine (if_neg (Nat.not_le.mpr ?_)).symm
                exact Nat.lt_of_lt_of_le hlong hle
          · rw [if_neg hlong, ih _ (Nat.le_of_not_lt hlong)]
            cases take () count ⟨rest, items⟩ with
            | error e => rfl
            | ok r => rfl

/-- What needs a longer input than there is fails without the check of the length, too. -/
theorem maps_length_bind {α β : Type} {f : β → α} {k : Nat → Scan String α} {l : Nat → Scan Unit β}
    (info : Nat) (hk : ∀ n, Maps sc.total f (k n) (l n))
    (hlong : ∀ n s r, sc.total < n → s.rest.length ≤ sc.total → l n s ≠ .ok r) :
    Maps sc.total f (sc.length info >>= k) (Walk.length info >>= l) := by
  rw [length, Walk.length]
  by_cases hsmall : info < 24
  · rw [if_pos hsmall, if_pos hsmall]
    exact (maps_pure (f := id) info).bind (shrinks_pure info) hk
  rw [if_neg hsmall, if_neg hsmall, width]
  cases Cbor.width info with
  | none => exact fun _ _ => rfl
  | some size =>
      intro s hs
      rw [bind_map_left, toOption_bind, toOption_bind (take () size)]
      change ((sc.lengthBytes size 0 s).toOption.bind fun r => (k r.1 r.2).toOption) = _
      rw [lengthBytes_eq size s (Nat.zero_le _)]
      cases htake : take () size s with
      | error e => rfl
      | ok r =>
          obtain ⟨bytes, s'⟩ := r
          have hs' : s'.rest.length ≤ sc.total := Nat.le_trans (shrinks_take () size htake) hs
          change (Option.bind (if folded 0 bytes ≤ sc.total then some (folded 0 bytes, s') else none)
            fun r => (k r.1 r.2).toOption) =
              (l (folded 0 bytes) s').toOption.map fun r => (f r.1, r.2)
          by_cases hle : folded 0 bytes ≤ sc.total
          · rw [if_pos hle]
            exact hk _ hs'
          · rw [if_neg hle]
            cases hl : l (folded 0 bytes) s' with
            | error e => rfl
            | ok r => exact absurd hl (hlong _ _ _ (Nat.lt_of_not_le hle) hs')

/-- Fewer bytes are left than the length asks for. -/
theorem take_bind_ne_ok {β : Type} {l : Bytes → Scan Unit β} {n : Nat} {s : Cursor}
    (r : β × Cursor) (hlong : sc.total < n) (hs : s.rest.length ≤ sc.total) :
    (take () n >>= l) s ≠ .ok r := by
  intro h
  obtain ⟨bytes, s', htake, -⟩ := bind_eq_ok.mp h
  rw [take, if_pos (Nat.lt_of_le_of_lt hs hlong)] at htake
  cases htake

/-- The text of a run, when it belongs to a key. -/
def read (key : Bool) (text : Text) : Option Text := if key then some (dropMark text) else none

theorem maps_chunk (kind info : Nat) {key : Bool} (hkey : key = true → kind = 3) :
    Maps sc.total (read key) (sc.chunk kind info key) (Walk.chunk kind info) := by
  refine maps_length_bind info (fun count => ?_) fun n s r => take_bind_ne_ok r
  refine (maps_take _ _ count).bind (shrinks_take _ _) fun bytes => ?_
  have hutf8 : utf8Range bytes.length bytes = (Utf8.chars bytes).isSome := utf8Range_eq _ _
  dsimp only [id]
  by_cases hkind : kind = 3
  · rw [if_pos hkind, utf8Decode]
    cases hchars : Utf8.chars bytes with
    | none =>
        rw [hchars] at hutf8
        rw [if_pos ⟨hkind, hutf8⟩]
        exact maps_fail _ _
    | some text =>
        rw [hchars] at hutf8
        rw [if_neg (by simp [hutf8])]
        cases key with
        | true => exact maps_pure text
        | false => exact maps_pure text
  · have hfalse : key = false := by
      cases key with
      | true => exact absurd (hkey rfl) hkind
      | false => rfl
    rw [if_neg hkind, if_neg (fun h => hkind h.1), hfalse]
    exact maps_pure []

/-- The text that the library gets from the runs of a string. -/
def written (key : Bool) (chunks : Key) : Option Text :=
  if key then some (chunks.map dropMark).flatten else none

theorem written_snoc (key : Bool) (chunks : Key) (text : Text) :
    written key (chunks ++ [text]) =
      (written key chunks).map (· ++ (read key text).getD []) := by
  cases key with
  | true => simp [written, read]
  | false => rfl

theorem consumes_nextChunk (kind : Nat) (chunks : Key) : Consumes (Walk.nextChunk kind chunks) := by
  refine (shrinks_charge _ _).bind_consumes fun _ => (consumes_byte _).bind fun header => ?_
  split
  · exact shrinks_fail _
  · exact (Walk.shrinks_chunk _ _).bind fun _ => shrinks_pure _

theorem maps_string (hitems : sc.limits.maxItems = 1000000) (kind info : Nat) {key : Bool}
    (hkey : key = true → kind = 3) :
    Maps sc.total (written key) (sc.string kind info key) (Walk.chunks kind info) := by
  rw [string, Walk.chunks]
  refine Maps.ite ?_ ?_
  · change Maps sc.total (written key) (sc.chunk kind info key)
      (Walk.chunk kind info >>= fun text => pure [text])
    refine (maps_chunk kind info hkey).map_right fun text => ?_
    cases key with
    | true => simp [written, read]
    | false => rfl
  · refine maps_whileMore_until (fun chunks => ?_) (consumes_nextChunk kind) []
    rw [charge, hitems]
    refine (maps_charge _ _ _).bind (shrinks_charge _ _) fun _ => ?_
    refine (maps_byte _ _).bind (consumes_byte _).shrinks fun header => ?_
    refine Maps.ite (maps_fail _ _) ?_
    refine (maps_chunk kind _ hkey).bind (Walk.shrinks_chunk _ _) fun text => ?_
    rw [← written_snoc]
    exact maps_pure _

/-- How the library reads a key. -/
def keyOf (chunks : Key) : Text := (chunks.map dropMark).flatten

theorem maps_key (hitems : sc.limits.maxItems = 1000000) :
    Maps sc.total keyOf sc.key Walk.key := by
  rw [key, charge, hitems]
  refine (maps_charge _ _ _).bind (shrinks_charge _ _) fun _ => ?_
  refine (maps_byte _ _).bind (consumes_byte _).shrinks fun header => ?_
  refine Maps.ite (maps_fail _ _) ?_
  intro s hs
  rw [toOption_bind, maps_string hitems 3 _ (fun _ => rfl) hs]
  dsimp only [id]
  cases Walk.chunks 3 (info header) s with
  | error e => rfl
  | ok r => rfl

theorem maps_skipWidth (info : Nat) :
    Maps sc.total (fun _ => ()) (skipWidth info) (Walk.length info) := by
  by_cases hsmall : info < 24
  · rw [skipWidth, if_neg (by omega), Walk.length, if_pos hsmall]
    exact maps_pure info
  · rw [skipWidth, if_pos (by omega), Walk.length, if_neg hsmall, width]
    cases Cbor.width info with
    | none => exact fun _ _ => rfl
    | some size =>
        change Maps sc.total (fun _ => ()) (skip size >>= fun _ => pure ())
          (BigEndian.read <$> take () size)
        exact (maps_take _ _ size).bind_map (shrinks_take _ _) fun _ => rfl

theorem maps_simple (info : Nat) : Maps sc.total id (simple info) (Walk.simple info) := by
  rw [simple, Walk.simple]
  by_cases hbyte : info = 24
  · rw [if_pos hbyte, if_neg (by omega), if_pos hbyte]
    refine (maps_byte _ _).bind (consumes_byte _).shrinks fun b => ?_
    exact Maps.ite (maps_fail _ _) (maps_pure _)
  rw [if_neg hbyte]
  by_cases hsmall : info ≤ 23
  · rw [if_neg (by omega), if_pos hsmall]
    exact maps_pure _
  · have hskip : Maps sc.total (fun _ => ()) (skipWidth info) (Walk.length info) :=
      maps_skipWidth info
    rw [skipWidth, if_pos (by omega)] at hskip
    rw [if_pos (by omega), if_neg hsmall, if_neg hbyte]
    exact hskip.map_right fun _ => rfl

section

variable {nested : Scan String Unit} {nested' : Scan Unit Unit}

theorem maps_element (hitems : sc.limits.maxItems = 1000000) (hnested : Maps sc.total id nested nested')
    (hshrinks : Shrinks nested') (kind : Nat) (dictionary : Bool) (keys : List Text) :
    Maps sc.total id (sc.element nested kind dictionary keys)
      (Walk.element (Walk.checking keyOf) nested' kind dictionary keys) := by
  rw [element, Walk.element]
  refine Maps.ite ?_ ?_
  · refine (maps_key hitems).bind Walk.consumes_key.shrinks fun key => ?_
    dsimp only [Walk.checking]
    split
    · exact maps_fail _ _
    · exact hnested.bind_map hshrinks fun _ => rfl
  · refine hnested.bind hshrinks fun _ => Maps.ite ?_ (maps_pure _)
    exact hnested.bind_map hshrinks fun _ => rfl

/-- The loop over the elements, of known or unknown number. -/
theorem maps_elements (hitems : sc.limits.maxItems = 1000000) (hnested : Maps sc.total id nested nested')
    (hconsumes : Consumes nested') (kind info : Nat) (dictionary : Bool) :
    Maps sc.total id
      (sc.counted info >>= fun count =>
        whileMore outOfRounds (more count) (sc.element nested kind dictionary) [] >>= fun _ => pure ())
      (Walk.counted info >>= fun count =>
        whileMore () (Walk.more count)
          (Walk.element (Walk.checking keyOf) nested' kind dictionary) [] >>= fun _ => pure ()) := by
  have hbody := maps_element hitems hnested hconsumes.shrinks kind dictionary
  have hbody' := Walk.consumes_element (v := Walk.checking keyOf) hconsumes kind dictionary
  have hloop' (count : Option Nat) : Shrinks (whileMore () (Walk.more count)
      (Walk.element (Walk.checking keyOf) nested' kind dictionary) []) :=
    shrinks_whileMore (Walk.shrinks_more count) (fun st => (hbody' st).shrinks) _
  rw [counted, Walk.counted]
  by_cases hbreak : info = 31
  · rw [if_pos hbreak, if_pos hbreak, pure_bind, pure_bind]
    have hloop : Maps sc.total id
        (whileMore outOfRounds (more none) (sc.element nested kind dictionary) [])
        (whileMore () (Walk.more none)
          (Walk.element (Walk.checking keyOf) nested' kind dictionary) []) :=
      maps_whileMore_until hbody hbody' []
    exact hloop.bind (hloop' none) fun _ => maps_pure _
  · rw [if_neg hbreak, if_neg hbreak, bind_map_left, bind_map_left]
    refine maps_length_bind info (fun count => ?_) fun n s r hlong hs h => ?_
    · have hmore (index : Nat) :
          Maps sc.total id (more (some count) index) (Walk.more (some count) index) := maps_pure _
      have hloop : Maps sc.total id
          (whileMore outOfRounds (more (some count)) (sc.element nested kind dictionary) [])
          (whileMore () (Walk.more (some count))
            (Walk.element (Walk.checking keyOf) nested' kind dictionary) []) :=
        maps_whileMore hmore (Walk.shrinks_more _) hbody (fun st => (hbody' st).shrinks) []
      exact hloop.bind (hloop' (some count)) fun _ => maps_pure _
    · obtain ⟨st, s', hloop, -⟩ := bind_eq_ok.mp h
      exact loop_ne_ok (fun _ => rfl) hbody' [] (by omega) _ hloop

/-- The maps at a depth are dictionaries. -/
def dictionary (sc : Scanner) (depth : Nat) : Bool :=
  sc.stringDictionaryKeys || (sc.rootStringDictionaryKeys && decide (depth = 0))

theorem maps_valueWith (hitems : sc.limits.maxItems = 1000000) (hdepth : sc.limits.maxDepth = 64)
    (hnested : Maps sc.total id nested nested') (hconsumes : Consumes nested') (depth : Nat) :
    Maps sc.total id (sc.valueWith nested depth)
      (Walk.walkWith (Walk.checking keyOf) sc.dictionary nested' depth) := by
  have hstring (kind info : Nat) :
      Maps sc.total (written false) (sc.string kind info false) (Walk.chunks kind info) :=
    maps_string hitems kind info (by simp)
  rw [valueWith, charge, hitems, hdepth]
  refine (maps_charge _ _ _).bind (shrinks_charge _ _) fun _ => ?_
  refine (maps_byte _ _).bind (consumes_byte _).shrinks fun header => ?_
  dsimp only [id]
  match major header with
  | 0 | 1 => exact (maps_skipWidth _).map_right fun _ => rfl
  | 2 | 3 =>
      exact (hstring _ _).bind (Walk.shrinks_chunks _ _) fun _ => maps_pure _
  | 4 => exact Maps.ite (maps_fail _ _) (maps_elements hitems hnested hconsumes 4 _ _)
  | 5 => exact Maps.ite (maps_fail _ _) (maps_elements hitems hnested hconsumes 5 _ _)
  | 6 =>
      refine Maps.ite (maps_fail _ _) ?_
      refine (maps_skipWidth _).bind (Walk.shrinks_length _) fun _ => ?_
      exact hnested.map_right fun _ => rfl
  | k + 7 => exact (maps_simple _).map_right fun _ => rfl

theorem maps_value (hitems : sc.limits.maxItems = 1000000) (hdepth : sc.limits.maxDepth = 64)
    (room depth : Nat) :
    Maps sc.total id (sc.value room depth)
      (Walk.walk (Walk.checking keyOf) sc.dictionary room depth) := by
  induction room generalizing depth with
  | zero => exact maps_fail _ _
  | succ room ih =>
      exact maps_valueWith hitems hdepth (ih (depth + 1)) (Walk.consumes_walk _ _) depth

end

end Scanner

end Dart

/-! ### The keys of the dictionaries -/

namespace Walk

/-- The walk that collects the keys of each dictionary. -/
def collecting : Visitor (List Key × List (List Key)) (List (List Key)) where
  leaf := []
  start := ([], [])
  onKey st key := some (key :: st.1, st.2)
  onItem st item := (st.1, st.2 ++ item)
  finish dictionary st := if dictionary then st.1 :: st.2 else st.2

/-- No dictionary has a key twice, each key read by `view`. -/
def Distinct (view : Key → Text) (dictionaries : List (List Key)) : Prop :=
  ∀ keys ∈ dictionaries, (keys.map view).Nodup

theorem distinct_append {view : Key → Text} {a b : List (List Key)} :
    Distinct view (a ++ b) ↔ Distinct view a ∧ Distinct view b := List.forall_mem_append

section

variable {view : Key → Text} {nested : Scan Unit Unit} {nested' : Scan Unit (List (List Key))}

/-- Nothing collected so far is a key twice. -/
def Passes (view : Key → Text) (dictionary : Bool) (st : List Key × List (List Key)) : Prop :=
  (dictionary = true → (st.1.map view).Nodup) ∧ Distinct view st.2

def seen (view : Key → Text) (st : List Key × List (List Key)) : List Text := st.1.map view

theorem passes_onItem {dictionary : Bool} {st : List Key × List (List Key)} {item : List (List Key)} :
    Passes view dictionary (collecting.onItem st item) ↔
      Passes view dictionary st ∧ Distinct view item := by
  rw [Passes, Passes, and_assoc, ← distinct_append]
  rfl

theorem checked_onItem (hnested : Checked (Distinct view) (fun _ => ()) nested nested')
    {dictionary : Bool} {st : List Key × List (List Key)} (h : Passes view dictionary st) :
    Checked (Passes view dictionary) (seen view) ((checking view).onItem (seen view st) <$> nested)
      (collecting.onItem st <$> nested') := by
  intro s a s'
  rw [map_eq_ok]
  constructor
  · rintro ⟨u, s₁, hp, ha⟩
    obtain ⟨item, hq, hitem, -⟩ := hnested.mp hp
    cases ha
    exact ⟨_, map_eq_ok.mpr ⟨item, _, hq, rfl⟩, passes_onItem.mpr ⟨h, hitem⟩, rfl⟩
  · rintro ⟨st', hq, hpass, rfl⟩
    obtain ⟨item, s₁, hq, hst⟩ := map_eq_ok.mp hq
    cases hst
    have hitem := (passes_onItem.mp hpass).2
    exact ⟨(), s', hnested.mpr ⟨item, hq, hitem, rfl⟩, rfl⟩

theorem keeps_onItem {dictionary : Bool} {st : List Key × List (List Key)} {s s' : Cursor}
    {st' : List Key × List (List Key)} (h : (collecting.onItem st <$> nested') s = .ok (st', s'))
    (hpass : Passes view dictionary st') : Passes view dictionary st := by
  obtain ⟨item, s₁, -, hst⟩ := map_eq_ok.mp h
  cases hst
  exact (passes_onItem.mp hpass).1

theorem checked_element (hnested : Checked (Distinct view) (fun _ => ()) nested nested') (kind : Nat)
    (dictionary : Bool) {st : List Key × List (List Key)} (h : Passes view dictionary st) :
    Checked (Passes view dictionary) (seen view)
      (element (checking view) nested kind dictionary (seen view st))
      (element collecting nested' kind dictionary st) := by
  rw [element, element]
  cases dictionary with
  | true =>
      have hkey : Checked (fun _ => True) id key key := checked_refl key fun _ => trivial
      refine hkey.bind (fun k _ => ?_) fun _ _ _ _ _ _ => trivial
      by_cases htwice : view k ∈ seen view st
      · -- The walk that collects goes on, with a key twice.
        have hrefused : (checking view).onKey (seen view st) k = none := if_pos htwice
        intro s a s'
        rw [id, hrefused]
        constructor
        · intro ha
          cases ha
        · rintro ⟨st', hq, hpass, -⟩
          have hnodup := (keeps_onItem hq hpass).1 rfl
          exact absurd htwice (List.nodup_cons.mp hnodup).1
      · have htaken : (checking view).onKey (seen view st) k = some (seen view (k :: st.1, st.2)) :=
          if_neg htwice
        rw [id, htaken]
        exact checked_onItem hnested ⟨fun _ => List.nodup_cons.mpr ⟨htwice, h.1 rfl⟩, h.2⟩
  | false =>
      refine hnested.bind (fun item hitem => ?_) fun item s st' s' hq hpass => ?_
      · have hst := passes_onItem.mpr ⟨h, hitem⟩
        split
        · exact checked_onItem hnested hst
        · exact checked_pure hst
      · split at hq
        · exact (passes_onItem.mp (keeps_onItem hq hpass)).2
        · cases hq
          exact (passes_onItem.mp hpass).2

theorem keeps_element (kind : Nat) (dictionary : Bool) :
    Keeps (Passes view dictionary) (Passes view dictionary)
      (element collecting nested' kind dictionary) := by
  intro st s st' s' h hpass
  rw [element] at h
  cases dictionary with
  | true =>
      obtain ⟨k, s₁, -, h⟩ := bind_eq_ok.mp h
      obtain ⟨hnodup, hdistinct⟩ := keeps_onItem h hpass
      exact ⟨fun _ => (List.nodup_cons.mp (hnodup rfl)).2, hdistinct⟩
  | false =>
      obtain ⟨item, s₁, -, h⟩ := bind_eq_ok.mp h
      split at h
      · exact (passes_onItem.mp (keeps_onItem h hpass)).1
      · cases h
        exact (passes_onItem.mp hpass).1

theorem passes_start (dictionary : Bool) : Passes view dictionary collecting.start :=
  ⟨fun _ => List.nodup_nil, fun _ h => nomatch h⟩

theorem distinct_finish {dictionary : Bool} {st : List Key × List (List Key)} :
    Distinct view (collecting.finish dictionary st) ↔ Passes view dictionary st := by
  cases dictionary with
  | true => exact List.forall_mem_cons.trans (and_congr_left fun _ => by simp)
  | false => simp [Passes, collecting]

theorem checked_elements (dictionary : Nat → Bool)
    (hnested : Checked (Distinct view) (fun _ => ()) nested nested') (kind info depth : Nat) :
    Checked (Distinct view) (fun _ => ())
      (elements (checking view) dictionary nested kind info depth)
      (elements collecting dictionary nested' kind info depth) := by
  rw [elements, elements]
  split
  · exact checked_fail _
  have hcounted : Checked (fun _ => True) id (counted info) (counted info) :=
    checked_refl _ fun _ => trivial
  refine hcounted.bind (fun count _ => ?_) fun _ _ _ _ _ _ => trivial
  dsimp only [id]
  generalize (decide (kind = 5) && dictionary depth) = d
  have hloop : Checked (Passes view d) (seen view)
      (whileMore () (more count) (element (checking view) nested kind d) (seen view collecting.start))
      (whileMore () (more count) (element collecting nested' kind d) collecting.start) :=
    whileMore_checked (fun st h => checked_element hnested kind d h) (keeps_element kind d)
      (passes_start d)
  refine hloop.bind (fun st h => checked_pure (distinct_finish.mpr h)) ?_
  intro st s ds s' h hdistinct
  cases h
  exact distinct_finish.mp hdistinct

theorem checked_leaf {α : Type} (p : Scan Unit α) :
    Checked (Distinct view) (fun _ => ()) (p >>= fun _ => pure (checking view).leaf)
      (p >>= fun _ => pure collecting.leaf) := by
  have hp : Checked (fun _ => True) id p p := checked_refl p fun _ => trivial
  exact hp.bind (fun _ _ => checked_pure fun _ h => nomatch h) fun _ _ _ _ _ _ => trivial

theorem checked_tagged (hnested : Checked (Distinct view) (fun _ => ()) nested nested')
    (info depth : Nat) :
    Checked (Distinct view) (fun _ => ()) (tagged (checking view) nested info depth)
      (tagged collecting nested' info depth) := by
  rw [tagged, tagged]
  split
  · exact checked_fail _
  have hlength : Checked (fun _ => True) id (length info) (length info) :=
    checked_refl _ fun _ => trivial
  refine hlength.bind (fun _ _ => ?_) fun _ _ _ _ _ _ => trivial
  refine hnested.bind (fun item hitem => checked_pure (f := fun _ => ()) ?_) ?_
  · exact distinct_finish.mpr (passes_onItem.mpr ⟨passes_start false, hitem⟩)
  · intro item s ds s' h hdistinct
    cases h
    exact (passes_onItem.mp (distinct_finish.mp hdistinct)).2

theorem checked_walk (view : Key → Text) (dictionary : Nat → Bool) (room depth : Nat) :
    Checked (Distinct view) (fun _ => ()) (walk (checking view) dictionary room depth)
      (walk collecting dictionary room depth) := by
  induction room generalizing depth with
  | zero => exact checked_fail _
  | succ room ih =>
      have hnested := ih (depth + 1)
      have hcharge : Checked (fun _ => True) id charge charge := checked_refl _ fun _ => trivial
      have hbyte : Checked (fun _ => True) id (byte ()) (byte ()) :=
        checked_refl _ fun _ => trivial
      refine hcharge.bind (fun _ _ => ?_) fun _ _ _ _ _ _ => trivial
      refine hbyte.bind (fun header _ => ?_) fun _ _ _ _ _ _ => trivial
      dsimp only [id]
      match major header with
      | 0 | 1 => exact checked_leaf _
      | 2 | 3 => exact checked_leaf _
      | 4 | 5 => exact checked_elements dictionary hnested _ _ _
      | 6 => exact checked_tagged hnested _ _
      | n + 7 => exact checked_leaf _

end

end Walk

/-! ### The two validators -/

open Walk (Distinct)

def maxBytes (metadata : Bool) : Nat := if metadata then 1024 * 1024 else 64 * 1024 * 1024

/-- The input is a value of the root kind within the limits, whose text is UTF-8 and whose
dictionaries have text keys; `dictionaries` are the keys of each. -/
structure Outlines (bytes : Bytes) (root : Nat) (metadata : Bool)
    (dictionaries : List (List Key)) : Prop where
  root : bytes.head?.map major = some root
  size : bytes.length ≤ maxBytes metadata
  value : ∃ items, Walk.walk Walk.collecting (Native.Scanner.dictionary metadata) 65 0
    { rest := bytes } = .ok (dictionaries, { rest := [], items })

theorem Outlines.unique {bytes : Bytes} {root : Nat} {metadata : Bool} {ds ds' : List (List Key)}
    (h : Outlines bytes root metadata ds) (h' : Outlines bytes root metadata ds') : ds = ds' := by
  obtain ⟨items, hv⟩ := h.value
  obtain ⟨items', hv'⟩ := h'.value
  rw [hv] at hv'
  cases hv'
  rfl

/-- A scanner that follows the walk accepts what is outlined with distinct keys. -/
theorem accepts_iff {bytes : Bytes} {root : Nat} {metadata : Bool} {view : Key → Text}
    {scan : Scan String Unit} {first : UInt8} {rest : Bytes} (hbytes : bytes = first :: rest)
    (hroot : major first = root) (hsize : bytes.length ≤ maxBytes metadata)
    (hscan : Maps bytes.length id scan
      (Walk.walk (Walk.checking view) (Native.Scanner.dictionary metadata) 65 0)) :
    (∃ s, scan { rest := bytes } = .ok ((), s) ∧ s.rest = []) ↔
      ∃ ds, Outlines bytes root metadata ds ∧ Distinct view ds := by
  constructor
  · rintro ⟨⟨rest', items⟩, hs, hrest⟩
    obtain rfl : rest' = [] := hrest
    obtain ⟨u, s', hwalk, hr⟩ := (hscan.ok_iff (Nat.le_refl _)).mp hs
    cases hr
    obtain ⟨ds, hds, hdistinct, -⟩ := (Walk.checked_walk view _ 65 0).mp hwalk
    exact ⟨ds, ⟨by rw [hbytes]; exact congrArg some hroot, hsize, items, hds⟩, hdistinct⟩
  · rintro ⟨ds, ⟨-, -, items, hds⟩, hdistinct⟩
    refine ⟨⟨[], items⟩, ?_, rfl⟩
    have hwalk := (Walk.checked_walk view _ 65 0).mpr ⟨ds, hds, hdistinct, rfl⟩
    exact (hscan.ok_iff (Nat.le_refl _)).mpr ⟨(), _, hwalk, rfl⟩

theorem ended_iff {trailing : String} {r : Except String (Unit × Cursor)} :
    ended trailing r = .ok () ↔ ∃ s, r = .ok ((), s) ∧ s.rest = [] := by
  cases r with
  | error e => simp [ended]
  | ok x =>
      obtain ⟨⟨⟩, s⟩ := x
      rw [ended]
      split
      · next h => simp [h]
      · next h => simp [Classical.not_not.mp h]

/-- What is empty, too long or of another kind has no outline. -/
theorem not_outlines {first : UInt8} {rest : Bytes} {root : Nat} {metadata : Bool}
    (h : (first :: rest).length > maxBytes metadata ∨ major first ≠ root)
    (ds : List (List Key)) : ¬ Outlines (first :: rest) root metadata ds := by
  intro hds
  obtain hlong | hkind := h
  · exact absurd hds.size (Nat.not_le.mpr hlong)
  · exact hkind (Option.some.inj hds.root)

theorem native_validate_iff (bytes : Bytes) (root : Nat) (metadata : Bool) :
    Native.validate bytes root metadata = .ok () ↔
      ∃ ds, Outlines bytes root metadata ds ∧ Distinct List.flatten ds := by
  cases bytes with
  | nil =>
      refine ⟨fun h => (nomatch h), ?_⟩
      rintro ⟨ds, hds, -⟩
      cases hds.root
  | cons first rest =>
      rw [Native.validate]
      by_cases h : (first :: rest).length > maxBytes metadata ∨ major first ≠ root
      · refine ⟨fun hok => ?_, fun ⟨ds, hds, _⟩ => absurd hds (not_outlines h ds)⟩
        rw [maxBytes] at h
        dsimp only at hok
        rw [if_pos h] at hok
        cases hok
      · obtain ⟨hsize, hroot⟩ := not_or.mp h
        have hsize := Nat.le_of_not_lt hsize
        have hlt : (first :: rest).length < 2 ^ 64 := by
          refine Nat.lt_of_le_of_lt hsize ?_
          cases metadata <;> decide
        rw [maxBytes] at h
        dsimp only
        rw [if_neg h, ended_iff]
        let sc : Native.Scanner := ⟨(first :: rest).length, metadata⟩
        have hvalue : Maps sc.total id (sc.value 65 0)
            (Walk.walk (Walk.checking List.flatten) (Native.Scanner.dictionary metadata) 65 0) :=
          Native.Scanner.maps_value hlt 65 0
        exact accepts_iff rfl (Classical.not_not.mp hroot) hsize hvalue

/-- The options of the library that stand for one kind of validation. -/
theorem validateFlatBufferCbor_iff {bytes : Bytes} {root : Nat} {metadata stringKeys rootKeys : Bool}
    {limits : Dart.FlatBufferCborLimits} (hdepth : limits.maxDepth = 64)
    (hitems : limits.maxItems = 1000000) (hbytes : limits.maxBytes = maxBytes metadata)
    (hkeys : ∀ depth, (stringKeys || (rootKeys && decide (depth = 0))) =
      Native.Scanner.dictionary metadata depth) :
    Dart.validateFlatBufferCbor bytes (some root) stringKeys rootKeys limits = .ok () ↔
      ∃ ds, Outlines bytes root metadata ds ∧ Distinct Dart.Scanner.keyOf ds := by
  rw [Dart.validateFlatBufferCbor.eq_def, if_neg (by omega)]
  cases bytes with
  | nil =>
      refine ⟨fun h => (nomatch h), ?_⟩
      rintro ⟨ds, hds, -⟩
      cases hds.root
  | cons first rest =>
      have hcontainer : ((first :: rest).length > limits.maxBytes ∨
          (some root ≠ none ∧ some (major first) ≠ some root)) ↔
          ((first :: rest).length > maxBytes metadata ∨ major first ≠ root) := by
        rw [hbytes]
        simp
      by_cases h : (first :: rest).length > maxBytes metadata ∨ major first ≠ root
      · refine ⟨fun hok => ?_, fun ⟨ds, hds, _⟩ => absurd hds (not_outlines h ds)⟩
        dsimp only at hok
        rw [if_pos (hcontainer.mpr h)] at hok
        cases hok
      · dsimp only
        rw [if_neg (fun hc => h (hcontainer.mp hc)), ended_iff, hdepth]
        obtain ⟨hsize, hroot⟩ := not_or.mp h
        refine accepts_iff rfl (Classical.not_not.mp hroot) (Nat.le_of_not_lt hsize) ?_
        let sc : Dart.Scanner := ⟨(first :: rest).length, limits, stringKeys, rootKeys⟩
        have hdictionary : sc.dictionary = Native.Scanner.dictionary metadata := funext hkeys
        have hvalue : Maps sc.total id (sc.value 65 0)
            (Walk.walk (Walk.checking Dart.Scanner.keyOf) sc.dictionary 65 0) :=
          Dart.Scanner.maps_value hitems hdepth 65 0
        rw [hdictionary] at hvalue
        exact hvalue

theorem dart_validate_iff (bytes : Bytes) (root : Nat) (metadata : Bool) :
    Dart.validate bytes root metadata = .ok () ↔
      ∃ ds, Outlines bytes root metadata ds ∧ Distinct Dart.Scanner.keyOf ds := by
  cases metadata with
  | true =>
      rw [Dart.validate, if_pos rfl]
      exact validateFlatBufferCbor_iff rfl rfl (by decide) fun _ => rfl
  | false =>
      rw [Dart.validate, if_neg (by decide)]
      exact validateFlatBufferCbor_iff rfl rfl (by decide) fun _ => rfl

/-- **The validators agree where the two readings of the keys do.** -/
theorem validators_agree_iff (bytes : Bytes) (root : Nat) (metadata : Bool) :
    (Dart.validate bytes root metadata = .ok () ↔ Native.validate bytes root metadata = .ok ()) ↔
      ∀ ds, Outlines bytes root metadata ds →
        (Distinct Dart.Scanner.keyOf ds ↔ Distinct List.flatten ds) := by
  rw [native_validate_iff, dart_validate_iff]
  constructor
  · intro h ds hds
    constructor
    · intro hdistinct
      obtain ⟨ds', hds', hdistinct'⟩ := h.mp ⟨ds, hds, hdistinct⟩
      rwa [hds.unique hds']
    · intro hdistinct
      obtain ⟨ds', hds', hdistinct'⟩ := h.mpr ⟨ds, hds, hdistinct⟩
      rwa [hds.unique hds']
  · intro h
    exact exists_congr fun ds => and_congr_right fun hds => h ds hds

/-- The keys `a` and `\uFEFFa`. -/
def markedKeys : Bytes := [0xA2, 0x61, 0x61, 0x00, 0x64, 0xEF, 0xBB, 0xBF, 0x61, 0x00]

theorem marked_key_refused :
    ¬ ∀ (bytes : Bytes) (root : Nat) (metadata : Bool),
      (Dart.validate bytes root metadata = .ok () ↔ Native.validate bytes root metadata = .ok ()) := by
  intro h
  have hnative : Native.validate markedKeys 5 true = .ok () := by decide +kernel
  have hdart : Dart.validate markedKeys 5 true ≠ .ok () := by decide +kernel
  exact hdart ((h markedKeys 5 true).mpr hnative)

end FlatBuffers

end Connectanum
