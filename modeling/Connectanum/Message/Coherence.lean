import Connectanum.Message.Payload

/-!
# Message — Coherence of lazy payloads

A message may hold encoded slices of its positional and keyword arguments under one label, and a
serializer of that encoding passes them on as they are.

* `WirePayload` and the four serializers: what is emitted for a message;
* `Coherent`: the slices are in the encoding of the label, and what else the message holds stands
  for the same values;
* `Coherent.slices`: the slices decode in that encoding to what the message shows;
* `emitted_decodes`: what a serializer emits for a coherent message decodes to its arguments.
-/

namespace Connectanum

/-! ### Serializers -/

/-- How a serializer codes the two payload fields. -/
structure PayloadCodec where
  encodeArguments : Arguments → List UInt8
  decodeArguments : PayloadListDecoder
  encodeArgumentsKeywords : ArgumentsKeywords → List UInt8
  decodeArgumentsKeywords : PayloadMapDecoder

/-- The payload part of an emitted message. -/
inductive WirePayload where
  /-- The transparent binary payload in place of the fields. -/
  | transparent (bytes : List UInt8)
  | fields (arguments argumentsKeywords : Option (List UInt8))

namespace WirePayload

/-- What the receiver decodes. -/
def decode (codec : PayloadCodec) : WirePayload → Except PayloadError MaterializedPayloadView
  | transparent _ => .ok ⟨none, none⟩
  | fields arguments argumentsKeywords => do
      let arguments ← arguments.mapM codec.decodeArguments
      let argumentsKeywords ← argumentsKeywords.mapM codec.decodeArgumentsKeywords
      .ok ⟨arguments, argumentsKeywords⟩

end WirePayload

namespace PayloadMessage

/-- The slice of positional arguments, or the encoded values, which may be none. -/
def sliceOrArguments (codec : PayloadCodec) (m : PayloadMessage) :
    Except PayloadError (List UInt8) :=
  match m.encodedArguments with
  | some bytes => .ok bytes
  | none => m.wireArguments.1.map fun v => codec.encodeArguments (v.getD [])

def sliceOrArgumentsKeywords (codec : PayloadCodec) (m : PayloadMessage) :
    Except PayloadError (Option (List UInt8)) :=
  match m.encodedArgumentsKeywords with
  | some bytes => .ok (some bytes)
  | none => m.wireArgumentsKeywords.1.map fun v => v.map codec.encodeArgumentsKeywords

/-- The slices as they are, where the label is `encoding` and there is one; values fill in. -/
def slicedFields (codec : PayloadCodec) (encoding : LazyPayloadEncoding) (m : PayloadMessage) :
    Option (Except PayloadError WirePayload) :=
  if m.lazyPayloadEncoding = some encoding ∧
      (m.encodedArguments.isSome ∨ m.encodedArgumentsKeywords.isSome) then
    some do
      let arguments ← m.sliceOrArguments codec
      let argumentsKeywords ← m.sliceOrArgumentsKeywords codec
      .ok (.fields (some arguments) argumentsKeywords)
  else none

/-- The encoded values.  Keyword arguments come after positional ones, if need be empty ones. -/
def valueFields (codec : PayloadCodec) (m : PayloadMessage) : Except PayloadError WirePayload := do
  let arguments ← m.wireArguments.1
  let argumentsKeywords ← m.wireArgumentsKeywords.1
  match argumentsKeywords with
  | some keywords => .ok (.fields (some (codec.encodeArguments (arguments.getD [])))
      (some (codec.encodeArgumentsKeywords keywords)))
  | none => .ok (.fields (arguments.map codec.encodeArguments) none)

/-- `_serializePayload` of the JSON serializer. -/
def jsonPayload (codec : PayloadCodec) (m : PayloadMessage) : Except PayloadError WirePayload :=
  match m.slicedFields codec .json, m.transparentBinaryPayload with
  | some fields, _ => fields
  | none, some bytes => .ok (.transparent bytes)
  | none, none => m.valueFields codec

/-- `_serializePayload` of the MessagePack serializer. -/
def messagePackPayload (codec : PayloadCodec) (m : PayloadMessage) :
    Except PayloadError WirePayload :=
  match m.transparentBinaryPayload, m.slicedFields codec .messagePack with
  | some bytes, _ => .ok (.transparent bytes)
  | none, some fields => fields
  | none, none => m.valueFields codec

/-- The values are a short list of positional arguments that ends with a byte string, and nothing
is encoded. -/
def endsInBinary (m : PayloadMessage) : Bool :=
  m.encodedArguments.isNone && m.encodedArgumentsKeywords.isNone &&
    match m.wireArgumentsKeywords.1, m.wireArguments.1 with
    | .ok none, .ok (some arguments) =>
        decide (arguments.length < 24) && match arguments.getLast? with
          | some (.bytes _) => true
          | _ => false
    | _, _ => false

/-- `_serializeCborPayloadMessage` and `_appendPayloadToList` of the CBOR serializer. -/
def cborPayload (codec : PayloadCodec) (m : PayloadMessage) : Except PayloadError WirePayload :=
  match m.slicedFields codec .cbor with
  | some fields => fields
  | none =>
      if m.endsInBinary then m.valueFields codec
      else match m.transparentBinaryPayload with
        | some bytes => .ok (.transparent bytes)
        | none => m.valueFields codec

/-- The field of a FlatBuffer: a slice of the view if it is CBOR, or the encoded values. -/
def viewedArguments (codec : PayloadCodec) (m : PayloadMessage) (view : LazyMessagePayload) :
    Except PayloadError (Option (List UInt8)) :=
  match if view.encoding = some .cbor then view.argumentsBytes else none with
  | some bytes => .ok (some bytes)
  | none => m.wireArguments.1.map fun v => v.map codec.encodeArguments

def viewedArgumentsKeywords (codec : PayloadCodec) (m : PayloadMessage)
    (view : LazyMessagePayload) : Except PayloadError (Option (List UInt8)) :=
  match if view.encoding = some .cbor then view.argumentsKeywordsBytes else none with
  | some bytes => .ok (some bytes)
  | none => m.wireArgumentsKeywords.1.map fun v => v.map codec.encodeArgumentsKeywords

/-- `writeWampFlatBufferMessage`; the values are coded as CBOR. -/
def flatbuffersPayload (codec : PayloadCodec) (m : PayloadMessage) :
    Except PayloadError WirePayload := do
  let view ← m.toLazyPayload.1
  match view.transparentBinaryPayload.or view.packedPayloadBytes with
  | some bytes => .ok (.transparent bytes)
  | none =>
      let arguments ← m.viewedArguments codec view
      let argumentsKeywords ← m.viewedArgumentsKeywords codec view
      .ok (.fields arguments argumentsKeywords)

end PayloadMessage

inductive PayloadSerializer where
  | json
  | messagePack
  | cbor
  | flatbuffers

namespace PayloadSerializer

/-- The encoding in which the serializer writes values. -/
def valueEncoding : PayloadSerializer → LazyPayloadEncoding
  | json => .json
  | messagePack => .messagePack
  | cbor => .cbor
  | flatbuffers => .cbor

def payload (codecs : LazyPayloadEncoding → PayloadCodec) (m : PayloadMessage) :
    PayloadSerializer → Except PayloadError WirePayload
  | json => m.jsonPayload (codecs .json)
  | messagePack => m.messagePackPayload (codecs .messagePack)
  | cbor => m.cborPayload (codecs .cbor)
  | flatbuffers => m.flatbuffersPayload (codecs .cbor)

end PayloadSerializer

/-! ### Coherent messages -/

namespace PayloadMessage

section
variable {α : Type}

/-- A retained slice: none, or it decodes in the encoding of the label, and to the value that the
message keeps if it keeps one. -/
def Slice (decode : LazyPayloadEncoding → List UInt8 → Except PayloadError α)
    (label : Option LazyPayloadEncoding) (slice : Option (List UInt8))
    (decoder : Option (List UInt8 → Except PayloadError α)) (own : Option α) : Prop :=
  slice = none ∨ ∃ bytes d v, slice = some bytes ∧ decoder = some d ∧ d bytes = .ok v ∧
    (∀ e, label = some e → decode e bytes = .ok v) ∧ (own = none ∨ own = some v)

end

section
variable (codecs : LazyPayloadEncoding → PayloadCodec)

/-- The view that a message retains. -/
inductive Retained (m : PayloadMessage) : LazyMessagePayload → Prop where
  /-- It stands for the values of the message and has its slices. -/
  | view {p : LazyMessagePayload} (now : ∀ e v, p ≠ .deferred e v)
      (unpacked : p.packedPayloadBytes = none)
      (transparent : p.transparentBinaryPayload = m.transparentBinaryPayload)
      (encoding : p.encoding = m.lazyPayloadEncoding)
      (slices : p.argumentsBytes = m.encodedArguments ∧
        p.argumentsKeywordsBytes = m.encodedArgumentsKeywords)
      (arguments : p.arguments = m.rawArguments.1)
      (argumentsKeywords : p.argumentsKeywords = m.rawArgumentsKeywords.1) : Retained m p
  /-- It is still to be evaluated, or was evaluated for the message. -/
  | deferred {e : Option LazyPayloadEncoding} {v : MaterializedPayloadView}
      (flag : m.pptPayloadDecoded = true) (encoding : e = m.lazyPayloadEncoding)
      (transparent : m.transparentBinaryPayload = none)
      (slices : m.encodedArguments = none ∧ m.encodedArgumentsKeywords = none)
      (own : m.ownArguments = none ∧ m.ownArgumentsKeywords = none ∨
        m.ownArguments = v.arguments ∧ m.ownArgumentsKeywords = v.argumentsKeywords) :
      Retained m (.deferred e (.ok v))
  /-- Its evaluation fails, so that the message has no arguments to show. -/
  | failed {e : Option LazyPayloadEncoding} {error : PayloadError}
      (slices : m.encodedArguments = none ∧ m.encodedArgumentsKeywords = none)
      (own : m.ownArguments = none ∧ m.ownArgumentsKeywords = none) :
      Retained m (.deferred e (.error error))

/-- What a message holds fits together. -/
structure Coherent (m : PayloadMessage) : Prop where
  arguments : Slice (fun e => (codecs e).decodeArguments) m.lazyPayloadEncoding m.encodedArguments
    m.argumentsDecoder m.ownArguments
  argumentsKeywords : Slice (fun e => (codecs e).decodeArgumentsKeywords) m.lazyPayloadEncoding
    m.encodedArgumentsKeywords m.argumentsKeywordsDecoder m.ownArgumentsKeywords
  /-- A transparent payload stands alone. -/
  transparent : m.transparentBinaryPayload ≠ none → m.encodedArguments = none ∧
    m.encodedArgumentsKeywords = none ∧ m.ownArguments = none ∧ m.ownArgumentsKeywords = none
  retained : ∀ p, m.retainedLazyPayload = some p → Retained m p

end

/-! ### What a coherent message shows -/

section
variable {α : Type} {decode : LazyPayloadEncoding → List UInt8 → Except PayloadError α}
  {label label' : Option LazyPayloadEncoding} {slice : Option (List UInt8)}
  {decoder : Option (List UInt8 → Except PayloadError α)} {own : Option α}

/-- Under no label, or the same one, a slice may stay. -/
theorem Slice.relabel (h : Slice decode label slice decoder own)
    (hl : slice = none ∨ label' = none ∨ label' = label) :
    Slice decode label' slice decoder own := by
  rcases h with hn | ⟨bytes, d, v, hb, hd, hv, hlabel, hown⟩
  · exact .inl hn
  · rcases hl with hn | rfl | rfl
    · exact .inl hn
    · exact .inr ⟨bytes, d, v, hb, hd, hv, fun e he => (nomatch he), hown⟩
    · exact .inr ⟨bytes, d, v, hb, hd, hv, hlabel, hown⟩

end

variable {codecs : LazyPayloadEncoding → PayloadCodec} {m target : PayloadMessage}

/-- Without a slice the values are the message's own. -/
theorem rawArguments_of_none (h : m.encodedArguments = none) :
    m.rawArguments = (.ok m.ownArguments, m) := by
  rw [rawArguments, h]
  cases m.ownArguments <;> rfl

theorem rawArgumentsKeywords_of_none (h : m.encodedArgumentsKeywords = none) :
    m.rawArgumentsKeywords = (.ok m.ownArgumentsKeywords, m) := by
  rw [rawArgumentsKeywords, h]
  cases m.ownArgumentsKeywords <;> rfl

/-- The values are read from three of the fields. -/
theorem rawArguments_congr (m' m : PayloadMessage) (ho : m'.ownArguments = m.ownArguments)
    (hb : m'.encodedArguments = m.encodedArguments)
    (hd : m'.argumentsDecoder = m.argumentsDecoder) : m'.rawArguments.1 = m.rawArguments.1 := by
  rw [rawArguments, rawArguments, ho, hb, hd]
  split
  · split <;> rfl
  · rfl

theorem rawArgumentsKeywords_congr (m' m : PayloadMessage)
    (ho : m'.ownArgumentsKeywords = m.ownArgumentsKeywords)
    (hb : m'.encodedArgumentsKeywords = m.encodedArgumentsKeywords)
    (hd : m'.argumentsKeywordsDecoder = m.argumentsKeywordsDecoder) :
    m'.rawArgumentsKeywords.1 = m.rawArgumentsKeywords.1 := by
  rw [rawArgumentsKeywords, rawArgumentsKeywords, ho, hb, hd]
  split
  · split <;> rfl
  · rfl

/-- A slice is read as its value, which is kept. -/
theorem rawArguments_of_slice {bytes : List UInt8} {d : PayloadListDecoder} {v : Arguments}
    (hb : m.encodedArguments = some bytes) (hd : m.argumentsDecoder = some d)
    (hv : d bytes = .ok v) (hown : m.ownArguments = none ∨ m.ownArguments = some v) :
    m.rawArguments = (.ok (some v), m.keepArguments v) := by
  rw [rawArguments]
  rcases hown with hown | hown
  · rw [hown, hb, hd]
    simp only [hv]
  · have hkept : m.keepArguments v = m := by rw [keepArguments, ← hown]
    rw [hkept, hown]

theorem rawArgumentsKeywords_of_slice {bytes : List UInt8} {d : PayloadMapDecoder}
    {v : ArgumentsKeywords} (hb : m.encodedArgumentsKeywords = some bytes)
    (hd : m.argumentsKeywordsDecoder = some d) (hv : d bytes = .ok v)
    (hown : m.ownArgumentsKeywords = none ∨ m.ownArgumentsKeywords = some v) :
    m.rawArgumentsKeywords = (.ok (some v), m.keepArgumentsKeywords v) := by
  rw [rawArgumentsKeywords]
  rcases hown with hown | hown
  · rw [hown, hb, hd]
    simp only [hv]
  · have hkept : m.keepArgumentsKeywords v = m := by rw [keepArgumentsKeywords, ← hown]
    rw [hkept, hown]

namespace Coherent

/-- A message with nothing to evaluate, or one that is told its values when it is read. -/
theorem materialize (h : Coherent codecs m) :
    (m.materializeDeferredPayloadIfNeeded = .ok m ∧
      ∀ e v, m.retainedLazyPayload ≠ some (.deferred e v)) ∨
    (∃ e v, m.retainedLazyPayload = some (.deferred e (.ok v)) ∧
      m.materializeDeferredPayloadIfNeeded = .ok (m.holdView v)) ∨
    ∃ e error, m.retainedLazyPayload = some (.deferred e (.error error)) ∧
      m.materializeDeferredPayloadIfNeeded = .error error := by
  rw [materializeDeferredPayloadIfNeeded]
  cases hr : m.retainedLazyPayload with
  | none => exact .inl ⟨rfl, nofun⟩
  | some p =>
      cases h.retained p hr with
      | view now =>
          cases p with
          | deferred e v => exact absurd rfl (now e v)
          | encoded | packed | materialized =>
              exact .inl ⟨rfl, fun e v he => (nomatch Option.some.inj he)⟩
      | deferred => exact .inr (.inl ⟨_, _, rfl, rfl⟩)
      | failed => exact .inr (.inr ⟨_, _, rfl, rfl⟩)

/-- **What the getters show is what the wire getters show.** -/
theorem wire (h : Coherent codecs m) {a : Option Arguments} {k : Option ArgumentsKeywords}
    (ha : m.arguments.1 = .ok a) (hk : m.argumentsKeywords.1 = .ok k) :
    m.wireArguments.1 = .ok a ∧ m.wireArgumentsKeywords.1 = .ok k := by
  rw [PayloadMessage.arguments] at ha
  rw [PayloadMessage.argumentsKeywords] at hk
  rw [wireArguments, wireArgumentsKeywords]
  cases hr : m.retainedLazyPayload with
  | none =>
      have hm : m.materializeDeferredPayloadIfNeeded = .ok m := by
        rw [materializeDeferredPayloadIfNeeded, hr]
      rw [hm] at ha hk
      cases m.pptPayloadDecoded <;> exact ⟨ha, hk⟩
  | some p =>
      cases h.retained p hr with
      | view now _ _ _ _ arguments argumentsKeywords =>
          have hm : m.materializeDeferredPayloadIfNeeded = .ok m := by
            rcases h.materialize with ⟨hm, -⟩ | ⟨e, v, hd, -⟩ | ⟨e, v, hd, -⟩
            · exact hm
            · exact absurd (Option.some.inj (hr.symm.trans hd)) (now _ _)
            · exact absurd (Option.some.inj (hr.symm.trans hd)) (now _ _)
          rw [hm] at ha hk
          cases m.pptPayloadDecoded with
          | false => exact ⟨ha, hk⟩
          | true => exact ⟨arguments.trans ha, argumentsKeywords.trans hk⟩
      | @deferred e v flag _ _ slices _ =>
          have hm : m.materializeDeferredPayloadIfNeeded = .ok (m.holdView v) := by
            rw [materializeDeferredPayloadIfNeeded, hr]
            rfl
          rw [hm] at ha hk
          dsimp only at ha hk
          rw [rawArguments_of_none (m := m.holdView v) slices.1] at ha
          rw [rawArgumentsKeywords_of_none (m := m.holdView v) slices.2] at hk
          rw [flag]
          exact ⟨ha, hk⟩
      | failed =>
          have hm : ∃ error, m.materializeDeferredPayloadIfNeeded = .error error := by
            rw [materializeDeferredPayloadIfNeeded, hr]
            exact ⟨_, rfl⟩
          obtain ⟨error, hm⟩ := hm
          rw [hm] at ha
          cases ha

/-- A message with a slice has nothing to evaluate. -/
theorem arguments_eq (h : Coherent codecs m)
    (hs : m.encodedArguments ≠ none ∨ m.encodedArgumentsKeywords ≠ none) :
    m.arguments = m.rawArguments ∧ m.argumentsKeywords = m.rawArgumentsKeywords := by
  have hm : m.materializeDeferredPayloadIfNeeded = .ok m := by
    rcases h.materialize with ⟨hm, -⟩ | ⟨e, v, hr, -⟩ | ⟨e, v, hr, -⟩
    · exact hm
    · cases h.retained _ hr with
      | view now => exact absurd rfl (now _ _)
      | deferred _ _ _ slices => exact absurd hs (by simp [slices.1, slices.2])
    · cases h.retained _ hr with
      | view now => exact absurd rfl (now _ _)
      | failed slices => exact absurd hs (by simp [slices.1, slices.2])
  rw [PayloadMessage.arguments, PayloadMessage.argumentsKeywords, hm]
  exact ⟨rfl, rfl⟩

/-- **The slices are in the encoding of the label**, and decode to what the message shows. -/
theorem slices (h : Coherent codecs m) {e : LazyPayloadEncoding}
    (hl : m.lazyPayloadEncoding = some e) :
    (∀ bytes, m.encodedArguments = some bytes → ∃ v,
      (codecs e).decodeArguments bytes = .ok v ∧ m.arguments.1 = .ok (some v)) ∧
    ∀ bytes, m.encodedArgumentsKeywords = some bytes → ∃ v,
      (codecs e).decodeArgumentsKeywords bytes = .ok v ∧
        m.argumentsKeywords.1 = .ok (some v) := by
  constructor
  · intro bytes hb
    rcases h.arguments with hn | ⟨bytes', d, v, hb', hd, hv, hlabel, hown⟩
    · rw [hn] at hb
      cases hb
    · obtain rfl := Option.some.inj (hb.symm.trans hb')
      refine ⟨v, hlabel e hl, ?_⟩
      rw [(h.arguments_eq (.inl (by rw [hb]; nofun))).1, rawArguments_of_slice hb hd hv hown]
  · intro bytes hb
    rcases h.argumentsKeywords with hn | ⟨bytes', d, v, hb', hd, hv, hlabel, hown⟩
    · rw [hn] at hb
      cases hb
    · obtain rfl := Option.some.inj (hb.symm.trans hb')
      refine ⟨v, hlabel e hl, ?_⟩
      rw [(h.arguments_eq (.inr (by rw [hb]; nofun))).2, rawArgumentsKeywords_of_slice hb hd hv
        hown]

/-! ### What is emitted -/

/-- A transparent payload stands alone. -/
theorem shows_nothing (h : Coherent codecs m) (ht : m.transparentBinaryPayload ≠ none)
    {a : Option Arguments} {k : Option ArgumentsKeywords} (ha : m.arguments.1 = .ok a)
    (hk : m.argumentsKeywords.1 = .ok k) : a = none ∧ k = none := by
  obtain ⟨hs, hsk, hown, hownk⟩ := h.transparent ht
  rw [PayloadMessage.arguments] at ha
  rw [PayloadMessage.argumentsKeywords] at hk
  rcases h.materialize with ⟨hm, -⟩ | ⟨e, v, hr, -⟩ | ⟨e, v, -, hm⟩
  · rw [hm] at ha hk
    dsimp only at ha hk
    rw [rawArguments_of_none hs, hown] at ha
    rw [rawArgumentsKeywords_of_none hsk, hownk] at hk
    exact ⟨(Except.ok.inj ha).symm, (Except.ok.inj hk).symm⟩
  · cases h.retained _ hr with
    | view now => exact absurd rfl (now _ _)
    | deferred _ _ transparent => exact absurd transparent ht
  · rw [hm] at ha
    cases ha

end Coherent

end PayloadMessage

/-- The codec gives back these values, and the empty list. -/
structure PayloadCodec.ReadsBack (codec : PayloadCodec) (view : MaterializedPayloadView) :
    Prop where
  arguments : ∀ v, view.arguments = some v →
    codec.decodeArguments (codec.encodeArguments v) = .ok v
  empty : codec.decodeArguments (codec.encodeArguments []) = .ok []
  argumentsKeywords : ∀ v, view.argumentsKeywords = some v →
    codec.decodeArgumentsKeywords (codec.encodeArgumentsKeywords v) = .ok v

/-- `got` stands for `shown`: it is the same, or has empty positional arguments before keyword
arguments. -/
def MaterializedPayloadView.Stands (shown got : MaterializedPayloadView) : Prop :=
  got = shown ∨ shown.arguments = none ∧ shown.argumentsKeywords ≠ none ∧
    got = ⟨some [], shown.argumentsKeywords⟩

/-- The emitted payload decodes to what is shown. -/
def WirePayload.Carries (codec : PayloadCodec) (emitted : Except PayloadError WirePayload)
    (shown : MaterializedPayloadView) : Prop :=
  ∃ wire got, emitted = .ok wire ∧ wire.decode codec = .ok got ∧ shown.Stands got

namespace WirePayload

variable {codec : PayloadCodec}

theorem decode_fields {a : Option (List UInt8)} {k : Option (List UInt8)}
    {arguments : Option Arguments} {argumentsKeywords : Option ArgumentsKeywords}
    (ha : a.mapM codec.decodeArguments = .ok arguments)
    (hk : k.mapM codec.decodeArgumentsKeywords = .ok argumentsKeywords) :
    (fields a k).decode codec = .ok ⟨arguments, argumentsKeywords⟩ := by
  simp only [decode, ha, hk, bind, Except.bind]

theorem mapM_some {α β : Type} {f : α → Except PayloadError β} {a : α} {b : β} (h : f a = .ok b) :
    (some a).mapM f = .ok (some b) := by
  change (do let x ← f a; pure (some x)) = _
  rw [h]
  rfl

variable {view : MaterializedPayloadView} (h : codec.ReadsBack view)
include h

theorem mapM_arguments :
    (view.arguments.map codec.encodeArguments).mapM codec.decodeArguments = .ok view.arguments := by
  cases ha : view.arguments with
  | none => rfl
  | some v => exact mapM_some (h.arguments v ha)

theorem mapM_argumentsKeywords :
    (view.argumentsKeywords.map codec.encodeArgumentsKeywords).mapM
      codec.decodeArgumentsKeywords = .ok view.argumentsKeywords := by
  cases hk : view.argumentsKeywords with
  | none => rfl
  | some v => exact mapM_some (h.argumentsKeywords v hk)

/-- Positional arguments filled in. -/
theorem decode_filled :
    codec.decodeArguments (codec.encodeArguments (view.arguments.getD [])) =
      .ok (view.arguments.getD []) := by
  cases ha : view.arguments with
  | none => exact h.empty
  | some v => exact h.arguments v ha

end WirePayload

theorem MaterializedPayloadView.Stands.filled {view : MaterializedPayloadView}
    (h : view.arguments = none → view.argumentsKeywords ≠ none) :
    view.Stands ⟨some (view.arguments.getD []), view.argumentsKeywords⟩ := by
  obtain ⟨a, k⟩ := view
  cases a with
  | some v => exact .inl rfl
  | none => exact .inr ⟨rfl, h rfl, rfl⟩

namespace PayloadMessage

variable {codecs : LazyPayloadEncoding → PayloadCodec} {m : PayloadMessage}
  {view : MaterializedPayloadView}

theorem valueFields_carries {codec : PayloadCodec} (hback : codec.ReadsBack view)
    (ha : m.wireArguments.1 = .ok view.arguments)
    (hk : m.wireArgumentsKeywords.1 = .ok view.argumentsKeywords) :
    WirePayload.Carries codec (m.valueFields codec) view := by
  obtain ⟨a, k⟩ := view
  simp only [valueFields, ha, hk, bind, Except.bind]
  cases k with
  | none =>
      exact ⟨_, _, rfl, WirePayload.decode_fields (WirePayload.mapM_arguments hback) rfl, .inl rfl⟩
  | some v =>
      exact ⟨_, _, rfl, WirePayload.decode_fields
        (WirePayload.mapM_some (WirePayload.decode_filled hback))
        (WirePayload.mapM_some (hback.argumentsKeywords v rfl)),
        .filled (fun _ => nofun)⟩

/-- Slices that are passed on, with values filled in. -/
theorem slicedFields_carries (h : Coherent codecs m) {e : LazyPayloadEncoding}
    (hback : (codecs e).ReadsBack view) (ha : m.arguments.1 = .ok view.arguments)
    (hk : m.argumentsKeywords.1 = .ok view.argumentsKeywords)
    {fields : Except PayloadError WirePayload} (hf : m.slicedFields (codecs e) e = some fields) :
    WirePayload.Carries (codecs e) fields view := by
  obtain ⟨hwa, hwk⟩ := h.wire ha hk
  rw [slicedFields] at hf
  split at hf
  · next hcond =>
    obtain ⟨hl, hs⟩ := hcond
    obtain ⟨hsa, hsk⟩ := h.slices hl
    obtain rfl := Option.some.inj hf
    -- the two fields, each a slice or a value
    obtain ⟨bytes, hbytes, hdec⟩ : ∃ bytes, m.sliceOrArguments (codecs e) = .ok bytes ∧
        (codecs e).decodeArguments bytes = .ok (view.arguments.getD []) := by
      rw [sliceOrArguments]
      cases hb : m.encodedArguments with
      | none =>
          rw [hwa]
          exact ⟨_, rfl, WirePayload.decode_filled hback⟩
      | some bytes =>
          obtain ⟨v, hdec, hshown⟩ := hsa bytes hb
          rw [ha] at hshown
          rw [Except.ok.inj hshown]
          exact ⟨bytes, rfl, hdec⟩
    obtain ⟨keywords, hkeywords, hdeck⟩ : ∃ keywords,
        m.sliceOrArgumentsKeywords (codecs e) = .ok keywords ∧
          keywords.mapM (codecs e).decodeArgumentsKeywords = .ok view.argumentsKeywords := by
      rw [sliceOrArgumentsKeywords]
      cases hb : m.encodedArgumentsKeywords with
      | none =>
          rw [hwk]
          exact ⟨_, rfl, WirePayload.mapM_argumentsKeywords hback⟩
      | some bytes =>
          obtain ⟨v, hdec, hshown⟩ := hsk bytes hb
          rw [hk] at hshown
          rw [Except.ok.inj hshown]
          exact ⟨some bytes, rfl, WirePayload.mapM_some hdec⟩
    refine ⟨.fields (some bytes) keywords, ⟨some (view.arguments.getD []), view.argumentsKeywords⟩,
      ?_, WirePayload.decode_fields (WirePayload.mapM_some hdec) hdeck, .filled fun hn => ?_⟩
    · simp only [hbytes, hkeywords, bind, Except.bind]
    · -- without positional arguments the slice is one of keyword arguments
      rcases hs with hs | hs
      · obtain ⟨bytes, hb⟩ := Option.isSome_iff_exists.mp hs
        obtain ⟨v, -, hshown⟩ := hsa bytes hb
        rw [ha, hn] at hshown
        cases Except.ok.inj hshown
      · obtain ⟨bytes, hb⟩ := Option.isSome_iff_exists.mp hs
        obtain ⟨v, -, hshown⟩ := hsk bytes hb
        rw [hk] at hshown
        rw [Except.ok.inj hshown]
        nofun
  · cases hf

theorem transparent_carries (h : Coherent codecs m) {bytes : List UInt8}
    (ht : m.transparentBinaryPayload = some bytes) (codec : PayloadCodec)
    (ha : m.arguments.1 = .ok view.arguments)
    (hk : m.argumentsKeywords.1 = .ok view.argumentsKeywords) :
    WirePayload.Carries codec (.ok (.transparent bytes)) view := by
  obtain ⟨hna, hnk⟩ := h.shows_nothing (by rw [ht]; nofun) ha hk
  refine ⟨_, _, rfl, rfl, .inl ?_⟩
  rw [← hna, ← hnk]

/-- The view under which the message is written as a FlatBuffer. -/
structure Viewed (m : PayloadMessage) (p : LazyMessagePayload) : Prop where
  transparent : p.transparentBinaryPayload.or p.packedPayloadBytes = m.transparentBinaryPayload
  arguments : p.argumentsBytes = none ∨
    p.encoding = m.lazyPayloadEncoding ∧ p.argumentsBytes = m.encodedArguments
  argumentsKeywords : p.argumentsKeywordsBytes = none ∨
    p.encoding = m.lazyPayloadEncoding ∧ p.argumentsKeywordsBytes = m.encodedArgumentsKeywords

theorem rawArguments_frame (m : PayloadMessage) :
    m.rawArguments.2 = m ∨ ∃ v, m.rawArguments.2 = m.keepArguments v := by
  rw [rawArguments]
  split
  · split
    · exact .inr ⟨_, rfl⟩
    · exact .inl rfl
  · exact .inl rfl

theorem rawArgumentsKeywords_frame (m : PayloadMessage) :
    m.rawArgumentsKeywords.2 = m ∨
      ∃ v, m.rawArgumentsKeywords.2 = m.keepArgumentsKeywords v := by
  rw [rawArgumentsKeywords]
  split
  · split
    · exact .inr ⟨_, rfl⟩
    · exact .inl rfl
  · exact .inl rfl

theorem Coherent.viewed (h : Coherent codecs m) (ha : m.arguments.1 = .ok view.arguments)
    (hk : m.argumentsKeywords.1 = .ok view.argumentsKeywords) :
    ∃ p, m.toLazyPayload.1 = .ok p ∧ m.Viewed p := by
  rw [toLazyPayload]
  cases hr : m.retainedLazyPayload with
  | some p =>
      refine ⟨p, rfl, ?_⟩
      cases h.retained p hr with
      | view _ unpacked transparent encoding slices =>
          refine ⟨?_, .inr ⟨encoding, slices.1⟩, .inr ⟨encoding, slices.2⟩⟩
          rw [unpacked, Option.or_none, transparent]
      | deferred _ _ transparent => exact ⟨transparent.symm, .inl rfl, .inl rfl⟩
      | failed =>
          rw [PayloadMessage.arguments, materializeDeferredPayloadIfNeeded, hr] at ha
          cases ha
  | none =>
      have hm : m.materializeDeferredPayloadIfNeeded = .ok m := by
        rw [materializeDeferredPayloadIfNeeded, hr]
      cases m.pptPayloadDecoded with
      | false =>
          refine ⟨m.ownLazyPayload, rfl, ?_⟩
          rw [ownLazyPayload]
          split
          · exact ⟨Option.or_none, .inr ⟨rfl, rfl⟩, .inr ⟨rfl, rfl⟩⟩
          · exact ⟨Option.or_none, .inl rfl, .inl rfl⟩
      | true =>
          rw [PayloadMessage.arguments, hm] at ha
          rw [PayloadMessage.argumentsKeywords, hm] at hk
          dsimp only at ha hk
          -- reading the values keeps them, and that is all it does
          have hfst : m.arguments = (.ok view.arguments, m.rawArguments.2) := by
            rw [PayloadMessage.arguments, hm]
            exact Prod.ext ha rfl
          obtain ⟨m₁, hm₁, hr₁, ht₁, hk₁⟩ : ∃ m₁, m.arguments = (.ok view.arguments, m₁) ∧
              m₁.retainedLazyPayload = none ∧
              m₁.transparentBinaryPayload = m.transparentBinaryPayload ∧
              m₁.rawArgumentsKeywords.1 = .ok view.argumentsKeywords := by
            rcases m.rawArguments_frame with hf | ⟨v, hf⟩ <;> rw [hf] at hfst
            · exact ⟨m, hfst, hr, rfl, hk⟩
            · exact ⟨m.keepArguments v, hfst, hr, rfl,
                (rawArgumentsKeywords_congr (m.keepArguments v) m rfl rfl rfl).trans hk⟩
          have hm' : m₁.materializeDeferredPayloadIfNeeded = .ok m₁ := by
            rw [materializeDeferredPayloadIfNeeded, hr₁]
          have hsnd : m₁.argumentsKeywords =
              (.ok view.argumentsKeywords, m₁.rawArgumentsKeywords.2) := by
            rw [PayloadMessage.argumentsKeywords, hm']
            exact Prod.ext hk₁ rfl
          rw [hm₁]
          dsimp only
          rw [hsnd]
          refine ⟨_, rfl, ?_, .inl rfl, .inl rfl⟩
          rw [← ht₁]
          rcases m₁.rawArgumentsKeywords_frame with hf | ⟨v, hf⟩
          · rw [hf]
            exact Option.or_none
          · rw [hf]
            exact Option.or_none

theorem flatbuffers_carries (h : Coherent codecs m) (hback : (codecs .cbor).ReadsBack view)
    (ha : m.arguments.1 = .ok view.arguments)
    (hk : m.argumentsKeywords.1 = .ok view.argumentsKeywords) :
    WirePayload.Carries (codecs .cbor) (m.flatbuffersPayload (codecs .cbor)) view := by
  obtain ⟨hwa, hwk⟩ := h.wire ha hk
  obtain ⟨p, hp, hv⟩ := h.viewed ha hk
  simp only [flatbuffersPayload, hp, bind, Except.bind, hv.transparent]
  cases ht : m.transparentBinaryPayload with
  | some bytes => exact transparent_carries h ht _ ha hk
  | none =>
      have hslices (e) (hl : m.lazyPayloadEncoding = some e) := h.slices hl
      obtain ⟨a, hea, hda⟩ : ∃ a, m.viewedArguments (codecs .cbor) p = .ok a ∧
          a.mapM (codecs .cbor).decodeArguments = .ok view.arguments := by
        rw [viewedArguments]
        split
        · next bytes hb =>
          obtain ⟨hl, hb⟩ := Option.ite_none_right_eq_some.mp hb
          rcases hv.arguments with hn | ⟨he, hs⟩
          · rw [hn] at hb
            cases hb
          · obtain ⟨v, hdec, hshown⟩ := (hslices .cbor (he ▸ hl)).1 bytes (hs ▸ hb)
            rw [ha] at hshown
            rw [Except.ok.inj hshown]
            exact ⟨some bytes, rfl, WirePayload.mapM_some hdec⟩
        · rw [hwa]
          exact ⟨_, rfl, WirePayload.mapM_arguments hback⟩
      obtain ⟨k, hek, hdk⟩ : ∃ k, m.viewedArgumentsKeywords (codecs .cbor) p = .ok k ∧
          k.mapM (codecs .cbor).decodeArgumentsKeywords = .ok view.argumentsKeywords := by
        rw [viewedArgumentsKeywords]
        split
        · next bytes hb =>
          obtain ⟨hl, hb⟩ := Option.ite_none_right_eq_some.mp hb
          rcases hv.argumentsKeywords with hn | ⟨he, hs⟩
          · rw [hn] at hb
            cases hb
          · obtain ⟨v, hdec, hshown⟩ := (hslices .cbor (he ▸ hl)).2 bytes (hs ▸ hb)
            rw [hk] at hshown
            rw [Except.ok.inj hshown]
            exact ⟨some bytes, rfl, WirePayload.mapM_some hdec⟩
        · rw [hwk]
          exact ⟨_, rfl, WirePayload.mapM_argumentsKeywords hback⟩
      refine ⟨.fields a k, view, ?_, WirePayload.decode_fields hda hdk, .inl rfl⟩
      simp only [hea, hek]

/-- **What a serializer emits for a coherent message decodes to its arguments.** -/
theorem emitted_decodes (h : Coherent codecs m) (s : PayloadSerializer)
    (hback : (codecs s.valueEncoding).ReadsBack view) (ha : m.arguments.1 = .ok view.arguments)
    (hk : m.argumentsKeywords.1 = .ok view.argumentsKeywords) :
    WirePayload.Carries (codecs s.valueEncoding) (s.payload codecs m) view := by
  obtain ⟨hwa, hwk⟩ := h.wire ha hk
  have hvalues := valueFields_carries hback hwa hwk
  cases s with
  | json =>
      simp only [PayloadSerializer.payload, PayloadSerializer.valueEncoding, jsonPayload] at *
      split
      · next hf => exact slicedFields_carries h hback ha hk hf
      · next ht => exact transparent_carries h ht _ ha hk
      · exact hvalues
  | messagePack =>
      simp only [PayloadSerializer.payload, PayloadSerializer.valueEncoding,
        messagePackPayload] at *
      split
      · next ht => exact transparent_carries h ht _ ha hk
      · next hf => exact slicedFields_carries h hback ha hk hf
      · exact hvalues
  | cbor =>
      simp only [PayloadSerializer.payload, PayloadSerializer.valueEncoding, cborPayload] at *
      split
      · next hf => exact slicedFields_carries h hback ha hk hf
      · split
        · exact hvalues
        · split
          · next ht => exact transparent_carries h ht _ ha hk
          · exact hvalues
  | flatbuffers => exact flatbuffers_carries h hback ha hk

end PayloadMessage

end Connectanum
