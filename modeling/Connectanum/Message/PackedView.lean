import Connectanum.Lib.Runs
import Connectanum.Message.Payload

/-!
# Message — The decoded view of a packed payload

A payload that was packed into one wire argument is unpacked when a getter of the receiving message
is first read; the wire form stays available.

* `Arrived`: the forms in which the packed payload reaches a message;
* `Carries`: what holds of a message that carries it, before and after it is unpacked;
* `Safe`: the reading meets no encoded slice where the unpacked arguments are not there;
* `packed_view_run`: all readings of a run are right if and only if each of them is safe;
* `packed_view_mixed`: a copy that is taken after a reading answers with the wire arguments.
-/

namespace Connectanum

open Machine PPTPayload

/-! ### What is packed is unpacked -/

/-- The serializer gives back the payload that it packs. -/
def PPTSerializer.ReadsBack (serializer : PPTSerializer) (payload : MaterializedPayloadView) :
    Prop :=
  ∀ bytes, serializer.serializePPT payload = .ok bytes →
    serializer.deserializePPT bytes = .ok (some payload)

theorem flatbuffersSerializer_readsBack (payload : MaterializedPayloadView) :
    flatbuffersSerializer.ReadsBack payload := by
  intro bytes h
  obtain ⟨arguments, argumentsKeywords⟩ := payload
  simp only [flatbuffersSerializer] at h ⊢
  match argumentsKeywords, arguments, h with
  | none, some [.bytes own], h =>
      dsimp only at h
      split at h
      · cases h
      · next hlen =>
        obtain rfl := Except.ok.inj h
        rw [if_neg hlen]

/-- `wire` is what a payload was packed into, under a scheme other than end-to-end encryption, by a
serializer that gives it back. -/
structure PackedBy (codecs : PPTCodecs) (ppt : PPTOptions) (payload : MaterializedPayloadView)
    (wire : Arguments) : Prop where
  scheme : ∃ scheme, ppt.pptScheme = some scheme ∧ scheme ≠ "wamp"
  packed : packPPTPayload codecs payload ppt = .ok wire
  json : ppt.pptSerializer = some "json" → codecs.json.ReadsBack payload
  cbor : ppt.pptSerializer = some "cbor" → codecs.cbor.ReadsBack payload
  msgpack : ppt.pptSerializer = some "msgpack" → codecs.msgpack.ReadsBack payload

section
variable {codecs : PPTCodecs} {ppt : PPTOptions} {payload : MaterializedPayloadView}
  {wire : Arguments}

/-- The serializer is one of the four, and reads back what it packs; or there is none. -/
theorem PackedBy.serializer (h : PackedBy codecs ppt payload wire) :
    (ppt.pptSerializer ∈ [some "json", some "msgpack", some "cbor", some "flatbuffers"] ∧
      ∃ serializer, serializerForName codecs ppt.pptSerializer = some serializer ∧
        serializer.ReadsBack payload) ∨
    (ppt.pptSerializer ∉ [some "json", some "msgpack", some "cbor", some "flatbuffers"] ∧
      serializerForName codecs ppt.pptSerializer = none) := by
  unfold serializerForName
  split
  · next he => exact .inl ⟨by simp [he], _, rfl, h.json he⟩
  · next he => exact .inl ⟨by simp [he], _, rfl, h.cbor he⟩
  · next he => exact .inl ⟨by simp [he], _, rfl, h.msgpack he⟩
  · next he => exact .inl ⟨by simp [he], _, rfl, flatbuffersSerializer_readsBack payload⟩
  · next hj hc hm hf =>
    refine .inr ⟨?_, rfl⟩
    simp only [List.mem_cons, List.not_mem_nil, or_false, not_or]
    exact ⟨hj, hm, hc, hf⟩

theorem asArguments_argumentsValue (arguments : Option Arguments) :
    asArguments (argumentsValue arguments) = .ok arguments := by
  cases arguments <;> rfl

theorem asArgumentsKeywords_argumentsKeywordsValue (keywords : Option ArgumentsKeywords) :
    asArgumentsKeywords (argumentsKeywordsValue keywords) = .ok keywords := by
  cases keywords <;> rfl

/-- **Unpacking undoes packing**, and the packed form is recognised. -/
theorem PackedBy.unpack (h : PackedBy codecs ppt payload wire) :
    decodePayloadView codecs (some wire) none ppt = .ok payload ∧
      payloadLooksPackedForPpt (some wire) none ppt = true := by
  obtain ⟨scheme, hscheme, hplain⟩ := h.scheme
  have hpacked := h.packed
  rw [decodePayloadView, hscheme]
  dsimp only
  rw [if_neg hplain]
  rcases h.serializer with ⟨hmem, serializer, hname, hback⟩ | ⟨hmem, hname⟩
  · -- one binary item
    rw [packPPTPayload, hname] at hpacked
    cases hbytes : serializer.serializePPT payload with
    | error e => simp [hbytes, Except.map] at hpacked
    | ok bytes =>
        simp only [hbytes, Except.map, Except.ok.injEq] at hpacked
        subst hpacked
        constructor
        · simp only [unpackPPTPayload, hname, coerceBinaryPayload, hback bytes hbytes, bind,
            Except.bind, Option.getD_some]
        · simp only [payloadLooksPackedForPpt, hscheme, Option.any_none, if_neg hplain, if_pos hmem,
            isBinaryPayloadValue, Bool.false_eq_true, if_false]
  · -- one map
    rw [packPPTPayload, hname] at hpacked
    obtain rfl := Except.ok.inj hpacked
    constructor
    · have hargs : member "args" (.map [("args", argumentsValue payload.arguments),
          ("kwargs", argumentsKeywordsValue payload.argumentsKeywords)]) =
          .ok (argumentsValue payload.arguments) := rfl
      have hkwargs : member "kwargs" (.map [("args", argumentsValue payload.arguments),
          ("kwargs", argumentsKeywordsValue payload.argumentsKeywords)]) =
          .ok (argumentsKeywordsValue payload.argumentsKeywords) := rfl
      simp only [unpackPPTPayload, hname, hargs, hkwargs, bind, Except.bind,
        asArguments_argumentsValue, asArgumentsKeywords_argumentsKeywordsValue]
    · simp only [payloadLooksPackedForPpt, hscheme, Option.any_none, if_neg hplain, if_neg hmem,
        Bool.false_eq_true, if_false, List.isEmpty_nil]

end

/-! ### Messages that carry a packed payload -/

section
variable (payload : MaterializedPayloadView) (wire : Arguments)

/-- The forms in which a packed payload reaches a message. -/
inductive Arrived : PayloadMessage → Prop where
  /-- The wire arguments were given as a list. -/
  | materialized : Arrived { ownArguments := some wire }
  /-- Their encoding was retained with a decoder. -/
  | retained (bytes : List UInt8) (decoder : PayloadListDecoder)
      (encoding : Option LazyPayloadEncoding) (h : decoder bytes = .ok wire) :
      Arrived (PayloadMessage.setLazyPayload {} (some bytes) (some decoder) none none encoding)
  /-- They were restored from a view, of their encoding or of the list. -/
  | restored (transparent : Option (List UInt8)) (bytes : List UInt8) (decoder : PayloadListDecoder)
      (encoding : Option LazyPayloadEncoding) (h : decoder bytes = .ok wire) :
      Arrived (PayloadMessage.restoreLazyPayload {}
        (.encoded transparent encoding (some bytes) none (some decoder) none none none)).2
  | restoredValues (transparent : Option (List UInt8)) (encoding : Option LazyPayloadEncoding) :
      Arrived (PayloadMessage.restoreLazyPayload {}
        (.materialized transparent encoding (some wire) none false)).2
  /-- They were restored from a view of the packed value, which unpacks it. -/
  | restoredPacked (transparent : Option (List UInt8)) (encoding : Option LazyPayloadEncoding)
      (bytes : List UInt8) (decoder : PackedPayloadDecoder) (pptDecoded : Bool)
      (hwire : wire = [.bytes bytes]) (h : decoder bytes = .ok payload) :
      Arrived (PayloadMessage.restoreLazyPayload {}
        (.packed transparent encoding bytes decoder pptDecoded)).2

/-- The view stands for the wire arguments; one of the packed value answers with what it holds. -/
inductive Source : LazyMessagePayload → Prop where
  | wire {p : LazyMessagePayload} (arguments : p.arguments = .ok (some wire))
      (keywords : p.argumentsKeywords = .ok none) (plain : p.packedPayloadBytes = none)
      (now : ∀ e v, p ≠ .deferred e v) : Source p
  | packed {transparent : Option (List UInt8)} {encoding : Option LazyPayloadEncoding}
      {bytes : List UInt8} {decoder : PackedPayloadDecoder} {pptDecoded : Bool}
      (h : decoder bytes = .ok payload) : Source (.packed transparent encoding bytes decoder
        pptDecoded)

/-- The message holds the encoded wire arguments. -/
def HoldsSlice (m : PayloadMessage) : Prop :=
  ∃ bytes decoder, m.encodedArguments = some bytes ∧ m.argumentsDecoder = some decoder ∧
    decoder bytes = .ok wire

/-- A message that carries the packed payload. -/
structure Carries (m : PayloadMessage) : Prop where
  noKeywordsSlice : m.encodedArgumentsKeywords = none
  slice : m.encodedArguments = none ∨ HoldsSlice wire m
  source : ∀ p, m.retainedLazyPayload = some p → Source payload wire p
  /-- Not yet unpacked. -/
  before : m.pptPayloadDecoded = false → m.ownArgumentsKeywords = none ∧
    (m.ownArguments = some wire ∨ m.ownArguments = none ∧ HoldsSlice wire m)
  /-- Unpacked: the arguments are there, unless the message is a copy. -/
  after : m.pptPayloadDecoded = true → m.retainedLazyPayload ≠ none ∧
    m.ownArgumentsKeywords = payload.argumentsKeywords ∧
    (m.ownArguments = payload.arguments ∨ m.ownArguments = none ∧ HoldsSlice wire m)

namespace Carries

variable {payload wire} {m : PayloadMessage}

theorem materialize (h : Carries payload wire m) :
    m.materializeDeferredPayloadIfNeeded = .ok m := by
  rw [PayloadMessage.materializeDeferredPayloadIfNeeded]
  split
  · next e v hr =>
    cases h.source _ hr with
    | wire _ _ _ now => exact absurd rfl (now e v)
  · rfl

theorem of_arrived (h : Arrived payload wire m) : Carries payload wire m := by
  cases h with
  | materialized =>
      exact ⟨rfl, .inl rfl, fun _ hp => (nomatch hp), fun _ => ⟨rfl, .inl rfl⟩,
        fun hd => (nomatch hd)⟩
  | retained bytes decoder encoding hdec =>
      exact ⟨rfl, .inr ⟨bytes, decoder, rfl, rfl, hdec⟩, fun _ hp => (nomatch hp),
        fun _ => ⟨rfl, .inr ⟨rfl, bytes, decoder, rfl, rfl, hdec⟩⟩, fun hd => (nomatch hd)⟩
  | restored transparent bytes decoder encoding hdec =>
      have hview : LazyMessagePayload.arguments (.encoded transparent encoding (some bytes) none
          (some decoder) none none none) = .ok (some wire) := by
        simp only [LazyMessagePayload.arguments, hdec]
        rfl
      have hslice : PayloadMessage.viewArgumentsDecoder (.encoded transparent encoding (some bytes)
          none (some decoder) none none none) bytes = .ok wire := by
        rw [PayloadMessage.viewArgumentsDecoder, hview]
        rfl
      refine ⟨rfl, .inr ⟨bytes, _, rfl, rfl, hslice⟩, fun p hp => ?_,
        fun _ => ⟨rfl, .inr ⟨rfl, bytes, _, rfl, rfl, hslice⟩⟩, fun hd => (nomatch hd)⟩
      obtain rfl := Option.some.inj hp
      exact .wire hview rfl rfl (fun _ _ => nofun)
  | restoredValues transparent encoding =>
      refine ⟨rfl, .inl rfl, fun p hp => ?_, fun _ => ⟨rfl, .inl rfl⟩, fun hd => (nomatch hd)⟩
      obtain rfl := Option.some.inj hp
      exact .wire rfl rfl rfl (fun _ _ => nofun)
  | restoredPacked transparent encoding bytes decoder pptDecoded hwire hdec =>
      subst hwire
      refine ⟨rfl, .inl rfl, fun p hp => ?_, fun _ => ⟨rfl, .inl rfl⟩, fun hd => (nomatch hd)⟩
      obtain rfl := Option.some.inj hp
      exact .packed hdec

/-- Before it is unpacked, the message gives the wire arguments, and keeps them. -/
theorem raw (h : Carries payload wire m) (hp : m.pptPayloadDecoded = false) :
    m.rawArguments = (.ok (some wire), m.keepArguments wire) ∧
      m.rawArgumentsKeywords = (.ok none, m) := by
  obtain ⟨hk, hown⟩ := h.before hp
  constructor
  · rw [PayloadMessage.rawArguments]
    rcases hown with hown | ⟨hown, bytes, decoder, hb, hd, hdec⟩
    · have hkept : m.keepArguments wire = m := by rw [PayloadMessage.keepArguments, ← hown]
      rw [hkept, hown]
    · rw [hown, hb, hd]
      simp only [hdec]
  · rw [PayloadMessage.rawArgumentsKeywords, hk, h.noKeywordsSlice]

/-- With the wire arguments kept, it carries the same. -/
theorem keep (h : Carries payload wire m) (hp : m.pptPayloadDecoded = false) :
    Carries payload wire (m.keepArguments wire) :=
  ⟨h.noKeywordsSlice, h.slice, h.source, fun _ => ⟨(h.before hp).1, .inl rfl⟩,
    fun hd => by rw [show m.pptPayloadDecoded = true from hd] at hp; cases hp⟩

/-- The view of a message that was not unpacked stands for the wire arguments. -/
theorem own (h : Carries payload wire m) (hp : m.pptPayloadDecoded = false) :
    Source payload wire m.ownLazyPayload := by
  obtain ⟨hk, hown⟩ := h.before hp
  rw [PayloadMessage.ownLazyPayload, h.noKeywordsSlice]
  rcases h.slice with hs | ⟨bytes, decoder, hb, hd, hdec⟩
  · have hwire : m.ownArguments = some wire := by
      rcases hown with hown | ⟨-, bytes, _, hb, -⟩
      · exact hown
      · rw [hs] at hb
        cases hb
    simp only [hs, hwire, hk, Option.isSome_none, Bool.false_and, Bool.or_self,
      Bool.false_eq_true, if_false]
    exact .wire rfl rfl rfl (fun _ _ => nofun)
  · simp only [hb, hd, hk, Option.isSome_some, Option.isSome_none, Option.isNone_some,
      Option.isNone_none, Bool.and_self, Bool.false_and, Bool.or_false, if_true,
      Bool.false_eq_true, if_false]
    refine .wire ?_ ?_ rfl (fun _ _ => nofun)
    · simp only [LazyMessagePayload.arguments, hdec]
      rfl
    · cases m.argumentsKeywordsDecoder <;> rfl

/-- **Unpacking.**  The unpacked values replace what the message held; the wire form is retained. -/
theorem unpack {codecs : PPTCodecs} {ppt : PPTOptions} (hpack : PackedBy codecs ppt payload wire)
    (h : Carries payload wire m) :
    ∃ m', m.ensureDecodedPayloadView codecs ppt = (.ok (), m') ∧ Carries payload wire m' ∧
      m'.pptPayloadDecoded = true ∧ m'.encodedArguments = m.encodedArguments ∧
      (m.pptPayloadDecoded = true → m' = m) ∧
      (m.pptPayloadDecoded = false → m'.ownArguments = payload.arguments) := by
  obtain ⟨scheme, hscheme, -⟩ := hpack.scheme
  cases hp : m.pptPayloadDecoded with
  | true =>
      refine ⟨m, ?_, h, hp, rfl, fun _ => rfl, fun hf => (nomatch hf)⟩
      rw [PayloadMessage.ensureDecodedPayloadView, hp, Bool.or_true, if_pos rfl]
  | false =>
      obtain ⟨hdecode, hlooks⟩ := hpack.unpack
      obtain ⟨hraw, hrawKeywords⟩ := h.raw hp
      have hkept := ((h.keep hp).raw hp).2
      -- what stands for the wire arguments before they are replaced
      obtain ⟨view, hview, hsource⟩ : ∃ view, m.toLazyPayload = (.ok view, m) ∧
          Source payload wire view := by
        rw [PayloadMessage.toLazyPayload]
        cases hr : m.retainedLazyPayload with
        | some p => exact ⟨p, rfl, h.source p hr⟩
        | none =>
            rw [hp, if_neg Bool.false_ne_true]
            exact ⟨_, rfl, h.own hp⟩
      refine ⟨((m.keepArguments wire).holdView payload).markUnpacked view, ?_, ?_, rfl, rfl,
        fun hf => (nomatch hf), fun _ => rfl⟩
      · rw [PayloadMessage.ensureDecodedPayloadView, hp, hscheme]
        simp only [Option.isNone_some, Bool.or_self, Bool.false_eq_true, if_false, hview, hraw,
          hkept, hlooks, if_true, hdecode]
      · refine ⟨h.noKeywordsSlice, h.slice, fun p hr => ?_, fun hf => (nomatch hf),
          fun _ => ⟨nofun, rfl, .inl rfl⟩⟩
        obtain rfl := Option.some.inj hr
        exact hsource

/-- What an unpacked message answers: its arguments, unless only the slice is there. -/
theorem rawArguments_after (h : Carries payload wire m) (hp : m.pptPayloadDecoded = true) :
    (m.rawArguments.1 = .ok payload.arguments ↔
      (m.encodedArguments.isSome → m.ownArguments = none → payload.arguments = some wire)) ∧
    (m.rawArguments.1 = .ok payload.arguments → Carries payload wire m.rawArguments.2) := by
  obtain ⟨hr, hk, hown⟩ := h.after hp
  rw [PayloadMessage.rawArguments]
  cases ho : m.ownArguments with
  | some v =>
      have hv : payload.arguments = some v := by
        rcases hown with hown | ⟨hown, -⟩
        · rw [← hown, ho]
        · rw [ho] at hown
          cases hown
      exact ⟨⟨fun _ _ hn => (nomatch hn), fun _ => congrArg Except.ok hv.symm⟩, fun _ => h⟩
  | none =>
      rcases h.slice with hs | ⟨bytes, decoder, hb, hd, hdec⟩
      · have hv : payload.arguments = none := by
          rcases hown with hown | ⟨-, bytes, _, hb, -⟩
          · rw [← hown, ho]
          · rw [hs] at hb
            cases hb
        rw [hs]
        exact ⟨⟨fun _ hn => (nomatch hn), fun _ => congrArg Except.ok hv.symm⟩, fun _ => h⟩
      · rw [hb, hd]
        simp only [hdec, Option.isSome_some, forall_true_left]
        refine ⟨⟨fun he => (Except.ok.inj he).symm, fun he => congrArg Except.ok he.symm⟩,
          fun he => ?_⟩
        -- the slice is what was packed
        exact ⟨h.noKeywordsSlice, h.slice, h.source,
          fun hf => absurd ((show m.pptPayloadDecoded = false from hf).symm.trans hp)
            Bool.false_ne_true, fun _ => ⟨hr, hk, .inl (Except.ok.inj he)⟩⟩

theorem rawArgumentsKeywords_after (h : Carries payload wire m) (hp : m.pptPayloadDecoded = true) :
    m.rawArgumentsKeywords = (.ok payload.argumentsKeywords, m) := by
  obtain ⟨-, hk, -⟩ := h.after hp
  rw [PayloadMessage.rawArgumentsKeywords, hk, h.noKeywordsSlice]
  cases payload.argumentsKeywords <;> rfl

end Carries

/-! ### Readings -/

/-- The view is one of the packed value. -/
def retainsPacked (m : PayloadMessage) : Bool :=
  (m.retainedLazyPayload.bind (·.packedPayloadBytes)).isSome

theorem argumentsValue_inj {a b : Option Arguments} (h : argumentsValue a = argumentsValue b) :
    a = b := by
  cases a <;> cases b <;> simp_all [argumentsValue]

theorem argumentsKeywordsValue_inj {a b : Option ArgumentsKeywords}
    (h : argumentsKeywordsValue a = argumentsKeywordsValue b) : a = b := by
  cases a <;> cases b <;> simp_all [argumentsKeywordsValue]

/-- The getters of a message. -/
inductive PayloadGetter where
  | arguments
  | argumentsKeywords
  | wireArguments
  | wireArgumentsKeywords

namespace PayloadGetter

/-- What the getter gives, as one value, and the message after it. -/
def read (codecs : PPTCodecs) (ppt : PPTOptions) (m : PayloadMessage) :
    PayloadGetter → PayloadMessage.Reading PayloadValue
  | .arguments => (m.decodedArguments codecs ppt).map (·.map argumentsValue) id
  | .argumentsKeywords =>
      (m.decodedArgumentsKeywords codecs ppt).map (·.map argumentsKeywordsValue) id
  | .wireArguments => m.wireArguments.map (·.map argumentsValue) id
  | .wireArgumentsKeywords => m.wireArgumentsKeywords.map (·.map argumentsKeywordsValue) id

/-- What the getter should give. -/
def expected : PayloadGetter → PayloadValue
  | .arguments => argumentsValue payload.arguments
  | .argumentsKeywords => argumentsKeywordsValue payload.argumentsKeywords
  | .wireArguments => argumentsValue (some wire)
  | .wireArgumentsKeywords => argumentsKeywordsValue none

/-- The reading is safe.  Where the message holds an encoded slice, positional arguments are there
once it is unpacked; and the wire form is not asked of an unpacked message that was restored from
the packed value.  (Where the payload and its wire form are the same, it makes no difference.) -/
def Safe (m : PayloadMessage) : PayloadGetter → Prop
  | .arguments => m.encodedArguments.isSome →
      (if m.pptPayloadDecoded then m.ownArguments else payload.arguments) = none →
      payload.arguments = some wire
  | .argumentsKeywords => True
  | .wireArguments => m.pptPayloadDecoded → retainsPacked m → payload.arguments = some wire
  | .wireArgumentsKeywords => m.pptPayloadDecoded → retainsPacked m →
      payload.argumentsKeywords = none

variable {payload wire} {codecs : PPTCodecs} {ppt : PPTOptions} {m : PayloadMessage}

theorem map_eq_ok {α β : Type} {f : α → β} (hf : ∀ {a b}, f a = f b → a = b)
    {r : Except PayloadError α} {a : α} : r.map f = .ok (f a) ↔ r = .ok a := by
  cases r with
  | error e => exact ⟨fun h => (nomatch h), fun h => (nomatch h)⟩
  | ok b => exact ⟨fun h => congrArg Except.ok (hf (Except.ok.inj h)), fun h => by rw [h]; rfl⟩

/-- **A reading is right if and only if it is safe**, and a right one leaves a message that carries
the payload. -/
theorem read_iff (hpack : PackedBy codecs ppt payload wire) (h : Carries payload wire m)
    (g : PayloadGetter) :
    ((g.read codecs ppt m).1 = .ok (g.expected payload wire) ↔ g.Safe payload wire m) ∧
      ((g.read codecs ppt m).1 = .ok (g.expected payload wire) →
        Carries payload wire (g.read codecs ppt m).2) := by
  obtain ⟨m', hunpack, h', hp', henc, hsame, hown⟩ := h.unpack hpack
  cases g with
  | arguments =>
      obtain ⟨hiff, hkeep⟩ := h'.rawArguments_after hp'
      have hread : m.decodedArguments codecs ppt = m'.rawArguments := by
        rw [PayloadMessage.decodedArguments, hunpack]
        dsimp only
        rw [PayloadMessage.arguments, h'.materialize]
      have hheld : m'.ownArguments =
          if m.pptPayloadDecoded then m.ownArguments else payload.arguments := by
        cases hp : m.pptPayloadDecoded with
        | true => rw [hsame hp, if_pos rfl]
        | false => rw [hown hp, if_neg Bool.false_ne_true]
      rw [henc, hheld] at hiff
      simp only [read, expected, Safe, Prod.map, hread, id]
      rw [map_eq_ok argumentsValue_inj]
      exact ⟨hiff, hkeep⟩
  | argumentsKeywords =>
      have hread : m.decodedArgumentsKeywords codecs ppt = (.ok payload.argumentsKeywords, m') := by
        rw [PayloadMessage.decodedArgumentsKeywords, hunpack]
        dsimp only
        rw [PayloadMessage.argumentsKeywords, h'.materialize]
        exact h'.rawArgumentsKeywords_after hp'
      simp only [read, expected, Safe, Prod.map, hread, id]
      exact ⟨⟨fun _ => trivial, fun _ => rfl⟩, fun _ => h'⟩
  | wireArguments =>
      simp only [read, expected, Safe, Prod.map, id]
      rw [map_eq_ok argumentsValue_inj, PayloadMessage.wireArguments]
      cases hp : m.pptPayloadDecoded with
      | false =>
          dsimp only
          rw [(h.raw hp).1]
          exact ⟨⟨fun _ hf => (nomatch hf), fun _ => rfl⟩, fun _ => h.keep hp⟩
      | true =>
          obtain ⟨p, hr⟩ := Option.ne_none_iff_exists'.mp (h.after hp).1
          simp only [hr, forall_true_left]
          cases h.source p hr with
          | wire arguments keywords plain _ =>
              rw [arguments, retainsPacked, hr, Option.bind_some, plain]
              exact ⟨⟨fun _ hf => (nomatch hf), fun _ => rfl⟩, fun _ => h⟩
          | packed hdec =>
              rw [LazyMessagePayload.arguments, hdec, retainsPacked, hr]
              exact ⟨⟨fun he _ => Except.ok.inj he, fun he => congrArg Except.ok (he rfl)⟩,
                fun _ => h⟩
  | wireArgumentsKeywords =>
      simp only [read, expected, Safe, Prod.map, id]
      rw [map_eq_ok argumentsKeywordsValue_inj, PayloadMessage.wireArgumentsKeywords]
      cases hp : m.pptPayloadDecoded with
      | false =>
          dsimp only
          rw [(h.raw hp).2]
          exact ⟨⟨fun _ hf => (nomatch hf), fun _ => rfl⟩, fun _ => h⟩
      | true =>
          obtain ⟨p, hr⟩ := Option.ne_none_iff_exists'.mp (h.after hp).1
          simp only [hr, forall_true_left]
          cases h.source p hr with
          | wire arguments keywords plain _ =>
              rw [keywords, retainsPacked, hr, Option.bind_some, plain]
              exact ⟨⟨fun _ hf => (nomatch hf), fun _ => rfl⟩, fun _ => h⟩
          | packed hdec =>
              rw [LazyMessagePayload.argumentsKeywords, hdec, retainsPacked, hr]
              exact ⟨⟨fun he _ => Except.ok.inj he, fun he => congrArg Except.ok (he rfl)⟩,
                fun _ => h⟩

end PayloadGetter

/-! ### Copies -/

variable {payload wire}

theorem setArguments_cases (target : PayloadMessage) (value : Option Arguments) :
    (∃ e, target.setArguments value = (.error e, target)) ∨
      ∃ m', target.setArguments value = (.ok (), m') ∧ m'.ownArguments = value ∧
        m'.encodedArguments = none ∧ m'.argumentsDecoder = none ∧
        m'.pptPayloadDecoded = false ∧ m'.retainedLazyPayload = none ∧
        m'.encodedArgumentsKeywords = target.encodedArgumentsKeywords := by
  rw [PayloadMessage.setArguments, PayloadMessage.materializeDeferredPayloadIfNeeded]
  split
  · next e he => exact .inl ⟨e, rfl⟩
  · next m hm =>
    refine .inr ⟨_, rfl, rfl, rfl, rfl, rfl, rfl, ?_⟩
    split at hm
    · next v _ =>
      cases v with
      | error e => cases hm
      | ok values =>
          obtain rfl := Except.ok.inj hm
          rfl
    · obtain rfl := Except.ok.inj hm
      rfl

theorem Source.owned {p : LazyMessagePayload} (h : Source payload wire p) :
    p.toOwned = .ok p := by
  cases h with
  | packed => rfl
  | wire _ _ _ now =>
      cases p with
      | deferred e v => exact absurd rfl (now e v)
      | encoded | packed | materialized => rfl

/-- The last statement of a copy: the target is set up, and gets the view that the source
retains. -/
theorem Carries.copyRetained {m t m' : PayloadMessage} (h : Carries payload wire m)
    (hc : m.copyRetainedTo t = (.ok (), m')) (hr : t.retainedLazyPayload = none)
    (hs : t.encodedArgumentsKeywords = none) (hp : t.pptPayloadDecoded = m.pptPayloadDecoded)
    (hk : t.ownArgumentsKeywords = m.ownArgumentsKeywords)
    (hown : t.encodedArguments = none ∧ m.encodedArguments = none ∧
        t.ownArguments = m.ownArguments ∨ t.ownArguments = none ∧ HoldsSlice wire t) :
    Carries payload wire m' := by
  have hretained : m' = { m' with retainedLazyPayload := m.retainedLazyPayload } ∧
      m'.encodedArgumentsKeywords = t.encodedArgumentsKeywords ∧
      m'.pptPayloadDecoded = t.pptPayloadDecoded ∧
      m'.ownArgumentsKeywords = t.ownArgumentsKeywords ∧ m'.ownArguments = t.ownArguments ∧
      m'.encodedArguments = t.encodedArguments ∧ m'.argumentsDecoder = t.argumentsDecoder := by
    rw [PayloadMessage.copyRetainedTo] at hc
    cases hm : m.retainedLazyPayload with
    | none =>
        rw [hm] at hc
        obtain rfl := (Prod.mk.inj hc).2
        exact ⟨by rw [← hr], rfl, rfl, rfl, rfl, rfl, rfl⟩
    | some p =>
        rw [hm] at hc
        dsimp only at hc
        rw [(h.source p hm).owned] at hc
        obtain rfl := (Prod.mk.inj hc).2
        exact ⟨rfl, rfl, rfl, rfl, rfl, rfl, rfl⟩
  obtain ⟨hm', hs', hp', hk', ho', he', hd'⟩ := hretained
  have hr' : m'.retainedLazyPayload = m.retainedLazyPayload := by rw [hm']
  -- a slice of the target is a slice of the copy
  have hslice : HoldsSlice wire t → HoldsSlice wire m' := by
    rintro ⟨bytes, decoder, hb, hd, hdec⟩
    exact ⟨bytes, decoder, he'.trans hb, hd'.trans hd, hdec⟩
  have hnone : m.encodedArguments = none → ¬ HoldsSlice wire m := by
    rintro hn ⟨bytes, _, hb, -⟩
    rw [hn] at hb
    cases hb
  refine ⟨hs'.trans hs, ?_, fun p hr₁ => h.source p (hr' ▸ hr₁), fun hf => ?_, fun hf => ?_⟩
  · rcases hown with ⟨hn, -, -⟩ | ⟨-, hsl⟩
    · exact .inl (he'.trans hn)
    · exact .inr (hslice hsl)
  · obtain ⟨hkw, ho⟩ := h.before (by rw [← hp, ← hp']; exact hf)
    refine ⟨by rw [hk', hk, hkw], ?_⟩
    rcases hown with ⟨-, hn, hsame⟩ | ⟨hn, hsl⟩
    · rcases ho with ho | ⟨-, hsl⟩
      · exact .inl (by rw [ho', hsame, ho])
      · exact absurd hsl (hnone hn)
    · exact .inr ⟨ho'.trans hn, hslice hsl⟩
  · obtain ⟨hret, hkw, ho⟩ := h.after (by rw [← hp, ← hp']; exact hf)
    refine ⟨by rw [hr']; exact hret, by rw [hk', hk, hkw], ?_⟩
    rcases hown with ⟨-, hn, hsame⟩ | ⟨hn, hsl⟩
    · rcases ho with ho | ⟨-, hsl⟩
      · exact .inl (by rw [ho', hsame, ho])
      · exact absurd hsl (hnone hn)
    · exact .inr ⟨ho'.trans hn, hslice hsl⟩

/-- **A copy carries the payload too**, whatever the target held. -/
theorem Carries.copy {m target m' : PayloadMessage} (h : Carries payload wire m)
    (hc : m.copyPayloadTo target = (.ok (), m')) : Carries payload wire m' := by
  rw [PayloadMessage.copyPayloadTo, h.noKeywordsSlice] at hc
  rcases h.slice with hs | ⟨bytes, decoder, hb, hd, hdec⟩
  · -- the values are copied
    simp only [hs, Option.isSome_none, Bool.false_and, Bool.or_self, Bool.false_eq_true,
      if_false] at hc
    rcases setArguments_cases { target with
        transparentBinaryPayload := m.transparentBinaryPayload
        lazyPayloadEncoding := m.lazyPayloadEncoding } m.ownArguments with
      ⟨e, he⟩ | ⟨t, he, ho, hn, -, -, hr, -⟩
    · simp only [he, PayloadMessage.Reading.andThen] at hc
      cases (Prod.mk.inj hc).1
    · simp only [he, PayloadMessage.Reading.andThen, PayloadMessage.setArgumentsKeywords,
        PayloadMessage.materializeDeferredPayloadIfNeeded, hr] at hc
      exact h.copyRetained hc rfl rfl rfl rfl (.inl ⟨hn, hs, ho⟩)
  · -- the slice is copied, and the values of the target are dropped
    simp only [hb, hd, Option.isSome_some, Option.isSome_none, Option.isNone_some,
      Option.isNone_none, Bool.and_self, Bool.true_or, Bool.false_and, Bool.false_eq_true, if_true,
      if_false, PayloadMessage.setLazyPayload, PayloadMessage.Reading.andThen,
      PayloadMessage.setArgumentsKeywords,
      PayloadMessage.materializeDeferredPayloadIfNeeded] at hc
    exact h.copyRetained hc rfl rfl rfl rfl (.inr ⟨rfl, bytes, decoder, rfl, rfl, hdec⟩)

end

/-! ### Runs -/

/-- What is done with the messages that carry the payload: one of their getters is read, or the
payload is copied to another message, which then is the last one. -/
inductive PayloadOp where
  | read (i : Nat) (g : PayloadGetter)
  | copyPayloadTo (i : Nat) (target : PayloadMessage)

namespace PayloadOp

section
variable (codecs : PPTCodecs) (ppt : PPTOptions) (payload : MaterializedPayloadView)
  (wire : Arguments)

def step (ms : List PayloadMessage) : PayloadOp → List PayloadMessage
  | .read i g =>
      match ms[i]? with
      | none => ms
      | some m => ms.set i (g.read codecs ppt m).2
  | .copyPayloadTo i target =>
      match ms[i]? with
      | none => ms
      | some m =>
          match m.copyPayloadTo target with
          | (.ok (), copy) => ms ++ [copy]
          | (.error _, _) => ms

/-- What is read is what was packed, or its wire form. -/
def Right (ms : List PayloadMessage) : PayloadOp → Prop
  | .read i g => ∀ m, ms[i]? = some m → (g.read codecs ppt m).1 = .ok (g.expected payload wire)
  | .copyPayloadTo _ _ => True

/-- What is read is read safely. -/
def Safe (ms : List PayloadMessage) : PayloadOp → Prop
  | .read i g => ∀ m, ms[i]? = some m → g.Safe payload wire m
  | .copyPayloadTo _ _ => True

end

variable {codecs : PPTCodecs} {ppt : PPTOptions} {payload : MaterializedPayloadView}
  {wire : Arguments}

theorem step_carries (hpack : PackedBy codecs ppt payload wire) {ms : List PayloadMessage}
    (h : ∀ m ∈ ms, Carries payload wire m) {op : PayloadOp}
    (hop : op.Right codecs ppt payload wire ms) :
    ∀ m ∈ op.step codecs ppt ms, Carries payload wire m := by
  intro m' hm'
  cases op with
  | read i g =>
      rw [step] at hm'
      cases hi : ms[i]? with
      | none =>
          rw [hi] at hm'
          exact h m' hm'
      | some m =>
          rw [hi] at hm'
          rcases List.mem_or_eq_of_mem_set hm' with hm' | rfl
          · exact h m' hm'
          · exact (PayloadGetter.read_iff hpack (h m (List.mem_of_getElem? hi)) g).2 (hop m hi)
  | copyPayloadTo i target =>
      rw [step] at hm'
      split at hm'
      · exact h m' hm'
      · next m hi =>
        split at hm'
        · next copy hc =>
          rcases List.mem_append.mp hm' with hm' | hm'
          · exact h m' hm'
          · obtain rfl := List.mem_singleton.mp hm'
            exact (h m (List.mem_of_getElem? hi)).copy hc
        · exact h m' hm'

end PayloadOp

/-- **The decoded view of a packed payload.**  In whatever form it arrived, and whichever getters
are read and copies taken in whichever order: every reading gives the packed payload, or its wire
form, if and only if every reading is safe. -/
theorem packed_view_run (codecs : PPTCodecs) (ppt : PPTOptions) (payload : MaterializedPayloadView)
    (wire : Arguments) (hpack : PackedBy codecs ppt payload wire) (m : PayloadMessage)
    (harrived : Arrived payload wire m) (ops : List PayloadOp) (ms : List PayloadMessage) :
    Run (PayloadOp.step codecs ppt) (PayloadOp.Right codecs ppt payload wire) [m] ops ms ↔
      Run (PayloadOp.step codecs ppt) (PayloadOp.Safe payload wire) [m] ops ms := by
  refine Run.congr_of_invariant (P := fun ms => ∀ m ∈ ms, Carries payload wire m)
    (fun ms op h => ?_) (fun ms op h hop => PayloadOp.step_carries hpack h hop) ?_
  · cases op with
    | read i g =>
        constructor
        · intro hop m hi
          exact (PayloadGetter.read_iff hpack (h m (List.mem_of_getElem? hi)) g).1.mp (hop m hi)
        · intro hop m hi
          exact (PayloadGetter.read_iff hpack (h m (List.mem_of_getElem? hi)) g).1.mpr (hop m hi)
    | copyPayloadTo i target => exact Iff.rfl
  · intro m' hm'
    obtain rfl := List.mem_singleton.mp hm'
    exact .of_arrived harrived

/-! ### A copy of an unpacked message -/

/-- Codecs that are not asked. -/
def unusedCodecs : PPTCodecs where
  json := flatbuffersSerializer
  cbor := flatbuffersSerializer
  msgpack := flatbuffersSerializer
  unpackE2EEPayload := fun _ _ => .error (.unsupported "No provider")

/-- An application scheme without a payload serializer. -/
def customScheme : PPTOptions where
  pptScheme := some "x_custom"

/-- One positional argument, and its wire form. -/
def samplePayload : MaterializedPayloadView := ⟨some [.int 1], none⟩

def sampleWire : Arguments := [.map [("args", .list [.int 1]), ("kwargs", .null)]]

theorem samplePacked : PackedBy unusedCodecs customScheme samplePayload sampleWire :=
  ⟨⟨"x_custom", rfl, by decide⟩, rfl, nofun, nofun, nofun⟩

/-- The wire arguments as they were retained. -/
def sampleRetained : PayloadMessage :=
  PayloadMessage.setLazyPayload {} (some []) (some fun _ => .ok sampleWire) none none (some .json)

/-- The payload is copied before it is unpacked; the copy answers with it. -/
def sampleOps : List PayloadOp :=
  [.read 0 .wireArguments, .copyPayloadTo 0 {}, .read 1 .arguments, .read 1 .wireArguments]

theorem packed_view_run_sample :
    ∃ ms, Run (PayloadOp.step unusedCodecs customScheme)
      (PayloadOp.Right unusedCodecs customScheme samplePayload sampleWire) [sampleRetained]
      sampleOps ms := by
  obtain ⟨ms, hsafe⟩ : ∃ ms, Run (PayloadOp.step unusedCodecs customScheme)
      (PayloadOp.Safe samplePayload sampleWire) [sampleRetained] sampleOps ms := by
    refine ⟨_, .cons ?_ (.cons trivial (.cons ?_ (.cons ?_ (.nil _))))⟩
    · intro m hm
      obtain rfl := Option.some.inj hm
      exact fun hf => (nomatch hf)
    · intro m hm
      obtain rfl := Option.some.inj hm
      exact fun _ hf => (nomatch hf)
    · intro m hm
      obtain rfl := Option.some.inj hm
      exact fun _ hf => (nomatch hf)
  exact ⟨ms, (packed_view_run unusedCodecs customScheme samplePayload sampleWire samplePacked
    sampleRetained (.retained [] _ _ rfl) sampleOps ms).mpr hsafe⟩

/-- **A copy that is taken after a reading** answers with the wire arguments. -/
theorem packed_view_mixed :
    ¬ ∀ (codecs : PPTCodecs) (ppt : PPTOptions) (payload : MaterializedPayloadView)
      (wire : Arguments) (m : PayloadMessage) (ops : List PayloadOp) (ms : List PayloadMessage),
      PackedBy codecs ppt payload wire → Arrived payload wire m →
      Run (PayloadOp.step codecs ppt) (fun _ _ => True) [m] ops ms →
      Run (PayloadOp.step codecs ppt) (PayloadOp.Right codecs ppt payload wire) [m] ops ms := by
  intro h
  have hrun := h unusedCodecs customScheme samplePayload sampleWire sampleRetained
    [.read 0 .arguments, .copyPayloadTo 0 {}, .read 1 .arguments] _ samplePacked
    (.retained [] _ _ rfl) (.cons trivial (.cons trivial (.cons trivial (.nil _))))
  obtain _ | ⟨-, _ | ⟨-, _ | ⟨hlast, -⟩⟩⟩ := hrun
  have hread := hlast _ rfl
  have hvalue : argumentsValue (some sampleWire) = argumentsValue samplePayload.arguments :=
    Except.ok.inj hread
  cases hvalue

end Connectanum
