import Mathlib.Logic.Function.Basic
import Connectanum.Lib.Runs
import Connectanum.Message.Coherence

/-!
# Message — Runs over lazy payloads

Messages whose payloads are set, restored, overwritten, read and copied, in any order.

* `LazyOp`: the steps, and which of them are `Legal`: a slice decodes, and in the encoding that it
  is given with;
* `LazyOp.Careful`: the steps after which the message still fits together;
* `LazyOp.step_coherent`: each of them keeps all messages coherent;
* `lazy_payloads_coherent`: in a run of them the slices are in the encoding of the label, and what a
  serializer emits decodes to the arguments;
* `mixed_label`: a slice that is left over under another label.
-/

namespace Connectanum

open Machine

namespace PayloadMessage

variable {codecs : LazyPayloadEncoding → PayloadCodec} {m target : PayloadMessage}

section
variable {α : Type} {decode : LazyPayloadEncoding → List UInt8 → Except PayloadError α}
  {label : Option LazyPayloadEncoding} {slice : Option (List UInt8)}
  {decoder : Option (List UInt8 → Except PayloadError α)} {own own' : Option α}

/-- A kept value may be dropped. -/
theorem Slice.forget (h : Slice decode label slice decoder own)
    (ho : slice = none ∨ own' = none ∨ own' = own) : Slice decode label slice decoder own' := by
  rcases h with hn | ⟨bytes, d, v, hb, hd, hv, hlabel, hown⟩
  · exact .inl hn
  · rcases ho with hn | rfl | rfl
    · exact .inl hn
    · exact .inr ⟨bytes, d, v, hb, hd, hv, hlabel, .inl rfl⟩
    · exact .inr ⟨bytes, d, v, hb, hd, hv, hlabel, hown⟩

end

/-- No view is retained. -/
theorem Retained.of_none (hr : m.retainedLazyPayload = none) :
    ∀ p, m.retainedLazyPayload = some p → Retained m p := by
  intro p hp
  rw [hr] at hp
  cases hp

namespace Coherent

/-! ### Evaluation and reading -/

/-- A deferred payload that is evaluated. -/
theorem held (h : Coherent codecs m) {e : Option LazyPayloadEncoding} {v : MaterializedPayloadView}
    (hr : m.retainedLazyPayload = some (.deferred e (.ok v))) : Coherent codecs (m.holdView v) := by
  cases h.retained _ hr with
  | view now => exact absurd rfl (now _ _)
  | deferred flag encoding transparent slices own =>
      refine ⟨.inl slices.1, .inl slices.2, fun ht => absurd transparent ht, fun p hp => ?_⟩
      obtain rfl := Option.some.inj (hr.symm.trans hp)
      exact .deferred flag encoding transparent slices (.inr ⟨rfl, rfl⟩)

theorem materialized (h : Coherent codecs m) {m₁ : PayloadMessage}
    (hm : m.materializeDeferredPayloadIfNeeded = .ok m₁) :
    Coherent codecs m₁ ∧ m₁.transparentBinaryPayload = m.transparentBinaryPayload := by
  rcases h.materialize with ⟨hm', -⟩ | ⟨e, v, hr, hm'⟩ | ⟨e, v, -, hm'⟩
  · obtain rfl := Except.ok.inj (hm'.symm.trans hm)
    exact ⟨h, rfl⟩
  · obtain rfl := Except.ok.inj (hm'.symm.trans hm)
    exact ⟨h.held hr, rfl⟩
  · rw [hm'] at hm
    cases hm

theorem rawArguments (h : Coherent codecs m) : Coherent codecs m.rawArguments.2 := by
  rcases h.arguments with hn | ⟨bytes, d, v, hb, hd, hv, hlabel, hown⟩
  · rw [rawArguments_of_none hn]
    exact h
  · rw [rawArguments_of_slice hb hd hv hown]
    refine ⟨.inr ⟨bytes, d, v, hb, hd, hv, hlabel, .inr rfl⟩, h.argumentsKeywords, fun ht => ?_,
      fun p hp => ?_⟩
    · rw [(h.transparent ht).1] at hb
      cases hb
    · cases h.retained p hp with
      | view now unpacked transparent encoding slices arguments argumentsKeywords =>
          refine .view now unpacked transparent encoding slices (arguments.trans ?_)
            (argumentsKeywords.trans
              (rawArgumentsKeywords_congr (m.keepArguments v) m rfl rfl rfl).symm)
          rw [rawArguments_of_slice hb hd hv hown,
            rawArguments_of_slice (m := m.keepArguments v) hb hd hv (.inr rfl)]
      | deferred _ _ _ slices =>
          rw [slices.1] at hb
          cases hb
      | failed slices =>
          rw [slices.1] at hb
          cases hb

theorem rawArgumentsKeywords (h : Coherent codecs m) :
    Coherent codecs m.rawArgumentsKeywords.2 := by
  rcases h.argumentsKeywords with hn | ⟨bytes, d, v, hb, hd, hv, hlabel, hown⟩
  · rw [rawArgumentsKeywords_of_none hn]
    exact h
  · rw [rawArgumentsKeywords_of_slice hb hd hv hown]
    refine ⟨h.arguments, .inr ⟨bytes, d, v, hb, hd, hv, hlabel, .inr rfl⟩, fun ht => ?_,
      fun p hp => ?_⟩
    · rw [(h.transparent ht).2.1] at hb
      cases hb
    · cases h.retained p hp with
      | view now unpacked transparent encoding slices arguments argumentsKeywords =>
          refine .view now unpacked transparent encoding slices
            (arguments.trans (rawArguments_congr (m.keepArgumentsKeywords v) m rfl rfl rfl).symm)
            (argumentsKeywords.trans ?_)
          rw [rawArgumentsKeywords_of_slice hb hd hv hown,
            rawArgumentsKeywords_of_slice (m := m.keepArgumentsKeywords v) hb hd hv (.inr rfl)]
      | deferred _ _ _ slices =>
          rw [slices.2] at hb
          cases hb
      | failed slices =>
          rw [slices.2] at hb
          cases hb

/-- Reading keeps a message coherent. -/
theorem readArguments (h : Coherent codecs m) : Coherent codecs m.arguments.2 := by
  rw [PayloadMessage.arguments]
  split
  · next hm => exact (h.materialized hm).1.rawArguments
  · exact h

theorem readArgumentsKeywords (h : Coherent codecs m) : Coherent codecs m.argumentsKeywords.2 := by
  rw [PayloadMessage.argumentsKeywords]
  split
  · next hm => exact (h.materialized hm).1.rawArgumentsKeywords
  · exact h

/-! ### Overwriting -/

/-- A value takes the place of a slice, unless a transparent payload is held. -/
theorem setArguments (h : Coherent codecs m) {value : Option Arguments}
    (ht : value = none ∨ m.transparentBinaryPayload = none) :
    Coherent codecs (m.setArguments value).2 := by
  rw [PayloadMessage.setArguments]
  split
  · exact h
  · next m₁ hm =>
    obtain ⟨h₁, ht₁⟩ := h.materialized hm
    refine ⟨.inl rfl, h₁.argumentsKeywords, fun htn => ?_, Retained.of_none rfl⟩
    obtain ⟨-, hsk, -, hownk⟩ := h₁.transparent htn
    refine ⟨rfl, hsk, ?_, hownk⟩
    rcases ht with hv | ht
    · exact hv
    · exact absurd (ht₁.trans ht) htn

theorem setArgumentsKeywords (h : Coherent codecs m) {value : Option ArgumentsKeywords}
    (ht : value = none ∨ m.transparentBinaryPayload = none) :
    Coherent codecs (m.setArgumentsKeywords value).2 := by
  rw [PayloadMessage.setArgumentsKeywords]
  split
  · exact h
  · next m₁ hm =>
    obtain ⟨h₁, ht₁⟩ := h.materialized hm
    refine ⟨h₁.arguments, .inl rfl, fun htn => ?_, Retained.of_none rfl⟩
    obtain ⟨hs, -, hown, -⟩ := h₁.transparent htn
    refine ⟨hs, rfl, hown, ?_⟩
    rcases ht with hv | ht
    · exact hv
    · exact absurd (ht₁.trans ht) htn

/-! ### Retaining -/

/-- A view that stands for the message is retained. -/
theorem retain (h : Coherent codecs m) {p : LazyMessagePayload}
    (he : m.lazyPayloadEncoding = p.encoding) (hp : Retained m p) :
    Coherent codecs (m.retainLazyPayload p) := by
  have hl : (m.retainLazyPayload p).lazyPayloadEncoding = m.lazyPayloadEncoding := by
    change m.lazyPayloadEncoding.or p.encoding = m.lazyPayloadEncoding
    rw [he, Option.or_self]
  refine ⟨h.arguments.relabel (.inr (.inr hl)), h.argumentsKeywords.relabel (.inr (.inr hl)),
    h.transparent, fun q hq => ?_⟩
  obtain rfl := Option.some.inj hq
  cases hp with
  | view now unpacked transparent encoding slices arguments argumentsKeywords =>
      exact .view now unpacked transparent (encoding.trans hl.symm) slices
        (arguments.trans (rawArguments_congr (m.retainLazyPayload p) m rfl rfl rfl).symm)
        (argumentsKeywords.trans
          (rawArgumentsKeywords_congr (m.retainLazyPayload p) m rfl rfl rfl).symm)
  | deferred flag encoding transparent slices own =>
      exact .deferred flag (encoding.trans hl.symm) transparent slices own
  | failed slices own => exact .failed slices own

end Coherent

/-! ### Setting slices -/

section
variable {α : Type}

/-- A slice that is given decodes, and in the encoding that it is given with. -/
def Given (decode : LazyPayloadEncoding → List UInt8 → Except PayloadError α)
    (label : Option LazyPayloadEncoding) (slice : Option (List UInt8))
    (decoder : Option (List UInt8 → Except PayloadError α)) : Prop :=
  ∀ bytes d, slice = some bytes → decoder = some d →
    ∃ v, d bytes = .ok v ∧ ∀ e, label = some e → decode e bytes = .ok v

end

section
variable {α : Type} {decode : LazyPayloadEncoding → List UInt8 → Except PayloadError α}
  {label : Option LazyPayloadEncoding} {slice : Option (List UInt8)}
  {decoder : Option (List UInt8 → Except PayloadError α)}

theorem Given.toSlice (h : Given decode label slice decoder)
    (hs : (slice.isSome && decoder.isSome) = true) : Slice decode label slice decoder none := by
  obtain ⟨hb, hd⟩ := Bool.and_eq_true_iff.mp hs
  obtain ⟨bytes, rfl⟩ := Option.isSome_iff_exists.mp hb
  obtain ⟨d, rfl⟩ := Option.isSome_iff_exists.mp hd
  obtain ⟨v, hv, hlabel⟩ := h bytes d rfl rfl
  exact .inr ⟨bytes, d, v, rfl, rfl, hv, hlabel, .inl rfl⟩

end

/-- A slice that is not given afresh: there is none, or its label stays or goes away. -/
def KeepsLabel (m : PayloadMessage) (encoding : Option LazyPayloadEncoding)
    (slice : Option (List UInt8)) : Prop :=
  slice = none ∨ encoding = none ∨ encoding = m.lazyPayloadEncoding

/-- Slices are set: those that are not given afresh keep their label, and no transparent payload is
held next to those that are. -/
theorem Coherent.setLazyPayload (h : Coherent codecs m) {argumentsBytes : Option (List UInt8)}
    {argumentsDecoder : Option PayloadListDecoder} {argumentsKeywordsBytes : Option (List UInt8)}
    {argumentsKeywordsDecoder : Option PayloadMapDecoder} {encoding : Option LazyPayloadEncoding}
    (hgiven : Given (fun e => (codecs e).decodeArguments) encoding argumentsBytes argumentsDecoder)
    (hgivenk : Given (fun e => (codecs e).decodeArgumentsKeywords) encoding argumentsKeywordsBytes
      argumentsKeywordsDecoder)
    (hkeep : (argumentsBytes.isSome && argumentsDecoder.isSome) = false →
      m.KeepsLabel encoding m.encodedArguments)
    (hkeepk : (argumentsKeywordsBytes.isSome && argumentsKeywordsDecoder.isSome) = false →
      m.KeepsLabel encoding m.encodedArgumentsKeywords)
    (ht : (argumentsBytes.isSome && argumentsDecoder.isSome) = true ∨
      (argumentsKeywordsBytes.isSome && argumentsKeywordsDecoder.isSome) = true →
        m.transparentBinaryPayload = none) :
    Coherent codecs (m.setLazyPayload argumentsBytes argumentsDecoder argumentsKeywordsBytes
      argumentsKeywordsDecoder encoding) := by
  rw [PayloadMessage.setLazyPayload]
  cases ha : argumentsBytes.isSome && argumentsDecoder.isSome with
  | true =>
      cases hk : argumentsKeywordsBytes.isSome && argumentsKeywordsDecoder.isSome with
      | true =>
          exact ⟨hgiven.toSlice ha, hgivenk.toSlice hk, fun htn => absurd (ht (.inl ha)) htn,
            Retained.of_none rfl⟩
      | false =>
          exact ⟨hgiven.toSlice ha, h.argumentsKeywords.relabel (hkeepk hk),
            fun htn => absurd (ht (.inl ha)) htn, Retained.of_none rfl⟩
  | false =>
      cases hk : argumentsKeywordsBytes.isSome && argumentsKeywordsDecoder.isSome with
      | true =>
          exact ⟨h.arguments.relabel (hkeep ha), hgivenk.toSlice hk,
            fun htn => absurd (ht (.inr hk)) htn, Retained.of_none rfl⟩
      | false =>
          exact ⟨h.arguments.relabel (hkeep ha), h.argumentsKeywords.relabel (hkeepk hk),
            h.transparent, Retained.of_none rfl⟩

/-! ### Restoring -/

/-- A view whose slices decode in its encoding to what it shows. -/
def SlicesShow (codecs : LazyPayloadEncoding → PayloadCodec) (p : LazyMessagePayload) : Prop :=
  (∀ bytes, p.argumentsBytes = some bytes → ∃ v, p.arguments = .ok (some v) ∧
    ∀ e, p.encoding = some e → (codecs e).decodeArguments bytes = .ok v) ∧
  ∀ bytes, p.argumentsKeywordsBytes = some bytes → ∃ v, p.argumentsKeywords = .ok (some v) ∧
    ∀ e, p.encoding = some e → (codecs e).decodeArgumentsKeywords bytes = .ok v

/-- A view that is not packed, and whose transparent payload stands alone. -/
def Plain (p : LazyMessagePayload) : Prop :=
  p.packedPayloadBytes = none ∧ (p.transparentBinaryPayload ≠ none →
    p.argumentsBytes = none ∧ p.argumentsKeywordsBytes = none ∧ p.arguments = .ok none ∧
      p.argumentsKeywords = .ok none)

/-- What a message is after a view of slices or values was restored, but for the view itself. -/
structure RestoredFrom (p : LazyMessagePayload) (m : PayloadMessage) : Prop where
  transparent : m.transparentBinaryPayload = p.transparentBinaryPayload
  encoding : m.lazyPayloadEncoding = p.encoding
  retained : m.retainedLazyPayload = none
  slices : m.encodedArguments = p.argumentsBytes ∧
    m.encodedArgumentsKeywords = p.argumentsKeywordsBytes
  arguments : (p.argumentsBytes = none ∧ p.arguments = .ok m.ownArguments) ∨
    p.argumentsBytes.isSome = true ∧ m.argumentsDecoder = some (viewArgumentsDecoder p) ∧
      m.ownArguments = none
  argumentsKeywords : (p.argumentsKeywordsBytes = none ∧
      p.argumentsKeywords = .ok m.ownArgumentsKeywords) ∨
    p.argumentsKeywordsBytes.isSome = true ∧
      m.argumentsKeywordsDecoder = some (viewArgumentsKeywordsDecoder p) ∧
      m.ownArgumentsKeywords = none

theorem restoreLazyPayload_cases (m : PayloadMessage) (p : LazyMessagePayload)
    (hp : p.packedPayloadBytes = none) (hnow : ∀ e v, p ≠ .deferred e v) :
    ∃ m', m.restoreLazyPayload p = (.ok (), m'.retainLazyPayload p) ∧ RestoredFrom p m' := by
  cases p with
  | deferred e v => exact absurd rfl (hnow e v)
  | packed => cases hp
  | materialized t e a k d =>
      simp only [restoreLazyPayload, PayloadMessage.setLazyPayload, PayloadMessage.setArguments,
        PayloadMessage.setArgumentsKeywords, materializeDeferredPayloadIfNeeded, Reading.andThen,
        Option.isSome_none, Bool.and_self, Bool.false_eq_true, if_false]
      exact ⟨_, rfl, rfl, rfl, rfl, ⟨rfl, rfl⟩, .inl ⟨rfl, rfl⟩, .inl ⟨rfl, rfl⟩⟩
  | encoded t e a k da dk va vk =>
      rcases a with _ | a <;> rcases k with _ | k <;>
        simp only [restoreLazyPayload, PayloadMessage.setLazyPayload, PayloadMessage.setArguments,
          PayloadMessage.setArgumentsKeywords, materializeDeferredPayloadIfNeeded, Reading.andThen,
          Option.map_none, Option.map_some, Option.isSome_none, Option.isSome_some, Bool.and_self,
          Bool.false_eq_true, if_false, if_true]
      · exact ⟨_, rfl, rfl, rfl, rfl, ⟨rfl, rfl⟩, .inl ⟨rfl, rfl⟩, .inl ⟨rfl, rfl⟩⟩
      · exact ⟨_, rfl, rfl, rfl, rfl, ⟨rfl, rfl⟩, .inl ⟨rfl, rfl⟩, .inr ⟨rfl, rfl, rfl⟩⟩
      · exact ⟨_, rfl, rfl, rfl, rfl, ⟨rfl, rfl⟩, .inr ⟨rfl, rfl, rfl⟩, .inl ⟨rfl, rfl⟩⟩
      · exact ⟨_, rfl, rfl, rfl, rfl, ⟨rfl, rfl⟩, .inr ⟨rfl, rfl, rfl⟩, .inr ⟨rfl, rfl, rfl⟩⟩

theorem restoreLazyPayload_deferred (m : PayloadMessage) (e : Option LazyPayloadEncoding)
    (v : Except PayloadError MaterializedPayloadView) :
    Coherent codecs (m.restoreLazyPayload (.deferred e v)).2 := by
  have hl : (m.restoreLazyPayload (.deferred e v)).2.lazyPayloadEncoding = e := Option.or_self
  refine ⟨.inl rfl, .inl rfl, fun ht => absurd rfl ht, fun p hp => ?_⟩
  obtain rfl := Option.some.inj hp
  cases v with
  | ok v => exact .deferred rfl hl.symm rfl ⟨rfl, rfl⟩ (.inl ⟨rfl, rfl⟩)
  | error => exact .failed ⟨rfl, rfl⟩ ⟨rfl, rfl⟩

/-- A view is restored that is not packed, whatever the message held. -/
theorem restoreLazyPayload_coherent (m : PayloadMessage) {p : LazyMessagePayload}
    (hshow : SlicesShow codecs p) (hplain : Plain p) :
    Coherent codecs (m.restoreLazyPayload p).2 := by
  by_cases hnow : ∀ e v, p ≠ .deferred e v
  · obtain ⟨m', hm, hr⟩ := restoreLazyPayload_cases m p hplain.1 hnow
    rw [hm]
    -- the positional arguments, as a slice and as they are read
    obtain ⟨hs, hra⟩ : Slice (fun e => (codecs e).decodeArguments) m'.lazyPayloadEncoding
        m'.encodedArguments m'.argumentsDecoder m'.ownArguments ∧
          p.arguments = m'.rawArguments.1 := by
      rcases hr.arguments with ⟨hn, ho⟩ | ⟨hb, hd, ho⟩
      · have hn' := hr.slices.1.trans hn
        exact ⟨.inl hn', by rw [rawArguments_of_none hn', ho]⟩
      · obtain ⟨bytes, hb⟩ := Option.isSome_iff_exists.mp hb
        obtain ⟨v, hv, hdec⟩ := hshow.1 bytes hb
        have hb' := hr.slices.1.trans hb
        have hview : viewArgumentsDecoder p bytes = .ok v := by
          rw [viewArgumentsDecoder, hv]
          rfl
        exact ⟨.inr ⟨bytes, _, v, hb', hd, hview, fun e he => hdec e (hr.encoding ▸ he), .inl ho⟩,
          by rw [rawArguments_of_slice hb' hd hview (.inl ho), hv]⟩
    obtain ⟨hsk, hrk⟩ : Slice (fun e => (codecs e).decodeArgumentsKeywords) m'.lazyPayloadEncoding
        m'.encodedArgumentsKeywords m'.argumentsKeywordsDecoder m'.ownArgumentsKeywords ∧
          p.argumentsKeywords = m'.rawArgumentsKeywords.1 := by
      rcases hr.argumentsKeywords with ⟨hn, ho⟩ | ⟨hb, hd, ho⟩
      · have hn' := hr.slices.2.trans hn
        exact ⟨.inl hn', by rw [rawArgumentsKeywords_of_none hn', ho]⟩
      · obtain ⟨bytes, hb⟩ := Option.isSome_iff_exists.mp hb
        obtain ⟨v, hv, hdec⟩ := hshow.2 bytes hb
        have hb' := hr.slices.2.trans hb
        have hview : viewArgumentsKeywordsDecoder p bytes = .ok v := by
          rw [viewArgumentsKeywordsDecoder, hv]
          rfl
        exact ⟨.inr ⟨bytes, _, v, hb', hd, hview, fun e he => hdec e (hr.encoding ▸ he), .inl ho⟩,
          by rw [rawArgumentsKeywords_of_slice hb' hd hview (.inl ho), hv]⟩
    have htransparent (ht : m'.transparentBinaryPayload ≠ none) : m'.encodedArguments = none ∧
        m'.encodedArgumentsKeywords = none ∧ m'.ownArguments = none ∧
          m'.ownArgumentsKeywords = none := by
      obtain ⟨hn, hnk, hv, hvk⟩ := hplain.2 (hr.transparent ▸ ht)
      rw [hv, rawArguments_of_none (hr.slices.1.trans hn)] at hra
      rw [hvk, rawArgumentsKeywords_of_none (hr.slices.2.trans hnk)] at hrk
      exact ⟨hr.slices.1.trans hn, hr.slices.2.trans hnk, (Except.ok.inj hra).symm,
        (Except.ok.inj hrk).symm⟩
    exact Coherent.retain ⟨hs, hsk, htransparent, .of_none hr.retained⟩ hr.encoding
      (.view hnow hplain.1 hr.transparent.symm hr.encoding.symm
        ⟨hr.slices.1.symm, hr.slices.2.symm⟩ hra hrk)
  · push Not at hnow
    obtain ⟨e, v, rfl⟩ := hnow
    exact restoreLazyPayload_deferred m e v

/-! ### Copying -/

/-- The target of a copy, before it gets the view that the source retains. -/
structure CopyOf (m t : PayloadMessage) : Prop where
  transparent : t.transparentBinaryPayload = m.transparentBinaryPayload
  encoding : t.lazyPayloadEncoding = m.lazyPayloadEncoding
  retained : t.retainedLazyPayload = none
  flag : t.pptPayloadDecoded = m.pptPayloadDecoded
  arguments : m.encodedArguments = none ∧ t.encodedArguments = none ∧
      t.ownArguments = m.ownArguments ∨
    m.encodedArguments ≠ none ∧ t.encodedArguments = m.encodedArguments ∧
      t.argumentsDecoder = m.argumentsDecoder ∧ t.ownArguments = none
  argumentsKeywords : m.encodedArgumentsKeywords = none ∧ t.encodedArgumentsKeywords = none ∧
      t.ownArgumentsKeywords = m.ownArgumentsKeywords ∨
    m.encodedArgumentsKeywords ≠ none ∧ t.encodedArgumentsKeywords = m.encodedArgumentsKeywords ∧
      t.argumentsKeywordsDecoder = m.argumentsKeywordsDecoder ∧ t.ownArgumentsKeywords = none

namespace CopyOf

variable {t : PayloadMessage} (hc : CopyOf m t)
include hc

theorem slices : t.encodedArguments = m.encodedArguments ∧
    t.encodedArgumentsKeywords = m.encodedArgumentsKeywords := by
  constructor
  · rcases hc.arguments with ⟨hm, ht, -⟩ | ⟨-, ht, -⟩
    · rw [ht, hm]
    · exact ht
  · rcases hc.argumentsKeywords with ⟨hm, ht, -⟩ | ⟨-, ht, -⟩
    · rw [ht, hm]
    · exact ht

theorem coherent (h : Coherent codecs m) : Coherent codecs t := by
  refine ⟨?_, ?_, fun ht => ?_, .of_none hc.retained⟩
  · rcases hc.arguments with ⟨-, hn, -⟩ | ⟨-, hb, hd, ho⟩
    · exact .inl hn
    · rw [hc.encoding, hb, hd, ho]
      exact h.arguments.forget (.inr (.inl rfl))
  · rcases hc.argumentsKeywords with ⟨-, hn, -⟩ | ⟨-, hb, hd, ho⟩
    · exact .inl hn
    · rw [hc.encoding, hb, hd, ho]
      exact h.argumentsKeywords.forget (.inr (.inl rfl))
  · obtain ⟨hs, hsk, hown, hownk⟩ := h.transparent (hc.transparent ▸ ht)
    refine ⟨hc.slices.1.trans hs, hc.slices.2.trans hsk, ?_, ?_⟩
    · rcases hc.arguments with ⟨-, -, ho⟩ | ⟨hn, -⟩
      · exact ho.trans hown
      · exact absurd hs hn
    · rcases hc.argumentsKeywords with ⟨-, -, ho⟩ | ⟨hn, -⟩
      · exact ho.trans hownk
      · exact absurd hsk hn

/-- The copy reads as its source. -/
theorem rawArguments_eq (h : Coherent codecs m) : t.rawArguments.1 = m.rawArguments.1 := by
  rcases hc.arguments with ⟨hm, ht, ho⟩ | ⟨hn, hb', hd', ho'⟩
  · rw [rawArguments_of_none hm, rawArguments_of_none ht, ho]
  · rcases h.arguments with hm | ⟨bytes, d, v, hb, hd, hv, -, hown⟩
    · exact absurd hm hn
    · rw [rawArguments_of_slice hb hd hv hown,
        rawArguments_of_slice (hb'.trans hb) (hd'.trans hd) hv (.inl ho')]

theorem rawArgumentsKeywords_eq (h : Coherent codecs m) :
    t.rawArgumentsKeywords.1 = m.rawArgumentsKeywords.1 := by
  rcases hc.argumentsKeywords with ⟨hm, ht, ho⟩ | ⟨hn, hb', hd', ho'⟩
  · rw [rawArgumentsKeywords_of_none hm, rawArgumentsKeywords_of_none ht, ho]
  · rcases h.argumentsKeywords with hm | ⟨bytes, d, v, hb, hd, hv, -, hown⟩
    · exact absurd hm hn
    · rw [rawArgumentsKeywords_of_slice hb hd hv hown,
        rawArgumentsKeywords_of_slice (hb'.trans hb) (hd'.trans hd) hv (.inl ho')]

end CopyOf

/-- A deferred payload that the message retains has been evaluated for it, if it shows something. -/
def Evaluated (m : PayloadMessage) : Prop :=
  ∀ e v, m.retainedLazyPayload = some (.deferred e (.ok v)) →
    m.ownArguments = v.arguments ∧ m.ownArgumentsKeywords = v.argumentsKeywords

theorem CopyOf.copyRetainedTo {t : PayloadMessage} (hc : CopyOf m t) (h : Coherent codecs m)
    (hev : m.Evaluated) : Coherent codecs (m.copyRetainedTo t).2 := by
  have ht := hc.coherent h
  rw [PayloadMessage.copyRetainedTo]
  cases hr : m.retainedLazyPayload with
  | none => exact ht
  | some p =>
      cases h.retained p hr with
      | view now unpacked transparent encoding slices arguments argumentsKeywords =>
          have howned : p.toOwned = .ok p := by
            cases p with
            | deferred e v => exact absurd rfl (now e v)
            | encoded | packed | materialized => rfl
          dsimp only
          rw [howned]
          refine ht.retain (hc.encoding.trans encoding.symm)
            (.view now unpacked (transparent.trans hc.transparent.symm)
              (encoding.trans hc.encoding.symm) ?_
              (arguments.trans (hc.rawArguments_eq h).symm)
              (argumentsKeywords.trans (hc.rawArgumentsKeywords_eq h).symm))
          rw [hc.slices.1, hc.slices.2]
          exact slices
      | @deferred e v flag encoding transparent slices own =>
          -- the copy retains the values, which are those of the source
          obtain ⟨hv, hvk⟩ := hev e v hr
          refine ht.retain (hc.encoding.trans encoding.symm)
            (.view nofun rfl (transparent.symm.trans hc.transparent.symm)
              (encoding.trans hc.encoding.symm) ?_ ?_ ?_)
          · rw [hc.slices.1, hc.slices.2, slices.1, slices.2]
            exact ⟨rfl, rfl⟩
          · rw [hc.rawArguments_eq h, rawArguments_of_none slices.1, hv]
            rfl
          · rw [hc.rawArgumentsKeywords_eq h, rawArgumentsKeywords_of_none slices.2, hvk]
            rfl
      | failed => exact ht

/-- A copy of slices. -/
theorem copyPayloadTo_slices (m target : PayloadMessage)
    (hs : ((m.encodedArguments.isSome && m.argumentsDecoder.isSome) ||
      (m.encodedArgumentsKeywords.isSome && m.argumentsKeywordsDecoder.isSome)) = true)
    (hd : m.encodedArguments ≠ none → m.argumentsDecoder.isSome = true)
    (hdk : m.encodedArgumentsKeywords ≠ none → m.argumentsKeywordsDecoder.isSome = true) :
    ∃ t, CopyOf m t ∧ m.copyPayloadTo target = m.copyRetainedTo t := by
  rw [copyPayloadTo, if_pos hs]
  cases ha : m.encodedArguments with
  | none =>
      cases hk : m.encodedArgumentsKeywords with
      | none =>
          rw [ha, hk] at hs
          cases hs
      | some keywords =>
          simp only [PayloadMessage.setLazyPayload, PayloadMessage.setArguments,
            materializeDeferredPayloadIfNeeded, Reading.andThen, hdk (by simp [hk]),
            Option.isSome_none, Option.isSome_some, Option.isNone_none, Option.isNone_some,
            Bool.false_and, Bool.and_self, Bool.false_eq_true, if_true, if_false]
          refine ⟨_, ?_, rfl⟩
          exact ⟨rfl, rfl, rfl, rfl, .inl ⟨ha, rfl, rfl⟩,
            .inr ⟨by simp [hk], hk.symm, rfl, rfl⟩⟩
  | some bytes =>
      cases hk : m.encodedArgumentsKeywords with
      | none =>
          simp only [PayloadMessage.setLazyPayload, PayloadMessage.setArgumentsKeywords,
            materializeDeferredPayloadIfNeeded, Reading.andThen, hd (by simp [ha]),
            Option.isSome_none, Option.isSome_some, Option.isNone_none, Option.isNone_some,
            Bool.false_and, Bool.and_self, Bool.false_eq_true, if_true, if_false]
          refine ⟨_, ?_, rfl⟩
          exact ⟨rfl, rfl, rfl, rfl, .inr ⟨by simp [ha], ha.symm, rfl, rfl⟩,
            .inl ⟨hk, rfl, rfl⟩⟩
      | some keywords =>
          simp only [PayloadMessage.setLazyPayload, Reading.andThen, hd (by simp [ha]),
            hdk (by simp [hk]), Option.isSome_some, Option.isNone_some, Bool.and_self,
            Bool.false_eq_true, if_true, if_false]
          refine ⟨_, ?_, rfl⟩
          exact ⟨rfl, rfl, rfl, rfl, .inr ⟨by simp [ha], ha.symm, rfl, rfl⟩,
            .inr ⟨by simp [hk], hk.symm, rfl, rfl⟩⟩

/-- What a copy first puts into its target, where no slices are copied. -/
def receive (m target : PayloadMessage) : PayloadMessage :=
  { target with
    transparentBinaryPayload := m.transparentBinaryPayload
    lazyPayloadEncoding := m.lazyPayloadEncoding }

/-- A copy of values; it fails where a deferred payload of the target fails. -/
theorem copyPayloadTo_values (m target : PayloadMessage) (ha : m.encodedArguments = none)
    (hk : m.encodedArgumentsKeywords = none) :
    (∃ e error, target.retainedLazyPayload = some (.deferred e (.error error)) ∧
      m.copyPayloadTo target = (.error error, m.receive target)) ∨
    ∃ t, CopyOf m t ∧ m.copyPayloadTo target = m.copyRetainedTo t := by
  have hcopy : m.copyPayloadTo target =
      ((m.receive target).setArguments m.ownArguments).andThen fun t =>
        (t.setArgumentsKeywords m.ownArgumentsKeywords).andThen fun t =>
          m.copyRetainedTo { t with pptPayloadDecoded := m.pptPayloadDecoded } := by
    rw [copyPayloadTo, ha, hk]
    rfl
  rw [hcopy, PayloadMessage.setArguments]
  cases hm : (m.receive target).materializeDeferredPayloadIfNeeded with
  | error error =>
      refine .inl ?_
      rw [materializeDeferredPayloadIfNeeded] at hm
      split at hm
      · next e v hr =>
        cases v with
        | ok v => cases hm
        | error error' =>
            obtain rfl := Except.error.inj hm
            exact ⟨e, error', hr, rfl⟩
      · cases hm
  | ok t =>
      have ht : t.transparentBinaryPayload = m.transparentBinaryPayload ∧
          t.lazyPayloadEncoding = m.lazyPayloadEncoding := by
        rw [materializeDeferredPayloadIfNeeded] at hm
        split at hm
        · next v _ =>
          cases v with
          | error error => cases hm
          | ok v =>
              obtain rfl := Except.ok.inj hm
              exact ⟨rfl, rfl⟩
        · obtain rfl := Except.ok.inj hm
          exact ⟨rfl, rfl⟩
      refine .inr ⟨_, ?_, rfl⟩
      exact ⟨ht.1, ht.2, rfl, rfl, .inl ⟨ha, rfl, rfl⟩, .inl ⟨hk, rfl, rfl⟩⟩

/-- **A copy is coherent**, if what it copies has been evaluated. -/
theorem Coherent.copyPayloadTo (h : Coherent codecs m) (ht : Coherent codecs target)
    (hev : m.Evaluated) : Coherent codecs (m.copyPayloadTo target).2 := by
  have hd (hn : m.encodedArguments ≠ none) : m.argumentsDecoder.isSome = true := by
    rcases h.arguments with hn' | ⟨bytes, d, v, -, hd, -⟩
    · exact absurd hn' hn
    · rw [hd]
      rfl
  have hdk (hn : m.encodedArgumentsKeywords ≠ none) :
      m.argumentsKeywordsDecoder.isSome = true := by
    rcases h.argumentsKeywords with hn' | ⟨bytes, d, v, -, hd, -⟩
    · exact absurd hn' hn
    · rw [hd]
      rfl
  cases hs : (m.encodedArguments.isSome && m.argumentsDecoder.isSome) ||
      (m.encodedArgumentsKeywords.isSome && m.argumentsKeywordsDecoder.isSome) with
  | true =>
      obtain ⟨t, hc, he⟩ := copyPayloadTo_slices m target hs hd hdk
      rw [he]
      exact hc.copyRetainedTo h hev
  | false =>
      obtain ⟨hna, hnk⟩ := Bool.or_eq_false_iff.mp hs
      have ha : m.encodedArguments = none := by
        by_contra hn
        rw [hd hn, Option.isSome_iff_ne_none.mpr hn] at hna
        cases hna
      have hk : m.encodedArgumentsKeywords = none := by
        by_contra hn
        rw [hdk hn, Option.isSome_iff_ne_none.mpr hn] at hnk
        cases hnk
      rcases copyPayloadTo_values m target ha hk with ⟨e, error, hr, he⟩ | ⟨t, hc, he⟩
      · -- the target had nothing but the payload that fails
        rw [he]
        cases ht.retained _ hr with
        | view now => exact absurd rfl (now _ _)
        | failed slices own =>
            refine ⟨.inl slices.1, .inl slices.2, fun _ => ⟨slices.1, slices.2, own⟩,
              fun p hp => ?_⟩
            obtain rfl := Option.some.inj (hr.symm.trans hp)
            exact .failed slices own
      · rw [he]
        exact hc.copyRetainedTo h hev

end PayloadMessage

/-! ### Runs -/

/-- What is done with messages, each of which has a number. -/
inductive LazyOp where
  | setLazyPayload (i : Nat) (argumentsBytes : Option (List UInt8))
      (argumentsDecoder : Option PayloadListDecoder) (argumentsKeywordsBytes : Option (List UInt8))
      (argumentsKeywordsDecoder : Option PayloadMapDecoder) (encoding : Option LazyPayloadEncoding)
  | restoreLazyPayload (i : Nat) (payload : LazyMessagePayload)
  | setArguments (i : Nat) (value : Option Arguments)
  | setArgumentsKeywords (i : Nat) (value : Option ArgumentsKeywords)
  /-- The getters. -/
  | arguments (i : Nat)
  | argumentsKeywords (i : Nat)
  | copyPayloadTo (i target : Nat)

namespace LazyOp

/-- The messages after it; one that throws leaves what it has done so far. -/
def step (ms : Nat → PayloadMessage) : LazyOp → Nat → PayloadMessage
  | setLazyPayload i a d k dk e => Function.update ms i ((ms i).setLazyPayload a d k dk e)
  | restoreLazyPayload i p => Function.update ms i ((ms i).restoreLazyPayload p).2
  | setArguments i v => Function.update ms i ((ms i).setArguments v).2
  | setArgumentsKeywords i v => Function.update ms i ((ms i).setArgumentsKeywords v).2
  | arguments i => Function.update ms i (ms i).arguments.2
  | argumentsKeywords i => Function.update ms i (ms i).argumentsKeywords.2
  | copyPayloadTo i target => Function.update ms target ((ms i).copyPayloadTo (ms target)).2

/-- Slices decode, and in the encoding that they are given with; a message is copied to another
one. -/
def Legal (codecs : LazyPayloadEncoding → PayloadCodec) : LazyOp → Prop
  | setLazyPayload _ a d k dk e =>
      PayloadMessage.Given (fun e => (codecs e).decodeArguments) e a d ∧
        PayloadMessage.Given (fun e => (codecs e).decodeArgumentsKeywords) e k dk
  | restoreLazyPayload _ p => PayloadMessage.SlicesShow codecs p
  | copyPayloadTo i target => i ≠ target
  | _ => True

/-- The steps after which the message fits together. -/
def Careful (ms : Nat → PayloadMessage) : LazyOp → Prop
  | setLazyPayload i a d k dk e =>
      ((a.isSome && d.isSome) = false → (ms i).KeepsLabel e (ms i).encodedArguments) ∧
        ((k.isSome && dk.isSome) = false → (ms i).KeepsLabel e (ms i).encodedArgumentsKeywords) ∧
        ((a.isSome && d.isSome) = true ∨ (k.isSome && dk.isSome) = true →
          (ms i).transparentBinaryPayload = none)
  | restoreLazyPayload _ p => PayloadMessage.Plain p
  | setArguments i v => v = none ∨ (ms i).transparentBinaryPayload = none
  | setArgumentsKeywords i v => v = none ∨ (ms i).transparentBinaryPayload = none
  | copyPayloadTo i _ => (ms i).Evaluated
  | _ => True

variable {codecs : LazyPayloadEncoding → PayloadCodec}

/-- **Each step keeps all messages coherent.** -/
theorem step_coherent (ms : Nat → PayloadMessage)
    (h : ∀ i, PayloadMessage.Coherent codecs (ms i)) {op : LazyOp} (hlegal : op.Legal codecs)
    (hcareful : op.Careful ms) :
    ∀ i, PayloadMessage.Coherent codecs (op.step ms i) := by
  have hupdate {i : Nat} {m : PayloadMessage} (hm : PayloadMessage.Coherent codecs m) (j : Nat) :
      PayloadMessage.Coherent codecs (Function.update ms i m j) := by
    rcases eq_or_ne j i with rfl | hj
    · rwa [Function.update_self]
    · rw [Function.update_of_ne hj]
      exact h j
  cases op with
  | setLazyPayload i =>
      exact hupdate ((h i).setLazyPayload hlegal.1 hlegal.2 hcareful.1 hcareful.2.1 hcareful.2.2)
  | restoreLazyPayload i =>
      exact hupdate (PayloadMessage.restoreLazyPayload_coherent (ms i) hlegal hcareful)
  | setArguments i => exact hupdate ((h i).setArguments hcareful)
  | setArgumentsKeywords i => exact hupdate ((h i).setArgumentsKeywords hcareful)
  | arguments i => exact hupdate (h i).readArguments
  | argumentsKeywords i => exact hupdate (h i).readArgumentsKeywords
  | copyPayloadTo i target => exact hupdate ((h i).copyPayloadTo (h target) hcareful)

end LazyOp

/-- Messages without a payload. -/
def emptyMessages : Nat → PayloadMessage := fun _ => {}

theorem emptyMessages_coherent (codecs : LazyPayloadEncoding → PayloadCodec) (i : Nat) :
    PayloadMessage.Coherent codecs (emptyMessages i) :=
  ⟨.inl rfl, .inl rfl, fun ht => absurd rfl ht, .of_none rfl⟩

/-- What the label says of the slices holds, and what a serializer emits decodes to the
arguments. -/
structure PayloadCoherence (codecs : LazyPayloadEncoding → PayloadCodec) (m : PayloadMessage) :
    Prop where
  arguments : ∀ e bytes, m.lazyPayloadEncoding = some e → m.encodedArguments = some bytes →
    ∃ v, (codecs e).decodeArguments bytes = .ok v ∧ m.arguments.1 = .ok (some v)
  argumentsKeywords : ∀ e bytes, m.lazyPayloadEncoding = some e →
    m.encodedArgumentsKeywords = some bytes →
      ∃ v, (codecs e).decodeArgumentsKeywords bytes = .ok v ∧
        m.argumentsKeywords.1 = .ok (some v)
  emitted : ∀ (s : PayloadSerializer) (view : MaterializedPayloadView),
    (codecs s.valueEncoding).ReadsBack view → m.arguments.1 = .ok view.arguments →
      m.argumentsKeywords.1 = .ok view.argumentsKeywords →
        WirePayload.Carries (codecs s.valueEncoding) (s.payload codecs m) view

theorem PayloadMessage.Coherent.payloadCoherence {codecs : LazyPayloadEncoding → PayloadCodec}
    {m : PayloadMessage} (h : Coherent codecs m) : PayloadCoherence codecs m where
  arguments _ bytes hl hb := (h.slices hl).1 bytes hb
  argumentsKeywords _ bytes hl hb := (h.slices hl).2 bytes hb
  emitted s _ hback ha hk := emitted_decodes h s hback ha hk

/-- **Lazy payloads are coherent.**  After any sequence of careful steps the slices of every message
are in the encoding of its label, and what any serializer emits for it decodes to its arguments and
keyword arguments. -/
theorem lazy_payloads_coherent (codecs : LazyPayloadEncoding → PayloadCodec) (ops : List LazyOp)
    (ms : Nat → PayloadMessage)
    (hrun : Run LazyOp.step (fun ms op => op.Legal codecs ∧ op.Careful ms) emptyMessages ops ms)
    (i : Nat) : PayloadCoherence codecs (ms i) := by
  have h := hrun.invariant (P := fun ms => ∀ i, PayloadMessage.Coherent codecs (ms i))
    (fun ms _ h hop => LazyOp.step_coherent ms h hop.1 hop.2) (emptyMessages_coherent codecs)
  exact (h i).payloadCoherence

/-! ### A slice under another label -/

/-- An encoding in which a value is one byte, after a byte for the format. -/
def sampleCodec (format : UInt8) : PayloadCodec where
  encodeArguments _ := [format, 1]
  decodeArguments bytes :=
    if bytes = [format, 1] then .ok [.int 1] else .error (.format "Invalid arguments")
  encodeArgumentsKeywords _ := [format, 2]
  decodeArgumentsKeywords bytes :=
    if bytes = [format, 2] then .ok [("a", .int 1)]
    else .error (.format "Invalid keyword arguments")

def sampleCodecs : LazyPayloadEncoding → PayloadCodec
  | .json => sampleCodec 1
  | .messagePack => sampleCodec 2
  | .cbor => sampleCodec 3
  | .flatbuffers => sampleCodec 4

/-- Positional arguments as JSON. -/
def jsonArguments : LazyOp :=
  .setLazyPayload 0 (some [1, 1]) (some (sampleCodecs .json).decodeArguments) none none (some .json)

/-- Keyword arguments as CBOR. -/
def cborArgumentsKeywords : LazyOp :=
  .setLazyPayload 0 none none (some [3, 2]) (some (sampleCodecs .cbor).decodeArgumentsKeywords)
    (some .cbor)

theorem jsonArguments_legal : jsonArguments.Legal sampleCodecs := by
  refine ⟨fun bytes d hb hd => ?_, fun bytes d hb => (nomatch hb)⟩
  obtain rfl := Option.some.inj hb
  obtain rfl := Option.some.inj hd
  refine ⟨[.int 1], rfl, fun e he => ?_⟩
  obtain rfl := Option.some.inj he
  rfl

theorem cborArgumentsKeywords_legal : cborArgumentsKeywords.Legal sampleCodecs := by
  refine ⟨fun bytes d hb => (nomatch hb), fun bytes d hb hd => ?_⟩
  obtain rfl := Option.some.inj hb
  obtain rfl := Option.some.inj hd
  refine ⟨[("a", .int 1)], rfl, fun e he => ?_⟩
  obtain rfl := Option.some.inj he
  rfl

/-- The arguments are set, copied and read. -/
theorem lazy_payloads_coherent_sample :
    ∃ ms : Nat → PayloadMessage,
      PayloadCoherence sampleCodecs (ms 1) ∧ (ms 1).encodedArguments = some [1, 1] := by
  obtain ⟨ms, hms, hrun⟩ : ∃ ms, (ms 1).encodedArguments = some [1, 1] ∧
      Run LazyOp.step (fun ms op => op.Legal sampleCodecs ∧ op.Careful ms) emptyMessages
        [jsonArguments, .copyPayloadTo 0 1, .arguments 1] ms := by
    refine ⟨_, ?_, .cons ⟨jsonArguments_legal, nofun, fun _ => .inl rfl, fun _ => rfl⟩ (.cons ⟨nofun, ?_⟩
      (.cons ⟨trivial, trivial⟩ (.nil _)))⟩
    · rfl
    · exact fun e v hr => (nomatch hr)
  exact ⟨ms, lazy_payloads_coherent sampleCodecs _ _ hrun 1, hms⟩

/-- **A slice that is left over** is passed on under the label of another one. -/
theorem mixed_label :
    ¬ ∀ (codecs : LazyPayloadEncoding → PayloadCodec) (ops : List LazyOp)
      (ms : Nat → PayloadMessage),
      Run LazyOp.step (fun _ op => op.Legal codecs) emptyMessages ops ms →
        ∀ i, PayloadCoherence codecs (ms i) := by
  intro h
  have hc := h sampleCodecs [jsonArguments, cborArgumentsKeywords] _
    (.cons jsonArguments_legal (.cons cborArgumentsKeywords_legal (.nil _))) 0
  obtain ⟨v, hv, -⟩ := hc.arguments .cbor [1, 1] rfl rfl
  cases hv

end Connectanum
