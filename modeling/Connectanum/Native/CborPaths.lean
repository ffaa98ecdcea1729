import Connectanum.Native.CborScan
import Connectanum.Native.Parse

/-!
# Native — CborPaths

The two paths of the CBOR parser compared: the scan of a frame in one buffer, and the decoding of a
segmented frame as one value.  The scan hands the arguments on as they came (`Kept`), the other path
serialises them again (`Restored`).

`cbor_paths_agree`: the paths agree on exactly the frames whose message, if they hold one, is
written plainly (`PlainMessage`).
-/

namespace Connectanum

namespace Wamp

open Readers

section

variable {cbor : SerdeCbor} {m : Cbor.Meaning Value}

/-! ### Message types with a payload -/

theorem get_take {parts : List Value} {index n : Nat} (h : index < n) (label : String) :
    get (parts.take n) index label = get parts index label := by
  rw [get, get, List.getElem?_take_of_lt h]

theorem extractPayload_none (serialize : Value → Except ParseError Bytes)
    (argsLabel kwargsLabel : String) :
    extractPayload serialize argsLabel none kwargsLabel none = pure {} := rfl

/-- **The payload comes last.**  A message with a payload is the message that its other fields
make, with the payload put in. -/
theorem parseValueParts_payload (serialize : Value → Except ParseError Bytes) {code : Nat}
    {spec : CborPayloadSpec} (hspec : cborPayloadSpec code = some spec) (rest : List Value) :
    parseValueParts serialize code rest = (do
      let message ← parseValueParts serialize code (rest.take (spec.argsIndex - 1))
      let payload ← extractPayload serialize spec.argsLabel rest[spec.argsIndex - 1]?
        spec.kwargsLabel rest[spec.kwargsIndex - 1]?
      pure (replaceMessagePayload message payload)) := by
  unfold cborPayloadSpec at hspec
  split at hspec
  all_goals cases hspec
  all_goals
    simp [parseValueParts, parseAbort, parseGoodbye, parseError, parsePublish, parseEvent,
      parseCall, parseResult, parseInvocation, parseYield, get_take, extractPayload_none,
      replaceMessagePayload]

def WampMessage.payload? : WampMessage → Option Payload
  | .abort _ _ payload | .goodbye _ _ payload | .error _ _ _ _ payload | .publish _ _ _ payload
  | .event _ _ _ payload | .call _ _ _ payload | .result _ _ payload | .invocation _ _ _ payload
  | .yield _ _ payload => some payload
  | _ => none

theorem payload?_replaceMessagePayload {message : WampMessage} (h : message.payload?.isSome)
    (payload : Payload) : (replaceMessagePayload message payload).payload? = some payload := by
  cases message <;> first | rfl | cases h

theorem payload?_of_parseValueParts {serialize : Value → Except ParseError Bytes} {code : Nat}
    {spec : CborPayloadSpec} (hspec : cborPayloadSpec code = some spec) {rest : List Value}
    (message : WampMessage) (h : parseValueParts serialize code rest = .ok message) :
    message.payload?.isSome := by
  revert message
  unfold cborPayloadSpec at hspec
  split at hspec
  all_goals cases hspec
  all_goals
    simp only [parseValueParts, parseAbort, parseGoodbye, parseError, parsePublish, parseEvent,
      parseCall, parseResult, parseInvocation, parseYield]
    repeat refine Checks.except_bind_all fun _ => ?_
    intro message h
    cases h
    rfl

/-! ### The payload -/

/-- What the scan makes of a payload element: it is kept as it is. -/
inductive Kept (kind : Nat) : Option Bytes → Option Bytes → Prop where
  | absent : Kept kind none none
  | null : Kept kind (some [0xf6]) none
  | asIs {byte : UInt8} {rest : Bytes} :
      Cbor.major byte = kind → Kept kind (some (byte :: rest)) (some (byte :: rest))

/-- What the other path makes of the decoded element: it is serialised again. -/
inductive Restored (cbor : SerdeCbor) (kind : Value → Prop) :
    Option Value → Option Bytes → Prop where
  | absent : Restored cbor kind none none
  | null : Restored cbor kind (some .unit) none
  | again {v : Value} {bytes : Bytes} :
      kind v → cbor.toVec v = .ok bytes → Restored cbor kind (some v) (some bytes)

def IsSeq (v : Value) : Prop := ∃ items, v = .seq items

def IsMap (v : Value) : Prop := ∃ entries, v = .map entries

theorem cborPayloadPart_eq_ok {data : Bytes} {range : Option Range} {piece : Option Bytes}
    {kind : Nat} {label : String} {wrongType : String → ParseError} {out : Option Bytes}
    (hkind : kind ≠ 7) (hcut : Option.Rel (Cut data) range piece) :
    cborPayloadPart (.contiguous data) range kind label wrongType = .ok out ↔
      Kept kind piece out := by
  cases hcut with
  | none =>
      constructor
      · intro h
        cases h
        exact .absent
      · intro h
        cases h
        rfl
  | @some range piece hcut =>
      have heq : cborPayloadPart (.contiguous data) (some range) kind label wrongType =
          if piece = [0xf6] then .ok none
          else if piece.head?.map Cbor.major ≠ some kind then .error (wrongType label)
          else .ok (some piece) := by
        rw [cborPayloadPart, hcut]
        rfl
      rw [heq]
      constructor
      · intro h
        split at h
        · next hnull =>
          cases h
          rw [hnull]
          exact .null
        · split at h
          · cases h
          · next hmajor =>
            cases h
            rw [not_not] at hmajor
            cases piece with
            | nil => cases hmajor
            | cons byte rest => exact .asIs (Option.some.inj hmajor)
      · intro h
        cases h with
        | null => rfl
        | @asIs byte rest hmajor =>
            rw [if_neg, if_neg]
            · exact not_not_intro (congrArg some hmajor)
            · rintro heq
              cases heq
              exact hkind hmajor.symm

theorem serializeValueCbor_eq_ok {v : Value} {bytes : Bytes} :
    serializeValueCbor cbor v = .ok bytes ↔ cbor.toVec v = .ok bytes := by
  rw [serializeValueCbor]
  cases cbor.toVec v with
  | error e => exact ⟨fun h => (nomatch h), fun h => (nomatch h)⟩
  | ok written => exact ⟨fun h => by cases h; rfl, fun h => by cases h; rfl⟩

theorem serialized_eq_ok {kind : Value → Prop} {v : Value} {out : Option Bytes} (hkind : kind v)
    (hunit : v ≠ .unit) :
    some <$> serializeValueCbor cbor v = .ok out ↔ Restored cbor kind (some v) out := by
  constructor
  · intro h
    obtain ⟨bytes, hbytes, rfl⟩ := Checks.except_map_eq_ok h
    exact .again hkind (serializeValueCbor_eq_ok.mp hbytes)
  · intro h
    cases h with
    | null => exact absurd rfl hunit
    | again _ hbytes => rw [serializeValueCbor_eq_ok.mpr hbytes]; rfl

theorem refused_eq_ok {kind : Value → Prop} {v : Value} {out : Option Bytes} {e : ParseError}
    (hkind : ¬kind v) (hunit : v ≠ .unit) :
    (.error e : Except ParseError (Option Bytes)) = .ok out ↔ Restored cbor kind (some v) out := by
  constructor
  · intro h
    cases h
  · intro h
    cases h with
    | null => exact absurd rfl hunit
    | again h _ => exact absurd h hkind

theorem missing_eq_ok {kind : Value → Prop} {out : Option Bytes} :
    (.ok none : Except ParseError (Option Bytes)) = .ok out ↔ Restored cbor kind none out := by
  constructor
  · intro h
    cases h
    exact .absent
  · intro h
    cases h
    rfl

theorem null_eq_ok {kind : Value → Prop} {out : Option Bytes} (hkind : ¬kind .unit) :
    (.ok none : Except ParseError (Option Bytes)) = .ok out ↔
      Restored cbor kind (some .unit) out := by
  constructor
  · intro h
    cases h
    exact .null
  · intro h
    cases h with
    | null => rfl
    | again h _ => exact absurd h hkind

/-- The positional arguments in `extract_payload`. -/
def extractList (cbor : SerdeCbor) (argsLabel : String) :
    Option Value → Except ParseError (Option Bytes)
  | some (.seq items) => some <$> serializeValueCbor cbor (.seq items)
  | some .unit | none => pure none
  | some _ => .error (.expectedList argsLabel)

/-- The keyword arguments in `extract_payload`. -/
def extractMap (cbor : SerdeCbor) (kwargsLabel : String) :
    Option Value → Except ParseError (Option Bytes)
  | some (.map entries) => some <$> serializeValueCbor cbor (.map entries)
  | some .unit | none => pure none
  | some _ => .error (.expectedMap kwargsLabel)

theorem extractPayload_eq_ok {argsLabel kwargsLabel : String} {args kwargs : Option Value}
    {payload : Payload} :
    extractPayload (serializeValueCbor cbor) argsLabel args kwargsLabel kwargs = .ok payload ↔
      Restored cbor IsSeq args payload.args ∧ Restored cbor IsMap kwargs payload.kwargs ∧
        payload.transparent = none := by
  have hlist (out : Option Bytes) :
      extractList cbor argsLabel args = .ok out ↔ Restored cbor IsSeq args out := by
    rcases args with - | v
    · exact missing_eq_ok
    · cases v with
      | seq items => exact serialized_eq_ok ⟨items, rfl⟩ (by simp)
      | unit => exact null_eq_ok (by rintro ⟨_, ⟨⟩⟩)
      | _ => exact refused_eq_ok (by rintro ⟨_, ⟨⟩⟩) (by simp)
  have hdictionary (out : Option Bytes) :
      extractMap cbor kwargsLabel kwargs = .ok out ↔ Restored cbor IsMap kwargs out := by
    rcases kwargs with - | v
    · exact missing_eq_ok
    · cases v with
      | map entries => exact serialized_eq_ok ⟨entries, rfl⟩ (by simp)
      | unit => exact null_eq_ok (by rintro ⟨_, ⟨⟩⟩)
      | _ => exact refused_eq_ok (by rintro ⟨_, ⟨⟩⟩) (by simp)
  have heq : extractPayload (serializeValueCbor cbor) argsLabel args kwargsLabel kwargs = (do
      let args ← extractList cbor argsLabel args
      let kwargs ← extractMap cbor kwargsLabel kwargs
      pure { args, kwargs }) := by
    rcases args with - | v
    · rcases kwargs with - | w
      · rfl
      · cases w <;> rfl
    · rcases kwargs with - | w
      · cases v <;> rfl
      · cases v <;> cases w <;> rfl
  rw [heq]
  constructor
  · intro h
    obtain ⟨args', hargs, h⟩ := Checks.except_bind_eq_ok h
    obtain ⟨kwargs', hkwargs, h⟩ := Checks.except_bind_eq_ok h
    cases h
    exact ⟨(hlist _).mp hargs, (hdictionary _).mp hkwargs, rfl⟩
  · rintro ⟨hargs, hkwargs, htransparent⟩
    rw [(hlist _).mpr hargs, (hdictionary _).mpr hkwargs]
    cases payload
    cases htransparent
    rfl

/-! ### The paths -/

/-- The message that the parser accepts. -/
def accepted (parsed : Except ParseError ParsedMessage) : Option WampMessage :=
  parsed.toOption.map ParsedMessage.message

theorem accepted_eq_some {parsed : Except ParseError ParsedMessage} {message : WampMessage} :
    accepted parsed = some message ↔ ∃ result, parsed = .ok result ∧ result.message = message := by
  cases parsed with
  | error e => exact ⟨fun h => (nomatch h), fun ⟨_, h, _⟩ => (nomatch h)⟩
  | ok result =>
      constructor
      · intro h
        exact ⟨result, rfl, Option.some.inj h⟩
      · rintro ⟨result, ⟨⟩, rfl⟩
        rfl

/-- **The segmented path**: a value, and the message it is. -/
theorem accepted_segmented (lawful : cbor.Lawful m) {segments : List Bytes}
    {message : WampMessage} :
    accepted (parseCborMessage cbor (.fromSegments segments)) = some message ↔
      ∃ codeValue rest code,
        Reads (Cbor.decode m) segments.flatten (.seq (codeValue :: rest)) ∧
          valueAsU64 codeValue "message code" = .ok code ∧
          parseValueParts (serializeValueCbor cbor) code rest = .ok message := by
  have hpath : parseCborMessage cbor (.fromSegments segments) =
      parseValueMessage cbor (.fromSegments segments) := rfl
  have hdocument : deserializeValueCbor cbor (.fromSegments segments) =
      (cbor.document segments.flatten).mapError ParseError.deserialize := rfl
  rw [accepted_eq_some, hpath, parseValueMessage, hdocument]
  constructor
  · rintro ⟨result, h, rfl⟩
    obtain ⟨v, hv, h⟩ := Checks.except_bind_eq_ok h
    have hreads : Reads (Cbor.decode m) segments.flatten v := by
      refine (lawful.document _ _).mp ?_
      cases hdoc : cbor.document segments.flatten with
      | error e =>
          rw [hdoc] at hv
          cases hv
      | ok w =>
          rw [hdoc] at hv
          cases hv
          rfl
    split at h
    · cases h
    · next codeValue rest =>
      obtain ⟨code, hcode, h⟩ := Checks.except_bind_eq_ok h
      obtain ⟨message, hmessage, h⟩ := Checks.except_bind_eq_ok h
      cases h
      exact ⟨codeValue, rest, code, hreads, hcode, hmessage⟩
    · cases h
  · rintro ⟨codeValue, rest, code, hreads, hcode, hmessage⟩
    rw [(lawful.document _ _).mpr hreads]
    refine ⟨⟨message, .fromSegments segments, .cbor, none⟩, ?_, rfl⟩
    change (do
      let code ← valueAsU64 codeValue "message code"
      let message ← parseValueParts (serializeValueCbor cbor) code rest
      pure (⟨message, .fromSegments segments, .cbor, none⟩ : ParsedMessage)) = _
    rw [hcode]
    change (do
      let message ← parseValueParts (serializeValueCbor cbor) code rest
      pure (⟨message, .fromSegments segments, .cbor, none⟩ : ParsedMessage)) = _
    rw [hmessage]
    rfl

/-- What the scan makes of the elements of the array. -/
def Scanned (cbor : SerdeCbor) (code : Nat) (pieces : List Bytes) (rest : List Value)
    (message : WampMessage) : Prop :=
  match cborPayloadSpec code with
  | none => parseValueParts (serializeValueCbor cbor) code rest = .ok message
  | some spec =>
      ∃ head args kwargs,
        parseValueParts (serializeValueCbor cbor) code (rest.take (spec.argsIndex - 1)) =
            .ok head ∧
          Kept 4 pieces[spec.argsIndex]? args ∧ Kept 5 pieces[spec.kwargsIndex]? kwargs ∧
          message = replaceMessagePayload head { args, kwargs }

theorem cborPayloadSpec_indices {code : Nat} {spec : CborPayloadSpec}
    (h : cborPayloadSpec code = some spec) :
    1 ≤ spec.argsIndex ∧ spec.kwargsIndex = spec.argsIndex + 1 := by
  unfold cborPayloadSpec at h
  split at h
  all_goals
    cases h
    try exact ⟨by decide, rfl⟩

theorem replaceMessagePayload_twice (message : WampMessage) (p q : Payload) :
    replaceMessagePayload (replaceMessagePayload message p) q =
      replaceMessagePayload message q := by
  cases message <;> rfl

theorem mapIdx_standIn_none (values : List Value) :
    (values.mapIdx fun i v => standIn none (1 + i) v) = values := by
  apply List.ext_getElem?
  intro i
  rw [List.getElem?_mapIdx]
  cases values[i]? <;> rfl

/-- The message, and the payload for its elements: the other fields are those of the message. -/
theorem parseValueParts_standIn (hlist : ∃ bytes, cbor.toVec (.seq []) = .ok bytes)
    (hdictionary : ∃ bytes, cbor.toVec (.map []) = .ok bytes) {code : Nat} {spec : CborPayloadSpec}
    (hspec : cborPayloadSpec code = some spec) (payload : Payload) (rest : List Value)
    {message : WampMessage} :
    (∃ scanned, parseValueParts (serializeValueCbor cbor) code
        (rest.mapIdx fun i v => standIn (some (spec, payload)) (1 + i) v) = .ok scanned ∧
          message = replaceMessagePayload scanned payload) ↔
      ∃ head, parseValueParts (serializeValueCbor cbor) code (rest.take (spec.argsIndex - 1)) =
          .ok head ∧ message = replaceMessagePayload head payload := by
  obtain ⟨hargs, hkwargs⟩ := cborPayloadSpec_indices hspec
  have hindex (i : Nat) : (rest.mapIdx fun i v => standIn (some (spec, payload)) (1 + i) v)[i]? =
      rest[i]?.map (standIn (some (spec, payload)) (1 + i)) := List.getElem?_mapIdx
  have htake : (rest.mapIdx fun i v => standIn (some (spec, payload)) (1 + i) v).take
      (spec.argsIndex - 1) = rest.take (spec.argsIndex - 1) := by
    apply List.ext_getElem?
    intro i
    by_cases hi : i < spec.argsIndex - 1
    · rw [List.getElem?_take_of_lt hi, List.getElem?_take_of_lt hi, hindex]
      have hother (v : Value) : standIn (some (spec, payload)) (1 + i) v = v := by
        simp only [standIn]
        rw [if_neg (by omega), if_neg (by omega)]
      cases rest[i]? with
      | none => rfl
      | some v => exact congrArg some (hother v)
    · rw [List.getElem?_take_eq_none (by omega), List.getElem?_take_eq_none (by omega)]
  have hextract : ∃ again, extractPayload (serializeValueCbor cbor) spec.argsLabel
      (rest.mapIdx fun i v => standIn (some (spec, payload)) (1 + i) v)[spec.argsIndex - 1]?
      spec.kwargsLabel
      (rest.mapIdx fun i v => standIn (some (spec, payload)) (1 + i) v)[spec.kwargsIndex - 1]? =
        .ok again := by
    have hseq : ∃ out, Restored cbor IsSeq
        (rest[spec.argsIndex - 1]?.map
          (standIn (some (spec, payload)) (1 + (spec.argsIndex - 1)))) out := by
      cases rest[spec.argsIndex - 1]? with
      | none => exact ⟨none, .absent⟩
      | some v =>
          have hv : standIn (some (spec, payload)) (1 + (spec.argsIndex - 1)) v =
              if payload.args.isSome then .seq [] else .unit := if_pos (by omega)
          rw [Option.map_some, hv]
          split
          · obtain ⟨bytes, hbytes⟩ := hlist
            exact ⟨some bytes, .again ⟨[], rfl⟩ hbytes⟩
          · exact ⟨none, .null⟩
    have hmap : ∃ out, Restored cbor IsMap
        (rest[spec.kwargsIndex - 1]?.map
          (standIn (some (spec, payload)) (1 + (spec.kwargsIndex - 1)))) out := by
      cases rest[spec.kwargsIndex - 1]? with
      | none => exact ⟨none, .absent⟩
      | some v =>
          have hv : standIn (some (spec, payload)) (1 + (spec.kwargsIndex - 1)) v =
              if payload.kwargs.isSome then .map [] else .unit :=
            (if_neg (by omega)).trans (if_pos (by omega))
          rw [Option.map_some, hv]
          split
          · obtain ⟨bytes, hbytes⟩ := hdictionary
            exact ⟨some bytes, .again ⟨[], rfl⟩ hbytes⟩
          · exact ⟨none, .null⟩
    obtain ⟨args, hargs'⟩ := hseq
    obtain ⟨kwargs, hkwargs'⟩ := hmap
    rw [hindex, hindex]
    exact ⟨⟨args, kwargs, none⟩, extractPayload_eq_ok.mpr ⟨hargs', hkwargs', rfl⟩⟩
  obtain ⟨again, hagain⟩ := hextract
  rw [parseValueParts_payload _ hspec, htake, hagain]
  constructor
  · rintro ⟨scanned, h, rfl⟩
    obtain ⟨head, hhead, h⟩ := Checks.except_bind_eq_ok h
    cases h
    exact ⟨head, hhead, replaceMessagePayload_twice head again payload⟩
  · rintro ⟨head, hhead, rfl⟩
    rw [hhead]
    exact ⟨_, rfl, (replaceMessagePayload_twice head again payload).symm⟩

/-- The scan, once the elements are cut. -/
theorem parseCborMessage_of_cut {data : Bytes} {first : Range}
    {others : List Range} {pieces : List Bytes} {codeValue : Value} {rest : List Value}
    (hranges : cborTopLevelRanges cbor data = .ok (first :: others))
    (hcut : List.Forall₂ (Cut data) (first :: others) pieces)
    (hserves : List.Forall₂ (Serves cbor) pieces (codeValue :: rest)) :
    parseCborMessage cbor (.contiguous data) = (do
      let code ← valueAsU64 codeValue "message code"
      let payload ← cborSpecPayload (.contiguous data) (first :: others) code
      let message ← parseValueParts (serializeValueCbor cbor) code
        (rest.mapIdx fun i v => standIn payload (1 + i) v)
      let message := match payload with
        | some (_, payload) => replaceMessagePayload message payload
        | none => message
      pure { message, raw := .contiguous data, serializer := .cbor }) := by
  cases hcut with
  | cons hfirst hothers =>
      cases hserves with
      | cons hcode hrest =>
          have hfields := fun payload => cborFields_of_cut payload 1 hothers hrest
          simp only [parseCborMessage, RawFrame.asContiguous, hranges,
            cborValue_of_cut hfirst hcode, hfields, Checks.except_ok_bind]
          all_goals rfl

theorem cborSpecPayload_eq_ok {data : Bytes} {ranges : List Range} {pieces : List Bytes}
    {code : Nat} {spec : CborPayloadSpec} {out : Option (CborPayloadSpec × Payload)}
    (hspec : cborPayloadSpec code = some spec) (hcut : List.Forall₂ (Cut data) ranges pieces) :
    cborSpecPayload (.contiguous data) ranges code = .ok out ↔
      ∃ args kwargs, Kept 4 pieces[spec.argsIndex]? args ∧ Kept 5 pieces[spec.kwargsIndex]? kwargs ∧
        out = some (spec, { args, kwargs }) := by
  have hargs := forall₂_getElem? hcut spec.argsIndex
  have hkwargs := forall₂_getElem? hcut spec.kwargsIndex
  rw [cborSpecPayload, hspec]
  constructor
  · intro h
    obtain ⟨payload, hpayload, h⟩ := Checks.except_bind_eq_ok h
    cases h
    obtain ⟨args, ha, hpayload⟩ := Checks.except_bind_eq_ok hpayload
    obtain ⟨kwargs, hk, hpayload⟩ := Checks.except_bind_eq_ok hpayload
    cases hpayload
    exact ⟨args, kwargs, (cborPayloadPart_eq_ok (by decide) hargs).mp ha,
      (cborPayloadPart_eq_ok (by decide) hkwargs).mp hk, rfl⟩
  · rintro ⟨args, kwargs, ha, hk, rfl⟩
    simp only [cborPayload, (cborPayloadPart_eq_ok (by decide) hargs).mpr ha,
      (cborPayloadPart_eq_ok (by decide) hkwargs).mpr hk]
    rfl

theorem accepted_of_cut (hlist : ∃ bytes, cbor.toVec (.seq []) = .ok bytes)
    (hdictionary : ∃ bytes, cbor.toVec (.map []) = .ok bytes) {data : Bytes} {first : Range}
    {others : List Range} {pieces : List Bytes} {codeValue : Value} {rest : List Value}
    {message : WampMessage} (hranges : cborTopLevelRanges cbor data = .ok (first :: others))
    (hcut : List.Forall₂ (Cut data) (first :: others) pieces)
    (hserves : List.Forall₂ (Serves cbor) pieces (codeValue :: rest)) :
    accepted (parseCborMessage cbor (.contiguous data)) = some message ↔
      ∃ code, valueAsU64 codeValue "message code" = .ok code ∧
        Scanned cbor code pieces rest message := by
  rw [accepted_eq_some, parseCborMessage_of_cut hranges hcut hserves]
  constructor
  · rintro ⟨result, h, rfl⟩
    obtain ⟨code, hcode, h⟩ := Checks.except_bind_eq_ok h
    obtain ⟨payload, hpayload, h⟩ := Checks.except_bind_eq_ok h
    obtain ⟨scanned, hscanned, h⟩ := Checks.except_bind_eq_ok h
    cases h
    refine ⟨code, hcode, ?_⟩
    unfold Scanned
    cases hspec : cborPayloadSpec code with
    | none =>
        rw [cborSpecPayload, hspec] at hpayload
        cases hpayload
        rwa [mapIdx_standIn_none] at hscanned
    | some spec =>
        obtain ⟨args, kwargs, ha, hk, rfl⟩ := (cborSpecPayload_eq_ok hspec hcut).mp hpayload
        obtain ⟨head, hhead, hmessage⟩ :=
          (parseValueParts_standIn hlist hdictionary hspec _ rest).mp ⟨scanned, hscanned, rfl⟩
        exact ⟨head, args, kwargs, hhead, ha, hk, hmessage⟩
  · rintro ⟨code, hcode, hscanned⟩
    rw [hcode]
    unfold Scanned at hscanned
    cases hspec : cborPayloadSpec code with
    | none =>
        rw [hspec] at hscanned
        have hpayload : cborSpecPayload (.contiguous data) (first :: others) code = .ok none := by
          rw [cborSpecPayload, hspec]
        simp only [Checks.except_ok_bind, hpayload, mapIdx_standIn_none, hscanned]
        exact ⟨_, rfl, rfl⟩
    | some spec =>
        rw [hspec] at hscanned
        obtain ⟨head, args, kwargs, hhead, ha, hk, rfl⟩ := hscanned
        have hpayload := (cborSpecPayload_eq_ok hspec hcut).mpr ⟨args, kwargs, ha, hk, rfl⟩
        obtain ⟨scanned, hscanned, hmessage⟩ :=
          (parseValueParts_standIn hlist hdictionary hspec _ rest).mpr ⟨head, hhead, rfl⟩
        rw [Checks.except_ok_bind, hpayload, Checks.except_ok_bind, hscanned]
        exact ⟨_, rfl, hmessage.symm⟩

/-- **The scan**: an untagged array, and the message its elements make. -/
theorem accepted_contiguous (lawful : cbor.Lawful m) {data : Bytes} {message : WampMessage} :
    accepted (parseCborMessage cbor (.contiguous data)) = some message ↔
      ∃ pieces codeValue rest code, Cbor.Elements m data pieces (codeValue :: rest) ∧
        valueAsU64 codeValue "message code" = .ok code ∧
        Scanned cbor code pieces rest message := by
  constructor
  · intro h
    obtain ⟨result, hresult, -⟩ := accepted_eq_some.mp h
    obtain ⟨ranges, hranges, -⟩ := Checks.except_bind_eq_ok hresult
    obtain ⟨pieces, values, helements, hcut⟩ := elements_of_cborTopLevelRanges lawful hranges
    have hserves := lawful.serves_all helements.reads
    cases hcut with
    | nil =>
        simp only [parseCborMessage, RawFrame.asContiguous, hranges] at hresult
        cases hresult
    | @cons first piece others pieces hfirst hothers =>
        obtain ⟨codeValue, rest, rfl⟩ : ∃ codeValue rest, values = codeValue :: rest := by
          cases hserves with
          | cons => exact ⟨_, _, rfl⟩
        obtain ⟨code, hcode, hscanned⟩ := (accepted_of_cut (lawful.toVec _) (lawful.toVec _)
          hranges (.cons hfirst hothers) hserves).mp h
        exact ⟨_, codeValue, rest, code, helements, hcode, hscanned⟩
  · rintro ⟨pieces, codeValue, rest, code, helements, hcode, hscanned⟩
    obtain ⟨ranges, hranges, hcut⟩ := cborTopLevelRanges_of_elements lawful helements
    obtain ⟨first, others, rfl⟩ : ∃ first others, ranges = first :: others := by
      cases hcut with
      | nil => cases helements.reads
      | cons => exact ⟨_, _, rfl⟩
    exact (accepted_of_cut (lawful.toVec _) (lawful.toVec _) hranges hcut
      (lawful.serves_all helements.reads)).mpr ⟨code, hcode, hscanned⟩

/-! ### Agreement -/

/-- A payload element that both paths hand on alike: the null byte, or an untagged list or
dictionary, written as `serde_cbor` writes it. -/
def PlainPart (cbor : SerdeCbor) (kind : Nat) (piece : Option Bytes) (v : Option Value) : Prop :=
  ∀ bytes value, piece = some bytes → v = some value →
    bytes = [0xf6] ∨ (bytes.head?.map Cbor.major = some kind ∧ cbor.toVec value = .ok bytes)

/-- If the frame is a message, it is an untagged array with a plain payload. -/
def PlainMessage (cbor : SerdeCbor) (m : Cbor.Meaning Value) (data : Bytes) : Prop :=
  ∀ codeValue rest code message,
    Reads (Cbor.decode m) data (.seq (codeValue :: rest)) →
    valueAsU64 codeValue "message code" = .ok code →
    parseValueParts (serializeValueCbor cbor) code rest = .ok message →
    ∃ pieces, Cbor.Elements m data pieces (codeValue :: rest) ∧
      ∀ spec, cborPayloadSpec code = some spec →
        PlainPart cbor 4 pieces[spec.argsIndex]? rest[spec.argsIndex - 1]? ∧
        PlainPart cbor 5 pieces[spec.kwargsIndex]? rest[spec.kwargsIndex - 1]?

/-- What an element of the expected major type stands for. -/
def Stands (m : Cbor.Meaning Value) (kind : Nat) (isKind : Value → Prop) : Prop :=
  ∀ ⦃byte rest v⦄, Cbor.major byte = kind → Reads (Cbor.decode m) (byte :: rest) v → isKind v

theorem stands_seq (lawful : cbor.Lawful m) : Stands m 4 IsSeq := by
  intro byte rest v hmajor h
  obtain ⟨pieces, values, -, rfl⟩ := (Cbor.reads_array hmajor).mp h
  exact ⟨values, lawful.seq values⟩

theorem stands_map (lawful : cbor.Lawful m) : Stands m 5 IsMap := by
  intro byte rest v hmajor h
  obtain ⟨entries, rfl⟩ := Cbor.reads_map hmajor h
  exact lawful.map entries

theorem value_of_null (lawful : cbor.Lawful m) {v : Value}
    (h : Reads (Cbor.decode m) [0xf6] v) : v = .unit := by
  have hnull : Cbor.decode m [0xf6] = (m.simple 22).map (·, []) := Cbor.decode_cons 0xf6 []
  rw [Reads, hnull, lawful.null] at h
  cases h
  rfl

section

variable {kind : Nat} {isKind : Value → Prop} {piece : Option Bytes} {v : Option Value}
  {out : Option Bytes}

/-- What the scan accepts, the other path accepts. -/
theorem Kept.restored (lawful : cbor.Lawful m) (hstands : Stands m kind isKind)
    (hreads : Option.Rel (Reads (Cbor.decode m)) piece v) (h : Kept kind piece out) :
    ∃ again, Restored cbor isKind v again := by
  cases h with
  | absent =>
      cases hreads
      exact ⟨none, .absent⟩
  | null =>
      cases hreads with
      | some hv =>
          cases value_of_null lawful hv
          exact ⟨none, .null⟩
  | asIs hmajor =>
      cases hreads with
      | @some _ v hv =>
          obtain ⟨bytes, hbytes⟩ := lawful.toVec v
          exact ⟨some bytes, .again (hstands hmajor hv) hbytes⟩

theorem Kept.plain (h : Kept kind piece out) (h' : Restored cbor isKind v out) :
    PlainPart cbor kind piece v := by
  rintro bytes value rfl rfl
  cases h with
  | null => exact .inl rfl
  | asIs hmajor =>
      cases h' with
      | again _ hbytes => exact .inr ⟨congrArg some hmajor, hbytes⟩

theorem PlainPart.kept (lawful : cbor.Lawful m) (hunit : ¬isKind .unit)
    (hstands : Stands m kind isKind) (hreads : Option.Rel (Reads (Cbor.decode m)) piece v)
    (h : PlainPart cbor kind piece v) (h' : Restored cbor isKind v out) :
    Kept kind piece out := by
  cases hreads with
  | none =>
      cases h'
      exact .absent
  | @some bytes value hv =>
      rcases h bytes value rfl rfl with rfl | ⟨hmajor, hbytes⟩
      · cases value_of_null lawful hv
        cases h' with
        | null => exact .null
        | again hkind _ => exact absurd hkind hunit
      · cases bytes with
        | nil => cases hmajor
        | cons byte rest =>
            have hkind := hstands (Option.some.inj hmajor) hv
            cases h' with
            | null => exact absurd hkind hunit
            | again _ hout =>
                rw [hbytes] at hout
                cases hout
                exact .asIs (Option.some.inj hmajor)

end

theorem not_isSeq_unit : ¬IsSeq .unit := by
  rintro ⟨_, h⟩
  cases h

theorem not_isMap_unit : ¬IsMap .unit := by
  rintro ⟨_, h⟩
  cases h

/-- A message with a payload, as the segmented path reads it. -/
theorem parseValueParts_eq_ok {code : Nat} {spec : CborPayloadSpec} {rest : List Value}
    {message : WampMessage} (hspec : cborPayloadSpec code = some spec) :
    parseValueParts (serializeValueCbor cbor) code rest = .ok message ↔
      ∃ head args kwargs,
        parseValueParts (serializeValueCbor cbor) code (rest.take (spec.argsIndex - 1)) =
            .ok head ∧
          Restored cbor IsSeq rest[spec.argsIndex - 1]? args ∧
          Restored cbor IsMap rest[spec.kwargsIndex - 1]? kwargs ∧
          message = replaceMessagePayload head { args, kwargs } := by
  rw [parseValueParts_payload _ hspec]
  constructor
  · intro h
    obtain ⟨head, hhead, h⟩ := Checks.except_bind_eq_ok h
    obtain ⟨⟨args, kwargs, transparent⟩, hpayload, h⟩ := Checks.except_bind_eq_ok h
    cases h
    obtain ⟨hargs, hkwargs, htransparent⟩ := extractPayload_eq_ok.mp hpayload
    cases htransparent
    exact ⟨head, args, kwargs, hhead, hargs, hkwargs, rfl⟩
  · rintro ⟨head, args, kwargs, hhead, hargs, hkwargs, rfl⟩
    rw [hhead, Checks.except_ok_bind,
      extractPayload_eq_ok.mpr ⟨hargs, hkwargs, (rfl : (Payload.mk args kwargs none).3 = none)⟩]
    rfl

theorem reads_of_elements (lawful : cbor.Lawful m) {data : Bytes} {pieces : List Bytes}
    {values : List Value} (h : Cbor.Elements m data pieces values) :
    Reads (Cbor.decode m) data (.seq values) := by
  rw [← lawful.seq]
  rcases h.outer with ⟨byte, rest, rfl, hmajor, -⟩ | rfl
  · exact (Cbor.reads_array hmajor).mpr ⟨pieces, values, h, rfl⟩
  · exact (Cbor.reads_array rfl).mpr ⟨pieces, values, h, rfl⟩

section

variable {code : Nat} {pieces : List Bytes} {codeValue : Value} {rest : List Value}
  {message : WampMessage}

/-- The piece of a payload element, and its value. -/
theorem rel_payload (hreads : List.Forall₂ (Reads (Cbor.decode m)) pieces (codeValue :: rest))
    {index : Nat} (hindex : 1 ≤ index) :
    Option.Rel (Reads (Cbor.decode m)) pieces[index]? rest[index - 1]? := by
  have h := forall₂_getElem? hreads index
  rwa [List.getElem?_cons, if_neg (by omega)] at h

/-- The segmented path accepts what the scan accepts. -/
theorem message_of_scanned (lawful : cbor.Lawful m)
    (hreads : List.Forall₂ (Reads (Cbor.decode m)) pieces (codeValue :: rest))
    (h : Scanned cbor code pieces rest message) :
    ∃ again, parseValueParts (serializeValueCbor cbor) code rest = .ok again := by
  unfold Scanned at h
  cases hspec : cborPayloadSpec code with
  | none =>
      rw [hspec] at h
      exact ⟨message, h⟩
  | some spec =>
      rw [hspec] at h
      obtain ⟨head, args, kwargs, hhead, hargs, hkwargs, rfl⟩ := h
      obtain ⟨hindex, hnext⟩ := cborPayloadSpec_indices hspec
      obtain ⟨args', hargs'⟩ :=
        hargs.restored lawful (stands_seq lawful) (rel_payload hreads hindex)
      obtain ⟨kwargs', hkwargs'⟩ :=
        hkwargs.restored lawful (stands_map lawful) (rel_payload hreads (by omega))
      exact ⟨_, (parseValueParts_eq_ok hspec).mpr
        ⟨head, args', kwargs', hhead, hargs', hkwargs', rfl⟩⟩

theorem plain_of_scanned {spec : CborPayloadSpec} (hspec : cborPayloadSpec code = some spec)
    (h : Scanned cbor code pieces rest message)
    (h' : parseValueParts (serializeValueCbor cbor) code rest = .ok message) :
    PlainPart cbor 4 pieces[spec.argsIndex]? rest[spec.argsIndex - 1]? ∧
      PlainPart cbor 5 pieces[spec.kwargsIndex]? rest[spec.kwargsIndex - 1]? := by
  unfold Scanned at h
  rw [hspec] at h
  obtain ⟨head, args, kwargs, hhead, hargs, hkwargs, rfl⟩ := h
  obtain ⟨head', args', kwargs', hhead', hargs', hkwargs', hmessage⟩ :=
    (parseValueParts_eq_ok hspec).mp h'
  rw [hhead] at hhead'
  cases hhead'
  -- the two messages carry the same payload
  have hpayload := congrArg WampMessage.payload? hmessage
  have hsome := payload?_of_parseValueParts hspec head hhead
  rw [payload?_replaceMessagePayload hsome, payload?_replaceMessagePayload hsome] at hpayload
  cases hpayload
  exact ⟨hargs.plain hargs', hkwargs.plain hkwargs'⟩

theorem scanned_of_plain (lawful : cbor.Lawful m)
    (hreads : List.Forall₂ (Reads (Cbor.decode m)) pieces (codeValue :: rest))
    (hplain : ∀ spec, cborPayloadSpec code = some spec →
      PlainPart cbor 4 pieces[spec.argsIndex]? rest[spec.argsIndex - 1]? ∧
        PlainPart cbor 5 pieces[spec.kwargsIndex]? rest[spec.kwargsIndex - 1]?)
    (h : parseValueParts (serializeValueCbor cbor) code rest = .ok message) :
    Scanned cbor code pieces rest message := by
  unfold Scanned
  cases hspec : cborPayloadSpec code with
  | none => exact h
  | some spec =>
      obtain ⟨hargs, hkwargs⟩ := hplain spec hspec
      obtain ⟨hindex, hnext⟩ := cborPayloadSpec_indices hspec
      obtain ⟨head, args, kwargs, hhead, hargs', hkwargs', hmessage⟩ :=
        (parseValueParts_eq_ok hspec).mp h
      refine ⟨head, args, kwargs, hhead, ?_, ?_, hmessage⟩
      · exact hargs.kept lawful not_isSeq_unit (stands_seq lawful) (rel_payload hreads hindex)
          hargs'
      · exact hkwargs.kept lawful not_isMap_unit (stands_map lawful)
          (rel_payload hreads (by omega)) hkwargs'

end

end

/-- **The two CBOR paths.**  The segments of a frame and the frame in one buffer give the same
message with the same payload bytes, or are both rejected, exactly if the frame is plain. -/
theorem cbor_paths_agree (decoders : Decoders) (m : Cbor.Meaning Value)
    (lawful : decoders.cbor.Lawful m) (segments : List Bytes) :
    accepted (parseMessageSegments decoders .cbor segments) =
        accepted (parseMessage decoders .cbor segments.flatten) ↔
      PlainMessage decoders.cbor m segments.flatten := by
  change accepted (parseCborMessage decoders.cbor (.fromSegments segments)) =
    accepted (parseCborMessage decoders.cbor (.contiguous segments.flatten)) ↔ _
  constructor
  · intro h codeValue rest code message hreads hcode hmessage
    have hsegmented := (accepted_segmented lawful).mpr
      ⟨codeValue, rest, code, hreads, hcode, hmessage⟩
    rw [h] at hsegmented
    obtain ⟨pieces, codeValue', rest', code', helements, hcode', hscanned⟩ :=
      (accepted_contiguous lawful).mp hsegmented
    have hsame := (reads_of_elements lawful helements).symm.trans hreads
    cases hsame
    rw [hcode] at hcode'
    cases hcode'
    exact ⟨pieces, helements, fun spec hspec => plain_of_scanned hspec hscanned hmessage⟩
  · intro hplain
    apply Option.ext
    intro message
    constructor
    · intro h
      obtain ⟨codeValue, rest, code, hreads, hcode, hmessage⟩ := (accepted_segmented lawful).mp h
      obtain ⟨pieces, helements, hparts⟩ :=
        hplain codeValue rest code message hreads hcode hmessage
      exact (accepted_contiguous lawful).mpr ⟨pieces, codeValue, rest, code, helements, hcode,
        scanned_of_plain lawful helements.reads hparts hmessage⟩
    · intro h
      obtain ⟨pieces, codeValue, rest, code, helements, hcode, hscanned⟩ :=
        (accepted_contiguous lawful).mp h
      obtain ⟨again, hagain⟩ := message_of_scanned lawful helements.reads hscanned
      have hreads := reads_of_elements lawful helements
      obtain ⟨pieces', helements', hparts⟩ :=
        hplain codeValue rest code again hreads hcode hagain
      have hcontiguous := (accepted_contiguous lawful).mpr ⟨pieces', codeValue, rest, code,
        helements', hcode, scanned_of_plain lawful helements'.reads hparts hagain⟩
      rw [h] at hcontiguous
      cases hcontiguous
      exact (accepted_segmented lawful).mpr ⟨codeValue, rest, code, hreads, hcode, hagain⟩

/-! ### A decoder, and a frame -/

/-- The values of the items, with the entries of a map as they come. -/
def serdeValue : Cbor.Meaning Value where
  int := .int
  bytes := .bytes
  text bytes := (String.fromUTF8? ⟨bytes.toArray⟩).map .string
  seq := .seq
  map := .map
  simple
    | 20 => some (.bool false)
    | 21 => some (.bool true)
    | 22 | 23 => some .unit
    | _ => none
  float _ bits := .float (UInt64.ofNat bits)

def writeString (s : String) : Bytes := Cbor.head 3 s.toUTF8.size ++ s.toUTF8.toList

mutual

def writeValue : Value → Bytes
  | .bool b => [if b then 0xf5 else 0xf4]
  | .int (.ofNat n) => Cbor.head 0 n
  | .int (.negSucc n) => Cbor.head 1 n
  | .float bits => 0xfb :: BigEndian.write 8 bits.toNat
  | .char ch => writeString ch.toString
  | .string s => writeString s
  | .unit => [0xf6]
  | .bytes b => Cbor.head 2 b.length ++ b
  | .seq items => Cbor.head 4 items.length ++ writeItems items
  | .map entries => Cbor.head 5 entries.length ++ writeEntries entries

def writeItems : List Value → Bytes
  | [] => []
  | v :: rest => writeValue v ++ writeItems rest

def writeEntries : List (Value × Value) → Bytes
  | [] => []
  | entry :: rest => writeEntry entry ++ writeEntries rest

def writeEntry : Value × Value → Bytes
  | (key, v) => writeValue key ++ writeValue v

end

def serdeCbor : SerdeCbor where
  value bytes :=
    match Cbor.decode serdeValue bytes with
    | some (v, _) => .ok v
    | none => .error "malformed"
  ignored bytes :=
    match Cbor.decode serdeValue bytes with
    | some (_, rest) => .ok (bytes.length - rest.length)
    | none => .error "malformed"
  document bytes :=
    match Cbor.decode serdeValue bytes with
    | some (v, []) => .ok v
    | _ => .error "malformed"
  toVec v := .ok (writeValue v)

theorem lawful_serdeCbor : serdeCbor.Lawful serdeValue where
  value bytes v := by
    simp only [serdeCbor]
    cases h : Cbor.decode serdeValue bytes with
    | none => simp
    | some r => simp [Prod.ext_iff]
  ignored bytes n := by
    simp only [serdeCbor]
    cases h : Cbor.decode serdeValue bytes with
    | none => simp
    | some r =>
        have := Cbor.element_decode.isLocal.length_le h
        simp only [Except.ok.injEq, Option.some.injEq]
        constructor
        · rintro rfl
          exact ⟨r.1, r.2, rfl, by omega⟩
        · rintro ⟨v, rest, rfl, hn⟩
          dsimp only at this ⊢
          omega
  document bytes v := by
    simp only [serdeCbor, Reads]
    cases h : Cbor.decode serdeValue bytes with
    | none => simp
    | some r =>
        obtain ⟨w, rest⟩ := r
        cases rest <;> simp
  seq _ := rfl
  map entries := ⟨entries, rfl⟩
  null := rfl
  toVec v := ⟨writeValue v, rfl⟩

/-- `serdeCbor`, and no other serializer. -/
def cborDecoders : Decoders where
  json := ⟨fun _ => .error "", fun _ => .error "", fun _ => none, fun _ => .error ""⟩
  rmp := ⟨fun _ => none, fun _ => none, fun _ => .error ""⟩
  cbor := serdeCbor
  flatbuffers _ := .error (.unsupportedSerializer .flatbuffers)

/-- A RESULT of request 7 with the argument 1, in two segments. -/
def plainResult : List Bytes := [[0x84, 0x18, 0x32, 0x07, 0xa0], [0x81, 0x01]]

theorem plainResult_plain : PlainMessage cborDecoders.cbor serdeValue plainResult.flatten :=
  (cbor_paths_agree cborDecoders serdeValue lawful_serdeCbor plainResult).mp rfl

/-- The same RESULT, with its argument in one byte more than it needs. -/
def wideResult : List Bytes := [[0x84, 0x18, 0x32, 0x07, 0xa0], [0x81, 0x18, 0x01]]

/-- The segmented path shortens the argument, the scan keeps it. -/
theorem wideResult_differs :
    cborDecoders.cbor.Lawful serdeValue ∧
      accepted (parseMessageSegments cborDecoders .cbor wideResult) ≠
        accepted (parseMessage cborDecoders .cbor wideResult.flatten) := by
  refine ⟨lawful_serdeCbor, fun h => ?_⟩
  have hsegmented : (accepted (parseMessageSegments cborDecoders .cbor wideResult)).bind
      WampMessage.payload? = some ⟨some [0x81, 0x01], none, none⟩ := by decide +kernel
  have hcontiguous : (accepted (parseMessage cborDecoders .cbor wideResult.flatten)).bind
      WampMessage.payload? = some ⟨some [0x81, 0x18, 0x01], none, none⟩ := by decide +kernel
  rw [h, hcontiguous] at hsegmented
  exact absurd hsegmented (by decide)

end Wamp

end Connectanum
