import Connectanum.Serializer.JsonMessage

/-!
# Serializer — JSON messages with one binary argument

A long frame that ends in `["\u0000…"]]` is not parsed as a whole: its start is deserialized with
`[]` in place of the arguments, and the bytes are decoded on their own.

* `deserializeSingleBinaryPayload`, `deserializeSingleBinaryPayloadFromString`: the fast paths of
  binary and of text frames;
* `generic_of_start`: what the start of a frame says about the whole frame;
* `single_binary_fast_path`: with the fast paths and without them, the same is deserialized.
-/

namespace Connectanum.JsonSerializer

open Json

/-- `CanonicalBase64ByteDecoder`: it decodes canonical base64 only, or declines. -/
structure CanonicalBase64ByteDecoder where
  decode : List UInt8 → Option (List UInt8)
  canonical : ∀ input bytes, decode input = some bytes →
    Base64.decode (input.map (·.toUInt16)) = some bytes

def minimumSingleBinaryFastPathBytes : Nat := 1024

/-- Where the arguments of a frame of this shape begin: at the first comma that is followed by
`["\u0000`. -/
def argumentsStart (payload : Text) : Option Nat :=
  let n := payload.length
  if n < minimumSingleBinaryFastPathBytes ∨ payload[0]? ≠ some 0x5B ∨
      payload[n - 3]? ≠ some 0x22 ∨ payload[n - 2]? ≠ some 0x5D ∨ payload[n - 1]? ≠ some 0x5D then
    none
  else
    (List.range' 1 (n - nulString.length - 3)).find? fun index =>
      payload[index - 1]? == some 0x2C && nulString.isPrefixOf (payload.drop index)

/-- What stands between the start of the arguments and the end of a frame. -/
def between {α : Type} (payload : List α) (start : Nat) : List α :=
  (payload.drop (start + nulString.length)).take
    (payload.length - 3 - (start + nulString.length))

/-- The arguments of the message are an empty list, and there are no keyword arguments. -/
def Message.isBare (message : Message) : Bool :=
  message.arguments.any (·.isEmpty) && message.argumentsKeywords.isNone

/-- `Utf8Decoder.convert`, which leaves out a byte order mark at the start. -/
def utf8Convert (bytes : List UInt8) : Option Text :=
  (Utf8.chars (match bytes with
    | 0xEF :: 0xBB :: 0xBF :: rest => rest
    | bytes => bytes)).map Utf16.encode

section

variable (sdkBase64 : Text → Except Thrown (List UInt8)) {Control : Type}
  (control : Int → List Value → Except Thrown (Option Control))
  (canonicalBase64ByteDecoder : Option CanonicalBase64ByteDecoder)

/-- `_deserializeSingleBinaryPayloadFromString`, where `fromString` deserializes the start. -/
def deserializeSingleBinaryPayloadFromString
    (fromString : Text → Except Thrown (Option (Decoded Control))) (payload : Text) :
    Option Message :=
  match canonicalBase64ByteDecoder, argumentsStart payload with
  | some decoder, some start =>
      match fromString (payload.take start ++ [0x5B, 0x5D, 0x5D]) with
      | .ok (some (.payload message)) =>
          if message.isBare then
            let encoded := between payload start
            if encoded.all (· ≤ 0x7F) then
              (decoder.decode (encoded.map (·.toUInt8))).map fun binary =>
                { message with arguments := some [.binary binary] }
            else none
          else none
      | _ => none
  | _, _ => none

/-- `deserializeFromString`; it calls itself on a shorter text, at most `fuel` times. -/
def fromStringUpTo : Nat → Text → Except Thrown (Option (Decoded Control))
  | 0, jsonMessage => deserializeGeneric sdkBase64 control jsonMessage
  | fuel + 1, jsonMessage =>
      match deserializeSingleBinaryPayloadFromString canonicalBase64ByteDecoder
        (fromStringUpTo fuel) jsonMessage with
      | some message => .ok (some (.payload message))
      | none => deserializeGeneric sdkBase64 control jsonMessage

def deserializeFromString (jsonMessage : Text) : Except Thrown (Option (Decoded Control)) :=
  fromStringUpTo sdkBase64 control canonicalBase64ByteDecoder jsonMessage.length jsonMessage

/-- `_deserializeSingleBinaryPayload`. -/
def deserializeSingleBinaryPayload (payload : List UInt8) : Option Message :=
  match argumentsStart (payload.map (·.toUInt16)) with
  | none => none
  | some start =>
      match utf8Convert (payload.take start ++ [0x5B, 0x5D, 0x5D]) with
      | none => none
      | some text =>
          match deserializeFromString sdkBase64 control canonicalBase64ByteDecoder text with
          | .ok (some (.payload message)) =>
              if message.isBare then
                let encoded := between payload start
                let binary := (canonicalBase64ByteDecoder.bind (·.decode encoded)).or
                  (Base64.decode (encoded.map (·.toUInt16)))
                binary.map fun binary =>
                  { message with
                    arguments := some [.binary binary]
                    argumentsBytes := some ((payload.drop start).take
                      (payload.length - 1 - start)) }
              else none
          | _ => none

def deserialize (payload : List UInt8) : Except Thrown (Option (Decoded Control)) :=
  match deserializeSingleBinaryPayload sdkBase64 control canonicalBase64ByteDecoder payload with
  | some message => .ok (some (.payload message))
  | none =>
      match utf8Convert payload with
      | none => .error .malformed
      | some text => deserializeFromString sdkBase64 control canonicalBase64ByteDecoder text

end

/-! ### The header -/

section

variable {sdkBase64 : Text → Except Thrown (List UInt8)}

theorem item_append {items tail : List Value} {index : Nat} (h : index < items.length) :
    item (items ++ tail) index = item items index := by
  rw [item, item, List.getElem?_append_left h]

/-- The header is read from the fields before the payload. -/
theorem decodeHeader_append {type : MessageType} {items : List Value} (tail : List Value)
    (h : type.argumentsOffset ≤ items.length) :
    decodeHeader sdkBase64 (items ++ tail) type = decodeHeader sdkBase64 items type := by
  have hitem : ∀ index < type.argumentsOffset, item (items ++ tail) index = item items index :=
    fun index hindex => item_append (Nat.lt_of_lt_of_le hindex h)
  cases type with
  | error =>
      simp only [decodeHeader, hitem 1 (by decide), hitem 2 (by decide), hitem 3 (by decide),
        hitem 4 (by decide)]
  | call | publish | event | invocation =>
      simp only [decodeHeader, hitem 1 (by decide), hitem 2 (by decide), hitem 3 (by decide)]
  | result | yield =>
      simp only [decodeHeader, hitem 1 (by decide), hitem 2 (by decide)]

theorem lift_ok {α : Type} {x : Except String α} {a : α} (h : Thrown.lift x = .ok a) :
    x = .ok a := by
  cases x with
  | error e => cases h
  | ok b =>
      cases h
      rfl

theorem bind_ok {α β : Type} {x : Except Thrown α} {f : α → Except Thrown β} {b : β}
    (h : (x >>= f) = .ok b) : ∃ a, x = .ok a ∧ f a = .ok b := by
  cases x with
  | error e => cases h
  | ok a => exact ⟨a, rfl, h⟩

/-- A bare message was read from a list that ends in its arguments, which are empty. -/
theorem addPayload_bare {header : Header} {items : List Value} {offset : Nat} {message : Message}
    (h : addPayload sdkBase64 header (items ++ [.list []]) offset = .ok message)
    (hbare : message.isBare = true) :
    items.length = offset ∧ message = { header := header, arguments := some [] } := by
  obtain ⟨_, -, h⟩ := bind_ok h
  rcases Nat.lt_trichotomy items.length offset with hlt | rfl | hgt
  · rw [List.drop_eq_nil_of_le (by rw [List.length_append]; exact hlt)] at h
    cases h
    cases hbare
  · rw [List.drop_left] at h
    cases h
    exact ⟨rfl, rfl⟩
  · -- the arguments are an earlier field, so that there is a field after them
    obtain ⟨first, rest, hrest⟩ : ∃ first rest, items.drop offset = first :: rest := by
      cases hdrop : items.drop offset with
      | nil => exact absurd (List.drop_eq_nil_iff.mp hdrop) (Nat.not_le_of_lt hgt)
      | cons first rest => exact ⟨first, rest, rfl⟩
    obtain ⟨second, more, hmore⟩ : ∃ second more, rest ++ [Value.list []] = second :: more := by
      cases rest with
      | nil => exact ⟨_, _, rfl⟩
      | cons second more => exact ⟨second, more ++ [.list []], rfl⟩
    rw [List.drop_append_of_le_length (Nat.le_of_lt hgt), hrest, List.cons_append, hmore] at h
    cases first with
    | list arguments =>
        cases second with
        | object members =>
            obtain ⟨_, -, h⟩ := bind_ok h
            obtain ⟨_, -, h⟩ := bind_ok h
            obtain ⟨_, -, h⟩ := bind_ok h
            cases h
            rw [Message.isBare] at hbare
            simp at hbare
        | null | bool | number | string | list => cases h
    | null | bool | number | string | object => cases h

theorem normalizeItems_binary {body : Text} {binary : List UInt8}
    (hdecode : Base64.decode body = some binary) :
    normalizeItems sdkBase64 [.string (0 :: body)] 1 = .ok [.binary binary] := by
  have hconvert : convertStringToUint8List sdkBase64 (0 :: body) = .ok binary := by
    change decodeBase64Bytes sdkBase64 body = .ok binary
    rw [decodeBase64Bytes, hdecode]
  have hnormalize : normalizeJsonPayloadFragment sdkBase64 (.string (0 :: body)) 1 =
      .ok (.binary binary) := by
    change (convertStringToUint8List sdkBase64 (0 :: body)).map Fragment.binary = _
    rw [hconvert]
    rfl
  rw [normalizeItems, hnormalize]
  rfl

theorem addPayload_binary {header : Header} {items : List Value} {body : Text}
    {binary : List UInt8} (hdecode : Base64.decode body = some binary)
    (hcount : validateWampMessageFieldCount (items.length + 1) = .ok ()) :
    addPayload sdkBase64 header (items ++ [.list [.string (0 :: body)]]) items.length =
      .ok { header := header, arguments := some [.binary binary] } := by
  unfold addPayload
  rw [List.length_append, List.length_singleton, hcount, List.drop_left]
  change (normalizeItems sdkBase64 [.string (0 :: body)] 1 >>= _) = _
  rw [normalizeItems_binary hdecode]
  rfl

/-! ### The whole frame -/

section

variable {Control : Type} {control : Int → List Value → Except Thrown (Option Control)}

theorem value_of_generic {text : Text} {d : Decoded Control}
    (h : deserializeGeneric sdkBase64 control text = .ok (some d)) :
    ∃ v, Json.decode text = some v ∧ deserializeValue sdkBase64 control v = .ok (some d) := by
  unfold deserializeGeneric at h
  split at h
  · cases h
  · next v hv => exact ⟨v, hv, h⟩

/-- The messages that carry a payload, by their parts. -/
theorem deserializeValue_payload {items : List Value} {message : Message}
    (h : deserializeValue sdkBase64 control (.list items) = .ok (some (.payload message))) :
    ∃ first rest messageId type header, items = first :: rest ∧ readInt first = .ok messageId ∧
      validateWampMessageMinimumFieldCount messageId items.length = .ok () ∧
      messageType messageId = some type ∧ decodeHeader sdkBase64 items type = .ok header ∧
      addPayload sdkBase64 header items type.argumentsOffset = .ok message := by
  cases items with
  | nil => cases h
  | cons first rest =>
      unfold deserializeValue at h
      dsimp only at h
      split at h
      · cases h
      · next messageId hid =>
          obtain ⟨_, hcount, h⟩ := bind_ok h
          split at h
          · next type htype =>
              obtain ⟨header, hheader, h⟩ := bind_ok h
              obtain ⟨message', hmessage, h⟩ := bind_ok h
              cases h
              exact ⟨first, rest, messageId, type, header, rfl, hid, lift_ok hcount, htype, hheader,
                hmessage⟩
          · cases hcontrol : control messageId (first :: rest) with
            | error e =>
                rw [hcontrol] at h
                cases h
            | ok c =>
                rw [hcontrol] at h
                cases c with
                | none => cases h
                | some c => cases h

theorem plain_of_letter {c : UInt16} (h : Base64.Letter c) : plain c = true := by
  obtain ⟨hlow, -, hslash⟩ := h.bounds
  rw [plain, Bool.and_eq_true, Bool.and_eq_true, bne_iff_ne, bne_iff_ne, decide_eq_true_eq]
  refine ⟨⟨?_, ?_⟩, UInt16.le_iff_toNat_le.mpr (Nat.le_trans (by decide) hlow)⟩
  · rintro rfl
    exact absurd hlow (by decide)
  · rintro rfl
    exact hslash rfl

/-- **What the start of a frame says about the frame.** -/
theorem generic_of_start {start body : Text} {message : Message} {binary : List UInt8}
    (h : deserializeGeneric sdkBase64 control (start ++ [0x5B, 0x5D, 0x5D]) =
      .ok (some (.payload message)))
    (hbare : message.isBare = true) (hdecode : Base64.decode body = some binary) :
    deserializeGeneric sdkBase64 control
        (start ++ ((nulString ++ (body ++ [0x22, 0x5D])) ++ [0x5D])) =
      .ok (some (.payload { message with arguments := some [.binary binary] })) ∧
    message.argumentsBytes = none := by
  obtain ⟨v, hv, h⟩ := value_of_generic h
  obtain ⟨items, rfl, hread⟩ := decode_closed hv
  have hplain : ∀ c ∈ body, plain c = true := fun c hc =>
    plain_of_letter (Base64.letters_of_decode hdecode c hc)
  rw [deserializeGeneric, hread _ _ (completes_nulString hplain)]
  dsimp only
  obtain ⟨first, rest, messageId, type, header, hitems, hid, hcount, htype, hheader, hpayload⟩ :=
    deserializeValue_payload h
  obtain ⟨hlength, rfl⟩ := addPayload_bare hpayload hbare
  refine ⟨?_, rfl⟩
  have hheader' : ∀ tail, decodeHeader sdkBase64 (items ++ tail) type = .ok header := fun tail => by
    rw [decodeHeader_append tail (Nat.le_of_eq hlength.symm), ← hheader,
      decodeHeader_append _ (Nat.le_of_eq hlength.symm)]
  obtain ⟨_, hfields, -⟩ := bind_ok hpayload
  have hfields := lift_ok hfields
  rw [List.length_append, List.length_singleton] at hfields hcount
  cases items with
  | nil =>
      rw [List.length_nil] at hlength
      cases type <;> cases hlength
  | cons first' rest' =>
      obtain rfl : first' = first := (List.cons.inj hitems).1
      rw [List.cons_append, deserializeValue, hid]
      dsimp only
      rw [← List.cons_append, List.length_append, List.length_singleton, hcount, htype]
      change (decodeHeader sdkBase64 _ type >>= _) = _
      rw [hheader']
      change (addPayload sdkBase64 header _ type.argumentsOffset >>= _) = _
      rw [← hlength, addPayload_binary hdecode hfields]
      rfl

/-! ### The shape -/

theorem drop_of_last_three {α : Type} {l : List α} {a b c : α} (hn : 3 ≤ l.length)
    (ha : l[l.length - 3]? = some a) (hb : l[l.length - 2]? = some b)
    (hc : l[l.length - 1]? = some c) : l.drop (l.length - 3) = [a, b, c] := by
  refine List.ext_getElem? fun i => ?_
  rw [List.getElem?_drop]
  match i with
  | 0 => exact ha
  | 1 =>
      rw [show l.length - 3 + 1 = l.length - 2 by omega, hb]
      rfl
  | 2 =>
      rw [show l.length - 3 + 2 = l.length - 1 by omega, hc]
      rfl
  | i + 3 =>
      rw [List.getElem?_eq_none (by omega)]
      rfl

/-- A frame with the shape, by its parts. -/
theorem split_of_start {payload : Text} {start : Nat} (h : argumentsStart payload = some start) :
    0 < start ∧ payload[0]? = some 0x5B ∧
      payload = payload.take start ++
        ((nulString ++ (between payload start ++ [0x22, 0x5D])) ++ [0x5D]) := by
  unfold argumentsStart at h
  dsimp only at h
  split at h
  · cases h
  · next hshape =>
      simp only [not_or, not_not, Nat.not_lt] at hshape
      obtain ⟨hlength, hfirst, hquote, hclose, hend⟩ := hshape
      have hlength : 1024 ≤ payload.length := hlength
      have hnul : nulString.length = 8 := rfl
      have hmem := List.mem_range'_1.mp (List.mem_of_find?_eq_some h)
      have hfound := List.find?_some h
      rw [Bool.and_eq_true, List.isPrefixOf_iff_prefix] at hfound
      obtain ⟨rest, hrest⟩ := hfound.2
      have hdrop : payload.drop (start + nulString.length) = rest := by
        rw [← List.drop_drop, ← hrest, List.drop_left]
      have hlast := drop_of_last_three (by omega) hquote hclose hend
      refine ⟨by omega, hfirst, ?_⟩
      have hbetween : rest = between payload start ++ [0x22, 0x5D, 0x5D] := by
        rw [between, hdrop, ← hlast]
        have hsplit := List.take_append_drop (payload.length - 3 - (start + nulString.length)) rest
        rw [← hdrop, List.drop_drop] at hsplit
        rw [← hdrop]
        rw [show start + nulString.length + (payload.length - 3 - (start + nulString.length)) =
          payload.length - 3 by omega] at hsplit
        exact hsplit.symm
      calc payload = payload.take start ++ payload.drop start := (List.take_append_drop ..).symm
        _ = payload.take start ++ (nulString ++ rest) := by rw [hrest]
        _ = _ := by rw [hbetween]; simp

/-! ### The string path -/

variable {canonicalBase64ByteDecoder : Option CanonicalBase64ByteDecoder}

theorem ascii_units {units : Text} (h : units.all (· ≤ 0x7F) = true) :
    (units.map (·.toUInt8)).map (·.toUInt16) = units := by
  rw [List.all_eq_true] at h
  rw [List.map_map]
  refine (List.map_congr_left fun c hc => ?_).trans (List.map_id _)
  have hle : c.toNat ≤ 0x7F := UInt16.le_iff_toNat_le.mp (of_decide_eq_true (h c hc))
  refine UInt16.toNat_inj.mp ?_
  simp only [Function.comp_apply, UInt8.toNat_toUInt16, UInt16.toNat_toUInt8, id_eq]
  omega

/-- A message of the fast path is the one of the generic path. -/
theorem generic_of_fromString
    {fromString : Text → Except Thrown (Option (Decoded Control))} {payload : Text}
    {message : Message}
    (hfrom : ∀ text, fromString text = deserializeGeneric sdkBase64 control text)
    (h : deserializeSingleBinaryPayloadFromString canonicalBase64ByteDecoder fromString payload =
      some message) :
    deserializeGeneric sdkBase64 control payload = .ok (some (.payload message)) := by
  unfold deserializeSingleBinaryPayloadFromString at h
  split at h
  · next decoder start hstart =>
      split at h
      · next bare hbare =>
          split at h
          · next hempty =>
              dsimp only at h
              split at h
              · next hascii =>
                  obtain ⟨binary, hbinary, rfl⟩ := Option.map_eq_some_iff.mp h
                  rw [hfrom] at hbare
                  have hcanonical := decoder.canonical _ _ hbinary
                  rw [ascii_units hascii] at hcanonical
                  rw [(split_of_start hstart).2.2]
                  exact (generic_of_start hbare hempty hcanonical).1
              · cases h
          · cases h
      · cases h
  · cases h

theorem fromStringUpTo_eq (fuel : Nat) (text : Text) :
    fromStringUpTo sdkBase64 control canonicalBase64ByteDecoder fuel text =
      deserializeGeneric sdkBase64 control text := by
  induction fuel generalizing text with
  | zero => rfl
  | succ fuel ih =>
      rw [fromStringUpTo]
      split
      · next message hmessage => exact (generic_of_fromString ih hmessage).symm
      · rfl

theorem deserializeFromString_eq (text : Text) :
    deserializeFromString sdkBase64 control canonicalBase64ByteDecoder text =
      deserializeGeneric sdkBase64 control text :=
  fromStringUpTo_eq _ text

/-! ### The byte path -/

theorem unitsOf_ascii {b : UInt8} (h : b.toNat < 0x80) :
    Utf16.unitsOf (Char.ofNat b.toNat) = [b.toUInt16] := by
  have hall := forall_byte (p := fun b => b.toNat < 0x80 →
    Utf16.unitsOf (Char.ofNat b.toNat) = [b.toUInt16]) (by decide +kernel)
  exact hall b h

theorem encode_ascii {bytes : List UInt8} (h : Utf8.Plain bytes) :
    Utf16.encode (bytes.map fun b => Char.ofNat b.toNat) = bytes.map (·.toUInt16) := by
  induction bytes with
  | nil => rfl
  | cons b bs ih =>
      rw [List.map_cons, Utf16.encode, List.flatMap_cons,
        unitsOf_ascii (h b (List.mem_cons_self ..))]
      exact congrArg (b.toUInt16 :: ·) (ih fun c hc => h c (List.mem_cons_of_mem _ hc))

/-- A plain end is converted on its own. -/
theorem utf8Convert_append {start tail : List UInt8} (hstart : start[0]? = some 0x5B)
    (htail : Utf8.Plain tail) :
    utf8Convert (start ++ tail) =
      (Utf8.chars start).map fun chars => Utf16.encode chars ++ tail.map (·.toUInt16) := by
  cases start with
  | nil => cases hstart
  | cons b rest =>
      obtain rfl : b = 0x5B := Option.some.inj hstart
      change (Utf8.chars (0x5B :: rest ++ tail)).map Utf16.encode = _
      rw [Utf8.chars_append htail, Option.map_map]
      congr 1
      funext chars
      rw [Function.comp_apply, Utf16.encode, List.flatMap_append, ← encode_ascii htail]
      rfl

/-- The generic deserialization of bytes. -/
def genericDeserialize (sdkBase64 : Text → Except Thrown (List UInt8))
    (control : Int → List Value → Except Thrown (Option Control)) (payload : List UInt8) :
    Except Thrown (Option (Decoded Control)) :=
  match utf8Convert payload with
  | none => .error .malformed
  | some text => deserializeGeneric sdkBase64 control text

theorem decode_of_or {encoded binary : List UInt8}
    (h : (canonicalBase64ByteDecoder.bind (·.decode encoded)).or
      (Base64.decode (encoded.map (·.toUInt16))) = some binary) :
    Base64.decode (encoded.map (·.toUInt16)) = some binary := by
  rcases Option.or_eq_some_iff.mp h with h | ⟨-, h⟩
  · obtain ⟨decoder, -, h⟩ := Option.bind_eq_some_iff.mp h
    exact decoder.canonical _ _ h
  · exact h

theorem between_map (payload : List UInt8) (start : Nat) :
    between (payload.map (·.toUInt16)) start = (between payload start).map (·.toUInt16) := by
  simp only [between, List.length_map, List.map_take, List.map_drop]

section Shape

variable {payload : List UInt8} {start : Nat}
  (hstart : argumentsStart (payload.map (·.toUInt16)) = some start)

include hstart

theorem drop_of_start : (payload.drop start).map (·.toUInt16) =
    (nulString ++ (between (payload.map (·.toUInt16)) start ++ [0x22, 0x5D])) ++ [0x5D] := by
  obtain ⟨-, -, hsplit⟩ := split_of_start hstart
  rw [List.map_drop]
  exact List.append_cancel_left ((List.take_append_drop start _).trans hsplit)

theorem first_of_start : (payload.take start)[0]? = some 0x5B := by
  obtain ⟨hpos, hfirst, -⟩ := split_of_start hstart
  rw [List.getElem?_map] at hfirst
  obtain ⟨b, hb, hunit⟩ := Option.map_eq_some_iff.mp hfirst
  have hbyte : b = 0x5B := UInt8.toNat.inj (congrArg UInt16.toNat hunit)
  rw [List.getElem?_take_of_lt hpos, hb, hbyte]

end Shape

/-- Letters, quotes and brackets are ASCII. -/
theorem plain_of_tail {tail : List UInt8} {body : Text}
    (h : tail.map (·.toUInt16) = (nulString ++ (body ++ [0x22, 0x5D])) ++ [0x5D])
    (hbody : ∀ c ∈ body, Base64.Letter c) : Utf8.Plain tail := by
  intro b hb
  have hmem : b.toUInt16 ∈ (nulString ++ (body ++ [0x22, 0x5D])) ++ [0x5D] := by
    rw [← h]
    exact List.mem_map_of_mem hb
  rw [← UInt8.toNat_toUInt16]
  simp only [List.mem_append] at hmem
  have hlist : ∀ c ∈ nulString ++ [0x22, 0x5D] ++ [0x5D], c.toNat < 0x80 := by
    simp [nulString]
  rcases hmem with (hmem | hmem | hmem) | hmem
  · exact hlist _ (List.mem_append_left _ (List.mem_append_left _ hmem))
  · exact Nat.lt_of_le_of_lt (hbody _ hmem).bounds.2.1 (by decide)
  · exact hlist _ (List.mem_append_left _ (List.mem_append_right _ hmem))
  · exact hlist _ (List.mem_append_right _ hmem)

theorem plain_brackets : Utf8.Plain [0x5B, 0x5D, 0x5D] := by
  simp [Utf8.Plain]

/-- What the fast path went through. -/
theorem fast_cases {payload : List UInt8} {message : Message}
    (h : deserializeSingleBinaryPayload sdkBase64 control canonicalBase64ByteDecoder payload =
      some message) :
    ∃ start text bare binary, argumentsStart (payload.map (·.toUInt16)) = some start ∧
      utf8Convert (payload.take start ++ [0x5B, 0x5D, 0x5D]) = some text ∧
      deserializeGeneric sdkBase64 control text = .ok (some (.payload bare)) ∧
      bare.isBare = true ∧
      Base64.decode (between (payload.map (·.toUInt16)) start) = some binary ∧
      message = { bare with
        arguments := some [.binary binary]
        argumentsBytes := some ((payload.drop start).take (payload.length - 1 - start)) } := by
  unfold deserializeSingleBinaryPayload at h
  split at h
  · cases h
  · next start hstart =>
      split at h
      · cases h
      · next text htext =>
          rw [deserializeFromString_eq] at h
          split at h
          · next bare hbare =>
              split at h
              · next hempty =>
                  obtain ⟨binary, hbinary, rfl⟩ := Option.map_eq_some_iff.mp h
                  have hdecode := decode_of_or hbinary
                  rw [← between_map] at hdecode
                  exact ⟨start, text, bare, binary, hstart, htext, hbare, hempty, hdecode, rfl⟩
              · cases h
          · cases h

/-- What a message of the fast path is for the generic path. -/
theorem generic_of_bytes {payload : List UInt8} {message : Message}
    (h : deserializeSingleBinaryPayload sdkBase64 control canonicalBase64ByteDecoder payload =
      some message) :
    genericDeserialize sdkBase64 control payload =
      .ok (some (.payload { message with argumentsBytes := none })) := by
  obtain ⟨start, text, bare, binary, hstart, htext, hbare, hempty, hdecode, rfl⟩ := fast_cases h
  have htail := drop_of_start hstart
  have hplain : Utf8.Plain (payload.drop start) :=
    plain_of_tail htail (Base64.letters_of_decode hdecode)
  have hfirst := first_of_start hstart
  rw [utf8Convert_append hfirst plain_brackets] at htext
  obtain ⟨chars, hchars, rfl⟩ := Option.map_eq_some_iff.mp htext
  have hwhole := utf8Convert_append hfirst hplain
  rw [List.take_append_drop, hchars, htail] at hwhole
  obtain ⟨hgeneric, hnone⟩ := generic_of_start hbare hempty hdecode
  rw [genericDeserialize, hwhole]
  refine hgeneric.trans ?_
  rw [hnone]

/-- The slice that is retained is the text of the arguments. -/
theorem retained_of_bytes {payload : List UInt8} {message : Message}
    (h : deserializeSingleBinaryPayload sdkBase64 control canonicalBase64ByteDecoder payload =
      some message) :
    ∃ bytes items arguments, message.argumentsBytes = some bytes ∧
      message.arguments = some arguments ∧
      Json.decode (bytes.map (·.toUInt16)) = some (.list items) ∧
      normalizeItems sdkBase64 items 1 = .ok arguments := by
  obtain ⟨start, text, bare, binary, hstart, -, -, -, hdecode, rfl⟩ := fast_cases h
  have htail := drop_of_start hstart
  refine ⟨_, _, _, rfl, rfl, ?_, normalizeItems_binary hdecode⟩
  have hslice : ((payload.drop start).take (payload.length - 1 - start)).map (·.toUInt16) =
      nulString ++ (between (payload.map (·.toUInt16)) start ++ [0x22, 0x5D]) := by
    have hlength := congrArg List.length htail
    rw [List.length_map, List.length_drop, List.length_append, List.length_singleton] at hlength
    rw [List.map_take, htail]
    exact List.take_left' (by omega)
  rw [hslice]
  have hplain : ∀ c ∈ between (payload.map (·.toUInt16)) start, plain c = true :=
    fun c hc => plain_of_letter (Base64.letters_of_decode hdecode c hc)
  rw [Json.decode, completes_nulString hplain {} (.inl rfl)]
  rfl

end

end

/-- **The fast path for one binary argument.**  A message that it gives is the one of the generic
path, with the text of its arguments; where it declines, the generic path decides.  In text frames
it makes no difference at all. -/
theorem single_binary_fast_path (sdkBase64 : Text → Except Thrown (List UInt8)) {Control : Type}
    (control : Int → List Value → Except Thrown (Option Control))
    (canonicalBase64ByteDecoder : Option CanonicalBase64ByteDecoder) :
    (∀ payload message,
      deserializeSingleBinaryPayload sdkBase64 control canonicalBase64ByteDecoder payload =
        some message →
      deserialize sdkBase64 control canonicalBase64ByteDecoder payload =
        .ok (some (.payload message)) ∧
      genericDeserialize sdkBase64 control payload =
        .ok (some (.payload { message with argumentsBytes := none })) ∧
      ∃ bytes items arguments, message.argumentsBytes = some bytes ∧
        message.arguments = some arguments ∧
        Json.decode (bytes.map (·.toUInt16)) = some (.list items) ∧
        normalizeItems sdkBase64 items 1 = .ok arguments) ∧
    (∀ payload,
      deserializeSingleBinaryPayload sdkBase64 control canonicalBase64ByteDecoder payload = none →
      deserialize sdkBase64 control canonicalBase64ByteDecoder payload =
        genericDeserialize sdkBase64 control payload) ∧
    ∀ text, deserializeFromString sdkBase64 control canonicalBase64ByteDecoder text =
      deserializeGeneric sdkBase64 control text := by
  refine ⟨fun payload message h => ⟨?_, generic_of_bytes h, retained_of_bytes h⟩,
    fun payload h => ?_, fun text => deserializeFromString_eq text⟩
  · rw [deserialize, h]
  · rw [deserialize, h, genericDeserialize]
    dsimp only
    split
    · rfl
    · exact deserializeFromString_eq _

end Connectanum.JsonSerializer
