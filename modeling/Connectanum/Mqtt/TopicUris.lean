import Connectanum.Lib.Utf8
import Connectanum.Native.Frame
import Connectanum.Serializer.Skipping

/-!
# Mqtt — TopicUris

`MqttTopicUriMapper`: each level of a topic becomes a component of a URI, `s` and the bytes of the level
in hexadecimal digits.

`fromWampUri_eq_ok`, `toWampUri_eq_ok`: what the two functions accept, in terms of the bytes that are
spelled out.  A decoded topic has lost a byte order mark at its start, and two URIs may then stand for
one topic (`topic_uri_bijection`).
-/

namespace Connectanum

namespace Mqtt

namespace TopicUris

open Wamp (Bytes)

/-- The code units of a Dart string. -/
abbrev Text := List UInt16

def text (s : String) : Text := Utf16.encode s.toList

/-- `prefix`. -/
def uriPrefix : Text := text "connectanum.mqtt.v1.topic"

/-- `_hex`. -/
def hex : Text := text "0123456789abcdef"

def dot : UInt16 := 0x2E

def levelMark : UInt16 := 0x73

/-- `_validateTopic`. -/
def validateTopic (topic : Text) : Except String Unit :=
  if topic.isEmpty || topic.contains 0 || topic.contains 0x2B || topic.contains 0x23 then
    .error "invalid MQTT topic name"
  else .ok ()

/-! ### `toWampUri` -/

def spellByte (byte : UInt8) : Text :=
  if byte = 0x2F then [dot, levelMark]
  else [hex.getD (byte.toNat / 16) 0, hex.getD (byte.toNat % 16) 0]

def spell (bytes : Bytes) : Text := bytes.flatMap spellByte

def toWampUri (topic : Text) : Except String Text := do
  validateTopic topic
  let bytes := Utf16.toUtf8 topic
  if bytes.length > 65535 || Utf16.ofUtf8 bytes != some topic then
    .error "invalid MQTT topic UTF-8 length"
  else pure (uriPrefix ++ dot :: levelMark :: spell bytes)

/-! ### `fromWampUri` -/

/-- `int.parse` of two digits. -/
def digitsValue (a b : UInt16) : Nat := 16 * hex.idxOf a + hex.idxOf b

/-- The digits of a component, two by two. -/
def digitBytes : Text → Except String Bytes
  | a :: b :: rest =>
      if digitsValue a b = 0x2F then .error "encoded topic level separator"
      else do
        let bytes ← digitBytes rest
        pure (UInt8.ofNat (digitsValue a b) :: bytes)
  | _ => .ok []

def componentBytes (component : Text) : Except String Bytes :=
  match component with
  | [] => .error "noncanonical MQTT gateway URI"
  | mark :: digits =>
      if mark ≠ levelMark || digits.length % 2 = 1 || !digits.all hex.contains then
        .error "noncanonical MQTT gateway URI"
      else digitBytes digits

/-- The loop over the components. -/
def topicBytes : List Text → Except String Bytes
  | [] => .ok []
  | [component] => componentBytes component
  | component :: rest => do
      let level ← componentBytes component
      let bytes ← topicBytes rest
      pure (level ++ 0x2F :: bytes)

def fromWampUri (uri : Text) : Except String Text :=
  if !(uriPrefix ++ [dot]).isPrefixOf uri || uri.length > uriPrefix.length + 2 + 2 * 65535 then
    .error "invalid MQTT gateway URI"
  else do
    let bytes ← topicBytes ((uri.drop (uriPrefix.length + 1)).splitOn dot)
    match Utf16.ofUtf8 bytes with
    | none => .error "invalid MQTT topic UTF-8"
    | some topic => do
        validateTopic topic
        pure topic

/-! ### The spelling of bytes -/

theorem length_spellByte (byte : UInt8) : (spellByte byte).length = 2 := by
  rw [spellByte]
  split <;> rfl

theorem length_spell (bytes : Bytes) : (spell bytes).length = 2 * bytes.length := by
  induction bytes with
  | nil => rfl
  | cons b bytes ih =>
      rw [spell, List.flatMap_cons, List.length_append, length_spellByte, ← spell, ih,
        List.length_cons]
      omega

theorem hex_eq :
    hex = [0x30, 0x31, 0x32, 0x33, 0x34, 0x35, 0x36, 0x37, 0x38, 0x39, 0x61, 0x62, 0x63, 0x64,
      0x65, 0x66] := rfl

/-- A byte that is not the separator has two digits, which stand for it. -/
theorem spellByte_digits (byte : UInt8) : byte ≠ 0x2F →
    ∃ a b, spellByte byte = [a, b] ∧ hex.contains a = true ∧ hex.contains b = true ∧
      digitsValue a b = byte.toNat := by
  have hall : ∀ byte : UInt8, byte = 0x2F ∨
      (hex.contains (hex.getD (byte.toNat / 16) 0) && hex.contains (hex.getD (byte.toNat % 16) 0) &&
        digitsValue (hex.getD (byte.toNat / 16) 0) (hex.getD (byte.toNat % 16) 0) ==
          byte.toNat) = true :=
    forall_byte (by decide +kernel)
  intro hbyte
  rcases hall byte with h | h
  · exact absurd h hbyte
  · rw [Bool.and_eq_true, Bool.and_eq_true, beq_iff_eq] at h
    exact ⟨_, _, if_neg hbyte, h.1.1, h.1.2, h.2⟩

/-- The digits of a value are read back. -/
theorem spellByte_ofNat {a b : UInt16} (ha : a ∈ hex) (hb : b ∈ hex)
    (hvalue : digitsValue a b ≠ 0x2F) :
    UInt8.ofNat (digitsValue a b) ≠ 0x2F ∧ spellByte (UInt8.ofNat (digitsValue a b)) = [a, b] := by
  have hlen : hex.length = 16 := by rw [hex_eq]; rfl
  have hlt := List.idxOf_lt_length_of_mem ha
  have hlt' := List.idxOf_lt_length_of_mem hb
  have hnat : (UInt8.ofNat (digitsValue a b)).toNat = digitsValue a b := by
    rw [UInt8.toNat_ofNat', digitsValue]
    omega
  have hne : UInt8.ofNat (digitsValue a b) ≠ 0x2F := by
    intro h
    exact hvalue (hnat.symm.trans (congrArg UInt8.toNat h))
  have hget {c : UInt16} (hc : c ∈ hex) : hex.getD (hex.idxOf c) 0 = c := by
    have hc' := List.idxOf_lt_length_of_mem hc
    rw [List.getD_eq_getElem?_getD, List.getElem?_eq_getElem hc', List.getElem_idxOf,
      Option.getD_some]
  have hdiv : digitsValue a b / 16 = hex.idxOf a := by
    rw [digitsValue]
    omega
  have hmod : digitsValue a b % 16 = hex.idxOf b := by
    rw [digitsValue]
    omega
  refine ⟨hne, ?_⟩
  rw [spellByte, if_neg hne, hnat, hdiv, hmod, hget ha, hget hb]

theorem digitBytes_spell {bytes : Bytes} (h : 0x2F ∉ bytes) :
    digitBytes (spell bytes) = .ok bytes ∧ (spell bytes).all hex.contains = true := by
  induction bytes with
  | nil => exact ⟨rfl, rfl⟩
  | cons byte bytes ih =>
      have hbyte := List.ne_of_not_mem_cons h
      have hrest := List.not_mem_of_not_mem_cons h
      obtain ⟨a, b, hspell, ha, hb, hvalue⟩ := spellByte_digits byte (Ne.symm hbyte)
      obtain ⟨hread, hall⟩ := ih hrest
      have hcons : spell (byte :: bytes) = a :: b :: spell bytes := by
        rw [spell, List.flatMap_cons, hspell]
        rfl
      have hsep : ¬byte.toNat = 0x2F := fun he => hbyte (UInt8.toNat_inj.mp he).symm
      rw [hcons]
      refine ⟨?_, by rw [List.all_cons, List.all_cons, ha, hb, hall]; rfl⟩
      rw [digitBytes, hvalue, if_neg hsep, hread, UInt8.ofNat_toNat]
      rfl

theorem eq_spell_of_digitBytes {digits : Text} {bytes : Bytes} (hlen : digits.length % 2 ≠ 1)
    (hall : ∀ d ∈ digits, d ∈ hex) (h : digitBytes digits = .ok bytes) :
    digits = spell bytes ∧ 0x2F ∉ bytes := by
  induction digits using digitBytes.induct generalizing bytes with
  | case1 a b rest hsep =>
      rw [digitBytes, if_pos hsep] at h
      cases h
  | case2 a b rest hsep ih =>
      rw [digitBytes, if_neg hsep] at h
      obtain ⟨more, hmore, heq⟩ := Checks.except_bind_eq_ok h
      cases heq
      have ha := hall a (by simp)
      have hb := hall b (by simp)
      obtain ⟨hrest, hno⟩ := ih (by simp only [List.length_cons] at hlen; omega)
        (fun d hd => hall d (by simp [hd])) hmore
      obtain ⟨hne, hspell⟩ := spellByte_ofNat ha hb hsep
      refine ⟨?_, List.not_mem_cons_of_ne_of_not_mem (Ne.symm hne) hno⟩
      rw [spell, List.flatMap_cons, hspell, ← spell, ← hrest]
      rfl
  | case3 digits hshort =>
      match digits with
      | [] =>
          cases h
          exact ⟨rfl, List.not_mem_nil⟩
      | [_] => exact absurd rfl hlen
      | a :: b :: rest => exact absurd rfl (hshort a b rest)

/-- **The components are the levels, each spelled out behind its mark.** -/
theorem componentBytes_eq_ok {component : Text} {bytes : Bytes} :
    componentBytes component = .ok bytes ↔ component = levelMark :: spell bytes ∧ 0x2F ∉ bytes := by
  constructor
  · intro h
    cases component with
    | nil => cases h
    | cons mark digits =>
        rw [componentBytes] at h
        split at h
        · cases h
        · next hgood =>
          simp only [Bool.or_eq_true, decide_eq_true_eq, Bool.not_eq_true', not_or,
            not_not, Bool.not_eq_false, List.all_eq_true, List.contains_iff_mem] at hgood
          obtain ⟨⟨rfl, hlen⟩, hall⟩ := hgood
          obtain ⟨rfl, hno⟩ := eq_spell_of_digitBytes hlen hall h
          exact ⟨rfl, hno⟩
  · rintro ⟨rfl, hno⟩
    obtain ⟨hread, hall⟩ := digitBytes_spell hno
    rw [componentBytes, hall, length_spell, Nat.mul_mod_right]
    exact hread

theorem spell_append (a b : Bytes) : spell (a ++ b) = spell a ++ spell b := List.flatMap_append

theorem intercalate_of_topicBytes {components : List Text} {bytes : Bytes} (hne : components ≠ [])
    (h : topicBytes components = .ok bytes) :
    [dot].intercalate components = levelMark :: spell bytes ∧
      ∀ c ∈ components, ∃ level, c = levelMark :: spell level ∧ 0x2F ∉ level := by
  induction components using topicBytes.induct generalizing bytes with
  | case1 => exact absurd rfl hne
  | case2 component =>
      obtain ⟨rfl, hno⟩ := componentBytes_eq_ok.mp h
      refine ⟨by simp, ?_⟩
      intro c hc
      exact ⟨bytes, List.mem_singleton.mp hc, hno⟩
  | case3 component rest hrest ih =>
      rw [topicBytes] at h
      · obtain ⟨level, hlevel, h⟩ := Checks.except_bind_eq_ok h
        obtain ⟨more, hmore, heq⟩ := Checks.except_bind_eq_ok h
        cases heq
        obtain ⟨rfl, hno⟩ := componentBytes_eq_ok.mp hlevel
        obtain ⟨hjoin, hall⟩ := ih (fun he => hrest he) hmore
        refine ⟨?_, ?_⟩
        · have hsep : spell (0x2F :: more) = dot :: levelMark :: spell more := rfl
          rw [List.intercalate_cons_of_ne_nil (fun he => hrest he), hjoin, spell_append, hsep,
            List.append_assoc, List.cons_append]
          rfl
        · intro c hc
          rcases List.mem_cons.mp hc with rfl | hc
          · exact ⟨level, rfl, hno⟩
          · exact hall c hc
      · exact hrest

theorem dot_not_mem {level : Bytes} (h : 0x2F ∉ level) : dot ∉ levelMark :: spell level := by
  have hhex : dot ∉ hex := by rw [hex_eq]; decide
  have hall := (digitBytes_spell h).2
  rw [List.all_eq_true] at hall
  refine List.not_mem_cons_of_ne_of_not_mem (by decide) fun hd => hhex ?_
  exact List.contains_iff_mem.mp (hall dot hd)

/-- `pending`: the bytes of the level that is being read. -/
theorem topicBytes_spell_from {pending : Bytes} (hpending : 0x2F ∉ pending) (bytes : Bytes) :
    topicBytes ((levelMark :: (spell pending ++ spell bytes)).splitOn dot) =
      .ok (pending ++ bytes) := by
  induction bytes generalizing pending with
  | nil =>
      have happend : spell pending ++ spell [] = spell pending := List.append_nil _
      rw [happend, List.splitOn_eq_singleton (dot_not_mem hpending), List.append_nil]
      exact componentBytes_eq_ok.mpr ⟨rfl, hpending⟩
  | cons byte bytes ih =>
      by_cases hsep : byte = 0x2F
      · -- the level ends here
        subst hsep
        have hcons : levelMark :: (spell pending ++ spell (0x2F :: bytes)) =
            (levelMark :: spell pending) ++ dot :: (levelMark :: (spell [] ++ spell bytes)) := rfl
        rw [hcons, List.splitOn_append_cons_self_of_not_mem (dot_not_mem hpending)]
        rw [topicBytes, componentBytes_eq_ok.mpr ⟨rfl, hpending⟩, ih List.not_mem_nil]
        · rfl
        · exact List.splitOn_ne_nil _ _
      · have hpending' : 0x2F ∉ pending ++ [byte] := by
          rw [List.mem_append, List.mem_singleton, not_or]
          exact ⟨hpending, Ne.symm hsep⟩
        have h := ih hpending'
        rw [spell_append, List.append_assoc, ← spell_append, List.append_assoc] at h
        exact h

theorem topicBytes_spell (bytes : Bytes) :
    topicBytes ((levelMark :: spell bytes).splitOn dot) = .ok bytes :=
  topicBytes_spell_from List.not_mem_nil bytes

theorem spell_injective {a b : Bytes} (h : spell a = spell b) : a = b := by
  have ha := topicBytes_spell a
  rw [h, topicBytes_spell b] at ha
  exact (Except.ok.inj ha).symm

theorem spell_prefix_iff {a b : Bytes} : spell a <+: spell b ↔ a <+: b := by
  constructor
  · intro h
    induction a generalizing b with
    | nil => exact List.nil_prefix
    | cons x a ih =>
        have hlen := h.length_le
        rw [length_spell, length_spell, List.length_cons] at hlen
        cases b with
        | nil => simp at hlen
        | cons y b =>
            obtain ⟨tail, htail⟩ := h
            simp only [spell, List.flatMap_cons, List.append_assoc] at htail
            obtain ⟨hbyte, hrest⟩ := List.append_inj htail
              ((length_spellByte x).trans (length_spellByte y).symm)
            obtain rfl : x = y := by
              have hone := @spell_injective [x] [y]
              simp only [spell, List.flatMap_cons, List.flatMap_nil, hbyte, forall_const] at hone
              exact (List.cons.inj hone).1
            exact (List.prefix_cons_inj x).mpr (ih ⟨tail, hrest⟩)
  · rintro ⟨tail, rfl⟩
    exact ⟨spell tail, (spell_append a tail).symm⟩

/-! ### The two functions -/

theorem toWampUri_eq_ok {topic uri : Text} :
    toWampUri topic = .ok uri ↔ validateTopic topic = .ok () ∧
      (Utf16.toUtf8 topic).length ≤ 65535 ∧ Utf16.ofUtf8 (Utf16.toUtf8 topic) = some topic ∧
      uri = uriPrefix ++ dot :: levelMark :: spell (Utf16.toUtf8 topic) := by
  rw [toWampUri]
  cases validateTopic topic with
  | error e => exact ⟨fun h => (nomatch h), fun h => (nomatch h.1)⟩
  | ok u =>
      change (if _ then _ else _) = _ ↔ _
      by_cases hbad : (decide ((Utf16.toUtf8 topic).length > 65535) ||
          Utf16.ofUtf8 (Utf16.toUtf8 topic) != some topic) = true
      · rw [if_pos hbad]
        rw [Bool.or_eq_true, decide_eq_true_eq, bne_iff_ne] at hbad
        refine ⟨fun h => (nomatch h), fun ⟨_, hlen, hsame, _⟩ => ?_⟩
        rcases hbad with hlong | hother
        · omega
        · exact absurd hsame hother
      · rw [if_neg hbad]
        rw [Bool.or_eq_true, decide_eq_true_eq, bne_iff_ne, not_or, not_not, Nat.not_lt] at hbad
        constructor
        · intro h
          exact ⟨rfl, hbad.1, hbad.2, (Except.ok.inj h).symm⟩
        · rintro ⟨-, -, -, rfl⟩
          rfl

theorem fromWampUri_eq_ok {uri topic : Text} :
    fromWampUri uri = .ok topic ↔ ∃ bytes : Bytes,
      uri = uriPrefix ++ dot :: levelMark :: spell bytes ∧ bytes.length ≤ 65535 ∧
        Utf16.ofUtf8 bytes = some topic ∧ validateTopic topic = .ok () := by
  constructor
  · intro h
    rw [fromWampUri] at h
    split at h
    · cases h
    · next hgood =>
      rw [Bool.or_eq_true, Bool.not_eq_true', decide_eq_true_eq, not_or, Bool.not_eq_false,
        List.isPrefixOf_iff_prefix, Nat.not_lt] at hgood
      obtain ⟨⟨body, rfl⟩, hlen⟩ := hgood
      obtain ⟨bytes, hbytes, hrest⟩ := Checks.except_bind_eq_ok h
      have hdrop : ((uriPrefix ++ [dot]) ++ body).drop (uriPrefix.length + 1) = body := by
        exact List.drop_left' (List.length_append ..)
      rw [hdrop] at hbytes
      obtain ⟨hbody, -⟩ := intercalate_of_topicBytes (List.splitOn_ne_nil _ _) hbytes
      rw [List.intercalate_splitOn] at hbody
      subst hbody
      refine ⟨bytes, by simp, ?_, ?_⟩
      · simp only [List.length_append, List.length_cons, length_spell, List.length_nil] at hlen
        omega
      · cases htopic : Utf16.ofUtf8 bytes with
        | none =>
            rw [htopic] at hrest
            cases hrest
        | some decoded =>
            rw [htopic] at hrest
            obtain ⟨_, hvalid, heq⟩ := Checks.except_bind_eq_ok hrest
            cases heq
            exact ⟨rfl, hvalid⟩
  · rintro ⟨bytes, rfl, hlen, htopic, hvalid⟩
    have hprefix : (uriPrefix ++ [dot]).isPrefixOf
        (uriPrefix ++ dot :: levelMark :: spell bytes) = true :=
      List.isPrefixOf_iff_prefix.mpr ⟨levelMark :: spell bytes, by simp⟩
    have hdrop : (uriPrefix ++ dot :: levelMark :: spell bytes).drop (uriPrefix.length + 1) =
        levelMark :: spell bytes := by
      rw [List.append_cons]
      exact List.drop_left' (List.length_append ..)
    rw [fromWampUri, hprefix, if_neg, hdrop, topicBytes_spell]
    · change (match Utf16.ofUtf8 bytes with | none => _ | some topic => _) = _
      rw [htopic]
      change (validateTopic topic >>= fun _ => pure topic) = _
      rw [hvalid]
      rfl
    · simp only [Bool.not_true, Bool.false_or, decide_eq_true_eq, List.length_append,
        List.length_cons, length_spell]
      omega

/-! ### The bijection -/

def strictUnit (c : UInt16) : Bool :=
  (0x30 ≤ c && c ≤ 0x39) || (0x61 ≤ c && c ≤ 0x7A) || c == 0x5F

/-- `^([0-9a-z_]+\.)*[0-9a-z_]+$`. -/
def StrictUri (uri : Text) : Prop :=
  ∀ component ∈ uri.splitOn dot, component ≠ [] ∧ component.all strictUnit = true

theorem strictUri_spell (bytes : Bytes) : StrictUri (uriPrefix ++ dot :: levelMark :: spell bytes) := by
  have hsplit : uriPrefix.splitOn dot =
      [[0x63, 0x6F, 0x6E, 0x6E, 0x65, 0x63, 0x74, 0x61, 0x6E, 0x75, 0x6D],
        [0x6D, 0x71, 0x74, 0x74], [0x76, 0x31], [0x74, 0x6F, 0x70, 0x69, 0x63]] := rfl
  have hprefix : ∀ c ∈ uriPrefix.splitOn dot, c ≠ [] ∧ c.all strictUnit = true := by
    rw [hsplit]
    decide
  have hhex : hex.all strictUnit = true := by rw [hex_eq]; decide
  rw [List.all_eq_true] at hhex
  intro component hc
  rw [List.splitOn_append_cons_self, List.mem_append] at hc
  rcases hc with hc | hc
  · exact hprefix component hc
  · obtain ⟨level, rfl, hno⟩ :=
      (intercalate_of_topicBytes (List.splitOn_ne_nil _ _) (topicBytes_spell bytes)).2 component hc
    have hall := (digitBytes_spell hno).2
    rw [List.all_eq_true] at hall
    refine ⟨List.cons_ne_nil _ _, ?_⟩
    rw [List.all_cons, Bool.and_eq_true, List.all_eq_true]
    exact ⟨rfl, fun d hd => hhex d (List.contains_iff_mem.mp (hall d hd))⟩

/-- How a URI begins whose topic would begin with a byte order mark. -/
def markedPrefix : Text := text "connectanum.mqtt.v1.topic.sefbbbf"

theorem marked_iff (bytes : Bytes) :
    markedPrefix <+: uriPrefix ++ dot :: levelMark :: spell bytes ↔
      [0xEF, 0xBB, 0xBF] <+: bytes := by
  have hmarked : markedPrefix = uriPrefix ++ ([dot, levelMark] ++ spell [0xEF, 0xBB, 0xBF]) := rfl
  have huri : uriPrefix ++ dot :: levelMark :: spell bytes =
      uriPrefix ++ ([dot, levelMark] ++ spell bytes) := rfl
  rw [hmarked, huri, List.prefix_append_right_inj, List.prefix_append_right_inj, spell_prefix_iff]

/-- **A topic comes back from its URI, and a URI from its topic, unless the URI spells out a byte
order mark first.** -/
theorem topic_uri_bijection (name : Text) :
    (∀ uri, toWampUri name = .ok uri → fromWampUri uri = .ok name ∧ StrictUri uri ∧
      ∀ other, toWampUri other = .ok uri → other = name) ∧
    ∀ topic, fromWampUri name = .ok topic → (toWampUri topic = .ok name ↔ ¬markedPrefix <+: name) ∧
      ∀ other, fromWampUri other = .ok topic → ¬markedPrefix <+: name → ¬markedPrefix <+: other →
        other = name := by
  have hback {topic uri : Text} (h : toWampUri topic = .ok uri) : fromWampUri uri = .ok topic := by
    obtain ⟨hvalid, hlen, hsame, rfl⟩ := toWampUri_eq_ok.mp h
    exact fromWampUri_eq_ok.mpr ⟨_, rfl, hlen, hsame, hvalid⟩
  have hforth {uri topic : Text} (h : fromWampUri uri = .ok topic) :
      toWampUri topic = .ok uri ↔ ¬markedPrefix <+: uri := by
    obtain ⟨bytes, rfl, hlen, htopic, hvalid⟩ := fromWampUri_eq_ok.mp h
    have hbytes := Utf16.toUtf8_of_ofUtf8 htopic
    rw [marked_iff, ← Utf16.unmarked_eq_iff]
    constructor
    · intro hto
      obtain ⟨-, -, -, huri⟩ := toWampUri_eq_ok.mp hto
      have hspell := (List.cons.inj (List.cons.inj (List.append_cancel_left huri)).2).2
      exact hbytes.symm.trans (spell_injective hspell).symm
    · intro hsame
      rw [hsame] at hbytes
      exact toWampUri_eq_ok.mpr ⟨hvalid, by rwa [hbytes], by rwa [hbytes], by rw [hbytes]⟩
  refine ⟨fun uri h => ⟨hback h, ?_, ?_⟩, fun topic h => ⟨hforth h, ?_⟩⟩
  · obtain ⟨-, -, -, rfl⟩ := toWampUri_eq_ok.mp h
    exact strictUri_spell _
  · intro other hother
    exact Except.ok.inj ((hback hother).symm.trans (hback h))
  · intro other hother hname hunmarked
    exact Except.ok.inj (((hforth hother).mpr hunmarked).symm.trans ((hforth h).mpr hname))

/-- Two URIs of the topic `a`. -/
theorem topic_a_has_two_uris :
    fromWampUri (text "connectanum.mqtt.v1.topic.sefbbbf61") = .ok (text "a") ∧
      fromWampUri (text "connectanum.mqtt.v1.topic.s61") = .ok (text "a") ∧
      toWampUri (text "a") = .ok (text "connectanum.mqtt.v1.topic.s61") ∧
      text "connectanum.mqtt.v1.topic.sefbbbf61" ≠ text "connectanum.mqtt.v1.topic.s61" := by
  have hread : Utf8.read [0x61] = some ['a'] := Utf8.read_write ['a']
  have htopic (bytes : Bytes) (h : Utf16.unmarked bytes = [0x61]) :
      Utf16.ofUtf8 bytes = some (text "a") := by
    rw [Utf16.ofUtf8, h, hread]
    rfl
  have hutf8 : Utf16.toUtf8 (text "a") = [0x61] := rfl
  have hmarked : text "connectanum.mqtt.v1.topic.sefbbbf61" =
      uriPrefix ++ dot :: levelMark :: spell [0xEF, 0xBB, 0xBF, 0x61] := rfl
  have hplain : text "connectanum.mqtt.v1.topic.s61" =
      uriPrefix ++ dot :: levelMark :: spell [0x61] := rfl
  refine ⟨fromWampUri_eq_ok.mpr ⟨_, hmarked, by decide, htopic _ rfl, rfl⟩,
    fromWampUri_eq_ok.mpr ⟨_, hplain, by decide, htopic _ rfl, rfl⟩,
    toWampUri_eq_ok.mpr ⟨rfl, ?_, ?_, ?_⟩, fun h => ?_⟩
  · rw [hutf8]
    decide
  · rw [hutf8]
    exact htopic _ rfl
  · rw [hutf8, hplain]
  · have htail := List.append_cancel_left (hmarked.symm.trans (h.trans hplain))
    exact absurd (spell_injective (List.cons.inj (List.cons.inj htail).2).2) (by decide)

end TopicUris

end Mqtt

end Connectanum
