import Connectanum.Flat.Dictionaries
import Connectanum.Lib.CborTrees
import Mathlib.Tactic.IntervalCases

/-!
# Flat — Grammar

What the native CBOR validator accepts, by the grammar of CBOR.

* `Admitted`: what is asked of each item;
* `walk_eq_ok`: a walk succeeds exactly on an item whose items are admitted;
* `native_validate_exact`: the validator accepts exactly the well-formed items within its bounds,
  and refuses everything else with an error of its own.
-/

namespace Connectanum

namespace FlatBuffers

open Cbor (major info argument)
open CborTrees hiding Bytes
open Readers (Reads)
open Scans

/-- The items and parts of strings that one value may have. -/
def maxItems : Nat := 1000000

/-- What is asked of an item at a depth: no nesting below the last level, text in UTF-8, and
different texts for the keys of a dictionary. -/
structure Admitted (metadata : Bool) (depth : Nat) (t : Term) : Prop where
  nests : t.Nests → depth < 64
  text : t.ValidText
  keyed : Native.Scanner.dictionary metadata depth = true → t.Keyed

/-- Between the cursors stands the item. -/
structure Scanned (metadata : Bool) (depth : Nat) (t : Term) (s s' : Cursor) : Prop where
  taken : ∃ used, Written used (.item t) ∧ Takes used t.size s s'
  admitted : t.Every (Admitted metadata) depth
  budget : s'.items ≤ maxItems

structure ScannedAll (metadata : Bool) (depth : Nat) (ts : List Term) (s s' : Cursor) : Prop where
  taken : ∃ used, Written used (.row ts) ∧ Takes used (Term.sizeAll ts) s s'
  admitted : Term.EveryAll (Admitted metadata) depth ts
  budget : s'.items ≤ maxItems

section
variable {metadata : Bool} {depth : Nat} {t : Term} {ts : List Term} {s s₁ s' : Cursor}

theorem scannedAll_nil : ScannedAll metadata depth [] s s' ↔ s' = s ∧ s.items ≤ maxItems := by
  constructor
  · rintro ⟨⟨used, hwritten, htakes⟩, -, hbudget⟩
    cases hwritten
    obtain rfl := takes_nothing_iff.mp htakes
    exact ⟨rfl, hbudget⟩
  · rintro ⟨rfl, hbudget⟩
    exact ⟨⟨[], .nil, takes_nothing _⟩, trivial, hbudget⟩

theorem scannedAll_cons : ScannedAll metadata depth (t :: ts) s s' ↔
    ∃ s₁, Scanned metadata depth t s s₁ ∧ ScannedAll metadata depth ts s₁ s' := by
  constructor
  · rintro ⟨⟨used, hwritten, htakes⟩, ⟨hadmitted, hall⟩, hbudget⟩
    cases hwritten with
    | cons h hs =>
        obtain ⟨s₁, hfront, hback⟩ := htakes.split
        exact ⟨s₁, ⟨⟨_, h, hfront⟩, hadmitted, hback.items_le hbudget⟩, ⟨_, hs, hback⟩, hall, hbudget⟩
  · rintro ⟨s₁, ⟨⟨front, h, hfront⟩, hadmitted, -⟩, ⟨⟨back, hs, hback⟩, hall, hbudget⟩⟩
    exact ⟨⟨front ++ back, .cons h hs, hfront.trans hback⟩, ⟨hadmitted, hall⟩, hbudget⟩

end

namespace Walk

/-! ### Lengths and strings -/

theorem length_eq_ok {info n : Nat} {s s' : Cursor} :
    length info s = .ok (n, s') ↔ ∃ front, Reads (argument info) front n ∧ Takes front 0 s s' := by
  unfold length Reads argument
  by_cases hsmall : info < 24
  · rw [if_pos hsmall, if_pos hsmall]
    constructor
    · intro h
      cases h
      exact ⟨[], rfl, takes_nothing _⟩
    · rintro ⟨front, hfront, htakes⟩
      cases hfront
      obtain rfl := takes_nothing_iff.mp htakes
      rfl
  · rw [if_neg hsmall, if_neg hsmall]
    cases hwidth : Cbor.width info with
    | none =>
        constructor
        · exact fun h => nomatch h
        · rintro ⟨front, hfront, -⟩
          cases hfront
    | some k =>
        dsimp only
        rw [map_eq_ok]
        constructor
        · rintro ⟨front, s₁, htake, heq⟩
          cases heq
          obtain ⟨hlen, htakes⟩ := take_eq_ok.mp htake
          refine ⟨front, Readers.bind_eq_some.mpr ⟨k, front, rfl, ?_⟩, htakes⟩
          refine Readers.map_eq_some.mpr ⟨front, [], ?_, rfl⟩
          exact Readers.take_eq_some.mpr ⟨hlen, (List.append_nil _).symm⟩
        · rintro ⟨front, hfront, htakes⟩
          obtain ⟨k', mid, hk, hread⟩ := Readers.bind_eq_some.mp hfront
          cases hk
          obtain ⟨bytes, rest, htake, heq⟩ := Readers.map_eq_some.mp hread
          cases heq
          obtain ⟨hlen, happ⟩ := Readers.take_eq_some.mp htake
          rw [List.append_nil] at happ
          subst happ
          exact ⟨_, s', take_eq_ok.mpr ⟨hlen, htakes⟩, rfl⟩

/-- What a part of a string is for the walk. -/
def PartText (text : Bool) (part : Bytes) (chars : Text) : Prop :=
  if text then Utf8.chars part = some chars else chars = []

theorem partText_eq_ok {text : Bool} {chars : Text} {s' : Cursor} (part : Bytes) (s₁ : Cursor) :
    (if stringMajor text = 3 then
        match Utf8.chars part with
        | some text => pure text
        | none => fail ()
      else pure [] : Scan Unit Text) s₁ = .ok (chars, s') ↔ s' = s₁ ∧ PartText text part chars := by
  cases text with
  | false =>
      constructor
      · intro h
        cases h
        exact ⟨rfl, rfl⟩
      · rintro ⟨rfl, rfl⟩
        rfl
  | true =>
      rw [if_pos (show stringMajor true = 3 from rfl), PartText, if_pos rfl]
      cases Utf8.chars part with
      | none => exact ⟨(fun h => by cases h), (fun h => by cases h.2)⟩
      | some chars' =>
          constructor
          · intro h
            cases h
            exact ⟨rfl, rfl⟩
          · rintro ⟨rfl, h⟩
            cases h
            rfl

theorem chunk_eq_ok {text : Bool} {info : Nat} {chars : Text} {s s' : Cursor} :
    chunk (stringMajor text) info s = .ok (chars, s') ↔
      ∃ front part, Reads (argument info) front part.length ∧ Takes (front ++ part) 0 s s' ∧
        PartText text part chars := by
  rw [chunk, bind_eq_ok]
  constructor
  · rintro ⟨n, s₁, hn, h⟩
    obtain ⟨front, hfront, htakes⟩ := length_eq_ok.mp hn
    obtain ⟨part, s₂, hpart, hread⟩ := bind_eq_ok.mp h
    obtain ⟨hlen, htakes'⟩ := take_eq_ok.mp hpart
    obtain ⟨rfl, htext⟩ := (partText_eq_ok part s₂).mp hread
    rw [← hlen] at hfront
    exact ⟨front, part, hfront, htakes.trans htakes', htext⟩
  · rintro ⟨front, part, hfront, htakes, htext⟩
    obtain ⟨s₁, hleft, hright⟩ := htakes.cut
    refine ⟨_, s₁, length_eq_ok.mpr ⟨front, hfront, hleft⟩, bind_eq_ok.mpr ⟨part, s', ?_, ?_⟩⟩
    · exact take_eq_ok.mpr ⟨rfl, hright⟩
    · exact (partText_eq_ok part s').mpr ⟨rfl, htext⟩

theorem info_ne {info : Nat} {front : Bytes} {n : Nat} (h : Reads (argument info) front n) :
    info ≠ 31 := by
  rintro rfl
  cases h

theorem nextChunk_eq_ok {text : Bool} {key key' : Key} {s s' : Cursor} :
    nextChunk (stringMajor text) key s = .ok (key', s') ↔
      ∃ piece part chars, Chunk text piece part ∧ PartText text part chars ∧
        Takes piece 1 s s' ∧ s'.items ≤ maxItems ∧ key' = key ++ [chars] := by
  rw [nextChunk, bind_eq_ok]
  constructor
  · rintro ⟨⟨⟩, s₁, hcharge, h⟩
    obtain ⟨hone, hbudget⟩ := charge_eq_ok.mp hcharge
    obtain ⟨header, s₂, hbyte, h⟩ := bind_eq_ok.mp h
    have hheader := byte_eq_ok.mp hbyte
    by_cases hbad : major header ≠ stringMajor text ∨ info header = 31
    · rw [if_pos hbad] at h
      cases h
    · rw [if_neg hbad] at h
      obtain ⟨chars, s₃, hchunk, hr⟩ := bind_eq_ok.mp h
      cases hr
      obtain ⟨front, part, hfront, htakes, htext⟩ := chunk_eq_ok.mp hchunk
      have hmajor := Classical.not_not.mp (not_or.mp hbad).1
      have hall := (hone.trans hheader).trans htakes
      have hs₃ : s'.items ≤ maxItems := by
        rw [htakes.items, hheader.items]
        exact hbudget
      exact ⟨header :: (front ++ part), part, chars, ⟨header, front, rfl, hmajor, hfront⟩, htext,
        hall, hs₃, rfl⟩
  · rintro ⟨piece, part, chars, ⟨header, front, rfl, hmajor, hfront⟩, htext, htakes, hbudget, rfl⟩
    obtain ⟨s₁, hone, hrest⟩ := Takes.charged (n := 0) htakes
    obtain ⟨s₂, hheader, hrest'⟩ := hrest.head
    refine ⟨(), s₁, charge_eq_ok.mpr ⟨hone, hrest.items_le hbudget⟩, ?_⟩
    refine bind_eq_ok.mpr ⟨header, s₂, byte_eq_ok.mpr hheader, ?_⟩
    have hgood : ¬(major header ≠ stringMajor text ∨ info header = 31) := by
      rintro (h | h)
      · exact h hmajor
      · exact info_ne hfront h
    rw [if_neg hgood]
    exact bind_eq_ok.mpr ⟨chars, s', chunk_eq_ok.mpr ⟨front, part, hfront, hrest', htext⟩, rfl⟩

theorem consumes_nextChunk {text : Bool} (key : Key) :
    Consumes (nextChunk (stringMajor text) key) := by
  intro s key' s' h
  obtain ⟨piece, part, chars, ⟨header, front, rfl, -⟩, -, htakes, -⟩ := nextChunk_eq_ok.mp h
  have := htakes.length
  rw [List.length_cons] at this
  omega

/-- Rounds over the parts of a string. -/
theorem rounds_nextChunk {text : Bool} {n : Nat} {key key' : Key} {s s' : Cursor}
    (hs : s.items ≤ maxItems) :
    Rounds (nextChunk (stringMajor text)) n key s key' s' ↔
      ∃ pieces parts texts, parts.length = n ∧ List.Forall₂ (Chunk text) pieces parts ∧
        List.Forall₂ (PartText text) parts texts ∧ Takes pieces.flatten n s s' ∧
        s'.items ≤ maxItems ∧ key' = key ++ texts := by
  induction n generalizing key s with
  | zero =>
      constructor
      · intro h
        cases h
        exact ⟨[], [], [], rfl, .nil, .nil, takes_nothing _, hs, (List.append_nil _).symm⟩
      · rintro ⟨pieces, parts, texts, hn, hpieces, htexts, htakes, -, rfl⟩
        obtain rfl := List.length_eq_zero_iff.mp hn
        cases hpieces
        cases htexts
        obtain rfl := takes_nothing_iff.mp htakes
        rw [List.append_nil]
        exact .zero
  | succ n ih =>
      constructor
      · intro h
        cases h with
        | succ hround t =>
            obtain ⟨piece, part, chars, hpiece, htext, htakes, hbudget, rfl⟩ :=
              nextChunk_eq_ok.mp hround
            obtain ⟨pieces, parts, texts, hn, hpieces, htexts, htakes', hbudget', rfl⟩ :=
              (ih hbudget).mp t
            refine ⟨piece :: pieces, part :: parts, chars :: texts, by rw [List.length_cons, hn],
              .cons hpiece hpieces, .cons htext htexts, ?_, hbudget', by simp⟩
            rw [Nat.add_comm]
            exact htakes.trans htakes'
      · rintro ⟨pieces, parts, texts, hn, hpieces, htexts, htakes, hbudget, rfl⟩
        cases hpieces with
        | nil => cases hn
        | cons hpiece hpieces =>
            cases htexts with
            | cons htext htexts =>
                rw [List.flatten_cons, Nat.add_comm] at htakes
                obtain ⟨s₁, hleft, hright⟩ := htakes.split
                have hs₁ := hright.items_le hbudget
                refine .succ (nextChunk_eq_ok.mpr
                  ⟨_, _, _, hpiece, htext, hleft, hs₁, rfl⟩) ((ih hs₁).mpr ?_)
                exact ⟨_, _, _, Nat.succ.inj hn, hpieces, htexts, hright, hbudget, by simp⟩

/-- What the walk reads of a string. -/
inductive Parts (text : Bool) : Term → Key → Prop where
  | string {content : Bytes} {chars : Text} (h : PartText text content chars) :
      Parts text (.string text content) [chars]
  | chunks {parts : List Bytes} {texts : List Text} (h : List.Forall₂ (PartText text) parts texts) :
      Parts text (.chunks text parts) texts

/-- **A string**, behind its initial byte. -/
theorem chunks_eq_ok {text : Bool} {header : UInt8} (hmajor : major header = stringMajor text)
    {key : Key} {s s' : Cursor} (hs : s.items ≤ maxItems) :
    chunks (stringMajor text) (info header) s = .ok (key, s') ↔
      ∃ t tail, Written (header :: tail) (.item t) ∧ Parts text t key ∧
        Takes tail (t.size - 1) s s' ∧ s'.items ≤ maxItems := by
  rw [chunks]
  by_cases hinfo : info header = 31
  · rw [if_neg (not_not_intro hinfo), whileMore]
    rw [loop_until consumes_nextChunk (fun h => ?_) (Nat.lt_succ_self _)]
    swap
    · obtain ⟨piece, part, chars, hpiece, -, htakes, -⟩ := nextChunk_eq_ok.mp h
      obtain ⟨byte, tail, rfl, hne⟩ := hpiece.head_ne
      rw [htakes.rest]
      exact fun heq => hne (Option.some.inj heq)
    constructor
    · rintro ⟨n, s₁, hrounds, hstop⟩
      obtain ⟨pieces, parts, texts, rfl, hpieces, htexts, htakes, hbudget, rfl⟩ :=
        (rounds_nextChunk hs).mp hrounds
      refine ⟨.chunks text parts, pieces.flatten ++ [0xFF], .chunks hmajor hinfo hpieces, ?_, ?_, ?_⟩
      · exact .chunks htexts
      · have hsize : (Term.chunks text parts).size - 1 = parts.length + 0 := by
          simp [Term.size]
        rw [hsize]
        exact htakes.trans hstop
      · have := hstop.items
        omega
    · rintro ⟨t, tail, hwritten, hparts, htakes, hbudget⟩
      cases hparts with
      | string htext =>
          obtain ⟨byte, front, heq, hfront⟩ := hwritten.of_string
          cases heq
          exact absurd hinfo (info_ne hfront)
      | @chunks parts texts htexts =>
          obtain ⟨byte, pieces, heq, -, hpieces⟩ := hwritten.of_chunks
          cases heq
          have hsize : (Term.chunks text parts).size - 1 = parts.length + 0 := by
            simp [Term.size]
          rw [hsize] at htakes
          obtain ⟨s₁, hleft, hright⟩ := htakes.split
          refine ⟨parts.length, s₁, (rounds_nextChunk hs).mpr ?_, hright⟩
          exact ⟨pieces, parts, _, rfl, hpieces, htexts, hleft, hright.items_le hbudget,
            (List.nil_append _).symm⟩
  · rw [if_pos hinfo, map_eq_ok]
    constructor
    · rintro ⟨chars, s₁, hchunk, heq⟩
      cases heq
      obtain ⟨front, part, hfront, htakes, htext⟩ := chunk_eq_ok.mp hchunk
      exact ⟨.string text part, front ++ part, .string hmajor hfront, .string htext, htakes,
        by have := htakes.items; omega⟩
    · rintro ⟨t, tail, hwritten, hparts, htakes, hbudget⟩
      cases hparts with
      | @string content chars htext =>
          obtain ⟨byte, front, heq, hfront⟩ := hwritten.of_string
          cases heq
          exact ⟨chars, s', chunk_eq_ok.mpr ⟨front, content, hfront, htakes, htext⟩, rfl⟩
      | chunks htexts =>
          obtain ⟨byte, pieces, heq, hinfo', -⟩ := hwritten.of_chunks
          cases heq
          exact absurd hinfo' hinfo

/-! ### Texts -/

theorem Parts.major {text : Bool} {t : Term} {key : Key} (h : Parts text t key) :
    t.major = stringMajor text := by
  cases h with
  | string | chunks => rfl

theorem Parts.hasText {t : Term} {key : Key} (h : Parts true t key) : t.HasText key.flatten := by
  cases h with
  | @string content chars h =>
      rw [List.flatten_singleton]
      exact .string h
  | chunks h => exact .chunks h

theorem parts_of_hasText {t : Term} {name : Text} (h : t.HasText name) :
    ∃ key, Parts true t key ∧ name = key.flatten := by
  cases h with
  | string h => exact ⟨[name], .string h, List.flatten_singleton.symm⟩
  | chunks h => exact ⟨_, .chunks h, rfl⟩

theorem Parts.validText {text : Bool} {t : Term} {key : Key} (h : Parts text t key) :
    t.ValidText := by
  intro hmajor
  rw [h.major] at hmajor
  cases text with
  | false => cases hmajor
  | true => exact ⟨_, h.hasText⟩

theorem exists_parts {text : Bool} {t : Term} (hmajor : t.major = stringMajor text)
    (hvalid : t.ValidText) : ∃ key, Parts text t key := by
  cases text with
  | true =>
      obtain ⟨name, hname⟩ := hvalid hmajor
      obtain ⟨key, hkey, -⟩ := parts_of_hasText hname
      exact ⟨key, hkey⟩
  | false =>
      cases t with
      | string text content =>
          cases text with
          | false => exact ⟨[[]], .string rfl⟩
          | true => cases hmajor
      | chunks text parts =>
          cases text with
          | false =>
              refine ⟨parts.map fun _ => [], .chunks ?_⟩
              rw [List.forall₂_map_right_iff]
              exact List.forall₂_same.mpr fun _ _ => rfl
          | true => cases hmajor
      | int negative => cases negative <;> cases hmajor
      | list | map | tag | simple => cases hmajor

/-- A string is admitted at every depth. -/
theorem Parts.admitted {text metadata : Bool} {depth : Nat} {t : Term} {key : Key}
    (h : Parts text t key) : t.Every (Admitted metadata) depth := by
  have hvalid := h.validText
  cases h with
  | string | chunks => exact ⟨nofun, hvalid, fun _ => trivial⟩

/-- The key of an entry. -/
theorem key_eq_ok {key : Key} {s s' : Cursor} : Walk.key s = .ok (key, s') ↔
    ∃ t used, Written used (.item t) ∧ Parts true t key ∧ Takes used t.size s s' ∧
      s'.items ≤ maxItems := by
  rw [Walk.key, bind_eq_ok]
  constructor
  · rintro ⟨⟨⟩, s₁, hcharge, h⟩
    obtain ⟨hone, hbudget⟩ := charge_eq_ok.mp hcharge
    obtain ⟨header, s₂, hbyte, h⟩ := bind_eq_ok.mp h
    have hheader := byte_eq_ok.mp hbyte
    by_cases hmajor : major header = 3
    · rw [if_neg (not_not_intro hmajor)] at h
      have hs₂ : s₂.items ≤ maxItems := by rw [hheader.items]; exact hbudget
      obtain ⟨t, tail, hwritten, hparts, htakes, hbudget'⟩ :=
        (chunks_eq_ok (show major header = stringMajor true from hmajor) hs₂).mp h
      refine ⟨t, header :: tail, hwritten, hparts, ?_, hbudget'⟩
      have hsize : t.size = 1 + 0 + (t.size - 1) := by have := t.size_pos; omega
      rw [hsize]
      exact (hone.trans hheader).trans htakes
    · rw [if_pos hmajor] at h
      cases h
  · rintro ⟨t, used, hwritten, hparts, htakes, hbudget⟩
    obtain ⟨header, tail, rfl, -, hmajor⟩ := hwritten.head_ne
    replace hmajor : major header = 3 := hmajor.trans hparts.major
    have hsize : t.size = 1 + (t.size - 1) := by have := t.size_pos; omega
    rw [hsize] at htakes
    obtain ⟨s₁, hone, hrest⟩ := htakes.charged
    obtain ⟨s₂, hheader, htail⟩ := hrest.head
    refine ⟨(), s₁, charge_eq_ok.mpr ⟨hone, hrest.items_le hbudget⟩, ?_⟩
    refine bind_eq_ok.mpr ⟨header, s₂, byte_eq_ok.mpr hheader, ?_⟩
    rw [if_neg (not_not_intro hmajor)]
    exact (chunks_eq_ok (show major header = stringMajor true from hmajor)
      (htail.items_le hbudget)).mpr ⟨t, tail, hwritten, hparts, htail, hbudget⟩

/-! ### Rows -/

section Nested
variable {metadata : Bool} {depth : Nat} {nested : Scan Unit Unit}

/-- The scan reads the items of this depth. -/
def ReadsItems (metadata : Bool) (depth : Nat) (nested : Scan Unit Unit) : Prop :=
  ∀ {s s' : Cursor}, nested s = .ok ((), s') ↔ ∃ t, Scanned metadata depth t s s'

/-- One round of the loop. -/
abbrev round (nested : Scan Unit Unit) (kind : Nat) (dictionary : Bool) :
    List Text → Scan Unit (List Text) :=
  element (checking List.flatten) nested kind dictionary

variable (hnested : ReadsItems metadata depth nested)
include hnested

theorem element_list {seen seen' : List Text} {s s' : Cursor} :
    round nested 4 false seen s = .ok (seen', s') ↔
      seen' = seen ∧ ∃ t, Scanned metadata depth t s s' := by
  change (nested >>= fun _ => pure seen) s = _ ↔ _
  rw [bind_eq_ok]
  constructor
  · rintro ⟨⟨⟩, s₁, h, hr⟩
    cases hr
    exact ⟨rfl, hnested.mp h⟩
  · rintro ⟨rfl, h⟩
    exact ⟨(), s', hnested.mpr h, rfl⟩

theorem element_pair {seen seen' : List Text} {s s' : Cursor} :
    round nested 5 false seen s = .ok (seen', s') ↔
      seen' = seen ∧ ∃ k v s₁, Scanned metadata depth k s s₁ ∧ Scanned metadata depth v s₁ s' := by
  change (nested >>= fun _ => (fun _ => seen) <$> nested) s = _ ↔ _
  rw [bind_eq_ok]
  constructor
  · rintro ⟨⟨⟩, s₁, hk, h⟩
    obtain ⟨⟨⟩, s₂, hv, hr⟩ := map_eq_ok.mp h
    cases hr
    obtain ⟨k, hk⟩ := hnested.mp hk
    obtain ⟨v, hv⟩ := hnested.mp hv
    exact ⟨rfl, k, v, s₁, hk, hv⟩
  · rintro ⟨rfl, k, v, s₁, hk, hv⟩
    exact ⟨(), s₁, hnested.mpr ⟨k, hk⟩, map_eq_ok.mpr ⟨(), s', hnested.mpr ⟨v, hv⟩, rfl⟩⟩

theorem element_entry {seen seen' : List Text} {s s' : Cursor} :
    round nested 5 true seen s = .ok (seen', s') ↔
      ∃ k v s₁ name, Scanned metadata depth k s s₁ ∧ k.HasText name ∧ name ∉ seen ∧
        Scanned metadata depth v s₁ s' ∧ seen' = name :: seen := by
  change (Walk.key >>= _) s = _ ↔ _
  rw [bind_eq_ok]
  constructor
  · rintro ⟨key, s₁, hkey, h⟩
    obtain ⟨k, used, hwritten, hparts, htakes, hbudget⟩ := key_eq_ok.mp hkey
    dsimp only [checking] at h
    by_cases hseen : key.flatten ∈ seen
    · rw [if_pos hseen] at h
      cases h
    · rw [if_neg hseen] at h
      obtain ⟨⟨⟩, s₂, hv, hr⟩ := map_eq_ok.mp h
      cases hr
      obtain ⟨v, hv⟩ := hnested.mp hv
      exact ⟨k, v, s₁, key.flatten, ⟨⟨used, hwritten, htakes⟩, hparts.admitted, hbudget⟩,
        hparts.hasText, hseen, hv, rfl⟩
  · rintro ⟨k, v, s₁, name, ⟨⟨used, hwritten, htakes⟩, -, hbudget⟩, hname, hseen, hv, rfl⟩
    obtain ⟨key, hparts, rfl⟩ := parts_of_hasText hname
    refine ⟨key, s₁, key_eq_ok.mpr ⟨k, used, hwritten, hparts, htakes, hbudget⟩, ?_⟩
    dsimp only [checking]
    rw [if_neg hseen]
    exact map_eq_ok.mpr ⟨(), s', hnested.mpr ⟨v, hv⟩, rfl⟩

omit hnested in
/-- No rounds read no items. -/
theorem rounds_zero {body : List Text → Scan Unit (List Text)} {k : Nat} {seen seen' : List Text}
    {s s' : Cursor} (hs : s.items ≤ maxItems) :
    Rounds body 0 seen s seen' s' ↔
      seen' = seen ∧ ∃ ts, ts.length = k * 0 ∧ ScannedAll metadata depth ts s s' := by
  constructor
  · intro h
    cases h
    exact ⟨rfl, [], rfl, scannedAll_nil.mpr ⟨rfl, hs⟩⟩
  · rintro ⟨rfl, ts, hn, h⟩
    obtain rfl := List.length_eq_zero_iff.mp hn
    obtain ⟨rfl, -⟩ := scannedAll_nil.mp h
    exact .zero

theorem rounds_list {n : Nat} {seen seen' : List Text} {s s' : Cursor} (hs : s.items ≤ maxItems) :
    Rounds (round nested 4 false) n seen s seen' s' ↔
      seen' = seen ∧ ∃ ts, ts.length = n ∧ ScannedAll metadata depth ts s s' := by
  induction n generalizing s with
  | zero => exact rounds_zero (k := 0) hs
  | succ n ih =>
      constructor
      · intro h
        cases h with
        | succ hround hrest =>
            obtain ⟨rfl, t, ht⟩ := (element_list hnested).mp hround
            obtain ⟨rfl, ts, hn, hts⟩ := (ih ht.budget).mp hrest
            exact ⟨rfl, t :: ts, by rw [List.length_cons, hn], scannedAll_cons.mpr ⟨_, ht, hts⟩⟩
      · rintro ⟨rfl, ts, hn, h⟩
        cases ts with
        | nil => cases hn
        | cons t ts =>
            obtain ⟨s₁, ht, hts⟩ := scannedAll_cons.mp h
            exact .succ ((element_list hnested).mpr ⟨rfl, t, ht⟩)
              ((ih ht.budget).mpr ⟨rfl, ts, Nat.succ.inj hn, hts⟩)

omit hnested in
/-- A row of pairs is a pair and a row of pairs. -/
theorem pairs_of_length {ts : List Term} {n : Nat} (h : ts.length = 2 * (n + 1)) :
    ∃ k v rest, ts = k :: v :: rest ∧ rest.length = 2 * n := by
  match ts, h with
  | k :: v :: rest, h => exact ⟨k, v, rest, rfl, by simp only [List.length_cons] at h; omega⟩

theorem rounds_pairs {n : Nat} {seen seen' : List Text} {s s' : Cursor} (hs : s.items ≤ maxItems) :
    Rounds (round nested 5 false) n seen s seen' s' ↔
      seen' = seen ∧ ∃ ts, ts.length = 2 * n ∧ ScannedAll metadata depth ts s s' := by
  induction n generalizing s with
  | zero => exact rounds_zero hs
  | succ n ih =>
      constructor
      · intro h
        cases h with
        | succ hround hrest =>
            obtain ⟨rfl, k, v, s₁, hk, hv⟩ := (element_pair hnested).mp hround
            obtain ⟨rfl, ts, hn, hts⟩ := (ih hv.budget).mp hrest
            refine ⟨rfl, k :: v :: ts, by simp only [List.length_cons]; omega, ?_⟩
            exact scannedAll_cons.mpr ⟨_, hk, scannedAll_cons.mpr ⟨_, hv, hts⟩⟩
      · rintro ⟨rfl, ts, hn, h⟩
        obtain ⟨k, v, rest, rfl, hrest⟩ := pairs_of_length hn
        obtain ⟨s₁, hk, h⟩ := scannedAll_cons.mp h
        obtain ⟨s₂, hv, hts⟩ := scannedAll_cons.mp h
        exact .succ ((element_pair hnested).mpr ⟨rfl, k, v, s₁, hk, hv⟩)
          ((ih hv.budget).mpr ⟨rfl, rest, hrest, hts⟩)

theorem rounds_entries {n : Nat} {seen : List Text} {s s' : Cursor} (hs : s.items ≤ maxItems) :
    (∃ seen', Rounds (round nested 5 true) n seen s seen' s') ↔
      ∃ ts names, ts.length = 2 * n ∧ ScannedAll metadata depth ts s s' ∧
        List.Forall₂ Term.HasText (Term.keysOf ts) names ∧ names.Nodup ∧
          ∀ name ∈ names, name ∉ seen := by
  induction n generalizing seen s with
  | zero =>
      constructor
      · rintro ⟨seen', h⟩
        cases h
        exact ⟨[], [], rfl, scannedAll_nil.mpr ⟨rfl, hs⟩, .nil, List.nodup_nil, nofun⟩
      · rintro ⟨ts, names, hn, h, -⟩
        obtain rfl := List.length_eq_zero_iff.mp hn
        obtain ⟨rfl, -⟩ := scannedAll_nil.mp h
        exact ⟨seen, .zero⟩
  | succ n ih =>
      constructor
      · rintro ⟨seen', h⟩
        cases h with
        | succ hround hrest =>
            obtain ⟨k, v, s₁, name, hk, hname, hseen, hv, rfl⟩ := (element_entry hnested).mp hround
            obtain ⟨ts, names, hn, hts, hnames, hnodup, hfresh⟩ := (ih hv.budget).mp ⟨_, hrest⟩
            refine ⟨k :: v :: ts, name :: names, by simp only [List.length_cons]; omega,
              scannedAll_cons.mpr ⟨_, hk, scannedAll_cons.mpr ⟨_, hv, hts⟩⟩, .cons hname hnames,
              List.nodup_cons.mpr ⟨fun hmem => ?_, hnodup⟩, fun other hother => ?_⟩
            · exact hfresh name hmem List.mem_cons_self
            · rcases List.mem_cons.mp hother with rfl | hother
              · exact hseen
              · exact fun hmem => hfresh other hother (List.mem_cons_of_mem _ hmem)
      · rintro ⟨ts, names, hn, h, hnames, hnodup, hfresh⟩
        obtain ⟨k, v, rest, rfl, hrest⟩ := pairs_of_length hn
        obtain ⟨s₁, hk, h⟩ := scannedAll_cons.mp h
        obtain ⟨s₂, hv, hts⟩ := scannedAll_cons.mp h
        cases hnames with
        | @cons _ name _ names hname hnames =>
            obtain ⟨hnot, hnodup⟩ := List.nodup_cons.mp hnodup
            have hround := (element_entry hnested).mpr
              ⟨k, v, s₁, name, hk, hname, hfresh name List.mem_cons_self, hv, rfl⟩
            have hfresh' : ∀ other ∈ names, other ∉ name :: seen := by
              intro other hother hmem
              rcases List.mem_cons.mp hmem with rfl | hmem
              · exact hnot hother
              · exact hfresh other (List.mem_cons_of_mem _ hother) hmem
            obtain ⟨seen', hrounds⟩ :=
              (ih hv.budget).mpr ⟨rest, names, hrest, hts, hnames, hnodup, hfresh'⟩
            exact ⟨seen', .succ hround hrounds⟩

/-- What the loops read, in `n` rounds. -/
def Row (metadata : Bool) (depth kind : Nat) (dictionary : Bool) (n : Nat) (ts : List Term)
    (s s' : Cursor) : Prop :=
  ts.length = (if kind = 5 then 2 * n else n) ∧ ScannedAll metadata depth ts s s' ∧
    (dictionary = true →
      ∃ names, List.Forall₂ Term.HasText (Term.keysOf ts) names ∧ names.Nodup)

theorem rounds_iff {kind n : Nat} {dictionary : Bool} {s s' : Cursor} (hs : s.items ≤ maxItems)
    (hkind : (kind = 4 ∧ dictionary = false) ∨ kind = 5) :
    (∃ seen, Rounds (round nested kind dictionary) n [] s seen s') ↔
      ∃ ts, Row metadata depth kind dictionary n ts s s' := by
  obtain ⟨rfl, rfl⟩ | rfl := hkind
  · simp only [rounds_list hnested hs, exists_eq_left, Row]
    simp
  · cases dictionary with
    | false =>
        simp only [rounds_pairs hnested hs, exists_eq_left, Row]
        simp
    | true =>
        rw [rounds_entries hnested hs]
        constructor
        · rintro ⟨ts, names, hn, hts, hnames, hnodup, -⟩
          exact ⟨ts, hn, hts, fun _ => ⟨names, hnames, hnodup⟩⟩
        · rintro ⟨ts, hn, hts, hkeys⟩
          obtain ⟨names, hnames, hnodup⟩ := hkeys rfl
          exact ⟨ts, names, hn, hts, hnames, hnodup, nofun⟩

/-- No round begins at a break. -/
theorem round_head {kind : Nat} {dictionary : Bool}
    (hkind : (kind = 4 ∧ dictionary = false) ∨ kind = 5) {seen : List Text} {s : Cursor}
    {r : List Text × Cursor} (h : round nested kind dictionary seen s = .ok r) :
    s.rest.head? ≠ some 255 := by
  have hhead : ∀ {t s₁}, Scanned metadata depth t s s₁ → s.rest.head? ≠ some 255 := by
    rintro t s₁ ⟨⟨used, hwritten, htakes⟩, -, -⟩
    obtain ⟨byte, tail, rfl, hne, -⟩ := hwritten.head_ne
    rw [htakes.rest]
    exact fun heq => hne (Option.some.inj heq)
  obtain ⟨seen', s'⟩ := r
  obtain ⟨rfl, rfl⟩ | rfl := hkind
  · obtain ⟨-, t, ht⟩ := (element_list hnested).mp h
    exact hhead ht
  · cases dictionary with
    | false =>
        obtain ⟨-, k, v, s₁, hk, -⟩ := (element_pair hnested).mp h
        exact hhead hk
    | true =>
        obtain ⟨k, v, s₁, name, hk, -⟩ := (element_entry hnested).mp h
        exact hhead hk

end Nested

/-! ### Values -/

section Value
variable {metadata : Bool} {depth : Nat} {nested : Scan Unit Unit} {header : UInt8} {s s' : Cursor}

/-- Behind the initial byte stands the rest of an item. -/
def Behind (metadata : Bool) (depth : Nat) (header : UInt8) (s s' : Cursor) : Prop :=
  ∃ t tail, Written (header :: tail) (.item t) ∧ t.Every (Admitted metadata) depth ∧
    Takes tail (t.size - 1) s s' ∧ s'.items ≤ maxItems

theorem behind_major {t : Term} {tail : Bytes} (h : Written (header :: tail) (.item t)) :
    t.major = major header := by
  obtain ⟨byte, rest, heq, -, hmajor⟩ := h.head_ne
  cases heq
  exact hmajor.symm

theorem behind_int {negative : Bool} (hmajor : major header = intMajor negative)
    (hs : s.items ≤ maxItems) :
    (length (info header) >>= fun _ => pure ()) s = .ok ((), s') ↔
      Behind metadata depth header s s' := by
  rw [bind_eq_ok]
  constructor
  · rintro ⟨n, s₁, hn, hr⟩
    cases hr
    obtain ⟨front, hfront, htakes⟩ := length_eq_ok.mp hn
    have htext : (Term.int negative n).ValidText := by
      intro h
      cases negative <;> cases h
    exact ⟨.int negative n, front, .int hmajor hfront, ⟨nofun, htext, fun _ => trivial⟩, htakes,
      by have := htakes.items; omega⟩
  · rintro ⟨t, tail, hwritten, -, htakes, -⟩
    obtain ⟨n, rfl⟩ := Term.eq_int ((behind_major hwritten).trans hmajor)
    obtain ⟨byte, front, heq, h⟩ := hwritten.of_int
    cases heq
    exact ⟨n, s', length_eq_ok.mpr ⟨tail, h, htakes⟩, rfl⟩

theorem behind_string {text : Bool} {kind : Nat} (hkind : kind = stringMajor text)
    (hmajor : major header = kind) (hs : s.items ≤ maxItems) :
    (chunks kind (info header) >>= fun _ => pure ()) s = .ok ((), s') ↔
      Behind metadata depth header s s' := by
  subst hkind
  rw [bind_eq_ok]
  constructor
  · rintro ⟨key, s₁, hkey, hr⟩
    cases hr
    obtain ⟨t, tail, hwritten, hparts, htakes, hbudget⟩ := (chunks_eq_ok hmajor hs).mp hkey
    exact ⟨t, tail, hwritten, hparts.admitted, htakes, hbudget⟩
  · rintro ⟨t, tail, hwritten, hadmitted, htakes, hbudget⟩
    have ht := (behind_major hwritten).trans hmajor
    have hvalid : t.ValidText := by
      cases t with
      | list | map | tag => exact hadmitted.1.text
      | int | string | chunks | simple => exact hadmitted.text
    obtain ⟨key, hparts⟩ := exists_parts ht hvalid
    exact ⟨key, s', (chunks_eq_ok hmajor hs).mpr ⟨t, tail, hwritten, hparts, htakes, hbudget⟩, rfl⟩

theorem simple_eq_ok {info : Nat} : simple info s = .ok ((), s') ↔
    ∃ front n, Reads (argument info) front n ∧ (info = 24 → 32 ≤ n) ∧ Takes front 0 s s' := by
  have hwith : (length info >>= fun _ => pure ()) s = .ok ((), s') ↔
      ∃ front n, Reads (argument info) front n ∧ Takes front 0 s s' := by
    rw [bind_eq_ok]
    constructor
    · rintro ⟨n, s₁, hn, hr⟩
      cases hr
      obtain ⟨front, hfront, htakes⟩ := length_eq_ok.mp hn
      exact ⟨front, n, hfront, htakes⟩
    · rintro ⟨front, n, hfront, htakes⟩
      exact ⟨n, s', length_eq_ok.mpr ⟨front, hfront, htakes⟩, rfl⟩
  rw [simple]
  by_cases hsmall : info ≤ 23
  · rw [if_pos hsmall]
    have hpure : (pure () : Scan Unit Unit) s = .ok ((), s') ↔
        (length info >>= fun _ => pure ()) s = .ok ((), s') := by
      rw [length, if_pos (by omega)]
      rfl
    rw [hpure, hwith]
    have hne : info ≠ 24 := by omega
    simp [hne]
  rw [if_neg hsmall]
  by_cases h24 : info = 24
  · subst h24
    rw [if_pos rfl, bind_eq_ok]
    have hread : ∀ b : UInt8, Reads (argument 24) [b] b.toNat := fun b => by
      change some (BigEndian.read [b], []) = some (b.toNat, [])
      simp [BigEndian.read]
    constructor
    · rintro ⟨b, s₁, hb, h⟩
      have htakes := byte_eq_ok.mp hb
      by_cases hlow : b < 32
      · rw [if_pos hlow] at h
        cases h
      · rw [if_neg hlow] at h
        cases h
        exact ⟨[b], b.toNat, hread b, fun _ => Nat.le_of_not_lt hlow, htakes⟩
    · rintro ⟨front, n, hfront, hn, htakes⟩
      obtain ⟨k, mid, hk, h⟩ := Readers.bind_eq_some.mp hfront
      cases hk
      obtain ⟨bytes, rest, htake, heq⟩ := Readers.map_eq_some.mp h
      cases heq
      obtain ⟨hlen, happ⟩ := Readers.take_eq_some.mp htake
      rw [List.append_nil] at happ
      subst happ
      obtain ⟨b, rfl⟩ := List.length_eq_one_iff.mp hlen
      have heq : BigEndian.read [b] = b.toNat := by simp [BigEndian.read]
      refine ⟨b, s', byte_eq_ok.mpr htakes, ?_⟩
      have hle : 32 ≤ b.toNat := by
        rw [← heq]
        exact hn rfl
      have hlow : ¬b < 32 := Nat.not_lt.mpr hle
      rw [if_neg hlow]
      rfl
  · rw [if_neg h24, hwith]
    simp [h24]

theorem behind_simple (hmajor : major header = 7) (hs : s.items ≤ maxItems) :
    (simple (info header) >>= fun _ => pure ()) s = .ok ((), s') ↔
      Behind metadata depth header s s' := by
  rw [bind_eq_ok]
  constructor
  · rintro ⟨⟨⟩, s₁, h, hr⟩
    cases hr
    obtain ⟨front, n, hfront, hn, htakes⟩ := simple_eq_ok.mp h
    exact ⟨.simple n, front, .simple hmajor hfront hn, ⟨nofun, nofun, fun _ => trivial⟩, htakes,
      by have := htakes.items; omega⟩
  · rintro ⟨t, tail, hwritten, -, htakes, -⟩
    obtain ⟨n, rfl⟩ := Term.eq_simple ((behind_major hwritten).trans hmajor)
    obtain ⟨byte, front, heq, h, hn⟩ := hwritten.of_simple
    cases heq
    exact ⟨(), s', simple_eq_ok.mpr ⟨tail, n, h, hn, htakes⟩, rfl⟩

theorem behind_tag (hnested : depth < 64 → ReadsItems metadata (depth + 1) nested)
    (hmajor : major header = 6) :
    tagged (checking List.flatten) nested (info header) depth s = .ok ((), s') ↔
      Behind metadata depth header s s' := by
  rw [tagged]
  by_cases hdepth : depth < 64
  · rw [if_neg (Nat.not_le.mpr hdepth), bind_eq_ok]
    constructor
    · rintro ⟨n, s₁, hn, h⟩
      obtain ⟨⟨⟩, s₂, hitem, hr⟩ := bind_eq_ok.mp h
      cases hr
      obtain ⟨front, hfront, htakes⟩ := length_eq_ok.mp hn
      obtain ⟨t, ⟨used, hwritten, htakes'⟩, hadmitted, hbudget⟩ := (hnested hdepth).mp hitem
      refine ⟨.tag n t, front ++ used, .tag hmajor hfront hwritten,
        ⟨⟨fun _ => hdepth, (fun h => by cases h), fun _ => trivial⟩, hadmitted⟩, ?_, hbudget⟩
      have hsize : (Term.tag n t).size - 1 = 0 + t.size := by simp [Term.size]
      rw [hsize]
      exact htakes.trans htakes'
    · rintro ⟨t, tail, hwritten, hadmitted, htakes, hbudget⟩
      obtain ⟨n, t, rfl⟩ := Term.eq_tag ((behind_major hwritten).trans hmajor)
      have hsize : (Term.tag n t).size - 1 = 0 + t.size := by simp [Term.size]
      rw [hsize] at htakes
      obtain ⟨byte, front, body, heq, hn, h⟩ := hwritten.of_tag
      cases heq
      obtain ⟨s₁, hleft, hright⟩ := htakes.split
      refine ⟨n, s₁, length_eq_ok.mpr ⟨_, hn, hleft⟩, bind_eq_ok.mpr ⟨(), s', ?_, rfl⟩⟩
      exact (hnested hdepth).mpr ⟨t, ⟨_, h, hright⟩, hadmitted.2, hbudget⟩
  · rw [if_pos (Nat.le_of_not_lt hdepth)]
    refine ⟨(fun h => by cases h), ?_⟩
    rintro ⟨t, tail, hwritten, hadmitted, -⟩
    obtain ⟨n, t, rfl⟩ := Term.eq_tag ((behind_major hwritten).trans hmajor)
    exact absurd (hadmitted.1.nests trivial) hdepth

/-- The elements stand between the length and what ends them. -/
theorem elements_eq_ok {kind : Nat} (hkind : kind = 4 ∨ kind = 5)
    (hnested : ReadsItems metadata (depth + 1) nested) (hconsumes : Consumes nested)
    (hdepth : depth < 64) (hs : s.items ≤ maxItems) :
    elements (checking List.flatten) (Native.Scanner.dictionary metadata) nested kind (info header)
        depth s = .ok ((), s') ↔
      ∃ front n back ts s₁ s₂, Sized header front n back ∧ Takes front 0 s s₁ ∧
        Row metadata (depth + 1) kind
          (decide (kind = 5) && Native.Scanner.dictionary metadata depth) n ts s₁ s₂ ∧
        Takes back 0 s₂ s' := by
  have hshape : (kind = 4 ∧
      (decide (kind = 5) && Native.Scanner.dictionary metadata depth) = false) ∨ kind = 5 := by
    obtain rfl | rfl := hkind
    · exact .inl ⟨rfl, rfl⟩
    · exact .inr rfl
  rw [elements, if_neg (Nat.not_le.mpr hdepth)]
  generalize (decide (kind = 5) && Native.Scanner.dictionary metadata depth) = dictionary at *
  have hround : ∀ st, Consumes (round nested kind dictionary st) :=
    fun st => consumes_element hconsumes kind dictionary st
  rw [bind_eq_ok, counted]
  by_cases hinfo : info header = 31
  · rw [if_pos hinfo]
    have hloop : ∀ {st}, whileMore () (more none) (round nested kind dictionary) [] s = .ok (st, s') ↔
        ∃ n s₂, Rounds (round nested kind dictionary) n [] s st s₂ ∧ Takes [255] 0 s₂ s' :=
      fun {st} => loop_until hround (round_head hnested hshape) (Nat.lt_succ_self _)
    constructor
    · rintro ⟨count, s₁, hcount, h⟩
      cases hcount
      obtain ⟨st, s₂, hwhile, hr⟩ := bind_eq_ok.mp h
      cases hr
      obtain ⟨n, s₃, hrounds, hstop⟩ := hloop.mp hwhile
      obtain ⟨ts, hrow⟩ := (rounds_iff hnested hs hshape).mp ⟨st, hrounds⟩
      exact ⟨[], n, [0xFF], ts, s, s₃, .inr ⟨hinfo, rfl, rfl⟩, takes_nothing s, hrow, hstop⟩
    · rintro ⟨front, n, back, ts, s₁, s₂, ⟨hlen, -⟩ | ⟨-, rfl, rfl⟩, hfront, hrow, hback⟩
      · exact absurd hinfo (info_ne hlen)
      · obtain rfl := takes_nothing_iff.mp hfront
        obtain ⟨st, hrounds⟩ := (rounds_iff hnested hs hshape).mpr ⟨ts, hrow⟩
        refine ⟨none, _, rfl, bind_eq_ok.mpr ⟨st, s', ?_, rfl⟩⟩
        exact hloop.mpr ⟨n, s₂, hrounds, hback⟩
  · rw [if_neg hinfo]
    have hloop : ∀ {n st} {s₁ s' : Cursor},
        whileMore () (more (some n)) (round nested kind dictionary) [] s₁ = .ok (st, s') ↔
          Rounds (round nested kind dictionary) n [] s₁ st s' :=
      fun {n st s₁ s'} => loop_counted (fun _ => rfl) hround (Nat.lt_succ_self _)
    constructor
    · rintro ⟨count, s₁, hcount, h⟩
      obtain ⟨n, s₂, hn, heq⟩ := map_eq_ok.mp hcount
      cases heq
      obtain ⟨front, hfront, htakes⟩ := length_eq_ok.mp hn
      obtain ⟨st, s₃, hwhile, hr⟩ := bind_eq_ok.mp h
      cases hr
      have hs₁ : s₁.items ≤ maxItems := by
        have := htakes.items
        omega
      obtain ⟨ts, hrow⟩ := (rounds_iff hnested hs₁ hshape).mp ⟨st, hloop.mp hwhile⟩
      exact ⟨front, n, [], ts, s₁, _, .inl ⟨hfront, rfl⟩, htakes, hrow, takes_nothing _⟩
    · rintro ⟨front, n, back, ts, s₁, s₂, ⟨hlen, rfl⟩ | ⟨h31, -⟩, hfront, hrow, hback⟩
      · obtain rfl := takes_nothing_iff.mp hback
        have hs₁ : s₁.items ≤ maxItems := by
          have := hfront.items
          omega
        obtain ⟨st, hrounds⟩ := (rounds_iff hnested hs₁ hshape).mpr ⟨ts, hrow⟩
        refine ⟨some n, s₁, map_eq_ok.mpr ⟨n, s₁, length_eq_ok.mpr ⟨front, hlen, hfront⟩, rfl⟩, ?_⟩
        exact bind_eq_ok.mpr ⟨st, s', hloop.mpr hrounds, rfl⟩
      · exact absurd h31 hinfo

/-- The bytes of a container, behind its initial byte. -/
theorem takes_container {front body back : Bytes} {n : Nat} {s s' : Cursor} :
    Takes (front ++ (body ++ back)) n s s' ↔
      ∃ s₁ s₂, Takes front 0 s s₁ ∧ Takes body n s₁ s₂ ∧ Takes back 0 s₂ s' := by
  constructor
  · intro h
    have hn : n = 0 + (n + 0) := by omega
    rw [hn] at h
    obtain ⟨s₁, hfront, h⟩ := h.split
    obtain ⟨s₂, hbody, hback⟩ := h.split
    exact ⟨s₁, s₂, hfront, hbody, hback⟩
  · rintro ⟨s₁, s₂, hfront, hbody, hback⟩
    have h := hfront.trans (hbody.trans hback)
    rwa [Nat.add_zero, Nat.zero_add] at h

theorem behind_list (hnested : depth < 64 → ReadsItems metadata (depth + 1) nested)
    (hconsumes : Consumes nested) (hmajor : major header = 4) (hs : s.items ≤ maxItems) :
    elements (checking List.flatten) (Native.Scanner.dictionary metadata) nested 4 (info header)
        depth s = .ok ((), s') ↔ Behind metadata depth header s s' := by
  by_cases hdepth : depth < 64
  · rw [elements_eq_ok (.inl rfl) (hnested hdepth) hconsumes hdepth hs]
    constructor
    · rintro ⟨front, n, back, ts, s₁, s₂, hsize, hfront, ⟨hn, hrow, -⟩, hback⟩
      obtain ⟨⟨body, hwritten, hbody⟩, hall, hbudget⟩ := hrow
      rw [if_neg (by decide)] at hn
      subst hn
      refine ⟨.list ts, front ++ (body ++ back), .list hmajor hsize hwritten,
        ⟨⟨fun _ => hdepth, (fun h => by cases h), fun _ => trivial⟩, hall⟩, ?_, by have := hback.items; omega⟩
      have hsum : (Term.list ts).size - 1 = Term.sizeAll ts := by simp [Term.size]
      rw [hsum]
      exact takes_container.mpr ⟨s₁, s₂, hfront, hbody, hback⟩
    · rintro ⟨t, tail, hwritten, hadmitted, htakes, hbudget⟩
      obtain ⟨ts, rfl⟩ := Term.eq_list ((behind_major hwritten).trans hmajor)
      have hsum : (Term.list ts).size - 1 = Term.sizeAll ts := by simp [Term.size]
      rw [hsum] at htakes
      obtain ⟨byte, front, body, back, heq, hsize, h⟩ := hwritten.of_list
      cases heq
      obtain ⟨s₁, s₂, hfront, hbody, hback⟩ := takes_container.mp htakes
      exact ⟨front, ts.length, back, ts, s₁, s₂, hsize, hfront,
        ⟨rfl, ⟨⟨body, h, hbody⟩, hadmitted.2, hback.items_le hbudget⟩, by simp⟩, hback⟩
  · rw [elements, if_pos (Nat.le_of_not_lt hdepth)]
    refine ⟨(fun h => by cases h), ?_⟩
    rintro ⟨t, tail, hwritten, hadmitted, -⟩
    obtain ⟨ts, rfl⟩ := Term.eq_list ((behind_major hwritten).trans hmajor)
    exact absurd (hadmitted.1.nests trivial) hdepth

theorem behind_map (hnested : depth < 64 → ReadsItems metadata (depth + 1) nested)
    (hconsumes : Consumes nested) (hmajor : major header = 5) (hs : s.items ≤ maxItems) :
    elements (checking List.flatten) (Native.Scanner.dictionary metadata) nested 5 (info header)
        depth s = .ok ((), s') ↔ Behind metadata depth header s s' := by
  by_cases hdepth : depth < 64
  · rw [elements_eq_ok (.inr rfl) (hnested hdepth) hconsumes hdepth hs]
    constructor
    · rintro ⟨front, n, back, ts, s₁, s₂, hsize, hfront, ⟨hn, hrow, hkeys⟩, hback⟩
      obtain ⟨⟨body, hwritten, hbody⟩, hall, hbudget⟩ := hrow
      rw [if_pos rfl] at hn
      refine ⟨.map ts, front ++ (body ++ back), .map hmajor hsize hn hwritten,
        ⟨⟨fun _ => hdepth, (fun h => by cases h), fun hd => hkeys hd⟩, hall⟩, ?_, by have := hback.items; omega⟩
      have hsum : (Term.map ts).size - 1 = Term.sizeAll ts := by simp [Term.size]
      rw [hsum]
      exact takes_container.mpr ⟨s₁, s₂, hfront, hbody, hback⟩
    · rintro ⟨t, tail, hwritten, hadmitted, htakes, hbudget⟩
      obtain ⟨ts, rfl⟩ := Term.eq_map ((behind_major hwritten).trans hmajor)
      have hsum : (Term.map ts).size - 1 = Term.sizeAll ts := by simp [Term.size]
      rw [hsum] at htakes
      obtain ⟨byte, front, body, back, n, heq, hsize, hn, h⟩ := hwritten.of_map
      cases heq
      obtain ⟨s₁, s₂, hfront, hbody, hback⟩ := takes_container.mp htakes
      exact ⟨front, n, back, ts, s₁, s₂, hsize, hfront,
        ⟨hn, ⟨⟨body, h, hbody⟩, hadmitted.2, hback.items_le hbudget⟩,
          fun hd => hadmitted.1.keyed hd⟩, hback⟩
  · rw [elements, if_pos (Nat.le_of_not_lt hdepth)]
    refine ⟨(fun h => by cases h), ?_⟩
    rintro ⟨t, tail, hwritten, hadmitted, -⟩
    obtain ⟨ts, rfl⟩ := Term.eq_map ((behind_major hwritten).trans hmajor)
    exact absurd (hadmitted.1.nests trivial) hdepth

theorem major_le (header : UInt8) : major header ≤ 7 := by
  have := header.toNat_lt
  rw [major]
  omega

/-- **One value**, with the values in it. -/
theorem behind_eq_ok (hnested : depth < 64 → ReadsItems metadata (depth + 1) nested)
    (hconsumes : Consumes nested) {header : UInt8} {s₂ s' : Cursor} (hs₂ : s₂.items ≤ maxItems) :
    (match major header with
      | 0 | 1 => do
          let _ ← length (info header)
          pure ()
      | kind@2 | kind@3 => do
          let _ ← chunks kind (info header)
          pure ()
      | kind@4 | kind@5 =>
          elements (checking List.flatten) (Native.Scanner.dictionary metadata) nested kind
            (info header) depth
      | 6 => tagged (checking List.flatten) nested (info header) depth
      | _ => do
          simple (info header)
          pure () : Scan Unit Unit) s₂ = .ok ((), s') ↔ Behind metadata depth header s₂ s' := by
  have hle := major_le header
  generalize hm : major header = kind at hle
  interval_cases kind
  · exact behind_int (show major header = intMajor false from hm) hs₂
  · exact behind_int (show major header = intMajor true from hm) hs₂
  · exact behind_string (show 2 = stringMajor false from rfl) hm hs₂
  · exact behind_string (show 3 = stringMajor true from rfl) hm hs₂
  · exact behind_list hnested hconsumes hm hs₂
  · exact behind_map hnested hconsumes hm hs₂
  · exact behind_tag hnested hm
  · exact behind_simple hm hs₂

theorem readsItems_walkWith (hnested : depth < 64 → ReadsItems metadata (depth + 1) nested)
    (hconsumes : Consumes nested) :
    ReadsItems metadata depth
      (walkWith (checking List.flatten) (Native.Scanner.dictionary metadata) nested depth) := by
  intro s s'
  rw [walkWith, bind_eq_ok]
  constructor
  · rintro ⟨⟨⟩, s₁, hcharge, h⟩
    obtain ⟨hone, hbudget⟩ := charge_eq_ok.mp hcharge
    obtain ⟨header, s₂, hbyte, h⟩ := bind_eq_ok.mp h
    have hheader := byte_eq_ok.mp hbyte
    have hs₂ : s₂.items ≤ maxItems := by rw [hheader.items]; exact hbudget
    obtain ⟨t, tail, hwritten, hadmitted, htakes, hbudget'⟩ := (behind_eq_ok hnested hconsumes hs₂).mp h
    refine ⟨t, ⟨header :: tail, hwritten, ?_⟩, hadmitted, hbudget'⟩
    have hsize : t.size = 1 + 0 + (t.size - 1) := by have := t.size_pos; omega
    rw [hsize]
    exact (hone.trans hheader).trans htakes
  · rintro ⟨t, ⟨used, hwritten, htakes⟩, hadmitted, hbudget⟩
    obtain ⟨header, tail, rfl, -, -⟩ := hwritten.head_ne
    have hsize : t.size = 1 + (t.size - 1) := by have := t.size_pos; omega
    rw [hsize] at htakes
    obtain ⟨s₁, hone, hrest'⟩ := htakes.charged
    obtain ⟨s₂, hheader, htail⟩ := hrest'.head
    refine ⟨(), s₁, charge_eq_ok.mpr ⟨hone, hrest'.items_le hbudget⟩, ?_⟩
    refine bind_eq_ok.mpr ⟨header, s₂, byte_eq_ok.mpr hheader, ?_⟩
    exact (behind_eq_ok hnested hconsumes (htail.items_le hbudget)).mpr
      ⟨t, tail, hwritten, hadmitted, htail, hbudget⟩

/-- **The walk** reads exactly the items that are admitted. -/
theorem readsItems_walk (room : Nat) {depth : Nat} (hroom : room + depth = 65)
    (hdepth : depth ≤ 64) :
    ReadsItems metadata depth
      (walk (checking List.flatten) (Native.Scanner.dictionary metadata) room depth) := by
  induction room generalizing depth with
  | zero => omega
  | succ room ih =>
      exact readsItems_walkWith (fun h => ih (by omega) h) (consumes_walk room (depth + 1))

end Value

end Walk

/-! ### The validator -/

/-- The input is one well-formed item of the root kind, within the bounds, with text in UTF-8 and
dictionaries that have different texts for keys. -/
def Acceptable (bytes : Bytes) (root : Nat) (metadata : Bool) : Prop :=
  ∃ t, Written bytes (.item t) ∧ t.major = root ∧ t.size ≤ maxItems ∧
    t.Every (Admitted metadata) 0

theorem native_validate_grammar (bytes : Bytes) (root : Nat) (metadata : Bool) :
    Native.validate bytes root metadata = .ok () ↔
      bytes.length ≤ maxBytes metadata ∧ Acceptable bytes root metadata := by
  have hwalk : Walk.ReadsItems metadata 0
      (Walk.walk (Walk.checking List.flatten) (Native.Scanner.dictionary metadata) 65 0) :=
    Walk.readsItems_walk 65 rfl (by decide)
  rw [native_validate_iff]
  constructor
  · rintro ⟨ds, ⟨hroot, hsize, items, hvalue⟩, hdistinct⟩
    have hcheck := (Walk.checked_walk List.flatten _ 65 0).mpr ⟨ds, hvalue, hdistinct, rfl⟩
    obtain ⟨t, ⟨used, hwritten, htakes⟩, hadmitted, hbudget⟩ := hwalk.mp hcheck
    have hused : bytes = used := by rw [← List.append_nil used]; exact htakes.rest
    subst hused
    refine ⟨hsize, t, hwritten, ?_, ?_, hadmitted⟩
    · obtain ⟨byte, tail, rfl, -, hmajor⟩ := hwritten.head_ne
      exact hmajor.symm.trans (Option.some.inj hroot)
    · have := htakes.items
      dsimp only at this hbudget
      omega
  · rintro ⟨hsize, t, hwritten, hmajor, hitems, hadmitted⟩
    have htakes : Takes bytes t.size { rest := bytes } { rest := [], items := t.size } :=
      ⟨(List.append_nil bytes).symm, (Nat.zero_add _).symm⟩
    have hcheck := hwalk.mpr ⟨t, ⟨bytes, hwritten, htakes⟩, hadmitted, hitems⟩
    obtain ⟨ds, hvalue, hdistinct, -⟩ := (Walk.checked_walk List.flatten _ 65 0).mp hcheck
    refine ⟨ds, ⟨?_, hsize, t.size, hvalue⟩, hdistinct⟩
    obtain ⟨byte, tail, rfl, -, hbyte⟩ := hwritten.head_ne
    rw [← hmajor, ← hbyte]
    rfl

/-! ### Refusals -/

namespace Native.Scanner

variable {sc : Scanner}

/-- An error of the validator's own. -/
def Refusal (e : String) : Prop := ∃ reason, e = invalid reason

theorem refusal (reason : String) : Refusal (invalid reason) := ⟨reason, rfl⟩

theorem shrinks_take (count : Nat) : Shrinks (sc.take count) := by
  intro s a s' h
  rw [take] at h
  split at h
  · cases h
  · exact Scans.shrinks_take _ _ h

theorem shrinks_length (info : Nat) : Shrinks (sc.length info) := by
  rw [length]
  split
  · exact shrinks_pure _
  · split
    · exact (shrinks_take _).map _
    · exact shrinks_fail _

theorem shrinks_chunk (kind info : Nat) (text : Option Text) :
    Shrinks (sc.chunk kind info text) := by
  refine (shrinks_length info).bind fun n => (shrinks_take n).bind fun bytes => ?_
  split
  · split
    · exact shrinks_pure _
    · exact shrinks_fail _
  · exact shrinks_pure _

/-- One more part of a string. -/
def nextPart (sc : Scanner) (kind : Nat) (text : Option Text) : Scan String (Option Text) := do
  charge
  let header ← byte
  if major header ≠ kind ∨ Cbor.info header = 31 then fail (invalid "CBOR string chunk")
  else sc.chunk kind (Cbor.info header) text

theorem consumes_nextPart (kind : Nat) (text : Option Text) : Consumes (sc.nextPart kind text) := by
  refine (shrinks_charge _ _).bind_consumes fun _ => (consumes_byte _).bind fun header => ?_
  split
  · exact shrinks_fail _
  · exact shrinks_chunk _ _ _

theorem shrinks_more (count : Option Nat) (index : Nat) : Shrinks (more count index) := by
  cases count with
  | some count => exact shrinks_pure _
  | none => exact (shrinks_atStop 255).map _

theorem shrinks_string (kind info : Nat) (collect : Bool) :
    Shrinks (sc.string kind info collect) := by
  rw [string]
  split
  · exact shrinks_chunk _ _ _
  · exact shrinks_whileMore (shrinks_more none) (fun text => (consumes_nextPart kind text).shrinks) _

theorem consumes_key : Consumes sc.key := by
  refine (shrinks_charge _ _).bind_consumes fun _ => (consumes_byte _).bind fun header => ?_
  split
  · exact shrinks_fail _
  · refine (shrinks_string _ _ _).bind fun key => ?_
    split
    · exact shrinks_pure _
    · exact shrinks_fail _

theorem consumes_element {nested : Scan String Unit} (hnested : Consumes nested) (kind : Nat)
    (dictionary : Bool) (keys : List Text) : Consumes (sc.element nested kind dictionary keys) := by
  rw [element]
  split
  · refine consumes_key.bind fun key => ?_
    split
    · exact shrinks_fail _
    · exact hnested.shrinks.bind fun _ => shrinks_pure _
  · refine hnested.bind fun _ => ?_
    split
    · exact hnested.shrinks.bind fun _ => shrinks_pure _
    · exact shrinks_pure _

theorem shrinks_simple (info : Nat) : Shrinks (sc.simple info) := by
  rw [simple]
  split
  · exact shrinks_pure _
  · split
    · refine (consumes_byte _).shrinks.bind fun b => ?_
      split
      · exact shrinks_fail _
      · exact shrinks_pure _
    · split
      · exact (shrinks_take _).bind fun _ => shrinks_pure _
      · exact shrinks_fail _

theorem shrinks_counted (info : Nat) : Shrinks (sc.counted info) := by
  rw [counted]
  split
  · exact shrinks_pure _
  · exact (shrinks_length info).map _

theorem consumes_valueWith {nested : Scan String Unit} (hnested : Consumes nested) (depth : Nat) :
    Consumes (sc.valueWith nested depth) := by
  have helements : ∀ kind info : Nat, Shrinks
      (if depth ≥ 64 then fail (invalid "CBOR depth")
        else do
          let count ← sc.counted info
          let dictionary := decide (kind = 5) && (sc.metadata || decide (depth = 0))
          let _ ← whileMore outOfRounds (more count) (sc.element nested kind dictionary) []
          pure () : Scan String Unit) := by
    intro kind info
    split
    · exact shrinks_fail _
    · refine (shrinks_counted info).bind fun count => ?_
      refine (shrinks_whileMore (shrinks_more count) (fun keys => ?_) _).bind fun _ => shrinks_pure _
      exact (consumes_element hnested kind _ keys).shrinks
  have htagged : ∀ info : Nat, Shrinks
      (if depth ≥ 64 then fail (invalid "CBOR depth")
        else do
          let _ ← sc.length info
          nested : Scan String Unit) := by
    intro info
    split
    · exact shrinks_fail _
    · exact (shrinks_length info).bind fun _ => hnested.shrinks
  refine (shrinks_charge _ _).bind_consumes fun _ => (consumes_byte _).bind fun header => ?_
  match major header with
  | 0 | 1 => exact (shrinks_length _).bind fun _ => shrinks_pure _
  | 2 | 3 => exact (shrinks_string _ _ _).bind fun _ => shrinks_pure _
  | 4 => exact helements 4 _
  | 5 => exact helements 5 _
  | 6 => exact htagged _
  | n + 7 => exact shrinks_simple _

theorem consumes_value (room depth : Nat) : Consumes (sc.value room depth) := by
  induction room generalizing depth with
  | zero => exact fun _ _ _ h => nomatch h
  | succ room ih => exact consumes_valueWith (ih (depth + 1)) depth

theorem errs_take (count : Nat) : Errs Refusal (sc.take count) := by
  intro s e h
  rw [take] at h
  split at h
  · cases h
    exact refusal _
  · exact Scans.errs_take (refusal _) count h

theorem errs_length (info : Nat) : Errs Refusal (sc.length info) := by
  rw [length]
  split
  · exact errs_pure _
  · split
    · exact (errs_take _).map _
    · exact errs_fail (refusal _)

theorem errs_chunk (kind info : Nat) (text : Option Text) :
    Errs Refusal (sc.chunk kind info text) := by
  refine (errs_length info).bind fun {_ n _} _ => (errs_take n).bind fun {_ bytes _} _ => ?_
  split
  · split
    · exact errs_pure _
    · exact errs_fail (refusal _)
  · exact errs_pure _

theorem errs_more (count : Option Nat) (index : Nat) : Errs Refusal (more count index) := by
  cases count with
  | some count => exact errs_pure _
  | none => exact (errs_atStop 255).map _

theorem errs_nextPart (kind : Nat) (text : Option Text) :
    Errs Refusal (sc.nextPart kind text) := by
  refine (errs_charge (refusal _) _).bind fun _ => (errs_byte (refusal _)).bind fun _ => ?_
  split
  · exact errs_fail (refusal _)
  · exact errs_chunk _ _ _

theorem errs_string (kind info : Nat) (collect : Bool) :
    Errs Refusal (sc.string kind info collect) := by
  rw [string]
  split
  · exact errs_chunk _ _ _
  · exact errs_whileMore (errs_more none) (shrinks_more none) (errs_nextPart kind)
      (consumes_nextPart kind) _

/-- Text that is collected stays collected. -/
theorem chunk_isSome {kind info : Nat} {text text' : Option Text} {s s' : Cursor}
    (htext : text.isSome = true) (h : sc.chunk kind info text s = .ok (text', s')) :
    text'.isSome = true := by
  obtain ⟨n, s₁, -, h⟩ := bind_eq_ok.mp h
  obtain ⟨bytes, s₂, -, h⟩ := bind_eq_ok.mp h
  by_cases hkind : kind = 3
  · rw [if_pos hkind] at h
    cases hchars : Utf8.chars bytes with
    | none =>
        rw [hchars] at h
        cases h
    | some chunk =>
        rw [hchars] at h
        cases h
        rw [Option.isSome_map]
        exact htext
  · rw [if_neg hkind] at h
    cases h
    exact htext

theorem string_isSome {info : Nat} {text : Option Text} {s s' : Cursor}
    (h : sc.string 3 info true s = .ok (text, s')) : text.isSome = true := by
  rw [string] at h
  split at h
  · exact chunk_isSome rfl h
  · refine whileMore_keeps (Q := fun text => text.isSome = true) (fun {text} _ _ _ htext hround => ?_)
      h rfl
    obtain ⟨_, s₁, -, hround⟩ := bind_eq_ok.mp hround
    obtain ⟨header, s₂, -, hround⟩ := bind_eq_ok.mp hround
    split at hround
    · cases hround
    · exact chunk_isSome htext hround

theorem errs_key : Errs Refusal sc.key := by
  refine (errs_charge (refusal _) _).bind fun _ => (errs_byte (refusal _)).bind fun _ => ?_
  split
  · exact errs_fail (refusal _)
  · refine (errs_string _ _ _).bind fun {_ text _} htext => ?_
    have hsome := string_isSome htext
    split
    · exact errs_pure _
    · cases hsome

theorem errs_element {nested : Scan String Unit} (hnested : Errs Refusal nested) (kind : Nat)
    (dictionary : Bool) (keys : List Text) :
    Errs Refusal (sc.element nested kind dictionary keys) := by
  rw [element]
  split
  · refine errs_key.bind fun _ => ?_
    split
    · exact errs_fail (refusal _)
    · exact hnested.bind fun _ => errs_pure _
  · refine hnested.bind fun _ => ?_
    split
    · exact hnested.bind fun _ => errs_pure _
    · exact errs_pure _

theorem errs_simple (info : Nat) : Errs Refusal (sc.simple info) := by
  rw [simple]
  split
  · exact errs_pure _
  · split
    · refine (errs_byte (refusal _)).bind fun _ => ?_
      split
      · exact errs_fail (refusal _)
      · exact errs_pure _
    · split
      · exact (errs_take _).bind fun _ => errs_pure _
      · exact errs_fail (refusal _)

theorem errs_counted (info : Nat) : Errs Refusal (sc.counted info) := by
  rw [counted]
  split
  · exact errs_pure _
  · exact (errs_length info).map _

theorem errs_valueWith {nested : Scan String Unit} {depth : Nat} (hconsumes : Consumes nested)
    (hnested : depth < 64 → Errs Refusal nested) : Errs Refusal (sc.valueWith nested depth) := by
  have helements : ∀ kind info : Nat, Errs Refusal
      (if depth ≥ 64 then fail (invalid "CBOR depth")
        else do
          let count ← sc.counted info
          let dictionary := decide (kind = 5) && (sc.metadata || decide (depth = 0))
          let _ ← whileMore outOfRounds (more count) (sc.element nested kind dictionary) []
          pure () : Scan String Unit) := by
    intro kind info
    split
    · exact errs_fail (refusal _)
    · next hdepth =>
      have hnested := hnested (Nat.lt_of_not_le hdepth)
      refine (errs_counted info).bind fun {_ count _} _ => ?_
      refine (errs_whileMore (errs_more count) (shrinks_more count) (errs_element hnested kind _)
        (consumes_element hconsumes kind _) _).bind fun _ => errs_pure _
  have htagged : ∀ info : Nat, Errs Refusal
      (if depth ≥ 64 then fail (invalid "CBOR depth")
        else do
          let _ ← sc.length info
          nested : Scan String Unit) := by
    intro info
    split
    · exact errs_fail (refusal _)
    · next hdepth => exact (errs_length info).bind fun _ => hnested (Nat.lt_of_not_le hdepth)
  refine (errs_charge (refusal _) _).bind fun _ => (errs_byte (refusal _)).bind fun {_ header _} _ => ?_
  match major header with
  | 0 | 1 => exact (errs_length _).bind fun _ => errs_pure _
  | 2 | 3 => exact (errs_string _ _ _).bind fun _ => errs_pure _
  | 4 => exact helements 4 _
  | 5 => exact helements 5 _
  | 6 => exact htagged _
  | n + 7 => exact errs_simple _

/-- The depth runs out before the room does. -/
theorem errs_value (room : Nat) {depth : Nat} (hroom : room + depth = 65) (hdepth : depth ≤ 64) :
    Errs Refusal (sc.value room depth) := by
  induction room generalizing depth with
  | zero => omega
  | succ room ih =>
      exact errs_valueWith (consumes_value room (depth + 1)) fun h => ih (by omega) h

end Native.Scanner

theorem ended_refusal {trailing : String} {p : Scan String Unit} {s : Cursor} {e : String}
    (htrailing : Native.Scanner.Refusal trailing) (hp : Errs Native.Scanner.Refusal p)
    (h : ended trailing (p s) = .error e) : Native.Scanner.Refusal e := by
  cases hs : p s with
  | error e' =>
      rw [hs] at h
      cases h
      exact hp hs
  | ok r =>
      rw [hs, ended] at h
      by_cases hrest : r.2.rest ≠ []
      · rw [if_pos hrest] at h
        cases h
        exact htrailing
      · rw [if_neg hrest] at h
        cases h

/-- Whatever the input is, the validator comes to an end with an answer of its own. -/
theorem native_validate_ends (bytes : Bytes) (root : Nat) (metadata : Bool) :
    Native.validate bytes root metadata = .ok () ∨
      ∃ reason, Native.validate bytes root metadata = .error (Native.invalid reason) := by
  cases h : Native.validate bytes root metadata with
  | ok u => exact .inl rfl
  | error e =>
      have hrefusal : Native.Scanner.Refusal e := by
        cases bytes with
        | nil =>
            cases h
            exact Native.Scanner.refusal _
        | cons first rest =>
            rw [Native.validate] at h
            dsimp only at h
            by_cases hbad : (first :: rest).length >
                (if metadata then 1024 * 1024 else 64 * 1024 * 1024) ∨ major first ≠ root
            · rw [if_pos hbad] at h
              cases h
              exact Native.Scanner.refusal _
            · rw [if_neg hbad] at h
              exact ended_refusal (Native.Scanner.refusal _)
                (Native.Scanner.errs_value 65 rfl (by decide)) h
      obtain ⟨reason, rfl⟩ := hrefusal
      exact .inr ⟨reason, rfl⟩

/-- **The validator and the grammar.**  The validator accepts exactly the inputs within its size
that are one well-formed item of the root kind within the bounds, with text in UTF-8 and different
texts for the keys of its dictionaries; everything else it refuses. -/
theorem native_validate_exact (bytes : Bytes) (root : Nat) (metadata : Bool) :
    (Native.validate bytes root metadata = .ok () ↔
      bytes.length ≤ maxBytes metadata ∧ Acceptable bytes root metadata) ∧
    (Native.validate bytes root metadata = .ok () ∨
      ∃ reason, Native.validate bytes root metadata = .error (Native.invalid reason)) :=
  ⟨native_validate_grammar bytes root metadata, native_validate_ends bytes root metadata⟩

/-! ### The size of the input, and the keys at its root -/

/-- What is asked of an item at a depth, if keys are looked at for metadata only. -/
structure Demanded (metadata : Bool) (depth : Nat) (t : Term) : Prop where
  nests : t.Nests → depth < 64
  text : t.ValidText
  keyed : metadata = true → t.Keyed

/-- The same item, whatever the size of the input is. -/
def Wanted (bytes : Bytes) (root : Nat) (metadata : Bool) : Prop :=
  ∃ t, Written bytes (.item t) ∧ t.major = root ∧ t.size ≤ maxItems ∧
    t.Every (Demanded metadata) 0

/-- The map from the number 0 to the number 0. -/
def numberKey : Bytes := [0xA1, 0x00, 0x00]

theorem wanted_numberKey : Wanted numberKey 5 false := by
  have hzero : Written [0x00] (.item (.int false 0)) :=
    .int (show major 0x00 = 0 from rfl) (show Reads (argument 0) [] 0 from rfl)
  have hrow : Written ([0x00] ++ ([0x00] ++ [])) (.row [.int false 0, .int false 0]) :=
    .cons hzero (.cons hzero .nil)
  have hsized : Sized 0xA1 [] 1 [] := .inl ⟨rfl, rfl⟩
  have hdemanded : ∀ depth, Demanded false depth (.int false 0) := fun _ => ⟨nofun, nofun, nofun⟩
  refine ⟨.map [.int false 0, .int false 0], ?_, rfl, by decide, ?_⟩
  · exact .map (show major 0xA1 = 5 from rfl) hsized rfl hrow
  · exact ⟨⟨fun _ => by decide, nofun, nofun⟩, hdemanded 1, hdemanded 1, trivial⟩

/-- A byte string of a mebibyte, with its head. -/
def longString (content : Bytes) : Bytes := 0x5A :: ([0x00, 0x10, 0x00, 0x00] ++ content)

theorem refused_longString {content : Bytes} (h : content.length = 1048576) :
    Wanted (longString content) 2 true ∧ Native.validate (longString content) 2 true ≠ .ok () := by
  constructor
  · have hlength : Reads (argument (info 0x5A)) [0x00, 0x10, 0x00, 0x00] content.length := by
      rw [h]
      rfl
    refine ⟨.string false content, .string (show major 0x5A = 2 from rfl) hlength, rfl, ?_, ?_⟩
    · rw [Term.size]
      decide
    · exact ⟨nofun, nofun, fun _ => trivial⟩
  · intro hok
    have hsize := ((native_validate_grammar (longString content) 2 true).mp hok).1
    have hmax : maxBytes true = 1048576 := rfl
    rw [longString, List.length_cons, List.length_append, h, hmax] at hsize
    exact absurd hsize (by decide)

/-- The validator refuses a number for a key at the root, and metadata of more than a mebibyte. -/
theorem refused_key_and_size :
    (Wanted numberKey 5 false ∧ Native.validate numberKey 5 false ≠ .ok ()) ∧
      (Wanted (longString (List.replicate 1048576 0)) 2 true ∧
        Native.validate (longString (List.replicate 1048576 0)) 2 true ≠ .ok ()) :=
  ⟨⟨wanted_numberKey, by decide +kernel⟩, refused_longString (List.length_replicate ..)⟩

end FlatBuffers

end Connectanum
