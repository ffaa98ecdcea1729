import Connectanum.Lib.JsonGrammar

/-!
# Http — AuthBody

The second reading of an HTTP auth body (`_httpJsonObjectDuplicateEvidence`).  The body is decoded
as JSON; a scanner of its own then goes over the same text and notes which keys of the top-level
object occur twice, and which of their values hold an object with a repeated key.

* `parseValue`, `parseMembers`, `parseItems`: the scanner, over the text that is left;
* `parseValue_written`: it reads exactly the values of the grammar;
* `http_json_object_duplicate_evidence`: for every object, the keys it returns.
-/

namespace Connectanum.HttpAuthBody
open Json

/-! ### The scanner -/

inductive Failure where
  | format (message : String)
  /-- What `jsonDecode` throws at a string literal. -/
  | decoder
  /-- More nested calls than the text has room for. -/
  | depth
  deriving DecidableEq

def invalidString : Failure := .format "HTTP auth body contains an invalid JSON string"
def unterminatedKey : Failure := .format "HTTP auth body contains an unterminated JSON key"
def invalidMember : Failure := .format "HTTP auth body contains an invalid JSON member"
def incompleteObject : Failure := .format "HTTP auth body contains an incomplete JSON object"
def incompleteArray : Failure := .format "HTTP auth body contains an incomplete JSON array"
def incompleteValue : Failure := .format "HTTP auth body contains an incomplete JSON value"
def noObject : Failure := .format "HTTP auth body must decode to a JSON object"
def trailingData : Failure := .format "HTTP auth body contains trailing JSON data"

/-- What a scan returns, and the text from `index` on. -/
abbrev Scan (α : Type) := Except Failure (α × Text)

def skipWhitespace (t : Text) : Text := t.dropWhile isSpace

/-- The text after `unit`, when that is the next one. -/
def after? (unit : UInt16) : Text → Option Text
  | [] => none
  | c :: rest => if c == unit then some rest else none

/-- The units up to the closing quote, and the text from `stringEnd` on. -/
def stringEnd (escaped : Bool) : Text → Scan Text
  | [] => .error unterminatedKey
  | c :: rest =>
      if escaped then (stringEnd false rest).map fun (units, rest) => (c :: units, rest)
      else if c == 0x5C then (stringEnd true rest).map fun (units, rest) => (c :: units, rest)
      else if c == 0x22 then .ok ([c], rest)
      else (stringEnd false rest).map fun (units, rest) => (c :: units, rest)

def parseString (t : Text) : Scan Text :=
  match after? 0x22 t with
  | none => .error invalidString
  | some rest =>
      (stringEnd false rest).bind fun (units, rest) =>
        match decode (0x22 :: units) with
        | some (.string key) => .ok (key, rest)
        | _ => .error .decoder

/-- Where a number or a word ends. -/
def endsLiteral (c : UInt16) : Bool := c == 0x2C || c == 0x5D || c == 0x7D || isSpace c

/-- A key, the colon and the value, and the white space after it. -/
def parseMember (parseValue : Text → Scan Bool) (t : Text) : Scan (Text × Bool) :=
  (parseString (skipWhitespace t)).bind fun (key, rest) =>
    match after? 0x3A (skipWhitespace rest) with
    | none => .error invalidMember
    | some rest =>
        (parseValue rest).map fun (duplicate, rest) => ((key, duplicate), skipWhitespace rest)

mutual

def parseValue : Nat → Text → Scan Bool
  | 0, _ => .error .depth
  | depth + 1, t =>
      match skipWhitespace t with
      | [] => .error incompleteValue
      | c :: rest =>
          if c == 0x7B then parseObject depth rest
          else if c == 0x5B then parseArray depth rest
          else if c == 0x22 then (parseString (c :: rest)).map fun (_, rest) => (false, rest)
          else .ok (false, (c :: rest).dropWhile fun c => !endsLiteral c)

def parseObject : Nat → Text → Scan Bool
  | 0, _ => .error .depth
  | depth + 1, t =>
      match after? 0x7D (skipWhitespace t) with
      | some rest => .ok (false, rest)
      | none => parseMembers depth [] false (skipWhitespace t)

/-- The loop over the members: the keys that were seen, and `hasDuplicateMembers`. -/
def parseMembers : Nat → List Text → Bool → Text → Scan Bool
  | 0, _, _, _ => .error .depth
  | depth + 1, seenKeys, hasDuplicateMembers, t =>
      if t.isEmpty then .error incompleteObject
      else
        (parseMember (parseValue depth) t).bind fun ((key, duplicate), rest) =>
          let hasDuplicateMembers := hasDuplicateMembers || seenKeys.contains key || duplicate
          match after? 0x7D rest with
          | some rest => .ok (hasDuplicateMembers, rest)
          | none =>
              match after? 0x2C rest with
              | none => .error incompleteObject
              | some rest => parseMembers depth (seenKeys.insert key) hasDuplicateMembers rest

def parseArray : Nat → Text → Scan Bool
  | 0, _ => .error .depth
  | depth + 1, t =>
      match after? 0x5D (skipWhitespace t) with
      | some rest => .ok (false, rest)
      | none => parseItems depth false (skipWhitespace t)

/-- The loop over the items. -/
def parseItems : Nat → Bool → Text → Scan Bool
  | 0, _, _ => .error .depth
  | depth + 1, hasDuplicateMembers, t =>
      if t.isEmpty then .error incompleteArray
      else
        (parseValue depth t).bind fun (duplicate, rest) =>
          let hasDuplicateMembers := hasDuplicateMembers || duplicate
          match after? 0x5D (skipWhitespace rest) with
          | some rest => .ok (hasDuplicateMembers, rest)
          | none =>
              match after? 0x2C (skipWhitespace rest) with
              | none => .error incompleteArray
              | some rest => parseItems depth hasDuplicateMembers rest

end

structure DuplicateEvidence where
  duplicateKeys : List Text := []
  keysWithDuplicateMembers : List Text := []

/-- The loop over the members of the top-level object, to the text after it. -/
def topLevelMembers : Nat → List Text → DuplicateEvidence → Text → Scan DuplicateEvidence
  | 0, _, _, _ => .error .depth
  | depth + 1, seenKeys, evidence, t =>
      if t.isEmpty then .ok (evidence, t)
      else
        (parseMember (parseValue depth) t).bind fun ((key, duplicate), rest) =>
          let duplicateKeys :=
            if seenKeys.contains key then evidence.duplicateKeys.insert key
            else evidence.duplicateKeys
          let keysWithDuplicateMembers :=
            if duplicate then evidence.keysWithDuplicateMembers.insert key
            else evidence.keysWithDuplicateMembers
          match after? 0x7D rest with
          | some rest => .ok (⟨duplicateKeys, keysWithDuplicateMembers⟩, rest)
          | none =>
              match after? 0x2C rest with
              | none => .error incompleteObject
              | some rest =>
                  topLevelMembers depth (seenKeys.insert key)
                    ⟨duplicateKeys, keysWithDuplicateMembers⟩ rest

/-- Every call of the scanner goes one unit on, or is one of three calls that stand at one unit. -/
def callDepth (source : Text) : Nat := 3 * source.length + 3

def httpJsonObjectDuplicateEvidence (source : Text) : Except Failure DuplicateEvidence :=
  match after? 0x7B (skipWhitespace source) with
  | none => .error noObject
  | some t =>
      match after? 0x7D (skipWhitespace t) with
      | some rest => if (skipWhitespace rest).isEmpty then .ok {} else .error trailingData
      | none =>
          (topLevelMembers (callDepth source) [] {} (skipWhitespace t)).bind fun (evidence, rest) =>
            if (skipWhitespace rest).isEmpty then .ok evidence else .error trailingData

/-! ### Reading the units -/

theorem after?_self (unit : UInt16) (rest : Text) : after? unit (unit :: rest) = some rest := by
  simp [after?]

theorem after?_of_ne {unit c : UInt16} (h : c ≠ unit) (rest : Text) :
    after? unit (c :: rest) = none := by
  simp [after?, h]

theorem skip_spaces {s : Text} (hs : Spaces s) (t : Text) :
    skipWhitespace (s ++ t) = skipWhitespace t :=
  List.dropWhile_append_of_pos hs

theorem skip_start {c : UInt16} (h : isSpace c = false) (t : Text) :
    skipWhitespace (c :: t) = c :: t := by
  simp [skipWhitespace, h]

theorem skip_skip (t : Text) : skipWhitespace (skipWhitespace t) = skipWhitespace t := by
  induction t with
  | nil => rfl
  | cons c rest ih =>
      cases h : isSpace c with
      | false => rw [skip_start h, skip_start h]
      | true =>
          have hskip : skipWhitespace (c :: rest) = skipWhitespace rest := by
            simp [skipWhitespace, h]
          rw [hskip, ih]

/-- A quote that is not escaped ends the literal. -/
theorem stringEnd_chars {t units : Text} (h : Chars t units) (rest : Text) :
    stringEnd false (t ++ 0x22 :: rest) = .ok (t ++ [0x22], rest) := by
  have hhex : ∀ {c : UInt16} {d : Nat}, hexDigit? c = some d → c ≠ 0x5C ∧ c ≠ 0x22 := by
    intro c d hc
    constructor
    · rintro rfl
      cases hc
    · rintro rfl
      cases hc
  induction h with
  | nil => rfl
  | @plain c t units hc _ ih =>
      simp only [plain, Bool.and_eq_true, bne_iff_ne] at hc
      simp [stringEnd, hc.1.1, hc.1.2, ih, Except.map]
  | escape _ _ ih => simp [stringEnd, ih, Except.map]
  | unicode h₁ h₂ h₃ h₄ _ ih =>
      simp [stringEnd, hhex h₁, hhex h₂, hhex h₃, hhex h₄, ih, Except.map]

theorem parseString_quoted {k key : Text} (h : Quoted k key) (rest : Text) :
    parseString (k ++ rest) = .ok (key, rest) := by
  have hdecode := decode_quoted h
  obtain @⟨t, units, h⟩ := h
  have happend : 0x22 :: (t ++ [0x22]) ++ rest = 0x22 :: (t ++ 0x22 :: rest) := by simp
  rw [happend, parseString, after?_self]
  simp [stringEnd_chars h, Except.bind, hdecode]

/-! ### Where a value starts and ends -/

/-- What stands after a value. -/
def Ends (rest : Text) : Prop := ∀ c, rest.head? = some c → endsLiteral c = true

/-- After white space stands a unit that no value ends at. -/
def Starts (t : Text) : Prop := ∃ s c rest, t = s ++ c :: rest ∧ Spaces s ∧ endsLiteral c = false

/-- A number or a word, for the scanner. -/
def Literal (t : Text) : Prop :=
  t ≠ [] ∧ ∀ c ∈ t, endsLiteral c = false ∧ c ≠ 0x7B ∧ c ≠ 0x5B ∧ c ≠ 0x22

theorem ends_append {s : Text} {c : UInt16} (hs : Spaces s) (hc : endsLiteral c = true)
    (rest : Text) : Ends (s ++ c :: rest) := by
  intro d hd
  cases s with
  | nil =>
      cases hd
      exact hc
  | cons e s =>
      obtain rfl : e = d := Option.some.inj hd
      have hspace : isSpace e = true := hs e List.mem_cons_self
      rw [endsLiteral, hspace, Bool.or_true]

theorem not_space {c : UInt16} (h : endsLiteral c = false) : isSpace c = false := by
  simp only [endsLiteral, Bool.or_eq_false_iff] at h
  exact h.2

theorem literal_word (w : Word) : Literal w.letters := by
  have hall : w.letters.all (fun c => !endsLiteral c && c != 0x7B && c != 0x5B && c != 0x22) := by
    cases w <;> rfl
  refine ⟨by cases w <;> nofun, fun c hc => ?_⟩
  simpa [and_assoc] using List.all_eq_true.mp hall c hc

theorem literal_number {t : Text} (h : Number t) : Literal t := by
  have hnone : ∀ d ∈ [0x2C, 0x5D, 0x7D, 0x20, 0x09, 0x0A, 0x0D, 0x7B, 0x5B, 0x22],
      ¬ofNumber d := by
    simp [ofNumber, isDigit]
  refine ⟨h.ne_nil, fun c hc => ?_⟩
  have hne : ∀ d ∈ [0x2C, 0x5D, 0x7D, 0x20, 0x09, 0x0A, 0x0D, 0x7B, 0x5B, 0x22], c ≠ d :=
    fun d hd hcd => hnone d hd (hcd ▸ h.ofNumber c hc)
  simp only [List.forall_mem_cons] at hne
  simp [endsLiteral, isSpace, hne]

theorem Literal.starts {t : Text} (h : Literal t) : Starts t := by
  cases t with
  | nil => exact absurd rfl h.1
  | cons c t => exact ⟨[], c, t, rfl, nofun, (h.2 c List.mem_cons_self).1⟩

theorem Starts.append {s t : Text} (hs : Spaces s) (h : Starts t) (rest : Text) :
    Starts (s ++ (t ++ rest)) := by
  obtain ⟨s', c, t, rfl, hs', hc⟩ := h
  refine ⟨s ++ s', c, t ++ rest, by simp, fun d hd => ?_, hc⟩
  rcases List.mem_append.mp hd with hd | hd
  · exact hs d hd
  · exact hs' d hd

theorem Quoted.starts {k key : Text} (h : Quoted k key) : Starts k := by
  obtain ⟨h⟩ := h
  exact ⟨[], 0x22, _, rfl, nofun, by decide⟩

theorem starts_of_written {t : Text} {part : Part} (h : Written t part) : Starts t := by
  induction h with
  | word w => exact (literal_word w).starts
  | number h => exact (literal_number h).starts
  | string h => exact Quoted.starts h
  | emptyList _ => exact ⟨[], 0x5B, _, rfl, nofun, by decide⟩
  | list _ _ => exact ⟨[], 0x5B, _, rfl, nofun, by decide⟩
  | emptyObject _ => exact ⟨[], 0x7B, _, rfl, nofun, by decide⟩
  | object _ _ => exact ⟨[], 0x7B, _, rfl, nofun, by decide⟩
  | lastItem hs _ _ ih => exact ih.append hs _
  | item hs _ _ _ ih _ => exact ih.append hs _
  | lastMember hs hk _ _ _ _ _ => exact (Quoted.starts hk).append hs _
  | member hs hk _ _ _ _ _ _ _ => exact (Quoted.starts hk).append hs _

theorem Starts.skip {t : Text} (h : Starts t) (rest : Text) :
    ∃ c rest', skipWhitespace (t ++ rest) = c :: rest' ∧ endsLiteral c = false := by
  obtain ⟨s, c, t, rfl, hs, hc⟩ := h
  refine ⟨c, t ++ rest, ?_, hc⟩
  rw [List.append_assoc, skip_spaces hs, List.cons_append, skip_start (not_space hc)]

/-- Before a value stands neither a comma nor a closing bracket. -/
theorem Starts.after? {t : Text} (h : Starts t) {unit : UInt16} (hunit : endsLiteral unit = true)
    (rest : Text) : after? unit (skipWhitespace (t ++ rest)) = none := by
  obtain ⟨c, rest', hskip, hc⟩ := h.skip rest
  rw [hskip]
  refine after?_of_ne ?_ rest'
  rintro rfl
  exact Bool.false_ne_true (hc.symm.trans hunit)

theorem Starts.isEmpty_append {t : Text} (h : Starts t) (rest : Text) :
    (t ++ rest).isEmpty = false := by
  obtain ⟨s, c, t, rfl, -, -⟩ := h
  cases s <;> rfl

theorem Starts.isEmpty_skip {t : Text} (h : Starts t) (rest : Text) :
    (skipWhitespace (t ++ rest)).isEmpty = false := by
  obtain ⟨c, rest', hskip, -⟩ := h.skip rest
  rw [hskip]
  rfl

/-! ### Keys that occur again -/

/-- `key` stands among `keys` and was seen, or stands there twice. -/
def Again (seen keys : List Text) (key : Text) : Prop :=
  (key ∈ seen ∧ key ∈ keys) ∨ 1 < keys.count key

theorem again_nil {seen : List Text} {key : Text} : ¬Again seen [] key := by
  simp [Again]

theorem again_cons {seen keys : List Text} {k key : Text} :
    Again seen (k :: keys) key ↔ (key = k ∧ k ∈ seen) ∨ Again (seen.insert k) keys key := by
  by_cases h : key = k
  · subst h
    simp only [Again, List.count_cons_self, List.mem_cons, List.mem_insert_iff, true_or, true_and,
      and_true, Nat.lt_add_left_iff_pos, List.count_pos_iff]
    have htwice : 1 < keys.count key → key ∈ keys := fun h =>
      List.count_pos_iff.mp (Nat.lt_trans Nat.zero_lt_one h)
    grind
  · simp [Again, h, List.count_cons_of_ne (Ne.symm h)]

theorem exists_again {keys : List Text} : (∃ key, Again [] keys key) ↔ ¬keys.Nodup := by
  simp [Again, List.nodup_iff_count]

/-! ### The scanner on a written value -/

/-- The scanner reads `t` as the value `v`, after white space and before what ends a value. -/
def ReadsValue (t : Text) (v : Tree) : Prop :=
  ∀ depth s rest, 3 * t.length ≤ depth → Spaces s → Ends rest →
    ∃ duplicate, parseValue depth (s ++ (t ++ rest)) = .ok (duplicate, rest) ∧
      (duplicate = true ↔ Repeats v)

theorem parseValue_start {c : UInt16} {s : Text} (hs : Spaces s) (hc : endsLiteral c = false)
    (depth : Nat) (t : Text) :
    parseValue (depth + 1) (s ++ c :: t) =
      if c == 0x7B then parseObject depth t
      else if c == 0x5B then parseArray depth t
      else if c == 0x22 then (parseString (c :: t)).map fun (_, rest) => (false, rest)
      else .ok (false, (c :: t).dropWhile fun c => !endsLiteral c) := by
  rw [parseValue, skip_spaces hs, skip_start (not_space hc)]

theorem parseValue_skip (depth : Nat) (t : Text) :
    parseValue depth (skipWhitespace t) = parseValue depth t := by
  cases depth with
  | zero => rw [parseValue, parseValue]
  | succ depth => rw [parseValue, parseValue, skip_skip]

theorem readsValue_literal {t literal : Text} (h : Literal t) : ReadsValue t (.scalar literal) := by
  intro depth s rest hdepth hs hends
  refine ⟨false, ?_, iff_of_false Bool.false_ne_true repeats_scalar⟩
  have hdrop : (t ++ rest).dropWhile (fun c => !endsLiteral c) = rest := by
    rw [List.dropWhile_append_of_pos fun c hc => by simp [(h.2 c hc).1]]
    cases rest with
    | nil => rfl
    | cons c rest => simp [hends c rfl]
  cases t with
  | nil => exact absurd rfl h.1
  | cons c t =>
      obtain ⟨hc, hobject, hlist, hquote⟩ := h.2 c List.mem_cons_self
      obtain ⟨d, rfl⟩ : ∃ d, depth = d + 1 :=
        ⟨depth - 1, by rw [List.length_cons] at hdepth; omega⟩
      rw [List.cons_append, parseValue_start hs hc]
      rw [List.cons_append] at hdrop
      simp [hobject, hlist, hquote, hdrop]

theorem readsValue_string {t units : Text} (h : Quoted t units) :
    ReadsValue t (.string units) := by
  intro depth s rest hdepth hs _
  refine ⟨false, ?_, iff_of_false Bool.false_ne_true repeats_string⟩
  have hread := parseString_quoted h rest
  obtain ⟨h⟩ := h
  obtain ⟨d, rfl⟩ : ∃ d, depth = d + 1 := ⟨depth - 1, by rw [List.length_cons] at hdepth; omega⟩
  rw [List.cons_append] at hread ⊢
  rw [parseValue_start hs (by decide), hread]
  rfl

/-! #### Lists -/

/-- The loop reads `t` as items, before the closing bracket. -/
def ReadsItems (t : Text) (vs : List Tree) : Prop :=
  ∀ depth found rest, 3 * t.length + 1 ≤ depth →
    ∃ duplicate, parseItems depth found (t ++ 0x5D :: rest) = .ok (duplicate, rest) ∧
      (duplicate = true ↔ found = true ∨ ∃ v ∈ vs, Repeats v)

theorem isEmpty_append_cons (t : Text) (c : UInt16) (rest : Text) :
    (t ++ c :: rest).isEmpty = false := by
  cases t <;> rfl

/-- One turn of the loop, before a comma or the bracket. -/
theorem parseItems_step {s t s' : Text} {v : Tree} {c : UInt16} (hs : Spaces s)
    (h : ReadsValue t v) (hs' : Spaces s') (hc : endsLiteral c = true) (hspace : isSpace c = false)
    {depth : Nat} (hdepth : 3 * t.length ≤ depth) (found : Bool) (rest : Text) :
    ∃ duplicate, (duplicate = true ↔ Repeats v) ∧
      parseItems (depth + 1) found (s ++ (t ++ (s' ++ c :: rest))) =
        match after? 0x5D (c :: rest) with
        | some rest => .ok (found || duplicate, rest)
        | none =>
            match after? 0x2C (c :: rest) with
            | none => .error incompleteArray
            | some rest => parseItems depth (found || duplicate) rest := by
  obtain ⟨duplicate, hread, hduplicate⟩ := h depth s _ hdepth hs (ends_append hs' hc rest)
  refine ⟨duplicate, hduplicate, ?_⟩
  have hempty : (s ++ (t ++ (s' ++ c :: rest))).isEmpty = false := by
    rw [← List.append_assoc, ← List.append_assoc, isEmpty_append_cons]
  rw [parseItems, hempty, if_neg Bool.false_ne_true, hread, Except.bind]
  simp only [skip_spaces hs', skip_start hspace]

theorem parseItems_skip {t : Text} (h : Starts t) (depth : Nat) (found : Bool) (rest : Text) :
    parseItems depth found (skipWhitespace (t ++ rest)) = parseItems depth found (t ++ rest) := by
  cases depth with
  | zero => rw [parseItems, parseItems]
  | succ depth =>
      rw [parseItems, parseItems, parseValue_skip, h.isEmpty_append, h.isEmpty_skip]

theorem readsItems_last {s t s' : Text} {v : Tree} (hs : Spaces s) (h : ReadsValue t v)
    (hs' : Spaces s') : ReadsItems (s ++ (t ++ s')) [v] := by
  intro depth found rest hdepth
  simp only [List.length_append] at hdepth
  obtain ⟨d, rfl⟩ : ∃ d, depth = d + 1 := ⟨depth - 1, by omega⟩
  obtain ⟨duplicate, hduplicate, hstep⟩ :=
    parseItems_step (c := 0x5D) hs h hs' rfl rfl (show 3 * t.length ≤ d by omega) found rest
  refine ⟨found || duplicate, ?_, ?_⟩
  · rw [List.append_assoc, List.append_assoc, hstep, after?_self]
  · rw [Bool.or_eq_true, hduplicate]
    simp

theorem readsItems_cons {s t s' t' : Text} {v : Tree} {vs : List Tree} (hs : Spaces s)
    (h : ReadsValue t v) (hs' : Spaces s') (hrest : ReadsItems t' vs) :
    ReadsItems (s ++ (t ++ (s' ++ 0x2C :: t'))) (v :: vs) := by
  intro depth found rest hdepth
  simp only [List.length_append, List.length_cons] at hdepth
  obtain ⟨d, rfl⟩ : ∃ d, depth = d + 1 := ⟨depth - 1, by omega⟩
  obtain ⟨duplicate, hduplicate, hstep⟩ := parseItems_step (c := 0x2C) hs h hs' rfl rfl
    (show 3 * t.length ≤ d by omega) found (t' ++ 0x5D :: rest)
  obtain ⟨duplicate', hread, hduplicate'⟩ := hrest d (found || duplicate) rest (by omega)
  refine ⟨duplicate', ?_, ?_⟩
  · rw [List.append_assoc, List.append_assoc, List.append_assoc, List.cons_append, hstep,
      after?_of_ne (by decide), after?_self]
    exact hread
  · rw [hduplicate', Bool.or_eq_true, hduplicate, or_assoc]
    simp

theorem readsValue_emptyList {s' : Text} (hs' : Spaces s') :
    ReadsValue (0x5B :: (s' ++ [0x5D])) (.list []) := by
  intro depth s rest hdepth hs _
  refine ⟨false, ?_, iff_of_false Bool.false_ne_true (by simp [repeats_list])⟩
  obtain ⟨d, rfl⟩ : ∃ d, depth = d + 2 := ⟨depth - 2, by rw [List.length_cons] at hdepth; omega⟩
  rw [List.cons_append, parseValue_start hs (by decide)]
  have hclose : skipWhitespace (s' ++ [0x5D] ++ rest) = 0x5D :: rest := by
    rw [List.append_assoc, skip_spaces hs']
    exact skip_start rfl rest
  change parseArray (d + 1) (s' ++ [0x5D] ++ rest) = .ok (false, rest)
  rw [parseArray, hclose, after?_self]

theorem readsValue_list {t : Text} {vs : List Tree} (hstarts : Starts t) (h : ReadsItems t vs) :
    ReadsValue (0x5B :: (t ++ [0x5D])) (.list vs) := by
  intro depth s rest hdepth hs _
  simp only [List.length_append, List.length_cons] at hdepth
  obtain ⟨d, rfl⟩ : ∃ d, depth = d + 2 := ⟨depth - 2, by omega⟩
  obtain ⟨duplicate, hread, hduplicate⟩ := h d false rest (by omega)
  refine ⟨duplicate, ?_, by rw [hduplicate, repeats_list]; simp⟩
  rw [List.cons_append, parseValue_start hs (by decide)]
  change parseArray (d + 1) (t ++ [0x5D] ++ rest) = .ok (duplicate, rest)
  rw [List.append_assoc]
  change parseArray (d + 1) (t ++ 0x5D :: rest) = .ok (duplicate, rest)
  rw [parseArray, hstarts.after? rfl]
  exact (parseItems_skip hstarts d false (0x5D :: rest)).trans hread

/-! #### Objects -/

/-- The loop reads `t` as members, before the closing brace. -/
def ReadsMembers (t : Text) (ms : List (Text × Tree)) : Prop :=
  ∀ depth seen found rest, 3 * t.length + 1 ≤ depth →
    ∃ duplicate, parseMembers depth seen found (t ++ 0x7D :: rest) = .ok (duplicate, rest) ∧
      (duplicate = true ↔
        found = true ∨ (∃ key, Again seen (ms.map Prod.fst) key) ∨ ∃ m ∈ ms, Repeats m.2)

theorem skip_quoted {s k key : Text} (hs : Spaces s) (hk : Quoted k key) (rest : Text) :
    skipWhitespace (s ++ (k ++ rest)) = k ++ rest := by
  obtain ⟨-⟩ := hk
  rw [skip_spaces hs]
  exact skip_start rfl _

section Member
variable {s k s₁ s₂ t s₃ key : Text} {v : Tree} {c : UInt16}

theorem parseMember_skip (parseValue : Text → Scan Bool) (t : Text) :
    parseMember parseValue (skipWhitespace t) = parseMember parseValue t := by
  rw [parseMember, parseMember, skip_skip]

/-- A member is read up to the comma or the brace after it. -/
theorem parseMember_written (hs : Spaces s) (hk : Quoted k key) (hs₁ : Spaces s₁)
    (hs₂ : Spaces s₂) (h : ReadsValue t v) (hs₃ : Spaces s₃) (hc : endsLiteral c = true)
    (hspace : isSpace c = false) {depth : Nat} (hdepth : 3 * t.length ≤ depth) (rest : Text) :
    ∃ duplicate, (duplicate = true ↔ Repeats v) ∧
      parseMember (parseValue depth)
          (s ++ (k ++ (s₁ ++ 0x3A :: (s₂ ++ (t ++ (s₃ ++ c :: rest)))))) =
        .ok ((key, duplicate), c :: rest) := by
  obtain ⟨duplicate, hread, hduplicate⟩ := h depth s₂ _ hdepth hs₂ (ends_append hs₃ hc rest)
  refine ⟨duplicate, hduplicate, ?_⟩
  have hcolon : skipWhitespace (s₁ ++ 0x3A :: (s₂ ++ (t ++ (s₃ ++ c :: rest)))) =
      0x3A :: (s₂ ++ (t ++ (s₃ ++ c :: rest))) := by
    rw [skip_spaces hs₁]
    exact skip_start rfl _
  rw [parseMember, skip_quoted hs hk, parseString_quoted hk, Except.bind]
  simp only [hcolon, after?_self, hread, Except.map, skip_spaces hs₃, skip_start hspace]

end Member

theorem readsMembers_last {s k s₁ s₂ t s₃ key : Text} {v : Tree} (hs : Spaces s)
    (hk : Quoted k key) (hs₁ : Spaces s₁) (hs₂ : Spaces s₂) (h : ReadsValue t v)
    (hs₃ : Spaces s₃) :
    ReadsMembers (s ++ (k ++ (s₁ ++ 0x3A :: (s₂ ++ (t ++ s₃))))) [(key, v)] := by
  intro depth seen found rest hdepth
  simp only [List.length_append, List.length_cons] at hdepth
  obtain ⟨d, rfl⟩ : ∃ d, depth = d + 1 := ⟨depth - 1, by omega⟩
  obtain ⟨duplicate, hduplicate, hread⟩ := parseMember_written (c := 0x7D) hs hk hs₁ hs₂ h hs₃
    rfl rfl (show 3 * t.length ≤ d by omega) rest
  refine ⟨found || seen.contains key || duplicate, ?_, ?_⟩
  · rw [parseMembers, isEmpty_append_cons, if_neg Bool.false_ne_true]
    simp only [List.append_assoc, List.cons_append, hread, Except.bind, after?_self]
  · simp [hduplicate, again_cons, again_nil, or_assoc]

theorem readsMembers_cons {s k s₁ s₂ t s₃ key t' : Text} {v : Tree} {ms : List (Text × Tree)}
    (hs : Spaces s) (hk : Quoted k key) (hs₁ : Spaces s₁) (hs₂ : Spaces s₂)
    (h : ReadsValue t v) (hs₃ : Spaces s₃) (hrest : ReadsMembers t' ms) :
    ReadsMembers (s ++ (k ++ (s₁ ++ 0x3A :: (s₂ ++ (t ++ (s₃ ++ 0x2C :: t'))))))
      ((key, v) :: ms) := by
  intro depth seen found rest hdepth
  simp only [List.length_append, List.length_cons] at hdepth
  obtain ⟨d, rfl⟩ : ∃ d, depth = d + 1 := ⟨depth - 1, by omega⟩
  obtain ⟨duplicate, hduplicate, hread⟩ := parseMember_written (c := 0x2C) hs hk hs₁ hs₂ h hs₃
    rfl rfl (show 3 * t.length ≤ d by omega) (t' ++ 0x7D :: rest)
  obtain ⟨duplicate', hread', hduplicate'⟩ := hrest d (seen.insert key)
    (found || seen.contains key || duplicate) rest (by omega)
  refine ⟨duplicate', ?_, ?_⟩
  · rw [parseMembers, isEmpty_append_cons, if_neg Bool.false_ne_true]
    simp only [List.append_assoc, List.cons_append, hread, Except.bind,
      after?_of_ne (show (0x2C : UInt16) ≠ 0x7D by decide), after?_self, hread']
  · simp only [hduplicate', Bool.or_eq_true, hduplicate, List.contains_iff_mem, List.map_cons,
      again_cons, exists_or, exists_eq_left, List.exists_mem_cons_iff]
    simp only [or_assoc]
    exact or_congr_right (or_congr_right or_left_comm)

theorem readsValue_emptyObject {s' : Text} (hs' : Spaces s') :
    ReadsValue (0x7B :: (s' ++ [0x7D])) (.object []) := by
  intro depth s rest hdepth hs _
  refine ⟨false, ?_, iff_of_false Bool.false_ne_true (by simp [repeats_object])⟩
  obtain ⟨d, rfl⟩ : ∃ d, depth = d + 2 := ⟨depth - 2, by rw [List.length_cons] at hdepth; omega⟩
  rw [List.cons_append, parseValue_start hs (by decide)]
  have hclose : skipWhitespace (s' ++ [0x7D] ++ rest) = 0x7D :: rest := by
    rw [List.append_assoc, skip_spaces hs']
    exact skip_start rfl rest
  change parseObject (d + 1) (s' ++ [0x7D] ++ rest) = .ok (false, rest)
  rw [parseObject, hclose, after?_self]

theorem parseMembers_skip {t : Text} (h : Starts t) (depth : Nat) (seen : List Text) (found : Bool)
    (rest : Text) : parseMembers depth seen found (skipWhitespace (t ++ rest)) =
      parseMembers depth seen found (t ++ rest) := by
  cases depth with
  | zero => rw [parseMembers, parseMembers]
  | succ depth =>
      rw [parseMembers, parseMembers, h.isEmpty_append, h.isEmpty_skip, parseMember_skip]

theorem readsValue_object {t : Text} {ms : List (Text × Tree)} (hstarts : Starts t)
    (h : ReadsMembers t ms) : ReadsValue (0x7B :: (t ++ [0x7D])) (.object ms) := by
  intro depth s rest hdepth hs _
  simp only [List.length_append, List.length_cons] at hdepth
  obtain ⟨d, rfl⟩ : ∃ d, depth = d + 2 := ⟨depth - 2, by omega⟩
  obtain ⟨duplicate, hread, hduplicate⟩ := h d [] false rest (by omega)
  refine ⟨duplicate, ?_, by rw [hduplicate, repeats_object, exists_again]; simp⟩
  rw [List.cons_append, parseValue_start hs (by decide)]
  change parseObject (d + 1) (t ++ [0x7D] ++ rest) = .ok (duplicate, rest)
  rw [List.append_assoc]
  change parseObject (d + 1) (t ++ 0x7D :: rest) = .ok (duplicate, rest)
  rw [parseObject, hstarts.after? rfl]
  exact (parseMembers_skip hstarts d [] false (0x7D :: rest)).trans hread

/-- **The scanner and the grammar.**  What the grammar writes, the scanner reads as that. -/
theorem reads_written {t : Text} {part : Part} (h : Written t part) :
    match part with
    | .value v => ReadsValue t v
    | .items vs => ReadsItems t vs
    | .members ms => ReadsMembers t ms := by
  induction h with
  | word w => exact readsValue_literal (literal_word w)
  | number h => exact readsValue_literal (literal_number h)
  | string h => exact readsValue_string h
  | emptyList hs => exact readsValue_emptyList hs
  | list h ih => exact readsValue_list (starts_of_written h) ih
  | emptyObject hs => exact readsValue_emptyObject hs
  | object h ih => exact readsValue_object (starts_of_written h) ih
  | lastItem hs _ hs' ih => exact readsItems_last hs ih hs'
  | item hs _ hs' _ ih ihrest => exact readsItems_cons hs ih hs' ihrest
  | lastMember hs hk hs₁ hs₂ _ hs₃ ih => exact readsMembers_last hs hk hs₁ hs₂ ih hs₃
  | member hs hk hs₁ hs₂ _ hs₃ _ ih ihrest =>
      exact readsMembers_cons hs hk hs₁ hs₂ ih hs₃ ihrest

/-! ### The top-level object -/

/-- What the loop over the top-level members adds to the evidence. -/
structure Noted (seen : List Text) (before : DuplicateEvidence) (ms : List (Text × Tree))
    (after : DuplicateEvidence) : Prop where
  keys : ∀ key, key ∈ after.duplicateKeys ↔
    key ∈ before.duplicateKeys ∨ Again seen (ms.map Prod.fst) key
  nested : ∀ key, key ∈ after.keysWithDuplicateMembers ↔
    key ∈ before.keysWithDuplicateMembers ∨ ∃ v, (key, v) ∈ ms ∧ Repeats v

/-- The evidence after one member. -/
def DuplicateEvidence.note (evidence : DuplicateEvidence) (seen : List Text) (key : Text)
    (duplicate : Bool) : DuplicateEvidence :=
  { duplicateKeys :=
      if seen.contains key then evidence.duplicateKeys.insert key else evidence.duplicateKeys
    keysWithDuplicateMembers :=
      if duplicate then evidence.keysWithDuplicateMembers.insert key
      else evidence.keysWithDuplicateMembers }

section Note
variable {seen : List Text} {evidence after : DuplicateEvidence} {ms : List (Text × Tree)}
  {k : Text} {v : Tree} {duplicate : Bool}

theorem mem_note_duplicateKeys {key : Text} :
    key ∈ (evidence.note seen k duplicate).duplicateKeys ↔
      key ∈ evidence.duplicateKeys ∨ (key = k ∧ k ∈ seen) := by
  by_cases h : k ∈ seen
  · simp [DuplicateEvidence.note, h, or_comm]
  · simp [DuplicateEvidence.note, h]

theorem mem_note_keysWithDuplicateMembers (hduplicate : duplicate = true ↔ Repeats v)
    {key : Text} :
    key ∈ (evidence.note seen k duplicate).keysWithDuplicateMembers ↔
      key ∈ evidence.keysWithDuplicateMembers ∨ (key = k ∧ Repeats v) := by
  cases duplicate with
  | true => simp [DuplicateEvidence.note, hduplicate.mp rfl, or_comm]
  | false =>
      have hnot : ¬Repeats v := fun h => Bool.false_ne_true (hduplicate.mpr h)
      simp [DuplicateEvidence.note, hnot]

theorem noted_last (hduplicate : duplicate = true ↔ Repeats v) :
    Noted seen evidence [(k, v)] (evidence.note seen k duplicate) where
  keys key := by
    simp [mem_note_duplicateKeys, again_cons, again_nil]
  nested key := by
    rw [mem_note_keysWithDuplicateMembers hduplicate]
    simp [and_assoc]

theorem noted_cons (hduplicate : duplicate = true ↔ Repeats v)
    (h : Noted (seen.insert k) (evidence.note seen k duplicate) ms after) :
    Noted seen evidence ((k, v) :: ms) after where
  keys key := by
    rw [h.keys, mem_note_duplicateKeys, List.map_cons, again_cons, or_assoc]
  nested key := by
    rw [h.nested, mem_note_keysWithDuplicateMembers hduplicate, or_assoc]
    simp [or_and_right, exists_or, and_assoc]

end Note

/-- The loop reads `t` as the top-level members, before the closing brace. -/
def ReadsTopLevel (t : Text) (ms : List (Text × Tree)) : Prop :=
  ∀ depth seen evidence rest, 3 * t.length + 1 ≤ depth →
    ∃ after, topLevelMembers depth seen evidence (t ++ 0x7D :: rest) = .ok (after, rest) ∧
      Noted seen evidence ms after

theorem readsTopLevel_written {t : Text} {part : Part} (h : Written t part) :
    match part with
    | .members ms => ReadsTopLevel t ms
    | _ => True := by
  induction h with
  | @lastMember s k s₁ s₂ t s₃ key v hs hk hs₁ hs₂ h hs₃ _ =>
      intro depth seen evidence rest hdepth
      simp only [List.length_append, List.length_cons] at hdepth
      obtain ⟨d, rfl⟩ : ∃ d, depth = d + 1 := ⟨depth - 1, by omega⟩
      obtain ⟨duplicate, hduplicate, hread⟩ := parseMember_written (c := 0x7D) hs hk hs₁ hs₂
        (reads_written h) hs₃ rfl rfl (show 3 * t.length ≤ d by omega) rest
      refine ⟨evidence.note seen _ duplicate, ?_, noted_last hduplicate⟩
      rw [topLevelMembers, isEmpty_append_cons, if_neg Bool.false_ne_true]
      simp only [List.append_assoc, List.cons_append, hread, Except.bind, after?_self]
      rfl
  | @member s k s₁ s₂ t s₃ key t' v ms hs hk hs₁ hs₂ h hs₃ _ _ ihrest =>
      intro depth seen evidence rest hdepth
      simp only [List.length_append, List.length_cons] at hdepth
      obtain ⟨d, rfl⟩ : ∃ d, depth = d + 1 := ⟨depth - 1, by omega⟩
      obtain ⟨duplicate, hduplicate, hread⟩ := parseMember_written (c := 0x2C) hs hk hs₁ hs₂
        (reads_written h) hs₃ rfl rfl (show 3 * t.length ≤ d by omega) (t' ++ 0x7D :: rest)
      obtain ⟨after, hread', hnoted⟩ := ihrest d (seen.insert key)
        (evidence.note seen key duplicate) rest (by omega)
      refine ⟨after, ?_, noted_cons hduplicate hnoted⟩
      rw [topLevelMembers, isEmpty_append_cons, if_neg Bool.false_ne_true]
      simp only [List.append_assoc, List.cons_append, hread, Except.bind,
        after?_of_ne (show (0x2C : UInt16) ≠ 0x7D by decide), after?_self]
      exact hread'
  | _ => trivial

theorem topLevelMembers_skip {t : Text} (h : Starts t) (depth : Nat) (seen : List Text)
    (evidence : DuplicateEvidence) (rest : Text) :
    topLevelMembers depth seen evidence (skipWhitespace (t ++ rest)) =
      topLevelMembers depth seen evidence (t ++ rest) := by
  cases depth with
  | zero => rw [topLevelMembers, topLevelMembers]
  | succ depth =>
      rw [topLevelMembers, topLevelMembers, h.isEmpty_append, h.isEmpty_skip, parseMember_skip,
        if_neg Bool.false_ne_true, if_neg Bool.false_ne_true]

theorem skip_all {s : Text} (hs : Spaces s) : skipWhitespace s = [] := by
  rw [← List.append_nil s, skip_spaces hs]
  rfl

/-- **The evidence is exact.**  For every JSON text of an object the scanner ends without an error;
the keys it returns are those that occur more than once, and those with a value in which somewhere
a key is repeated. -/
theorem http_json_object_duplicate_evidence {source : Text} {members : List (Text × Tree)}
    (h : Document source (.object members)) :
    ∃ evidence, httpJsonObjectDuplicateEvidence source = .ok evidence ∧
      (∀ key, key ∈ evidence.duplicateKeys ↔ 1 < (members.map Prod.fst).count key) ∧
      ∀ key, key ∈ evidence.keysWithDuplicateMembers ↔ ∃ v, (key, v) ∈ members ∧ Repeats v := by
  obtain @⟨s, t, s', _, hs, h, hs'⟩ := h
  rw [httpJsonObjectDuplicateEvidence, skip_spaces hs]
  cases h with
  | @emptyObject s'' hs'' =>
      have hclose : skipWhitespace (s'' ++ [0x7D] ++ s') = 0x7D :: s' := by
        rw [List.append_assoc, skip_spaces hs'']
        exact skip_start rfl s'
      refine ⟨{}, ?_, by simp, by simp⟩
      rw [List.cons_append, skip_start rfl, after?_self]
      simp only [hclose, after?_self, skip_all hs']
      rfl
  | @object t ms h =>
      obtain ⟨after, hread, hnoted⟩ := readsTopLevel_written h
        (callDepth (s ++ (0x7B :: (t ++ [0x7D]) ++ s'))) [] {} s'
        (by simp only [callDepth, List.length_append, List.length_cons]; omega)
      refine ⟨after, ?_, ?_, ?_⟩
      · have hshape : t ++ [0x7D] ++ s' = t ++ 0x7D :: s' := by simp
        rw [List.cons_append, skip_start rfl, after?_self]
        simp only [hshape, (starts_of_written h).after? (show endsLiteral 0x7D = true from rfl),
          topLevelMembers_skip (starts_of_written h)]
        rw [← hshape, ← List.cons_append, hshape, hread]
        simp [Except.bind, skip_all hs']
      · intro key
        rw [hnoted.keys]
        simp [Again]
      · intro key
        rw [hnoted.nested]
        simp

/-- `a` stands twice, and the first value has `b` as it is and with an escape. -/
def sampleBody : Text :=
  [0x7B, 0x22, 0x61, 0x22, 0x3A, 0x7B, 0x22, 0x62, 0x22, 0x3A, 0x30, 0x2C, 0x22, 0x5C, 0x75, 0x30,
    0x30, 0x36, 0x32, 0x22, 0x3A, 0x30, 0x7D, 0x2C, 0x22, 0x61, 0x22, 0x3A, 0x30, 0x7D]

def sampleMembers : List (Text × Tree) :=
  [([0x61], .object [([0x62], .scalar [0x30]), ([0x62], .scalar [0x30])]),
    ([0x61], .scalar [0x30])]

theorem document_sampleBody : Document sampleBody (.object sampleMembers) := by
  have hspace : Spaces [] := nofun
  have hzero : Written [0x30] (.value (.scalar [0x30])) :=
    .number ⟨[], [0x30], [], [], .inl rfl, .inl rfl, .inl rfl, .inl rfl, rfl⟩
  have hkey : ∀ c, plain c = true → Quoted (0x22 :: ([c] ++ [0x22])) [c] :=
    fun c hc => .mk (.plain hc .nil)
  have hescaped : Quoted (0x22 :: ([0x5C, 0x75, 0x30, 0x30, 0x36, 0x32] ++ [0x22])) [0x62] :=
    .mk (.unicode (show hexDigit? 0x30 = some 0 from rfl) (show hexDigit? 0x30 = some 0 from rfl)
      (show hexDigit? 0x36 = some 6 from rfl) (show hexDigit? 0x32 = some 2 from rfl) .nil)
  have hinner := Written.object (.member hspace (hkey 0x62 rfl) hspace hspace hzero hspace
    (.lastMember hspace hescaped hspace hspace hzero hspace))
  have hbody := Written.object (.member hspace (hkey 0x61 rfl) hspace hspace hinner hspace
    (.lastMember hspace (hkey 0x61 rfl) hspace hspace hzero hspace))
  exact Document.mk hspace hbody hspace

/-- Both readings of a key are one key. -/
theorem evidence_sampleBody :
    ∃ evidence, httpJsonObjectDuplicateEvidence sampleBody = .ok evidence ∧
      (∀ key, key ∈ evidence.duplicateKeys ↔ 1 < (sampleMembers.map Prod.fst).count key) ∧
      ∀ key, key ∈ evidence.keysWithDuplicateMembers ↔
        ∃ v, (key, v) ∈ sampleMembers ∧ Repeats v :=
  http_json_object_duplicate_evidence document_sampleBody

end Connectanum.HttpAuthBody
