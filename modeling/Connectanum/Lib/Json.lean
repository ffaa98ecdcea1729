import Mathlib.Data.List.Basic

/-!
# Lib — Json

A JSON reader as a pushdown machine over UTF-16 code units, one unit a step.

* `State.step`, `State.run`, `decode`: the machine;
* `Completes`: a text that is read as one value, wherever a value may stand;
* `decode_closed`: what a text that ends in `[]]` says about the machine before that end.
-/

namespace Json

/-- A text, as UTF-16 code units. -/
abbrev Text := List UInt16

inductive Value where
  | null
  | bool (b : Bool)
  /-- A number as it is written. -/
  | number (literal : Text)
  | string (units : Text)
  | list (items : List Value)
  /-- The members in the order of the text, each key once. -/
  | object (members : List (Text × Value))
  deriving Inhabited

/-- A container that is still open, its entries last first. -/
inductive Frame where
  | list (items : List Value)
  /-- `key`: the key whose value is still to come. -/
  | object (members : List (Text × Value)) (key : Option Text)

/-- Where a number stands. -/
inductive Phase where
  | minus | zero | digits | point | fraction | exponent | sign | exponentDigits
  deriving DecidableEq

/-- Where an escape stands. -/
inductive Escape where
  | none
  | slash
  /-- `\u` with some of its digits. -/
  | unicode (count : Nat) (unit : Nat)
  deriving DecidableEq

inductive Word where
  | true
  | false
  | null
  deriving DecidableEq

namespace Word

def letters : Word → Text
  | true => [0x74, 0x72, 0x75, 0x65]
  | false => [0x66, 0x61, 0x6C, 0x73, 0x65]
  | null => [0x6E, 0x75, 0x6C, 0x6C]

def value : Word → Value
  | true => .bool Bool.true
  | false => .bool Bool.false
  | null => .null

end Word

inductive Mode where
  /-- A value has to come. -/
  | value
  /-- A list was opened: a value or its end. -/
  | item
  /-- A value is complete. -/
  | next
  /-- An object was opened: a key or its end. -/
  | member
  /-- A key has to come. -/
  | key
  | colon
  /-- Inside a string, its units last first. -/
  | string (isKey : Bool) (units : Text) (escape : Escape)
  | number (literal : Text) (phase : Phase)
  /-- Inside a word, before the letter at `position`. -/
  | word (word : Word) (position : Nat)

structure State where
  stack : List Frame := []
  mode : Mode := .value
  /-- The value, when nothing is open. -/
  result : Option Value := none

def isSpace (c : UInt16) : Bool := c == 0x20 || c == 0x09 || c == 0x0A || c == 0x0D

def isDigit (c : UInt16) : Bool := 0x30 ≤ c && c ≤ 0x39

def hexDigit? (c : UInt16) : Option Nat :=
  if 0x30 ≤ c && c ≤ 0x39 then some (c.toNat - 0x30)
  else if 0x41 ≤ c && c ≤ 0x46 then some (c.toNat - 0x41 + 10)
  else if 0x61 ≤ c && c ≤ 0x66 then some (c.toNat - 0x61 + 10)
  else none

/-- The unit that a letter after a backslash stands for. -/
def escaped? (c : UInt16) : Option UInt16 :=
  if c == 0x22 || c == 0x5C || c == 0x2F then some c
  else if c == 0x62 then some 0x08
  else if c == 0x66 then some 0x0C
  else if c == 0x6E then some 0x0A
  else if c == 0x72 then some 0x0D
  else if c == 0x74 then some 0x09
  else none

namespace Phase

/-- The number goes on with `c`. -/
def step (c : UInt16) : Phase → Option Phase
  | minus => if c == 0x30 then some zero else if isDigit c then some digits else none
  | zero =>
      if c == 0x2E then some point
      else if c == 0x65 || c == 0x45 then some exponent
      else none
  | digits =>
      if isDigit c then some digits
      else if c == 0x2E then some point
      else if c == 0x65 || c == 0x45 then some exponent
      else none
  | point => if isDigit c then some fraction else none
  | fraction =>
      if isDigit c then some fraction
      else if c == 0x65 || c == 0x45 then some exponent
      else none
  | exponent =>
      if isDigit c then some exponentDigits
      else if c == 0x2B || c == 0x2D then some sign
      else none
  | sign | exponentDigits => if isDigit c then some exponentDigits else none

/-- The number may end. -/
def final : Phase → Bool
  | zero | digits | fraction | exponentDigits => true
  | _ => false

end Phase

/-- A member replaces one with the same key. -/
def insertMember (members : List (Text × Value)) (key : Text) (v : Value) :
    List (Text × Value) :=
  if members.any (·.1 == key) then members.map fun e => if e.1 == key then (key, v) else e
  else (key, v) :: members

namespace State

/-- The value `v` is complete. -/
def complete (v : Value) : List Frame → Option State
  | [] => some { stack := [], mode := .next, result := some v }
  | .list items :: rest => some { stack := .list (v :: items) :: rest, mode := .next }
  | .object members (some key) :: rest =>
      some { stack := .object (insertMember members key v) none :: rest, mode := .next }
  | .object _ none :: _ => none

def closeList : List Frame → Option State
  | .list items :: rest => complete (.list items.reverse) rest
  | _ => none

def closeObject : List Frame → Option State
  | .object members none :: rest => complete (.object members.reverse) rest
  | _ => none

/-- A value begins with `c`. -/
def begin (stack : List Frame) (c : UInt16) : Option State :=
  if c == 0x7B then some { stack := .object [] none :: stack, mode := .member }
  else if c == 0x5B then some { stack := .list [] :: stack, mode := .item }
  else if c == 0x22 then some { stack := stack, mode := .string false [] .none }
  else if c == 0x2D then some { stack := stack, mode := .number [c] .minus }
  else if c == 0x30 then some { stack := stack, mode := .number [c] .zero }
  else if isDigit c then some { stack := stack, mode := .number [c] .digits }
  else if c == 0x74 then some { stack := stack, mode := .word .true 1 }
  else if c == 0x66 then some { stack := stack, mode := .word .false 1 }
  else if c == 0x6E then some { stack := stack, mode := .word .null 1 }
  else none

/-- After a value. -/
def follow (st : State) (c : UInt16) : Option State :=
  if isSpace c then some st
  else if c == 0x2C then
    match st.stack with
    | .list _ :: _ => some { st with mode := .value }
    | .object _ _ :: _ => some { st with mode := .key }
    | [] => none
  else if c == 0x5D then closeList st.stack
  else if c == 0x7D then closeObject st.stack
  else none

/-- A string is complete. -/
def completeString (stack : List Frame) (isKey : Bool) (units : Text) : Option State :=
  if isKey then
    match stack with
    | .object members none :: rest =>
        some { stack := .object members (some units) :: rest, mode := .colon }
    | _ => none
  else complete (.string units) stack

def step (st : State) (c : UInt16) : Option State :=
  match st.mode with
  | .value => if isSpace c then some st else begin st.stack c
  | .item =>
      if isSpace c then some st else if c == 0x5D then closeList st.stack else begin st.stack c
  | .next => st.follow c
  | .member =>
      if isSpace c then some st
      else if c == 0x22 then some { st with mode := .string true [] .none }
      else if c == 0x7D then closeObject st.stack
      else none
  | .key =>
      if isSpace c then some st
      else if c == 0x22 then some { st with mode := .string true [] .none }
      else none
  | .colon =>
      if isSpace c then some st
      else if c == 0x3A then some { st with mode := .value }
      else none
  | .string isKey units .none =>
      if c == 0x22 then completeString st.stack isKey units.reverse
      else if c == 0x5C then some { st with mode := .string isKey units .slash }
      else if c < 0x20 then none
      else some { st with mode := .string isKey (c :: units) .none }
  | .string isKey units .slash =>
      if c == 0x75 then some { st with mode := .string isKey units (.unicode 0 0) }
      else (escaped? c).map fun unit => { st with mode := .string isKey (unit :: units) .none }
  | .string isKey units (.unicode count unit) =>
      (hexDigit? c).map fun digit =>
        let unit := unit * 16 + digit
        if count == 3 then
          { st with mode := .string isKey (UInt16.ofNat unit :: units) .none }
        else { st with mode := .string isKey units (.unicode (count + 1) unit) }
  | .number literal phase =>
      match phase.step c with
      | some phase => some { st with mode := .number (c :: literal) phase }
      | none =>
          if phase.final then
            (complete (.number literal.reverse) st.stack).bind fun st => st.follow c
          else none
  | .word word position =>
      if word.letters[position]? == some c then
        if position + 1 == word.letters.length then complete word.value st.stack
        else some { st with mode := .word word (position + 1) }
      else none

def run (st : State) (text : Text) : Option State := text.foldlM step st

/-- The value, at the end of the text. -/
def finish (st : State) : Option Value :=
  match st.stack, st.mode with
  | [], .next => st.result
  | [], .number literal phase => if phase.final then some (.number literal.reverse) else none
  | _, _ => none

@[simp] theorem run_cons (st : State) (c : UInt16) (text : Text) :
    st.run (c :: text) = (st.step c).bind fun st => st.run text := by
  rw [run, List.foldlM_cons]
  rfl

@[simp] theorem run_singleton (st : State) (c : UInt16) : st.run [c] = st.step c := by
  rw [run_cons]
  cases st.step c <;> rfl

theorem run_append (st : State) (text text' : Text) :
    st.run (text ++ text') = (st.run text).bind fun st => st.run text' := by
  rw [run, List.foldlM_append]
  rfl

end State

def decode (text : Text) : Option Value := (State.run {} text).bind State.finish

/-! ### Texts that are read as one value -/

/-- Where a value may stand, the text is read as `v`. -/
def Completes (text : Text) (v : Value) : Prop :=
  ∀ st : State, st.mode = .value ∨ st.mode = .item → st.run text = State.complete v st.stack

/-- A unit that a string holds as it is. -/
def plain (c : UInt16) : Bool := c != 0x22 && c != 0x5C && 0x20 ≤ c

theorem step_plain {stack : List Frame} {isKey : Bool} {units : Text} {c : UInt16}
    (h : plain c = true) :
    State.step { stack := stack, mode := .string isKey units .none } c =
      some { stack := stack, mode := .string isKey (c :: units) .none } := by
  unfold plain at h
  rw [Bool.and_eq_true, Bool.and_eq_true] at h
  obtain ⟨⟨hquote, hslash⟩, hspace⟩ := h
  have hquote : (c == 0x22) = false := by simpa using hquote
  have hslash : (c == 0x5C) = false := by simpa using hslash
  have hspace : ¬ c < 0x20 := by simpa using hspace
  simp only [State.step, hquote, hslash, if_neg hspace, Bool.false_eq_true, if_false]

theorem run_plain {stack : List Frame} {isKey : Bool} {body : Text}
    (h : ∀ c ∈ body, plain c = true) (units : Text) :
    State.run { stack := stack, mode := .string isKey units .none } body =
      some { stack := stack, mode := .string isKey (body.reverse ++ units) .none } := by
  induction body generalizing units with
  | nil => rfl
  | cons c rest ih =>
      rw [State.run_cons, step_plain (h c (List.mem_cons_self ..)), Option.bind_some,
        ih fun d hd => h d (List.mem_cons_of_mem _ hd), List.reverse_cons, List.append_assoc]
      rfl

theorem step_quote (stack : List Frame) (isKey : Bool) (units : Text) :
    State.step { stack := stack, mode := .string isKey units .none } 0x22 =
      State.completeString stack isKey units.reverse := rfl

/-- The start of a list whose one string begins with the unit `0`. -/
def nulString : Text := [0x5B, 0x22, 0x5C, 0x75, 0x30, 0x30, 0x30, 0x30]

theorem completes_nulString {body : Text} (h : ∀ c ∈ body, plain c = true) :
    Completes (nulString ++ (body ++ [0x22, 0x5D])) (.list [.string (0 :: body)]) := by
  rintro ⟨stack, mode, result⟩ hmode
  have hstart : State.run { stack := stack, mode := mode, result := result } nulString =
      some { stack := .list [] :: stack, mode := .string false [0] .none } := by
    rcases hmode with rfl | rfl <;> rfl
  rw [State.run_append, hstart, Option.bind_some, State.run_append, run_plain h, Option.bind_some]
  have hstring : (body.reverse ++ [0]).reverse = 0 :: body := by simp
  rw [State.run_cons, step_quote, hstring]
  change State.run _ [0x5D] = _
  rw [State.run_singleton]
  rfl

/-! ### Texts that end in an empty list -/

/-- The machine is inside a string. -/
def State.inString (st : State) : Prop :=
  ∃ isKey units escape, st.mode = .string isKey units escape

/-- A bracket does not end a string. -/
theorem step_bracket {st st' : State} {c : UInt16} (hst : st.inString) (hc : c = 0x5B ∨ c = 0x5D)
    (h : st.step c = some st') : st'.inString := by
  obtain ⟨isKey, units, escape, hmode⟩ := hst
  unfold State.step at h
  rw [hmode] at h
  cases escape with
  | none =>
      rcases hc with rfl | rfl
      · cases h
        exact ⟨isKey, _, _, rfl⟩
      · cases h
        exact ⟨isKey, _, _, rfl⟩
  | slash => rcases hc with rfl | rfl <;> cases h
  | unicode count unit => rcases hc with rfl | rfl <;> cases h

theorem run_brackets {st st' : State} {text : Text} (hst : st.inString)
    (htext : ∀ c ∈ text, c = 0x5B ∨ c = 0x5D) (h : st.run text = some st') : st'.inString := by
  induction text generalizing st with
  | nil =>
      obtain rfl := Option.some.inj h
      exact hst
  | cons c rest ih =>
      rw [State.run_cons] at h
      obtain ⟨st₁, hstep, hrest⟩ := Option.bind_eq_some_iff.mp h
      exact ih (step_bracket hst (htext c (List.mem_cons_self ..)) hstep)
        (fun d hd => htext d (List.mem_cons_of_mem _ hd)) hrest

theorem finish_inString {st : State} (h : st.inString) : st.finish = none := by
  obtain ⟨isKey, units, escape, hmode⟩ := h
  unfold State.finish
  rw [hmode]
  cases st.stack <;> rfl

/-- **The end `[]]`.**  It closes the one list that is open, where a value may stand. -/
theorem finish_closed {st : State} {v : Value}
    (h : (st.run [0x5B, 0x5D, 0x5D]).bind State.finish = some v) :
    ∃ items, st.stack = [.list items] ∧ (st.mode = .value ∨ st.mode = .item) ∧
      v = .list (items.reverse ++ [.list []]) := by
  obtain ⟨st', hrun, hfinish⟩ := Option.bind_eq_some_iff.mp h
  have hstring : ¬ st.inString := fun hst => by
    rw [finish_inString (run_brackets hst (by simp) hrun)] at hfinish
    cases hfinish
  have hopen : (st.mode = .value ∨ st.mode = .item) →
      ∃ items, st.stack = [.list items] ∧ v = .list (items.reverse ++ [.list []]) := by
    intro hmode
    obtain ⟨stack, mode, result⟩ := st
    rw [State.run_cons] at hrun
    have hbegin : State.step { stack := stack, mode := mode, result := result } 0x5B =
        some { stack := .list [] :: stack, mode := .item } := by
      rcases hmode with rfl | rfl <;> rfl
    rw [hbegin, Option.bind_some, State.run_cons] at hrun
    change ((State.complete (.list []) stack).bind fun st => st.run [0x5D]) = some st' at hrun
    cases stack with
    | nil => cases hrun
    | cons frame rest =>
        cases frame with
        | list items =>
            rw [State.complete, Option.bind_some, State.run_singleton] at hrun
            change State.complete (.list (.list [] :: items).reverse) rest = some st' at hrun
            rw [List.reverse_cons] at hrun
            cases rest with
            | nil =>
                cases hrun
                cases hfinish
                exact ⟨items, rfl, rfl⟩
            | cons frame rest =>
                cases frame with
                | list items' => cases hrun; cases hfinish
                | object members key =>
                    cases key with
                    | none => cases hrun
                    | some key => cases hrun; cases hfinish
        | object members key =>
            cases key with
            | none => cases hrun
            | some key => cases hrun
  have hstuck : (∀ st₁, st.step 0x5B = some st₁ → st₁.inString) → False := fun hstep => by
    rw [State.run_cons] at hrun
    obtain ⟨st₁, hst₁, hrest⟩ := Option.bind_eq_some_iff.mp hrun
    have hin := run_brackets (hstep st₁ hst₁) (by simp) hrest
    rw [finish_inString hin] at hfinish
    cases hfinish
  cases hmode : st.mode with
  | value =>
      obtain ⟨items, hstack, hv⟩ := hopen (.inl hmode)
      exact ⟨items, hstack, .inl rfl, hv⟩
  | item =>
      obtain ⟨items, hstack, hv⟩ := hopen (.inr hmode)
      exact ⟨items, hstack, .inr rfl, hv⟩
  | string isKey units escape => exact absurd ⟨isKey, units, escape, hmode⟩ hstring
  | next | member | key | colon =>
      refine (hstuck fun st₁ hst₁ => ?_).elim
      rw [State.step, hmode] at hst₁
      cases hst₁
  | number literal phase =>
      refine (hstuck fun st₁ hst₁ => ?_).elim
      rw [State.step, hmode] at hst₁
      have hphase : phase.step 0x5B = none := by cases phase <;> rfl
      dsimp only at hst₁
      rw [hphase] at hst₁
      dsimp only at hst₁
      split at hst₁
      · obtain ⟨st₂, -, hfollow⟩ := Option.bind_eq_some_iff.mp hst₁
        cases hfollow
      · cases hst₁
  | word word position =>
      refine (hstuck fun st₁ hst₁ => ?_).elim
      rw [State.step, hmode] at hst₁
      have hletter : word.letters[position]? ≠ some 0x5B := fun h => by
        have hmem := List.mem_of_getElem? h
        revert hmem
        cases word <;> decide
      have hletter : (word.letters[position]? == some (0x5B : UInt16)) = false := by
        simpa using hletter
      dsimp only at hst₁
      rw [hletter] at hst₁
      cases hst₁

/-- A text that is read with `[]` as the last item of a list is read with any other value there. -/
theorem decode_closed {text : Text} {v : Value} (h : decode (text ++ [0x5B, 0x5D, 0x5D]) = some v) :
    ∃ items, v = .list (items ++ [.list []]) ∧ ∀ tail w, Completes tail w →
      decode (text ++ (tail ++ [0x5D])) = some (.list (items ++ [w])) := by
  rw [decode, State.run_append, Option.bind_assoc] at h
  obtain ⟨st, hst, hclosed⟩ := Option.bind_eq_some_iff.mp h
  obtain ⟨items, hstack, hmode, rfl⟩ := finish_closed hclosed
  refine ⟨items.reverse, rfl, fun tail w htail => ?_⟩
  rw [decode, State.run_append, hst, Option.bind_some, State.run_append, htail st hmode, hstack]
  change (State.run _ [0x5D]).bind State.finish = _
  rw [State.run_singleton]
  change some (Value.list (w :: items).reverse) = _
  rw [List.reverse_cons]

end Json
