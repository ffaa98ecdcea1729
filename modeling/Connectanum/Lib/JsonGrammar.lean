import Connectanum.Lib.Json

/-!
# Lib — JsonGrammar

The grammar of JSON texts, over UTF-16 code units: which texts are values, and the tree that such a
text writes.  A tree keeps every member of an object, also those whose key occurs again.

* `Quoted`: the string literals, and `decode_quoted`: the reader gives what they stand for;
* `Written`: the values, and what stands between the brackets of a list or an object;
* `Repeats`: somewhere in the tree a key is repeated.
-/

namespace Json

inductive Tree where
  /-- A number or a word, as it is written. -/
  | scalar (literal : Text)
  | string (units : Text)
  | list (items : List Tree)
  /-- All members in the order of the text. -/
  | object (members : List (Text × Tree))

/-! ### Strings -/

/-- The units between the quotes, and what they stand for. -/
inductive Chars : Text → Text → Prop where
  | nil : Chars [] []
  | plain {c : UInt16} {t units : Text} (h : plain c = true) (ht : Chars t units) :
      Chars (c :: t) (c :: units)
  | escape {c unit : UInt16} {t units : Text} (h : escaped? c = some unit) (ht : Chars t units) :
      Chars (0x5C :: c :: t) (unit :: units)
  | unicode {c₁ c₂ c₃ c₄ : UInt16} {d₁ d₂ d₃ d₄ : Nat} {t units : Text}
      (h₁ : hexDigit? c₁ = some d₁) (h₂ : hexDigit? c₂ = some d₂) (h₃ : hexDigit? c₃ = some d₃)
      (h₄ : hexDigit? c₄ = some d₄) (ht : Chars t units) :
      Chars (0x5C :: 0x75 :: c₁ :: c₂ :: c₃ :: c₄ :: t)
        (UInt16.ofNat (((d₁ * 16 + d₂) * 16 + d₃) * 16 + d₄) :: units)

/-- A string literal, and the string. -/
inductive Quoted : Text → Text → Prop where
  | mk {t units : Text} (h : Chars t units) : Quoted (0x22 :: (t ++ [0x22])) units

/-- The machine reads the units of a string. -/
theorem run_chars {t units : Text} (h : Chars t units) (stack : List Frame) (isKey : Bool)
    (before : Text) :
    State.run { stack := stack, mode := .string isKey before .none } t =
      some { stack := stack, mode := .string isKey (units.reverse ++ before) .none } := by
  induction h generalizing before with
  | nil => rfl
  | @plain c t units hc _ ih =>
      rw [State.run_cons, step_plain hc, Option.bind_some, ih, List.reverse_cons, List.append_assoc]
      rfl
  | @escape c unit t units hc _ ih =>
      have hslash : State.step { stack := stack, mode := .string isKey before .none } 0x5C =
          some { stack := stack, mode := .string isKey before .slash } := rfl
      have hnot : (c == 0x75) = false := by
        rw [beq_eq_false_iff_ne]
        rintro rfl
        cases hc
      have hstep : State.step { stack := stack, mode := .string isKey before .slash } c =
          some { stack := stack, mode := .string isKey (unit :: before) .none } := by
        simp only [State.step, hnot, hc, Option.map_some, Bool.false_eq_true, if_false]
      rw [State.run_cons, hslash, Option.bind_some, State.run_cons, hstep, Option.bind_some, ih,
        List.reverse_cons, List.append_assoc]
      rfl
  | @unicode c₁ c₂ c₃ c₄ d₁ d₂ d₃ d₄ t units h₁ h₂ h₃ h₄ _ ih =>
      have hdigits : State.run { stack := stack, mode := .string isKey before .none }
          (0x5C :: 0x75 :: c₁ :: c₂ :: c₃ :: c₄ :: t) =
            State.run { stack := stack, mode := (.string isKey
              (UInt16.ofNat (((d₁ * 16 + d₂) * 16 + d₃) * 16 + d₄) :: before) .none) } t := by
        simp [State.run_cons, State.step, h₁, h₂, h₃, h₄]
      rw [hdigits, ih, List.reverse_cons, List.append_assoc]
      rfl

/-- **The reader** gives the string that a literal stands for. -/
theorem decode_quoted {literal units : Text} (h : Quoted literal units) :
    decode literal = some (.string units) := by
  obtain ⟨h⟩ := h
  have hstart : State.step {} 0x22 = some { stack := [], mode := .string false [] .none } := rfl
  rw [decode, State.run_cons, hstart, Option.bind_some, State.run_append, run_chars h,
    Option.bind_some, State.run_singleton, step_quote, List.append_nil, List.reverse_reverse]
  rfl

/-! ### Numbers -/

def Digits (t : Text) : Prop := t ≠ [] ∧ ∀ c ∈ t, isDigit c = true

/-- No zero stands before another digit. -/
def Whole (t : Text) : Prop := t = [0x30] ∨ (Digits t ∧ t.head? ≠ some 0x30)

def Fraction (t : Text) : Prop := t = [] ∨ ∃ digits, Digits digits ∧ t = 0x2E :: digits

def Exponent (t : Text) : Prop :=
  t = [] ∨ ∃ e sign digits, (e = 0x65 ∨ e = 0x45) ∧ (sign = [] ∨ sign = [0x2B] ∨ sign = [0x2D]) ∧
    Digits digits ∧ t = e :: (sign ++ digits)

def Number (t : Text) : Prop :=
  ∃ sign whole fraction exponent, (sign = [] ∨ sign = [0x2D]) ∧ Whole whole ∧ Fraction fraction ∧
    Exponent exponent ∧ t = sign ++ (whole ++ (fraction ++ exponent))

/-- The units of a number. -/
def ofNumber (c : UInt16) : Prop :=
  isDigit c = true ∨ c = 0x2D ∨ c = 0x2B ∨ c = 0x2E ∨ c = 0x65 ∨ c = 0x45

theorem Digits.ofNumber {t : Text} (h : Digits t) : ∀ c ∈ t, ofNumber c :=
  fun c hc => .inl (h.2 c hc)

theorem Whole.ne_nil {t : Text} (h : Whole t) : t ≠ [] := by
  rcases h with rfl | ⟨h, -⟩
  · exact List.cons_ne_nil _ _
  · exact h.1

theorem Whole.ofNumber {t : Text} (h : Whole t) : ∀ c ∈ t, ofNumber c := by
  rcases h with rfl | ⟨h, -⟩
  · intro c hc
    rw [List.mem_singleton.mp hc]
    exact .inl rfl
  · exact h.ofNumber

theorem Fraction.ofNumber {t : Text} (h : Fraction t) : ∀ c ∈ t, ofNumber c := by
  intro c hc
  rcases h with rfl | ⟨digits, hdigits, rfl⟩
  · cases hc
  · rcases List.mem_cons.mp hc with rfl | hc
    · exact .inr (.inr (.inr (.inl rfl)))
    · exact hdigits.ofNumber c hc

theorem Exponent.ofNumber {t : Text} (h : Exponent t) : ∀ c ∈ t, ofNumber c := by
  intro c hc
  rcases h with rfl | ⟨e, sign, digits, he, hsign, hdigits, rfl⟩
  · cases hc
  · rcases List.mem_cons.mp hc with rfl | hc
    · exact .inr (.inr (.inr (.inr he)))
    · rcases List.mem_append.mp hc with hc | hc
      · rcases hsign with rfl | rfl | rfl
        · cases hc
        · exact .inr (.inr (.inl (List.mem_singleton.mp hc)))
        · exact .inr (.inl (List.mem_singleton.mp hc))
      · exact hdigits.ofNumber c hc

theorem Number.ne_nil {t : Text} (h : Number t) : t ≠ [] := by
  obtain ⟨sign, whole, fraction, exponent, -, hwhole, -, -, rfl⟩ := h
  simp [hwhole.ne_nil]

theorem Number.ofNumber {t : Text} (h : Number t) : ∀ c ∈ t, ofNumber c := by
  obtain ⟨sign, whole, fraction, exponent, hsign, hwhole, hfraction, hexponent, rfl⟩ := h
  intro c hc
  rcases List.mem_append.mp hc with hc | hc
  · rcases hsign with rfl | rfl
    · cases hc
    · exact .inr (.inl (List.mem_singleton.mp hc))
  · rcases List.mem_append.mp hc with hc | hc
    · exact hwhole.ofNumber c hc
    · rcases List.mem_append.mp hc with hc | hc
      · exact hfraction.ofNumber c hc
      · exact hexponent.ofNumber c hc

/-! ### Values -/

def Spaces (s : Text) : Prop := ∀ c ∈ s, isSpace c = true

/-- What a text may write. -/
inductive Part where
  | value (v : Tree)
  /-- Between the brackets of a list that is not empty. -/
  | items (vs : List Tree)
  /-- Between the braces of an object that is not empty. -/
  | members (ms : List (Text × Tree))

inductive Written : Text → Part → Prop where
  | word (w : Word) : Written w.letters (.value (.scalar w.letters))
  | number {t : Text} (h : Number t) : Written t (.value (.scalar t))
  | string {t units : Text} (h : Quoted t units) : Written t (.value (.string units))
  | emptyList {s : Text} (hs : Spaces s) : Written (0x5B :: (s ++ [0x5D])) (.value (.list []))
  | list {t : Text} {vs : List Tree} (h : Written t (.items vs)) :
      Written (0x5B :: (t ++ [0x5D])) (.value (.list vs))
  | emptyObject {s : Text} (hs : Spaces s) : Written (0x7B :: (s ++ [0x7D])) (.value (.object []))
  | object {t : Text} {ms : List (Text × Tree)} (h : Written t (.members ms)) :
      Written (0x7B :: (t ++ [0x7D])) (.value (.object ms))
  | lastItem {s t s' : Text} {v : Tree} (hs : Spaces s) (h : Written t (.value v))
      (hs' : Spaces s') : Written (s ++ (t ++ s')) (.items [v])
  | item {s t s' rest : Text} {v : Tree} {vs : List Tree} (hs : Spaces s)
      (h : Written t (.value v)) (hs' : Spaces s') (hrest : Written rest (.items vs)) :
      Written (s ++ (t ++ (s' ++ 0x2C :: rest))) (.items (v :: vs))
  | lastMember {s k s₁ s₂ t s₃ key : Text} {v : Tree} (hs : Spaces s) (hk : Quoted k key)
      (hs₁ : Spaces s₁) (hs₂ : Spaces s₂) (h : Written t (.value v)) (hs₃ : Spaces s₃) :
      Written (s ++ (k ++ (s₁ ++ 0x3A :: (s₂ ++ (t ++ s₃))))) (.members [(key, v)])
  | member {s k s₁ s₂ t s₃ key rest : Text} {v : Tree} {ms : List (Text × Tree)} (hs : Spaces s)
      (hk : Quoted k key) (hs₁ : Spaces s₁) (hs₂ : Spaces s₂) (h : Written t (.value v))
      (hs₃ : Spaces s₃) (hrest : Written rest (.members ms)) :
      Written (s ++ (k ++ (s₁ ++ 0x3A :: (s₂ ++ (t ++ (s₃ ++ 0x2C :: rest))))))
        (.members ((key, v) :: ms))

/-- A JSON text is a value, with white space around it. -/
inductive Document : Text → Tree → Prop where
  | mk {s t s' : Text} {v : Tree} (hs : Spaces s) (h : Written t (.value v)) (hs' : Spaces s') :
      Document (s ++ (t ++ s')) v

/-! ### Repeated keys -/

/-- Somewhere in the tree stands an object with a repeated key. -/
inductive Repeats : Tree → Prop where
  | keys {ms : List (Text × Tree)} (h : ¬(ms.map Prod.fst).Nodup) : Repeats (.object ms)
  | member {ms : List (Text × Tree)} {key : Text} {v : Tree} (h : (key, v) ∈ ms) (t : Repeats v) :
      Repeats (.object ms)
  | item {vs : List Tree} {v : Tree} (h : v ∈ vs) (t : Repeats v) : Repeats (.list vs)

theorem repeats_scalar {literal : Text} : ¬Repeats (.scalar literal) := nofun

theorem repeats_string {units : Text} : ¬Repeats (.string units) := nofun

theorem repeats_list {vs : List Tree} : Repeats (.list vs) ↔ ∃ v ∈ vs, Repeats v := by
  constructor
  · intro h
    cases h with
    | item h t => exact ⟨_, h, t⟩
  · rintro ⟨v, h, t⟩
    exact .item h t

theorem repeats_object {ms : List (Text × Tree)} :
    Repeats (.object ms) ↔ ¬(ms.map Prod.fst).Nodup ∨ ∃ m ∈ ms, Repeats m.2 := by
  constructor
  · intro h
    cases h with
    | keys h => exact .inl h
    | member h t => exact .inr ⟨_, h, t⟩
  · rintro (h | ⟨m, h, t⟩)
    · exact .keys h
    · exact .member h t

end Json
