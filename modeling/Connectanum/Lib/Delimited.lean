import Mathlib.Data.List.Basic

/-!
# Lib — Delimited

Formats whose values tell themselves where they end: a lead byte, some bytes with a count, the bytes
and the values that the count stands for.  A `Grammar` says what is behind which lead byte, and a
`Row` is a row of values of some form, which may end with bytes of its own.  What is said of a value
is computed from what is said of the values inside.

* `Row.unique`: no row starts another one of its form;
* `valueAt_iff`: a value in an input is its lead byte, its bytes and the row inside;
* `rowAt_iff`: a row in an input is at its end, or is its first value and the others;
* `Counted`: rows of a known number of values.
-/

namespace Delimited

universe u v

/-- A format with rows of the forms `F`; of a value is said something in `ω`. -/
structure Grammar (F : Type u) (ω : Type v) where
  /-- How many bytes of a count stand behind the lead byte; `none` if it begins no value. -/
  width : UInt8 → Option Nat
  /-- How many bytes stand behind the count. -/
  content : UInt8 → List UInt8 → Nat
  /-- The form of the row inside. -/
  inner : UInt8 → List UInt8 → F
  /-- What ends a row. -/
  stop : F → Option (List UInt8)
  /-- The form of what follows a value with this lead byte; `none` if none may stand here. -/
  next : F → UInt8 → Option F
  /-- Of a row without values. -/
  unit : ω
  /-- Of a value, from its row. -/
  value : UInt8 → List UInt8 → ω → ω
  /-- Of a row, from its first value and the others. -/
  join : F → UInt8 → ω → ω → ω

variable {F : Type u} {ω : Type v} (g : Grammar F ω)

/-- The bytes are a row of the form `f`. -/
inductive Row : F → List UInt8 → ω → Prop where
  | stop {f : F} {bytes : List UInt8} (h : g.stop f = some bytes) : Row f bytes g.unit
  | item {f f' : F} {lead : UInt8} {count content inner rest : List UInt8} {a b : ω}
      (hnext : g.next f lead = some f') (hwidth : g.width lead = some count.length)
      (hcontent : content.length = g.content lead count)
      (hinner : Row (g.inner lead count) inner a) (hrest : Row f' rest b) :
      Row f (lead :: (count ++ (content ++ (inner ++ rest))))
        (g.join f lead (g.value lead count a) b)

/-- The bytes are a value. -/
inductive Value : List UInt8 → ω → Prop where
  | mk {lead : UInt8} {count content inner : List UInt8} {a : ω}
      (hwidth : g.width lead = some count.length)
      (hcontent : content.length = g.content lead count)
      (hinner : Row g (g.inner lead count) inner a) :
      Value (lead :: (count ++ (content ++ inner))) (g.value lead count a)

/-- What ends a row begins no value that may stand there. -/
def Grammar.Separated : Prop :=
  ∀ f t lead f', g.stop f = some t → g.next f lead = some f' → ∃ x ys, t = x :: ys ∧ x ≠ lead

variable {g}

/-- **No row starts another one** of its form. -/
theorem Row.unique (hg : g.Separated) {f : F} {xs ys r s : List UInt8} {a b : ω}
    (h : Row g f xs a) (h' : Row g f ys b) (he : xs ++ r = ys ++ s) : xs = ys ∧ a = b := by
  induction h generalizing ys r s b with
  | stop hstop =>
      cases h' with
      | stop hstop' => exact ⟨Option.some.inj (hstop.symm.trans hstop'), rfl⟩
      | item hnext =>
          obtain ⟨x, zs, rfl, hne⟩ := hg _ _ _ _ hstop hnext
          rw [List.cons_append, List.cons_append] at he
          exact absurd (List.cons.inj he).1 hne
  | item hnext hwidth hcontent _ _ ih ih' =>
      cases h' with
      | stop hstop' =>
          obtain ⟨x, zs, rfl, hne⟩ := hg _ _ _ _ hstop' hnext
          rw [List.cons_append, List.cons_append] at he
          exact absurd (List.cons.inj he).1.symm hne
      | item hnext' hwidth' hcontent' hinner' hrest' =>
          simp only [List.cons_append, List.append_assoc] at he
          obtain ⟨rfl, he₁⟩ := List.cons.inj he
          obtain rfl := Option.some.inj (hnext.symm.trans hnext')
          obtain ⟨rfl, he₂⟩ :=
            List.append_inj he₁ (Option.some.inj (hwidth.symm.trans hwidth'))
          obtain ⟨rfl, he₃⟩ := List.append_inj he₂ (hcontent.trans hcontent'.symm)
          obtain ⟨rfl, rfl⟩ := ih hinner' he₃
          obtain ⟨rfl, rfl⟩ := ih' hrest' (List.append_cancel_left he₃)
          exact ⟨rfl, rfl⟩

theorem Value.unique (hg : g.Separated) {xs ys r s : List UInt8} {a b : ω} (h : Value g xs a)
    (h' : Value g ys b) (he : xs ++ r = ys ++ s) : xs = ys ∧ a = b := by
  obtain ⟨hwidth, hcontent, hinner⟩ := h
  obtain ⟨hwidth', hcontent', hinner'⟩ := h'
  simp only [List.cons_append, List.append_assoc] at he
  obtain ⟨rfl, he₁⟩ := List.cons.inj he
  obtain ⟨rfl, he₂⟩ := List.append_inj he₁ (Option.some.inj (hwidth.symm.trans hwidth'))
  obtain ⟨rfl, he₃⟩ := List.append_inj he₂ (hcontent.trans hcontent'.symm)
  obtain ⟨rfl, rfl⟩ := hinner.unique hg hinner' he₃
  exact ⟨rfl, rfl⟩

/-! ### Positions -/

variable (g) in
/-- A row of the form `f` from `offset` to `stop`. -/
def RowAt (bytes : List UInt8) (f : F) (offset stop : Nat) (a : ω) : Prop :=
  ∃ xs rest, bytes.drop offset = xs ++ rest ∧ stop = offset + xs.length ∧ Row g f xs a

variable (g) in
/-- A value from `offset` to `stop`. -/
def ValueAt (bytes : List UInt8) (offset stop : Nat) (a : ω) : Prop :=
  ∃ xs rest, bytes.drop offset = xs ++ rest ∧ stop = offset + xs.length ∧ Value g xs a

section
variable {bytes : List UInt8} {f : F} {offset stop stop' : Nat} {a b : ω}

/-- **There is one end.** -/
theorem ValueAt.unique (hg : g.Separated) (h : ValueAt g bytes offset stop a)
    (h' : ValueAt g bytes offset stop' b) : stop = stop' ∧ a = b := by
  obtain ⟨xs, rest, hdrop, rfl, h⟩ := h
  obtain ⟨ys, rest', hdrop', rfl, h'⟩ := h'
  obtain ⟨rfl, rfl⟩ := h.unique hg h' (hdrop.symm.trans hdrop')
  exact ⟨rfl, rfl⟩

theorem RowAt.bounds (h : RowAt g bytes f offset stop a) (ho : offset ≤ bytes.length) :
    offset ≤ stop ∧ stop ≤ bytes.length := by
  obtain ⟨xs, rest, hdrop, rfl, -⟩ := h
  have hlength := congrArg List.length hdrop
  rw [List.length_drop, List.length_append] at hlength
  omega

/-- A value lies inside the input. -/
theorem ValueAt.bounds (h : ValueAt g bytes offset stop a) :
    offset < stop ∧ stop ≤ bytes.length := by
  obtain ⟨xs, rest, hdrop, rfl, hv⟩ := h
  have hpos : 0 < xs.length := by
    obtain ⟨-, -, -⟩ := hv
    exact Nat.succ_pos _
  have hlength := congrArg List.length hdrop
  rw [List.length_drop, List.length_append] at hlength
  omega

/-- The bytes of the count. -/
def countAt (bytes : List UInt8) (offset width : Nat) : List UInt8 :=
  (bytes.drop offset).take width

theorem drop_split (bytes : List UInt8) (i k : Nat) :
    bytes.drop i = countAt bytes i k ++ bytes.drop (i + k) := by
  rw [countAt, ← List.drop_drop, List.take_append_drop]

theorem ValueAt.lead (h : ValueAt g bytes offset stop a) :
    ∃ lead w, bytes[offset]? = some lead ∧ g.width lead = some w := by
  obtain ⟨_, rest, hdrop, -, hv⟩ := h
  obtain @⟨lead, count, content, inner, a, hwidth, -, -⟩ := hv
  refine ⟨lead, count.length, ?_, hwidth⟩
  rw [← List.head?_drop, hdrop]
  rfl

/-- **A value** is its lead byte, its bytes, and the row inside. -/
theorem valueAt_iff {lead : UInt8} {w : Nat} (hlead : bytes[offset]? = some lead)
    (hwidth : g.width lead = some w) :
    ValueAt g bytes offset stop a ↔
      offset + 1 + w + g.content lead (countAt bytes (offset + 1) w) ≤ bytes.length ∧
      ∃ b, RowAt g bytes (g.inner lead (countAt bytes (offset + 1) w))
          (offset + 1 + w + g.content lead (countAt bytes (offset + 1) w)) stop b ∧
        a = g.value lead (countAt bytes (offset + 1) w) b := by
  obtain ⟨hlt, hget⟩ := List.getElem?_eq_some_iff.mp hlead
  have hcons : bytes.drop offset = lead :: bytes.drop (offset + 1) := by
    rw [List.drop_eq_getElem_cons hlt, hget]
  constructor
  · rintro ⟨_, rest, hdrop, rfl, hv⟩
    obtain @⟨lead', count, content, inner, b, hwidth', hcontent, hinner⟩ := hv
    rw [hcons] at hdrop
    simp only [List.cons_append, List.append_assoc] at hdrop
    obtain ⟨rfl, hdrop₁⟩ := List.cons.inj hdrop
    obtain rfl := Option.some.inj (hwidth.symm.trans hwidth')
    have hcount : countAt bytes (offset + 1) count.length = count := by
      rw [countAt, hdrop₁, List.take_left]
    have hdrop₂ : bytes.drop (offset + 1 + count.length) = content ++ (inner ++ rest) := by
      rw [← List.drop_drop, hdrop₁, List.drop_left]
    have hdrop₃ : bytes.drop (offset + 1 + count.length + g.content lead count) =
        inner ++ rest := by
      rw [← List.drop_drop, hdrop₂, ← hcontent, List.drop_left]
    have hlength := congrArg List.length hdrop₁
    simp only [List.length_drop, List.length_append] at hlength
    rw [hcount]
    refine ⟨by omega, b, ⟨inner, rest, hdrop₃, ?_, hinner⟩, rfl⟩
    simp only [List.length_cons, List.length_append]
    omega
  · rintro ⟨hfit, b, ⟨inner, rest, hdrop, rfl, hinner⟩, rfl⟩
    have hcount : (countAt bytes (offset + 1) w).length = w := by
      rw [countAt, List.length_take, List.length_drop]
      omega
    have hcontent : (countAt bytes (offset + 1 + w)
        (g.content lead (countAt bytes (offset + 1) w))).length =
          g.content lead (countAt bytes (offset + 1) w) := by
      rw [countAt, List.length_take, List.length_drop]
      omega
    rw [← hcount] at hwidth
    refine ⟨_, rest, ?_, ?_, Value.mk hwidth hcontent hinner⟩
    · rw [hcons, List.cons_append, List.append_assoc, List.append_assoc, ← hdrop,
        ← drop_split, ← drop_split]
    · simp only [List.length_cons, List.length_append, hcount, hcontent]
      omega

/-- **A row** is at its end, or is its first value and the others. -/
theorem rowAt_iff : RowAt g bytes f offset stop a ↔
    (∃ t rest, g.stop f = some t ∧ bytes.drop offset = t ++ rest ∧ stop = offset + t.length ∧
      a = g.unit) ∨
    ∃ lead f' middle b c, bytes[offset]? = some lead ∧ g.next f lead = some f' ∧
      ValueAt g bytes offset middle b ∧ RowAt g bytes f' middle stop c ∧ a = g.join f lead b c := by
  constructor
  · rintro ⟨xs, rest, hdrop, rfl, h⟩
    cases h with
    | stop hstop => exact .inl ⟨xs, rest, hstop, hdrop, rfl, rfl⟩
    | @item _ f' lead count content inner ys b c hnext hwidth hcontent hinner hrest =>
        simp only [List.cons_append, List.append_assoc] at hdrop
        have hlead : bytes[offset]? = some lead := by
          rw [← List.head?_drop, hdrop]
          rfl
        refine .inr ⟨lead, f', offset + (1 + (count.length + (content.length + inner.length))),
          _, c, hlead, hnext, ⟨_, ys ++ rest, ?_, ?_, .mk hwidth hcontent hinner⟩,
          ⟨ys, rest, ?_, ?_, hrest⟩, rfl⟩
        · simp only [hdrop, List.cons_append, List.append_assoc]
        · simp only [List.length_cons, List.length_append]
          omega
        · have happend : lead :: (count ++ (content ++ (inner ++ (ys ++ rest)))) =
              (lead :: (count ++ (content ++ inner))) ++ (ys ++ rest) := by
            simp only [List.cons_append, List.append_assoc]
          have hlength : 1 + (count.length + (content.length + inner.length)) =
              (lead :: (count ++ (content ++ inner))).length := by
            simp only [List.length_cons, List.length_append]
            omega
          rw [← List.drop_drop, hdrop, happend, hlength, List.drop_left]
        · simp only [List.length_cons, List.length_append]
          omega
  · rintro (⟨t, rest, hstop, hdrop, rfl, rfl⟩ |
      ⟨lead, f', middle, b, c, hlead, hnext, ⟨_, r, hdrop, rfl, hv⟩, ⟨ys, rest, hdrop', rfl, hrest⟩,
        rfl⟩)
    · exact ⟨t, rest, hdrop, rfl, .stop hstop⟩
    · obtain @⟨lead', count, content, inner, b, hwidth, hcontent, hinner⟩ := hv
      rw [← List.drop_drop, hdrop, List.drop_left] at hdrop'
      have hlead' : lead' = lead := by
        rw [← List.head?_drop, hdrop] at hlead
        exact Option.some.inj hlead
      subst hlead'
      refine ⟨_, rest, ?_, ?_, .item hnext hwidth hcontent hinner hrest⟩
      · simp only [hdrop, hdrop', List.cons_append, List.append_assoc]
      · simp only [List.length_cons, List.length_append]
        omega

end

/-! ### Counted rows -/

/-- The forms of rows of a known number of values. -/
structure Counted (g : Grammar F ω) (items : Nat → F) : Prop where
  stop_zero : g.stop (items 0) = some []
  next_zero : ∀ lead, g.next (items 0) lead = none
  stop_succ : ∀ n, g.stop (items (n + 1)) = none
  next_succ : ∀ n lead, g.next (items (n + 1)) lead = some (items n)

namespace Counted

variable {items : Nat → F} (hc : Counted g items) {bytes : List UInt8} {n offset stop : Nat} {a : ω}
include hc

theorem zero_iff : RowAt g bytes (items 0) offset stop a ↔ stop = offset ∧ a = g.unit := by
  rw [rowAt_iff]
  constructor
  · rintro (⟨t, rest, hstop, -, rfl, rfl⟩ | ⟨lead, f', middle, b, c, -, hnext, -⟩)
    · obtain rfl := Option.some.inj (hc.stop_zero.symm.trans hstop)
      exact ⟨rfl, rfl⟩
    · rw [hc.next_zero] at hnext
      cases hnext
  · rintro ⟨rfl, rfl⟩
    exact .inl ⟨[], bytes.drop stop, hc.stop_zero, rfl, rfl, rfl⟩

theorem succ_iff : RowAt g bytes (items (n + 1)) offset stop a ↔
    ∃ lead middle b c, bytes[offset]? = some lead ∧ ValueAt g bytes offset middle b ∧
      RowAt g bytes (items n) middle stop c ∧ a = g.join (items (n + 1)) lead b c := by
  rw [rowAt_iff]
  constructor
  · rintro (⟨t, rest, hstop, -⟩ | ⟨lead, f', middle, b, c, hlead, hnext, hv, hi, rfl⟩)
    · rw [hc.stop_succ] at hstop
      cases hstop
    · rw [hc.next_succ] at hnext
      obtain rfl := Option.some.inj hnext
      exact ⟨lead, middle, b, c, hlead, hv, hi, rfl⟩
  · rintro ⟨lead, middle, b, c, hlead, hv, hi, rfl⟩
    exact .inr ⟨lead, items n, middle, b, c, hlead, hc.next_succ n lead, hv, hi, rfl⟩

/-- Values take at least a byte each. -/
theorem count_le (h : RowAt g bytes (items n) offset stop a) : offset + n ≤ stop := by
  induction n generalizing offset a with
  | zero => exact Nat.le_of_eq (hc.zero_iff.mp h).1.symm
  | succ n ih =>
      obtain ⟨lead, middle, b, c, -, hv, hi, -⟩ := hc.succ_iff.mp h
      have hfirst := hv.bounds.1
      have hothers := ih hi
      omega

end Counted

end Delimited
