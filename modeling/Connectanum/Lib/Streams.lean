import Connectanum.Lib.Readers

/-!
# Lib — Streams

Units cut off the front of a stream that arrives in parts.

A `Cutter` takes the first unit of its input, or waits for more.  What it cuts does not depend on
what follows, so the units of a stream do not depend on how it arrived (`drain_append`).

A `Splitter` may also find its input malformed.  A reader that goes through a stream part by part and
keeps the beginning of a unit between two parts (`Follows`) cuts the same units and fails where the
stream is malformed (`Follows.feed`); of the part in which it fails it returns no unit.
-/

namespace Streams

structure Cutter (α β : Type) where
  /-- The first unit, and what comes after it. -/
  cut : List α → Option (β × List α)
  shorter : ∀ {s b rest}, cut s = some (b, rest) → rest.length < s.length
  stable : ∀ {s b rest} (t), cut s = some (b, rest) → cut (s ++ t) = some (b, rest ++ t)

namespace Cutter

variable {α β : Type} (c : Cutter α β)

/-- A reader of single units. -/
def ofReader (p : Readers.Reader α β) (hp : Readers.Local p)
    (hshorter : ∀ {s b rest}, p s = some (b, rest) → rest.length < s.length) : Cutter α β where
  cut := p
  shorter := hshorter
  stable t h := by
    obtain ⟨used, rfl, hused⟩ := hp h
    rw [List.append_assoc]
    exact hused _

/-- All the units of the input, and what is left. -/
def drain (s : List α) : List β × List α :=
  match h : c.cut s with
  | none => ([], s)
  | some (b, rest) =>
      have := c.shorter h
      let r := drain rest
      (b :: r.1, r.2)
termination_by s.length

variable {c}

theorem drain_of_none {s : List α} (h : c.cut s = none) : c.drain s = ([], s) := by
  rw [drain]
  split
  · rfl
  · next h' => rw [h] at h'; cases h'

theorem drain_of_some {s rest : List α} {b : β} (h : c.cut s = some (b, rest)) :
    c.drain s = (b :: (c.drain rest).1, (c.drain rest).2) := by
  rw [drain]
  split
  · next h' => rw [h] at h'; cases h'
  · next h' =>
      rw [h] at h'
      cases h'
      rfl

/-- To show something of what is drained, show it of an input without a unit, and of one with a
first unit from the rest. -/
theorem drain_induction {motive : List α → Prop} (wait : ∀ s, c.cut s = none → motive s)
    (unit : ∀ s b rest, c.cut s = some (b, rest) → motive rest → motive s) (s : List α) :
    motive s := by
  induction hn : s.length using Nat.strongRecOn generalizing s with
  | ind n ih =>
      cases h : c.cut s with
      | none => exact wait s h
      | some r =>
          obtain ⟨b, rest⟩ := r
          have hshort := c.shorter h
          exact unit s b rest h (ih rest.length (hn ▸ hshort) rest rfl)

/-- Nothing that is left makes a unit. -/
theorem cut_drain (s : List α) : c.cut (c.drain s).2 = none := by
  induction s using drain_induction (c := c) with
  | wait s h => rw [drain_of_none h]; exact h
  | unit s b rest h ih => rw [drain_of_some h]; exact ih

/-- **Parts.**  The units of a stream are those of its first part, and then those of what was left
of it and the second part. -/
theorem drain_append (s t : List α) :
    c.drain (s ++ t) =
      ((c.drain s).1 ++ (c.drain ((c.drain s).2 ++ t)).1, (c.drain ((c.drain s).2 ++ t)).2) := by
  induction s using drain_induction (c := c) with
  | wait s h => rw [drain_of_none h]; rfl
  | unit s b rest h ih =>
      rw [drain_of_some (c.stable t h), ih, drain_of_some h]
      rfl

/-- Of a part of a stream of written units, each of which is cut whatever follows it, the whole ones
are cut, and the start of the next one is left. -/
theorem drain_of_written {bs : List β} {written : List (List α)}
    (h : List.Forall₂ (fun b w => ∀ t, c.cut (w ++ t) = some (b, t)) bs written) {s : List α}
    (hs : s <+: written.flatten) :
    ∃ n, (c.drain s).1 = bs.take n ∧ s = (written.take n).flatten ++ (c.drain s).2 ∧
      ∀ w, written[n]? = some w → (c.drain s).2.length < w.length := by
  induction h generalizing s with
  | nil =>
      obtain rfl := List.prefix_nil.mp hs
      have hcut : c.cut [] = none := by
        cases hcut : c.cut [] with
        | none => rfl
        | some r => exact absurd (c.shorter hcut) (Nat.not_lt_zero _)
      rw [drain_of_none hcut]
      exact ⟨0, rfl, rfl, by simp⟩
  | @cons b w bs written hcut _ ih =>
      have hw : w <+: (w :: written).flatten := List.prefix_append w _
      obtain hshort | hlong := Nat.lt_or_ge s.length w.length
      · obtain ⟨more, rfl⟩ := List.prefix_of_prefix_length_le hs hw (Nat.le_of_lt hshort)
        have hnone : c.cut s = none := by
          cases hpart : c.cut s with
          | none => rfl
          | some r =>
              -- the same unit would be cut of the whole, and nothing would be left
              have hwhole := hcut []
              rw [List.append_nil, c.stable more hpart] at hwhole
              have hnil := (Prod.mk.inj (Option.some.inj hwhole)).2
              rw [(List.append_eq_nil_iff.mp hnil).2, List.append_nil] at hshort
              exact absurd hshort (Nat.lt_irrefl _)
        rw [drain_of_none hnone]
        refine ⟨0, rfl, rfl, fun w' hw' => ?_⟩
        obtain rfl := Option.some.inj hw'
        exact hshort
      · obtain ⟨s', rfl⟩ := List.prefix_of_prefix_length_le hw hs hlong
        obtain ⟨n, hunits, hleft, hnext⟩ := ih ((List.prefix_append_right_inj w).mp hs)
        rw [drain_of_some (hcut s')]
        refine ⟨n + 1, by rw [hunits, List.take_succ_cons], ?_, hnext⟩
        rw [List.take_succ_cons, List.flatten_cons, List.append_assoc, ← hleft]

end Cutter

/-! ### Streams that may be malformed -/

structure Splitter (α β ε : Type) where
  /-- The first unit and what comes after it, or that there is none. -/
  cut : List α → Option (Except ε (β × List α))
  shorter : ∀ {s b rest}, cut s = some (.ok (b, rest)) → rest.length < s.length
  stable : ∀ {s b rest} (t), cut s = some (.ok (b, rest)) → cut (s ++ t) = some (.ok (b, rest ++ t))
  stable_error : ∀ {s e} (t), cut s = some (.error e) → cut (s ++ t) = some (.error e)

namespace Splitter

variable {α β ε : Type} (c : Splitter α β ε)

/-- All the units of the input, and what is left or why there are no more. -/
def drain (s : List α) : List β × Except ε (List α) :=
  match h : c.cut s with
  | none => ([], .ok s)
  | some (.error e) => ([], .error e)
  | some (.ok (b, rest)) =>
      have := c.shorter h
      let r := drain rest
      (b :: r.1, r.2)
termination_by s.length

variable {c}

theorem drain_of_none {s : List α} (h : c.cut s = none) : c.drain s = ([], .ok s) := by
  rw [drain]
  split
  · rfl
  · next h' => rw [h] at h'; cases h'
  · next h' => rw [h] at h'; cases h'

theorem drain_of_error {s : List α} {e : ε} (h : c.cut s = some (.error e)) :
    c.drain s = ([], .error e) := by
  rw [drain]
  split
  · next h' => rw [h] at h'; cases h'
  · next h' =>
      rw [h] at h'
      cases h'
      rfl
  · next h' => rw [h] at h'; cases h'

theorem drain_of_ok {s rest : List α} {b : β} (h : c.cut s = some (.ok (b, rest))) :
    c.drain s = (b :: (c.drain rest).1, (c.drain rest).2) := by
  rw [drain]
  split
  · next h' => rw [h] at h'; cases h'
  · next h' => rw [h] at h'; cases h'
  · next h' =>
      rw [h] at h'
      cases h'
      rfl

theorem drain_induction {motive : List α → Prop} (wait : ∀ s, c.cut s = none → motive s)
    (malformed : ∀ s e, c.cut s = some (.error e) → motive s)
    (unit : ∀ s b rest, c.cut s = some (.ok (b, rest)) → motive rest → motive s) (s : List α) :
    motive s := by
  induction hn : s.length using Nat.strongRecOn generalizing s with
  | ind n ih =>
      cases h : c.cut s with
      | none => exact wait s h
      | some r =>
          cases r with
          | error e => exact malformed s e h
          | ok r =>
              obtain ⟨b, rest⟩ := r
              have hshort := c.shorter h
              exact unit s b rest h (ih rest.length (hn ▸ hshort) rest rfl)

/-- What follows a malformed unit is not looked at. -/
theorem drain_append_error {s : List α} (t : List α) {bs : List β} {e : ε}
    (h : c.drain s = (bs, .error e)) : c.drain (s ++ t) = (bs, .error e) := by
  induction s using drain_induction (c := c) generalizing bs with
  | wait s hcut =>
      rw [drain_of_none hcut] at h
      cases (Prod.mk.inj h).2
  | malformed s e' hcut =>
      rw [drain_of_error hcut] at h
      rw [drain_of_error (c.stable_error t hcut), h]
  | unit s b rest hcut ih =>
      rw [drain_of_ok hcut] at h
      obtain ⟨rfl, he⟩ := Prod.mk.inj h
      rw [drain_of_ok (c.stable t hcut), ih (Prod.ext rfl he)]

theorem drain_append_ok {s tail : List α} (t : List α) {bs : List β}
    (h : c.drain s = (bs, .ok tail)) :
    c.drain (s ++ t) = (bs ++ (c.drain (tail ++ t)).1, (c.drain (tail ++ t)).2) := by
  induction s using drain_induction (c := c) generalizing bs with
  | wait s hcut =>
      rw [drain_of_none hcut] at h
      obtain ⟨rfl, htail⟩ := Prod.mk.inj h
      obtain rfl := Except.ok.inj htail
      rfl
  | malformed s e' hcut =>
      rw [drain_of_error hcut] at h
      cases (Prod.mk.inj h).2
  | unit s b rest hcut ih =>
      rw [drain_of_ok hcut] at h
      obtain ⟨rfl, he⟩ := Prod.mk.inj h
      rw [drain_of_ok (c.stable t hcut), ih (Prod.ext rfl he)]
      rfl

/-- Of a stream that is not malformed, the beginning gives the first units. -/
theorem drain_of_prefix {s whole tail : List α} {bs : List β} (hs : s <+: whole)
    (h : c.drain whole = (bs, .ok tail)) :
    ∃ bs' tail', c.drain s = (bs', .ok tail') ∧ bs' <+: bs := by
  obtain ⟨t, rfl⟩ := hs
  cases hone : c.drain s with
  | mk bs' result =>
      cases result with
      | error e =>
          rw [drain_append_error t hone] at h
          cases (Prod.mk.inj h).2
      | ok tail' =>
          rw [drain_append_ok t hone] at h
          exact ⟨bs', tail', rfl, (Prod.mk.inj h).1 ▸ List.prefix_append ..⟩

/-- Units that were written one after the other, each of which is cut whatever follows it. -/
theorem drain_flatten {bs : List β} {written : List (List α)}
    (h : List.Forall₂ (fun b w => ∀ t, c.cut (w ++ t) = some (.ok (b, t))) bs written) (t : List α) :
    c.drain (written.flatten ++ t) = (bs ++ (c.drain t).1, (c.drain t).2) := by
  induction h with
  | nil => rfl
  | cons hcut _ ih => rw [List.flatten_cons, List.append_assoc, drain_of_ok (hcut _), ih]; rfl

end Splitter

section

variable {α β ε σ : Type} {c : Splitter α β ε} {add : σ → List α → Except ε (List β × σ)}
  {holds : σ → List α → Prop}

/-- Feeds the parts one after the other, until one fails. -/
def feed (add : σ → List α → Except ε (List β × σ)) (st : σ) :
    List (List α) → List β × Except ε σ
  | [] => ([], .ok st)
  | part :: parts =>
      match add st part with
      | .error e => ([], .error e)
      | .ok (bs, st') =>
          let r := feed add st' parts
          (bs ++ r.1, r.2)

/-- The reader holds the beginning of a unit, and goes on from there. -/
structure Follows (c : Splitter α β ε) (add : σ → List α → Except ε (List β × σ))
    (holds : σ → List α → Prop) : Prop where
  waits : ∀ {st held}, holds st held → c.cut held = none
  ok : ∀ {st held part bs tail}, holds st held → c.drain (held ++ part) = (bs, .ok tail) →
    ∃ st', add st part = .ok (bs, st') ∧ holds st' tail
  error : ∀ {st held part bs e}, holds st held → c.drain (held ++ part) = (bs, .error e) →
    add st part = .error e

namespace Follows

variable {st : σ} {held : List α}

/-- **Parts.**  Of a stream that is not malformed the parts give the units of the whole. -/
theorem feed_ok (h : Follows c add holds) (hst : holds st held) (parts : List (List α))
    {bs : List β} {tail : List α} (hdrain : c.drain (held ++ parts.flatten) = (bs, .ok tail)) :
    ∃ st', feed add st parts = (bs, .ok st') ∧ holds st' tail := by
  induction parts generalizing st held bs with
  | nil =>
      rw [List.flatten_nil, List.append_nil, Splitter.drain_of_none (h.waits hst)] at hdrain
      obtain ⟨rfl, htail⟩ := Prod.mk.inj hdrain
      obtain rfl := Except.ok.inj htail
      exact ⟨st, rfl, hst⟩
  | cons part parts ih =>
      rw [List.flatten_cons, ← List.append_assoc] at hdrain
      cases hone : c.drain (held ++ part) with
      | mk bs₁ result =>
          cases result with
          | error e =>
              rw [Splitter.drain_append_error _ hone] at hdrain
              cases (Prod.mk.inj hdrain).2
          | ok tail₁ =>
              obtain ⟨st₁, hadd, hst₁⟩ := h.ok hst hone
              rw [Splitter.drain_append_ok _ hone] at hdrain
              obtain ⟨rfl, htail⟩ := Prod.mk.inj hdrain
              obtain ⟨st', hfeed, hst'⟩ := ih hst₁ (Prod.ext rfl htail)
              refine ⟨st', ?_, hst'⟩
              rw [feed, hadd]
              simp only [hfeed]

/-- Of a malformed stream one part fails, with what is wrong in the whole.  The parts before it give
the units of these parts. -/
theorem feed_error (h : Follows c add holds) (hst : holds st held) (parts : List (List α))
    {bs : List β} {e : ε} (hdrain : c.drain (held ++ parts.flatten) = (bs, .error e)) :
    ∃ before part after tail bs', parts = before ++ part :: after ∧
      c.drain (held ++ before.flatten) = (bs', .ok tail) ∧
      (c.drain (held ++ (before.flatten ++ part))).2 = .error e ∧
      feed add st parts = (bs', .error e) := by
  induction parts generalizing st held bs with
  | nil =>
      rw [List.flatten_nil, List.append_nil, Splitter.drain_of_none (h.waits hst)] at hdrain
      cases (Prod.mk.inj hdrain).2
  | cons part parts ih =>
      rw [List.flatten_cons, ← List.append_assoc] at hdrain
      cases hone : c.drain (held ++ part) with
      | mk bs₁ result =>
          cases result with
          | error e' =>
              rw [Splitter.drain_append_error _ hone] at hdrain
              obtain ⟨-, he⟩ := Prod.mk.inj hdrain
              obtain rfl := Except.error.inj he
              refine ⟨[], part, parts, held, [], rfl, ?_, ?_, ?_⟩
              · rw [List.flatten_nil, List.append_nil, Splitter.drain_of_none (h.waits hst)]
              · rw [List.flatten_nil, List.nil_append, hone]
              · rw [feed, h.error hst hone]
          | ok tail₁ =>
              obtain ⟨st₁, hadd, hst₁⟩ := h.ok hst hone
              rw [Splitter.drain_append_ok _ hone] at hdrain
              obtain ⟨before, bad, after, tail, bs', rfl, hbefore, hbad, hfeed⟩ :=
                ih hst₁ (Prod.ext rfl (Prod.mk.inj hdrain).2)
              refine ⟨part :: before, bad, after, tail, bs₁ ++ bs', rfl, ?_, ?_, ?_⟩
              · rw [List.flatten_cons, ← List.append_assoc, Splitter.drain_append_ok _ hone,
                  hbefore]
              · rw [List.flatten_cons, List.append_assoc, ← List.append_assoc held,
                  Splitter.drain_append_ok _ hone, hbad]
              · rw [feed, hadd]
                simp only [hfeed]

end Follows

end

end Streams
