import Mathlib.Data.List.Forall2

/-!
# Lib — Readers

Readers of a sequence of tokens (`Reader`): each takes tokens off the front and leaves the others.

A reader is *local* (`Local`) when what it reads does not depend on what follows.  The combinators
below keep this, and a local reader of single elements reads a list of them exactly when the input
is the pieces of its elements one after the other (`many_iff`, `untilStop_iff`).

`Within n p q` compares two readers on inputs of at most `n` tokens: what `p` reads there, `q` reads
too.  It is how a reader with a bound on its depth is compared with one without.
-/

namespace Readers

abbrev Reader (σ α : Type) := StateT (List σ) Option α

variable {σ α β : Type} {p q : Reader σ α} {f g : α → Reader σ β} {input b tail : List σ}

theorem bind_eq_some {r : β × List σ} :
    (p >>= f) input = some r ↔ ∃ a rest, p input = some (a, rest) ∧ f a rest = some r := by
  change (p input).bind (fun x => f x.1 x.2) = some r ↔ _
  rw [Option.bind_eq_some_iff]
  constructor
  · rintro ⟨⟨a, rest⟩, h, h'⟩
    exact ⟨a, rest, h, h'⟩
  · rintro ⟨a, rest, h, h'⟩
    exact ⟨(a, rest), h, h'⟩

theorem map_eq_some {h : α → β} {r : β × List σ} :
    (h <$> p) input = some r ↔ ∃ a rest, p input = some (a, rest) ∧ r = (h a, rest) := by
  change (p >>= fun a => pure (h a)) input = some r ↔ _
  rw [bind_eq_some]
  constructor
  · rintro ⟨a, rest, hp, hr⟩
    exact ⟨a, rest, hp, (Option.some.inj hr).symm⟩
  · rintro ⟨a, rest, hp, rfl⟩
    exact ⟨a, rest, hp, rfl⟩

/-- One token. -/
def next : Reader σ σ
  | [] => none
  | t :: rest => some (t, rest)

/-- The next `n` tokens. -/
def take (n : Nat) : Reader σ (List σ) := fun input =>
  if input.length < n then none else some (input.take n, input.drop n)

/-- A value that may be missing. -/
def known (a : Option α) : Reader σ α := fun input => a.map (·, input)

/-- `n` elements. -/
def many (p : Reader σ α) : Nat → Reader σ (List α)
  | 0 => pure []
  | n + 1 => do
      let a ← p
      let as ← many p n
      pure (a :: as)

/-- The elements up to the token `stop`, in at most `rounds` rounds. -/
def rounds [DecidableEq σ] (stop : σ) (p : Reader σ α) : Nat → Reader σ (List α)
  | 0, _ => none
  | n + 1, input =>
      if input.head? = some stop then some ([], input.tail)
      else (do
        let a ← p
        let as ← rounds stop p n
        pure (a :: as)) input

def untilStop [DecidableEq σ] (stop : σ) (p : Reader σ α) : Reader σ (List α) := fun input =>
  rounds stop p (input.length + 1) input

/-! ### Local readers -/

/-- What the reader takes does not depend on what follows it. -/
def Local (p : Reader σ α) : Prop :=
  ∀ ⦃input a rest⦄, p input = some (a, rest) →
    ∃ used, input = used ++ rest ∧ ∀ tail, p (used ++ tail) = some (a, tail)

/-- The reader takes the whole input. -/
def Reads (p : Reader σ α) (b : List σ) (a : α) : Prop := p b = some (a, [])

theorem Local.reads (hp : Local p) {a : α} {rest : List σ} (h : p input = some (a, rest)) :
    ∃ used, input = used ++ rest ∧ Reads p used a := by
  obtain ⟨used, rfl, hused⟩ := hp h
  refine ⟨used, rfl, ?_⟩
  have := hused []
  rwa [List.append_nil] at this

theorem Local.extend (hp : Local p) {a : α} (h : Reads p b a) : p (b ++ tail) = some (a, tail) := by
  obtain ⟨used, hb, hused⟩ := hp h
  rw [List.append_nil] at hb
  rw [hb]
  exact hused tail

theorem Local.length_le (hp : Local p) {a : α} {rest : List σ} (h : p input = some (a, rest)) :
    rest.length ≤ input.length := by
  obtain ⟨used, rfl, -⟩ := hp h
  rw [List.length_append]
  omega

theorem local_pure (a : α) : Local (pure a : Reader σ α) := by
  intro input a' rest h
  cases h
  exact ⟨[], rfl, fun _ => rfl⟩

theorem local_next : Local (next : Reader σ σ) := by
  intro input a rest h
  cases input with
  | nil => cases h
  | cons t ts =>
      cases h
      exact ⟨[a], rfl, fun _ => rfl⟩

theorem local_known (a : Option α) : Local (known a : Reader σ α) := by
  intro input a' rest h
  cases a with
  | none => cases h
  | some a =>
      cases h
      exact ⟨[], rfl, fun _ => rfl⟩

theorem take_eq_some {n : Nat} {r : List σ × List σ} :
    take n input = some r ↔ r.1.length = n ∧ input = r.1 ++ r.2 := by
  obtain ⟨front, rest⟩ := r
  unfold take
  constructor
  · intro h
    split at h
    · cases h
    · cases h
      exact ⟨by rw [List.length_take]; omega, (List.take_append_drop n input).symm⟩
  · rintro ⟨hn, hinput⟩
    dsimp only at hn hinput
    subst hn hinput
    rw [if_neg (by rw [List.length_append]; omega), List.take_left, List.drop_left]

theorem local_take (n : Nat) : Local (take n : Reader σ (List σ)) := by
  intro input a rest h
  obtain ⟨hn, rfl⟩ := take_eq_some.mp h
  exact ⟨a, rfl, fun tail => take_eq_some.mpr ⟨hn, rfl⟩⟩

theorem local_bind (hp : Local p) (hf : ∀ a, Local (f a)) : Local (p >>= f) := by
  intro input c rest h
  obtain ⟨a, mid, ha, hc⟩ := bind_eq_some.mp h
  obtain ⟨used, rfl, hused⟩ := hp ha
  obtain ⟨used', rfl, hused'⟩ := hf a hc
  refine ⟨used ++ used', (List.append_assoc ..).symm, fun tail => bind_eq_some.mpr ?_⟩
  rw [List.append_assoc]
  exact ⟨a, used' ++ tail, hused _, hused' tail⟩

theorem local_map (hp : Local p) (h : α → β) : Local (h <$> p) :=
  local_bind hp fun a => local_pure (h a)

theorem local_many (hp : Local p) (n : Nat) : Local (many p n) := by
  induction n with
  | zero => exact local_pure []
  | succ n ih => exact local_bind hp fun _ => local_bind ih fun _ => local_pure _

/-! ### Lists of elements -/

/-- A reader of elements, none of which is empty or starts with `stop`. -/
structure Element (stop : σ) (p : Reader σ α) : Prop where
  isLocal : Local p
  nil : p [] = none
  atStop : ∀ rest, p (stop :: rest) = none

theorem Element.head? {stop : σ} (hp : Element stop p) {a : α} {rest : List σ}
    (h : p input = some (a, rest)) : input.head? ≠ some stop := by
  intro hhead
  obtain ⟨ts, rfl⟩ := List.head?_eq_some_iff.mp hhead
  rw [hp.atStop] at h
  cases h

theorem Element.length_pos {stop : σ} (hp : Element stop p) {a : α} (h : Reads p b a) :
    0 < b.length := by
  rw [List.length_pos_iff]
  rintro rfl
  rw [Reads, hp.nil] at h
  cases h

theorem Element.head?_append {stop : σ} (hp : Element stop p) {a : α} (h : Reads p b a) :
    (b ++ tail).head? ≠ some stop := hp.head? (hp.isLocal.extend h)

theorem many_iff (hp : Local p) {n : Nat} {as : List α} {rest : List σ} :
    many p n input = some (as, rest) ↔
      ∃ pieces, pieces.length = n ∧ input = pieces.flatten ++ rest ∧
        List.Forall₂ (Reads p) pieces as := by
  induction n generalizing input as with
  | zero =>
      constructor
      · intro h
        cases h
        exact ⟨[], rfl, rfl, .nil⟩
      · rintro ⟨pieces, hlen, rfl, hreads⟩
        cases List.length_eq_zero_iff.mp hlen
        cases hreads
        rfl
  | succ n ih =>
      constructor
      · intro h
        obtain ⟨a, mid, ha, h⟩ := bind_eq_some.mp h
        obtain ⟨as', rest', has, h⟩ := bind_eq_some.mp h
        cases h
        obtain ⟨used, rfl, hused⟩ := hp.reads ha
        obtain ⟨pieces, hlen, rfl, hreads⟩ := ih.mp has
        refine ⟨used :: pieces, by rw [List.length_cons, hlen], ?_, .cons hused hreads⟩
        rw [List.flatten_cons, List.append_assoc]
      · rintro ⟨pieces, hlen, rfl, hreads⟩
        cases hreads with
        | nil => cases hlen
        | cons ha has =>
            rw [List.flatten_cons, List.append_assoc]
            refine bind_eq_some.mpr ⟨_, _, hp.extend ha, bind_eq_some.mpr ⟨_, rest, ?_, rfl⟩⟩
            exact ih.mpr ⟨_, Nat.succ.inj hlen, rfl, has⟩

/-- Pieces that are not empty are at most as many as their tokens. -/
theorem length_le_flatten {pieces : List (List σ)} {as : List α}
    (h : List.Forall₂ (fun piece _ => 0 < piece.length) pieces as) :
    pieces.length ≤ pieces.flatten.length := by
  induction h with
  | nil => exact Nat.le_refl 0
  | cons hpiece _ ih =>
      rw [List.length_cons, List.flatten_cons, List.length_append]
      omega

variable [DecidableEq σ] {stop : σ}

theorem rounds_stop (n : Nat) (rest : List σ) :
    rounds stop p (n + 1) (stop :: rest) = some ([], rest) := by
  simp [rounds]

theorem rounds_step {n : Nat} (h : input.head? ≠ some stop) :
    rounds stop p (n + 1) input = (do
      let a ← p
      let as ← rounds stop p n
      pure (a :: as)) input := by
  rw [rounds, if_neg h]

theorem pieces_of_rounds (hp : Element stop p) {n : Nat} {as : List α} {rest : List σ}
    (h : rounds stop p n input = some (as, rest)) :
    ∃ pieces, input = pieces.flatten ++ stop :: rest ∧ List.Forall₂ (Reads p) pieces as := by
  induction n generalizing input as with
  | zero => cases h
  | succ n ih =>
      by_cases hhead : input.head? = some stop
      · obtain ⟨ts, rfl⟩ := List.head?_eq_some_iff.mp hhead
        rw [rounds_stop] at h
        cases h
        exact ⟨[], rfl, .nil⟩
      · rw [rounds_step hhead] at h
        obtain ⟨a, mid, ha, h⟩ := bind_eq_some.mp h
        obtain ⟨as', rest', has, h⟩ := bind_eq_some.mp h
        cases h
        obtain ⟨used, rfl, hused⟩ := hp.isLocal.reads ha
        obtain ⟨pieces, rfl, hreads⟩ := ih has
        refine ⟨used :: pieces, ?_, .cons hused hreads⟩
        rw [List.flatten_cons, List.append_assoc]

theorem rounds_of_pieces (hp : Element stop p) {n : Nat} {pieces : List (List σ)} {as : List α}
    {rest : List σ} (hreads : List.Forall₂ (Reads p) pieces as) (hn : pieces.length < n) :
    rounds stop p n (pieces.flatten ++ stop :: rest) = some (as, rest) := by
  induction hreads generalizing n with
  | nil =>
      obtain ⟨n, rfl⟩ := Nat.exists_eq_succ_of_ne_zero (Nat.ne_of_gt hn)
      exact rounds_stop n rest
  | cons ha has ih =>
      obtain ⟨n, rfl⟩ := Nat.exists_eq_succ_of_ne_zero (Nat.ne_of_gt (Nat.zero_lt_of_lt hn))
      rw [List.flatten_cons, List.append_assoc, rounds_step (hp.head?_append ha)]
      refine bind_eq_some.mpr ⟨_, _, hp.isLocal.extend ha, bind_eq_some.mpr ⟨_, rest, ?_, rfl⟩⟩
      exact ih (Nat.lt_of_succ_lt_succ hn)

theorem untilStop_iff (hp : Element stop p) {as : List α} {rest : List σ} :
    untilStop stop p input = some (as, rest) ↔
      ∃ pieces, input = pieces.flatten ++ stop :: rest ∧ List.Forall₂ (Reads p) pieces as := by
  constructor
  · intro h
    exact pieces_of_rounds hp h
  · rintro ⟨pieces, rfl, hreads⟩
    refine rounds_of_pieces hp hreads ?_
    have := length_le_flatten (hreads.imp fun _ _ ha => hp.length_pos ha)
    rw [List.length_append]
    omega

theorem local_untilStop (hp : Element stop p) : Local (untilStop stop p) := by
  intro input as rest h
  obtain ⟨pieces, rfl, hreads⟩ := (untilStop_iff hp).mp h
  refine ⟨pieces.flatten ++ [stop], by rw [List.append_assoc]; rfl, fun tail => ?_⟩
  rw [List.append_assoc]
  exact (untilStop_iff hp).mpr ⟨pieces, rfl, hreads⟩

omit [DecidableEq σ] in
theorem forall₂_getElem? {R : α → β → Prop} {as : List α} {bs : List β} (h : List.Forall₂ R as bs)
    (i : Nat) : Option.Rel R as[i]? bs[i]? := by
  induction h generalizing i with
  | nil => exact .none
  | cons hab _ ih =>
      cases i with
      | zero => exact .some hab
      | succ i => exact ih i

/-! ### Comparison on short inputs -/

/-- What `p` reads of an input of at most `n` tokens, `q` reads too. -/
def Within (n : Nat) (p q : Reader σ α) : Prop :=
  ∀ ⦃input r⦄, input.length ≤ n → p input = some r → q input = some r

omit [DecidableEq σ]

theorem within_refl (n : Nat) (p : Reader σ α) : Within n p p := fun _ _ _ h => h

theorem within_bind {n : Nat} (hl : Local p) (hpq : Within n p q)
    (hfg : ∀ a, Within n (f a) (g a)) : Within n (p >>= f) (q >>= g) := by
  intro input r hn h
  obtain ⟨a, rest, ha, hr⟩ := bind_eq_some.mp h
  have hrest := hl.length_le ha
  exact bind_eq_some.mpr ⟨a, rest, hpq hn ha, hfg a (by omega) hr⟩

theorem within_map {n : Nat} (hl : Local p) (hpq : Within n p q) (h : α → β) :
    Within n (h <$> p) (h <$> q) :=
  within_bind hl hpq fun a => within_refl n (pure (h a))

/-- After a token there is one token less. -/
theorem within_next {n : Nat} {f g : σ → Reader σ β} (hfg : ∀ t, Within n (f t) (g t)) :
    Within (n + 1) (next >>= f) (next >>= g) := by
  intro input r hn h
  obtain ⟨t, rest, ht, hr⟩ := bind_eq_some.mp h
  cases input with
  | nil => cases ht
  | cons t' ts =>
      cases ht
      exact bind_eq_some.mpr ⟨t, rest, rfl, hfg t (Nat.le_of_succ_le_succ hn) hr⟩

theorem within_many {n : Nat} (hl : Local p) (hpq : Within n p q) (k : Nat) :
    Within n (many p k) (many q k) := by
  induction k with
  | zero => exact within_refl n (pure [])
  | succ k ih =>
      refine within_bind hl hpq fun a => within_bind (local_many hl k) ih fun as => ?_
      exact within_refl n (pure (a :: as))

theorem within_untilStop [DecidableEq σ] {n : Nat} (hp : Element stop p) (hq : Element stop q)
    (hpq : Within n p q) : Within n (untilStop stop p) (untilStop stop q) := by
  intro input r hn h
  obtain ⟨as, rest⟩ := r
  obtain ⟨pieces, rfl, hreads⟩ := (untilStop_iff hp).mp h
  refine (untilStop_iff hq).mpr ⟨pieces, rfl, ?_⟩
  rw [List.length_append] at hn
  replace hn : pieces.flatten.length ≤ n := by omega
  clear h
  induction hreads with
  | nil => exact .nil
  | cons ha has ih =>
      rw [List.flatten_cons, List.length_append] at hn
      exact .cons (hpq (by omega) ha) (ih (by omega))

end Readers
