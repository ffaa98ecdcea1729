import Mathlib.Data.List.Basic

/-!
# Lib — Scans

Scanners of a byte string with a budget: computations on a `Cursor` that may fail.

`Maps n f p q` says that on inputs of at most `n` bytes `p` does what `q` does, up to the errors, and
that its result is `f` of the other's.  `Checked P f p q` says that `p` does what `q` does where the
result of `q` passes a check `P`.  Both are kept by sequencing and by loops, so a scanner that checks
as it goes is compared with one that reads everything first and checks at the end (`loop_checked`).
-/

namespace Scans

structure Cursor where
  rest : List UInt8
  /-- The items charged so far. -/
  items : Nat := 0
  deriving DecidableEq, Repr

abbrev Scan (ε α : Type) := StateT Cursor (Except ε) α

section

variable {ε α σ : Type}

def fail (e : ε) : Scan ε α := fun _ => .error e

/-- One more item, of at most `limit`. -/
def charge (limit : Nat) (e : ε) : Scan ε Unit := fun s =>
  if s.items + 1 > limit then .error e else .ok ((), { s with items := s.items + 1 })

def byte (e : ε) : Scan ε UInt8 := fun s =>
  match s.rest with
  | [] => .error e
  | b :: rest => .ok (b, { s with rest })

/-- The next `n` bytes. -/
def take (e : ε) (n : Nat) : Scan ε (List UInt8) := fun s =>
  if s.rest.length < n then .error e
  else .ok (s.rest.take n, { s with rest := s.rest.drop n })

/-- The next byte is the stop, which is then taken. -/
def atStop (stop : UInt8) : Scan ε Bool := fun s =>
  if s.rest.head? = some stop then .ok (true, { s with rest := s.rest.tail }) else .ok (false, s)

/-- The same, where there must be a next byte. -/
def takeStop (e : ε) (stop : UInt8) : Scan ε Bool := fun s =>
  match s.rest with
  | [] => .error e
  | _ :: _ => atStop stop s

/-- A loop of at most `fuel` rounds; `more` has the number of rounds done. -/
def loop (e : ε) (more : Nat → Scan ε Bool) (body : σ → Scan ε σ) : Nat → Nat → σ → Scan ε σ
  | 0, _, _ => fail e
  | fuel + 1, index, st => do
      if ← more index then
        let st ← body st
        loop e more body fuel (index + 1) st
      else pure st

/-- A loop of which every round takes a byte. -/
def whileMore (e : ε) (more : Nat → Scan ε Bool) (body : σ → Scan ε σ) (st : σ) : Scan ε σ :=
  fun s => loop e more body (s.rest.length + 1) 0 st s

end

/-! ### Sequencing -/

section

variable {ε δ α β γ σ τ : Type}

theorem bind_eq_ok {p : Scan ε α} {k : α → Scan ε β} {s : Cursor} {r : β × Cursor} :
    (p >>= k) s = .ok r ↔ ∃ a s', p s = .ok (a, s') ∧ k a s' = .ok r := by
  change (Except.bind (p s) fun x => k x.1 x.2) = .ok r ↔ _
  cases hp : p s with
  | error e => simp [Except.bind]
  | ok x =>
      obtain ⟨a, s'⟩ := x
      simp [Except.bind]

theorem map_eq_ok {p : Scan ε α} {f : α → β} {s : Cursor} {r : β × Cursor} :
    (f <$> p) s = .ok r ↔ ∃ a s', p s = .ok (a, s') ∧ r = (f a, s') := by
  change (p >>= fun a => pure (f a)) s = .ok r ↔ _
  rw [bind_eq_ok]
  constructor
  · rintro ⟨a, s', hp, hr⟩
    exact ⟨a, s', hp, (Except.ok.inj hr).symm⟩
  · rintro ⟨a, s', hp, rfl⟩
    exact ⟨a, s', hp, rfl⟩

theorem toOption_bind (p : Scan ε α) (k : α → Scan ε β) (s : Cursor) :
    ((p >>= k) s).toOption = (p s).toOption.bind fun r => (k r.1 r.2).toOption := by
  change (Except.bind (p s) fun x => k x.1 x.2).toOption = _
  cases p s with
  | error e => rfl
  | ok x => rfl

theorem take_succ (e : ε) (n : Nat) (b : UInt8) (rest : List UInt8) (items : Nat) :
    take e (n + 1) ⟨b :: rest, items⟩ =
      (take e n ⟨rest, items⟩).map fun r => (b :: r.1, r.2) := by
  rw [take, take]
  dsimp only [List.length_cons]
  by_cases h : rest.length < n
  · rw [if_pos h, if_pos (by omega)]
    rfl
  · rw [if_neg h, if_neg (by omega)]
    rfl

/-- Nothing is put back. -/
def Shrinks (p : Scan ε α) : Prop :=
  ∀ ⦃s a s'⦄, p s = .ok (a, s') → s'.rest.length ≤ s.rest.length

/-- A byte is taken. -/
def Consumes (p : Scan ε α) : Prop :=
  ∀ ⦃s a s'⦄, p s = .ok (a, s') → s'.rest.length < s.rest.length

theorem Consumes.shrinks {p : Scan ε α} (h : Consumes p) : Shrinks p :=
  fun _ _ _ hp => Nat.le_of_lt (h hp)

theorem shrinks_pure (a : α) : Shrinks (pure a : Scan ε α) := by
  intro s a' s' h
  cases h
  exact Nat.le_refl _

theorem shrinks_fail (e : ε) : Shrinks (fail e : Scan ε α) := fun _ _ _ h => nomatch h

theorem shrinks_charge (limit : Nat) (e : ε) : Shrinks (charge limit e) := by
  intro s a s' h
  rw [charge] at h
  split at h
  · cases h
  · cases h
    exact Nat.le_refl _

theorem consumes_byte (e : ε) : Consumes (byte e) := by
  intro s a s' h
  rw [byte] at h
  split at h
  · cases h
  · next hrest =>
      cases h
      rw [hrest]
      exact Nat.lt_succ_self _

theorem shrinks_take (e : ε) (n : Nat) : Shrinks (take e n) := by
  intro s a s' h
  rw [take] at h
  split at h
  · cases h
  · cases h
    rw [List.length_drop]
    exact Nat.sub_le _ _

theorem shrinks_atStop (stop : UInt8) : Shrinks (atStop stop : Scan ε Bool) := by
  intro s a s' h
  rw [atStop] at h
  split at h
  · cases h
    rw [List.length_tail]
    exact Nat.sub_le _ _
  · cases h
    exact Nat.le_refl _

theorem Shrinks.bind {p : Scan ε α} {k : α → Scan ε β} (hp : Shrinks p) (hk : ∀ a, Shrinks (k a)) :
    Shrinks (p >>= k) := by
  intro s b s' h
  obtain ⟨a, s₁, h₁, h₂⟩ := bind_eq_ok.mp h
  exact Nat.le_trans (hk a h₂) (hp h₁)

theorem Shrinks.map {p : Scan ε α} (hp : Shrinks p) (f : α → β) : Shrinks (f <$> p) :=
  hp.bind fun _ => shrinks_pure _

theorem Shrinks.bind_consumes {p : Scan ε α} {k : α → Scan ε β} (hp : Shrinks p)
    (hk : ∀ a, Consumes (k a)) : Consumes (p >>= k) := by
  intro s b s' h
  obtain ⟨a, s₁, h₁, h₂⟩ := bind_eq_ok.mp h
  exact Nat.lt_of_lt_of_le (hk a h₂) (hp h₁)

theorem Consumes.bind {p : Scan ε α} {k : α → Scan ε β} (hp : Consumes p)
    (hk : ∀ a, Shrinks (k a)) : Consumes (p >>= k) := by
  intro s b s' h
  obtain ⟨a, s₁, h₁, h₂⟩ := bind_eq_ok.mp h
  exact Nat.lt_of_le_of_lt (hk a h₂) (hp h₁)

/-! ### Loops -/

variable {e : ε} {more : Nat → Scan ε Bool} {body : σ → Scan ε σ}

theorem loop_succ (fuel index : Nat) (st : σ) (s : Cursor) :
    loop e more body (fuel + 1) index st s =
      (more index >>= fun b =>
        if b then body st >>= loop e more body fuel (index + 1) else pure st) s := rfl

theorem shrinks_loop (hmore : ∀ i, Shrinks (more i)) (hbody : ∀ st, Shrinks (body st))
    (fuel index : Nat) (st : σ) : Shrinks (loop e more body fuel index st) := by
  induction fuel generalizing index st with
  | zero => exact shrinks_fail e
  | succ fuel ih =>
      refine (hmore index).bind fun b => ?_
      split
      · exact (hbody st).bind fun st => ih (index + 1) st
      · exact shrinks_pure st

theorem shrinks_whileMore (hmore : ∀ i, Shrinks (more i)) (hbody : ∀ st, Shrinks (body st))
    (st : σ) : Shrinks (whileMore e more body st) :=
  fun _ _ _ h => shrinks_loop hmore hbody _ _ _ h

/-- Where there is more, and no round is possible, the loop fails. -/
theorem loop_ne_ok {count : Nat} (hmore : ∀ i, more i = pure (decide (i < count)))
    (hbody : ∀ st, Consumes (body st)) {fuel index : Nat} (st : σ) {s : Cursor}
    (h : s.rest.length < count - index) (r : σ × Cursor) :
    loop e more body fuel index st s ≠ .ok r := by
  induction fuel generalizing index st s with
  | zero => exact fun hr => nomatch hr
  | succ fuel ih =>
      intro hr
      rw [loop_succ, hmore] at hr
      obtain ⟨b, s₁, hb, hr⟩ := bind_eq_ok.mp hr
      cases hb
      rw [if_pos (decide_eq_true (by omega))] at hr
      obtain ⟨st', s₂, hbody', hr⟩ := bind_eq_ok.mp hr
      have hless := hbody st hbody'
      exact ih st' (by omega) hr

/-! ### What a scan takes -/

/-- The scan takes the bytes `used` and charges `n` items. -/
structure Takes (used : List UInt8) (n : Nat) (s s' : Cursor) : Prop where
  rest : s.rest = used ++ s'.rest
  items : s'.items = s.items + n

theorem takes_nothing (s : Cursor) : Takes [] 0 s s := ⟨rfl, rfl⟩

theorem takes_nothing_iff {s s' : Cursor} : Takes [] 0 s s' ↔ s' = s := by
  obtain ⟨rest, items⟩ := s
  obtain ⟨rest', items'⟩ := s'
  constructor
  · rintro ⟨hrest, hitems⟩
    exact congrArg₂ Cursor.mk hrest.symm hitems
  · intro h
    rw [h]
    exact takes_nothing _

theorem Takes.trans {used used' : List UInt8} {n n' : Nat} {s s₁ s' : Cursor}
    (h : Takes used n s s₁) (h' : Takes used' n' s₁ s') : Takes (used ++ used') (n + n') s s' where
  rest := by rw [h.rest, h'.rest, List.append_assoc]
  items := by rw [h'.items, h.items, Nat.add_assoc]

/-- Where a scan of the second part begins. -/
theorem Takes.split {used used' : List UInt8} {n n' : Nat} {s s' : Cursor}
    (h : Takes (used ++ used') (n + n') s s') :
    ∃ s₁, Takes used n s s₁ ∧ Takes used' n' s₁ s' :=
  ⟨⟨used' ++ s'.rest, s.items + n⟩, ⟨by rw [h.rest, List.append_assoc], rfl⟩,
    ⟨rfl, by rw [h.items, Nat.add_assoc]⟩⟩

theorem Takes.charged {used : List UInt8} {n : Nat} {s s' : Cursor} (h : Takes used (1 + n) s s') :
    ∃ s₁, Takes [] 1 s s₁ ∧ Takes used n s₁ s' :=
  have h' : Takes ([] ++ used) (1 + n) s s' := h
  h'.split

theorem Takes.cut {used used' : List UInt8} {n : Nat} {s s' : Cursor}
    (h : Takes (used ++ used') n s s') : ∃ s₁, Takes used 0 s s₁ ∧ Takes used' n s₁ s' :=
  have h' : Takes (used ++ used') (0 + n) s s' := by rwa [Nat.zero_add]
  h'.split

theorem Takes.head {b : UInt8} {used : List UInt8} {n : Nat} {s s' : Cursor}
    (h : Takes (b :: used) n s s') : ∃ s₁, Takes [b] 0 s s₁ ∧ Takes used n s₁ s' :=
  have h' : Takes ([b] ++ used) n s s' := h
  h'.cut

theorem Takes.length {used : List UInt8} {n : Nat} {s s' : Cursor} (h : Takes used n s s') :
    s.rest.length = used.length + s'.rest.length := by
  rw [h.rest, List.length_append]

theorem Takes.items_le {used : List UInt8} {n limit : Nat} {s s' : Cursor} (h : Takes used n s s')
    (hlimit : s'.items ≤ limit) : s.items ≤ limit := by
  have := h.items
  omega

theorem charge_eq_ok {limit : Nat} {e : ε} {s s' : Cursor} :
    charge limit e s = .ok ((), s') ↔ Takes [] 1 s s' ∧ s'.items ≤ limit := by
  obtain ⟨rest, items⟩ := s
  obtain ⟨rest', items'⟩ := s'
  rw [charge]
  constructor
  · intro h
    split at h
    · cases h
    · next hle =>
      cases h
      exact ⟨⟨rfl, rfl⟩, Nat.le_of_not_lt hle⟩
  · rintro ⟨⟨hrest, hitems⟩, hle⟩
    cases hrest
    cases hitems
    exact if_neg (Nat.not_lt.mpr hle)

theorem byte_eq_ok {e : ε} {b : UInt8} {s s' : Cursor} :
    byte e s = .ok (b, s') ↔ Takes [b] 0 s s' := by
  obtain ⟨rest, items⟩ := s
  obtain ⟨rest', items'⟩ := s'
  constructor
  · intro h
    cases rest with
    | nil => cases h
    | cons c rest =>
        cases h
        exact ⟨rfl, rfl⟩
  · rintro ⟨hrest, hitems⟩
    cases hrest
    cases hitems
    rfl

theorem take_eq_ok {e : ε} {n : Nat} {front : List UInt8} {s s' : Cursor} :
    take e n s = .ok (front, s') ↔ front.length = n ∧ Takes front 0 s s' := by
  obtain ⟨rest, items⟩ := s
  obtain ⟨rest', items'⟩ := s'
  rw [take]
  constructor
  · intro h
    split at h
    · cases h
    · next hle =>
      cases h
      exact ⟨List.length_take_of_le (Nat.le_of_not_lt hle), (List.take_append_drop n rest).symm, rfl⟩
  · rintro ⟨rfl, hrest, hitems⟩
    dsimp only at hrest hitems
    subst hrest hitems
    have hle : ¬(front ++ rest').length < front.length := by simp
    rw [if_neg hle, List.take_left, List.drop_left]

/-! ### The rounds of a loop -/

/-- `n` rounds, one after the other. -/
inductive Rounds (body : σ → Scan ε σ) : Nat → σ → Cursor → σ → Cursor → Prop where
  | zero {st : σ} {s : Cursor} : Rounds body 0 st s st s
  | succ {n : Nat} {st st₁ st' : σ} {s s₁ s' : Cursor} (h : body st s = .ok (st₁, s₁))
      (t : Rounds body n st₁ s₁ st' s') : Rounds body (n + 1) st s st' s'

/-- **A loop of a known number of rounds.** -/
theorem loop_counted {count : Nat} (hmore : ∀ i, more i = pure (decide (i < count)))
    (hbody : ∀ st, Consumes (body st)) {fuel index : Nat} {st st' : σ} {s s' : Cursor}
    (h : s.rest.length < fuel) :
    loop e more body fuel index st s = .ok (st', s') ↔ Rounds body (count - index) st s st' s' := by
  induction fuel generalizing index st s with
  | zero => exact absurd h (Nat.not_lt_zero _)
  | succ fuel ih =>
      rw [loop_succ, hmore]
      by_cases hlt : index < count
      · have hn : count - index = count - (index + 1) + 1 := by omega
        rw [decide_eq_true hlt, hn]
        change (body st >>= loop e more body fuel (index + 1)) s = _ ↔ _
        rw [bind_eq_ok]
        constructor
        · rintro ⟨st₁, s₁, hround, hloop⟩
          have hless := hbody st hround
          exact .succ hround ((ih (by omega)).mp hloop)
        · intro hrounds
          cases hrounds with
          | succ hround t =>
              have hless := hbody st hround
              exact ⟨_, _, hround, (ih (by omega)).mpr t⟩
      · have hn : count - index = 0 := by omega
        rw [decide_eq_false hlt, hn]
        change (pure st : Scan ε σ) s = _ ↔ _
        constructor
        · intro hpure
          cases hpure
          exact .zero
        · intro hrounds
          cases hrounds
          rfl

/-- **A loop up to a stop**, at which no round is possible. -/
theorem loop_until {stop : UInt8} (hbody : ∀ st, Consumes (body st))
    (hstop : ∀ {st s r}, body st s = .ok r → s.rest.head? ≠ some stop) {fuel index : Nat}
    {st st' : σ} {s s' : Cursor} (h : s.rest.length < fuel) :
    loop e (fun _ => not <$> atStop stop) body fuel index st s = .ok (st', s') ↔
      ∃ n s₁, Rounds body n st s st' s₁ ∧ Takes [stop] 0 s₁ s' := by
  induction fuel generalizing index st s with
  | zero => exact absurd h (Nat.not_lt_zero _)
  | succ fuel ih =>
      rw [loop_succ]
      by_cases hhead : s.rest.head? = some stop
      · have hmore : (not <$> atStop stop : Scan ε Bool) s =
            .ok (false, { s with rest := s.rest.tail }) := by
          change Except.bind (atStop stop s) _ = _
          rw [atStop, if_pos hhead]
          rfl
        obtain ⟨rest, hrest⟩ := List.head?_eq_some_iff.mp hhead
        rw [bind_eq_ok]
        constructor
        · rintro ⟨b, s₁, hb, hpure⟩
          rw [hmore] at hb
          cases hb
          cases hpure
          exact ⟨0, s, .zero, by rw [hrest]; rfl, rfl⟩
        · rintro ⟨n, s₁, hrounds, htakes⟩
          cases hrounds with
          | zero =>
              refine ⟨false, _, hmore, ?_⟩
              have hs' : s' = { s with rest := s.rest.tail } := by
                obtain ⟨rest', items'⟩ := s'
                rw [htakes.rest]
                exact congrArg (Cursor.mk rest') htakes.items
              rw [hs']
              rfl
          | succ hround t => exact absurd hhead (hstop hround)
      · have hmore : (not <$> atStop stop : Scan ε Bool) s = .ok (true, s) := by
          change Except.bind (atStop stop s) _ = _
          rw [atStop, if_neg hhead]
          rfl
        rw [bind_eq_ok]
        constructor
        · rintro ⟨b, s₁, hb, hrun⟩
          rw [hmore] at hb
          cases hb
          obtain ⟨st₁, s₁, hround, hloop⟩ := bind_eq_ok.mp hrun
          have hless := hbody st hround
          obtain ⟨n, s₂, hrounds, htakes⟩ := (ih (by omega)).mp hloop
          exact ⟨n + 1, s₂, .succ hround hrounds, htakes⟩
        · rintro ⟨n, s₁, hrounds, htakes⟩
          refine ⟨true, s, hmore, ?_⟩
          change (body st >>= loop e (fun _ => not <$> atStop stop) body fuel (index + 1)) s = _
          cases hrounds with
          | zero => exact absurd (by rw [htakes.rest]; rfl) hhead
          | succ hround t =>
              have hless := hbody st hround
              exact bind_eq_ok.mpr ⟨_, _, hround, (ih (by omega)).mpr ⟨_, _, t, htakes⟩⟩

/-! ### Errors -/

/-- Every error of the scan is one of `P`. -/
def Errs (P : ε → Prop) (p : Scan ε α) : Prop := ∀ ⦃s e⦄, p s = .error e → P e

section
variable {P : ε → Prop}

theorem errs_pure (a : α) : Errs P (pure a : Scan ε α) := fun _ _ h => nomatch h

theorem errs_fail {e : ε} (h : P e) : Errs P (fail e : Scan ε α) := by
  intro s e' h'
  cases h'
  exact h

theorem errs_charge {e : ε} (h : P e) (limit : Nat) : Errs P (charge limit e) := by
  intro s e' h'
  rw [charge] at h'
  split at h'
  · cases h'
    exact h
  · cases h'

theorem errs_byte {e : ε} (h : P e) : Errs P (byte e) := by
  intro s e' h'
  rw [byte] at h'
  split at h'
  · cases h'
    exact h
  · cases h'

theorem errs_take {e : ε} (h : P e) (n : Nat) : Errs P (take e n) := by
  intro s e' h'
  rw [take] at h'
  split at h'
  · cases h'
    exact h
  · cases h'

theorem errs_atStop (stop : UInt8) : Errs P (atStop stop) := by
  intro s e h
  rw [atStop] at h
  split at h
  · cases h
  · cases h

theorem Errs.bind {p : Scan ε α} {k : α → Scan ε β} (hp : Errs P p)
    (hk : ∀ {s a s'}, p s = .ok (a, s') → Errs P (k a)) : Errs P (p >>= k) := by
  intro s e h
  change Except.bind (p s) _ = _ at h
  cases hs : p s with
  | error e' =>
      rw [hs] at h
      cases h
      exact hp hs
  | ok r =>
      rw [hs] at h
      exact hk hs h

theorem Errs.map {p : Scan ε α} (hp : Errs P p) (f : α → β) : Errs P (f <$> p) :=
  hp.bind fun _ => errs_pure _

/-- A loop in which every round takes a byte never runs out of rounds. -/
theorem errs_whileMore {e : ε} {more : Nat → Scan ε Bool} {body : σ → Scan ε σ}
    (hmore : ∀ i, Errs P (more i)) (hshrinks : ∀ i, Shrinks (more i))
    (hbody : ∀ st, Errs P (body st)) (hconsumes : ∀ st, Consumes (body st)) (st : σ) :
    Errs P (whileMore e more body st) := by
  have hloop : ∀ (fuel index : Nat) (st : σ) (s : Cursor) (e' : ε), s.rest.length < fuel →
      loop e more body fuel index st s = .error e' → P e' := by
    intro fuel
    induction fuel with
    | zero => exact fun _ _ _ _ h => absurd h (Nat.not_lt_zero _)
    | succ fuel ih =>
        intro index st s e' hfuel h
        rw [loop_succ] at h
        change Except.bind (more index s) _ = _ at h
        cases hm : more index s with
        | error e =>
            rw [hm] at h
            cases h
            exact hmore index hm
        | ok r =>
            obtain ⟨b, s₁⟩ := r
            rw [hm] at h
            have hs₁ := hshrinks index hm
            cases b with
            | false => cases h
            | true =>
                change Except.bind (body st s₁) _ = _ at h
                cases hb : body st s₁ with
                | error e =>
                    rw [hb] at h
                    cases h
                    exact hbody st hb
                | ok r =>
                    rw [hb] at h
                    have hs₂ := hconsumes st hb
                    exact ih (index + 1) r.1 r.2 e' (by omega) h
  intro s e' h
  exact hloop _ _ _ _ _ (Nat.lt_succ_self _) h

end

/-- What every round keeps, the loop keeps. -/
theorem whileMore_keeps {e : ε} {more : Nat → Scan ε Bool} {body : σ → Scan ε σ} {Q : σ → Prop}
    (hbody : ∀ {st s st' s'}, Q st → body st s = .ok (st', s') → Q st') {st st' : σ}
    {s s' : Cursor} (h : whileMore e more body st s = .ok (st', s')) (hst : Q st) : Q st' := by
  have hloop : ∀ (fuel index : Nat) (st : σ) (s : Cursor),
      loop e more body fuel index st s = .ok (st', s') → Q st → Q st' := by
    intro fuel
    induction fuel with
    | zero => exact fun _ _ _ h => nomatch h
    | succ fuel ih =>
        intro index st s h hst
        rw [loop_succ] at h
        obtain ⟨b, s₁, -, h⟩ := bind_eq_ok.mp h
        cases b with
        | false =>
            cases h
            exact hst
        | true =>
            obtain ⟨st₁, s₂, hround, h⟩ := bind_eq_ok.mp h
            exact ih (index + 1) st₁ s₂ h (hbody hst hround)
  exact hloop _ _ _ _ h hst

/-! ### The same up to the errors -/

def Maps (n : Nat) (f : β → α) (p : Scan ε α) (q : Scan δ β) : Prop :=
  ∀ ⦃s⦄, s.rest.length ≤ n → (p s).toOption = (q s).toOption.map fun r => (f r.1, r.2)

section

variable {n : Nat} {f : β → α} {p : Scan ε α} {q : Scan δ β}

theorem maps_pure (b : β) : Maps n f (pure (f b) : Scan ε α) (pure b : Scan δ β) := fun _ _ => rfl

theorem maps_fail (e : ε) (d : δ) : Maps n f (fail e : Scan ε α) (fail d : Scan δ β) :=
  fun _ _ => rfl

theorem maps_charge (limit : Nat) (e : ε) (d : δ) : Maps n id (charge limit e) (charge limit d) := by
  intro s _
  rw [charge, charge]
  split
  · rfl
  · rfl

theorem maps_byte (e : ε) (d : δ) : Maps n id (byte e) (byte d) := by
  intro s _
  rw [byte, byte]
  split
  · rfl
  · rfl

theorem maps_take (e : ε) (d : δ) (k : Nat) : Maps n id (take e k) (take d k) := by
  intro s _
  rw [take, take]
  split
  · rfl
  · rfl

theorem maps_atStop (stop : UInt8) :
    Maps n id (atStop stop : Scan ε Bool) (atStop stop : Scan δ Bool) := by
  intro s _
  rw [atStop, atStop]
  split
  · rfl
  · rfl

theorem Maps.bind {g : τ → γ} {k : α → Scan ε γ} {l : β → Scan δ τ} (h : Maps n f p q)
    (hq : Shrinks q) (hk : ∀ b, Maps n g (k (f b)) (l b)) : Maps n g (p >>= k) (q >>= l) := by
  intro s hs
  rw [toOption_bind, toOption_bind, h hs]
  cases hr : q s with
  | error d => rfl
  | ok r =>
      obtain ⟨b, s'⟩ := r
      exact hk b (Nat.le_trans (hq hr) hs)

/-- The other's result is put into another form. -/
theorem Maps.map_right {g : τ → α} {l : β → τ} (h : Maps n f p q) (hg : ∀ b, f b = g (l b)) :
    Maps n g p (q >>= fun b => pure (l b)) := by
  intro s hs
  rw [h hs, toOption_bind]
  cases q s with
  | error d => rfl
  | ok r => exact congrArg (fun a => some (a, r.2)) (hg r.1)

theorem Maps.bind_map {g : τ → γ} {k : α → Scan ε γ} {l : β → τ} (h : Maps n f p q)
    (hq : Shrinks q) (hk : ∀ b, k (f b) = pure (g (l b))) : Maps n g (p >>= k) (l <$> q) := by
  change Maps n g (p >>= k) (q >>= fun b => pure (l b))
  refine h.bind hq fun b => ?_
  rw [hk]
  exact maps_pure (l b)

theorem Maps.map (h : Maps n f p q) (hq : Shrinks q) {g : α → γ} {g' : β → τ} {k : τ → γ}
    (hg : ∀ b, g (f b) = k (g' b)) : Maps n k (g <$> p) (g' <$> q) := by
  change Maps n k (p >>= fun a => pure (g a)) (g' <$> q)
  refine h.bind_map hq fun b => ?_
  rw [hg]

theorem Maps.ite {c : Prop} [Decidable c] {p' : Scan ε α} {q' : Scan δ β} (h : Maps n f p q)
    (h' : Maps n f p' q') : Maps n f (if c then p else p') (if c then q else q') := by
  split
  · exact h
  · exact h'

theorem Maps.ok_iff (h : Maps n f p q) {s : Cursor} (hs : s.rest.length ≤ n) {r : α × Cursor} :
    p s = .ok r ↔ ∃ b s', q s = .ok (b, s') ∧ r = (f b, s') := by
  have hp : p s = .ok r ↔ (p s).toOption = some r := by
    cases p s with
    | error e => simp [Except.toOption]
    | ok x => simp [Except.toOption]
  rw [hp, h hs]
  cases hq : q s with
  | error d => simp [Except.toOption]
  | ok x =>
      obtain ⟨b, s'⟩ := x
      constructor
      · intro hr
        exact ⟨b, s', rfl, (Option.some.inj hr).symm⟩
      · rintro ⟨b', s'', hx, rfl⟩
        cases hx
        rfl

theorem maps_loop {e : ε} {d : δ} {more : Nat → Scan ε Bool} {more' : Nat → Scan δ Bool}
    {body : α → Scan ε α} {body' : β → Scan δ β} (hmore : ∀ i, Maps n id (more i) (more' i))
    (hmore' : ∀ i, Shrinks (more' i)) (hbody : ∀ st, Maps n f (body (f st)) (body' st))
    (hbody' : ∀ st, Shrinks (body' st)) (fuel index : Nat) (st : β) :
    Maps n f (loop e more body fuel index (f st)) (loop d more' body' fuel index st) := by
  induction fuel generalizing index st with
  | zero => exact maps_fail e d
  | succ fuel ih =>
      refine (hmore index).bind (hmore' index) fun b => ?_
      refine Maps.ite ?_ (maps_pure st)
      exact (hbody st).bind (hbody' st) fun st => ih (index + 1) st

/-- At the end of the input a loop up to a stop fails, whether it misses the stop or the element. -/
theorem maps_loop_until {e e' : ε} {d : δ} {stop : UInt8} {body : α → Scan ε α}
    {body' : β → Scan δ β} (hbody : ∀ st, Maps n f (body (f st)) (body' st))
    (hbody' : ∀ st, Consumes (body' st)) (fuel index : Nat) (st : β) :
    Maps n f (loop e (fun _ => not <$> takeStop e' stop) body fuel index (f st))
      (loop d (fun _ => not <$> atStop stop) body' fuel index st) := by
  induction fuel generalizing index st with
  | zero => exact maps_fail e d
  | succ fuel ih =>
      intro s hs
      cases hrest : s.rest with
      | nil =>
          -- Nothing is left for the other's next round.
          have hfails : ∀ r, loop d (fun _ => not <$> atStop stop) body' (fuel + 1) index st s ≠
              .ok r := by
            intro r hr
            rw [loop_succ] at hr
            obtain ⟨b, s₁, hmore, hr⟩ := bind_eq_ok.mp hr
            obtain ⟨b', s₂, hstop, hb⟩ := map_eq_ok.mp hmore
            rw [atStop, hrest, if_neg (by simp)] at hstop
            cases hstop
            cases hb
            obtain ⟨st', s₃, hround, -⟩ := bind_eq_ok.mp hr
            have hless := hbody' st hround
            rw [hrest] at hless
            exact Nat.not_lt_zero _ hless
          have hp : loop e (fun _ => not <$> takeStop e' stop) body (fuel + 1) index (f st) s =
              .error e' := by
            rw [loop_succ]
            change Except.bind (Except.bind (takeStop e' stop s) _) _ = _
            rw [takeStop, hrest]
            rfl
          rw [hp]
          cases hq : loop d (fun _ => not <$> atStop stop) body' (fuel + 1) index st s with
          | error d => rfl
          | ok r => exact absurd hq (hfails r)
      | cons b rest =>
          have hsame : takeStop e' stop s = atStop stop s := by rw [takeStop, hrest]
          have hp : loop e (fun _ => not <$> takeStop e' stop) body (fuel + 1) index (f st) s =
              ((not <$> atStop stop : Scan ε Bool) >>= fun b =>
                if b then
                  body (f st) >>= loop e (fun _ => not <$> takeStop e' stop) body fuel (index + 1)
                else pure (f st)) s := by
            rw [loop_succ]
            change Except.bind (Except.bind (takeStop e' stop s) _) _ =
              Except.bind (Except.bind (atStop stop s) _) _
            rw [hsame]
          have hmore : Maps n id (not <$> atStop stop : Scan ε Bool)
              (not <$> atStop stop : Scan δ Bool) :=
            (maps_atStop stop).map (shrinks_atStop stop) fun _ => rfl
          rw [hp, loop_succ]
          refine Maps.bind hmore ((shrinks_atStop stop).map _) (fun b => ?_) hs
          refine Maps.ite ?_ (maps_pure st)
          exact (hbody st).bind (hbody' st).shrinks fun st => ih (index + 1) st

theorem maps_whileMore {e : ε} {d : δ} {more : Nat → Scan ε Bool} {more' : Nat → Scan δ Bool}
    {body : α → Scan ε α} {body' : β → Scan δ β} (hmore : ∀ i, Maps n id (more i) (more' i))
    (hmore' : ∀ i, Shrinks (more' i)) (hbody : ∀ st, Maps n f (body (f st)) (body' st))
    (hbody' : ∀ st, Shrinks (body' st)) (st : β) :
    Maps n f (whileMore e more body (f st)) (whileMore d more' body' st) :=
  fun _ hs => maps_loop hmore hmore' hbody hbody' _ _ _ hs

theorem maps_whileMore_until {e e' : ε} {d : δ} {stop : UInt8} {body : α → Scan ε α}
    {body' : β → Scan δ β} (hbody : ∀ st, Maps n f (body (f st)) (body' st))
    (hbody' : ∀ st, Consumes (body' st)) (st : β) :
    Maps n f (whileMore e (fun _ => not <$> takeStop e' stop) body (f st))
      (whileMore d (fun _ => not <$> atStop stop) body' st) :=
  fun _ hs => maps_loop_until hbody hbody' _ _ _ hs

end

/-! ### Checks as one goes, and at the end -/

def Checked (P : β → Prop) (f : β → α) (p : Scan ε α) (q : Scan ε β) : Prop :=
  ∀ ⦃s a s'⦄, p s = .ok (a, s') ↔ ∃ b, q s = .ok (b, s') ∧ P b ∧ a = f b

/-- What passes the check after a step has passed it before. -/
def Keeps (P : β → Prop) (Q : τ → Prop) (k : β → Scan ε τ) : Prop :=
  ∀ ⦃b s c s'⦄, k b s = .ok (c, s') → Q c → P b

theorem Checked.bind {P : β → Prop} {Q : τ → Prop} {f : β → α} {g : τ → γ} {p : Scan ε α}
    {q : Scan ε β} {k : α → Scan ε γ} {l : β → Scan ε τ} (h : Checked P f p q)
    (hk : ∀ b, P b → Checked Q g (k (f b)) (l b)) (hl : Keeps P Q l) :
    Checked Q g (p >>= k) (q >>= l) := by
  intro s a s'
  rw [bind_eq_ok]
  constructor
  · rintro ⟨x, s₁, hp, hkx⟩
    obtain ⟨b, hq, hb, rfl⟩ := h.mp hp
    obtain ⟨c, hl', hc, ha⟩ := (hk b hb).mp hkx
    exact ⟨c, bind_eq_ok.mpr ⟨b, s₁, hq, hl'⟩, hc, ha⟩
  · rintro ⟨c, hc, hQ, rfl⟩
    obtain ⟨b, s₁, hq, hl'⟩ := bind_eq_ok.mp hc
    have hb := hl hl' hQ
    exact ⟨f b, s₁, h.mpr ⟨b, hq, hb, rfl⟩, (hk b hb).mpr ⟨c, hl', hQ, rfl⟩⟩

theorem checked_pure {P : β → Prop} {f : β → α} {b : β} (h : P b) :
    Checked P f (pure (f b) : Scan ε α) (pure b) := by
  intro s a s'
  constructor
  · intro ha
    cases ha
    exact ⟨b, rfl, h, rfl⟩
  · rintro ⟨b', hb, -, rfl⟩
    cases hb
    rfl

/-- The same scanner on both sides, of which any result passes. -/
theorem checked_refl {P : α → Prop} (p : Scan ε α) (h : ∀ a, P a) : Checked P id p p := by
  intro s a s'
  constructor
  · exact fun hp => ⟨a, hp, h a, rfl⟩
  · rintro ⟨b, hp, -, rfl⟩
    exact hp

theorem checked_fail {P : β → Prop} {f : β → α} (e : ε) :
    Checked P f (fail e : Scan ε α) (fail e) := by
  intro s a s'
  constructor
  · intro h
    cases h
  · rintro ⟨b, h, -⟩
    cases h

section

variable {P : τ → Prop} {f : τ → σ} {body' : τ → Scan ε τ}

theorem keeps_loop (hkeeps : Keeps P P body') (fuel index : Nat) :
    Keeps P P (loop e more body' fuel index) := by
  induction fuel generalizing index with
  | zero => exact fun _ _ _ _ h => nomatch h
  | succ fuel ih =>
      intro st s st' s' h hP
      rw [loop_succ] at h
      obtain ⟨b, s₁, -, h⟩ := bind_eq_ok.mp h
      cases b with
      | false =>
          cases h
          exact hP
      | true =>
          obtain ⟨st₁, s₂, hb, h⟩ := bind_eq_ok.mp h
          exact hkeeps hb (ih (index + 1) h hP)

theorem loop_checked (hbody : ∀ st, P st → Checked P f (body (f st)) (body' st))
    (hkeeps : Keeps P P body') (fuel index : Nat) {st : τ} (h : P st) :
    Checked P f (loop e more body fuel index (f st)) (loop e more body' fuel index st) := by
  induction fuel generalizing index st with
  | zero => exact checked_fail e
  | succ fuel ih =>
      have hmore : Checked (fun _ => True) id (more index) (more index) :=
        checked_refl (more index) fun _ => trivial
      refine hmore.bind (fun b _ => ?_) fun _ _ _ _ _ _ => trivial
      cases b with
      | false => exact checked_pure h
      | true =>
          refine (hbody st h).bind (fun st' h' => ih (index + 1) h') ?_
          exact keeps_loop hkeeps fuel (index + 1)

theorem whileMore_checked (hbody : ∀ st, P st → Checked P f (body (f st)) (body' st))
    (hkeeps : Keeps P P body') {st : τ} (h : P st) :
    Checked P f (whileMore e more body (f st)) (whileMore e more body' st) := by
  intro s a s'
  have hloop : Checked P f (loop e more body (s.rest.length + 1) 0 (f st))
      (loop e more body' (s.rest.length + 1) 0 st) := loop_checked hbody hkeeps _ _ h
  exact @hloop s a s'

end

end

end Scans
