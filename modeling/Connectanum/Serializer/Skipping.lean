import Connectanum.Lib.Delimited

/-!
# Serializer — Skipping

What the client's skippers of MessagePack and CBOR values have in common: what they give, the limit
of nesting, the loop over a known number of values, and the ranges of a frame.

* `Skips`: a skipper gives the ends of the values of a format, as far as they are accepted;
* `skipTimes_iff`: the loop over values;
* `Partition`: ranges that follow each other, with one value in each.
-/

namespace Connectanum

open Delimited

/-- What a skipper gives: an end, `null`, or the message of the `FormatException` that it throws. -/
abbrev Skipped := Except String (Option Nat)

/-- The next statement, unless the end is `null`. -/
def Skipped.andThen (r : Skipped) (next : Nat → Skipped) : Skipped :=
  match r with
  | .ok (some stop) => next stop
  | .ok none => .ok none
  | .error e => .error e

theorem Skipped.andThen_eq_some {r : Skipped} {next : Nat → Skipped} {stop : Nat} :
    r.andThen next = .ok (some stop) ↔ ∃ middle, r = .ok (some middle) ∧
      next middle = .ok (some stop) := by
  constructor
  · intro h
    match r, h with
    | .ok (some middle), h => exact ⟨middle, rfl, h⟩
    | .ok none, h => cases Except.ok.inj h
    | .error e, h => cases h
  · rintro ⟨middle, rfl, h⟩
    exact h

theorem Skipped.andThen_assoc (r : Skipped) (f g : Nat → Skipped) :
    (r.andThen f).andThen g = r.andThen fun offset => (f offset).andThen g := by
  match r with
  | .ok (some _) => rfl
  | .ok none => rfl
  | .error _ => rfl

/-- A check that only refuses what is not there. -/
theorem unchecked_iff {p : Prop} [Decidable p] {r : Skipped} {e : String} {stop : Nat} {q : Prop}
    (h : r = .ok (some stop) ↔ q) (hp : p → ¬q) :
    (if p then .error e else r) = .ok (some stop) ↔ q := by
  by_cases hc : p
  · rw [if_pos hc]
    exact ⟨fun he => (nomatch he), fun hq => absurd hq (hp hc)⟩
  · rw [if_neg hc, h]

theorem forall_byte {p : UInt8 → Prop} (h : ∀ n : Fin 256, p (UInt8.ofFin n)) (byte : UInt8) :
    p byte := h byte.toFin

/-! ### Limits -/

def serializerMaxPayloadNestingDepth : Nat := 64

def serializerMaxWampMessageFields : Nat := 7

def enterSerializerContainer (parentDepth : Int) : Except String Int :=
  if parentDepth ≥ serializerMaxPayloadNestingDepth then
    .error "Serialized payload exceeds the maximum nesting depth"
  else .ok (parentDepth + 1)

def validateWampMessageFieldCount (fieldCount : Nat) : Except String Unit :=
  if fieldCount > serializerMaxWampMessageFields then
    .error "WAMP message contains too many fields"
  else .ok ()

/-- A value that is nested `d` deep may stand in a container of this depth. -/
def Within (parentDepth : Int) (d : Nat) : Prop :=
  d = 0 ∨ parentDepth + d ≤ serializerMaxPayloadNestingDepth

theorem within_max (parentDepth : Int) (a b : Nat) :
    Within parentDepth (max a b) ↔ Within parentDepth a ∧ Within parentDepth b := by
  rw [Within, Within, Within]
  omega

/-- A container is entered if and only if its values may be nested one less. -/
theorem enterSerializerContainer_iff (parentDepth : Int) (d : Nat) :
    Within parentDepth (d + 1) ↔
      ∃ depth, enterSerializerContainer parentDepth = .ok depth ∧ Within depth d := by
  rw [enterSerializerContainer]
  constructor
  · rintro (h | h)
    · cases h
    · refine ⟨parentDepth + 1, if_neg (by omega), .inr ?_⟩
      omega
  · rintro ⟨depth, h, hd⟩
    split at h
    · cases h
    · obtain rfl := Except.ok.inj h
      rw [Within] at hd ⊢
      omega

/-- What is done in a container, one level deeper. -/
theorem enter_iff {α : Type} {inside : α → Prop} {depth : α → Nat} {parentDepth : Int}
    {body : Int → Skipped} {stop : Nat}
    (hbody : ∀ d, body d = .ok (some stop) ↔ ∃ a, inside a ∧ Within d (depth a)) :
    (match enterSerializerContainer parentDepth with
      | .error e => Except.error e
      | .ok d => body d) = .ok (some stop) ↔
      ∃ a, inside a ∧ Within parentDepth (depth a + 1) := by
  simp only [enterSerializerContainer_iff]
  cases enterSerializerContainer parentDepth with
  | error e =>
      constructor
      · intro h
        cases h
      · rintro ⟨a, -, d, he, -⟩
        cases he
  | ok d =>
      dsimp only
      rw [hbody d]
      constructor
      · rintro ⟨a, ha, hd⟩
        exact ⟨a, ha, d, rfl, hd⟩
      · rintro ⟨a, ha, _, he, hd⟩
        obtain rfl := Except.ok.inj he
        exact ⟨a, ha, hd⟩

/-! ### Skippers and values -/

universe u v

section
variable {F : Type u} {ω : Type v} {g : Grammar F ω} {bytes : List UInt8} {ok : ω → Prop}

/-- What is accepted: of a row, whatever accepts all of its values. -/
structure Budget (g : Grammar F ω) (ok : ω → Prop) : Prop where
  unit : ok g.unit
  join : ∀ f lead a b, ok (g.join f lead a b) ↔ ok a ∧ ok b

variable (g bytes ok) in
/-- The skipper gives an end, if and only if a value ends there that is accepted. -/
def Skips (skip : Nat → Skipped) (fuel : Nat) : Prop :=
  ∀ offset, offset ≤ bytes.length → bytes.length - offset ≤ fuel → ∀ stop,
    skip offset = .ok (some stop) ↔ ∃ a, ValueAt g bytes offset stop a ∧ ok a

/-- Where no byte is left there is no value. -/
theorem not_valueAt_end {offset stop : Nat} {a : ω} (ho : bytes.length ≤ offset) :
    ¬ValueAt g bytes offset stop a := by
  intro hv
  have hbounds := hv.bounds
  omega

/-- The loop over the values of a container. -/
def skipTimes (skip : Nat → Skipped) : (length current : Nat) → Skipped
  | 0, current => .ok (some current)
  | n + 1, current => (skip current).andThen (skipTimes skip n)

/-- A key and its value. -/
def skipPair (skip : Nat → Skipped) (current : Nat) : Skipped :=
  (skip current).andThen skip

theorem skipTimes_iff {items : Nat → F} (hc : Counted g items) (hok : Budget g ok)
    {skip : Nat → Skipped} {fuel : Nat} (hskip : Skips g bytes ok skip fuel) (n : Nat)
    {offset : Nat} (ho : offset ≤ bytes.length) (hf : bytes.length - offset ≤ fuel) (stop : Nat) :
    skipTimes skip n offset = .ok (some stop) ↔
      ∃ a, RowAt g bytes (items n) offset stop a ∧ ok a := by
  induction n generalizing offset with
  | zero =>
      rw [skipTimes]
      constructor
      · intro h
        obtain rfl := Option.some.inj (Except.ok.inj h)
        exact ⟨g.unit, hc.zero_iff.mpr ⟨rfl, rfl⟩, hok.unit⟩
      · rintro ⟨a, h, -⟩
        rw [(hc.zero_iff.mp h).1]
  | succ n ih =>
      rw [skipTimes, Skipped.andThen_eq_some]
      constructor
      · rintro ⟨middle, hfirst, hothers⟩
        obtain ⟨a, hv, ha⟩ := (hskip offset ho hf middle).mp hfirst
        obtain ⟨lead, w, hlead, -⟩ := hv.lead
        have hbounds := hv.bounds
        obtain ⟨b, hi, hb⟩ := (ih hbounds.2 (by omega)).mp hothers
        exact ⟨_, hc.succ_iff.mpr ⟨lead, middle, a, b, hlead, hv, hi, rfl⟩,
          (hok.join _ lead a b).mpr ⟨ha, hb⟩⟩
      · rintro ⟨c, h, hok'⟩
        obtain ⟨lead, middle, a, b, -, hv, hi, rfl⟩ := hc.succ_iff.mp h
        obtain ⟨ha, hb⟩ := (hok.join _ lead a b).mp hok'
        have hbounds := hv.bounds
        exact ⟨middle, (hskip offset ho hf middle).mpr ⟨a, hv, ha⟩,
          (ih hbounds.2 (by omega)).mpr ⟨b, hi, hb⟩⟩

/-- Pairs are twice as many values. -/
theorem skipTimes_skipPair (skip : Nat → Skipped) (n offset : Nat) :
    skipTimes (skipPair skip) n offset = skipTimes skip (2 * n) offset := by
  induction n generalizing offset with
  | zero => rfl
  | succ n ih =>
      have hothers : skipTimes (skipPair skip) n = skipTimes skip (2 * n) := funext ih
      rw [skipTimes, skipPair, Skipped.andThen_assoc, hothers]
      rfl

/-! ### Ranges -/

variable (g bytes) in
/-- The ranges follow each other from `start` to `stop`, each of them one value. -/
inductive Partition : Nat → List (Nat × Nat) → Nat → Prop where
  | nil (stop : Nat) : Partition stop [] stop
  | cons {start next stop : Nat} {a : ω} {ranges : List (Nat × Nat)}
      (h : ValueAt g bytes start next a) (t : Partition next ranges stop) :
      Partition start ((start, next) :: ranges) stop

/-- The bytes of a range. -/
def slice (bytes : List UInt8) (range : Nat × Nat) : List UInt8 :=
  (bytes.drop range.1).take (range.2 - range.1)

/-- Side by side, the ranges are all the bytes. -/
theorem Partition.flatten {start : Nat} {ranges : List (Nat × Nat)} {stop : Nat}
    (h : Partition g bytes start ranges stop) :
    (ranges.map (slice bytes)).flatten ++ bytes.drop stop = bytes.drop start := by
  induction h with
  | nil stop => rfl
  | @cons start next stop a ranges hv _ ih =>
      obtain ⟨xs, rest, hdrop, rfl, -⟩ := hv
      rw [List.map_cons, List.flatten_cons, List.append_assoc, ih, slice, Nat.add_sub_cancel_left,
        ← List.drop_drop, List.take_append_drop]

variable (g bytes) in
/-- **One value** ends at `stop`, inside the input, and nothing else that begins here is one. -/
structure EndsOneValue (offset stop : Nat) : Prop where
  inside : offset < stop ∧ stop ≤ bytes.length
  value : ∃ a, ValueAt g bytes offset stop a ∧
    ∀ stop' b, ValueAt g bytes offset stop' b → stop' = stop ∧ b = a

theorem EndsOneValue.of_valueAt (hg : g.Separated) {offset stop : Nat} {a : ω}
    (hv : ValueAt g bytes offset stop a) : EndsOneValue g bytes offset stop :=
  ⟨hv.bounds, a, hv, fun _ _ hv' => hv'.unique hg hv⟩

end

end Connectanum
