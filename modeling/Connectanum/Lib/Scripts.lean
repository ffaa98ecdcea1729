import Mathlib.Data.List.Basic

/-!
# Lib — Scripts

An asynchronous handler as a tree: it sends messages and stops at queries, going on with the
answer.  Queries that can be answered on the spot are passed over, so that a handler runs in
segments, from one awaited answer to the next.

* `Script`, with the messages `sent`, the queries `met` and the `remainder` of one segment;
* `Script.runIn`: a script run in a world that answers its queries;
* `Script.Sends`: a bound on the messages of every path, and `Script.Sends.runIn` for a run;
* `Monitor.Obeys`: a ghost state that every path of a script keeps to, an answer counting only
  where the monitor admits it;
* `Monitor.Obeys.segment`: a segment moves the ghost state by the messages it sends.
-/

namespace Machine

universe u v w

/-- A handler that sends messages `μ` and asks queries `ρ`, each with its type of answers. -/
inductive Script (μ : Type u) (ρ : Type v) (α : ρ → Type w) : Type (max u v w) where
  | done : Script μ ρ α
  | send (message : μ) (rest : Script μ ρ α) : Script μ ρ α
  | ask (query : ρ) (next : α query → Script μ ρ α) : Script μ ρ α

namespace Script

variable {μ : Type u} {ρ : Type v} {α : ρ → Type w}

/-- Sends the messages in order, and goes on. -/
def sendAll : List μ → Script μ ρ α → Script μ ρ α
  | [], rest => rest
  | m :: ms, rest => .send m (sendAll ms rest)

section

variable (now : (q : ρ) → Option (α q))

/-- What is sent before the first query that `now` does not answer. -/
def sent : Script μ ρ α → List μ
  | .done => []
  | .send m rest => m :: rest.sent
  | .ask q next =>
      match now q with
      | none => []
      | some a => (next a).sent

/-- The queries that are answered on the way. -/
def met : Script μ ρ α → List ρ
  | .done => []
  | .send _ rest => rest.met
  | .ask q next =>
      match now q with
      | none => []
      | some a => q :: (next a).met

/-- Where the segment ends: `done`, or a query that waits for its answer. -/
def remainder : Script μ ρ α → Script μ ρ α
  | .done => .done
  | .send _ rest => rest.remainder
  | .ask q next =>
      match now q with
      | none => .ask q next
      | some a => (next a).remainder

end

section

variable {σ : Type*} (world : (q : ρ) → σ → Option (α q × σ))

/-- The script runs in a world that answers its queries and may change with each of them.  It
stops for good at a query that the world does not answer. -/
def runIn : Script μ ρ α → σ → List μ × σ
  | .done, s => ([], s)
  | .send m rest, s => (m :: (rest.runIn s).1, (rest.runIn s).2)
  | .ask q next, s =>
      match world q s with
      | none => ([], s)
      | some (a, s') => (next a).runIn s'

@[simp] theorem runIn_done (s : σ) : (done : Script μ ρ α).runIn world s = ([], s) := rfl

@[simp] theorem runIn_send (m : μ) (rest : Script μ ρ α) (s : σ) :
    (send m rest).runIn world s = (m :: (rest.runIn world s).1, (rest.runIn world s).2) := rfl

theorem runIn_ask {q : ρ} {next : α q → Script μ ρ α} {s s' : σ} {a : α q}
    (h : world q s = some (a, s')) :
    (ask q next).runIn world s = (next a).runIn world s' := by
  rw [runIn, h]

end

/-- No path of the script sends more than `n` messages. -/
def Sends : Nat → Script μ ρ α → Prop
  | _, .done => True
  | 0, .send _ _ => False
  | n + 1, .send _ rest => rest.Sends n
  | n, .ask _ next => ∀ a, (next a).Sends n

/-- Every path of the script sends one message of `P` at most, and nothing comes after it. -/
def Ends (P : μ → Prop) : Script μ ρ α → Prop
  | .done => True
  | .send m .done => P m
  | .send _ _ => False
  | .ask _ next => ∀ a, (next a).Ends P

theorem Ends.sends {P : μ → Prop} {script : Script μ ρ α} (h : script.Ends P) : script.Sends 1 := by
  induction script with
  | done => trivial
  | send m rest ih =>
      cases rest with
      | done => trivial
      | send m' rest => exact h.elim
      | ask q next => exact h.elim
  | ask q next ih => exact fun a => ih a (h a)

theorem Sends.runIn {σ : Type*} {world : (q : ρ) → σ → Option (α q × σ)} {n : Nat}
    {script : Script μ ρ α} (h : script.Sends n) (s : σ) :
    (script.runIn world s).1.length ≤ n := by
  induction script generalizing n s with
  | done => exact Nat.zero_le n
  | send m rest ih =>
      cases n with
      | zero => exact h.elim
      | succ n => exact Nat.succ_le_succ (ih h s)
  | ask q next ih =>
      have hnext : ∀ a, (next a).Sends n := by
        cases n with
        | zero => exact h
        | succ n => exact h
      rw [Script.runIn]
      split
      · exact Nat.zero_le n
      · next a s' _ => exact ih a (hnext a) s'

end Script

/-- A ghost state that follows a script: `send` moves it along a message or refuses the message,
`answer` moves it along an admitted answer. -/
structure Monitor (μ : Type u) (ρ : Type v) (α : ρ → Type w) (τ : Type*) where
  send : τ → μ → Option τ
  admits : τ → (q : ρ) → α q → Prop
  answer : τ → (q : ρ) → α q → τ
  final : τ → Prop

namespace Monitor

variable {μ : Type u} {ρ : Type v} {α : ρ → Type w} {τ : Type*} (m : Monitor μ ρ α τ)

/-- The ghost states that the script can start in. -/
def Obeys : τ → Script μ ρ α → Prop
  | t, .done => m.final t
  | t, .send msg rest => ∃ t', m.send t msg = some t' ∧ Obeys t' rest
  | t, .ask q next => ∀ a, m.admits t q a → Obeys (m.answer t q a) (next a)

/-- Where a list of messages moves the ghost state. -/
def passes (t : τ) : List μ → Option τ
  | [] => some t
  | msg :: rest => (m.send t msg).bind fun t' => passes t' rest

variable {m}

theorem Obeys.sendAll {t t' : τ} {msgs : List μ} {rest : Script μ ρ α}
    (hp : m.passes t msgs = some t') (h : m.Obeys t' rest) :
    m.Obeys t (Script.sendAll msgs rest) := by
  induction msgs generalizing t with
  | nil =>
      obtain rfl := Option.some.inj hp
      exact h
  | cons x xs ih =>
      obtain ⟨u, hu, hrest⟩ := Option.bind_eq_some_iff.mp hp
      exact ⟨u, hu, ih hrest⟩

/-- **The segment rule**: where the answers given on the way are admitted and move nothing, the
messages of a segment carry the ghost state to where the script goes on from. -/
theorem Obeys.segment {t : τ} {s : Script μ ρ α} (h : m.Obeys t s)
    (now : (q : ρ) → Option (α q)) (hnow : ∀ q ∈ s.met now, ∀ a, now q = some a →
      ∀ t, m.admits t q a ∧ m.answer t q a = t) :
    ∃ t', m.passes t (s.sent now) = some t' ∧ m.Obeys t' (s.remainder now) := by
  induction s generalizing t with
  | done => exact ⟨t, rfl, h⟩
  | send msg rest ih =>
      obtain ⟨t₁, ht, hrest⟩ := h
      obtain ⟨t₂, hp, hr⟩ := ih hrest hnow
      refine ⟨t₂, ?_, hr⟩
      rw [Script.sent, passes, ht]
      exact hp
  | ask q next ih =>
      simp only [Script.sent, Script.remainder, Script.met] at hnow ⊢
      cases hq : now q with
      | none => exact ⟨t, rfl, h⟩
      | some a =>
          simp only [hq] at hnow ⊢
          obtain ⟨hadm, hans⟩ := hnow q (List.mem_cons_self ..) a hq t
          have hnext := h a hadm
          rw [hans] at hnext
          exact ih a hnext fun q' hq' => hnow q' (List.mem_cons_of_mem _ hq')

end Monitor

end Machine
