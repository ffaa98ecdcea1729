import Connectanum.Client.Negotiate
import Connectanum.Lib.Runs

/-!
# Client — Meeting

A client and the listener in their handshake, over two channels that keep the order of the bytes.

* `Party`: what the handshake needs of a client, native or Dart;
* `Net`: the two sides with the bytes under way, and the moves of a run;
* `Stage`: where any client is, by the bytes it has read, and `Simulates`: that a party is there;
* `Phase`: the states of a run.

Time is left out but for the timeouts: one comes only when nothing else can happen any more.
-/

namespace Connectanum

namespace RawSocket

open Wamp (Bytes Serializer)
open Machine

/-- How the handshake stands for one side: the longest message, and the length of a header. -/
inductive Result where
  | waiting
  | opened (maxLength headerLength : Nat)
  | failed
  deriving DecidableEq

/-- The result of an exponent. -/
def Result.ofExponent (exponent : Nat) : Result :=
  .opened (2 ^ exponent) (if exponent > 24 then 5 else 4)

structure Party (κ : Type) where
  /-- A chunk arrives; with what is written in answer. -/
  receive : κ → Bytes → κ × Bytes
  /-- The time for the handshake passes. -/
  timeout : κ → Option κ
  result : κ → Result

/-- The two sides, the bytes under way, and those that the application has still to send. -/
structure Net (κ : Type) where
  listener : Listener
  client : κ
  toListener : Bytes
  toClient : Bytes
  app : Bytes

inductive Move where
  | listenerReads
  | clientReads (n : Nat)
  | clientSends (n : Nat)
  | listenerTimeout
  | clientTimeout

namespace Net

variable {κ : Type}

/-- No byte is under way to a side that reads, and none will be sent. -/
def Quiet (party : Party κ) (s : Net κ) : Prop :=
  (s.toListener = [] ∨ s.listener = .failed) ∧
    (s.toClient = [] ∨ party.result s.client = .failed) ∧
    (s.app = [] ∨ ∀ m h, party.result s.client ≠ .opened m h)

def Enabled (party : Party κ) (s : Net κ) : Move → Prop
  | .listenerReads => s.toListener ≠ [] ∧ s.listener ≠ .failed
  | .clientReads n => 0 < n ∧ n ≤ s.toClient.length ∧ party.result s.client ≠ .failed
  | .clientSends n => 0 < n ∧ n ≤ s.app.length ∧ ∃ m h, party.result s.client = .opened m h
  | .listenerTimeout => s.listener.waits = true ∧ s.Quiet party
  | .clientTimeout => (party.timeout s.client).isSome = true ∧ s.Quiet party

def step (party : Party κ) (limit : Nat) (s : Net κ) : Move → Net κ
  | .listenerReads =>
      match s.toListener with
      | [] => s
      | byte :: rest =>
          let (listener, answer) := s.listener.read limit byte
          { s with listener, toListener := rest, toClient := s.toClient ++ answer }
  | .clientReads n =>
      let (client, answer) := party.receive s.client (s.toClient.take n)
      { s with client, toClient := s.toClient.drop n, toListener := s.toListener ++ answer }
  | .clientSends n =>
      { s with toListener := s.toListener ++ s.app.take n, app := s.app.drop n }
  | .listenerTimeout => { s with listener := s.listener.timeout }
  | .clientTimeout => { s with client := (party.timeout s.client).getD s.client }

/-- Both sides are done with the same length, within the limits of both, and the listener has got
all that the application sent; or both have failed. -/
def Agrees (party : Party κ) (own limit : Nat) (app : Bytes) (s : Net κ) : Prop :=
  (∃ exponent, s.listener = .opened exponent app ∧
      party.result s.client = .ofExponent exponent ∧ exponent ≤ own ∧ exponent ≤ limit) ∨
    s.listener = .failed ∧ party.result s.client = .failed

/-- Every run comes to its end, and there the two sides agree. -/
def Meet (party : Party κ) (own limit : Nat) (start : κ) (hello app : Bytes) : Prop :=
  ∃ bound, ∀ moves s,
    Run (step party limit) (Enabled party) ⟨.hello [], start, hello, [], app⟩ moves s →
      moves.length ≤ bound ∧ ((∀ m, ¬ s.Enabled party m) → s.Agrees party own limit app)

end Net

/-! ### Clients -/

/-- Where a client is: how much of the response or of the answer to its upgrade it has read. -/
inductive Stage where
  | response (got : Bytes)
  | upgrade (got : Bytes)
  | opened (exponent : Nat) (received : Bytes)
  | failed

def Stage.result : Stage → Result
  | .response _ | .upgrade _ => .waiting
  | .opened exponent _ => .ofExponent exponent
  | .failed => .failed

/-- What a client asks for: the exponent of its longest message and its serializer; the byte of its
upgrade; and the exponent it takes when the listener has named one. -/
structure Asks where
  own : Nat
  serializer : Serializer
  upgrade : UInt8
  cap : Nat → Nat
  cap_of_le : ∀ {n}, n ≤ own → cap n = n
  upgrade_eq : 24 < own → min 30 (upgrade.toNat % 16 + 25) = min 30 own

namespace Asks

/-- The exponent in its first bytes. -/
def clientExponent (a : Asks) : Nat := min 15 (a.own - 9) + 9

def hello (a : Asks) : Bytes :=
  [metaHeader, UInt8.ofNat (min 15 (a.own - 9) * 16 + serializerToWireId a.serializer), 0, 0]

/-- A response with the exponent. -/
def response (a : Asks) (exponent : Nat) : Bytes :=
  [metaHeader, UInt8.ofNat ((exponent - 9) * 16 + serializerToWireId a.serializer), 0, 0]

/-- The exponent of the response. -/
def answered (a : Asks) (limit : Nat) : Nat := min a.clientExponent (min limit 24)

/-- The listener looks for an upgrade. -/
def Probes (a : Asks) (limit : Nat) : Prop := 24 ≤ a.own ∧ 24 < limit

/-- The client sends one. -/
def Upgrades (a : Asks) (limit : Nat) : Prop := 24 < a.own ∧ 24 ≤ limit

/-- The exponent that an upgrade leads to. -/
def widened (a : Asks) (limit : Nat) : Nat := min (min limit a.own) 30

instance (a : Asks) (limit : Nat) : Decidable (a.Probes limit) :=
  inferInstanceAs (Decidable (_ ∧ _))

instance (a : Asks) (limit : Nat) : Decidable (a.Upgrades limit) :=
  inferInstanceAs (Decidable (_ ∧ _))

end Asks

/-- A party goes from stage to stage with the bytes of a listener. -/
structure Simulates {κ : Type} (party : Party κ) (a : Asks) (at' : κ → Stage → Prop) : Prop where
  result : ∀ {k st}, at' k st → party.result k = st.result
  timeout : ∀ {k k' st}, at' k st → party.timeout k = some k' →
    at' k' .failed ∧ st.result = .waiting
  /-- A part of the response, or of an error. -/
  partly : ∀ {k got chunk}, at' k (.response got) → (got ++ chunk).length < 4 →
    (got ++ chunk).head? = some metaHeader →
    at' (party.receive k chunk).1 (.response (got ++ chunk)) ∧ (party.receive k chunk).2 = []
  /-- The response, and a client that wants more than it can name there. -/
  more : ∀ {k got chunk}, at' k (.response got) → chunk ≠ [] → got ++ chunk = a.response 24 →
    24 < a.own →
    at' (party.receive k chunk).1 (.upgrade []) ∧
      (party.receive k chunk).2 = [upgradeHeader, a.upgrade]
  /-- The response, and a client that has what it wants. -/
  content : ∀ {k got chunk exponent}, at' k (.response got) → chunk ≠ [] →
    got ++ chunk = a.response exponent → 9 ≤ exponent → exponent ≤ 24 → ¬ (24 < a.own ∧ exponent = 24) →
    at' (party.receive k chunk).1 (.opened (a.cap exponent) []) ∧ (party.receive k chunk).2 = []
  refused : ∀ {k got chunk}, at' k (.response got) → chunk ≠ [] →
    got ++ chunk = getError errorMessageLengthExceeded →
    at' (party.receive k chunk).1 .failed ∧ (party.receive k chunk).2 = []
  upgradePartly : ∀ {k chunk}, at' k (.upgrade []) → chunk = [upgradeHeader] →
    at' (party.receive k chunk).1 (.upgrade chunk) ∧ (party.receive k chunk).2 = []
  upgraded : ∀ {k got chunk exponent}, at' k (.upgrade got) → chunk ≠ [] →
    got ++ chunk = [upgradeHeader, UInt8.ofNat (exponent - 25)] → 25 ≤ exponent → exponent ≤ 30 →
    at' (party.receive k chunk).1 (.opened (a.cap exponent) []) ∧ (party.receive k chunk).2 = []
  /-- Fewer bytes than a header change nothing. -/
  session : ∀ {k exponent got chunk}, at' k (.opened exponent got) → (got ++ chunk).length < 4 →
    at' (party.receive k chunk).1 (.opened exponent (got ++ chunk)) ∧
      (party.receive k chunk).2 = []

/-! ### The listener -/

section

variable (a : Asks) {limit : Nat}

theorem options_toNat {n id : Nat} (hn : n ≤ 15) (hid : id < 16) :
    (UInt8.ofNat (n * 16 + id)).toNat % 16 = id ∧ (UInt8.ofNat (n * 16 + id)).toNat / 16 = n := by
  rw [UInt8.toNat_ofNat']
  omega

theorem Listener.read_hello {got : Bytes} (h : got.length ≠ 3) (byte : UInt8) :
    Listener.read limit (.hello got) byte = (.hello (got ++ [byte]), []) := by
  rw [Listener.read]
  rintro magic options reserved rfl
  exact h rfl

/-- The listener and what it writes, once it has read what the client asks for. -/
def Asks.greeted (limit : Nat) : Listener × Bytes :=
  if limit < 9 then (.failed, getError errorMessageLengthExceeded)
  else
    (if a.Probes limit then .probe (a.answered limit) [] else .opened (a.answered limit) [],
      a.response (a.answered limit))

theorem Listener.greet_hello :
    Listener.greet limit metaHeader
        (UInt8.ofNat (min 15 (a.own - 9) * 16 + serializerToWireId a.serializer)) 0 0 =
      a.greeted limit := by
  obtain ⟨hid, hexponent⟩ := options_toNat (Nat.min_le_left 15 (a.own - 9))
    (serializerToWireId_pos_lt a.serializer).2
  rw [Listener.greet, if_neg (by simp), if_neg (by simp), hid, hexponent,
    serializerFromWireId_toWireId]
  dsimp only
  have hanswered : min (min 15 (a.own - 9) + 9)
      (min (min limit connectanumMaxRawsocketSizeExponent) 24) = a.answered limit := by
    rw [Asks.answered, Asks.clientExponent, connectanumMaxRawsocketSizeExponent]
    omega
  rw [hanswered, Asks.greeted]
  have hlow : a.answered limit < minRawsocketSizeExponent ↔ limit < 9 := by
    rw [Asks.answered, Asks.clientExponent, minRawsocketSizeExponent]
    omega
  by_cases h : limit < 9
  · rw [if_pos (hlow.mpr h), if_pos h, sendError]
  · rw [if_neg (fun h' => h (hlow.mp h')), if_neg h]
    have hprobes : (min limit connectanumMaxRawsocketSizeExponent > a.answered limit ∧
        min 15 (a.own - 9) + 9 ≥ 24) ↔ a.Probes limit := by
      rw [Asks.answered, Asks.clientExponent, Asks.Probes, connectanumMaxRawsocketSizeExponent]
      omega
    have hbyte : min (a.answered limit - 9) 15 = a.answered limit - 9 := by
      rw [Asks.answered]
      omega
    simp only [hprobes, hbyte, Asks.response]

/-- The listener takes the upgrade of a client that the limit leaves room for. -/
theorem Listener.upgrade_widened (hup : 24 < a.own) (hlimit : 24 < limit) (exponent : Nat) :
    Listener.upgrade limit exponent upgradeHeader a.upgrade =
      (.opened (a.widened limit) [],
        [upgradeHeader, UInt8.ofNat (a.widened limit - 25)]) := by
  rw [Listener.upgrade, if_pos rfl]
  dsimp only
  have hwide : min (min (min limit connectanumMaxRawsocketSizeExponent)
      (a.upgrade.toNat % 16 + 25)) connectanumMaxRawsocketSizeExponent = a.widened limit := by
    have := a.upgrade_eq hup
    rw [Asks.widened, connectanumMaxRawsocketSizeExponent]
    omega
  have hbounds : 25 ≤ a.widened limit ∧ a.widened limit ≤ 30 := by
    rw [Asks.widened]
    omega
  rw [hwide, if_neg (by omega), show min (a.widened limit - 25) 15 = a.widened limit - 25 by omega]

/-- Any other two bytes are the session's. -/
theorem Listener.upgrade_session {first : UInt8} (h : first ≠ upgradeHeader) (exponent : Nat)
    (second : UInt8) :
    Listener.upgrade limit exponent first second = (.opened exponent [first, second], []) := by
  rw [Listener.upgrade, if_neg h]

/-- Two bytes of the application that look like an upgrade are taken for one. -/
theorem Listener.upgrade_mistaken (hlimit : 24 < limit) (exponent : Nat) (second : UInt8) :
    ∃ wide answer, 24 < wide ∧ answer.length = 2 ∧
      Listener.upgrade limit exponent upgradeHeader second = (.opened wide [], answer) := by
  rw [Listener.upgrade, if_pos rfl]
  dsimp only
  have hwide : 24 < min (min (min limit connectanumMaxRawsocketSizeExponent)
      (second.toNat % 16 + 25)) connectanumMaxRawsocketSizeExponent := by
    rw [connectanumMaxRawsocketSizeExponent]
    omega
  rw [if_neg (Nat.not_le.mpr hwide)]
  exact ⟨_, _, hwide, rfl, rfl⟩

end

/-! ### Phases of a run -/

/-- The application's bytes begin like an upgrade. -/
def Mistaken (app : Bytes) : Prop := ∃ second rest, app = upgradeHeader :: second :: rest

/-- The listener, the stage of the client, the bytes under way to each, and those still to send. -/
inductive Phase (a : Asks) (limit : Nat) (app : Bytes) :
    Listener → Stage → Bytes → Bytes → Bytes → Prop where
  | greeting {got rest : Bytes} (h : got ++ rest = a.hello) (hrest : rest ≠ []) :
      Phase a limit app (.hello got) (.response []) rest [] app
  | refused {got rest : Bytes} (hlimit : limit < 9)
      (h : got ++ rest = getError errorMessageLengthExceeded) (hrest : rest ≠ []) :
      Phase a limit app .failed (.response got) [] rest app
  | parted (hlimit : limit < 9) : Phase a limit app .failed .failed [] [] app
  | answered {got rest : Bytes} (hlimit : 9 ≤ limit)
      (h : got ++ rest = a.response (a.answered limit)) (hrest : rest ≠ []) :
      Phase a limit app (a.greeted limit).1 (.response got) [] rest app
  | plain {received under rest : Bytes} (hlimit : 9 ≤ limit) (hup : ¬ a.Upgrades limit)
      (hprobes : a.Probes limit → ¬ Mistaken app) (h : received ++ under ++ rest = app) :
      Phase a limit app (.opened (a.answered limit) received)
        (.opened (a.cap (a.answered limit)) []) under [] rest
  | probing {got under rest : Bytes} (hup : ¬ a.Upgrades limit) (hprobes : a.Probes limit)
      (hgot : got.length < 2) (h : got ++ under ++ rest = app) :
      Phase a limit app (.probe (a.answered limit) got) (.opened (a.cap (a.answered limit)) [])
        under [] rest
  /-- The listener has read an upgrade where the client had begun its session. -/
  | mistaken {exponent : Nat} {received got under answer rest : Bytes}
      (hup : ¬ a.Upgrades limit) (hprobes : a.Probes limit) (hmistaken : Mistaken app)
      (hexponent : 24 < exponent) (h : (got ++ answer).length = 2) :
      Phase a limit app (.opened exponent received) (.opened (a.cap (a.answered limit)) got)
        under answer rest
  | asking {got rest : Bytes} (hup : a.Upgrades limit) (hprobes : a.Probes limit)
      (h : got ++ rest = [upgradeHeader, a.upgrade]) (hrest : rest ≠ []) :
      Phase a limit app (.probe (a.answered limit) got) (.upgrade []) rest [] app
  | upgrading {got rest : Bytes} (hup : a.Upgrades limit) (hprobes : a.Probes limit)
      (h : got ++ rest = [upgradeHeader, UInt8.ofNat (a.widened limit - 25)]) (hrest : rest ≠ []) :
      Phase a limit app (.opened (a.widened limit) []) (.upgrade got) [] rest app
  | wide {received under rest : Bytes} (hup : a.Upgrades limit) (hprobes : a.Probes limit)
      (h : received ++ under ++ rest = app) :
      Phase a limit app (.opened (a.widened limit) received)
        (.opened (a.cap (a.widened limit)) []) under [] rest
  /-- The listener reads the client's upgrade as the start of its session. -/
  | stranded {received rest : Bytes} (hup : a.Upgrades limit) (hprobes : ¬ a.Probes limit)
      (h : received ++ rest = [upgradeHeader, a.upgrade]) :
      Phase a limit app (.opened (a.answered limit) received) (.upgrade []) rest [] app
  | givenUp {received : Bytes} (hup : a.Upgrades limit) (hprobes : ¬ a.Probes limit) :
      Phase a limit app (.opened (a.answered limit) received) .failed [] [] app

def Listener.weight : Listener → Nat
  | .hello _ => 30
  | .probe _ _ => 12
  | .opened _ _ | .failed => 0

def Stage.weight : Stage → Nat
  | .response _ => 14
  | .upgrade _ => 4
  | .opened _ _ | .failed => 0

/-- What every move makes less. -/
def weigh (listener : Listener) (stage : Stage) (toListener toClient app : Bytes) : Nat :=
  listener.weight + stage.weight + 2 * toListener.length + toClient.length + 3 * app.length

namespace Phase

variable {a : Asks} {limit : Nat} {app toListener toClient rest : Bytes} {listener : Listener}
  {stage : Stage}

theorem weigh_opened (exponent : Nat) (received : Bytes) (byte : UInt8) :
    weigh (Listener.read limit (.opened exponent received) byte).1 stage toListener
        (toClient ++ (Listener.read limit (.opened exponent received) byte).2) rest <
      weigh (.opened exponent received) stage (byte :: toListener) toClient rest := by
  simp only [Listener.read, weigh, Listener.weight, List.append_nil, List.length_cons]
  omega

/-- The last byte of what the client asks for, and the answer. -/
theorem greeted : Phase a limit app (a.greeted limit).1 (.response []) [] (a.greeted limit).2 app ∧
    weigh (a.greeted limit).1 (.response []) [] (a.greeted limit).2 app <
      30 + 14 + 2 + 3 * app.length := by
  rw [Asks.greeted]
  by_cases hlimit : limit < 9
  · rw [if_pos hlimit]
    refine ⟨.refused hlimit rfl (by simp [getError]), ?_⟩
    simp only [weigh, Listener.weight, Stage.weight, getError, List.length_cons, List.length_nil]
    omega
  · have hgreeted : Phase a limit app (a.greeted limit).1 (.response []) []
        (a.response (a.answered limit)) app :=
      .answered (Nat.not_lt.mp hlimit) rfl (by simp [Asks.response])
    rw [Asks.greeted, if_neg hlimit] at hgreeted
    rw [if_neg hlimit]
    refine ⟨hgreeted, ?_⟩
    have hweight : Listener.weight (if a.Probes limit then .probe (a.answered limit) []
        else .opened (a.answered limit) []) ≤ 12 := by
      split <;> simp [Listener.weight]
    simp only [weigh, Stage.weight, Asks.response, List.length_cons, List.length_nil]
    omega

theorem listenerReads {byte : UInt8}
    (h : Phase a limit app listener stage (byte :: toListener) toClient rest) :
    Phase a limit app (listener.read limit byte).1 stage toListener
        (toClient ++ (listener.read limit byte).2) rest ∧
      weigh (listener.read limit byte).1 stage toListener
          (toClient ++ (listener.read limit byte).2) rest <
        weigh listener stage (byte :: toListener) toClient rest := by
  cases h with
  | @greeting got _ h _ =>
      have hlength : got.length + (toListener.length + 1) = 4 := by
        simpa [Asks.hello] using congrArg List.length h
      cases toListener with
      | nil =>
          have hlast : got ++ [byte] = [metaHeader, UInt8.ofNat (min 15 (a.own - 9) * 16 +
              serializerToWireId a.serializer), 0] ++ [0] := h
          obtain ⟨rfl, hbyte⟩ := List.append_inj' hlast rfl
          obtain rfl := List.singleton_inj.mp hbyte
          rw [Listener.read, Listener.greet_hello, List.nil_append]
          obtain ⟨hphase, hless⟩ := @greeted a limit app
          exact ⟨hphase, Nat.lt_of_lt_of_eq hless rfl⟩
      | cons next tail =>
          rw [Listener.read_hello (by simp at hlength; omega)]
          refine ⟨.greeting (by simpa using h) (by simp), ?_⟩
          simp [weigh, Listener.weight]
  | plain hlimit hup hprobes h =>
      exact ⟨.plain hlimit hup hprobes (by simpa using h), weigh_opened _ _ _⟩
  | @probing got _ _ hup hprobes hgot h =>
      match got, hgot with
      | [], _ =>
          refine ⟨.probing hup hprobes (by simp) (by simpa using h), ?_⟩
          simp [Listener.read, weigh, Listener.weight]
      | [first], _ =>
          rw [Listener.read]
          by_cases hfirst : first = upgradeHeader
          · subst hfirst
            obtain ⟨wide, answer, hwide, hanswer, hread⟩ :=
              Listener.upgrade_mistaken hprobes.2 (a.answered limit) byte
            rw [hread]
            refine ⟨.mistaken hup hprobes ⟨byte, toListener ++ rest, by simpa using h.symm⟩ hwide
              (by simpa using hanswer), ?_⟩
            simp only [weigh, Listener.weight, List.length_cons, List.nil_append]
            omega
          · rw [Listener.upgrade_session hfirst]
            refine ⟨.plain (by have := hprobes.2; omega) hup (fun _ hm => ?_) (by simpa using h), ?_⟩
            · obtain ⟨second, tail, happ⟩ := hm
              rw [happ] at h
              exact hfirst (List.cons.inj h).1
            · simp only [weigh, Listener.weight, List.length_cons, List.append_nil]
              omega
  | mistaken hup hprobes hmistaken hexponent h =>
      refine ⟨?_, weigh_opened _ _ _⟩
      rw [Listener.read, List.append_nil]
      exact .mistaken hup hprobes hmistaken hexponent h
  | @asking got _ hup hprobes h _ =>
      cases got with
      | nil =>
          obtain ⟨rfl, rfl⟩ : byte = upgradeHeader ∧ toListener = [a.upgrade] := by simpa using h
          refine ⟨.asking hup hprobes rfl (by simp), ?_⟩
          simp [Listener.read, weigh, Listener.weight]
      | cons first tail =>
          obtain ⟨rfl, rfl, rfl, rfl⟩ : first = upgradeHeader ∧ tail = [] ∧ byte = a.upgrade ∧
              toListener = [] := by
            simpa [List.append_eq_singleton_iff] using h
          rw [Listener.read, Listener.upgrade_widened a hup.1 hprobes.2]
          refine ⟨.upgrading hup hprobes rfl (by simp), ?_⟩
          simp [weigh, Listener.weight]
  | wide hup hprobes h => exact ⟨.wide hup hprobes (by simpa using h), weigh_opened _ _ _⟩
  | stranded hup hprobes h =>
      exact ⟨.stranded hup hprobes (by simpa using h), weigh_opened _ _ _⟩

variable {κ : Type} {party : Party κ} {at' : κ → Stage → Prop} {k : κ} {n : Nat}

/-- A client that has read all of the response goes on as it asked to. -/
theorem responded (hparty : Simulates party a at') {got chunk : Bytes}
    (hk : at' k (.response got)) (hchunk : chunk ≠ []) (hlimit : 9 ≤ limit)
    (h : got ++ chunk = a.response (a.answered limit)) :
    ∃ stage', at' (party.receive k chunk).1 stage' ∧
      Phase a limit app (a.greeted limit).1 stage' (party.receive k chunk).2 [] app ∧
      stage'.weight + 2 * (party.receive k chunk).2.length < 14 := by
  have hgreeted : (a.greeted limit).1 = if a.Probes limit then .probe (a.answered limit) []
      else .opened (a.answered limit) [] := by
    rw [Asks.greeted, if_neg (Nat.not_lt.mpr hlimit)]
  have hbounds : 9 ≤ a.answered limit ∧ a.answered limit ≤ 24 := by
    rw [Asks.answered, Asks.clientExponent]
    omega
  have hup : a.Upgrades limit ↔ 24 < a.own ∧ a.answered limit = 24 := by
    rw [Asks.Upgrades, Asks.answered, Asks.clientExponent]
    omega
  by_cases hupgrades : a.Upgrades limit
  · rw [(hup.mp hupgrades).2] at h
    obtain ⟨hstage, hsent⟩ := hparty.more hk hchunk h hupgrades.1
    refine ⟨_, hstage, ?_, by rw [hsent]; simp [Stage.weight]⟩
    rw [hsent, hgreeted]
    split
    · next hprobes => exact .asking hupgrades hprobes rfl (by simp)
    · next hprobes => exact .stranded hupgrades hprobes rfl
  · obtain ⟨hstage, hsent⟩ := hparty.content hk hchunk h hbounds.1 hbounds.2
      (fun hup' => hupgrades (hup.mpr hup'))
    refine ⟨_, hstage, ?_, by rw [hsent]; simp [Stage.weight]⟩
    rw [hsent, hgreeted]
    split
    · next hprobes => exact .probing hupgrades hprobes (by simp) rfl
    · next hprobes => exact .plain hlimit hupgrades (fun h => absurd h hprobes) rfl

theorem clientReads (hparty : Simulates party a at') (hk : at' k stage)
    (h : Phase a limit app listener stage toListener toClient rest) (hpos : 0 < n)
    (hn : n ≤ toClient.length) :
    ∃ stage', at' (party.receive k (toClient.take n)).1 stage' ∧
      Phase a limit app listener stage'
        (toListener ++ (party.receive k (toClient.take n)).2) (toClient.drop n) rest ∧
      weigh listener stage' (toListener ++ (party.receive k (toClient.take n)).2)
          (toClient.drop n) rest < weigh listener stage toListener toClient rest := by
  have hcut : toClient.take n ++ toClient.drop n = toClient := List.take_append_drop n toClient
  have hless : (toClient.drop n).length < toClient.length := by
    rw [List.length_drop]
    omega
  have hchunk : toClient.take n ≠ [] := by
    refine List.ne_nil_of_length_pos ?_
    rw [List.length_take]
    omega
  -- a part of an answer, with its first byte and more to come
  have hpart : ∀ {got : Bytes} {first : UInt8} {tail : Bytes}, got ++ toClient = first :: tail →
      tail.length = 3 → toClient.drop n ≠ [] →
      (got ++ toClient.take n).length < 4 ∧ (got ++ toClient.take n).head? = some first := by
    intro got first tail h htail hmore
    have hpos' := List.length_pos_iff.mpr hmore
    rw [← hcut, ← List.append_assoc] at h
    have hlength := congrArg List.length h
    rw [List.length_append, List.length_cons] at hlength
    refine ⟨by omega, ?_⟩
    have hne : got ++ toClient.take n ≠ [] := by
      intro hnil
      have := congrArg List.length hnil
      rw [List.length_append, List.length_take, List.length_nil] at this
      omega
    obtain ⟨x, xs, hx⟩ := List.exists_cons_of_ne_nil hne
    rw [hx] at h ⊢
    exact congrArg some (List.cons.inj h).1
  cases h with
  | greeting h hrest => simp at hn; omega
  | @refused got _ hlimit h hrest =>
      by_cases hmore : toClient.drop n = []
      · rw [← hcut, hmore, List.append_nil] at h
        obtain ⟨hstage, hsent⟩ := hparty.refused hk hchunk h
        refine ⟨_, hstage, ?_, ?_⟩
        · rw [hsent, hmore]
          exact .parted hlimit
        · rw [hsent]
          simp only [weigh, Stage.weight, List.append_nil]
          omega
      · obtain ⟨hshort, hhead⟩ := hpart h rfl hmore
        obtain ⟨hstage, hsent⟩ := hparty.partly hk hshort hhead
        refine ⟨_, hstage, ?_, ?_⟩
        · rw [hsent]
          exact .refused hlimit (by rw [List.append_assoc, hcut, h]) hmore
        · rw [hsent]
          simp only [weigh, Stage.weight, List.append_nil]
          omega
  | parted hlimit => simp at hn; omega
  | @answered got _ hlimit h hrest =>
      by_cases hmore : toClient.drop n = []
      · rw [← hcut, hmore, List.append_nil] at h
        obtain ⟨stage', hstage, hphase, hweight⟩ := @responded a limit app κ party at' k hparty _ _ hk hchunk hlimit h
        refine ⟨stage', hstage, ?_, ?_⟩
        · rw [hmore]
          exact hphase
        · simp only [weigh, Stage.weight, List.nil_append, List.length_nil] at hweight ⊢
          omega
      · obtain ⟨hshort, hhead⟩ := hpart h rfl hmore
        obtain ⟨hstage, hsent⟩ := hparty.partly hk hshort hhead
        refine ⟨_, hstage, ?_, ?_⟩
        · rw [hsent]
          exact .answered hlimit (by rw [List.append_assoc, hcut, h]) hmore
        · rw [hsent]
          simp only [weigh, Stage.weight, List.append_nil]
          omega
  | plain hlimit hup hprobes h => simp at hn; omega
  | probing hup hprobes hgot h => simp at hn; omega
  | @mistaken _ _ got _ _ _ hup hprobes hmistaken hexponent h =>
      have hlength : (got ++ toClient.take n ++ toClient.drop n).length = 2 := by
        rw [List.append_assoc, hcut]
        exact h
      have hshort : (got ++ toClient.take n).length < 4 := by
        rw [List.length_append] at hlength
        omega
      obtain ⟨hstage, hsent⟩ := hparty.session hk hshort
      refine ⟨_, hstage, ?_, ?_⟩
      · exact .mistaken hup hprobes hmistaken hexponent hlength
      · rw [hsent]
        simp only [weigh, Stage.weight, List.append_nil]
        omega
  | asking hup hprobes h hrest => simp at hn; omega
  | @upgrading got _ hup hprobes h hrest =>
      have hbounds : 25 ≤ a.widened limit ∧ a.widened limit ≤ 30 := by
        obtain ⟨hown, -⟩ := hup
        obtain ⟨-, hlimit⟩ := hprobes
        rw [Asks.widened]
        omega
      by_cases hmore : toClient.drop n = []
      · rw [← hcut, hmore, List.append_nil] at h
        obtain ⟨hstage, hsent⟩ := hparty.upgraded hk hchunk h hbounds.1 hbounds.2
        refine ⟨_, hstage, ?_, ?_⟩
        · rw [hsent, hmore]
          exact .wide hup hprobes rfl
        · rw [hsent]
          simp only [weigh, Stage.weight, List.append_nil]
          omega
      · -- one byte of two is there
        obtain ⟨rfl, hfirst⟩ : got = [] ∧ toClient.take n = [upgradeHeader] := by
          have hpos' := List.length_pos_iff.mpr hmore
          cases got with
          | nil =>
              obtain rfl : toClient = [upgradeHeader, _] := h
              simp only [List.length_drop, List.length_cons, List.length_nil] at hpos'
              obtain rfl : n = 1 := by omega
              exact ⟨rfl, rfl⟩
          | cons first tail =>
              have hlength := congrArg List.length h
              simp only [List.length_append, List.length_cons, List.length_nil] at hlength
              rw [List.length_drop] at hpos'
              omega
        obtain ⟨hstage, hsent⟩ := hparty.upgradePartly hk hfirst
        refine ⟨_, hstage, ?_, ?_⟩
        · rw [hsent]
          exact .upgrading hup hprobes (by rw [hcut]; exact h) hmore
        · rw [hsent]
          simp only [weigh, Stage.weight, List.append_nil]
          omega
  | wide hup hprobes h => simp at hn; omega
  | stranded hup hprobes h => simp at hn; omega
  | givenUp hup hprobes => simp at hn; omega

theorem clientSends (h : Phase a limit app listener stage toListener toClient rest)
    (hopened : ∃ m l, stage.result = .opened m l) (hpos : 0 < n) (hn : n ≤ rest.length) :
    Phase a limit app listener stage (toListener ++ rest.take n) toClient (rest.drop n) ∧
      weigh listener stage (toListener ++ rest.take n) toClient (rest.drop n) <
        weigh listener stage toListener toClient rest := by
  have hcut : ∀ {got : Bytes}, got ++ (toListener ++ rest.take n) ++ rest.drop n =
      got ++ toListener ++ rest := by
    intro got
    rw [List.append_assoc, List.append_assoc, List.take_append_drop, ← List.append_assoc]
  have hless : weigh listener stage (toListener ++ rest.take n) toClient (rest.drop n) <
      weigh listener stage toListener toClient rest := by
    simp only [weigh, List.length_append, List.length_take, List.length_drop]
    omega
  refine ⟨?_, hless⟩
  obtain ⟨m, l, hopened⟩ := hopened
  cases h with
  | plain hlimit hup hprobes h => exact .plain hlimit hup hprobes (hcut.trans h)
  | probing hup hprobes hgot h => exact .probing hup hprobes hgot (hcut.trans h)
  | mistaken hup hprobes hmistaken hexponent h =>
      exact .mistaken hup hprobes hmistaken hexponent h
  | wide hup hprobes h => exact .wide hup hprobes (hcut.trans h)
  | _ => cases hopened

end Phase

/-! ### Runs -/

namespace Net

variable {κ : Type} {party : Party κ} {at' : κ → Stage → Prop} {a : Asks} {limit : Nat}
  {app : Bytes} {s : Net κ}

/-- A run is in one of its phases. -/
def InPhase (at' : κ → Stage → Prop) (a : Asks) (limit : Nat) (app : Bytes) (weight : Nat)
    (s : Net κ) : Prop :=
  ∃ stage, at' s.client stage ∧ Phase a limit app s.listener stage s.toListener s.toClient s.app ∧
    weigh s.listener stage s.toListener s.toClient s.app = weight

theorem quiet_iff {stage : Stage} (hresult : party.result s.client = stage.result) :
    s.Quiet party ↔ (s.toListener = [] ∨ s.listener = .failed) ∧
      (s.toClient = [] ∨ stage.result = .failed) ∧
      (s.app = [] ∨ ∀ m h, stage.result ≠ .opened m h) := by
  rw [Quiet, hresult]

theorem inPhase_step (hparty : Simulates party a at') {weight : Nat}
    (h : s.InPhase at' a limit app weight) {m : Move} (hm : s.Enabled party m) :
    ∃ weight' < weight, (s.step party limit m).InPhase at' a limit app weight' := by
  obtain ⟨stage, hk, hphase, rfl⟩ := h
  have hresult := hparty.result hk
  cases m with
  | listenerReads =>
      obtain ⟨hne, -⟩ := hm
      obtain ⟨byte, rest, hbytes⟩ := List.exists_cons_of_ne_nil hne
      rw [hbytes] at hphase ⊢
      obtain ⟨hphase', hless⟩ := hphase.listenerReads
      refine ⟨_, hless, stage, ?_, ?_, ?_⟩ <;> rw [step, hbytes]
      · exact hk
      · exact hphase'
  | clientReads n =>
      obtain ⟨hpos, hn, -⟩ := hm
      obtain ⟨stage', hk', hphase', hless⟩ := hphase.clientReads hparty hk hpos hn
      exact ⟨_, hless, stage', hk', hphase', rfl⟩
  | clientSends n =>
      obtain ⟨hpos, hn, hopened⟩ := hm
      rw [hresult] at hopened
      obtain ⟨hphase', hless⟩ := hphase.clientSends hopened hpos hn
      exact ⟨_, hless, stage, hk, hphase', rfl⟩
  | listenerTimeout =>
      obtain ⟨hwaits, hquiet⟩ := hm
      obtain ⟨hlistener, hclient, happ⟩ := (quiet_iff hresult).mp hquiet
      obtain ⟨listener, client, toListener, toClient, rest⟩ := s
      dsimp only at *
      cases hphase with
      | greeting h hrest => simp [hrest] at hlistener
      | answered hlimit h hrest => simp [hrest, Stage.result] at hclient
      | @probing got _ _ hup hprobes hgot h =>
          obtain rfl : toListener = [] := by simpa using hlistener
          obtain rfl : rest = [] := by simpa [Stage.result, Result.ofExponent] using happ
          rw [List.append_nil, List.append_nil] at h
          refine ⟨_, ?_, _, hk, .plain (by have := hprobes.2; omega) hup (fun _ hm => ?_)
            (by simpa [step] using h), rfl⟩
          · simp [step, weigh, Listener.timeout, Listener.weight]
          · obtain ⟨second, tail, rfl⟩ := hm
            subst h
            rw [List.length_cons, List.length_cons] at hgot
            exact absurd hgot (by omega)
      | asking hup hprobes h hrest => simp [hrest] at hlistener
      | _ => cases hwaits
  | clientTimeout =>
      obtain ⟨htimeout, hquiet⟩ := hm
      obtain ⟨hlistener, hclient, happ⟩ := (quiet_iff hresult).mp hquiet
      obtain ⟨k', hk'⟩ := Option.isSome_iff_exists.mp htimeout
      obtain ⟨hfailed, hwaiting⟩ := hparty.timeout hk hk'
      obtain ⟨listener, client, toListener, toClient, rest⟩ := s
      dsimp only at *
      cases hphase with
      | greeting h hrest => simp [hrest] at hlistener
      | refused hlimit h hrest => simp [hrest, Stage.result] at hclient
      | answered hlimit h hrest => simp [hrest, Stage.result] at hclient
      | asking hup hprobes h hrest => simp [hrest] at hlistener
      | upgrading hup hprobes h hrest => simp [hrest, Stage.result] at hclient
      | stranded hup hprobes h =>
          obtain rfl : toListener = [] := by simpa using hlistener
          refine ⟨_, ?_, .failed, ?_, .givenUp hup hprobes, rfl⟩
          · simp [step, weigh, Stage.weight]
          · simpa [step, hk'] using hfailed
      | _ => cases hwaiting

/-- The numbers of the two sides, and the first bytes of the session, leave no doubt about an
upgrade. -/
def Compatible (own limit : Nat) (app : Bytes) : Prop :=
  limit < 9 ∨ 9 ≤ own ∧ ¬ (24 < own ∧ limit = 24) ∧
    ¬ (own = 24 ∧ 24 < limit ∧ Mistaken app)

/-- The end of a run in which both sides are open. -/
theorem agrees_opened {exponent : Nat} {stage : Stage}
    (hresult : party.result s.client = stage.result)
    (hstage : stage.result = .ofExponent (a.cap exponent)) (hs : s.listener = .opened exponent app) :
    s.Agrees party a.own limit app ↔ exponent ≤ a.own ∧ exponent ≤ limit := by
  constructor
  · rintro (⟨exponent', hs', -, hown, hlimit⟩ | ⟨hs', -⟩)
    · obtain ⟨rfl, -⟩ := Listener.opened.inj (hs.symm.trans hs')
      exact ⟨hown, hlimit⟩
    · rw [hs] at hs'
      cases hs'
  · rintro ⟨hown, hlimit⟩
    refine .inl ⟨exponent, hs, ?_, hown, hlimit⟩
    rw [hresult, hstage, a.cap_of_le hown]

theorem agrees_iff (hparty : Simulates party a at') {weight : Nat}
    (h : s.InPhase at' a limit app weight) (hend : ∀ m, ¬ s.Enabled party m) :
    s.Agrees party a.own limit app ↔ Compatible a.own limit app := by
  obtain ⟨stage, hk, hphase, -⟩ := h
  have hresult := hparty.result hk
  obtain ⟨listener, client, toListener, toClient, rest⟩ := s
  dsimp only at hk hphase hresult
  have hlistener : toListener ≠ [] → listener = .failed := by
    intro hne
    by_contra hopen
    exact hend .listenerReads ⟨hne, hopen⟩
  have hclient : toClient ≠ [] → stage.result = .failed := by
    intro hne
    by_contra hopen
    exact hend (.clientReads 1) ⟨Nat.one_pos, List.length_pos_iff.mpr hne, hresult ▸ hopen⟩
  have hsends : rest ≠ [] → ∀ m l, stage.result ≠ .opened m l := by
    intro hne m l hopen
    exact hend (.clientSends 1) ⟨Nat.one_pos, List.length_pos_iff.mpr hne, m, l, hresult ▸ hopen⟩
  cases hphase with
  | greeting h hrest => cases hlistener hrest
  | refused hlimit h hrest => cases hclient hrest
  | parted hlimit => exact ⟨fun _ => .inl hlimit, fun _ => .inr ⟨rfl, hresult⟩⟩
  | answered hlimit h hrest => cases hclient hrest
  | @plain received _ _ hlimit hup hprobes h =>
      obtain rfl : toListener = [] := by
        by_contra hne
        cases hlistener hne
      obtain rfl : rest = [] := by
        by_contra hne
        exact hsends hne _ _ rfl
      obtain rfl : received = app := by simpa using h
      rw [agrees_opened hresult rfl rfl]
      have hanswered : (a.answered limit ≤ a.own ∧ a.answered limit ≤ limit) ↔ 9 ≤ a.own := by
        rw [Asks.answered, Asks.clientExponent]
        omega
      rw [hanswered]
      constructor
      · refine fun hown => .inr ⟨hown, fun h => hup ⟨h.1, Nat.le_of_eq h.2.symm⟩, fun h => ?_⟩
        exact hprobes ⟨Nat.le_of_eq h.1.symm, h.2.1⟩ h.2.2
      · rintro (hlow | ⟨hown, -⟩)
        · omega
        · exact hown
  | @probing got _ _ hup hprobes hgot h =>
      obtain rfl : toListener = [] := by
        by_contra hne
        cases hlistener hne
      obtain rfl : rest = [] := by
        by_contra hne
        exact hsends hne _ _ rfl
      exact absurd ⟨rfl, .inl rfl, .inl rfl, .inl rfl⟩ (hend .listenerTimeout)
  | mistaken hup hprobes hmistaken hexponent h =>
      have hown : a.own = 24 := by
        rw [Asks.Upgrades] at hup
        rw [Asks.Probes] at hprobes
        omega
      constructor
      · rintro (⟨exponent', hs', -, hle, -⟩ | ⟨hs', -⟩)
        · obtain ⟨rfl, -⟩ := Listener.opened.inj hs'
          omega
        · cases hs'
      · rintro (hlow | ⟨-, -, hnot⟩)
        · have := hprobes.2
          omega
        · exact absurd ⟨hown, hprobes.2, hmistaken⟩ hnot
  | asking hup hprobes h hrest => cases hlistener hrest
  | upgrading hup hprobes h hrest => cases hclient hrest
  | @wide received _ _ hup hprobes h =>
      obtain rfl : toListener = [] := by
        by_contra hne
        cases hlistener hne
      obtain rfl : rest = [] := by
        by_contra hne
        exact hsends hne _ _ rfl
      obtain rfl : received = app := by simpa using h
      rw [agrees_opened hresult rfl rfl]
      have hown := hup.1
      have hlimit := hprobes.2
      refine iff_of_true ?_ (.inr ⟨by omega, by omega, fun h => by omega⟩)
      rw [Asks.widened]
      omega
  | stranded hup hprobes h =>
      refine iff_of_false ?_ ?_
      · rintro (⟨_, -, hopen, -⟩ | ⟨hs', -⟩)
        · rw [hresult] at hopen
          cases hopen
        · cases hs'
      · rw [Asks.Upgrades] at hup
        rw [Asks.Probes] at hprobes
        rintro (hlow | ⟨-, hnot, -⟩) <;> omega
  | givenUp hup hprobes =>
      refine iff_of_false ?_ ?_
      · rintro (⟨_, -, hopen, -⟩ | ⟨hs', -⟩)
        · rw [hresult] at hopen
          cases hopen
        · cases hs'
      · rw [Asks.Upgrades] at hup
        rw [Asks.Probes] at hprobes
        rintro (hlow | ⟨-, hnot, -⟩) <;> omega

/-- A run of `n` moves has used up so much of the weight. -/
theorem inPhase_run (hparty : Simulates party a at') {weight : Nat}
    (h : s.InPhase at' a limit app weight) {moves : List Move} {s' : Net κ}
    (hrun : Run (step party limit) (Enabled party) s moves s') :
    ∃ weight', moves.length + weight' ≤ weight ∧ s'.InPhase at' a limit app weight' := by
  induction hrun generalizing weight with
  | nil => exact ⟨weight, by simp, h⟩
  | cons hm _ ih =>
      obtain ⟨weight', hless, hnext⟩ := inPhase_step hparty h hm
      obtain ⟨weight'', hle, hlast⟩ := ih hnext
      exact ⟨weight'', by rw [List.length_cons]; omega, hlast⟩

/-- Every run goes on to an end. -/
theorem exists_end (hparty : Simulates party a at') {weight : Nat}
    (h : s.InPhase at' a limit app weight) :
    ∃ moves s', Run (step party limit) (Enabled party) s moves s' ∧
      ∀ m, ¬ s'.Enabled party m := by
  induction weight using Nat.strongRecOn generalizing s with
  | ind weight ih =>
      by_cases hend : ∃ m, s.Enabled party m
      · obtain ⟨m, hm⟩ := hend
        obtain ⟨weight', hless, hnext⟩ := inPhase_step hparty h hm
        obtain ⟨moves, s', hrun, hs'⟩ := ih weight' hless hnext
        exact ⟨m :: moves, s', .cons hm hrun, hs'⟩
      · exact ⟨[], s, .nil s, fun m hm => hend ⟨m, hm⟩⟩

theorem meet_iff (hparty : Simulates party a at') {start : κ} (hstart : at' start (.response [])) :
    Meet party a.own limit start a.hello app ↔ Compatible a.own limit app := by
  have hphase : InPhase at' a limit app _ ⟨.hello [], start, a.hello, [], app⟩ :=
    ⟨.response [], hstart, .greeting rfl (by simp [Asks.hello]), rfl⟩
  constructor
  · rintro ⟨bound, h⟩
    obtain ⟨moves, s', hrun, hend⟩ := exists_end hparty hphase
    obtain ⟨weight', -, hlast⟩ := inPhase_run hparty hphase hrun
    exact (agrees_iff hparty hlast hend).mp ((h moves s' hrun).2 hend)
  · intro h
    refine ⟨weigh (.hello []) (.response []) a.hello [] app, fun moves s' hrun => ?_⟩
    obtain ⟨weight', hle, hlast⟩ := inPhase_run hparty hphase hrun
    exact ⟨Nat.le_trans (Nat.le_add_right _ _) hle,
      fun hend => (agrees_iff hparty hlast hend).mpr h⟩

end Net

end RawSocket

end Connectanum
