import Connectanum.Wire.SessionProfile

/-!
# Wire — Turns

The phases of two peers that speak over two channels, as far as the kinds of their messages tell.

* `Turn`: the phase machine that both peers run, as a relation;
* `Traced`: what the phase of a peer says of the messages it has sent and accepted;
* `drain`: the phase of a peer after all messages of its channel;
* `Joint`: how the two phases and the two channels fit together, kept by every message that is
  sent (`clientSend`, `routerSend`) and every message that arrives (`routerAccepts`, ...).
-/

namespace Connectanum

open Checks Collections

namespace Profile

/-! ### Turns -/

/-- Before WELCOME. -/
def Phase.bootstrap : Phase → Bool
  | .initial | .hello | .challenged | .authenticated => true
  | .established | .closing | .closed => false

/-- `turn` as a relation, one constructor for each kind of step. -/
inductive Turn : Bool → Phase → Kind → Phase → Prop where
  | abort {up : Bool} {phase : Phase} (h : phase.bootstrap = true) : Turn up phase .abort .closed
  | hello : Turn true .initial .hello .hello
  | challenge {phase : Phase} (h : phase = .hello ∨ phase = .authenticated) :
      Turn false phase .challenge .challenged
  | authenticate : Turn true .challenged .authenticate .authenticated
  | welcome {phase : Phase} (h : phase = .hello ∨ phase = .authenticated) :
      Turn false phase .welcome .established
  | goodbye {up : Bool} : Turn up .established .goodbye .closing
  | farewell {up : Bool} : Turn up .closing .goodbye .closed
  | application {up : Bool} : Turn up .established .application .established

theorem turn_iff {up : Bool} {phase phase' : Phase} {kind : Kind} :
    turn up phase kind = some phase' ↔ Turn up phase kind phase' := by
  constructor
  · intro h
    cases phase <;> cases kind <;> cases up <;> cases h <;> constructor <;> simp [Phase.bootstrap]
  · intro h
    cases h with
    | abort h => cases phase <;> first | rfl | cases h
    | challenge h => obtain rfl | rfl := h <;> rfl
    | welcome h => obtain rfl | rfl := h <;> rfl
    | _ => rfl

/-! ### One peer -/

/-- What the phase says of the messages that the peer has sent or accepted. -/
structure Traced (seen : Kind → Prop) (goodbyes : Nat) (phase : Phase) : Prop where
  aborted : seen .abort → phase = .closed ∧ ¬ seen .welcome
  bootstrap : phase.bootstrap = true → ¬ seen .welcome
  welcomed : phase = .established ∨ phase = .closing → seen .welcome
  offered : seen .welcome → seen .hello
  greeted : phase = .hello ∨ phase = .authenticated ∨ phase = .challenged → seen .hello
  application : seen .application → seen .welcome
  parted : seen .goodbye → seen .welcome ∧ (phase = .closing ∨ phase = .closed)
  none : phase ≠ .closing → phase ≠ .closed → goodbyes = 0
  one : phase = .closing → goodbyes = 1
  two : phase = .closed → seen .abort ∨ goodbyes = 2

theorem Traced.start : Traced (fun _ => False) 0 .initial := by
  constructor <;> simp [Phase.bootstrap]

/-- One more message keeps the account. -/
theorem Traced.turn {seen seen' : Kind → Prop} {n : Nat} {phase phase' : Phase} {up : Bool}
    {kind : Kind} (h : Traced seen n phase) (hturn : Turn up phase kind phase')
    (hseen : ∀ k, seen' k ↔ seen k ∨ k = kind) :
    Traced seen' (n + if kind = .goodbye then 1 else 0) phase' := by
  obtain ⟨h₁, h₂, h₃, h₄, h₅, h₆, h₇, h₈, h₉, h₁₀⟩ := h
  cases hturn with
  | abort hphase => cases phase <;> cases hphase <;> constructor <;> simp_all [Phase.bootstrap]
  | challenge hphase =>
      obtain rfl | rfl := hphase <;> constructor <;> simp_all [Phase.bootstrap]
  | welcome hphase =>
      obtain rfl | rfl := hphase <;> constructor <;> simp_all [Phase.bootstrap]
  | _ => constructor <;> simp_all [Phase.bootstrap]

/-! ### A channel and its receiver -/

/-- The phase after all messages of a channel. -/
def drain (up : Bool) (phase : Phase) (kinds : List Kind) : Option Phase :=
  kinds.foldlM (turn up) phase

theorem drain_cons {up : Bool} {phase phase' : Phase} {kind : Kind} {kinds : List Kind} :
    drain up phase (kind :: kinds) = some phase' ↔
      ∃ p, Turn up phase kind p ∧ drain up p kinds = some phase' := by
  simp only [drain, List.foldlM_cons, Option.bind_eq_bind, Option.bind_eq_some_iff, turn_iff]

theorem drain_snoc {up : Bool} {phase p phase' : Phase} {kind : Kind} {kinds : List Kind}
    (h : drain up phase kinds = some p) (hturn : Turn up p kind phase') :
    drain up phase (kinds ++ [kind]) = some phase' := by
  rw [drain, List.foldlM_append, ← drain, h]
  simp only [Option.bind_eq_bind, Option.bind_some, List.foldlM_cons, turn_iff.mpr hturn,
    List.foldlM_nil]
  rfl

/-- Past the bootstrap a peer takes application messages and GOODBYE. -/
theorem Turn.late {up : Bool} {phase phase' : Phase} {kind : Kind} (h : Turn up phase kind phase')
    (hphase : phase.bootstrap = false) :
    (kind = .application ∨ kind = .goodbye) ∧ phase'.bootstrap = false := by
  cases h with
  | abort hb => rw [hphase] at hb; cases hb
  | hello => cases hphase
  | challenge hb => obtain rfl | rfl := hb <;> cases hphase
  | authenticate => cases hphase
  | welcome hb => obtain rfl | rfl := hb <;> cases hphase
  | goodbye => exact ⟨.inr rfl, rfl⟩
  | farewell => exact ⟨.inr rfl, rfl⟩
  | application => exact ⟨.inl rfl, rfl⟩

/-- A peer leaves its session through ABORT and GOODBYE only. -/
theorem Turn.stays {up : Bool} {phase phase' : Phase} {kind : Kind} (h : Turn up phase kind phase')
    (habort : kind ≠ .abort) (hgoodbye : kind ≠ .goodbye) :
    phase' ≠ .closing ∧ phase' ≠ .closed := by
  cases h <;> simp_all

theorem Turn.unique {up : Bool} {phase p q : Phase} {kind : Kind} (hp : Turn up phase kind p)
    (hq : Turn up phase kind q) : p = q :=
  Option.some.inj ((turn_iff.mpr hp).symm.trans (turn_iff.mpr hq))

theorem mem_of_drain {up : Bool} {phase phase' : Phase} {kinds : List Kind}
    (h : drain up phase kinds = some phase') (hphase : phase.bootstrap = false) :
    ∀ k ∈ kinds, k = .application ∨ k = .goodbye := by
  induction kinds generalizing phase with
  | nil => intro k hk; cases hk
  | cons kind kinds ih =>
      obtain ⟨p, hturn, hrest⟩ := drain_cons.mp h
      obtain ⟨hkind, hp⟩ := hturn.late hphase
      intro k hk
      obtain rfl | hk := List.mem_cons.mp hk
      · exact hkind
      · exact ih hrest hp k hk

/-- With nothing but application messages the phase does not move. -/
theorem drain_established {up : Bool} {phase' : Phase} {kinds : List Kind}
    (h : drain up .established kinds = some phase') (hno : Kind.goodbye ∉ kinds) :
    phase' = .established ∧ ∀ k ∈ kinds, k = .application := by
  induction kinds with
  | nil => cases h; exact ⟨rfl, fun k hk => nomatch hk⟩
  | cons kind kinds ih =>
      rw [List.mem_cons, not_or] at hno
      obtain ⟨p, hturn, hrest⟩ := drain_cons.mp h
      cases hturn with
      | abort hb => cases hb
      | challenge hb => simp at hb
      | welcome hb => simp at hb
      | goodbye => exact absurd rfl hno.1
      | application =>
          obtain ⟨hp, hall⟩ := ih hrest hno.2
          exact ⟨hp, List.forall_mem_cons.mpr ⟨rfl, hall⟩⟩

/-- What is left to take behind a message that was taken. -/
theorem drain_next {up : Bool} {phase q p : Phase} {kind : Kind} {kinds : List Kind}
    (hturn : Turn up phase kind q) (h : drain up phase (kind :: kinds) = some p) :
    drain up q kinds = some p := by
  obtain ⟨q', hturn', hrest⟩ := drain_cons.mp h
  rwa [hturn.unique hturn']

/-- A message that is refused stops everything behind it. -/
theorem drain_refused {up : Bool} {phase : Phase} {kind : Kind} {kinds : List Kind}
    (hturn : ∀ q, ¬ Turn up phase kind q) (p : Phase) : drain up phase (kind :: kinds) ≠ some p := by
  intro h
  obtain ⟨q, hturn', -⟩ := drain_cons.mp h
  exact hturn q hturn'

theorem Turn.of_application {up : Bool} {phase p : Phase} (h : Turn up phase .application p) :
    phase = .established := by
  cases h
  rfl

theorem not_turn_welcome {phase p : Phase} : ¬ Turn true phase .welcome p := nofun

theorem not_turn_hello {phase p : Phase} : ¬ Turn false phase .hello p := nofun

theorem not_turn_closed {up : Bool} {phase : Phase} {kind : Kind} :
    ¬ Turn up .closed kind phase := by
  intro h
  cases h with
  | abort hb => cases hb
  | challenge hb => simp at hb
  | welcome hb => simp at hb

theorem drain_closed {up : Bool} {phase : Phase} {kinds : List Kind}
    (h : drain up .closed kinds = some phase) : kinds = [] := by
  cases kinds with
  | nil => rfl
  | cons kind kinds =>
      obtain ⟨p, hturn, -⟩ := drain_cons.mp h
      exact absurd hturn not_turn_closed

/-- A peer that waits for its own side takes nothing but ABORT. -/
theorem drain_waiting {up : Bool} {phase phase' : Phase} {kinds : List Kind}
    (hwait : ∀ k p, Turn up phase k p → k = .abort) (h : drain up phase kinds = some phase') :
    kinds = [] ∧ phase' = phase ∨ kinds = [.abort] := by
  cases kinds with
  | nil => cases h; exact .inl ⟨rfl, rfl⟩
  | cons kind kinds =>
      obtain ⟨p, hturn, hrest⟩ := drain_cons.mp h
      obtain rfl := hwait kind p hturn
      cases hturn with
      | abort hb => exact .inr (by rw [drain_closed hrest])

/-- No message of the client ends the bootstrap. -/
theorem bootstrap_drain {phase phase' : Phase} {kinds : List Kind} (hphase : phase.bootstrap = true)
    (h : drain true phase kinds = some phase') (hno : Kind.abort ∉ kinds) :
    phase'.bootstrap = true := by
  induction kinds generalizing phase with
  | nil => cases h; exact hphase
  | cons kind kinds ih =>
      rw [List.mem_cons, not_or] at hno
      obtain ⟨p, hturn, hrest⟩ := drain_cons.mp h
      refine ih ?_ hrest hno.2
      cases hturn with
      | abort => exact absurd rfl hno.1
      | hello => rfl
      | authenticate => rfl
      | goodbye => cases hphase
      | farewell => cases hphase
      | application => cases hphase

theorem bootstrap_of_drain {phase phase' : Phase} {kinds : List Kind}
    (h : drain true phase kinds = some phase') (hno : Kind.abort ∉ kinds)
    (hphase : phase'.bootstrap = false) : phase.bootstrap = false := by
  by_contra hb
  rw [Bool.not_eq_false] at hb
  have := bootstrap_drain hb h hno
  rw [hphase] at this
  cases this

theorem client_waits {phase : Phase} (h : phase = .initial ∨ phase = .challenged) (k : Kind)
    (p : Phase) (hturn : Turn false phase k p) : k = .abort := by
  obtain rfl | rfl := h <;> cases hturn <;> simp_all

theorem router_waits {phase : Phase} (h : phase = .hello ∨ phase = .authenticated) (k : Kind)
    (p : Phase) (hturn : Turn true phase k p) : k = .abort := by
  obtain rfl | rfl := h <;> cases hturn <;> rfl

/-! ### The two channels -/

/-- The peer has sent one of the messages that end a session. -/
def Left (sent : List Kind) : Prop := Kind.abort ∈ sent ∨ Kind.goodbye ∈ sent

theorem mem_snoc {kinds sent : List Kind} {kind : Kind} (h : ∀ k ∈ kinds, k ∈ sent) :
    ∀ k ∈ kinds ++ [kind], k ∈ sent ++ [kind] := by
  intro k hk
  rw [List.mem_append] at hk ⊢
  exact hk.imp (h k) id

theorem not_left_snoc {sent : List Kind} {kind : Kind} (hleft : ¬ Left sent) (habort : kind ≠ .abort)
    (hgoodbye : kind ≠ .goodbye) (k : Kind) (hend : k = .abort ∨ k = .goodbye) :
    k ∉ sent ++ [kind] := by
  intro hk
  rw [List.mem_append, List.mem_singleton] at hk
  rcases hend with rfl | rfl
  · exact hk.elim (fun hk => hleft (.inl hk)) fun hk => habort hk.symm
  · exact hk.elim (fun hk => hleft (.inr hk)) fun hk => hgoodbye hk.symm

/-- How the phases of the client and the router fit the messages in flight. -/
structure Joint (client router : Phase) (clientSent routerSent up down : List Kind) : Prop where
  up_sent : ∀ k ∈ up, k ∈ clientSent
  down_sent : ∀ k ∈ down, k ∈ routerSent
  /-- While nobody leaves, both sides are on their way to one phase. -/
  neither : ¬ Left clientSent → ¬ Left routerSent →
    ∃ p, drain true router up = some p ∧ drain false client down = some p ∧
      router ≠ .closing ∧ router ≠ .closed ∧ client ≠ .closing ∧ client ≠ .closed
  /-- Before its ABORT a client has sent what the router takes. -/
  clientAborted : Kind.abort ∈ clientSent → ¬ Left routerSent →
    ∃ l p, Kind.abort ∉ l ∧ Kind.goodbye ∉ l ∧ drain true router l = some p ∧
      (up = l ∨ up = l ++ [.abort] ∧ router ≠ .closing ∧ router ≠ .closed)
  clientParted : Kind.goodbye ∈ clientSent → ¬ Left routerSent →
    drain true router up = some client ∧ router.bootstrap = false ∧ ∀ k ∈ down, k = .application
  routerLeft : Left routerSent → ¬ Left clientSent →
    (∃ p, drain false client down = some p) ∧
      (Kind.goodbye ∈ routerSent →
        drain false client down = some router ∧ ∀ k ∈ up, k = .application)
  clientPartedBoth : Kind.goodbye ∈ clientSent → Left routerSent →
    ∀ k ∈ down, k = .application ∨ k = .goodbye
  routerPartedBoth : Kind.goodbye ∈ routerSent → Left clientSent →
    ∀ k ∈ up, k = .application ∨ k = .goodbye ∨ k = .abort

/-- What a peer that has left is like. -/
structure Gone (phase : Phase) (sent : List Kind) : Prop where
  aborted : Kind.abort ∈ sent → phase = .closed
  left : Left sent → phase = .closing ∨ phase = .closed
  exclusive : Kind.abort ∈ sent → Kind.goodbye ∉ sent

/-- The only message of a peer that has left is a second GOODBYE. -/
theorem Gone.turn {up : Bool} {kind : Kind} {phase phase' : Phase} {sent : List Kind}
    (h : Gone phase sent) (hleft : Left sent) (hturn : Turn up phase kind phase') :
    phase = .closing ∧ kind = .goodbye ∧ phase' = .closed ∧ Kind.abort ∉ sent := by
  obtain rfl | rfl := h.left hleft
  · cases hturn with
    | abort hb => cases hb
    | challenge hb => simp at hb
    | welcome hb => simp at hb
    | farewell => exact ⟨rfl, rfl, rfl, fun ha => nomatch h.aborted ha⟩
  · exact absurd hturn not_turn_closed

namespace Joint

variable {client client' router router' : Phase} {clientSent routerSent up down : List Kind}
  {kind : Kind}

theorem start : Joint .initial .initial [] [] [] [] where
  up_sent := fun _ h => nomatch h
  down_sent := fun _ h => nomatch h
  neither := fun _ _ => ⟨.initial, rfl, rfl, by decide⟩
  clientAborted := fun h => nomatch h
  clientParted := fun h => nomatch h
  routerLeft := fun h => by simp [Left] at h
  clientPartedBoth := fun h => nomatch h
  routerPartedBoth := fun h => nomatch h

/-! The client sends. -/

/-- A client on its way sends HELLO, AUTHENTICATE or an application message. -/
theorem clientStay (h : Joint client router clientSent routerSent up down)
    (hrouter : Gone router routerSent) (hturn : Turn true client kind client')
    (hleft : ¬ Left clientSent) (habort : kind ≠ .abort) (hgoodbye : kind ≠ .goodbye) :
    Joint client' router (clientSent ++ [kind]) routerSent (up ++ [kind]) down := by
  have hno := not_left_snoc hleft habort hgoodbye
  refine ⟨mem_snoc h.up_sent, h.down_sent, fun _ hr => ?_, fun ha => absurd ha (hno _ (.inl rfl)),
    fun hg => absurd hg (hno _ (.inr rfl)), fun hr _ => ?_,
    fun hg => absurd hg (hno _ (.inr rfl)), fun _ hl => ?_⟩
  · obtain ⟨p, hup, hdown, hopen⟩ := h.neither hleft hr
    have hdownAbort : Kind.abort ∉ down := fun hk => hr (.inl (h.down_sent _ hk))
    have hdownGoodbye : Kind.goodbye ∉ down := fun hk => hr (.inr (h.down_sent _ hk))
    cases hturn with
    | abort => exact absurd rfl habort
    | goodbye => exact absurd rfl hgoodbye
    | farewell => exact absurd rfl hgoodbye
    | hello =>
        obtain ⟨rfl, rfl⟩ | rfl := drain_waiting (client_waits (.inl rfl)) hdown
        · exact ⟨.hello, drain_snoc hup .hello, rfl, hopen.1, hopen.2.1, by decide⟩
        · exact absurd (List.mem_singleton.mpr rfl) hdownAbort
    | authenticate =>
        obtain ⟨rfl, rfl⟩ | rfl := drain_waiting (client_waits (.inr rfl)) hdown
        · exact ⟨.authenticated, drain_snoc hup .authenticate, rfl, hopen.1, hopen.2.1, by decide⟩
        · exact absurd (List.mem_singleton.mpr rfl) hdownAbort
    | application =>
        obtain ⟨rfl, -⟩ := drain_established hdown hdownGoodbye
        exact ⟨.established, drain_snoc hup .application, hdown, hopen⟩
  · obtain ⟨⟨p, hdown⟩, hparted⟩ := h.routerLeft hr hleft
    -- a router that has said GOODBYE is past what the client waits for
    have hwaiting : client = .initial ∨ client = .challenged → Kind.goodbye ∉ routerSent := by
      intro hwait hg
      obtain ⟨hdrain, -⟩ := hparted hg
      obtain ⟨-, rfl⟩ | rfl := drain_waiting (client_waits hwait) hdrain
      · have := hrouter.left hr
        obtain rfl | rfl := hwait <;> simp at this
      · exact hrouter.exclusive (h.down_sent _ (List.mem_singleton.mpr rfl)) hg
    cases hturn with
    | abort => exact absurd rfl habort
    | goodbye => exact absurd rfl hgoodbye
    | farewell => exact absurd rfl hgoodbye
    | hello =>
        refine ⟨?_, fun hg => absurd hg (hwaiting (.inl rfl))⟩
        obtain ⟨rfl, -⟩ | rfl := drain_waiting (client_waits (.inl rfl)) hdown
        · exact ⟨_, rfl⟩
        · exact ⟨_, rfl⟩
    | authenticate =>
        refine ⟨?_, fun hg => absurd hg (hwaiting (.inr rfl))⟩
        obtain ⟨rfl, -⟩ | rfl := drain_waiting (client_waits (.inr rfl)) hdown
        · exact ⟨_, rfl⟩
        · exact ⟨_, rfl⟩
    | application =>
        refine ⟨⟨p, hdown⟩, fun hg => ⟨(hparted hg).1, fun k hk => ?_⟩⟩
        rw [List.mem_append, List.mem_singleton] at hk
        exact hk.elim ((hparted hg).2 k) id
  · exact (hl.elim (hno _ (.inl rfl)) (hno _ (.inr rfl))).elim

theorem clientAbort (h : Joint client router clientSent routerSent up down)
    (hleft : ¬ Left clientSent) :
    Joint .closed router (clientSent ++ [.abort]) routerSent (up ++ [.abort]) down := by
  have hout : Left (clientSent ++ [.abort]) := .inl (by simp)
  have hparted : Kind.goodbye ∉ clientSent ++ [.abort] := by
    simpa using fun hg => hleft (.inr hg)
  refine ⟨mem_snoc h.up_sent, h.down_sent, fun hn => absurd hout hn, fun _ hr => ?_, fun hg => absurd hg hparted,
    fun _ hn => absurd hout hn, fun hg => absurd hg hparted, fun hg _ => ?_⟩
  · obtain ⟨p, hup, -, hr₁, hr₂, -⟩ := h.neither hleft hr
    exact ⟨up, p, fun hk => hleft (.inl (h.up_sent _ hk)), fun hk => hleft (.inr (h.up_sent _ hk)),
      hup, .inr ⟨rfl, hr₁, hr₂⟩⟩
  · intro k hk
    rw [List.mem_append, List.mem_singleton] at hk
    exact hk.elim (fun hk => .inl (((h.routerLeft (.inr hg) hleft).2 hg).2 k hk))
      fun hk => .inr (.inr hk)

/-- The first GOODBYE of the client, also as the answer to the router's. -/
theorem clientGoodbye (h : Joint client router clientSent routerSent up down)
    (hleft : ¬ Left clientSent) (hturn : Turn true client .goodbye client') :
    Joint client' router (clientSent ++ [.goodbye]) routerSent (up ++ [.goodbye]) down := by
  have hout : Left (clientSent ++ [.goodbye]) := .inr (by simp)
  have haborted : Kind.abort ∉ clientSent ++ [.goodbye] := by
    simpa using fun ha => hleft (.inl ha)
  have hlate : client.bootstrap = false := by cases hturn <;> rfl
  refine ⟨mem_snoc h.up_sent, h.down_sent, fun hn => absurd hout hn, fun ha => absurd ha haborted, fun _ hr => ?_,
    fun _ hn => absurd hout hn, fun _ hr => ?_, fun hg _ => ?_⟩
  · obtain ⟨p, hup, hdown, hopen⟩ := h.neither hleft hr
    cases hturn with
    | farewell => exact absurd rfl hopen.2.2.1
    | goodbye =>
        obtain ⟨rfl, hall⟩ := drain_established hdown fun hk => hr (.inr (h.down_sent _ hk))
        refine ⟨drain_snoc hup .goodbye, ?_, hall⟩
        exact bootstrap_of_drain hup (fun hk => hleft (.inl (h.up_sent _ hk))) rfl
  · obtain ⟨⟨p, hdown⟩, -⟩ := h.routerLeft hr hleft
    exact mem_of_drain hdown hlate
  · intro k hk
    rw [List.mem_append, List.mem_singleton] at hk
    exact hk.elim (fun hk => .inl (((h.routerLeft (.inr hg) hleft).2 hg).2 k hk))
      fun hk => .inr (.inl hk)

/-- The second GOODBYE of the client. -/
theorem clientFarewell (h : Joint .closing router clientSent routerSent up down)
    (hgoodbye : Kind.goodbye ∈ clientSent) (habort : Kind.abort ∉ clientSent) :
    Joint .closed router (clientSent ++ [.goodbye]) routerSent (up ++ [.goodbye]) down := by
  have hout : Left (clientSent ++ [.goodbye]) := .inr (by simp)
  refine ⟨mem_snoc h.up_sent, h.down_sent, fun hn => absurd hout hn, fun ha => ?_, fun _ hr => ?_,
    fun _ hn => absurd hout hn, fun _ hr => h.clientPartedBoth hgoodbye hr, fun hg _ => ?_⟩
  · exact absurd ha (by simpa using habort)
  · obtain ⟨hup, hlate, hall⟩ := h.clientParted hgoodbye hr
    exact ⟨drain_snoc hup .farewell, hlate, hall⟩
  · intro k hk
    rw [List.mem_append, List.mem_singleton] at hk
    exact hk.elim (h.routerPartedBoth hg (.inr hgoodbye) k) fun hk => .inr (.inl hk)

theorem clientSend (h : Joint client router clientSent routerSent up down)
    (hclient : Gone client clientSent) (hrouter : Gone router routerSent)
    (hturn : Turn true client kind client') :
    Joint client' router (clientSent ++ [kind]) routerSent (up ++ [kind]) down := by
  by_cases hleft : Left clientSent
  · obtain ⟨rfl, rfl, rfl, habort⟩ := hclient.turn hleft hturn
    exact h.clientFarewell (hleft.resolve_left habort) habort
  · by_cases habort : kind = .abort
    · subst habort
      cases hturn with
      | abort => exact h.clientAbort hleft
    · by_cases hgoodbye : kind = .goodbye
      · subst hgoodbye
        exact h.clientGoodbye hleft hturn
      · exact h.clientStay hrouter hturn hleft habort hgoodbye

/-! The router sends. -/

theorem routerStay (h : Joint client router clientSent routerSent up down)
    (hturn : Turn false router kind router') (hleft : ¬ Left routerSent) (habort : kind ≠ .abort)
    (hgoodbye : kind ≠ .goodbye) :
    Joint client router' clientSent (routerSent ++ [kind]) up (down ++ [kind]) := by
  have hno := not_left_snoc hleft habort hgoodbye
  have hstay : ¬ Left (routerSent ++ [kind]) := fun hl =>
    hl.elim (hno _ (.inl rfl)) (hno _ (.inr rfl))
  refine ⟨h.up_sent, mem_snoc h.down_sent, fun hn _ => ?_, fun ha _ => ?_, fun hg _ => ?_,
    fun hl => absurd hl hstay, fun _ hl => absurd hl hstay,
    fun hg => absurd hg (hno _ (.inr rfl))⟩
  · obtain ⟨p, hup, hdown, hopen⟩ := h.neither hn hleft
    have hupAbort : Kind.abort ∉ up := fun hk => hn (.inl (h.up_sent _ hk))
    have hupGoodbye : Kind.goodbye ∉ up := fun hk => hn (.inr (h.up_sent _ hk))
    cases hturn with
    | abort => exact absurd rfl habort
    | goodbye => exact absurd rfl hgoodbye
    | farewell => exact absurd rfl hgoodbye
    | challenge hphase =>
        obtain ⟨rfl, rfl⟩ | rfl := drain_waiting (router_waits hphase) hup
        · exact ⟨.challenged, rfl, drain_snoc hdown (.challenge hphase), by decide, by decide,
            hopen.2.2⟩
        · exact absurd (List.mem_singleton.mpr rfl) hupAbort
    | welcome hphase =>
        obtain ⟨rfl, rfl⟩ | rfl := drain_waiting (router_waits hphase) hup
        · exact ⟨.established, rfl, drain_snoc hdown (.welcome hphase), by decide, by decide,
            hopen.2.2⟩
        · exact absurd (List.mem_singleton.mpr rfl) hupAbort
    | application =>
        obtain ⟨rfl, -⟩ := drain_established hup hupGoodbye
        exact ⟨.established, hup, drain_snoc hdown .application, hopen⟩
  · obtain ⟨l, p, hl₁, hl₂, hl, hup⟩ := h.clientAborted ha hleft
    cases hturn with
    | abort => exact absurd rfl habort
    | goodbye => exact absurd rfl hgoodbye
    | farewell => exact absurd rfl hgoodbye
    | challenge hphase =>
        obtain ⟨rfl, -⟩ | rfl := drain_waiting (router_waits hphase) hl
        · exact ⟨[], .challenged, hl₁, hl₂, rfl, hup.imp id fun h => ⟨h.1, by decide⟩⟩
        · exact absurd (List.mem_singleton.mpr rfl) hl₁
    | welcome hphase =>
        obtain ⟨rfl, -⟩ | rfl := drain_waiting (router_waits hphase) hl
        · exact ⟨[], .established, hl₁, hl₂, rfl, hup.imp id fun h => ⟨h.1, by decide⟩⟩
        · exact absurd (List.mem_singleton.mpr rfl) hl₁
    | application => exact ⟨l, p, hl₁, hl₂, hl, hup⟩
  · obtain ⟨hup, hlate, hall⟩ := h.clientParted hg hleft
    have hlate' := hturn.late hlate
    obtain rfl : kind = .application := hlate'.1.resolve_right hgoodbye
    cases hturn with
    | application =>
        refine ⟨hup, hlate, fun k hk => ?_⟩
        rw [List.mem_append, List.mem_singleton] at hk
        exact hk.elim (hall k) id

theorem routerAbort (h : Joint client router clientSent routerSent up down)
    (hleft : ¬ Left routerSent) (hphase : router.bootstrap = true) :
    Joint client .closed clientSent (routerSent ++ [.abort]) up (down ++ [.abort]) := by
  have hout : Left (routerSent ++ [.abort]) := .inl (by simp)
  have hparted : Kind.goodbye ∉ routerSent ++ [.abort] := by
    simpa using fun hg => hleft (.inr hg)
  refine ⟨h.up_sent, mem_snoc h.down_sent, fun _ hn => absurd hout hn, fun _ hn => absurd hout hn,
    fun _ hn => absurd hout hn, fun _ hn => ⟨?_, fun hg => absurd hg hparted⟩, fun hg _ => ?_,
    fun hg => absurd hg hparted⟩
  · obtain ⟨p, hup, hdown, -⟩ := h.neither hn hleft
    refine ⟨.closed, drain_snoc hdown (.abort ?_)⟩
    exact bootstrap_drain hphase hup fun hk => hn (.inl (h.up_sent _ hk))
  · -- a client that has said GOODBYE has seen WELCOME
    have := (h.clientParted hg hleft).2.1
    rw [hphase] at this
    cases this

theorem routerGoodbye (h : Joint client router clientSent routerSent up down)
    (hleft : ¬ Left routerSent) (hturn : Turn false router .goodbye router') :
    Joint client router' clientSent (routerSent ++ [.goodbye]) up (down ++ [.goodbye]) := by
  have hout : Left (routerSent ++ [.goodbye]) := .inr (by simp)
  have hlate : router.bootstrap = false := by cases hturn <;> rfl
  refine ⟨h.up_sent, mem_snoc h.down_sent, fun _ hn => absurd hout hn, fun _ hn => absurd hout hn,
    fun _ hn => absurd hout hn, fun _ hn => ?_, fun hg _ => ?_, fun _ hl => ?_⟩
  · obtain ⟨p, hup, hdown, hopen⟩ := h.neither hn hleft
    cases hturn with
    | farewell => exact absurd rfl hopen.1
    | goodbye =>
        obtain ⟨rfl, hall⟩ := drain_established hup fun hk => hn (.inr (h.up_sent _ hk))
        have hdown' := drain_snoc hdown .goodbye
        exact ⟨⟨_, hdown'⟩, fun _ => ⟨hdown', hall⟩⟩
  · intro k hk
    rw [List.mem_append, List.mem_singleton] at hk
    exact hk.elim (fun hk => .inl ((h.clientParted hg hleft).2.2 k hk)) .inr
  · rcases hl with ha | hg
    · obtain ⟨l, p, -, -, hl, hup⟩ := h.clientAborted ha hleft
      have hmem := mem_of_drain hl hlate
      rintro k hk
      obtain rfl | ⟨rfl, -⟩ := hup
      · exact (hmem k hk).imp id .inl
      · rw [List.mem_append, List.mem_singleton] at hk
        exact hk.elim (fun hk => (hmem k hk).imp id .inl) fun hk => .inr (.inr hk)
    · intro k hk
      exact (mem_of_drain (h.clientParted hg hleft).1 hlate k hk).imp id .inl

theorem routerFarewell (h : Joint client .closing clientSent routerSent up down)
    (hgoodbye : Kind.goodbye ∈ routerSent) :
    Joint client .closed clientSent (routerSent ++ [.goodbye]) up (down ++ [.goodbye]) := by
  have hout : Left (routerSent ++ [.goodbye]) := .inr (by simp)
  refine ⟨h.up_sent, mem_snoc h.down_sent, fun _ hn => absurd hout hn, fun _ hn => absurd hout hn,
    fun _ hn => absurd hout hn, fun _ hn => ?_, fun hg _ => ?_,
    fun _ hl => h.routerPartedBoth hgoodbye hl⟩
  · obtain ⟨hdown, hall⟩ := (h.routerLeft (.inr hgoodbye) hn).2 hgoodbye
    have hdown' := drain_snoc hdown .farewell
    exact ⟨⟨_, hdown'⟩, fun _ => ⟨hdown', hall⟩⟩
  · intro k hk
    rw [List.mem_append, List.mem_singleton] at hk
    exact hk.elim (h.clientPartedBoth hg (.inr hgoodbye) k) .inr

theorem routerSend (h : Joint client router clientSent routerSent up down)
    (hrouter : Gone router routerSent) (hturn : Turn false router kind router') :
    Joint client router' clientSent (routerSent ++ [kind]) up (down ++ [kind]) := by
  by_cases hleft : Left routerSent
  · obtain ⟨rfl, rfl, rfl, habort⟩ := hrouter.turn hleft hturn
    exact h.routerFarewell (hleft.resolve_left habort)
  · by_cases habort : kind = .abort
    · subst habort
      cases hturn with
      | abort hphase => exact h.routerAbort hleft hphase
    · by_cases hgoodbye : kind = .goodbye
      · subst hgoodbye
        exact h.routerGoodbye hleft hturn
      · exact h.routerStay hturn hleft habort hgoodbye

/-! A message arrives. -/

theorem routerAccepts (h : Joint client router clientSent routerSent (kind :: up) down)
    (hrouter : Gone router routerSent) (hturn : Turn true router kind router') :
    Joint client router' clientSent routerSent up down := by
  have hsub : ∀ k ∈ up, k ∈ kind :: up := fun k hk => List.mem_cons_of_mem _ hk
  refine ⟨fun k hk => h.up_sent k (hsub k hk), h.down_sent, fun hc hr => ?_, fun ha hr => ?_,
    fun hg hr => ?_, fun hl hn => ?_, h.clientPartedBoth,
    fun hg hl k hk => h.routerPartedBoth hg hl k (hsub k hk)⟩
  · obtain ⟨p, hup, hdown, -, -, hopen⟩ := h.neither hc hr
    have hrest := drain_next hturn hup
    have habort : kind ≠ .abort := fun e => hc (.inl (h.up_sent _ (e ▸ List.mem_cons_self ..)))
    have hgoodbye : kind ≠ .goodbye := fun e => hc (.inr (h.up_sent _ (e ▸ List.mem_cons_self ..)))
    obtain ⟨h₁, h₂⟩ := hturn.stays habort hgoodbye
    exact ⟨p, hrest, hdown, h₁, h₂, hopen⟩
  · obtain ⟨l, p, hl₁, hl₂, hl, hup⟩ := h.clientAborted ha hr
    cases l with
    | nil =>
        obtain hnil | ⟨hsingle, -⟩ := hup
        · cases hnil
        · obtain ⟨-, rfl⟩ := List.cons.inj hsingle
          exact ⟨[], router', List.not_mem_nil, List.not_mem_nil, rfl, .inl rfl⟩
    | cons k l =>
        rw [List.mem_cons, not_or] at hl₁ hl₂
        obtain ⟨q, hturn', hrest⟩ := drain_cons.mp hl
        obtain rfl : kind = k := by obtain h | ⟨h, -⟩ := hup <;> exact (List.cons.inj h).1
        obtain rfl : q = router' := Turn.unique hturn' hturn
        obtain ⟨h₁, h₂⟩ := hturn.stays (Ne.symm hl₁.1) (Ne.symm hl₂.1)
        refine ⟨l, p, hl₁.2, hl₂.2, hrest, hup.imp (fun h => (List.cons.inj h).2) fun h => ?_⟩
        exact ⟨(List.cons.inj h.1).2, h₁, h₂⟩
  · obtain ⟨hup, hlate, hall⟩ := h.clientParted hg hr
    have hrest := drain_next hturn hup
    exact ⟨hrest, (hturn.late hlate).2, hall⟩
  · -- a router that has left refuses what a client that has not left sends
    exfalso
    obtain ⟨rfl, rfl, -, habort⟩ := hrouter.turn hl hturn
    have hg := hl.resolve_left habort
    have := ((h.routerLeft hl hn).2 hg).2 .goodbye (List.mem_cons_self ..)
    cases this

/-- The router drops a message, which then has crossed something. -/
theorem routerRefuses (h : Joint client router clientSent routerSent (kind :: up) down)
    (hturn : ∀ p, ¬ Turn true router kind p) :
    Joint client router clientSent routerSent up down := by
  have hsub : ∀ k ∈ up, k ∈ kind :: up := fun k hk => List.mem_cons_of_mem _ hk
  refine ⟨fun k hk => h.up_sent k (hsub k hk), h.down_sent, fun hc hr => ?_, fun ha hr => ?_,
    fun hg hr => ?_, fun hl hn => ?_, h.clientPartedBoth,
    fun hg hl k hk => h.routerPartedBoth hg hl k (hsub k hk)⟩
  · obtain ⟨p, hup, -⟩ := h.neither hc hr
    exact absurd hup (drain_refused hturn _)
  · obtain ⟨l, p, hl₁, hl₂, hl, hup⟩ := h.clientAborted ha hr
    cases l with
    | nil =>
        obtain hnil | ⟨hsingle, -⟩ := hup
        · cases hnil
        · obtain ⟨-, rfl⟩ := List.cons.inj hsingle
          exact ⟨[], router, List.not_mem_nil, List.not_mem_nil, rfl, .inl rfl⟩
    | cons k l =>
        obtain ⟨q, hturn', -⟩ := drain_cons.mp hl
        obtain rfl : kind = k := by obtain h | ⟨h, -⟩ := hup <;> exact (List.cons.inj h).1
        exact absurd hturn' (hturn q)
  · obtain ⟨hup, -⟩ := h.clientParted hg hr
    exact absurd hup (drain_refused hturn _)
  · obtain ⟨hdown, hparted⟩ := h.routerLeft hl hn
    exact ⟨hdown, fun hg => ⟨(hparted hg).1, fun k hk => (hparted hg).2 k (hsub k hk)⟩⟩

theorem clientAccepts (h : Joint client router clientSent routerSent up (kind :: down))
    (hclient : Gone client clientSent) (hturn : Turn false client kind client') :
    Joint client' router clientSent routerSent up down := by
  have hsub : ∀ k ∈ down, k ∈ kind :: down := fun k hk => List.mem_cons_of_mem _ hk
  refine ⟨h.up_sent, fun k hk => h.down_sent k (hsub k hk), fun hc hr => ?_, h.clientAborted,
    fun hg hr => ?_, fun hl hn => ?_, fun hg hl k hk => h.clientPartedBoth hg hl k (hsub k hk),
    h.routerPartedBoth⟩
  · obtain ⟨p, hup, hdown, hr₁, hr₂, -⟩ := h.neither hc hr
    have hrest := drain_next hturn hdown
    have habort : kind ≠ .abort := fun e => hr (.inl (h.down_sent _ (e ▸ List.mem_cons_self ..)))
    have hgoodbye : kind ≠ .goodbye := fun e =>
      hr (.inr (h.down_sent _ (e ▸ List.mem_cons_self ..)))
    exact ⟨p, hup, hrest, hr₁, hr₂, hturn.stays habort hgoodbye⟩
  · exfalso
    obtain ⟨rfl, rfl, -⟩ := hclient.turn (.inr hg) hturn
    cases (h.clientParted hg hr).2.2 .goodbye (List.mem_cons_self ..)
  · obtain ⟨⟨p, hdown⟩, hparted⟩ := h.routerLeft hl hn
    have hrest := drain_next hturn hdown
    refine ⟨⟨p, hrest⟩, fun hg => ⟨?_, (hparted hg).2⟩⟩
    rw [hrest, ← hdown]
    exact (hparted hg).1

theorem clientRefuses (h : Joint client router clientSent routerSent up (kind :: down))
    (hturn : ∀ p, ¬ Turn false client kind p) :
    Joint client router clientSent routerSent up down := by
  have hsub : ∀ k ∈ down, k ∈ kind :: down := fun k hk => List.mem_cons_of_mem _ hk
  refine ⟨h.up_sent, fun k hk => h.down_sent k (hsub k hk), fun hc hr => ?_, h.clientAborted,
    fun hg hr => ?_, fun hl hn => ?_, fun hg hl k hk => h.clientPartedBoth hg hl k (hsub k hk),
    h.routerPartedBoth⟩
  · obtain ⟨p, -, hdown, -⟩ := h.neither hc hr
    exact absurd hdown (drain_refused hturn _)
  · obtain ⟨hup, hlate, hall⟩ := h.clientParted hg hr
    exact ⟨hup, hlate, fun k hk => hall k (hsub k hk)⟩
  · obtain ⟨⟨p, hdown⟩, -⟩ := h.routerLeft hl hn
    exact absurd hdown (drain_refused hturn _)

end Joint

end Profile

end Connectanum
