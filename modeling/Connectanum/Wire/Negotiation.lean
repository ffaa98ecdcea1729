import Connectanum.Wire.Turns

/-!
# Wire — Negotiation

A client and a router, each behind its own `FlatBuffersSessionProfile`, over two FIFO channels.

The two gates agree on the whole bootstrap.  They part when messages cross: a peer that has sent
GOODBYE or ABORT no longer accepts what its partner was still allowed to send (`Crossed`), and a
router that has sent WELCOME no longer accepts ABORT.

`negotiation_sound`: no application message is accepted before offer and acknowledgement, and an
arriving message is accepted exactly when it has not crossed.
-/

namespace Connectanum

open Checks Collections

namespace Profile

/-! ### The two peers -/

structure Party where
  profile : FlatBuffersSessionProfile
  /-- The messages that the gate has let out, as they left. -/
  sent : List Message := []
  accepted : List Message := []

/-- The messages in flight are oldest first. -/
structure Link where
  client : Party := { profile := { client := true } }
  router : Party := { profile := { client := false } }
  toRouter : List Message := []
  toClient : List Message := []

inductive Event where
  /-- `up`: from the client to the router. -/
  | send (up : Bool) (message : Message) (advertise : Bool)
  | deliver (up : Bool)

section

variable (encodable : Dict → Bool)

/-- A message that the gate refuses is not sent, and the profile stays. -/
def Party.send (party : Party) (message : Message) (advertise : Bool) : Option (Party × Message) :=
  match party.profile.prepareOutgoing encodable message advertise with
  | .ok (profile, message) => some ({ party with profile, sent := party.sent ++ [message] }, message)
  | .error _ => none

def Party.receive (party : Party) (message : Message) : Party :=
  match party.profile.acceptIncoming encodable message with
  | .ok profile => { party with profile, accepted := party.accepted ++ [message] }
  | .error _ => party

def Link.step (link : Link) : Event → Link
  | .send true message advertise =>
      match link.client.send encodable message advertise with
      | some (client, message) => { link with client, toRouter := link.toRouter ++ [message] }
      | none => link
  | .send false message advertise =>
      match link.router.send encodable message advertise with
      | some (router, message) => { link with router, toClient := link.toClient ++ [message] }
      | none => link
  | .deliver true =>
      match link.toRouter with
      | [] => link
      | message :: rest =>
          { link with router := link.router.receive encodable message, toRouter := rest }
  | .deliver false =>
      match link.toClient with
      | [] => link
      | message :: rest =>
          { link with client := link.client.receive encodable message, toClient := rest }

def Link.run (events : List Event) : Link := events.foldl (Link.step encodable) {}

end

def Link.flight (link : Link) (up : Bool) : List Message :=
  if up then link.toRouter else link.toClient

def Link.receiver (link : Link) (up : Bool) : Party := if up then link.router else link.client

/-- How many GOODBYE messages the peer has sent and accepted. -/
def Party.goodbyes (party : Party) : Nat :=
  (party.sent.map Message.kind).count .goodbye + (party.accepted.map Message.kind).count .goodbye

def Party.hasSent (party : Party) (kind : Kind) : Bool := (party.sent.map Message.kind).contains kind

/-- The message meets a peer that has meanwhile moved on. -/
def Crossed (receiver : Party) (message : Message) : Prop :=
  receiver.hasSent .abort = true ∨
  (message.kind = .application ∧ receiver.hasSent .goodbye = true) ∨
  (message.kind = .abort ∧ receiver.hasSent .welcome = true) ∨
  (message.kind = .goodbye ∧ 2 ≤ receiver.goodbyes)

/-! ### Runs -/

/-- The kinds of the messages that a peer has sent or accepted. -/
def Party.seen (party : Party) (kind : Kind) : Prop :=
  kind ∈ party.sent.map Message.kind ∨ kind ∈ party.accepted.map Message.kind

def Party.Accounted (party : Party) : Prop := Traced party.seen party.goodbyes party.profile.phase

theorem Party.Accounted.gone {party : Party} (h : party.Accounted) :
    Gone party.profile.phase (party.sent.map Message.kind) where
  aborted ha := (h.aborted (.inl ha)).1
  left hl := hl.elim (fun ha => .inr (h.aborted (.inl ha)).1) fun hg => (h.parted (.inl hg)).2
  exclusive ha hg := (h.aborted (.inl ha)).2 (h.parted (.inl hg)).1

section

variable {encodable : Dict → Bool} {party party' : Party} {message message' : Message}

/-- What a peer sends takes a turn in its own direction. -/
structure Party.Sent (encodable : Dict → Bool) (party party' : Party) (message : Message) :
    Prop where
  turn : Turn party.profile.client party.profile.phase message.kind party'.profile.phase
  client : party'.profile.client = party.profile.client
  sent : party'.sent = party.sent ++ [message]
  accepted : party'.accepted = party.accepted
  sound : Sound encodable message

theorem Party.send_spec {advertise : Bool}
    (h : party.send encodable message advertise = some (party', message')) :
    Party.Sent encodable party party' message' := by
  unfold Party.send at h
  split at h
  · next profile m hprepare =>
    cases h
    obtain ⟨hturn, hclient, hkind, hsound⟩ := FlatBuffersSessionProfile.prepare_turn hprepare
    rw [Bool.true_beq, ← hkind, turn_iff] at hturn
    exact ⟨hturn, hclient, rfl, rfl, hsound⟩
  · cases h

theorem Party.Sent.accounted (h : Party.Sent encodable party party' message)
    (hp : party.Accounted) : party'.Accounted := by
  have hcount : party'.goodbyes = party.goodbyes + if message.kind = .goodbye then 1 else 0 := by
    simp only [Party.goodbyes, h.sent, h.accepted, List.map_append, List.count_append,
      List.map_cons, List.map_nil, List.count_singleton, beq_iff_eq]
    omega
  rw [Party.Accounted, hcount]
  refine hp.turn h.turn fun k => ?_
  simp only [Party.seen, h.sent, h.accepted, List.map_append, List.mem_append, List.map_cons,
    List.map_nil, List.mem_singleton]
  tauto

/-- A message arrives and takes its turn, or is dropped. -/
inductive Party.Received (encodable : Dict → Bool) (party : Party) (message : Message) :
    Party → Prop where
  | taken (phase : Phase)
      (turn : Turn (!party.profile.client) party.profile.phase message.kind phase)
      (ok : party.profile.acceptIncoming encodable message = .ok { party.profile with phase }) :
      Received encodable party message
        { party with
          profile := { party.profile with phase }, accepted := party.accepted ++ [message] }
  | dropped (turn : ∀ p, ¬ Turn (!party.profile.client) party.profile.phase message.kind p)
      (error : ∀ profile, party.profile.acceptIncoming encodable message ≠ .ok profile) :
      Received encodable party message party

theorem Party.receive_spec (hsound : Sound encodable message) :
    Party.Received encodable party message (party.receive encodable message) := by
  cases hturn : turn (!party.profile.client) party.profile.phase message.kind with
  | some phase =>
      have hok := FlatBuffersSessionProfile.acceptIncoming_of_turn hsound hturn
      rw [Party.receive, hok]
      exact .taken phase (turn_iff.mp hturn) hok
  | none =>
      have herror : ∀ profile, party.profile.acceptIncoming encodable message ≠ .ok profile := by
        intro profile hok
        obtain ⟨⟨profile', m⟩, hprepare, -⟩ := except_map_eq_ok hok
        obtain ⟨h, -⟩ := FlatBuffersSessionProfile.prepare_turn hprepare
        rw [Bool.false_beq, hturn] at h
        cases h
      have hstay : party.receive encodable message = party := by
        unfold Party.receive
        split
        · next profile hok => exact absurd hok (herror profile)
        · rfl
      rw [hstay]
      refine .dropped (fun p hp => ?_) herror
      rw [turn_iff.mpr hp] at hturn
      cases hturn

theorem Party.Received.accounted (h : Party.Received encodable party message party')
    (hp : party.Accounted) : party'.Accounted := by
  cases h with
  | dropped => exact hp
  | taken phase hturn =>
      have hcount : Party.goodbyes { party with
            profile := { party.profile with phase }, accepted := party.accepted ++ [message] } =
          party.goodbyes + if message.kind = .goodbye then 1 else 0 := by
        simp only [Party.goodbyes, List.map_append, List.count_append, List.map_cons,
          List.map_nil, List.count_singleton, beq_iff_eq]
        omega
      rw [Party.Accounted, hcount]
      refine hp.turn hturn fun k => ?_
      simp only [Party.seen, List.map_append, List.mem_append, List.map_cons, List.map_nil,
        List.mem_singleton, or_assoc]

/-- What holds of the two peers and their channels in every run. -/
structure Link.Ok (encodable : Dict → Bool) (link : Link) : Prop where
  client_side : link.client.profile.client = true
  router_side : link.router.profile.client = false
  client_accounted : link.client.Accounted
  router_accounted : link.router.Accounted
  client_heard : ∀ m ∈ link.client.accepted, m ∈ link.router.sent ∧ Sound encodable m
  router_heard : ∀ m ∈ link.router.accepted, m ∈ link.client.sent ∧ Sound encodable m
  toRouter_sound : ∀ m ∈ link.toRouter, Sound encodable m
  toClient_sound : ∀ m ∈ link.toClient, Sound encodable m
  toRouter_sent : ∀ m ∈ link.toRouter, m ∈ link.client.sent
  toClient_sent : ∀ m ∈ link.toClient, m ∈ link.router.sent
  client_silent : Kind.welcome ∉ link.client.sent.map Message.kind
  router_silent : Kind.hello ∉ link.router.sent.map Message.kind
  joint : Joint link.client.profile.phase link.router.profile.phase
    (link.client.sent.map Message.kind) (link.router.sent.map Message.kind)
    (link.toRouter.map Message.kind) (link.toClient.map Message.kind)

namespace Link.Ok

variable {link : Link}

theorem start : Link.Ok encodable {} := by
  refine ⟨rfl, rfl, ?_, ?_, fun _ h => (nomatch h), fun _ h => (nomatch h),
    fun _ h => (nomatch h), fun _ h => (nomatch h), fun _ h => (nomatch h),
    fun _ h => (nomatch h), by simp, by simp, Joint.start⟩
  all_goals
    have hseen : ∀ profile, Party.seen { profile } = fun _ => False := by
      intro profile
      funext k
      simp [Party.seen]
    rw [Party.Accounted, hseen]
    exact Traced.start

theorem forall_mem_snoc {α : Type} {P : α → Prop} {l : List α} {x : α} (h : ∀ a ∈ l, P a)
    (hx : P x) : ∀ a ∈ l ++ [x], P a := by
  intro a ha
  rw [List.mem_append, List.mem_singleton] at ha
  exact ha.elim (h a) fun e => e ▸ hx

theorem clientSends (h : Link.Ok encodable link) {client : Party}
    (hsent : Party.Sent encodable link.client client message) :
    Link.Ok encodable { link with client, toRouter := link.toRouter ++ [message] } := by
  have hturn := hsent.turn
  rw [h.client_side] at hturn
  have hjoint := h.joint.clientSend h.client_accounted.gone h.router_accounted.gone hturn
  refine ⟨hsent.client.trans h.client_side, h.router_side, hsent.accounted h.client_accounted,
    h.router_accounted, ?_, ?_, forall_mem_snoc h.toRouter_sound hsent.sound, h.toClient_sound, ?_,
    h.toClient_sent, ?_, h.router_silent, ?_⟩
  · rw [hsent.accepted]
    exact h.client_heard
  · intro m hm
    rw [hsent.sent]
    exact (h.router_heard m hm).imp (List.mem_append_left _) id
  · rw [hsent.sent]
    exact forall_mem_snoc (fun m hm => List.mem_append_left _ (h.toRouter_sent m hm)) (by simp)
  · simp only [hsent.sent, List.map_append, List.mem_append, not_or]
    refine ⟨h.client_silent, fun hw => ?_⟩
    rw [List.map_singleton, List.mem_singleton] at hw
    exact not_turn_welcome (hw ▸ hturn)
  · simpa only [hsent.sent, List.map_append, List.map_cons, List.map_nil] using hjoint

theorem routerSends (h : Link.Ok encodable link) {router : Party}
    (hsent : Party.Sent encodable link.router router message) :
    Link.Ok encodable { link with router, toClient := link.toClient ++ [message] } := by
  have hturn := hsent.turn
  rw [h.router_side] at hturn
  have hjoint := h.joint.routerSend h.router_accounted.gone hturn
  refine ⟨h.client_side, hsent.client.trans h.router_side, h.client_accounted,
    hsent.accounted h.router_accounted, ?_, ?_, h.toRouter_sound,
    forall_mem_snoc h.toClient_sound hsent.sound, h.toRouter_sent, ?_, h.client_silent, ?_, ?_⟩
  · intro m hm
    rw [hsent.sent]
    exact (h.client_heard m hm).imp (List.mem_append_left _) id
  · rw [hsent.accepted]
    exact h.router_heard
  · rw [hsent.sent]
    exact forall_mem_snoc (fun m hm => List.mem_append_left _ (h.toClient_sent m hm)) (by simp)
  · simp only [hsent.sent, List.map_append, List.mem_append, not_or]
    refine ⟨h.router_silent, fun hw => ?_⟩
    rw [List.map_singleton, List.mem_singleton] at hw
    exact not_turn_hello (hw ▸ hturn)
  · simpa only [hsent.sent, List.map_append, List.map_cons, List.map_nil] using hjoint

theorem routerReceives (h : Link.Ok encodable link) {rest : List Message} {router : Party}
    (hflight : link.toRouter = message :: rest)
    (hreceived : Party.Received encodable link.router message router) :
    Link.Ok encodable { link with router, toRouter := rest } := by
  have hsound := h.toRouter_sound
  have hjoint := h.joint
  rw [hflight] at hsound
  rw [hflight, List.map_cons] at hjoint
  have hsent : message ∈ link.client.sent := h.toRouter_sent message (hflight ▸ List.mem_cons_self ..)
  have haccounted := hreceived.accounted h.router_accounted
  cases hreceived with
  | dropped hturn =>
      rw [h.router_side] at hturn
      exact { h with
        toRouter_sound := fun m hm => hsound m (List.mem_cons_of_mem _ hm)
        toRouter_sent := fun m hm => h.toRouter_sent m (hflight ▸ List.mem_cons_of_mem _ hm)
        joint := hjoint.routerRefuses hturn }
  | taken phase hturn =>
      rw [h.router_side] at hturn
      exact { h with
        router_accounted := haccounted
        router_heard := forall_mem_snoc h.router_heard ⟨hsent, hsound _ (List.mem_cons_self ..)⟩
        toRouter_sound := fun m hm => hsound m (List.mem_cons_of_mem _ hm)
        toRouter_sent := fun m hm => h.toRouter_sent m (hflight ▸ List.mem_cons_of_mem _ hm)
        joint := hjoint.routerAccepts h.router_accounted.gone hturn }

theorem clientReceives (h : Link.Ok encodable link) {rest : List Message} {client : Party}
    (hflight : link.toClient = message :: rest)
    (hreceived : Party.Received encodable link.client message client) :
    Link.Ok encodable { link with client, toClient := rest } := by
  have hsound := h.toClient_sound
  have hjoint := h.joint
  rw [hflight] at hsound
  rw [hflight, List.map_cons] at hjoint
  have hsent : message ∈ link.router.sent := h.toClient_sent message (hflight ▸ List.mem_cons_self ..)
  have haccounted := hreceived.accounted h.client_accounted
  cases hreceived with
  | dropped hturn =>
      rw [h.client_side] at hturn
      exact { h with
        toClient_sound := fun m hm => hsound m (List.mem_cons_of_mem _ hm)
        toClient_sent := fun m hm => h.toClient_sent m (hflight ▸ List.mem_cons_of_mem _ hm)
        joint := hjoint.clientRefuses hturn }
  | taken phase hturn =>
      rw [h.client_side] at hturn
      exact { h with
        client_accounted := haccounted
        client_heard := forall_mem_snoc h.client_heard ⟨hsent, hsound _ (List.mem_cons_self ..)⟩
        toClient_sound := fun m hm => hsound m (List.mem_cons_of_mem _ hm)
        toClient_sent := fun m hm => h.toClient_sent m (hflight ▸ List.mem_cons_of_mem _ hm)
        joint := hjoint.clientAccepts h.client_accounted.gone hturn }

/-- **One event keeps the account.** -/
theorem step (h : Link.Ok encodable link) (event : Event) :
    Link.Ok encodable (link.step encodable event) := by
  cases event with
  | send up m advertise =>
      cases up with
      | true =>
          simp only [Link.step]
          split
          · next client m' hsend => exact h.clientSends (Party.send_spec hsend)
          · exact h
      | false =>
          simp only [Link.step]
          split
          · next router m' hsend => exact h.routerSends (Party.send_spec hsend)
          · exact h
  | deliver up =>
      cases up with
      | true =>
          simp only [Link.step]
          split
          · exact h
          · next m rest hflight =>
            have hsound := h.toRouter_sound m (hflight ▸ List.mem_cons_self ..)
            exact h.routerReceives hflight (Party.receive_spec hsound)
      | false =>
          simp only [Link.step]
          split
          · exact h
          · next m rest hflight =>
            have hsound := h.toClient_sound m (hflight ▸ List.mem_cons_self ..)
            exact h.clientReceives hflight (Party.receive_spec hsound)

theorem run (events : List Event) : Link.Ok encodable (Link.run encodable events) := by
  have hfrom : ∀ link, Link.Ok encodable link →
      Link.Ok encodable (events.foldl (Link.step encodable) link) := by
    induction events with
    | nil => exact fun _ h => h
    | cons event rest ih => exact fun link h => ih _ (h.step event)
  exact hfrom {} start

end Link.Ok

/-! ### What is accepted -/

theorem Party.hasSent_iff {kind : Kind} :
    party.hasSent kind = true ↔ kind ∈ party.sent.map Message.kind :=
  List.contains_iff_mem

/-- A message that takes its turn has not crossed anything. -/
theorem not_crossed_of_turn {up : Bool} {phase : Phase} (h : party.Accounted)
    (hturn : Turn up party.profile.phase message.kind phase) : ¬ Crossed party message := by
  rintro (ha | ⟨hkind, hg⟩ | ⟨hkind, hw⟩ | ⟨hkind, hn⟩)
  · have hclosed := (h.aborted (.inl (Party.hasSent_iff.mp ha))).1
    exact not_turn_closed (hclosed ▸ hturn)
  · have hphase := (h.parted (.inl (Party.hasSent_iff.mp hg))).2
    generalize party.profile.phase = p at hturn hphase
    rw [hkind] at hturn
    cases hturn
    simp at hphase
  · have hseen : party.seen .welcome := .inl (Party.hasSent_iff.mp hw)
    have hphase := h.bootstrap
    generalize party.profile.phase = p at hturn hphase
    rw [hkind] at hturn
    cases hturn with
    | abort hb => exact hphase hb hseen
  · have hnone := h.none
    have hone := h.one
    generalize party.profile.phase = p at hturn hnone hone
    rw [hkind] at hturn
    cases hturn with
    | goodbye => have := hnone (by decide) (by decide); omega
    | farewell => have := hone rfl; omega

/-- A peer that has said GOODBYE takes one more. -/
theorem turn_goodbye_of_not_crossed {up : Bool} (h : party.Accounted)
    (hsent : Kind.goodbye ∈ party.sent.map Message.kind) (hkind : message.kind = .goodbye)
    (hcrossed : ¬ Crossed party message) :
    Turn up party.profile.phase message.kind .closed := by
  obtain ⟨hwelcome, hphase⟩ := h.parted (.inl hsent)
  have hclosing : party.profile.phase = .closing := by
    refine hphase.resolve_right fun hclosed => ?_
    obtain ha | hn := h.two hclosed
    · exact (h.aborted ha).2 hwelcome
    · exact hcrossed (.inr (.inr (.inr ⟨hkind, Nat.le_of_eq hn.symm⟩)))
  rw [hclosing, hkind]
  exact .farewell

namespace Link.Ok

variable {link : Link} {rest : List Message}

/-- The router has seen a WELCOME only when it has sent one. -/
theorem welcome_sent (h : Link.Ok encodable link) (hseen : link.router.seen .welcome) :
    Kind.welcome ∈ link.router.sent.map Message.kind := by
  refine hseen.resolve_right fun hw => ?_
  obtain ⟨m, hm, hkind⟩ := List.mem_map.mp hw
  exact h.client_silent (List.mem_map.mpr ⟨m, (h.router_heard m hm).1, hkind⟩)

theorem router_turn (h : Link.Ok encodable link) (hflight : link.toRouter = message :: rest)
    (hcrossed : ¬ Crossed link.router message) :
    ∃ p, Turn true link.router.profile.phase message.kind p := by
  have hjoint := h.joint
  rw [hflight, List.map_cons] at hjoint
  have hnoAbort : Kind.abort ∉ link.router.sent.map Message.kind := fun ha =>
    hcrossed (.inl (Party.hasSent_iff.mpr ha))
  have hnoWelcome : message.kind = .abort → Kind.welcome ∉ link.router.sent.map Message.kind :=
    fun hk hw => hcrossed (.inr (.inr (.inl ⟨hk, Party.hasSent_iff.mpr hw⟩)))
  by_cases hparted : Kind.goodbye ∈ link.router.sent.map Message.kind
  · have hnotApp : message.kind ≠ .application := fun hk =>
      hcrossed (.inr (.inl ⟨hk, Party.hasSent_iff.mpr hparted⟩))
    by_cases hclient : Left (link.client.sent.map Message.kind)
    · obtain hk | hk | hk := hjoint.routerPartedBoth hparted hclient _ (List.mem_cons_self ..)
      · exact absurd hk hnotApp
      · exact ⟨_, turn_goodbye_of_not_crossed h.router_accounted hparted hk hcrossed⟩
      · have hw := h.welcome_sent (h.router_accounted.parted (.inl hparted)).1
        exact absurd hw (hnoWelcome hk)
    · have hall := ((hjoint.routerLeft (.inr hparted) hclient).2 hparted).2
      exact absurd (hall _ (List.mem_cons_self ..)) hnotApp
  · have hstay : ¬ Left (link.router.sent.map Message.kind) := fun hl => hl.elim hnoAbort hparted
    by_cases haborted : Kind.abort ∈ link.client.sent.map Message.kind
    · obtain ⟨l, p, -, -, hl, hup⟩ := hjoint.clientAborted haborted hstay
      cases l with
      | cons k l =>
          obtain ⟨q, hturn, -⟩ := drain_cons.mp hl
          obtain rfl : message.kind = k := by
            obtain h | ⟨h, -⟩ := hup <;> exact (List.cons.inj h).1
          exact ⟨q, hturn⟩
      | nil =>
          obtain hnil | ⟨hsingle, hr₁, hr₂⟩ := hup
          · cases hnil
          · obtain ⟨hk, -⟩ := List.cons.inj hsingle
            have hne : link.router.profile.phase ≠ .established := fun he =>
              hnoWelcome hk (h.welcome_sent (h.router_accounted.welcomed (.inl he)))
            rw [hk]
            refine ⟨.closed, .abort ?_⟩
            generalize link.router.profile.phase = phase at hr₁ hr₂ hne
            cases phase <;> first | rfl | contradiction
    · by_cases hgoodbye : Kind.goodbye ∈ link.client.sent.map Message.kind
      · obtain ⟨q, hturn, -⟩ := drain_cons.mp (hjoint.clientParted hgoodbye hstay).1
        exact ⟨q, hturn⟩
      · obtain ⟨p, hup, -⟩ := hjoint.neither (fun hl => hl.elim haborted hgoodbye) hstay
        obtain ⟨q, hturn, -⟩ := drain_cons.mp hup
        exact ⟨q, hturn⟩

theorem client_turn (h : Link.Ok encodable link) (hflight : link.toClient = message :: rest)
    (hcrossed : ¬ Crossed link.client message) :
    ∃ p, Turn false link.client.profile.phase message.kind p := by
  have hjoint := h.joint
  rw [hflight, List.map_cons] at hjoint
  have hnoAbort : Kind.abort ∉ link.client.sent.map Message.kind := fun ha =>
    hcrossed (.inl (Party.hasSent_iff.mpr ha))
  by_cases hrouter : Left (link.router.sent.map Message.kind)
  · by_cases hparted : Kind.goodbye ∈ link.client.sent.map Message.kind
    · obtain hk | hk := hjoint.clientPartedBoth hparted hrouter _ (List.mem_cons_self ..)
      · exact absurd (.inr (.inl ⟨hk, Party.hasSent_iff.mpr hparted⟩)) hcrossed
      · exact ⟨_, turn_goodbye_of_not_crossed h.client_accounted hparted hk hcrossed⟩
    · obtain ⟨⟨p, hdown⟩, -⟩ := hjoint.routerLeft hrouter fun hl => hl.elim hnoAbort hparted
      obtain ⟨q, hturn, -⟩ := drain_cons.mp hdown
      exact ⟨q, hturn⟩
  · by_cases hparted : Kind.goodbye ∈ link.client.sent.map Message.kind
    · have hk := (hjoint.clientParted hparted hrouter).2.2 _ (List.mem_cons_self ..)
      exact absurd (.inr (.inl ⟨hk, Party.hasSent_iff.mpr hparted⟩)) hcrossed
    · obtain ⟨p, -, hdown, -⟩ := hjoint.neither (fun hl => hl.elim hnoAbort hparted) hrouter
      obtain ⟨q, hturn, -⟩ := drain_cons.mp hdown
      exact ⟨q, hturn⟩

/-- A client that has seen WELCOME took an acknowledgement, after the router took its offer. -/
theorem acknowledged (h : Link.Ok encodable link) (hseen : link.client.seen .welcome) :
    (∃ m ∈ link.router.accepted, m.kind = .hello ∧ Carries clientRoles m.dictionary) ∧
    (∃ m ∈ link.client.accepted, m.kind = .welcome ∧ Carries routerRoles m.dictionary) := by
  obtain ⟨w, hw, hkind⟩ := List.mem_map.mp (hseen.resolve_left h.client_silent)
  obtain ⟨hsent, hsound⟩ := h.client_heard w hw
  have hhello := h.router_accounted.offered (.inl (List.mem_map.mpr ⟨w, hsent, hkind⟩))
  obtain ⟨m, hm, hmkind⟩ := List.mem_map.mp (hhello.resolve_left h.router_silent)
  have hmsound := (h.router_heard m hm).2
  simp only [Sound, hkind] at hsound
  simp only [Sound, hmkind] at hmsound
  exact ⟨⟨m, hm, hmkind, hmsound.2⟩, ⟨w, hw, hkind, hsound.2⟩⟩

/-- An arriving message is accepted exactly when it takes a turn. -/
theorem accepts_iff (h : Link.Ok encodable link) {up : Bool}
    (hflight : link.flight up = message :: rest) :
    (∃ profile, (link.receiver up).profile.acceptIncoming encodable message = .ok profile) ↔
      ∃ p, Turn up (link.receiver up).profile.phase message.kind p := by
  have hmem : message ∈ link.flight up := hflight ▸ List.mem_cons_self ..
  have hsound : Sound encodable message := by
    cases up with
    | true => exact h.toRouter_sound _ hmem
    | false => exact h.toClient_sound _ hmem
  have hside : (!(link.receiver up).profile.client) = up := by
    cases up with
    | true => rw [Link.receiver, if_pos rfl, h.router_side]; rfl
    | false => rw [Link.receiver, if_neg Bool.false_ne_true, h.client_side]; rfl
  have hspec : Party.Received encodable (link.receiver up) message _ := Party.receive_spec hsound
  generalize (link.receiver up).receive encodable message = party' at hspec
  cases hspec with
  | taken phase hturn hok =>
      rw [hside] at hturn
      exact ⟨fun _ => ⟨phase, hturn⟩, fun _ => ⟨_, hok⟩⟩
  | dropped hturn herror =>
      rw [hside] at hturn
      exact ⟨fun ⟨profile, hok⟩ => absurd hok (herror profile),
        fun ⟨p, hp⟩ => absurd hp (hturn p)⟩

end Link.Ok

/-- **Negotiation.**  In every run, an arriving message is accepted exactly when it has not crossed
a message that ends the session (or, for an ABORT, a WELCOME); and an application message is
accepted only after the offer and the acknowledgement. -/
theorem negotiation_sound (encodable : Dict → Bool) (events : List Event) (up : Bool)
    (message : Message) (rest : List Message)
    (hflight : (Link.run encodable events).flight up = message :: rest) :
    let link := Link.run encodable events
    let accepted := ∃ profile,
      (link.receiver up).profile.acceptIncoming encodable message = .ok profile
    (message.kind = .application → accepted →
      (∃ m ∈ link.router.accepted, m.kind = .hello ∧ Carries clientRoles m.dictionary) ∧
      (∃ m ∈ link.client.accepted, m.kind = .welcome ∧ Carries routerRoles m.dictionary)) ∧
    (accepted ↔ ¬ Crossed (link.receiver up) message) := by
  intro link accepted
  have hlink : Link.Ok encodable link := Link.Ok.run events
  have haccepted : accepted ↔ _ := hlink.accepts_iff hflight
  refine ⟨fun hkind haccept => hlink.acknowledged ?_, ?_⟩
  · cases up with
    | true =>
        -- the client could send it only when established
        have hmem : message ∈ link.flight true := hflight ▸ List.mem_cons_self ..
        have hsent := hlink.toRouter_sent message hmem
        exact hlink.client_accounted.application (.inl (List.mem_map.mpr ⟨message, hsent, hkind⟩))
    | false =>
        obtain ⟨p, hturn⟩ := haccepted.mp haccept
        rw [hkind] at hturn
        exact hlink.client_accounted.welcomed (.inl hturn.of_application)
  · rw [haccepted]
    cases up with
    | true =>
        exact ⟨fun ⟨_, hturn⟩ => not_crossed_of_turn hlink.router_accounted hturn,
          hlink.router_turn hflight⟩
    | false =>
        exact ⟨fun ⟨_, hturn⟩ => not_crossed_of_turn hlink.client_accounted hturn,
          hlink.client_turn hflight⟩

end

/-! ### A crossing -/

/-- A bootstrap message of a peer with one role. -/
def bootstrapMessage (kind : Kind) (role : String) : Message :=
  { kind, dictionary := .insert .empty "roles" (.dict [(role, .dict [])]) }

/-- HELLO and WELCOME, sent and delivered. -/
def opening : List Event :=
  [.send true (bootstrapMessage .hello "subscriber") true, .deliver true,
    .send false (bootstrapMessage .welcome "broker") true, .deliver false]

/-- An EVENT is in flight when the client says GOODBYE. -/
def crossing : List Event :=
  opening ++ [.send false { kind := .application } true, .send true { kind := .goodbye } true]

theorem opened_application :
    let link := Link.run (fun _ => true) (opening ++ [.send false { kind := .application } true])
    link.flight false = [{ kind := .application }] ∧
    (∃ profile, (link.receiver false).profile.acceptIncoming (fun _ => true)
      { kind := .application } = .ok profile) ∧
    ¬ Crossed (link.receiver false) { kind := .application } := by
  intro link
  have hflight : link.flight false = [{ kind := .application }] := rfl
  have hok : ∃ profile, (link.receiver false).profile.acceptIncoming (fun _ => true)
      { kind := .application } = .ok profile := ⟨⟨true, .established⟩, rfl⟩
  exact ⟨hflight, hok, (negotiation_sound _ _ _ _ _ hflight).2.mp hok⟩

/-- The router's gate lets an EVENT out, and the client's gate refuses it. -/
theorem event_crosses_goodbye :
    let link := Link.run (fun _ => true) crossing
    link.flight false = [{ kind := .application }] ∧
    (link.receiver false).profile.acceptIncoming (fun _ => true) { kind := .application } =
      .error (.state "Unexpected application message during FlatBuffers session setup") :=
  ⟨rfl, rfl⟩

end Profile

end Connectanum
