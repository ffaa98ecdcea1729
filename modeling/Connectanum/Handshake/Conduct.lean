import Connectanum.Handshake.Lifecycle

/-!
# Handshake — Conduct

What the events of a connection say once the automaton of `Lifecycle` accepts them (`Conducted`),
and the proof that it accepts those of every connection of a worker, in every run under
`LifecycleSafe`.
-/

namespace Connectanum

open Collections Machine

/-! ### Events that matter -/

namespace HandshakeEvent

def isOpen : HandshakeEvent → Bool
  | sessionOpen _ _ _ => true
  | _ => false

def isClose : HandshakeEvent → Bool
  | sessionClose _ _ => true
  | _ => false

def isAbort : HandshakeEvent → Bool
  | sent (.abort _) => true
  | _ => false

def isLeaving : HandshakeEvent → Bool
  | leaving => true
  | _ => false

def isFarewell : HandshakeEvent → Bool
  | farewell => true
  | _ => false

def isAnonymous : HandshakeEvent → Bool
  | anonymous _ => true
  | _ => false

def starts (a : Nat) : HandshakeEvent → Bool
  | started b _ _ => b == a
  | _ => false

/-- The authenticator succeeded. -/
def accepts (a : Nat) : HandshakeEvent → Bool
  | verdict b (.success _) => b == a
  | _ => false

/-- The authenticator is done with: a session rests on it, or it was told to abort. -/
def settles (a : Nat) : HandshakeEvent → Bool
  | sessionOpen _ _ (some b) | onAbort b => b == a
  | _ => false

/-- The event opens this session. -/
def opensSession (u : String) (id : Nat) : HandshakeEvent → Bool
  | sessionOpen v session _ => v == u && session.id == id
  | _ => false

end HandshakeEvent

open HandshakeEvent

/-- What the events of one connection keep to. -/
structure Conducted (es : List HandshakeEvent) : Prop where
  opensOnce : es.countP isOpen ≤ 1
  opensRightly : ∀ xs ys u session a, es = xs ++ .sessionOpen u session a :: ys →
    xs.any isAbort = false ∧ xs.any isLeaving = false ∧
    (a = none → xs.any isAnonymous = true) ∧ ∀ n, a = some n → xs.any (accepts n) = true
  closesOnce : es.countP isClose ≤ 1
  closesRightly : ∀ xs ys u id, es = xs ++ .sessionClose u id :: ys →
    xs.any (opensSession u id) = true
  startsOnce : ∀ a, es.countP (starts a) ≤ 1
  settlesOnce : ∀ a, es.countP (settles a) ≤ es.countP (starts a)

namespace Lifecycle

variable {l l' : Lifecycle} {e : HandshakeEvent}

/-- What one event does to the automaton, part by part. -/
theorem next_spec (h : l.next e = some l') :
    (l'.anonymous = true ↔ l.anonymous = true ∨ e.isAnonymous = true) ∧
    (l'.aborted = true ↔ l.aborted = true ∨ e.isAbort = true) ∧
    (l'.leaving = true ↔ l.leaving = true ∨ e.isLeaving = true) ∧
    (l'.farewell = true ↔ l.farewell = true ∨ e.isFarewell = true) ∧
    (∀ a, a ∈ l'.accepted ↔ a ∈ l.accepted ∨ e.accepts a = true) ∧
    (∀ u id, l'.opened = some (u, id) ↔ l.opened = some (u, id) ∨ e.opensSession u id = true) ∧
    l'.opened.isSome.toNat = l.opened.isSome.toNat + e.isOpen.toNat ∧
    l'.closed.toNat = l.closed.toNat + e.isClose.toNat ∧
    (∀ a, l'.started.count a = l.started.count a + (e.starts a).toNat) ∧
    (∀ a, l'.settled.count a = l.settled.count a + (e.settles a).toNat) := by
  have hcount : ∀ (a b : Nat) (t : List Nat), (a :: t).count b = t.count b + (a == b).toNat := by
    intro a b t
    rw [List.count_cons]
    cases a == b <;> rfl
  cases e with
  | sent frame =>
      cases frame <;> cases h <;>
        simp [isAnonymous, isAbort, isLeaving, isFarewell, accepts, opensSession, isOpen, isClose,
          starts, settles]
  | verdict a result =>
      have hmem : ∀ b, b ∈ a :: l.accepted ↔ b ∈ l.accepted ∨ (a == b) = true := by
        intro b
        rw [List.mem_cons, or_comm, beq_iff_eq, eq_comm]
      cases result <;> cases h <;>
        simp [isAnonymous, isAbort, isLeaving, isFarewell, accepts, opensSession, isOpen, isClose,
          starts, settles, hmem, -List.mem_cons]
  | started a realmUri authId =>
      rw [next, Option.ite_none_left_eq_some] at h
      cases h.2
      simp [isAnonymous, isAbort, isLeaving, isFarewell, accepts, opensSession, isOpen, isClose,
        starts, settles, hcount]
  | onAbort a =>
      rw [next, Option.ite_none_right_eq_some] at h
      cases h.2
      simp [isAnonymous, isAbort, isLeaving, isFarewell, accepts, opensSession, isOpen, isClose,
        starts, settles, hcount]
  | sessionOpen u session a =>
      cases a with
      | none =>
          rw [next, Option.ite_none_right_eq_some] at h
          simp only [Bool.and_eq_true, isFresh_iff] at h
          obtain ⟨⟨⟨⟨hopened, -⟩, -⟩, -⟩, h⟩ := h
          cases h
          simp [isAnonymous, isAbort, isLeaving, isFarewell, accepts, opensSession, isOpen, isClose,
            starts, settles, hopened]
      | some a =>
          rw [next, Option.ite_none_right_eq_some] at h
          simp only [Bool.and_eq_true, isFresh_iff] at h
          obtain ⟨⟨⟨⟨⟨hopened, -⟩, -⟩, -⟩, -⟩, h⟩ := h
          cases h
          simp [isAnonymous, isAbort, isLeaving, isFarewell, accepts, opensSession, isOpen, isClose,
            starts, settles, hopened, hcount]
  | sessionClose u id =>
      rw [next, Option.ite_none_right_eq_some] at h
      simp only [Bool.and_eq_true, Bool.not_eq_true'] at h
      obtain ⟨⟨hclosed, -⟩, h⟩ := h
      cases h
      simp [isAnonymous, isAbort, isLeaving, isFarewell, accepts, opensSession, isOpen, isClose,
        starts, settles, hclosed]
  | _ =>
      cases h
      simp [isAnonymous, isAbort, isLeaving, isFarewell, accepts, opensSession, isOpen, isClose,
        starts, settles]

/-- The automaton's state says which events it has accepted. -/
structure Tracks (l : Lifecycle) (es : List HandshakeEvent) : Prop where
  anonymous : l.anonymous = true ↔ es.any isAnonymous = true
  aborted : l.aborted = true ↔ es.any isAbort = true
  leaving : l.leaving = true ↔ es.any isLeaving = true
  farewell : l.farewell = true ↔ es.any isFarewell = true
  accepted : ∀ a, a ∈ l.accepted ↔ es.any (accepts a) = true
  opened : ∀ u id, l.opened = some (u, id) ↔ es.any (opensSession u id) = true
  opens : es.countP isOpen = l.opened.isSome.toNat
  closes : es.countP isClose = l.closed.toNat
  starts : ∀ a, es.countP (starts a) = l.started.count a
  settles : ∀ a, es.countP (settles a) = l.settled.count a

theorem tracks {es : List HandshakeEvent} (h : es.foldlM next {} = some l) : Tracks l es := by
  have hflag : ∀ {g : Lifecycle → Prop} {q : HandshakeEvent → Bool}, ¬ g {} →
      (∀ l e l', next l e = some l' → (g l' ↔ g l ∨ q e = true)) → (g l ↔ es.any q = true) := by
    intro g q h₀ hnext
    rw [monitor_flag hnext h, List.any_eq_true]
    exact or_iff_right h₀
  have hcount : ∀ {m : Lifecycle → Nat} {q : HandshakeEvent → Bool}, m {} = 0 →
      (∀ l e l', next l e = some l' → m l' = m l + (q e).toNat) → es.countP q = m l := by
    intro m q h₀ hnext
    rw [monitor_count hnext h, h₀, Nat.zero_add]
  exact
    { anonymous := hflag nofun fun _ _ _ hn => (next_spec hn).1
      aborted := hflag nofun fun _ _ _ hn => (next_spec hn).2.1
      leaving := hflag nofun fun _ _ _ hn => (next_spec hn).2.2.1
      farewell := hflag nofun fun _ _ _ hn => (next_spec hn).2.2.2.1
      accepted := fun a => hflag nofun fun _ _ _ hn => (next_spec hn).2.2.2.2.1 a
      opened := fun u id => hflag nofun fun _ _ _ hn => (next_spec hn).2.2.2.2.2.1 u id
      opens := hcount rfl fun _ _ _ hn => (next_spec hn).2.2.2.2.2.2.1
      closes := hcount rfl fun _ _ _ hn => (next_spec hn).2.2.2.2.2.2.2.1
      starts := fun a => hcount rfl fun _ _ _ hn => (next_spec hn).2.2.2.2.2.2.2.2.1 a
      settles := fun a => hcount rfl fun _ _ _ hn => (next_spec hn).2.2.2.2.2.2.2.2.2 a }

/-- Authenticators are started and settled once, and settled only after they were started. -/
def Orderly (l : Lifecycle) : Prop :=
  l.started.Nodup ∧ l.settled.Nodup ∧ ∀ a ∈ l.settled, a ∈ l.started

theorem Orderly.next (ho : l.Orderly) (h : l.next e = some l') : l'.Orderly := by
  obtain ⟨hstarted, hsettled, hsub⟩ := ho
  have hsettle : ∀ {a}, l.Unsettled a → (a :: l.settled).Nodup ∧
      ∀ b ∈ a :: l.settled, b ∈ l.started := by
    rintro a ⟨hs, hns⟩
    refine ⟨List.nodup_cons.mpr ⟨hns, hsettled⟩, fun b hb => ?_⟩
    rcases List.mem_cons.mp hb with rfl | hb
    · exact hs
    · exact hsub b hb
  cases e with
  | sent frame => cases frame <;> cases h <;> exact ⟨hstarted, hsettled, hsub⟩
  | verdict a result => cases result <;> cases h <;> exact ⟨hstarted, hsettled, hsub⟩
  | started a realmUri authId =>
      rw [Lifecycle.next, Option.ite_none_left_eq_some] at h
      cases h.2
      exact ⟨List.nodup_cons.mpr ⟨h.1, hstarted⟩, hsettled, fun b hb =>
        List.mem_cons_of_mem _ (hsub b hb)⟩
  | onAbort a =>
      rw [Lifecycle.next, Option.ite_none_right_eq_some] at h
      cases h.2
      exact ⟨hstarted, hsettle h.1⟩
  | sessionOpen u session a =>
      cases a with
      | none =>
          rw [Lifecycle.next, Option.ite_none_right_eq_some] at h
          cases h.2
          exact ⟨hstarted, hsettled, hsub⟩
      | some a =>
          rw [Lifecycle.next, Option.ite_none_right_eq_some] at h
          cases h.2
          have hun := (Bool.and_eq_true_iff.mp h.1).2
          exact ⟨hstarted, hsettle (of_decide_eq_true hun)⟩
  | sessionClose u id =>
      rw [Lifecycle.next, Option.ite_none_right_eq_some] at h
      cases h.2
      exact ⟨hstarted, hsettled, hsub⟩
  | _ =>
      cases h
      exact ⟨hstarted, hsettled, hsub⟩

theorem orderly {es : List HandshakeEvent} (h : es.foldlM next {} = some l) : l.Orderly :=
  monitor_invariant (fun _ _ _ ho hn => ho.next hn) h
    ⟨List.nodup_nil, List.nodup_nil, fun _ ha => by cases ha⟩

/-- **What the automaton accepts is conducted rightly.** -/
theorem conducted {es : List HandshakeEvent} (h : es.foldlM next {} = some l) : Conducted es := by
  have ht := tracks h
  obtain ⟨hstarted, hsettled, hsub⟩ := orderly h
  refine ⟨?_, ?_, ?_, ?_, ?_, ?_⟩
  · rw [ht.opens]
    exact Bool.toNat_le _
  · rintro xs ys u session a rfl
    obtain ⟨l₁, l₂, hxs, hn, -⟩ := monitor_split h
    have ht₁ := tracks hxs
    have hopens : l₁.isFresh = true ∧ l₁.leaving = false ∧ (a = none → l₁.anonymous = true) ∧
        ∀ n, a = some n → n ∈ l₁.accepted := by
      cases a with
      | none =>
          rw [next, Option.ite_none_right_eq_some] at hn
          simp only [Bool.and_eq_true, Bool.not_eq_true'] at hn
          exact ⟨hn.1.1.1, hn.1.1.2, fun _ => hn.1.2, by simp⟩
      | some a =>
          rw [next, Option.ite_none_right_eq_some] at hn
          simp only [Bool.and_eq_true, Bool.not_eq_true', decide_eq_true_eq] at hn
          refine ⟨hn.1.1.1.1, hn.1.1.1.2, by simp, ?_⟩
          rintro n ⟨⟩
          exact hn.1.1.2
    obtain ⟨hfresh, hleaving, hanon, hacc⟩ := hopens
    have haborted := (isFresh_iff.mp hfresh).2
    refine ⟨?_, ?_, fun ha => ht₁.anonymous.mp (hanon ha), fun n hn => (ht₁.accepted n).mp (hacc n hn)⟩
    · rw [Bool.eq_false_iff, ne_eq, ← ht₁.aborted, haborted]
      exact Bool.false_ne_true
    · rw [Bool.eq_false_iff, ne_eq, ← ht₁.leaving, hleaving]
      exact Bool.false_ne_true
  · rw [ht.closes]
    exact Bool.toNat_le _
  · rintro xs ys u id rfl
    obtain ⟨l₁, l₂, hxs, hn, -⟩ := monitor_split h
    rw [next, Option.ite_none_right_eq_some] at hn
    simp only [Bool.and_eq_true, decide_eq_true_eq] at hn
    exact ((tracks hxs).opened u id).mp hn.1.2
  · intro a
    rw [ht.starts a]
    exact List.nodup_iff_count_le_one.mp hstarted a
  · intro a
    rw [ht.starts a, ht.settles a]
    by_cases ha : a ∈ l.settled
    · have hsettle := List.count_eq_one_of_mem hsettled ha
      have hstart := List.count_eq_one_of_mem hstarted (hsub a ha)
      exact Nat.le_of_eq (hsettle.trans hstart.symm)
    · rw [List.count_eq_zero_of_not_mem ha]
      exact Nat.zero_le _

end Lifecycle

/-! ### Leaving -/

/-- A handler keeps what it relies on when the connection leaves, unless it is about to start an
authenticator. -/
theorem HandlerOk.leave {l l' : Lifecycle} {s s' : HandshakeState} {h : Option Await}
    (hok : HandlerOk l s h) (hstarting : ∀ w ∈ h, w.isStarting = false)
    (hl : l'.leaving = true) (ha : s'.authenticator = none)
    (hphase : s'.phase = s.phase ∨ s'.phase = .aborted) (hfresh : l'.isFresh = l.isFresh)
    (hlive : l.isLive = false → l'.isLive = false) (haborted : l'.aborted = l.aborted)
    (hanonymous : l'.anonymous = l.anonymous) (haccepted : l'.accepted = l.accepted)
    (hfarewell : l'.farewell = l.farewell) : HandlerOk l' s' h := by
  have hno : ∀ {P : Prop}, l'.leaving = false → P := by
    intro P hf
    rw [hl] at hf
    cases hf
  have hshake : Await.InHandshake l s → Await.InHandshake l' s' :=
    fun hi => ⟨hfresh.trans hi.1, hno⟩
  refine ⟨fun w hw => ?_, fun _ _ => ha, fun hf => ?_⟩
  · have hfits := hok.fits w hw
    have hstart := hstarting w hw
    cases w with
    | abortFirst reason exit => exact ⟨ha, hlive hfits.2⟩
    | abortInSend reason exit => exact ⟨ha, hlive hfits.2⟩
    | allocateAnonymous details => exact ⟨hshake hfits.1, hanonymous.trans hfits.2.1, ha⟩
    | allocate realm method details => cases hstart
    | create realm method details => cases hstart
    | onHello a method => exact ⟨hshake hfits.1, hno⟩
    | onAuthenticate a => exact ⟨hshake hfits.1, hno⟩
    | reallocate a method success inHello =>
        refine ⟨⟨hshake hfits.1.1, hno⟩, ?_⟩
        rw [haccepted]
        exact hfits.2
    | sending previous next =>
        cases next with
        | abort exit => exact ⟨ha, hlive hfits.2.1, haborted.trans hfits.2.2⟩
        | challenge inHello => exact ⟨hshake hfits.1, hno⟩
        | welcomeAnonymous id details =>
            exact ⟨hshake hfits.1, hanonymous.trans hfits.2.1, ha, hno⟩
        | welcome a id details success inHello =>
            refine ⟨⟨hshake hfits.1.1, hno⟩, ?_, hno⟩
            rw [haccepted]
            exact hfits.2.1
        | goodbye => exact ha
    | closing => exact ha
  · rw [hfarewell] at hf
    rcases hok.farewell hf with hclosing | ⟨hp, hw⟩
    · exact .inl hclosing
    · refine .inr ⟨?_, hw⟩
      rcases hphase with hs | hs
      · exact hs.trans hp
      · exact hs

/-- The connection leaves: nothing is left to settle. -/
theorem Core.leave {l : Lifecycle} {s : HandshakeState} {busy : Bool} (h : Core l s busy)
    (ha : s.authenticator = none) : Core { l with leaving := true } s true :=
  ⟨fun _ => .inl rfl, fun _ => ha, h.held, h.pending, h.live, h.entered, h.past, h.ended, h.realm,
    h.shut⟩

namespace Scene

/-- What a removal or drain leaves behind at its awaits. -/
structure LeavingOk (l : Lifecycle) (h : Option Await) (segment : Segment) (l' : Lifecycle) :
    Prop where
  reaches : segment.1.Reaches l l'
  core : ∀ busy, (segment.2.isSome = true → busy = true) → Core l' segment.1.state busy
  handler : HandlerOk l' segment.1.state h
  next : ∀ w ∈ segment.2, w.isClosing = true
  leaving : l'.leaving = true
  kept : l'.started = l.started

variable {l : Lifecycle} {s : HandshakeState} {tracker : AuthSecurityTracker} {busy : Bool}
  {h : Option Await}

theorem leave_close_ok (hc : Core l s busy) (hok : HandlerOk l s h)
    (hstarting : ∀ w ∈ h, w.isStarting = false) :
    ∃ l', LeavingOk l h (closeSession ⟨s, tracker, [.leaving]⟩) l' ∧
      (closeSession ⟨s, tracker, [.leaving]⟩).2.isSome = true := by
  have hstate : Core l (⟨s, tracker, [.leaving]⟩ : Scene).state busy := hc
  obtain ⟨t, hcore, ha, hphase, hreach⟩ := abortPending_spec hstate
  refine ⟨{ l with settled := t, leaving := true }, ⟨?_, ?_, ?_, ?_, rfl, rfl⟩, rfl⟩
  · exact hreach l { l with leaving := true } rfl rfl rfl
  · intro b hb
    rw [hb rfl]
    exact hcore.leave ha
  · exact hok.leave hstarting rfl ha (.inl hphase) rfl id rfl rfl rfl rfl
  · rintro _ ⟨⟩
    rfl

theorem leave_goodbye_ok (hc : Core l s busy) (hok : HandlerOk l s h)
    (hstarting : ∀ w ∈ h, w.isStarting = false) (reason : String) :
    ∃ l', LeavingOk l h (handleGoodbye ⟨s, tracker, [.leaving]⟩ reason) l' ∧
      (handleGoodbye ⟨s, tracker, [.leaving]⟩ reason).2.isSome = true := by
  unfold Scene.handleGoodbye
  split
  · next ho =>
    have ha := hc.released_of_opened ho
    refine ⟨{ l with leaving := true }, ⟨rfl, ?_, ?_, ?_, rfl, rfl⟩, rfl⟩
    · intro b hb
      rw [hb rfl]
      exact hc.leave ha
    · exact hok.leave hstarting rfl ha (.inl rfl) rfl id rfl rfl rfl rfl
    · rintro _ ⟨⟩
      rfl
  · exact leave_close_ok hc hok hstarting

/-- Without an authenticator, there is nothing to abort. -/
theorem abortPending_of_released (sc : Scene) (ha : sc.state.authenticator = none) :
    sc.abortPending = sc := by
  unfold abortPending
  rw [ha]
  split <;> rfl

/-- A removal or drain goes on. -/
theorem leave_resume_ok {w : Await} {host : Host} {now fresh : Nat} {outcome : Outcome}
    {segment : Segment} (hc : Core l s true) (hleaving : l.leaving = true) (hok : HandlerOk l s h)
    (hw : w.isClosing = true)
    (hr : resume ⟨s, tracker, []⟩ host now fresh w outcome = some segment) :
    ∃ l', LeavingOk l h segment l' := by
  have ha := hc.released hleaving
  have hstarting : ∀ w ∈ h, w.isStarting = false := by
    intro w hw
    have hfits := hok.fits w hw
    cases w with
    | allocate realm method details =>
        rw [hfits.2.1] at hleaving
        cases hleaving
    | create realm method details =>
        rw [hfits.2.1] at hleaving
        cases hleaving
    | _ => rfl
  have hclose : LeavingOk l h (closeSession ⟨s, tracker, []⟩) l := by
    have heq : closeSession ⟨s, tracker, []⟩ = (⟨s, tracker, []⟩, some .closing) := by
      unfold closeSession
      rw [abortPending_of_released _ ha]
    rw [heq]
    refine ⟨rfl, fun b hb => ?_, hok, ?_, hleaving, rfl⟩
    · rw [hb rfl]
      exact hc
    · rintro _ ⟨⟩
      rfl
  cases w with
  | sending previous next =>
      cases next with
      | goodbye =>
          refine ⟨l, ?_⟩
          cases outcome with
          | done =>
              simp only [resume] at hr
              split at hr <;> cases hr <;> exact hclose
          | thrown => cases hr; exact hclose
          | allocated id => cases hr
          | result result => cases hr
      | _ => cases hw
  | closing =>
      cases outcome with
      | done =>
          cases hr
          have hholds : Holds l ⟨s, tracker, []⟩ l true := ⟨rfl, hc, rfl, rfl⟩
          obtain ⟨b, hclosed, hstate, hlive⟩ := hholds.finishClose ha
          have hauth : (finishClose ⟨s, tracker, []⟩).state.authenticator = none := by rw [hstate]
          refine ⟨{ l with closed := b }, hclosed.reaches, fun _ _ => ?_, ?_,
            (fun w hw => by cases hw), hleaving, rfl⟩
          · have hcore := hclosed.core
            refine ⟨fun _ => .inr ?_, hcore.released, hcore.held, hcore.pending, hcore.live,
              hcore.entered, hcore.past, hcore.ended, hcore.realm, hcore.shut⟩
            change (finishClose ⟨s, tracker, []⟩).state.realmUri = none
            rw [hstate]
          · refine hok.leave hstarting hleaving hauth (.inr ?_) rfl (fun _ => hlive) rfl rfl rfl rfl
            change (finishClose ⟨s, tracker, []⟩).state.phase = .aborted
            rw [hstate]
      | thrown => cases hr
      | allocated id => cases hr
      | result result => cases hr
  | _ => cases hw

end Scene

/-! ### The worker -/

namespace HandshakeMessage

def isGoodbye : HandshakeMessage → Bool
  | goodbye => true
  | _ => false

end HandshakeMessage

namespace HandshakeWorker

def lifecycleSafe (w : HandshakeWorker) : HandshakeInput → Bool
  | .message c message _ _ =>
      w.handles c ||
        match w.peerOf c with
        | some p => p.closers.isEmpty && (message.isGoodbye || p.state.phase != .opened)
        | none => !w.knows c
  | .remove c | .drain c _ => (w.peerOf c).all fun p => p.handler.all fun a => !a.isStarting
  | .handler ref _ =>
      (w.peers.get? ref).all fun p => p.closers.isEmpty || p.handler.all fun a => !a.isWelcome
  | .add _ _ _ | .closer _ _ _ => true

/-- No HELLO or AUTHENTICATE comes to an open session, and no message once the connection leaves;
a connection does not begin to leave while its handler is about to start an authenticator; and a
handler does not go on after its WELCOME while the connection is leaving. -/
def LifecycleSafe (w : HandshakeWorker) (input : Nat × HandshakeInput) : Prop :=
  w.lifecycleSafe input.2 = true

instance (w : HandshakeWorker) (input : Nat × HandshakeInput) :
    Decidable (w.LifecycleSafe input) :=
  inferInstanceAs (Decidable (_ = true))

/-- A state object agrees with what happened on it; `n` bounds the authenticators, and `tabled`
says that the worker has the object in its table. -/
structure PeerOk (n : Nat) (tabled : Prop) (l : Lifecycle) (p : Peer) : Prop where
  core : Core l p.state (!p.closers.isEmpty)
  handler : HandlerOk l p.state p.handler
  closing : ∀ x ∈ p.closers, x.1.isClosing = true
  leaving : p.closers ≠ [] → l.leaving = true
  started : ∀ a ∈ l.started, a < n
  present : tabled → (l.leaving = true → p.closers ≠ []) ∧ ∀ x ∈ p.closers, x.2 = true

structure WorkerOk (w : HandshakeWorker) : Prop where
  peers : ∀ ref p, w.peers.get? ref = some p →
    ∃ l, (w.eventsOf ref).foldlM Lifecycle.next {} = some l ∧
      PeerOk w.nextAuthenticator (w.connectionStates.get? p.host.connectionId = some ref) l p
  logged : ∀ e ∈ w.log, (w.peers.get? e.ref).isSome = true
  mapped : ∀ c ref, w.connectionStates.get? c = some ref →
    ∃ p, w.peers.get? ref = some p ∧ p.host.connectionId = c
  distinct : ∀ ref ref' p p', w.peers.get? ref = some p → w.peers.get? ref' = some p' →
    p.host.connectionId = p'.host.connectionId → ref = ref'

theorem PeerOk.mono {n n' : Nat} {tabled tabled' : Prop} {l : Lifecycle} {p : Peer}
    (h : PeerOk n tabled l p) (hn : n ≤ n') (ht : tabled' → tabled) : PeerOk n' tabled' l p :=
  ⟨h.core, h.handler, h.closing, h.leaving, fun a ha => Nat.lt_of_lt_of_le (h.started a ha) hn,
    fun h' => h.present (ht h')⟩

theorem workerOk_initial (settings : AuthSettings) : WorkerOk (initial settings) where
  peers ref p hp := by cases hp
  logged e he := by cases he
  mapped c ref hc := by cases hc
  distinct ref ref' p p' hp := by cases hp

variable {w : HandshakeWorker} {ref : Ref} {p : Peer}

/-- A step on one state object. -/
theorem WorkerOk.settle (h : WorkerOk w) (hp : w.peers.get? ref = some p) {now n : Nat}
    {table : LinkedMap Nat Ref} {sc : Scene} {f : Peer → Peer} (hn : w.nextAuthenticator ≤ n)
    (htable : ∀ c r, table.get? c = some r → w.connectionStates.get? c = some r)
    (hhost : (f { p with state := sc.state }).host = p.host)
    (hok : ∀ l, (w.eventsOf ref).foldlM Lifecycle.next {} = some l →
      PeerOk w.nextAuthenticator (w.connectionStates.get? p.host.connectionId = some ref) l p →
      ∃ l', sc.Reaches l l' ∧ PeerOk n (table.get? p.host.connectionId = some ref) l'
        (f { p with state := sc.state })) :
    WorkerOk (HandshakeWorker.settle
      { w with connectionStates := table, nextAuthenticator := n } ref now sc f) := by
  have hget : ∀ r, (HandshakeWorker.settle
      { w with connectionStates := table, nextAuthenticator := n } ref now sc f).peers.get? r =
      if r = ref then some (f { p with state := sc.state }) else w.peers.get? r := by
    intro r
    rw [get?_settle, hp]
    rfl
  -- The other objects are where they were, with the connection they had.
  have hbefore : ∀ r q, (HandshakeWorker.settle
      { w with connectionStates := table, nextAuthenticator := n } ref now sc f).peers.get? r =
      some q → ∃ q', w.peers.get? r = some q' ∧ q'.host = q.host := by
    intro r q hq
    rw [hget] at hq
    split at hq
    · next hr =>
      subst hr
      cases hq
      exact ⟨p, hp, hhost.symm⟩
    · exact ⟨q, hq, rfl⟩
  refine ⟨fun r q hq => ?_, fun e he => ?_, fun c r hc => ?_, fun r r' q q' hq hq' hc => ?_⟩
  · rw [eventsOf_settle]
    rw [hget] at hq
    split at hq
    · next hr =>
      subst hr
      cases hq
      obtain ⟨l, hl, hpeer⟩ := h.peers r p hp
      obtain ⟨l', hreach, hpeer'⟩ := hok l hl hpeer
      refine ⟨l', ?_, ?_⟩
      · rw [if_pos rfl, List.foldlM_append]
        exact Option.bind_eq_some_iff.mpr ⟨l, hl, hreach⟩
      · rw [hhost]
        exact hpeer'
    · next hr =>
      obtain ⟨l, hl, hpeer⟩ := h.peers r q hq
      rw [if_neg hr]
      exact ⟨l, hl, hpeer.mono hn (htable _ _)⟩
  · rw [hget]
    split
    · rfl
    · next hr =>
      rcases mem_log_settle he with he | ⟨he, -⟩
      · exact h.logged e he
      · exact absurd he hr
  · obtain ⟨q, hq, hqc⟩ := h.mapped c r (htable c r hc)
    rw [hget]
    split
    · next hr =>
      subst hr
      rw [hp] at hq
      cases hq
      exact ⟨_, rfl, by rw [hhost]; exact hqc⟩
    · exact ⟨q, hq, hqc⟩
  · obtain ⟨x, hx, hxh⟩ := hbefore r q hq
    obtain ⟨x', hx', hxh'⟩ := hbefore r' q' hq'
    refine h.distinct r r' x x' hx hx' ?_
    rw [hxh, hxh', hc]

/-- A new connection. -/
theorem WorkerOk.addPeer (h : WorkerOk w) {c : Nat} (hc : w.knows c = false)
    (listener : ListenerAuth) (flatBuffers : Bool) :
    WorkerOk (w.addPeer c listener flatBuffers) := by
  have hnext := w.peers.get?_next
  have htable : ∀ c' r, (w.addPeer c listener flatBuffers).connectionStates.get? c' = some r →
      (c' = c ∧ r = w.peers.next) ∨ (c' ≠ c ∧ w.connectionStates.get? c' = some r) := by
    intro c' r hr
    change (w.connectionStates.insert c w.peers.next).get? c' = some r at hr
    rw [LinkedMap.get?_insert] at hr
    split at hr
    · next hcc =>
      cases hr
      exact .inl ⟨hcc, rfl⟩
    · next hcc => exact .inr ⟨hcc, hr⟩
  refine ⟨fun r q hq => ?_, fun e he => ?_, fun c' r hr => ?_, fun r r' q q' hq hq' hqc => ?_⟩
  · rw [get?_addPeer] at hq
    split at hq
    · next hr =>
      subst hr
      cases hq
      have hnone : (w.addPeer c listener flatBuffers).eventsOf w.peers.next = [] := by
        have : w.log.filter (fun e => e.ref == w.peers.next) = [] :=
          List.filter_eq_nil_iff.mpr fun e he hr => by
            have hsome := h.logged e he
            rw [beq_iff_eq.mp hr, hnext] at hsome
            cases hsome
        unfold eventsOf
        rw [show (w.addPeer c listener flatBuffers).log = w.log from rfl, this]
        rfl
      rw [hnone]
      refine ⟨{}, rfl, ⟨?_, ⟨(fun w hw => by cases hw), fun _ _ => rfl, by simp⟩,
        (fun x hx => by cases hx), by simp, (fun a ha => by cases ha),
        fun _ => ⟨by simp, fun x hx => by cases hx⟩⟩⟩
      refine ⟨by simp, by simp, by simp, ?_, by simp, by simp, by simp, by simp, by simp, by simp⟩
      rintro a ⟨ha, -⟩
      cases ha
    · next hr =>
      obtain ⟨l, hl, hpeer⟩ := h.peers r q hq
      refine ⟨l, hl, hpeer.mono (Nat.le_refl _) fun hr' => ?_⟩
      rcases htable _ _ hr' with ⟨-, hr''⟩ | ⟨-, hr''⟩
      · exact absurd hr'' hr
      · exact hr''
  · rw [get?_addPeer]
    split
    · rfl
    · exact h.logged e he
  · rw [get?_addPeer]
    rcases htable c' r hr with ⟨rfl, rfl⟩ | ⟨-, hr'⟩
    · rw [if_pos rfl]
      exact ⟨_, rfl, rfl⟩
    · obtain ⟨q, hq, hqc⟩ := h.mapped c' r hr'
      rw [if_neg (Nat.ne_of_lt (Heap.lt_next hq))]
      exact ⟨q, hq, hqc⟩
  · rw [get?_addPeer] at hq hq'
    split at hq <;> split at hq'
    · next hr hr' => exact hr.trans hr'.symm
    · cases hq
      exact absurd hqc.symm (knows_eq_false hc hq')
    · cases hq'
      exact absurd hqc (knows_eq_false hc hq)
    · exact h.distinct r r' q q' hq hq' hqc

/-- A message is taken up. -/
theorem WorkerOk.receive (h : WorkerOk w) (hp : w.peers.get? ref = some p)
    (hidle : p.handler = none) (hclosers : p.closers = [])
    (htable : w.connectionStates.get? p.host.connectionId = some ref) {message : HandshakeMessage}
    (hsafe : message.isGoodbye = true ∨ p.state.phase ≠ .opened) (now : Nat) :
    WorkerOk (w.receive now ref message) := by
  unfold HandshakeWorker.receive
  rw [hp]
  refine h.settle hp (Nat.le_refl _) (fun _ _ hr => hr) rfl fun l _ hpeer => ?_
  have hcore := hpeer.core
  rw [hclosers] at hcore
  have hleaving : l.leaving = false := by
    cases hl : l.leaving with
    | false => rfl
    | true => exact absurd hclosers ((hpeer.present htable).1 hl)
  have hhandler := hpeer.handler
  rw [hidle] at hhandler
  have hfarewell : l.farewell = true → p.state.phase = .aborted := by
    intro hf
    rcases hhandler.farewell hf with ⟨w', hw', -⟩ | ⟨hphase, -⟩
    · cases hw'
    · exact hphase
  have hholds : Scene.Holds l ⟨p.state, w.tracker, []⟩ l false := ⟨rfl, hcore, rfl, rfl⟩
  have hbegin : Scene.SegmentOk l false (begin w.settings p w.tracker now message) := by
    cases message with
    | hello hello profileAccepted =>
        exact Scene.handleHello_ok hholds (hhandler.idle rfl) hfarewell
          (hsafe.resolve_left nofun) hleaving ..
    | authenticate signature profileAccepted =>
        exact Scene.handleAuthenticate_ok hholds hfarewell (hsafe.resolve_left nofun) ..
    | goodbye =>
        have hbye : Core { l with farewell := true } p.state false :=
          ⟨hcore.gone, hcore.released, hcore.held, hcore.pending, hcore.live, hcore.entered,
            hcore.past, hcore.ended, hcore.realm, hcore.shut⟩
        have hholds' : Scene.Holds l ⟨p.state, w.tracker, [.farewell]⟩ { l with farewell := true }
            false := ⟨rfl, hbye, rfl, rfl⟩
        exact Scene.handleGoodbye_ok hholds' _
  obtain ⟨l', hholds', hok⟩ := hbegin
  refine ⟨l', hholds'.reaches, ?_, hok, ?_, ?_, ?_, ?_⟩
  · change Core l' _ (!p.closers.isEmpty)
    rw [hclosers]
    exact hholds'.core
  · intro x hx
    change x ∈ p.closers at hx
    rw [hclosers] at hx
    cases hx
  · exact fun hne => absurd hclosers hne
  · intro a ha
    rw [hholds'.kept.1] at ha
    exact hpeer.started a ha
  · intro _
    refine ⟨fun hl => ?_, fun x hx => ?_⟩
    · rw [hholds'.kept.2, hleaving] at hl
      cases hl
    · change x ∈ p.closers at hx
      rw [hclosers] at hx
      cases hx

/-- A removal or drain begins. -/
theorem WorkerOk.leave (h : WorkerOk w) (hp : w.peers.get? ref = some p)
    (hmapped : w.connectionStates.get? p.host.connectionId = some ref)
    {table : LinkedMap Nat Ref} (htable : ∀ c r, table.get? c = some r →
      w.connectionStates.get? c = some r) {segment : Segment} {isDrain : Bool}
    (hdrain : isDrain = false → table.get? p.host.connectionId = none)
    (hsegment : ∀ l, Core l p.state (!p.closers.isEmpty) → HandlerOk l p.state p.handler →
      ∃ l', Scene.LeavingOk l p.handler segment l' ∧ segment.2.isSome = true) (now : Nat) :
    WorkerOk (HandshakeWorker.leave { w with connectionStates := table } now ref segment
      isDrain) := by
  refine h.settle hp (Nat.le_refl _) htable rfl fun l _ hpeer => ?_
  obtain ⟨l', hleave, hsome⟩ := hsegment l hpeer.core hpeer.handler
  obtain ⟨await, hawait⟩ := Option.isSome_iff_exists.mp hsome
  have hclosers : p.closers ++ segment.2.toList.map (fun a => (a, isDrain)) =
      p.closers ++ [(await, isDrain)] := by rw [hawait]; rfl
  have hne : p.closers ++ [(await, isDrain)] ≠ [] := by simp
  refine ⟨l', hleave.reaches, ?_, hleave.handler, ?_, fun _ => hleave.leaving, ?_, ?_⟩
  · change Core l' segment.1.state (!(p.closers ++ segment.2.toList.map
      fun a => (a, isDrain)).isEmpty)
    rw [hclosers]
    exact hleave.core _ fun _ => by simp
  · intro x hx
    change x ∈ p.closers ++ segment.2.toList.map (fun a => (a, isDrain)) at hx
    rw [hclosers] at hx
    rcases List.mem_append.mp hx with hx | hx
    · exact hpeer.closing x hx
    · rw [List.mem_singleton.mp hx]
      exact hleave.next await hawait
  · rw [hleave.kept]
    exact hpeer.started
  · intro ht
    change (l'.leaving = true → p.closers ++ segment.2.toList.map (fun a => (a, isDrain)) ≠ []) ∧
      ∀ x ∈ p.closers ++ segment.2.toList.map (fun a => (a, isDrain)), x.2 = true
    rw [hclosers]
    refine ⟨fun _ => hne, fun x hx => ?_⟩
    rcases List.mem_append.mp hx with hx | hx
    · exact (hpeer.present hmapped).2 x hx
    · rw [List.mem_singleton.mp hx]
      cases hd : isDrain with
      | true => rfl
      | false =>
          rw [hdrain hd] at ht
          cases ht

/-- A removal is in the way of nothing that its handler is about to start. -/
theorem starting_of_safe {c : Nat} (hc : w.connectionStates.get? c = some ref)
    (hp : w.peers.get? ref = some p)
    (hsafe : ((w.peerOf c).all fun p => p.handler.all fun a => !a.isStarting) = true) :
    ∀ a ∈ p.handler, a.isStarting = false := by
  intro a ha
  unfold peerOf at hsafe
  rw [hc, Option.bind_some, hp, Option.all_some, ha] at hsafe
  simpa using hsafe

theorem WorkerOk.remove (h : WorkerOk w) {now c : Nat}
    (hsafe : ((w.peerOf c).all fun p => p.handler.all fun a => !a.isStarting) = true) :
    WorkerOk (w.remove now c) := by
  unfold HandshakeWorker.remove
  cases hc : w.connectionStates.get? c with
  | none => exact h
  | some ref =>
      obtain ⟨p, hp, hpc⟩ := h.mapped c ref hc
      have hstarting := starting_of_safe hc hp hsafe
      simp only [hp]
      refine h.leave hp (by rw [hpc]; exact hc) ?_ ?_ ?_ now
      · intro c' r hr
        rw [LinkedMap.get?_erase] at hr
        split at hr
        · cases hr
        · exact hr
      · intro _
        rw [hpc]
        exact LinkedMap.get?_erase_self ..
      · exact fun l hcore hok => Scene.leave_close_ok hcore hok hstarting

theorem WorkerOk.drain (h : WorkerOk w) {now c : Nat} {reason : String}
    (hsafe : ((w.peerOf c).all fun p => p.handler.all fun a => !a.isStarting) = true) :
    WorkerOk (w.drain now c reason) := by
  unfold HandshakeWorker.drain
  cases hc : w.connectionStates.get? c with
  | none => exact h
  | some ref =>
      obtain ⟨p, hp, hpc⟩ := h.mapped c ref hc
      have hstarting := starting_of_safe hc hp hsafe
      simp only [hp]
      have hdrain : true = false → w.connectionStates.get? p.host.connectionId = none := nofun
      exact h.leave hp (by rw [hpc]; exact hc) (fun _ _ hr => hr) hdrain
        (fun l hcore hok => Scene.leave_goodbye_ok hcore hok hstarting reason) now

/-- A handler goes on. -/
theorem WorkerOk.resumeHandler (h : WorkerOk w) {now : Nat} {outcome : Outcome}
    (hsafe : ∀ p, w.peers.get? ref = some p → p.closers = [] ∨ ∀ a ∈ p.handler, a.isWelcome = false) :
    WorkerOk (w.resumeHandler now ref outcome) := by
  unfold HandshakeWorker.resumeHandler
  split
  · exact h
  · next p hp =>
    split
    · exact h
    · next await hawait =>
      split
      · exact h
      · next segment hr =>
        refine h.settle hp (Nat.le_succ _) (fun _ _ hr => hr) rfl fun l hl hpeer => ?_
        have hok := hpeer.handler
        rw [hawait] at hok
        have hbusy : await.isWelcome = true → (!p.closers.isEmpty) = false := by
          intro hw
          rcases hsafe p hp with hnil | hno
          · rw [hnil]; rfl
          · rw [hno await hawait] at hw
            cases hw
        have hholds : Scene.Holds l ⟨p.state, w.tracker, []⟩ l (!p.closers.isEmpty) :=
          ⟨rfl, hpeer.core, rfl, rfl⟩
        obtain ⟨l', hreach, hcore, hhandler, hleaving, hstarted⟩ := Scene.resume_ok hholds hok hbusy
          (fun ha => Nat.lt_irrefl _ (hpeer.started _ ha)) (Lifecycle.orderly hl).2.2 hr
        refine ⟨l', hreach, hcore, hhandler, hpeer.closing, ?_, ?_, ?_⟩
        · rw [hleaving]
          exact hpeer.leaving
        · intro a ha
          rcases hstarted a ha with ha | rfl
          · exact Nat.lt_succ_of_lt (hpeer.started a ha)
          · exact Nat.lt_succ_self _
        · rw [hleaving]
          exact hpeer.present

/-- A removal or drain goes on. -/
theorem WorkerOk.resumeCloser (h : WorkerOk w) {now index : Nat} {outcome : Outcome} :
    WorkerOk (w.resumeCloser now ref index outcome) := by
  unfold HandshakeWorker.resumeCloser
  split
  · exact h
  · next p hp =>
    split
    · exact h
    · next await isDrain hindex =>
      have hmem : (await, isDrain) ∈ p.closers := List.mem_of_getElem? hindex
      have hne : p.closers ≠ [] := fun hnil => by rw [hnil] at hmem; cases hmem
      have hleave : ∀ l segment, PeerOk w.nextAuthenticator
          (w.connectionStates.get? p.host.connectionId = some ref) l p →
          Scene.resume ⟨p.state, w.tracker, []⟩ p.host now w.nextAuthenticator await outcome =
            some segment → ∃ l', Scene.LeavingOk l p.handler segment l' := by
        intro l segment hpeer hr
        have hcore := hpeer.core
        rw [List.isEmpty_eq_false_iff.mpr hne] at hcore
        exact Scene.leave_resume_ok hcore (hpeer.leaving hne) hpeer.handler
          (hpeer.closing _ hmem) hr
      split
      · exact h
      · next sc next hr =>
        refine h.settle hp (Nat.le_refl _) (fun _ _ hr => hr) rfl fun l _ hpeer => ?_
        obtain ⟨l', hleave⟩ := hleave l _ hpeer hr
        have hset : p.closers.set index (next, isDrain) ≠ [] := by
          intro hnil
          exact hne (by simpa using hnil)
        refine ⟨l', hleave.reaches, hleave.core _ ?_, hleave.handler, ?_, fun _ => hleave.leaving,
          ?_, fun ht => ⟨fun _ => hset, ?_⟩⟩
        · intro _
          change (!(p.closers.set index (next, isDrain)).isEmpty) = true
          rw [List.isEmpty_eq_false_iff.mpr hset]
          rfl
        · intro x hx
          rcases List.mem_or_eq_of_mem_set hx with hx | rfl
          · exact hpeer.closing x hx
          · exact hleave.next next rfl
        · rw [hleave.kept]
          exact hpeer.started
        · intro x hx
          rcases List.mem_or_eq_of_mem_set hx with hx | rfl
          · exact (hpeer.present ht).2 x hx
          · exact (hpeer.present ht).2 (await, isDrain) hmem
      · next sc hr =>
        refine h.settle hp (Nat.le_refl _) ?_ rfl fun l _ hpeer => ?_
        · intro c r hr
          split at hr
          · rw [LinkedMap.get?_erase] at hr
            split at hr
            · cases hr
            · exact hr
          · exact hr
        · obtain ⟨l', hleave⟩ := hleave l _ hpeer hr
          refine ⟨l', hleave.reaches, hleave.core _ (by simp), hleave.handler, ?_,
            fun _ => hleave.leaving, ?_, fun ht => ?_⟩
          · exact fun x hx => hpeer.closing x (List.mem_of_mem_eraseIdx hx)
          · rw [hleave.kept]
            exact hpeer.started
          · -- In the table there are drains only, and a drain drops the connection at its end.
            cases isDrain with
            | true =>
                rw [if_pos rfl, LinkedMap.get?_erase_self] at ht
                cases ht
            | false => cases (hpeer.present ht).2 _ hmem

theorem WorkerOk.step (h : WorkerOk w) {input : Nat × HandshakeInput} (hsafe : w.LifecycleSafe input) :
    WorkerOk (w.step input) := by
  obtain ⟨now, input⟩ := input
  cases input with
  | add c listener flatBuffers =>
      change WorkerOk (if w.knows c then w else w.addPeer c listener flatBuffers)
      split
      · exact h
      · next hc => exact h.addPeer (Bool.eq_false_iff.mpr hc) ..
  | message c message listener flatBuffers =>
      simp only [LifecycleSafe, lifecycleSafe, Bool.or_eq_true] at hsafe
      simp only [HandshakeWorker.step]
      split
      · exact h
      · next hhandles =>
        have hsafe := hsafe.resolve_left hhandles
        have hhandles := Bool.eq_false_iff.mpr hhandles
        unfold peerOf at hsafe
        cases hc : w.connectionStates.get? c with
        | some ref =>
            obtain ⟨p, hp, hpc⟩ := h.mapped c ref hc
            simp only [hc, Option.bind_some, hp, Bool.and_eq_true, List.isEmpty_iff,
              Bool.or_eq_true, bne_iff_ne, ne_eq] at hsafe
            exact h.receive hp (handles_eq_false hhandles hp hpc) hsafe.1 (by rw [hpc]; exact hc)
              hsafe.2 now
        | none =>
            simp only [hc, Option.bind_none, Bool.not_eq_true'] at hsafe
            refine (h.addPeer hsafe listener flatBuffers).receive
              (p := { host := ⟨c, flatBuffers, w.workerId⟩, listener := listener })
              (by rw [get?_addPeer, if_pos rfl]) rfl rfl (LinkedMap.get?_insert_self ..) (.inr (by simp))
              now
  | remove c => exact h.remove hsafe
  | drain c reason => exact h.drain hsafe
  | handler ref outcome =>
      refine h.resumeHandler fun p hp => ?_
      simp only [LifecycleSafe, lifecycleSafe, hp, Option.all_some, Bool.or_eq_true,
        List.isEmpty_iff] at hsafe
      refine hsafe.imp id fun hno a ha => ?_
      rw [ha] at hno
      simpa using hno
  | closer ref index outcome => exact h.resumeCloser

/-! ### What holds of a connection -/

/-- A connection's state object, with what happened on it: it is the connection's only one; its
session is opened rightly and once; it is closed by the end of a removal, a drain or a GOODBYE; and
an authenticator that was started is settled, unless the connection still waits for it. -/
structure LifecycleKept (w : HandshakeWorker) (ref : Ref) (p : Peer) : Prop where
  alone : ∀ ref' p', w.peers.get? ref' = some p' →
    p'.host.connectionId = p.host.connectionId → ref' = ref
  conducted : Conducted (w.eventsOf ref)
  closed : ((w.eventsOf ref).any isLeaving = true ∧ p.closers = []) ∨
      ((w.eventsOf ref).any isFarewell = true ∧ p.handler = none) →
    (w.eventsOf ref).countP isClose = (w.eventsOf ref).countP isOpen
  settled : ∀ a, (w.eventsOf ref).any (starts a) = true →
    (w.eventsOf ref).countP (settles a) = 1 ∨
    ((w.eventsOf ref).countP (settles a) = 0 ∧ p.state.authenticator = some a ∧
      p.state.phase.isWaiting = true ∧ (w.eventsOf ref).any isLeaving = false ∧
      (w.eventsOf ref).any isAbort = false ∧ (w.eventsOf ref).any isOpen = false)

theorem PeerOk.closed {n : Nat} {tabled : Prop} {l : Lifecycle} {p : Peer}
    (h : PeerOk n tabled l p)
    (hdone : (l.leaving = true ∧ p.closers = []) ∨ (l.farewell = true ∧ p.handler = none)) :
    l.closed.toNat = l.opened.isSome.toNat := by
  have hlive : l.isLive = false := by
    rcases hdone with ⟨hl, hnil⟩ | ⟨hf, hnone⟩
    · rcases h.core.gone hl with hbusy | hrealm
      · rw [hnil] at hbusy
        cases hbusy
      · cases hc : l.closed with
        | true => simp [Lifecycle.isLive, hc]
        | false =>
            cases ho : l.opened with
            | none => simp [Lifecycle.isLive, ho]
            | some session =>
                have := (h.core.live session.1 session.2 hc ho).2.1
                rw [hrealm] at this
                cases this
    · refine h.core.not_live_of_phase fun ho => ?_
      rcases h.handler.farewell hf with ⟨a, ha, -⟩ | ⟨hphase, -⟩
      · rw [hnone] at ha
        cases ha
      · rw [ho] at hphase
        cases hphase
  cases hc : l.closed with
  | true => rw [h.core.shut hc]
  | false =>
      simp only [Lifecycle.isLive, hc, Bool.not_false, Bool.and_true] at hlive
      rw [hlive]

/-- **The lifecycle of a session.**  Whatever the inputs, in every run under `LifecycleSafe`. -/
theorem session_lifecycle (settings : AuthSettings) (inputs : List (Nat × HandshakeInput))
    (w : HandshakeWorker) (hrun : Run step LifecycleSafe (initial settings) inputs w) (ref : Ref)
    (p : Peer) (hp : w.peers.get? ref = some p) : LifecycleKept w ref p := by
  have hok : WorkerOk w :=
    hrun.invariant (fun _ _ h hsafe => h.step hsafe) (workerOk_initial settings)
  obtain ⟨l, hl, hpeer⟩ := hok.peers ref p hp
  have ht := Lifecycle.tracks hl
  refine ⟨fun ref' p' hp' hc => hok.distinct ref' ref p' p hp' hp hc, Lifecycle.conducted hl,
    fun hdone => ?_, fun a ha => ?_⟩
  · rw [← ht.leaving, ← ht.farewell] at hdone
    rw [ht.closes, ht.opens, hpeer.closed hdone]
  · have hstarted : a ∈ l.started := by
      obtain ⟨e, he, hs⟩ := List.any_eq_true.mp ha
      rw [← List.count_pos_iff, ← ht.starts a]
      exact List.countP_pos_iff.mpr ⟨e, he, hs⟩
    rw [ht.settles a]
    by_cases hs : a ∈ l.settled
    · exact .inl (List.count_eq_one_of_mem (Lifecycle.orderly hl).2.1 hs)
    · have hauth := hpeer.core.pending a ⟨hstarted, hs⟩
      have hwait := (hpeer.core.held a hauth).2.1
      obtain ⟨hopened, haborted⟩ := Lifecycle.isFresh_iff.mp (hpeer.core.fresh_of_waiting hwait)
      refine .inr ⟨List.count_eq_zero_of_not_mem hs, hauth, hwait, ?_, ?_, ?_⟩
      · rw [Bool.eq_false_iff, ne_eq, ← ht.leaving]
        intro hl
        rw [hpeer.core.released hl] at hauth
        cases hauth
      · rw [Bool.eq_false_iff, ne_eq, ← ht.aborted, haborted]
        nofun
      · have hnone := ht.opens
        rw [hopened] at hnone
        rw [Bool.eq_false_iff, ne_eq, List.any_eq_true, ← List.countP_pos_iff, hnone]
        exact Nat.lt_irrefl 0

/-- A realm that takes anonymous clients. -/
def sampleSettings : AuthSettings := { realms := [{ name := "realm1" }] }

/-- A connection opens an anonymous session. -/
def sampleOpening : List (Nat × HandshakeInput) :=
  [(0, .add 1 {} false),
    (0, .message 1 (.hello { realm := some "realm1" } true) {} false),
    (0, .handler 0 (.allocated 7)),
    (0, .handler 0 .done)]

/-- The connection is removed. -/
def sampleRemoval : List (Nat × HandshakeInput) := [(0, .remove 1), (0, .closer 0 0 .done)]

theorem session_lifecycle_sample :
    ∃ w p, Run step LifecycleSafe (initial sampleSettings) (sampleOpening ++ sampleRemoval) w ∧
      w.peers.get? 0 = some p ∧ (w.eventsOf 0).countP isOpen = 1 ∧
      (w.eventsOf 0).countP isClose = 1 ∧ LifecycleKept w 0 p := by
  have hrun : Run step LifecycleSafe (initial sampleSettings) (sampleOpening ++ sampleRemoval)
      ((sampleOpening ++ sampleRemoval).foldl step (initial sampleSettings)) :=
    Run.of_admitted (by decide +kernel)
  have hsome : (((sampleOpening ++ sampleRemoval).foldl step
      (initial sampleSettings)).peers.get? 0).isSome = true := by decide +kernel
  obtain ⟨p, hp⟩ := Option.isSome_iff_exists.mp hsome
  exact ⟨_, p, hrun, hp, by decide +kernel, by decide +kernel,
    session_lifecycle sampleSettings _ _ hrun 0 p hp⟩

/-- The client sends HELLO again. -/
def sampleSecondHello : List (Nat × HandshakeInput) :=
  [(0, .message 1 (.hello { realm := some "realm1" } true) {} false),
    (0, .handler 0 .done),
    (0, .handler 0 .done)]

/-- **A second HELLO leaks the session**: the open connection is aborted, and its removal finds
nothing to close. -/
theorem session_leaked_by_second_hello :
    ¬ ∀ (settings : AuthSettings) (inputs : List (Nat × HandshakeInput)) (ref : Ref) (p : Peer),
      (inputs.foldl step (initial settings)).peers.get? ref = some p →
      LifecycleKept (inputs.foldl step (initial settings)) ref p := by
  intro h
  have hsome : (((sampleOpening ++ sampleSecondHello ++ sampleRemoval).foldl step
      (initial sampleSettings)).peers.get? 0).map (·.closers.isEmpty) = some true := by
    decide +kernel
  obtain ⟨p, hp, hnil⟩ := Option.map_eq_some_iff.mp hsome
  have hclosed := (h sampleSettings _ 0 p hp).closed
    (.inl ⟨by decide +kernel, List.isEmpty_iff.mp hnil⟩)
  revert hclosed
  decide +kernel

end HandshakeWorker

end Connectanum
