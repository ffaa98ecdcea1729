import Connectanum.Handshake.Machine
import Connectanum.Lib.Runs

/-!
# Handshake — Lifecycle

What a connection's handshake has to keep to, as an automaton over its events (`Lifecycle`), and
the proof that the handlers keep to it.

A session is opened once, on an anonymous selection or an authenticator's success, and neither
after an ABORT nor after the connection began to leave; it is closed once.  An authenticator that
was started is settled once: its success opens the session, or it is told to abort.

The handlers keep to it in every run under `LifecycleSafe`, whatever the order in which handlers,
removals and drains go on.
-/

namespace Connectanum

open Collections Machine

/-! ### The automaton -/

structure Lifecycle where
  anonymous : Bool := false
  started : List Nat := []
  accepted : List Nat := []
  settled : List Nat := []
  /-- The realm and the id of the session. -/
  opened : Option (String × Nat) := none
  closed : Bool := false
  aborted : Bool := false
  leaving : Bool := false
  farewell : Bool := false

namespace Lifecycle

/-- No session yet, and none refused. -/
def isFresh (l : Lifecycle) : Bool := l.opened.isNone && !l.aborted

/-- The session is open. -/
def isLive (l : Lifecycle) : Bool := l.opened.isSome && !l.closed

/-- The authenticator was started and not told how it ended. -/
def Unsettled (l : Lifecycle) (a : Nat) : Prop := a ∈ l.started ∧ a ∉ l.settled

instance (l : Lifecycle) (a : Nat) : Decidable (l.Unsettled a) := inferInstanceAs (Decidable (_ ∧ _))

def next (l : Lifecycle) : HandshakeEvent → Option Lifecycle
  | .anonymous _ => some { l with anonymous := true }
  | .started a _ _ => if a ∈ l.started then none else some { l with started := a :: l.started }
  | .verdict a (.success _) => some { l with accepted := a :: l.accepted }
  | .onAbort a => if l.Unsettled a then some { l with settled := a :: l.settled } else none
  | .sessionOpen u session none =>
      if l.isFresh && !l.leaving && l.anonymous then some { l with opened := some (u, session.id) }
      else none
  | .sessionOpen u session (some a) =>
      if l.isFresh && !l.leaving && decide (a ∈ l.accepted) && decide (l.Unsettled a) then
        some { l with opened := some (u, session.id), settled := a :: l.settled }
      else none
  | .sessionClose u id =>
      if !l.closed && decide (l.opened = some (u, id)) then some { l with closed := true } else none
  | .sent (.abort _) => some { l with aborted := true }
  | .leaving => some { l with leaving := true }
  | .farewell => some { l with farewell := true }
  | .sent _ | .evaluated _ _ _ | .verdict _ _ | .failure _ _ | .success _ _ => some l

theorem isFresh_iff {l : Lifecycle} : l.isFresh = true ↔ l.opened = none ∧ l.aborted = false := by
  simp [isFresh]

theorem isLive_of {l : Lifecycle} {u : String} {id : Nat} (hclosed : l.closed = false)
    (hopened : l.opened = some (u, id)) : l.isLive = true := by
  simp [isLive, hclosed, hopened]

/-- Nothing is asked of a session that is not open. -/
theorem not_live {l : Lifecycle} (h : l.isLive = false) {P : String → Nat → Prop} (u : String)
    (id : Nat) (hclosed : l.closed = false) (hopened : l.opened = some (u, id)) : P u id := by
  rw [isLive_of hclosed hopened] at h
  cases h

end Lifecycle

/-! ### What a handler relies on -/

def HandshakePhase.isWaiting : HandshakePhase → Bool
  | .awaitingHello | .awaitingAuthenticate => true
  | .opened | .aborted => false

/-- The state of a connection agrees with what happened on it; `busy` says that a removal or drain
is in progress. -/
structure Core (l : Lifecycle) (s : HandshakeState) (busy : Bool) : Prop where
  gone : l.leaving = true → busy = true ∨ s.realmUri = none
  released : l.leaving = true → s.authenticator = none
  held : ∀ a, s.authenticator = some a →
    s.authContext.isSome = true ∧ s.phase.isWaiting = true ∧ l.Unsettled a
  pending : ∀ a, l.Unsettled a → s.authenticator = some a
  live : ∀ u id, l.closed = false → l.opened = some (u, id) →
    s.phase = .opened ∧ s.realmUri = some u ∧ s.sessionId = some id
  entered : s.phase = .opened → s.realmUri.isSome = true → l.isLive = true
  past : l.opened.isSome = true → s.phase.isWaiting = false
  ended : l.aborted = true → s.phase = .aborted
  realm : s.realmSettings.isSome = true → s.realmUri.isSome = true
  shut : l.closed = true → l.opened.isSome = true

section

variable {l : Lifecycle} {s s' : HandshakeState} {busy : Bool}

/-- Only these fields matter. -/
theorem Core.congr (h : Core l s busy) (hphase : s'.phase = s.phase)
    (hrealm : s'.realmUri = s.realmUri)
    (hsession : l.isLive = true → s'.sessionId = s.sessionId)
    (ha : s'.authenticator = s.authenticator) (hctx : s'.authContext = s.authContext)
    (hsettings : s'.realmSettings.isSome → s.realmSettings.isSome) : Core l s' busy := by
  refine ⟨?_, ?_, ?_, ?_, ?_, ?_, ?_, ?_, ?_, h.shut⟩
  · rw [hrealm]; exact h.gone
  · rw [ha]; exact h.released
  · rw [ha, hctx, hphase]; exact h.held
  · rw [ha]; exact h.pending
  · intro u id hc ho
    rw [hphase, hrealm, hsession (Lifecycle.isLive_of hc ho)]
    exact h.live u id hc ho
  · rw [hphase, hrealm]; exact h.entered
  · rw [hphase]; exact h.past
  · rw [hphase]; exact h.ended
  · intro hs
    rw [hrealm]
    exact h.realm (hsettings hs)

/-- Without a session and without an authenticator, the connection may be aborted. -/
theorem Core.abort (h : Core l s busy) (hlive : l.isLive = false) (ha : s.authenticator = none)
    (hphase : s'.phase = .aborted) (hrealm : s'.realmUri = s.realmUri)
    (ha' : s'.authenticator = none) (hsettings : s'.realmSettings = s.realmSettings) :
    Core l s' busy := by
  refine ⟨?_, fun _ => ha', ?_, ?_, ?_, ?_, ?_, fun _ => hphase, ?_, h.shut⟩
  · rw [hrealm]; exact h.gone
  · intro a hs
    rw [ha'] at hs
    cases hs
  · intro a hu
    have := h.pending a hu
    rw [ha] at this
    cases this
  · exact Lifecycle.not_live hlive
  · intro ho
    rw [hphase] at ho
    cases ho
  · intro _
    rw [hphase]
    rfl
  · rw [hsettings, hrealm]; exact h.realm

theorem Core.not_live_of_phase (h : Core l s busy) (hphase : s.phase ≠ .opened) :
    l.isLive = false := by
  cases ho : l.opened with
  | none => simp [Lifecycle.isLive, ho]
  | some session =>
      cases hc : l.closed with
      | true => simp [Lifecycle.isLive, hc]
      | false => exact absurd (h.live session.1 session.2 hc ho).1 hphase

/-- An open session has no authenticator left. -/
theorem Core.released_of_opened (h : Core l s busy) (ho : s.phase = .opened) :
    s.authenticator = none := by
  cases ha : s.authenticator with
  | none => rfl
  | some a =>
      have := (h.held a ha).2.1
      rw [ho] at this
      cases this

/-- A session opens on a connection that does not leave and has no authenticator but the one that
it settles. -/
theorem Core.opens (h : Core l s busy) {t : List Nat} {u : String} {id : Nat} (hfresh : l.isFresh = true)
    (hleaving : l.leaving = false) (hsettled : ∀ a, s.authenticator = some a → a ∈ t)
    (hkept : ∀ a ∈ l.settled, a ∈ t) (hphase : s'.phase = .opened) (ha : s'.authenticator = none)
    (hrealm : s'.realmUri = some u) (hsession : s'.sessionId = some id) :
    Core { l with opened := some (u, id), settled := t } s' busy := by
  obtain ⟨hopened, haborted⟩ := Lifecycle.isFresh_iff.mp hfresh
  have hclosed : l.closed = false := by
    cases hc : l.closed with
    | false => rfl
    | true =>
        have := h.shut hc
        rw [hopened] at this
        cases this
  refine ⟨?_, fun _ => ha, ?_, ?_, ?_, ?_, fun _ => ?_, ?_, fun _ => ?_, fun _ => rfl⟩
  · intro hl
    change l.leaving = true at hl
    rw [hleaving] at hl
    cases hl
  · intro a hs
    rw [ha] at hs
    cases hs
  · rintro a ⟨hs, hns⟩
    have := h.pending a ⟨hs, fun hm => hns (hkept a hm)⟩
    exact absurd (hsettled a this) hns
  · rintro _ _ _ ⟨⟩
    exact ⟨hphase, hrealm, hsession⟩
  · intro _ _
    simp [Lifecycle.isLive, hclosed]
  · rw [hphase]; rfl
  · intro hab
    change l.aborted = true at hab
    rw [haborted] at hab
    cases hab
  · rw [hrealm]; rfl

theorem Core.fresh_of_waiting (h : Core l s busy) (hw : s.phase.isWaiting = true) :
    l.isFresh = true := by
  refine Lifecycle.isFresh_iff.mpr ⟨?_, ?_⟩
  · cases ho : l.opened with
    | none => rfl
    | some session =>
        have := h.past (by rw [ho]; rfl)
        rw [hw] at this
        cases this
  · cases ha : l.aborted with
    | false => rfl
    | true =>
        have := h.ended ha
        rw [this] at hw
        cases hw

theorem Lifecycle.not_live_of_fresh (h : l.isFresh = true) : l.isLive = false := by
  simp [isLive, (isFresh_iff.mp h).1]

end

namespace Await

/-- An ABORT is on its way. -/
def isAbort : Await → Bool
  | abortFirst _ _ | abortInSend _ _ | sending _ (.abort _) => true
  | _ => false

def isClosing : Await → Bool
  | sending _ .goodbye | closing => true
  | _ => false

/-- The session id or the authenticator is not there yet. -/
def isStarting : Await → Bool
  | allocate _ _ _ | create _ _ _ => true
  | _ => false

/-- The WELCOME is on its way. -/
def isWelcome : Await → Bool
  | sending _ (.welcomeAnonymous _ _) | sending _ (.welcome _ _ _ _ _) => true
  | _ => false

/-- A handshake is in progress, in a realm unless the connection leaves. -/
def InHandshake (l : Lifecycle) (s : HandshakeState) : Prop :=
  l.isFresh = true ∧ (l.leaving = false → s.realmUri.isSome = true)

/-- The authenticator was started, and is the connection's unless the connection leaves. -/
def Authenticates (l : Lifecycle) (s : HandshakeState) (a : Nat) : Prop :=
  InHandshake l s ∧ (l.leaving = false → s.authenticator = some a)

/-- What holds where the handler waits. -/
def Fits (l : Lifecycle) (s : HandshakeState) : Await → Prop
  | abortFirst _ _ | abortInSend _ _ => s.authenticator = none ∧ l.isLive = false
  | sending _ (.abort _) => s.authenticator = none ∧ l.isLive = false ∧ l.aborted = true
  | allocateAnonymous _ => InHandshake l s ∧ l.anonymous = true ∧ s.authenticator = none
  | sending _ (.welcomeAnonymous id _) =>
      InHandshake l s ∧ l.anonymous = true ∧ s.authenticator = none ∧
        (l.leaving = false → s.sessionId = some id)
  | allocate _ _ _ | create _ _ _ =>
      InHandshake l s ∧ l.leaving = false ∧ s.authenticator = none ∧ s.phase = .awaitingHello
  | onHello a _ | onAuthenticate a => Authenticates l s a
  | reallocate a _ _ _ => Authenticates l s a ∧ a ∈ l.accepted
  | sending _ (.welcome a id _ _ _) =>
      Authenticates l s a ∧ a ∈ l.accepted ∧ (l.leaving = false → s.sessionId = some id)
  | sending _ (.challenge _) =>
      InHandshake l s ∧ (l.leaving = false → s.phase = .awaitingAuthenticate)
  | sending _ .goodbye | closing => s.authenticator = none

end Await

/-- What holds of the handler of a connection. -/
structure HandlerOk (l : Lifecycle) (s : HandshakeState) (h : Option Await) : Prop where
  fits : ∀ w ∈ h, w.Fits l s
  idle : h = none → s.phase = .awaitingHello → s.authenticator = none
  farewell : l.farewell = true →
    (∃ w ∈ h, w.isClosing = true) ∨ (s.phase = .aborted ∧ ∀ w ∈ h, w.isAbort = true)

theorem HandlerOk.no_farewell {l : Lifecycle} {s : HandshakeState} {w : Await}
    (h : HandlerOk l s (some w)) (hclosing : w.isClosing = false) (habort : w.isAbort = false) :
    l.farewell = false := by
  cases hf : l.farewell with
  | false => rfl
  | true =>
      rcases h.farewell hf with ⟨w', hw', hc⟩ | ⟨-, ha⟩
      · cases hw'
        rw [hclosing] at hc
        cases hc
      · have := ha w rfl
        rw [habort] at this
        cases this

theorem HandlerOk.aborted_of_farewell {l : Lifecycle} {s : HandshakeState} {w : Await}
    (h : HandlerOk l s (some w)) (hclosing : w.isClosing = false) (hf : l.farewell = true) :
    s.phase = .aborted := by
  rcases h.farewell hf with ⟨w', hw', hc⟩ | ⟨hp, -⟩
  · cases hw'
    rw [hclosing] at hc
    cases hc
  · exact hp

/-- Where the events of a scene lead from `l₀`. -/
def Scene.Reaches (l₀ : Lifecycle) (sc : Scene) (l : Lifecycle) : Prop :=
  sc.events.foldlM Lifecycle.next l₀ = some l

namespace Scene

variable {l₀ l l' : Lifecycle} {sc : Scene} {busy : Bool}

theorem Reaches.emit (h : sc.Reaches l₀ l) {event : HandshakeEvent} (hn : l.next event = some l') :
    (sc.emit event).Reaches l₀ l' := by
  unfold Reaches Scene.emit
  rw [List.foldlM_append, h]
  exact (bind_pure _).trans hn

/-- The scene has come to `l` without starting an authenticator or leaving, and its state agrees
with `l`. -/
structure Holds (l₀ : Lifecycle) (sc : Scene) (l : Lifecycle) (busy : Bool) : Prop where
  reaches : sc.Reaches l₀ l
  core : Core l sc.state busy
  kept : l.started = l₀.started ∧ l.leaving = l₀.leaving

/-- `_abortPendingAuthentication` leaves no authenticator behind. -/
theorem abortPending_spec (h : Core l sc.state busy) :
    ∃ t, Core { l with settled := t } sc.abortPending.state busy ∧
      sc.abortPending.state.authenticator = none ∧
      sc.abortPending.state.phase = sc.state.phase ∧
      ∀ l₀ l', l'.started = l.started → l'.settled = l.settled → sc.Reaches l₀ l' →
        sc.abortPending.Reaches l₀ { l' with settled := t } := by
  have hsame : ∀ (l₀ l' : Lifecycle), l'.started = l.started → l'.settled = l.settled →
      sc.Reaches l₀ l' → sc.Reaches l₀ { l' with settled := l.settled } := by
    intro l₀ l' _ hsettled hr
    rw [← hsettled]
    exact hr
  unfold Scene.abortPending
  by_cases hphase : sc.state.phase ≠ .awaitingHello ∧ sc.state.phase ≠ .awaitingAuthenticate
  · rw [if_pos hphase]
    refine ⟨l.settled, h, ?_, rfl, hsame⟩
    cases ha : sc.state.authenticator with
    | none => rfl
    | some a =>
        have hwait := (h.held a ha).2.1
        cases hp : sc.state.phase <;> simp [hp, HandshakePhase.isWaiting] at hphase hwait
  · rw [if_neg hphase]
    cases ha : sc.state.authenticator with
    | none => exact ⟨l.settled, h, ha, rfl, hsame⟩
    | some a =>
        obtain ⟨hctx, hwait, hun⟩ := h.held a ha
        obtain ⟨ctx, hctx⟩ := Option.isSome_iff_exists.mp hctx
        rw [hctx]
        refine ⟨a :: l.settled, ?_, rfl, rfl, ?_⟩
        · refine ⟨h.gone, fun _ => rfl, (fun a' ha' => by cases ha'), ?_, h.live, h.entered,
            h.past, h.ended, h.realm, h.shut⟩
          rintro a' ⟨hs, hns⟩
          have := h.pending a' ⟨hs, fun hm => hns (List.mem_cons_of_mem _ hm)⟩
          rw [ha] at this
          cases this
          exact absurd (List.mem_cons_self ..) hns
        · intro l₀ l' hstarted hsettled hr
          have hun' : l'.Unsettled a := by
            unfold Lifecycle.Unsettled
            rw [hstarted, hsettled]
            exact hun
          have hr' : (sc.update fun s =>
              { s with authenticator := none, authContext := none }).Reaches l₀ l' := hr
          have hnext : l'.next (.onAbort a) = some { l' with settled := a :: l.settled } := by
            rw [← hsettled]
            exact if_pos hun'
          exact hr'.emit hnext

theorem Holds.abortPending (h : sc.Holds l₀ l busy) :
    ∃ t, sc.abortPending.Holds l₀ { l with settled := t } busy ∧
      sc.abortPending.state.authenticator = none ∧
      sc.abortPending.state.phase = sc.state.phase := by
  obtain ⟨t, hcore, ha, hphase, hreach⟩ := abortPending_spec h.core
  exact ⟨t, ⟨hreach l₀ l rfl rfl h.reaches, hcore, h.kept⟩, ha, hphase⟩

/-- A segment keeps to the automaton, and leaves things as its handler relies on them. -/
def SegmentOk (l₀ : Lifecycle) (busy : Bool) (segment : Segment) : Prop :=
  ∃ l, segment.1.Holds l₀ l busy ∧ HandlerOk l segment.1.state segment.2

theorem Holds.update (h : sc.Holds l₀ l busy) {f : HandshakeState → HandshakeState}
    (hc : Core l (f sc.state) busy) : (sc.update f).Holds l₀ l busy :=
  ⟨h.reaches, hc, h.kept⟩

theorem Holds.emit (h : sc.Holds l₀ l busy) {event : HandshakeEvent}
    (hn : l.next event = some l') (hs : l'.started = l.started ∧ l'.leaving = l.leaving)
    (hc : Core l' sc.state busy) : (sc.emit event).Holds l₀ l' busy :=
  ⟨h.reaches.emit hn, hc, hs.1.trans h.kept.1, hs.2.trans h.kept.2⟩

/-- An ABORT follows the abort of the authenticator. -/
theorem abort_ok (h : sc.Holds l₀ l busy) (hlive : l.isLive = false)
    (hfarewell : l.farewell = true → sc.state.phase = .aborted) {w : Await}
    (hw : w.isAbort = true)
    (hfits : ∀ l s, s.authenticator = none → l.isLive = false → w.Fits l s) :
    SegmentOk l₀ busy (sc.abortPending, some w) := by
  obtain ⟨t, hholds, ha, hphase⟩ := h.abortPending
  refine ⟨_, hholds, ⟨?_, nofun, fun hf => .inr ⟨hphase.trans (hfarewell hf), ?_⟩⟩⟩
  · rintro _ ⟨⟩
    exact hfits _ _ ha hlive
  · rintro _ ⟨⟩
    exact hw

theorem sendAbort_ok (h : sc.Holds l₀ l busy) (hlive : l.isLive = false)
    (hfarewell : l.farewell = true → sc.state.phase = .aborted) (reason : String) (exit : Exit) :
    SegmentOk l₀ busy (sc.sendAbort reason exit) :=
  abort_ok h hlive hfarewell rfl fun _ _ ha hl => ⟨ha, hl⟩

theorem abortThenSend_ok (h : sc.Holds l₀ l busy) (hlive : l.isLive = false)
    (hfarewell : l.farewell = true → sc.state.phase = .aborted) (reason : String) (exit : Exit) :
    SegmentOk l₀ busy (sc.abortThenSend reason exit) :=
  abort_ok h hlive hfarewell rfl fun _ _ ha hl => ⟨ha, hl⟩

theorem throwIn_ok (h : sc.Holds l₀ l busy) (hlive : l.isLive = false)
    (hfarewell : l.farewell = true → sc.state.phase = .aborted) (inHello : Bool) :
    SegmentOk l₀ busy (sc.throwIn inHello) := by
  cases inHello with
  | true => exact sendAbort_ok h hlive hfarewell ..
  | false => exact abortThenSend_ok h hlive hfarewell ..

/-- A failure that is recorded changes nothing of the connection. -/
theorem Holds.recordFailure (h : sc.Holds l₀ l busy) (u authId : String)
    (limits : RealmLimitSettings) (now : Nat) :
    (sc.recordFailure u authId limits now).Holds l₀ l busy ∧
      (sc.recordFailure u authId limits now).state = sc.state := by
  unfold Scene.recordFailure
  have hsc : Holds l₀ { sc with tracker := sc.tracker.recordFailure u authId limits now } l busy :=
    ⟨h.reaches, h.core, h.kept⟩
  split
  · exact ⟨hsc.emit rfl ⟨rfl, rfl⟩ hsc.core, rfl⟩
  · exact ⟨hsc, rfl⟩

/-- The handler ends with the connection aborted. -/
theorem runExit_ok (h : sc.Holds l₀ l busy) (ha : sc.state.authenticator = none)
    (hlive : l.isLive = false) (haborted : l.aborted = true) (now : Nat) (exit : Exit) :
    SegmentOk l₀ busy (sc.runExit now exit).finish := by
  have hphase := h.core.ended haborted
  have hend : ∀ {sc' : Scene} {f : HandshakeState → HandshakeState}, sc'.Holds l₀ l busy →
      sc'.state = sc.state → (f sc.state).phase = .aborted →
      (f sc.state).realmUri = sc.state.realmUri → (f sc.state).authenticator = none →
      (f sc.state).realmSettings = sc.state.realmSettings →
      SegmentOk l₀ busy (sc'.update f).finish := by
    intro sc' f hsc' hstate hp hr ha' hs
    have hcore : Core l (f sc'.state) busy := by
      rw [hstate]
      exact h.core.abort hlive ha hp hr ha' hs
    refine ⟨l, hsc'.update hcore, (fun w hw => by cases hw), ?_, ?_⟩
    · intro _ hawait
      change (f sc'.state).phase = _ at hawait
      rw [hstate, hp] at hawait
      cases hawait
    · intro _
      refine .inr ⟨?_, fun w hw => by cases hw⟩
      change (f sc'.state).phase = _
      rw [hstate, hp]
  unfold Scene.runExit
  cases exit with
  | refused => exact hend h rfl rfl rfl ha rfl
  | locked => exact hend h rfl rfl rfl ha rfl
  | noMethod realm authId =>
      cases authId with
      | none => exact hend h rfl rfl rfl ha rfl
      | some id =>
          obtain ⟨hr, hs⟩ := h.recordFailure realm.name id realm.limits now
          exact hend hr hs rfl rfl ha rfl
  | caught => exact hend h rfl rfl rfl rfl rfl
  | profile => exact hend (f := id) h rfl hphase rfl ha rfl
  | timedOut limits =>
      cases hu : sc.state.realmUri with
      | none => exact hend h rfl rfl rfl rfl rfl
      | some u =>
          cases hid : sc.state.pendingAuthId with
          | none => exact hend h rfl rfl rfl rfl rfl
          | some id =>
              obtain ⟨hr, hs⟩ := h.recordFailure u id limits now
              exact hend hr hs rfl rfl rfl rfl
  | failed inHello =>
      cases hu : sc.state.realmUri with
      | none => exact hend h rfl rfl rfl rfl rfl
      | some u =>
          cases hid : sc.state.pendingAuthId with
          | none => exact hend h rfl rfl rfl rfl rfl
          | some id =>
              cases hr : sc.state.realmSettings with
              | none => exact hend h rfl rfl rfl rfl rfl
              | some realm =>
                  obtain ⟨hr, hs⟩ := h.recordFailure u id realm.limits now
                  exact hend hr hs rfl rfl rfl rfl

/-! ### HELLO -/

/-- A waiting connection that does not leave enters a realm. -/
theorem Holds.enterRealm (h : sc.Holds l₀ l busy) (hwait : sc.state.phase.isWaiting = true)
    (hleaving : l.leaving = false) (realm : AuthRealm) (realmUri : String) :
    (sc.update fun s => { s with realmSettings := some realm, realmUri := some realmUri }).Holds
      l₀ l busy := by
  have hc := h.core
  have hlive := Lifecycle.not_live_of_fresh (hc.fresh_of_waiting hwait)
  refine h.update ⟨?_, hc.released, hc.held, hc.pending, ?_, ?_, hc.past, hc.ended, fun _ => rfl,
    hc.shut⟩
  · intro hl
    rw [hleaving] at hl
    cases hl
  · exact Lifecycle.not_live hlive
  · intro (ho : sc.state.phase = .opened)
    rw [ho] at hwait
    cases hwait

theorem checkAuthId_state (sc : Scene) (realm : AuthRealm) (authId : Option String) (now : Nat) :
    (sc.checkAuthId realm authId now).1.state = sc.state ∧
      (sc.checkAuthId realm authId now).1.events = sc.events := by
  unfold Scene.checkAuthId
  cases authId with
  | none => exact ⟨rfl, rfl⟩
  | some id =>
      dsimp only
      split <;> exact ⟨rfl, rfl⟩

theorem openAnonymousSession_ok (h : sc.Holds l₀ l busy)
    (hhandshake : Await.InHandshake l sc.state) (ha : sc.state.authenticator = none)
    (hfarewell : l.farewell = false) (options : Dict) (realmUri : String)
    (details : HelloDetails) :
    SegmentOk l₀ busy (sc.openAnonymousSession options realmUri details) := by
  have hlive := Lifecycle.not_live_of_fresh hhandshake.1
  have hno : ∀ {P : Prop}, l.farewell = true → P := by
    intro P hf
    rw [hfarewell] at hf
    cases hf
  unfold Scene.openAnonymousSession
  dsimp only
  split
  · exact throwIn_ok h hlive hno true
  · next welcome _ =>
    have hc := h.core
    have hcore : Core { l with anonymous := true } sc.state busy :=
      ⟨hc.gone, hc.released, hc.held, hc.pending, hc.live, hc.entered, hc.past, hc.ended, hc.realm,
        hc.shut⟩
    have hemit : (sc.emit (.anonymous options)).Holds l₀ { l with anonymous := true } busy :=
      h.emit rfl ⟨rfl, rfl⟩ hcore
    refine ⟨{ l with anonymous := true }, ⟨hemit.reaches, ?_, hemit.kept⟩, ?_, nofun, hno⟩
    · exact ⟨hc.gone, fun _ => rfl, (fun a hs => by cases hs), (fun a hu => by
        have := hc.pending a hu
        rw [ha] at this
        cases this), hc.live, hc.entered, hc.past, hc.ended, hc.realm,
        hc.shut⟩
    · rintro _ ⟨⟩
      exact ⟨hhandshake, rfl, rfl⟩

theorem handleHello_ok (h : sc.Holds l₀ l busy)
    (hidle : sc.state.phase = .awaitingHello → sc.state.authenticator = none)
    (hfarewell : l.farewell = true → sc.state.phase = .aborted)
    (hopened : sc.state.phase ≠ .opened) (hleaving : l.leaving = false) (settings : AuthSettings)
    (listener : ListenerAuth) (flatBuffers : Bool) (hello : Hello) (profileAccepted : Bool)
    (now : Nat) :
    SegmentOk l₀ busy
      (sc.handleHello settings listener flatBuffers hello profileAccepted now) := by
  have hlive := h.core.not_live_of_phase hopened
  unfold Scene.handleHello
  split
  · exact sendAbort_ok h hlive hfarewell ..
  · next hphase =>
    have hphase : sc.state.phase = .awaitingHello := Classical.not_not.mp hphase
    have hwait : sc.state.phase.isWaiting = true := by rw [hphase]; rfl
    have ha := hidle hphase
    have hfw : l.farewell = false := by
      cases hf : l.farewell with
      | false => rfl
      | true =>
          have := hfarewell hf
          rw [hphase] at this
          cases this
    have hno : ∀ {P : Prop}, l.farewell = true → P := by
      intro P hf
      rw [hfw] at hf
      cases hf
    split
    · exact sendAbort_ok h hlive hfarewell ..
    · split
      · exact sendAbort_ok h hlive hfarewell ..
      · next realmUri _ =>
        split
        · exact sendAbort_ok h hlive hfarewell ..
        · split
          · exact sendAbort_ok h hlive hfarewell ..
          · next realm _ =>
            have hrealm := h.enterRealm hwait hleaving realm realmUri
            dsimp only
            split
            · exact ⟨l, hrealm, (fun w hw => by cases hw), fun _ _ => ha, hno⟩
            · next selection _ =>
              have hpending : Holds l₀ ((sc.update fun s =>
                  { s with realmSettings := some realm, realmUri := some realmUri }).update
                  fun s => { s with pendingAuthId := hello.details.authid }) l busy :=
                hrealm.update (hrealm.core.congr rfl rfl (fun _ => rfl) rfl rfl id)
              generalize hsc : ((sc.update fun s =>
                  { s with realmSettings := some realm, realmUri := some realmUri }).update
                  fun s => { s with pendingAuthId := hello.details.authid }) = sc₁ at hpending
              have hstate := checkAuthId_state sc₁ realm hello.details.authid now
              generalize sc₁.checkAuthId realm hello.details.authid now = checked at hstate
              obtain ⟨sc₂, passed⟩ := checked
              have hchecked : sc₂.Holds l₀ l busy := by
                refine ⟨?_, ?_, hpending.kept⟩
                · unfold Reaches
                  rw [hstate.2]
                  exact hpending.reaches
                · rw [hstate.1]
                  exact hpending.core
              have hphase₂ : sc₂.state.phase = .awaitingHello := by
                rw [hstate.1, ← hsc]
                exact hphase
              have hrealm₂ : sc₂.state.realmUri = some realmUri := by
                rw [hstate.1, ← hsc]
                rfl
              have ha₂ : sc₂.state.authenticator = none := by
                rw [hstate.1, ← hsc]
                exact ha
              dsimp only
              split
              · exact sendAbort_ok hchecked hlive hno ..
              · split
                · exact sendAbort_ok hchecked hlive hno ..
                · next selection _ =>
                  have hmethod : Holds l₀ (sc₂.update fun s =>
                      { s with authMethod := some selection.method }) l busy :=
                    hchecked.update (hchecked.core.congr rfl rfl (fun _ => rfl) rfl rfl id)
                  have hshake : Await.InHandshake l
                      { sc₂.state with authMethod := some selection.method } :=
                    ⟨h.core.fresh_of_waiting hwait, fun _ => by
                      change sc₂.state.realmUri.isSome = true
                      rw [hrealm₂]
                      rfl⟩
                  split
                  · exact openAnonymousSession_ok hmethod hshake ha₂ hfw ..
                  · refine ⟨l, hmethod, ?_, nofun, hno⟩
                    rintro _ ⟨⟩
                    exact ⟨hshake, hleaving, ha₂, hphase₂⟩

/-! ### Results of an authenticator -/

theorem sendWelcome_ok {a : Nat} (h : sc.Holds l₀ l busy)
    (hauth : Await.Authenticates l sc.state a) (haccepted : a ∈ l.accepted)
    (hfarewell : l.farewell = false) (method : String) (success : AuthSuccess) (inHello : Bool)
    (sessionId : Nat) :
    SegmentOk l₀ busy (sc.sendWelcome a method success inHello sessionId) := by
  have hlive := Lifecycle.not_live_of_fresh hauth.1.1
  have hno : ∀ {P : Prop}, l.farewell = true → P := by
    intro P hf
    rw [hfarewell] at hf
    cases hf
  have hsession : Holds l₀ (sc.update fun s => { s with sessionId := some sessionId }) l busy :=
    h.update (h.core.congr rfl rfl (by rw [hlive]; nofun) rfl rfl id)
  unfold Scene.sendWelcome
  dsimp only
  split
  · exact throwIn_ok hsession hlive hno inHello
  · have hdetails := fun d : WelcomeDetails => Holds.update (f := fun s =>
      { s with welcomeDetails := some d }) hsession (hsession.core.congr rfl rfl (fun _ => rfl) rfl rfl id)
    refine ⟨l, (hdetails _).emit rfl ⟨rfl, rfl⟩ (hdetails _).core, ?_, nofun, hno⟩
    rintro _ ⟨⟩
    exact ⟨hauth, haccepted, fun _ => rfl⟩

theorem applyAuthResult_ok {a : Nat} (h : sc.Holds l₀ l busy)
    (hauth : Await.Authenticates l sc.state a) {result : AuthResult}
    (haccepted : ∀ success, result = .success success → a ∈ l.accepted)
    (hfarewell : l.farewell = false) (method : String) (inHello : Bool) (now : Nat) :
    SegmentOk l₀ busy (sc.applyAuthResult a method result inHello now) := by
  have hlive := Lifecycle.not_live_of_fresh hauth.1.1
  have hfresh := Lifecycle.isFresh_iff.mp hauth.1.1
  have hno : ∀ {P : Prop}, l.farewell = true → P := by
    intro P hf
    rw [hfarewell] at hf
    cases hf
  unfold Scene.applyAuthResult
  cases result with
  | challenge =>
      have hc := h.core
      have hcore : Core l
          { sc.state with phase := .awaitingAuthenticate, challengeIssuedAt := some now } busy := by
        refine ⟨hc.gone, hc.released, fun a' ha' => ?_, hc.pending, ?_, nofun, ?_, ?_, hc.realm,
          hc.shut⟩
        · obtain ⟨hctx, -, hun⟩ := hc.held a' ha'
          exact ⟨hctx, rfl, hun⟩
        · exact Lifecycle.not_live hlive
        · rw [hfresh.1]; nofun
        · rw [hfresh.2]; nofun
      have hupdate : Holds l₀ (sc.update fun s =>
          { s with phase := .awaitingAuthenticate, challengeIssuedAt := some now }) l busy :=
        h.update hcore
      refine ⟨l, hupdate.emit rfl ⟨rfl, rfl⟩ hcore, ?_, nofun, hno⟩
      rintro _ ⟨⟩
      exact ⟨hauth.1, fun _ => rfl⟩
  | success success =>
      have hacc := haccepted success rfl
      dsimp only
      split
      · exact sendWelcome_ok h hauth hacc hfarewell ..
      · refine ⟨l, h, ?_, nofun, hno⟩
        rintro _ ⟨⟩
        exact ⟨hauth, hacc⟩
  | failure reason => exact abortThenSend_ok h hlive hno ..

/-! ### AUTHENTICATE -/

theorem handleAuthenticate_ok (h : sc.Holds l₀ l busy)
    (hfarewell : l.farewell = true → sc.state.phase = .aborted)
    (hopened : sc.state.phase ≠ .opened) (flatBuffers : Bool) (signature : Option String)
    (profileAccepted : Bool) (now : Nat) :
    SegmentOk l₀ busy
      (sc.handleAuthenticate flatBuffers signature profileAccepted now) := by
  have hlive := h.core.not_live_of_phase hopened
  unfold Scene.handleAuthenticate
  split
  · next a _ realm _ hphase ha _ hsettings _ =>
    split
    · exact sendAbort_ok h hlive hfarewell ..
    · split
      · exact abortThenSend_ok h hlive hfarewell ..
      · split
        · exact abortThenSend_ok h hlive hfarewell ..
        · have hwait : sc.state.phase.isWaiting = true := by rw [hphase]; rfl
          refine ⟨l, h.emit rfl ⟨rfl, rfl⟩ h.core, ?_, nofun, fun hf => ?_⟩
          · rintro _ ⟨⟩
            exact ⟨⟨h.core.fresh_of_waiting hwait, fun _ => h.core.realm (by rw [hsettings]; rfl)⟩,
              fun _ => ha⟩
          · have := hfarewell hf
            rw [hphase] at this
            cases this
  · exact abortThenSend_ok h hlive hfarewell ..

/-! ### Closing -/

theorem closeSession_ok (h : sc.Holds l₀ l busy) : SegmentOk l₀ busy sc.closeSession := by
  obtain ⟨t, hholds, ha, -⟩ := h.abortPending
  refine ⟨_, hholds, ?_, nofun, fun _ => .inl ⟨_, rfl, rfl⟩⟩
  rintro _ ⟨⟩
  exact ha

theorem handleGoodbye_ok (h : sc.Holds l₀ l busy) (reason : String) :
    SegmentOk l₀ busy (sc.handleGoodbye reason) := by
  unfold Scene.handleGoodbye
  split
  · next ho =>
    refine ⟨l, h.emit rfl ⟨rfl, rfl⟩ h.core, ?_, nofun, fun _ => .inl ⟨_, rfl, rfl⟩⟩
    rintro _ ⟨⟩
    exact h.core.released_of_opened ho
  · exact closeSession_ok h

/-- After `_closeSession`, no session of the connection is left. -/
theorem Holds.finishClose (h : sc.Holds l₀ l busy) (ha : sc.state.authenticator = none) :
    ∃ b, sc.finishClose.Holds l₀ { l with closed := b } busy ∧
      sc.finishClose.state = { phase := .aborted } ∧
      Lifecycle.isLive { l with closed := b } = false := by
  have hcore : ∀ b, Lifecycle.isLive { l with closed := b } = false →
      (b = true → l.opened.isSome = true) →
      Core { l with closed := b } { phase := .aborted } busy := by
    intro b hlive hshut
    refine ⟨fun _ => .inr rfl, fun _ => rfl, nofun, fun a hu => ?_, Lifecycle.not_live hlive, nofun,
      fun _ => rfl, fun _ => rfl, nofun, hshut⟩
    have := h.core.pending a hu
    rw [ha] at this
    cases this
  by_cases hlive : l.isLive = true
  · simp only [Lifecycle.isLive, Bool.and_eq_true, Bool.not_eq_true'] at hlive
    obtain ⟨hopened, hclosed⟩ := hlive
    obtain ⟨⟨u, id⟩, hopened⟩ := Option.isSome_iff_exists.mp hopened
    obtain ⟨hphase, hrealm, hsession⟩ := h.core.live u id hclosed hopened
    have hshut : Lifecycle.isLive { l with closed := true } = false := by
      simp [Lifecycle.isLive]
    have hnext : l.next (.sessionClose u id) = some { l with closed := true } := by
      simp [Lifecycle.next, hclosed, hopened]
    unfold Scene.finishClose
    rw [hphase, hrealm, hsession]
    exact ⟨true, ⟨h.reaches.emit hnext, hcore true hshut fun _ => by rw [hopened]; rfl, h.kept⟩,
      rfl, hshut⟩
  · have hlive : l.isLive = false := Bool.eq_false_iff.mpr hlive
    refine ⟨l.closed, ⟨?_, ?_, h.kept⟩, rfl, hlive⟩
    · unfold Scene.finishClose
      split
      · next hphase hrealm _ =>
        have := h.core.entered hphase (by rw [hrealm]; rfl)
        rw [hlive] at this
        cases this
      · exact h.reaches
    · exact hcore l.closed hlive h.core.shut

/-! ### Going on -/

/-- A session may open: nothing was refused, and the connection is in a realm. -/
theorem opens_next {a : Option Nat} (hfresh : l.isFresh = true) (hleaving : l.leaving = false)
    (ha : match a with
      | none => l.anonymous = true
      | some a => a ∈ l.accepted ∧ l.Unsettled a) (realmUri : String) (session : SessionRecord) :
    l.next (.sessionOpen realmUri session a) =
      some { l with opened := some (realmUri, session.id), settled := a.toList ++ l.settled } := by
  cases a with
  | none => simp [Lifecycle.next, hfresh, hleaving, ha]
  | some a => simp [Lifecycle.next, hfresh, hleaving, ha.1, ha.2]

/-- The WELCOME is out: the session opens, or there is no realm any more and the handler throws. -/
theorem openSession_ok (h : sc.Holds l₀ l busy) (hshake : Await.InHandshake l sc.state)
    (hbusy : busy = false) (hfarewell : l.farewell = false) {sessionId : Nat}
    (hsession : l.leaving = false → sc.state.sessionId = some sessionId) {a : Option Nat}
    (ha : l.leaving = false →
      match a with
      | none => l.anonymous = true ∧ sc.state.authenticator = none
      | some a => a ∈ l.accepted ∧ sc.state.authenticator = some a)
    {f : HandshakeState → HandshakeState} (hphase : (f sc.state).phase = .opened)
    (hf : (f sc.state).authenticator = none ∧ (f sc.state).realmUri = sc.state.realmUri ∧
      (f sc.state).sessionId = sc.state.sessionId ∧
      (f sc.state).realmSettings = sc.state.realmSettings)
    (host : Host) (details : WelcomeDetails) :
    (((sc.update f).openSession host sessionId details a = .error ()) ∧
      (sc.update f).Holds l₀ l busy) ∨
    ∃ sc' realmUri l', (sc.update f).openSession host sessionId details a = .ok (sc', realmUri) ∧
      sc'.Holds l₀ l' busy ∧ sc'.state.phase = .opened ∧ l'.farewell = false := by
  obtain ⟨hf₁, hf₂, hf₃, hf₄⟩ := hf
  have hc := h.core
  have hlive := Lifecycle.not_live_of_fresh hshake.1
  have hfresh := Lifecycle.isFresh_iff.mp hshake.1
  cases hu : sc.state.realmUri with
  | none =>
      have hleaving : l.leaving = true := by
        cases hl : l.leaving with
        | true => rfl
        | false =>
            have := hshake.2 hl
            rw [hu] at this
            cases this
      refine .inl ⟨?_, h.update ⟨fun _ => .inr (hf₂.trans hu), fun _ => hf₁, ?_, ?_, ?_, ?_, ?_, ?_,
        ?_, hc.shut⟩⟩
      · unfold Scene.openSession
        simp only [Scene.update, hf₂, hu]
      · intro a ha
        rw [hf₁] at ha
        cases ha
      · intro a hun
        have := hc.pending a hun
        rw [hc.released hleaving] at this
        cases this
      · exact Lifecycle.not_live hlive
      · intro _ hr
        rw [hf₂, hu] at hr
        cases hr
      · rw [hfresh.1]; nofun
      · rw [hfresh.2]; nofun
      · rw [hf₄, hf₂]; exact hc.realm
  | some u =>
      have hleaving : l.leaving = false := by
        cases hl : l.leaving with
        | false => rfl
        | true =>
            rcases hc.gone hl with hb | hr
            · rw [hbusy] at hb
              cases hb
            · rw [hu] at hr
              cases hr
      have ha := ha hleaving
      have hopened : ∃ session, session.id = sessionId ∧
          (sc.update f).openSession host sessionId details a =
            .ok (((sc.update f).emit (.sessionOpen u session a)).update fun s =>
              { s with pendingAuthId := none, challengeIssuedAt := none }, u) := by
        unfold Scene.openSession
        simp only [Scene.update, hf₂, hu]
        exact ⟨_, rfl, rfl⟩
      obtain ⟨session, rfl, hopened⟩ := hopened
      refine .inr ⟨_, u, { l with opened := some (u, session.id), settled := a.toList ++ l.settled },
        hopened, ⟨?_, ?_, h.kept⟩, ?_, hfarewell⟩
      · refine Reaches.emit h.reaches (opens_next hshake.1 hleaving ?_ _ _)
        cases a with
        | none => exact ha.1
        | some a => exact ⟨ha.1, (hc.held a ha.2).2.2⟩
      · refine hc.opens hshake.1 hleaving ?_ ?_ hphase hf₁ ?_ ?_
        · intro a' ha'
          cases a with
          | none =>
              rw [ha.2] at ha'
              cases ha'
          | some a =>
              rw [ha.2] at ha'
              cases ha'
              exact List.mem_cons_self ..
        · exact fun a' ha' => List.mem_append_right _ ha'
        · exact hf₂.trans hu
        · exact hf₃.trans (hsession hleaving)
      · exact hphase

theorem afterSend_ok {previous : HandshakePhase} {next : Sending} (h : sc.Holds l₀ l busy)
    (hok : HandlerOk l sc.state (some (.sending previous next)))
    (hbusy : (Await.sending previous next).isWelcome = true → busy = false) (host : Host)
    (now : Nat) : SegmentOk l₀ busy (sc.afterSend host now next) := by
  have hfits := hok.fits _ rfl
  unfold Scene.afterSend
  cases next with
  | abort exit => exact runExit_ok h hfits.1 hfits.2.1 hfits.2.2 now exit
  | challenge inHello =>
      have hf := hok.no_farewell rfl rfl
      refine ⟨l, h, (fun w hw => by cases hw), ?_, ?_⟩
      · intro _ (hp : sc.state.phase = .awaitingHello)
        cases hl : l.leaving with
        | true => exact h.core.released hl
        | false =>
            have := hfits.2 hl
            rw [hp] at this
            cases this
      · rw [hf]; nofun
  | welcomeAnonymous sessionId details =>
      obtain ⟨hshake, hanon, ha, hsession⟩ := hfits
      have hf := hok.no_farewell rfl rfl
      rcases openSession_ok (f := fun s => { s with phase := .opened }) (a := none) h hshake
        (hbusy rfl) hf hsession (fun _ => ⟨hanon, ha⟩) rfl ⟨ha, rfl, rfl, rfl⟩ host
        details with ⟨herr, hholds⟩ | ⟨sc', u, l', hopen, hholds, hphase, hf'⟩
      · simp only [herr]
        exact throwIn_ok hholds (Lifecycle.not_live_of_fresh hshake.1) (by rw [hf]; nofun) true
      · simp only [hopen]
        refine ⟨l', hholds, (fun w hw => by cases hw), ?_, by rw [hf']; nofun⟩
        intro _ (hp : sc'.state.phase = .awaitingHello)
        rw [hphase] at hp
        cases hp
  | welcome a sessionId details success inHello =>
      obtain ⟨⟨hshake, ha⟩, haccepted, hsession⟩ := hfits
      have hf := hok.no_farewell rfl rfl
      rcases openSession_ok (f := fun s =>
        { s with phase := .opened, authenticator := none, authContext := none }) (a := some a) h
        hshake (hbusy rfl) hf hsession (fun hl => ⟨haccepted, ha hl⟩) rfl ⟨rfl, rfl, rfl, rfl⟩ host
        details with ⟨herr, hholds⟩ | ⟨sc', u, l', hopen, hholds, hphase, hf'⟩
      · simp only [herr]
        exact throwIn_ok hholds (Lifecycle.not_live_of_fresh hshake.1) (by rw [hf]; nofun) inHello
      · simp only [hopen]
        have htracker : Holds l₀ { sc' with
            tracker := sc'.tracker.recordSuccess u success.authId } l' busy :=
          ⟨hholds.reaches, hholds.core, hholds.kept⟩
        refine ⟨l', htracker.emit rfl ⟨rfl, rfl⟩ hholds.core, (fun w hw => by cases hw), ?_, by rw [hf']; nofun⟩
        intro _ (hp : sc'.state.phase = .awaitingHello)
        rw [hphase] at hp
        cases hp
  | goodbye => exact closeSession_ok h

theorem sendThrew_ok {previous : HandshakePhase} {next : Sending} (h : sc.Holds l₀ l busy)
    (hok : HandlerOk l sc.state (some (.sending previous next))) :
    SegmentOk l₀ busy (sc.sendThrew next) := by
  have hfits := hok.fits _ rfl
  cases next with
  | abort exit =>
      have hended := h.core.ended hfits.2.2
      have hfinish : SegmentOk l₀ busy sc.finish := by
        refine ⟨l, h, (fun w hw => by cases hw), ?_, fun _ => .inr ⟨hended, fun w hw => by cases hw⟩⟩
        intro _ (hp : sc.state.phase = .awaitingHello)
        rw [hended] at hp
        cases hp
      cases exit with
      | failed inHello => exact throwIn_ok h hfits.2.1 (fun _ => hended) inHello
      | _ => exact hfinish
  | challenge inHello =>
      exact throwIn_ok h (Lifecycle.not_live_of_fresh hfits.1.1)
        (hok.aborted_of_farewell rfl) inHello
  | welcomeAnonymous sessionId details =>
      exact throwIn_ok h (Lifecycle.not_live_of_fresh hfits.1.1) (hok.aborted_of_farewell rfl) true
  | welcome a sessionId details success inHello =>
      exact throwIn_ok h (Lifecycle.not_live_of_fresh hfits.1.1.1)
        (hok.aborted_of_farewell rfl) inHello
  | goodbye => exact closeSession_ok h

/-- As `SegmentOk`, where the segment may start the authenticator `fresh`. -/
def ResumeOk (l₀ : Lifecycle) (busy : Bool) (fresh : Nat) (segment : Segment) : Prop :=
  ∃ l, segment.1.Reaches l₀ l ∧ Core l segment.1.state busy ∧
    HandlerOk l segment.1.state segment.2 ∧ l.leaving = l₀.leaving ∧
    ∀ a ∈ l.started, a ∈ l₀.started ∨ a = fresh

theorem SegmentOk.resume {segment : Segment} (h : SegmentOk l₀ busy segment) (fresh : Nat) :
    ResumeOk l₀ busy fresh segment := by
  obtain ⟨l, hholds, hok⟩ := h
  refine ⟨l, hholds.reaches, hholds.core, hok, hholds.kept.2, fun a ha => .inl ?_⟩
  rw [← hholds.kept.1]
  exact ha

/-- What an authenticator answers is noted. -/
theorem Holds.verdict {a : Nat} (h : sc.Holds l₀ l busy)
    (hauth : Await.Authenticates l sc.state a) (result : AuthResult) :
    ∃ t, (sc.emit (.verdict a result)).Holds l₀ { l with accepted := t } busy ∧
      (∀ success, result = .success success → a ∈ t) ∧
      Await.Authenticates { l with accepted := t } sc.state a := by
  have hc := h.core
  have hcore : ∀ t, Core { l with accepted := t } sc.state busy := fun t =>
    ⟨hc.gone, hc.released, hc.held, hc.pending, hc.live, hc.entered, hc.past, hc.ended, hc.realm,
      hc.shut⟩
  cases result with
  | success success =>
      exact ⟨a :: l.accepted, h.emit rfl ⟨rfl, rfl⟩ (hcore _), fun _ _ => List.mem_cons_self .., hauth⟩
  | challenge => exact ⟨l.accepted, h.emit rfl ⟨rfl, rfl⟩ (hcore _), nofun, hauth⟩
  | failure reason => exact ⟨l.accepted, h.emit rfl ⟨rfl, rfl⟩ (hcore _), nofun, hauth⟩

/-- The factory's authenticator becomes the connection's. -/
theorem create_ok {fresh : Nat} {realm : AuthRealm} {method : String} {details : HelloDetails}
    (h : sc.Holds l₀ l busy) (hok : HandlerOk l sc.state (some (.create realm method details)))
    (hfresh : fresh ∉ l.started) (hsettled : ∀ a ∈ l.settled, a ∈ l.started) :
    ResumeOk l₀ busy fresh
      ((sc.update fun s =>
        { s with authenticator := some fresh, authContext := some details }).emit
        (.started fresh sc.state.realmUri sc.state.pendingAuthId), some (.onHello fresh method)) := by
  obtain ⟨hshake, hleaving, ha, hphase⟩ := hok.fits _ rfl
  have hf := hok.no_farewell rfl rfl
  have hc := h.core
  have hreach : Reaches l₀ (sc.update fun s =>
      { s with authenticator := some fresh, authContext := some details }) l := h.reaches
  have hnot : ∀ a, ¬ l.Unsettled a := by
    intro a hu
    have := hc.pending a hu
    rw [ha] at this
    cases this
  have hunsettled : ∀ a, Lifecycle.Unsettled { l with started := fresh :: l.started } a →
      a = fresh := by
    rintro a ⟨hs, hns⟩
    rcases List.mem_cons.mp hs with rfl | hs
    · rfl
    · exact absurd ⟨hs, hns⟩ (hnot a)
  have hun : Lifecycle.Unsettled { l with started := fresh :: l.started } fresh :=
    ⟨List.mem_cons_self .., fun hm => hfresh (hsettled _ hm)⟩
  refine ⟨{ l with started := fresh :: l.started }, hreach.emit (if_neg hfresh), ?_, ?_, h.kept.2,
    ?_⟩
  · refine ⟨hc.gone, ?_, ?_, ?_, hc.live, hc.entered, hc.past, hc.ended, hc.realm, hc.shut⟩
    · intro (hl : l.leaving = true)
      rw [hleaving] at hl
      cases hl
    · intro a (ha' : some fresh = some a)
      cases ha'
      refine ⟨rfl, ?_, hun⟩
      change sc.state.phase.isWaiting = true
      rw [hphase]
      rfl
    · intro a hu
      rw [hunsettled a hu]
      rfl
  · refine ⟨?_, nofun, ?_⟩
    · rintro _ ⟨⟩
      exact ⟨hshake, fun _ => rfl⟩
    · intro (hfw : l.farewell = true)
      rw [hf] at hfw
      cases hfw
  · intro a hs
    rcases List.mem_cons.mp hs with rfl | hs
    · exact .inr rfl
    · left
      rw [← h.kept.1]
      exact hs

theorem onResult_ok {a : Nat} (h : sc.Holds l₀ l busy)
    (hauth : Await.Authenticates l sc.state a) (hfarewell : l.farewell = false)
    (result : AuthResult) (f : HandshakeState → HandshakeState)
    (hf : ∀ l, Core l sc.state busy → Core l (f sc.state) busy)
    (hrealm : (f sc.state).realmUri = sc.state.realmUri)
    (ha : (f sc.state).authenticator = sc.state.authenticator) (method : String) (inHello : Bool)
    (now : Nat) :
    SegmentOk l₀ busy
      (((sc.emit (.verdict a result)).update f).applyAuthResult a method result inHello now) := by
  obtain ⟨t, hverdict, haccepted, hauth'⟩ := h.verdict hauth result
  refine applyAuthResult_ok (hverdict.update (hf _ hverdict.core)) ⟨⟨hauth'.1.1, fun hl => ?_⟩, fun hl => ?_⟩ haccepted hfarewell
    method inHello now
  · change (f sc.state).realmUri.isSome = true
    rw [hrealm]
    exact hauth'.1.2 hl
  · change (f sc.state).authenticator = some a
    rw [ha]
    exact hauth'.2 hl

/-- **A handler goes on**, wherever it waits and whatever it waited for. -/
theorem resume_ok {w : Await} {fresh now : Nat} {host : Host} {outcome : Outcome}
    {segment : Segment} (h : sc.Holds l₀ l busy) (hok : HandlerOk l sc.state (some w))
    (hbusy : w.isWelcome = true → busy = false) (hfresh : fresh ∉ l.started)
    (hsettled : ∀ a ∈ l.settled, a ∈ l.started)
    (hr : sc.resume host now fresh w outcome = some segment) :
    ResumeOk l₀ busy fresh segment := by
  have hfits := hok.fits w rfl
  unfold Scene.resume at hr
  split at hr
  · -- `abortFirst`
    cases hr
    exact (sendAbort_ok h hfits.2 (hok.aborted_of_farewell rfl) ..).resume fresh
  · -- `abortInSend`
    next reason exit =>
    cases hr
    obtain ⟨ha, hlive⟩ := hfits
    have hcore : Core l { sc.state with phase := .aborted } busy :=
      h.core.abort hlive ha rfl rfl ha rfl
    have haborted : Core { l with aborted := true } { sc.state with phase := .aborted } busy :=
      ⟨hcore.gone, hcore.released, hcore.held, hcore.pending, hcore.live, hcore.entered,
        hcore.past, fun _ => rfl, hcore.realm, hcore.shut⟩
    have hupdate := h.update (f := fun s => { s with phase := .aborted }) hcore
    have hsegment : SegmentOk l₀ busy ((sc.update fun s =>
        { s with phase := .aborted }).sendMessage (.abort reason) (.abort exit)) := by
      refine ⟨{ l with aborted := true }, hupdate.emit rfl ⟨rfl, rfl⟩ haborted, ?_, nofun,
        fun _ => .inr ⟨rfl, ?_⟩⟩
      · rintro _ ⟨⟩
        exact ⟨ha, hlive, rfl⟩
      · rintro _ ⟨⟩
        rfl
    exact hsegment.resume fresh
  · -- `allocateAnonymous`
    next details id =>
    cases hr
    obtain ⟨hshake, hanon, ha⟩ := hfits
    have hf := hok.no_farewell rfl rfl
    have hupdate := h.update (f := fun s => { s with sessionId := some id })
      (h.core.congr rfl rfl (by rw [Lifecycle.not_live_of_fresh hshake.1]; nofun) rfl rfl
        fun hs => hs)
    have hsegment : SegmentOk l₀ busy ((sc.update fun s =>
        { s with sessionId := some id }).sendMessage (.welcome id details)
        (.welcomeAnonymous id details)) := by
      refine ⟨l, hupdate.emit rfl ⟨rfl, rfl⟩ hupdate.core, ?_, nofun, by rw [hf]; nofun⟩
      rintro _ ⟨⟩
      exact ⟨hshake, hanon, ha, fun _ => rfl⟩
    exact hsegment.resume fresh
  · -- `allocate`
    next realm method details id =>
    cases hr
    have hf := hok.no_farewell rfl rfl
    have hupdate := h.update (f := fun s => { s with sessionId := some id })
      (h.core.congr rfl rfl (by rw [Lifecycle.not_live_of_fresh hfits.1.1]; nofun) rfl rfl
        fun hs => hs)
    have hsegment : SegmentOk l₀ busy ((sc.update fun s => { s with sessionId := some id }),
        some (.create realm method details)) := by
      refine ⟨l, hupdate, ?_, nofun, by rw [hf]; nofun⟩
      rintro _ ⟨⟩
      exact hfits
    exact hsegment.resume fresh
  · -- `create`
    cases hr
    exact create_ok h hok hfresh hsettled
  · cases hr
    exact (throwIn_ok h (Lifecycle.not_live_of_fresh hfits.1.1)
      (hok.aborted_of_farewell rfl) true).resume fresh
  · -- `onHello`
    cases hr
    exact (onResult_ok h hfits (hok.no_farewell rfl rfl) _ _
      (fun _ hc => hc.congr rfl rfl (fun _ => rfl) rfl rfl id) rfl rfl ..).resume fresh
  · cases hr
    exact (throwIn_ok h (Lifecycle.not_live_of_fresh hfits.1.1)
      (hok.aborted_of_farewell rfl) true).resume fresh
  · -- `onAuthenticate`
    next a result =>
    have hf := hok.no_farewell rfl rfl
    dsimp only at hr
    split at hr
    · next method _ _ =>
      cases hr
      exact (onResult_ok h hfits hf result id (fun _ hc => hc) rfl rfl method false
        now).resume fresh
    · cases hr
      obtain ⟨t, hverdict, -, hauth⟩ := h.verdict hfits result
      exact (throwIn_ok hverdict (Lifecycle.not_live_of_fresh hauth.1.1) (by rw [hf]; nofun)
        false).resume fresh
  · cases hr
    exact (throwIn_ok h (Lifecycle.not_live_of_fresh hfits.1.1)
      (hok.aborted_of_farewell rfl) false).resume fresh
  · -- `reallocate`
    cases hr
    exact (sendWelcome_ok h hfits.1 hfits.2 (hok.no_farewell rfl rfl) ..).resume fresh
  · -- `sending`
    split at hr
    · cases hr
      exact (sendThrew_ok h hok).resume fresh
    · cases hr
      exact (afterSend_ok h hok hbusy host now).resume fresh
  · cases hr
    exact (sendThrew_ok h hok).resume fresh
  · -- `closing`
    cases hr
    obtain ⟨b, hholds, hstate, -⟩ := h.finishClose hfits
    have hsegment : SegmentOk l₀ busy sc.finishClose.finish := by
      refine ⟨_, hholds, (fun w hw => by cases hw), ?_, fun _ => .inr ⟨?_, fun w hw => by cases hw⟩⟩
      · intro _ (hp : sc.finishClose.state.phase = .awaitingHello)
        rw [hstate] at hp
        cases hp
      · change sc.finishClose.state.phase = .aborted
        rw [hstate]
    exact hsegment.resume fresh
  · cases hr

end Scene

end Connectanum
