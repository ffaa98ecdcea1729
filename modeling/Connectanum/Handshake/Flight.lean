import Connectanum.Handshake.Lockout

/-!
# Handshake — Flight

Only HELLO asks the tracker whether an authid is locked.  A handshake that is past that question is
in flight (`inFlight`): it may still serve its authid, or fail it.  What each segment of a handler
does about the lockout is its `Report`: the tracker ages or takes the one failure or success that
the events end with, and only an authid in flight, or one that is not locked, is touched.
-/

namespace Connectanum

open Collections

/-! ### Handshakes in flight -/

/-- The ABORT is followed by the record of a failure of the connection's authid. -/
def Exit.records : Exit → Bool
  | timedOut _ | failed _ => true
  | _ => false

/-- The ABORT is followed by the record of a failure of this authid. -/
def Exit.ownKey : Exit → Option (String × String)
  | noMethod realm (some authId) => some (realm.name, authId)
  | _ => none

/-- The ABORT is followed by no record. -/
def Exit.isPlain : Exit → Bool
  | refused | locked | caught | profile => true
  | _ => false

namespace Await

/-- The handler is past the lockout check of its HELLO, and may serve or fail the authid. -/
def pursues : Await → Bool
  | abortFirst _ exit | abortInSend _ exit | sending _ (.abort exit) => exit.records
  | sending _ .goodbye | closing => false
  | _ => true

def ownKey : Await → Option (String × String)
  | abortFirst _ exit | abortInSend _ exit | sending _ (.abort exit) => exit.ownKey
  | _ => none

end Await

/-- The authid that a handler records a failure of, when its ABORT is out. -/
def failureKey (s : HandshakeState) : Option Await → Option (String × String)
  | some (.sending _ (.abort exit)) =>
      if exit.records then s.realmUri.bind fun u => s.pendingAuthId.map fun x => (u, x)
      else exit.ownKey
  | _ => none

/-- The connection waits for AUTHENTICATE. -/
def HandshakeState.isPending (s : HandshakeState) : Bool :=
  s.phase == .awaitingAuthenticate && s.authenticator.isSome && s.authContext.isSome

/-- A handshake for the authid is past the lockout check. -/
def inFlight (s : HandshakeState) (h : Option Await) (u x : String) : Bool :=
  h.any (fun w => w.ownKey == some (u, x)) ||
    (s.realmUri == some u && s.pendingAuthId == some x && (h.any Await.pursues || s.isPending))

section

variable {s s' : HandshakeState} {w w' : Await} {h : Option Await} {u x : String}

theorem inFlight_of_pursues (hw : w.pursues = true) (hu : s.realmUri = some u)
    (hx : s.pendingAuthId = some x) : inFlight s (some w) u x = true := by
  simp [inFlight, hw, hu, hx]

theorem inFlight_of_pending (hp : s.isPending = true) (hu : s.realmUri = some u)
    (hx : s.pendingAuthId = some x) : inFlight s h u x = true := by
  simp [inFlight, hp, hu, hx]

theorem inFlight_iff : inFlight s h u x = true ↔
    (∃ w ∈ h, w.ownKey = some (u, x)) ∨
      (s.realmUri = some u ∧ s.pendingAuthId = some x ∧
        ((∃ w ∈ h, w.pursues = true) ∨ s.isPending = true)) := by
  cases h <;> simp [inFlight, and_assoc]

end

/-! ### What the handlers rely on -/

def RealmOk (settings : AuthSettings) (s : HandshakeState) : Prop :=
  ∀ u, s.realmUri = some u → ∃ realm, s.realmSettings = some realm ∧
    settings.realms.find? (fun r => r.name == u) = some realm

def ExitOk (settings : AuthSettings) (s : HandshakeState) : Exit → Prop
  | .noMethod realm _ => settings.realms.find? (fun r => r.name == realm.name) = some realm
  | .timedOut limits => ∀ u, s.realmUri = some u → limits = settings.limitsOf u
  | _ => True

def AwaitOk (settings : AuthSettings) (s : HandshakeState) : Await → Prop
  | .abortFirst _ exit | .abortInSend _ exit | .sending _ (.abort exit) => ExitOk settings s exit
  | .sending _ (.welcome _ _ details success _) => details.authId = success.authId
  | _ => True

theorem exit_plain {exit : Exit} (h : exit.isPlain = true) (settings : AuthSettings)
    (s : HandshakeState) :
    ExitOk settings s exit ∧ exit.ownKey = none ∧ exit.records = false := by
  cases exit with
  | noMethod realm authId => cases h
  | timedOut limits => cases h
  | failed inHello => cases h
  | _ => exact ⟨trivial, rfl, rfl⟩

theorem AwaitOk.mono {settings : AuthSettings} {s s' : HandshakeState} {w : Await}
    (h : AwaitOk settings s w) (hs : s'.realmUri = none ∨ s'.realmUri = s.realmUri) :
    AwaitOk settings s' w := by
  have hexit : ∀ {exit}, ExitOk settings s exit → ExitOk settings s' exit := by
    intro exit he
    cases exit with
    | timedOut limits =>
        intro u hu
        rcases hs with hs | hs
        · rw [hs] at hu
          cases hu
        · exact he u (hs.symm.trans hu)
    | noMethod realm authId => exact he
    | _ => trivial
  cases w with
  | abortFirst reason exit => exact hexit h
  | abortInSend reason exit => exact hexit h
  | sending previous next =>
      cases next with
      | abort exit => exact hexit h
      | welcome a id details success inHello => exact h
      | _ => trivial
  | _ => trivial

theorem AuthSettings.limitsOf_eq {settings : AuthSettings} {u : String} {realm : AuthRealm}
    (h : settings.realms.find? (fun r => r.name == u) = some realm) :
    settings.limitsOf u = realm.limits := by
  unfold limitsOf
  rw [h]
  rfl

/-! ### What a segment does to the tracker -/

namespace HandshakeEvent

/-- The tracker records the event. -/
def isOutcome : HandshakeEvent → Bool
  | failure _ _ | success _ _ => true
  | _ => false

/-- The event is about an authid that may be locked. -/
def isTracked : HandshakeEvent → Bool
  | failure _ _ | success _ _ | sessionOpen _ _ _ | started _ _ _ | evaluated _ _ _ => true
  | _ => false

def touches (u x : String) (e : HandshakeEvent) : Bool := e.serves u x || e.fails u x || e.succeeds u x

theorem isOutcome_of_not_tracked {e : HandshakeEvent} (h : e.isTracked = false) :
    e.isOutcome = false := by
  cases e <;> first | rfl | cases h

theorem touches_of_not_tracked {e : HandshakeEvent} (h : e.isTracked = false) (u x : String) :
    e.touches u x = false := by
  cases e <;> first | rfl | cases h

end HandshakeEvent

open AuthSecurityTracker in
/-- The tracker ages, or takes a failure or a success that the events end with. -/
inductive TrackerEffect (settings : AuthSettings) (now : Nat) (t : AuthSecurityTracker)
    (es : List HandshakeEvent) : AuthSecurityTracker → Prop where
  | aged {t' : AuthSecurityTracker} (hes : ∀ e ∈ es, e.isOutcome = false)
      (h : ∀ u x, Aged now (t.find u x) (t'.find u x)) : TrackerEffect settings now t es t'
  | failed (u x : String) (es' : List HandshakeEvent) (hes : es = es' ++ [.failure u x])
      (hes' : ∀ e ∈ es', e.isOutcome = false)
      (h : t.takesFailure u x (settings.limitsOf u) now = true) :
      TrackerEffect settings now t es (t.recordFailure u x (settings.limitsOf u) now)
  | succeeded (u x : String) (es' : List HandshakeEvent) (hes : es = es' ++ [.success u x])
      (hes' : ∀ e ∈ es', e.isOutcome = false) :
      TrackerEffect settings now t es (t.recordSuccess u x)

/-- What a segment does about the lockout, from a tracker `t`, a state `s` and the handler `h`. -/
structure Report (settings : AuthSettings) (now : Nat) (t : AuthSecurityTracker)
    (s : HandshakeState) (h : Option Await) (segment : Segment) : Prop where
  realm : RealmOk settings segment.1.state
  await : ∀ w ∈ segment.2, AwaitOk settings segment.1.state w
  effect : TrackerEffect settings now t segment.1.events segment.1.tracker
  touch : ∀ u x, ∀ e ∈ segment.1.events, e.touches u x = true →
    inFlight s h u x = true ∨ t.Unlocked u x now
  flight : ∀ u x, inFlight segment.1.state segment.2 u x = true →
    inFlight s h u x = true ∨ segment.1.tracker.Unlocked u x now
  fails : ∀ u x, .failure u x ∈ segment.1.events → failureKey s h = some (u, x) ∧
    ∀ v y, inFlight segment.1.state segment.2 v y = false

/-- The scene has left the tracker, the realm and the authid alone. -/
structure Scene.Quiet (t : AuthSecurityTracker) (s : HandshakeState) (sc : Scene) : Prop where
  tracker : sc.tracker = t
  events : ∀ e ∈ sc.events, e.isTracked = false
  realm : sc.state.realmUri = s.realmUri
  settings : sc.state.realmSettings = s.realmSettings
  claim : sc.state.pendingAuthId = s.pendingAuthId

namespace Scene

variable {settings : AuthSettings} {now : Nat} {t : AuthSecurityTracker} {s : HandshakeState}
  {h : Option Await} {sc : Scene}

theorem Quiet.emit (hq : sc.Quiet t s) {e : HandshakeEvent} (he : e.isTracked = false) :
    (sc.emit e).Quiet t s := by
  refine ⟨hq.tracker, fun e' he' => ?_, hq.realm, hq.settings, hq.claim⟩
  rcases List.mem_append.mp he' with he' | he'
  · exact hq.events e' he'
  · rw [List.mem_singleton.mp he']
    exact he

theorem Quiet.update (hq : sc.Quiet t s) {f : HandshakeState → HandshakeState}
    (hf : (f sc.state).realmUri = sc.state.realmUri ∧
      (f sc.state).realmSettings = sc.state.realmSettings ∧
      (f sc.state).pendingAuthId = sc.state.pendingAuthId) : (sc.update f).Quiet t s :=
  ⟨hq.tracker, hq.events, hf.1.trans hq.realm, hf.2.1.trans hq.settings, hf.2.2.trans hq.claim⟩

theorem Quiet.abortPending (hq : sc.Quiet t s) :
    sc.abortPending.Quiet t s ∧ sc.abortPending.state.isPending = false := by
  unfold Scene.abortPending
  split
  · next hp =>
    refine ⟨hq, ?_⟩
    unfold HandshakeState.isPending
    rw [beq_eq_false_iff_ne.mpr hp.2]
    rfl
  · split
    · refine ⟨(hq.update ⟨rfl, rfl, rfl⟩).emit rfl, ?_⟩
      change (_ && (none : Option Nat).isSome && _) = false
      simp
    · next hno =>
      refine ⟨hq, ?_⟩
      unfold HandshakeState.isPending
      cases ha : sc.state.authenticator with
      | none => simp
      | some a =>
          cases hc : sc.state.authContext with
          | none => simp
          | some c => exact absurd hc (hno a c ha)

theorem Quiet.realmOk (hq : sc.Quiet t s) (hr : RealmOk settings s) : RealmOk settings sc.state := by
  intro u hu
  rw [hq.settings]
  exact hr u (hq.realm.symm.trans hu)

/-- A segment that leaves all this alone. -/
theorem Quiet.report {a : Option Await} (hq : sc.Quiet t s) (hr : RealmOk settings s)
    (ha : ∀ w ∈ a, AwaitOk settings s w)
    (hflight : ∀ u x, inFlight sc.state a u x = true → inFlight s h u x = true) :
    Report settings now t s h (sc, a) where
  realm := hq.realmOk hr
  await w hw := (ha w hw).mono (.inr hq.realm)
  effect := by
    rw [hq.tracker]
    exact .aged (fun e he => HandshakeEvent.isOutcome_of_not_tracked (hq.events e he))
      fun _ _ => .inl rfl
  touch u x e he ht := by
    rw [HandshakeEvent.touches_of_not_tracked (hq.events e he)] at ht
    cases ht
  flight u x hf := .inl (hflight u x hf)
  fails u x he := by cases hq.events _ he

/-- An ABORT is on its way; `hflight` is for the failures that follow it. -/
theorem Quiet.report_abort {w : Await} {exit : Exit} (hq : sc.Quiet t s) (hr : RealmOk settings s)
    (he : ExitOk settings s exit)
    (hw : (∃ reason, w = .abortFirst reason exit) ∨ ∃ reason, w = .abortInSend reason exit)
    (hown : ∀ u x, exit.ownKey = some (u, x) → inFlight s h u x = true)
    (hflight : exit.records = true → ∀ u x, s.realmUri = some u → s.pendingAuthId = some x →
      inFlight s h u x = true) :
    Report settings now t s h (sc.abortPending, some w) := by
  obtain ⟨hquiet, hpending⟩ := hq.abortPending
  refine hquiet.report hr ?_ fun u x hf => ?_
  · rintro _ ⟨⟩
    rcases hw with ⟨reason, rfl⟩ | ⟨reason, rfl⟩ <;> exact he
  · have hkey : w.ownKey = exit.ownKey ∧ w.pursues = exit.records := by
      rcases hw with ⟨reason, rfl⟩ | ⟨reason, rfl⟩ <;> exact ⟨rfl, rfl⟩
    rcases inFlight_iff.mp hf with ⟨_, ⟨⟩, hkey'⟩ | ⟨hu, hx, ⟨_, ⟨⟩, hp⟩ | hp⟩
    · exact hown u x (hkey.1.symm.trans hkey')
    · exact hflight (hkey.2.symm.trans hp) u x (hquiet.realm.symm.trans hu)
        (hquiet.claim.symm.trans hx)
    · rw [hpending] at hp
      cases hp

theorem Quiet.sendAbort (hq : sc.Quiet t s) (hr : RealmOk settings s) {exit : Exit}
    (he : ExitOk settings s exit)
    (hown : ∀ u x, exit.ownKey = some (u, x) → inFlight s h u x = true)
    (hflight : exit.records = true → ∀ u x, s.realmUri = some u → s.pendingAuthId = some x →
      inFlight s h u x = true) (reason : String) :
    Report settings now t s h (sc.sendAbort reason exit) :=
  hq.report_abort hr he (.inr ⟨reason, rfl⟩) hown hflight

theorem Quiet.abortThenSend (hq : sc.Quiet t s) (hr : RealmOk settings s) {exit : Exit}
    (he : ExitOk settings s exit)
    (hown : ∀ u x, exit.ownKey = some (u, x) → inFlight s h u x = true)
    (hflight : exit.records = true → ∀ u x, s.realmUri = some u → s.pendingAuthId = some x →
      inFlight s h u x = true) (reason : String) :
    Report settings now t s h (sc.abortThenSend reason exit) :=
  hq.report_abort hr he (.inl ⟨reason, rfl⟩) hown hflight

theorem Quiet.sendAbort_plain (hq : sc.Quiet t s) (hr : RealmOk settings s) {exit : Exit}
    (he : exit.isPlain = true) (reason : String) :
    Report settings now t s h (sc.sendAbort reason exit) := by
  obtain ⟨hok, hown, hrecords⟩ := exit_plain he settings s
  exact hq.sendAbort hr hok (by rw [hown]; nofun) (by rw [hrecords]; nofun) reason

theorem Quiet.abortThenSend_plain (hq : sc.Quiet t s) (hr : RealmOk settings s) {exit : Exit}
    (he : exit.isPlain = true) (reason : String) :
    Report settings now t s h (sc.abortThenSend reason exit) := by
  obtain ⟨hok, hown, hrecords⟩ := exit_plain he settings s
  exact hq.abortThenSend hr hok (by rw [hown]; nofun) (by rw [hrecords]; nofun) reason

theorem Quiet.throwIn (hq : sc.Quiet t s) (hr : RealmOk settings s) (inHello : Bool) :
    Report settings now t s h (sc.throwIn inHello) := by
  cases inHello with
  | true => exact hq.sendAbort_plain hr rfl _
  | false => exact hq.abortThenSend_plain hr rfl _

theorem Quiet.closeSession (hq : sc.Quiet t s) (hr : RealmOk settings s) :
    Report settings now t s h sc.closeSession := by
  obtain ⟨hquiet, hpending⟩ := hq.abortPending
  refine hquiet.report hr ?_ fun u x hf => ?_
  · rintro _ ⟨⟩
    trivial
  · rcases inFlight_iff.mp hf with ⟨_, ⟨⟩, hkey⟩ | ⟨-, -, ⟨_, ⟨⟩, hp⟩ | hp⟩
    · cases hkey
    · cases hp
    · rw [hpending] at hp
      cases hp

theorem Quiet.handleGoodbye (hq : sc.Quiet t s) (hr : RealmOk settings s) (reason : String) :
    Report settings now t s h (sc.handleGoodbye reason) := by
  unfold Scene.handleGoodbye
  split
  · next ho =>
    refine (hq.emit rfl).report hr ?_ fun u x hf => ?_
    · rintro _ ⟨⟩
      trivial
    · rcases inFlight_iff.mp hf with ⟨_, ⟨⟩, hkey⟩ | ⟨-, -, ⟨_, ⟨⟩, hp⟩ | hp⟩
      · cases hkey
      · cases hp
      · change sc.state.isPending = true at hp
        unfold HandshakeState.isPending at hp
        rw [ho] at hp
        cases hp
  · exact hq.closeSession hr

/-! ### HELLO -/

/-- An authid that passes the checks of HELLO is not locked. -/
theorem checkAuthId_spec (sc : Scene) (realm : AuthRealm) (authId : Option String) (now : Nat)
    (ht : sc.tracker.Tidy realm.name realm.limits) :
    (sc.checkAuthId realm authId now).1.state = sc.state ∧
    (sc.checkAuthId realm authId now).1.events = sc.events ∧
    (∀ u x, AuthSecurityTracker.Aged now (sc.tracker.find u x)
      ((sc.checkAuthId realm authId now).1.tracker.find u x)) ∧
    ((sc.checkAuthId realm authId now).2 = true → ∀ x, authId = some x →
      (sc.checkAuthId realm authId now).1.tracker.Unlocked realm.name x now) := by
  unfold Scene.checkAuthId
  cases authId with
  | none => exact ⟨rfl, rfl, fun _ _ => .inl rfl, nofun⟩
  | some id =>
      have haged : ∀ u x, AuthSecurityTracker.Aged now (sc.tracker.find u x)
          ((sc.tracker.lockoutRemaining realm.name id realm.limits now).1.find u x) :=
        fun _ _ => AuthSecurityTracker.aged_lockoutRemaining ht
      dsimp only
      split
      · exact ⟨rfl, rfl, haged, nofun⟩
      · next hnone =>
        have hnone : (sc.tracker.lockoutRemaining realm.name id realm.limits now).2 = none := by
          simpa using hnone
        have hcapacity : ∀ u x, AuthSecurityTracker.Aged now
            ((sc.tracker.lockoutRemaining realm.name id realm.limits now).1.find u x)
            (((sc.tracker.lockoutRemaining realm.name id realm.limits now).1.capacityRetryAfter
              realm.name id realm.limits now).1.find u x) :=
          fun _ _ => AuthSecurityTracker.aged_capacityRetryAfter (ht.aged fun x => haged _ x)
        refine ⟨rfl, rfl, fun u x => (haged u x).trans (hcapacity u x), ?_⟩
        rintro - x ⟨⟩
        exact (AuthSecurityTracker.unlocked_lockoutRemaining hnone).aged (hcapacity realm.name id)

/-- A segment of HELLO, once it has asked the tracker. -/
theorem Quiet.report_hello {t' : AuthSecurityTracker} {s' : HandshakeState} {a : Option Await}
    (hq : sc.Quiet t' s') (hr : RealmOk settings s') (ha : ∀ w ∈ a, AwaitOk settings s' w)
    (haged : ∀ u x, AuthSecurityTracker.Aged now (t.find u x) (t'.find u x))
    (hflight : ∀ u x, inFlight sc.state a u x = true → t'.Unlocked u x now) :
    Report settings now t s h (sc, a) where
  realm := hq.realmOk hr
  await w hw := (ha w hw).mono (.inr hq.realm)
  effect := by
    refine .aged (fun e he => HandshakeEvent.isOutcome_of_not_tracked (hq.events e he)) ?_
    rw [hq.tracker]
    exact haged
  touch u x e he ht := by
    rw [HandshakeEvent.touches_of_not_tracked (hq.events e he)] at ht
    cases ht
  flight u x hf := by
    rw [hq.tracker]
    exact .inr (hflight u x hf)
  fails u x he := by cases hq.events _ he

theorem Quiet.report_hello_abort {t' : AuthSecurityTracker} {s' : HandshakeState} {exit : Exit}
    (hq : sc.Quiet t' s') (hr : RealmOk settings s') (he : ExitOk settings s' exit)
    (haged : ∀ u x, AuthSecurityTracker.Aged now (t.find u x) (t'.find u x))
    (hrecords : exit.records = false)
    (hown : ∀ u x, exit.ownKey = some (u, x) → t'.Unlocked u x now) (reason : String) :
    Report settings now t s h (sc.sendAbort reason exit) := by
  obtain ⟨hquiet, hpending⟩ := hq.abortPending
  refine hquiet.report_hello hr ?_ haged fun u x hf => ?_
  · rintro _ ⟨⟩
    exact he
  · rcases inFlight_iff.mp hf with ⟨_, ⟨⟩, hkey⟩ | ⟨-, -, ⟨_, ⟨⟩, hp⟩ | hp⟩
    · exact hown u x hkey
    · change exit.records = true at hp
      rw [hrecords] at hp
      cases hp
    · rw [hpending] at hp
      cases hp

theorem Quiet.report_hello_plain {t' : AuthSecurityTracker} {s' : HandshakeState} {exit : Exit}
    (hq : sc.Quiet t' s') (hr : RealmOk settings s') (he : exit.isPlain = true)
    (haged : ∀ u x, AuthSecurityTracker.Aged now (t.find u x) (t'.find u x)) (reason : String) :
    Report settings now t s h (sc.sendAbort reason exit) := by
  obtain ⟨hok, hown, hrecords⟩ := exit_plain he settings s'
  exact hq.report_hello_abort hr hok haged hrecords (by rw [hown]; nofun) reason

theorem handleHello_report (hq : sc.Quiet t s) (hr : RealmOk settings s)
    (ht : ∀ u, t.Tidy u (settings.limitsOf u)) (listener : ListenerAuth)
    (flatBuffers : Bool) (hello : Hello) (profileAccepted : Bool) :
    Report settings now t s h
      (sc.handleHello settings listener flatBuffers hello profileAccepted now) := by
  unfold Scene.handleHello
  split
  · exact hq.sendAbort_plain hr rfl _
  · next hphase =>
    have hphase : sc.state.phase = .awaitingHello := Classical.not_not.mp hphase
    split
    · exact hq.sendAbort_plain hr rfl _
    · split
      · exact hq.sendAbort_plain hr rfl _
      · next realmUri _ =>
        split
        · exact hq.sendAbort_plain hr rfl _
        · split
          · exact hq.sendAbort_plain hr rfl _
          · next realm hfind =>
            have hname : realm.name = realmUri := by simpa using List.find?_some hfind
            have hlimits := AuthSettings.limitsOf_eq hfind
            subst hname
            dsimp only
            have hreal : ∀ {s' : HandshakeState}, s'.realmUri = some realm.name →
                s'.realmSettings = some realm → RealmOk settings s' := by
              intro s' hu hs u hu'
              rw [hu] at hu'
              cases hu'
              exact ⟨realm, hs, hfind⟩
            split
            · -- The selection throws: the connection still waits for HELLO.
              have hquiet : Quiet t { sc.state with
                  realmSettings := some realm, realmUri := some realm.name } (sc.update fun s =>
                  { s with realmSettings := some realm, realmUri := some realm.name }) :=
                ⟨hq.tracker, hq.events, rfl, rfl, rfl⟩
              refine hquiet.report_hello (hreal rfl rfl) (fun w hw => by cases hw)
                (fun _ _ => .inl rfl) fun u x hf => ?_
              rcases inFlight_iff.mp hf with ⟨_, ⟨⟩, -⟩ | ⟨-, -, ⟨_, ⟨⟩, -⟩ | hp⟩
              change sc.state.isPending = true at hp
              unfold HandshakeState.isPending at hp
              rw [hphase] at hp
              cases hp
            · next selection _ =>
              generalize hsc : ((sc.update fun s =>
                  { s with realmSettings := some realm, realmUri := some realm.name }).update
                  fun s => { s with pendingAuthId := hello.details.authid }) = sc₁
              have htidy : sc₁.tracker.Tidy realm.name realm.limits := by
                rw [← hsc]
                change sc.tracker.Tidy realm.name realm.limits
                rw [hq.tracker, ← hlimits]
                exact ht realm.name
              obtain ⟨hstate, hevents, haged, hpass⟩ :=
                checkAuthId_spec sc₁ realm hello.details.authid now htidy
              have htracker : sc₁.tracker = t := by
                rw [← hsc]
                exact hq.tracker
              rw [htracker] at haged
              generalize sc₁.checkAuthId realm hello.details.authid now = checked at *
              obtain ⟨sc₂, passed⟩ := checked
              have hquiet : Quiet sc₂.tracker sc₁.state sc₂ := by
                refine ⟨rfl, ?_, by rw [hstate], by rw [hstate], by rw [hstate]⟩
                rw [hevents, ← hsc]
                exact hq.events
              have hr₁ : RealmOk settings sc₁.state := by
                rw [← hsc]
                exact hreal rfl rfl
              have hclaim : sc₁.state.pendingAuthId = hello.details.authid := by
                rw [← hsc]
                rfl
              have hrealm : sc₁.state.realmUri = some realm.name := by
                rw [← hsc]
                rfl
              dsimp only at hpass ⊢
              split
              · exact hquiet.report_hello_plain hr₁ rfl haged _
              · next hpassed =>
                have hunlocked : ∀ u x, sc₁.state.realmUri = some u →
                    sc₁.state.pendingAuthId = some x → sc₂.tracker.Unlocked u x now := by
                  intro u x hu hx
                  rw [hrealm] at hu
                  cases hu
                  exact hpass (by simpa using hpassed) x (hclaim.symm.trans hx)
                split
                · refine hquiet.report_hello_abort hr₁ ?_ haged rfl ?_ _
                  · exact hfind
                  · intro u x hown
                    cases hid : hello.details.authid with
                    | none =>
                        rw [hid] at hown
                        cases hown
                    | some id =>
                        rw [hid] at hown
                        cases hown
                        exact hpass (by simpa using hpassed) _ hid
                · next selection _ =>
                  have hmethod : Quiet sc₂.tracker sc₁.state (sc₂.update fun s =>
                      { s with authMethod := some selection.method }) :=
                    hquiet.update ⟨rfl, rfl, rfl⟩
                  have hserve : ∀ {sc' : Scene} {w : Await}, Quiet sc₂.tracker sc₁.state sc' →
                      w.ownKey = none → AwaitOk settings sc₁.state w →
                      Report settings now t s h (sc', some w) := by
                    intro sc' w hq' hown hw
                    refine hq'.report_hello hr₁ ?_ haged fun u x hf => ?_
                    · rintro _ ⟨⟩
                      exact hw
                    · rcases inFlight_iff.mp hf with ⟨_, ⟨⟩, hkey⟩ | ⟨hu, hx, -⟩
                      · rw [hown] at hkey
                        cases hkey
                      · exact hunlocked u x (hq'.realm.symm.trans hu) (hq'.claim.symm.trans hx)
                  split
                  · unfold Scene.openAnonymousSession
                    dsimp only
                    split
                    · exact hmethod.report_hello_plain hr₁ rfl haged _
                    · exact hserve ((hmethod.emit rfl).update ⟨rfl, rfl, rfl⟩) rfl trivial
                  · exact hserve hmethod rfl trivial

/-! ### Results of an authenticator -/

/-- The connection's own authid is in flight. -/
def Pursued (s : HandshakeState) (h : Option Await) : Prop :=
  ∀ u x, s.realmUri = some u → s.pendingAuthId = some x → inFlight s h u x = true

/-- A segment of a handshake in flight. -/
theorem Quiet.report_pursued {a : Option Await} (hq : sc.Quiet t s) (hr : RealmOk settings s)
    (hp : Pursued s h) (ha : ∀ w ∈ a, AwaitOk settings s w ∧ w.ownKey = none) :
    Report settings now t s h (sc, a) := by
  refine hq.report hr (fun w hw => (ha w hw).1) fun u x hf => ?_
  rcases inFlight_iff.mp hf with ⟨w, hw, hkey⟩ | ⟨hu, hx, -⟩
  · rw [(ha w hw).2] at hkey
    cases hkey
  · exact hp u x (hq.realm.symm.trans hu) (hq.claim.symm.trans hx)

/-- An authenticator is called for the connection's authid. -/
theorem Quiet.report_serve {w : Await} {e : HandshakeEvent} (hq : sc.Quiet t s)
    (hr : RealmOk settings s) (hp : Pursued s h) (he : e.isOutcome = false)
    (hserve : ∀ u x, e.touches u x = true → s.realmUri = some u ∧ s.pendingAuthId = some x)
    (hw : AwaitOk settings s w ∧ w.ownKey = none) :
    Report settings now t s h (sc.emit e, some w) where
  realm := hq.realmOk hr
  await := by
    rintro _ ⟨⟩
    exact hw.1.mono (.inr hq.realm)
  effect := by
    change TrackerEffect settings now t _ sc.tracker
    rw [hq.tracker]
    refine .aged (fun e' he' => ?_) fun _ _ => .inl rfl
    rcases List.mem_append.mp he' with he' | he'
    · exact HandshakeEvent.isOutcome_of_not_tracked (hq.events e' he')
    · rw [List.mem_singleton.mp he']
      exact he
  touch u x e' he' ht := by
    rcases List.mem_append.mp he' with he' | he'
    · rw [HandshakeEvent.touches_of_not_tracked (hq.events e' he')] at ht
      cases ht
    · rw [List.mem_singleton.mp he'] at ht
      obtain ⟨hu, hx⟩ := hserve u x ht
      exact .inl (hp u x hu hx)
  flight u x hf := by
    rcases inFlight_iff.mp hf with ⟨_, ⟨⟩, hkey⟩ | ⟨hu, hx, -⟩
    · rw [hw.2] at hkey
      cases hkey
    · exact .inl (hp u x (hq.realm.symm.trans hu) (hq.claim.symm.trans hx))
  fails u x he' := by
    rcases List.mem_append.mp he' with he' | he'
    · cases hq.events _ he'
    · rw [← List.mem_singleton.mp he'] at he
      cases he

theorem sendWelcome_report (hq : sc.Quiet t s) (hr : RealmOk settings s) (hp : Pursued s h)
    (a : Nat) (method : String) (success : AuthSuccess) (inHello : Bool) (sessionId : Nat) :
    Report settings now t s h (sc.sendWelcome a method success inHello sessionId) := by
  have hsession : Quiet t s (sc.update fun s => { s with sessionId := some sessionId }) :=
    hq.update ⟨rfl, rfl, rfl⟩
  unfold Scene.sendWelcome
  dsimp only
  split
  · exact hsession.throwIn hr inHello
  · refine ((hsession.update ⟨rfl, rfl, rfl⟩).emit rfl).report_pursued hr hp ?_
    rintro _ ⟨⟩
    exact ⟨rfl, rfl⟩

theorem applyAuthResult_report (hq : sc.Quiet t s) (hr : RealmOk settings s) (hp : Pursued s h)
    (a : Nat) (method : String) (result : AuthResult) (inHello : Bool) :
    Report settings now t s h (sc.applyAuthResult a method result inHello now) := by
  unfold Scene.applyAuthResult
  cases result with
  | challenge =>
      refine ((hq.update ⟨rfl, rfl, rfl⟩).emit rfl).report_pursued hr hp ?_
      rintro _ ⟨⟩
      exact ⟨trivial, rfl⟩
  | success success =>
      dsimp only
      split
      · exact sendWelcome_report hq hr hp ..
      · refine hq.report_pursued hr hp ?_
        rintro _ ⟨⟩
        exact ⟨trivial, rfl⟩
  | failure reason =>
      have he : ExitOk settings s (.failed inHello) := trivial
      exact hq.abortThenSend hr he (fun _ _ hk => by cases hk) (fun _ => hp) reason

/-! ### AUTHENTICATE -/

theorem handleAuthenticate_report (hq : sc.Quiet t s) (hs : sc.state = s) (hr : RealmOk settings s)
    (flatBuffers : Bool) (signature : Option String) (profileAccepted : Bool) :
    Report settings now t s h
      (sc.handleAuthenticate flatBuffers signature profileAccepted now) := by
  unfold Scene.handleAuthenticate
  split
  · next a ctx realm method hphase ha hctx hsettings hmethod =>
    have hpending : s.isPending = true := by
      unfold HandshakeState.isPending
      rw [← hs, hphase, ha, hctx]
      rfl
    have hp : Pursued s h := fun u x hu hx => inFlight_of_pending hpending hu hx
    split
    · exact hq.sendAbort_plain hr rfl _
    · split
      · exact hq.abortThenSend_plain hr rfl _
      · split
        · have he : ExitOk settings s (.timedOut realm.limits) := by
            intro u hu
            obtain ⟨realm', hrealm', hfind⟩ := hr u hu
            rw [← hs, hsettings] at hrealm'
            cases hrealm'
            exact (AuthSettings.limitsOf_eq hfind).symm
          exact hq.abortThenSend hr he (fun _ _ hk => by cases hk) (fun _ => hp) _
        · refine hq.report_serve hr hp rfl ?_ ⟨trivial, rfl⟩
          intro u x ht
          rw [hs] at ht
          simpa [HandshakeEvent.touches, HandshakeEvent.serves, HandshakeEvent.fails,
            HandshakeEvent.succeeds] using ht
  · exact hq.abortThenSend_plain hr rfl _

/-! ### Going on -/

/-- A failure is recorded, if the tracker takes it. -/
theorem recordFailure_report {u x : String} {f : HandshakeState → HandshakeState}
    (hq : sc.Quiet t s) (hr : RealmOk settings s)
    (hf : (f sc.state).phase = .aborted ∧ (f sc.state).realmUri = sc.state.realmUri ∧
      (f sc.state).realmSettings = sc.state.realmSettings)
    (hflight : inFlight s h u x = true) (hkey : failureKey s h = some (u, x)) :
    Report settings now t s h
      ((sc.recordFailure u x (settings.limitsOf u) now).update f).finish := by
  have hstate : (sc.recordFailure u x (settings.limitsOf u) now).state = sc.state := by
    unfold Scene.recordFailure
    dsimp only
    split <;> rfl
  have hquiet : ∀ e ∈ sc.events, e.isOutcome = false := fun e he =>
    HandshakeEvent.isOutcome_of_not_tracked (hq.events e he)
  have hpending : ∀ v y, ¬ inFlight (f (sc.recordFailure u x (settings.limitsOf u) now).state) none
      v y = true := by
    intro v y hfl
    rcases inFlight_iff.mp hfl with ⟨_, ⟨⟩, -⟩ | ⟨-, -, ⟨_, ⟨⟩, -⟩ | hp⟩
    unfold HandshakeState.isPending at hp
    rw [hstate, hf.1] at hp
    cases hp
  have hmem : ∀ e ∈ (sc.recordFailure u x (settings.limitsOf u) now).events,
      e ∈ sc.events ∨ e = .failure u x := by
    intro e he
    unfold Scene.recordFailure at he
    dsimp only at he
    split at he
    · rcases List.mem_append.mp he with he | he
      · exact .inl he
      · exact .inr (List.mem_singleton.mp he)
    · exact .inl he
  refine ⟨?_, (fun w hw => by cases hw), ?_, ?_, fun v y hfl => absurd hfl (hpending v y), ?_⟩
  · intro v hv
    change (f (sc.recordFailure u x (settings.limitsOf u) now).state).realmUri = some v at hv
    change ∃ realm, (f (sc.recordFailure u x (settings.limitsOf u) now).state).realmSettings =
      some realm ∧ _
    rw [hstate] at hv ⊢
    rw [hf.2.2, hq.settings]
    exact hr v (hq.realm.symm.trans (hf.2.1.symm.trans hv))
  · cases htakes : sc.tracker.takesFailure u x (settings.limitsOf u) now with
    | true =>
        have heq : sc.recordFailure u x (settings.limitsOf u) now =
            { sc with tracker := sc.tracker.recordFailure u x (settings.limitsOf u) now }.emit
              (.failure u x) := by
          unfold Scene.recordFailure
          rw [htakes]
          rfl
        rw [heq]
        change TrackerEffect settings now t (sc.events ++ [.failure u x])
          (sc.tracker.recordFailure u x (settings.limitsOf u) now)
        rw [hq.tracker] at htakes ⊢
        exact .failed u x sc.events rfl hquiet htakes
    | false =>
        have heq : sc.recordFailure u x (settings.limitsOf u) now =
            { sc with tracker := sc.tracker.recordFailure u x (settings.limitsOf u) now } := by
          unfold Scene.recordFailure
          rw [htakes]
          rfl
        rw [heq]
        change TrackerEffect settings now t sc.events
          (sc.tracker.recordFailure u x (settings.limitsOf u) now)
        rw [hq.tracker] at htakes ⊢
        exact .aged hquiet (AuthSecurityTracker.find_recordFailure_of_not htakes)
  · intro v y e he ht
    rcases hmem e he with hmem | rfl
    · rw [HandshakeEvent.touches_of_not_tracked (hq.events e hmem)] at ht
      cases ht
    · simp only [HandshakeEvent.touches, HandshakeEvent.serves, HandshakeEvent.fails,
        HandshakeEvent.succeeds, Bool.false_or, Bool.or_false, Bool.and_eq_true, beq_iff_eq] at ht
      obtain ⟨rfl, rfl⟩ := ht
      exact .inl hflight
  · intro v y he
    rcases hmem _ he with he | he
    · cases hq.events _ he
    · cases he
      exact ⟨hkey, fun v y => Bool.eq_false_iff.mpr (hpending v y)⟩

/-- The handler ends without a record. -/
theorem Quiet.report_end {f : HandshakeState → HandshakeState} (hq : sc.Quiet t s)
    (hr : RealmOk settings s)
    (hf : (f sc.state).phase = .aborted ∧ (f sc.state).realmUri = sc.state.realmUri ∧
      (f sc.state).realmSettings = sc.state.realmSettings) :
    Report settings now t s h (sc.update f).finish := by
  refine ⟨?_, (fun w hw => by cases hw), ?_, ?_, ?_, fun u x he => by cases hq.events _ he⟩
  · intro u hu
    change (f sc.state).realmUri = some u at hu
    change ∃ realm, (f sc.state).realmSettings = some realm ∧ _
    rw [hf.2.2, hq.settings]
    exact hr u (hq.realm.symm.trans (hf.2.1.symm.trans hu))
  · change TrackerEffect settings now t sc.events sc.tracker
    rw [hq.tracker]
    exact .aged (fun e he => HandshakeEvent.isOutcome_of_not_tracked (hq.events e he))
      fun _ _ => .inl rfl
  · intro u x e he ht
    rw [HandshakeEvent.touches_of_not_tracked (hq.events e he)] at ht
    cases ht
  · intro u x hfl
    rcases inFlight_iff.mp hfl with ⟨_, ⟨⟩, -⟩ | ⟨-, -, ⟨_, ⟨⟩, -⟩ | hp⟩
    change (f sc.state).isPending = true at hp
    unfold HandshakeState.isPending at hp
    rw [hf.1] at hp
    cases hp

/-- The handler ends, and leaves the state as it was. -/
theorem Quiet.report_same (hq : sc.Quiet t s) (hs : sc.state = s) (hr : RealmOk settings s) :
    Report settings now t s h sc.finish := by
  refine hq.report hr (fun w hw => by cases hw) fun u x hf => ?_
  rcases inFlight_iff.mp hf with ⟨_, ⟨⟩, -⟩ | ⟨hu, hx, ⟨_, ⟨⟩, -⟩ | hp⟩
  rw [hs] at hu hx hp
  exact inFlight_of_pending hp hu hx

theorem runExit_report {previous : HandshakePhase} {exit : Exit} (hq : sc.Quiet t s)
    (hs : sc.state = s) (hr : RealmOk settings s) (he : ExitOk settings s exit) :
    Report settings now t s (some (.sending previous (.abort exit)))
      (sc.runExit now exit).finish := by
  unfold Scene.runExit
  cases exit with
  | refused => exact hq.report_end hr ⟨rfl, rfl, rfl⟩
  | locked => exact hq.report_end hr ⟨rfl, rfl, rfl⟩
  | noMethod realm authId =>
      cases authId with
      | none => exact hq.report_end hr ⟨rfl, rfl, rfl⟩
      | some id =>
          have hlimits := AuthSettings.limitsOf_eq he
          dsimp only
          rw [← hlimits]
          exact recordFailure_report hq hr ⟨rfl, rfl, rfl⟩
            (inFlight_iff.mpr (.inl ⟨_, rfl, rfl⟩)) rfl
  | caught => exact hq.report_end hr ⟨rfl, rfl, rfl⟩
  | profile => exact hq.report_same hs hr
  | timedOut limits =>
      dsimp only
      split
      · next u x hu hx =>
        rw [hs] at hu hx
        rw [he u hu]
        refine recordFailure_report hq hr ⟨rfl, rfl, rfl⟩ (inFlight_of_pursues rfl hu hx) ?_
        simp [failureKey, Exit.records, hu, hx]
      · exact hq.report_end hr ⟨rfl, rfl, rfl⟩
  | failed inHello =>
      dsimp only
      split
      · next u x realm hu hx hsettings =>
        rw [hs] at hu hx hsettings
        obtain ⟨realm', hrealm', hfind⟩ := hr u hu
        rw [hsettings] at hrealm'
        cases hrealm'
        rw [← AuthSettings.limitsOf_eq hfind]
        refine recordFailure_report hq hr ⟨rfl, rfl, rfl⟩ (inFlight_of_pursues rfl hu hx) ?_
        simp [failureKey, Exit.records, hu, hx]
      · exact hq.report_end hr ⟨rfl, rfl, rfl⟩

/-- The session that is about to open is that of the authid that HELLO named, or of one that is not
locked. -/
def OpensSafely (t : AuthSecurityTracker) (s : HandshakeState) (now : Nat)
    (details : WelcomeDetails) : Prop :=
  s.pendingAuthId = some details.authId ∨
    ∀ u, s.realmUri = some u → t.Unlocked u details.authId now

theorem sendThrew_report {previous : HandshakePhase} {next : Sending} (hq : sc.Quiet t s)
    (hs : sc.state = s) (hr : RealmOk settings s) :
    Report settings now t s (some (.sending previous next)) (sc.sendThrew next) := by
  cases next with
  | abort exit =>
      cases exit with
      | failed inHello => exact hq.throwIn hr inHello
      | _ => exact hq.report_same hs hr
  | challenge inHello => exact hq.throwIn hr inHello
  | welcomeAnonymous id details => exact hq.throwIn hr true
  | welcome a id details success inHello => exact hq.throwIn hr inHello
  | goodbye => exact hq.closeSession hr

/-- The session opens, under the authid of its WELCOME. -/
theorem openSession_report {host : Host} {sessionId : Nat} {details : WelcomeDetails}
    {a : Option Nat} {f : HandshakeState → HandshakeState} {sc' : Scene} {u : String}
    (hq : sc.Quiet t s) (hs : sc.state = s)
    (hf : (f s).phase = .opened ∧ (f s).realmUri = s.realmUri ∧
      (f s).realmSettings = s.realmSettings)
    (ho : (sc.update f).openSession host sessionId details a = .ok (sc', u))
    (hopens : OpensSafely t s now details) (hp : Pursued s h) :
    s.realmUri = some u ∧ sc'.tracker = t ∧ sc'.state.phase = .opened ∧
      sc'.state.realmUri = s.realmUri ∧ sc'.state.realmSettings = s.realmSettings ∧
      (∀ e ∈ sc'.events, e.isOutcome = false) ∧
      (∀ v y, ∀ e ∈ sc'.events, e.touches v y = true →
        inFlight s h v y = true ∨ t.Unlocked v y now) ∧
      (inFlight s h u details.authId = true ∨ t.Unlocked u details.authId now) := by
  obtain ⟨hf₁, hf₂, hf₃⟩ := hf
  unfold Scene.openSession at ho
  split at ho
  · cases ho
  · next v hv =>
    cases ho
    have hu : s.realmUri = some u := by
      rw [← hf₂, ← hs]
      exact hv
    have hauth : inFlight s h u details.authId = true ∨ t.Unlocked u details.authId now := by
      rcases hopens with hx | hx
      · exact .inl (hp u details.authId hu hx)
      · exact .inr (hx u hu)
    refine ⟨hu, hq.tracker, ?_, ?_, ?_, fun e he => ?_, fun v y e he ht => ?_, hauth⟩
    · change (f sc.state).phase = _
      rw [hs, hf₁]
    · change (f sc.state).realmUri = _
      rw [hs, hf₂]
    · change (f sc.state).realmSettings = _
      rw [hs, hf₃]
    · rcases List.mem_append.mp he with he | he
      · exact HandshakeEvent.isOutcome_of_not_tracked (hq.events e he)
      · rw [List.mem_singleton.mp he]
        rfl
    · rcases List.mem_append.mp he with he | he
      · rw [HandshakeEvent.touches_of_not_tracked (hq.events e he)] at ht
        cases ht
      · rw [List.mem_singleton.mp he] at ht
        simp only [HandshakeEvent.touches, HandshakeEvent.serves, HandshakeEvent.fails,
          HandshakeEvent.succeeds, Bool.or_false, Bool.and_eq_true, beq_iff_eq,
          Option.some.injEq] at ht
        obtain ⟨rfl, rfl⟩ := ht
        exact hauth

theorem afterSend_report {previous : HandshakePhase} {next : Sending} (hq : sc.Quiet t s)
    (hs : sc.state = s) (hr : RealmOk settings s)
    (hok : AwaitOk settings s (.sending previous next))
    (hopens : ∀ details, ((∃ id, next = .welcomeAnonymous id details) ∨
      ∃ a id success inHello, next = .welcome a id details success inHello) →
      OpensSafely t s now details) (host : Host) :
    Report settings now t s (some (.sending previous next)) (sc.afterSend host now next) := by
  -- After the session has opened, nothing is in flight.
  have hdone : ∀ {sc' : Scene}, sc'.state.phase = .opened → sc'.state.realmUri = s.realmUri →
      sc'.state.realmSettings = s.realmSettings →
      TrackerEffect settings now t sc'.events sc'.tracker →
      (∀ v y, ∀ e ∈ sc'.events, e.touches v y = true →
        inFlight s (some (.sending previous next)) v y = true ∨ t.Unlocked v y now) →
      (∀ u x, .failure u x ∉ sc'.events) →
      Report settings now t s (some (.sending previous next)) sc'.finish := by
    intro sc' hphase hrealm hsettings heffect htouch hfails
    refine ⟨fun u hu => ?_, (fun w hw => by cases hw), heffect, htouch, fun u x hf => ?_,
      fun u x he => absurd he (hfails u x)⟩
    · change sc'.state.realmUri = some u at hu
      change ∃ realm, sc'.state.realmSettings = some realm ∧ _
      rw [hsettings]
      exact hr u (hrealm.symm.trans hu)
    · rcases inFlight_iff.mp hf with ⟨_, ⟨⟩, -⟩ | ⟨-, -, ⟨_, ⟨⟩, -⟩ | hp⟩
      change sc'.state.isPending = true at hp
      unfold HandshakeState.isPending at hp
      rw [hphase] at hp
      cases hp
  unfold Scene.afterSend
  cases next with
  | abort exit => exact runExit_report hq hs hr hok
  | challenge inHello => exact hq.report_same hs hr
  | welcomeAnonymous id details =>
      have hp : Pursued s (some (.sending previous (.welcomeAnonymous id details))) :=
        fun u x hu hx => inFlight_of_pursues rfl hu hx
      dsimp only
      split
      · exact (hq.update ⟨rfl, rfl, rfl⟩).throwIn hr true
      · next sc' u ho =>
        obtain ⟨-, htracker, hphase, hrealm, hsettings, houtcome, htouch, -⟩ :=
          openSession_report hq hs ⟨rfl, rfl, rfl⟩ ho (hopens details (.inl ⟨id, rfl⟩)) hp
        refine hdone hphase hrealm hsettings ?_ htouch fun u x he => by cases houtcome _ he
        rw [htracker]
        exact .aged houtcome fun _ _ => .inl rfl
  | welcome a id details success inHello =>
      have hp : Pursued s (some (.sending previous (.welcome a id details success inHello))) :=
        fun u x hu hx => inFlight_of_pursues rfl hu hx
      dsimp only
      split
      · exact (hq.update ⟨rfl, rfl, rfl⟩).throwIn hr inHello
      · next sc' u ho =>
        obtain ⟨-, htracker, hphase, hrealm, hsettings, houtcome, htouch, hauth⟩ :=
          openSession_report hq hs ⟨rfl, rfl, rfl⟩ ho
            (hopens details (.inr ⟨a, id, success, inHello, rfl⟩)) hp
        refine hdone hphase hrealm hsettings ?_ (fun v y e he ht => ?_) fun v y he => ?_
        · change TrackerEffect settings now t (sc'.events ++ [.success u success.authId])
            (sc'.tracker.recordSuccess u success.authId)
          rw [htracker]
          exact .succeeded u success.authId sc'.events rfl houtcome
        · rcases List.mem_append.mp he with he | he
          · exact htouch v y e he ht
          · rw [List.mem_singleton.mp he] at ht
            simp only [HandshakeEvent.touches, HandshakeEvent.serves, HandshakeEvent.fails,
              HandshakeEvent.succeeds, Bool.false_or, Bool.and_eq_true, beq_iff_eq] at ht
            obtain ⟨rfl, rfl⟩ := ht
            rw [← (show details.authId = success.authId from hok)]
            exact hauth
        · rcases List.mem_append.mp he with he | he
          · cases houtcome _ he
          · cases List.mem_singleton.mp he
  | goodbye => exact hq.closeSession hr

/-- The session is closed, and the connection forgets all. -/
theorem closed_report (hq : sc.Quiet t s) :
    Report settings now t s h (sc.update fun _ => { phase := .aborted }).finish := by
  refine ⟨nofun, (fun w hw => by cases hw), ?_, ?_, ?_, fun u x he => by cases hq.events _ he⟩
  · change TrackerEffect settings now t sc.events sc.tracker
    rw [hq.tracker]
    exact .aged (fun e he => HandshakeEvent.isOutcome_of_not_tracked (hq.events e he))
      fun _ _ => .inl rfl
  · intro u x e he ht
    rw [HandshakeEvent.touches_of_not_tracked (hq.events e he)] at ht
    cases ht
  · intro u x hf
    rcases inFlight_iff.mp hf with ⟨_, ⟨⟩, -⟩ | ⟨hu, -⟩
    cases hu

/-- **A handler goes on**, wherever it waits and whatever it waited for. -/
theorem resume_report {w : Await} {host : Host} {fresh : Nat} {outcome : Outcome}
    {segment : Segment} (hq : sc.Quiet t s) (hs : sc.state = s) (hr : RealmOk settings s)
    (hok : AwaitOk settings s w)
    (hopens : ∀ previous next details, w = .sending previous next → outcome = .done →
      ((∃ id, next = .welcomeAnonymous id details) ∨
        ∃ a id success inHello, next = .welcome a id details success inHello) →
      OpensSafely t s now details)
    (hresume : sc.resume host now fresh w outcome = some segment) :
    Report settings now t s (some w) segment := by
  have hpursued : w.pursues = true → Pursued s (some w) :=
    fun hw u x hu hx => inFlight_of_pursues hw hu hx
  unfold Scene.resume at hresume
  split at hresume
  · -- `abortFirst`
    next reason exit =>
    cases hresume
    exact hq.sendAbort hr hok (fun u x hk => inFlight_iff.mpr
      (.inl ⟨.abortFirst reason exit, rfl, hk⟩)) hpursued reason
  · -- `abortInSend`
    next reason exit =>
    cases hresume
    refine ((hq.update ⟨rfl, rfl, rfl⟩).emit rfl).report hr ?_ fun u x hf => ?_
    · rintro _ ⟨⟩
      exact hok
    · rcases inFlight_iff.mp hf with ⟨_, ⟨⟩, hk⟩ | ⟨hu, hx, ⟨_, ⟨⟩, hp⟩ | hp⟩
      · exact inFlight_iff.mpr (.inl ⟨.abortInSend reason exit, rfl, hk⟩)
      · exact hpursued hp u x (hq.realm.symm.trans hu) (hq.claim.symm.trans hx)
      · cases hp
  · cases hresume
    refine ((hq.update ⟨rfl, rfl, rfl⟩).emit rfl).report_pursued hr (hpursued rfl) ?_
    rintro _ ⟨⟩
    exact ⟨trivial, rfl⟩
  · cases hresume
    refine (hq.update ⟨rfl, rfl, rfl⟩).report_pursued hr (hpursued rfl) ?_
    rintro _ ⟨⟩
    exact ⟨trivial, rfl⟩
  · -- `create`
    next method details =>
    cases hresume
    have hupdate : Quiet t s (sc.update fun s =>
        { s with authenticator := some fresh, authContext := some details }) :=
      hq.update ⟨rfl, rfl, rfl⟩
    refine hupdate.report_serve hr (hpursued rfl) rfl ?_ ⟨trivial, rfl⟩
    intro u x ht
    rw [hs] at ht
    simpa [HandshakeEvent.touches, HandshakeEvent.serves, HandshakeEvent.fails,
      HandshakeEvent.succeeds] using ht
  · cases hresume
    exact hq.throwIn hr true
  · -- `onHello`
    cases hresume
    exact applyAuthResult_report ((hq.emit rfl).update ⟨rfl, rfl, rfl⟩) hr (hpursued rfl) ..
  · cases hresume
    exact hq.throwIn hr true
  · -- `onAuthenticate`
    dsimp only at hresume
    split at hresume
    · cases hresume
      exact applyAuthResult_report (hq.emit rfl) hr (hpursued rfl) ..
    · cases hresume
      exact (hq.emit rfl).throwIn hr false
  · cases hresume
    exact hq.throwIn hr false
  · cases hresume
    exact sendWelcome_report hq hr (hpursued rfl) ..
  · -- `sending`
    next previous next =>
    split at hresume
    · cases hresume
      exact sendThrew_report hq hs hr
    · cases hresume
      exact afterSend_report hq hs hr hok (fun details hd =>
        hopens previous next details rfl rfl hd) host
  · cases hresume
    exact sendThrew_report hq hs hr
  · -- `closing`
    cases hresume
    unfold Scene.finishClose
    split
    · exact closed_report (hq.emit rfl)
    · exact closed_report hq
  · cases hresume

/-- A failure is recorded when the ABORT is out, not when it could not be sent. -/
theorem done_of_failure {previous : HandshakePhase} {exit : Exit} {host : Host} {fresh : Nat}
    {outcome : Outcome} {segment : Segment} {u x : String} (hq : sc.Quiet t s)
    (hresume : sc.resume host now fresh (.sending previous (.abort exit)) outcome = some segment)
    (hfailure : .failure u x ∈ segment.1.events) : outcome = .done := by
  cases outcome with
  | done => rfl
  | thrown =>
      cases hresume
      cases exit with
      | failed inHello =>
          have hno : .failure u x ∉ (sc.throwIn inHello).1.events := by
            cases inHello <;> exact fun he => by cases hq.abortPending.1.events _ he
          exact absurd hfailure hno
      | _ => cases hq.events _ hfailure
  | allocated id => cases hresume
  | result result => cases hresume

end Scene

end Connectanum
