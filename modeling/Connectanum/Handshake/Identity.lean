import Connectanum.Handshake.Machine
import Connectanum.Lib.Checks
import Connectanum.Lib.Runs

/-!
# Handshake — Identity

Where the identity of a session comes from: the success of an authenticator, or what the realm
configures for anonymous clients (`configuredAuthId`, `configuredAuthRole`).

The authid of an anonymous session falls back to what the client claims in HELLO.  `IdentitySafe`
leaves that out; in every run under it, the claims of a HELLO do not reach a session.
-/

namespace Connectanum

open Checks Collections Machine

/-! ### What a realm configures -/

/-- The options of the realm's anonymous method. -/
def anonymousOptions (settings : AuthSettings) (realm : AuthRealm) : Dict :=
  match createAuthenticatorSelectionForMethod settings realm "anonymous" with
  | .ok (some selection) => selection.options
  | _ => .empty

/-- An option that is a string, or the default. -/
def stringOption (options : Dict) (key default : String) : String :=
  match (options.at key).asString with
  | .ok (some value) => value
  | _ => default

def configuredAuthId (settings : AuthSettings) (realm : AuthRealm) : String :=
  stringOption (anonymousOptions settings realm) "authid" "anonymous"

def configuredAuthRole (settings : AuthSettings) (realm : AuthRealm) : String :=
  stringOption (anonymousOptions settings realm) "authrole" "anonymous"

theorem selected_of_ite {c : Prop} [Decidable c] {s selection : AuthenticatorSelection}
    (h : (if c then pure (some s) else pure none : Except Unit (Option AuthenticatorSelection)) =
      .ok (some selection)) : selection = s := by
  split at h <;> cases h
  rfl

/-- A selection that a factory stands behind is not anonymous. -/
theorem createSelection_not_anonymous {settings : AuthSettings} {realm : AuthRealm}
    {method : String} {selection : AuthenticatorSelection}
    (h : createAuthenticatorSelectionForMethod settings realm method = .ok (some selection)) :
    selection.isAnonymous = false := by
  unfold createAuthenticatorSelectionForMethod at h
  dsimp only at h
  split at h
  · rw [selected_of_ite h]
  · obtain ⟨key, -, h⟩ := except_bind_eq_ok h
    rw [selected_of_ite h]

/-- An anonymous selection depends on the realm alone, not on the methods that were offered. -/
theorem firstSelection_anonymous {settings : AuthSettings} {realm : AuthRealm}
    {allows : String → Bool} {methods : List String} {selection : AuthenticatorSelection}
    (h : firstSelection settings realm allows methods = .ok (some selection))
    (ha : selection.isAnonymous = true) : selection.options = anonymousOptions settings realm := by
  induction methods with
  | nil => cases h
  | cons method rest ih =>
      unfold firstSelection at h
      split at h
      · exact ih h
      · cases hc : createAuthenticatorSelectionForMethod settings realm method with
        | error e =>
            rw [hc] at h
            cases h
        | ok made =>
            rw [hc] at h
            by_cases hm : method = "anonymous"
            · subst hm
              cases h
              unfold anonymousOptions
              rw [hc]
              cases made <;> rfl
            · cases made with
              | none =>
                  refine ih ?_
                  simpa [bind, Except.bind, hm] using h
              | some s =>
                  have hs : s = selection := by
                    simpa [bind, Except.bind, hm, pure, Except.pure] using h
                  subst hs
                  rw [createSelection_not_anonymous hc] at ha
                  cases ha

/-! ### Where an identity comes from -/

/-- The identity that the realm configures for anonymous clients. -/
def ConfiguredIdentity (settings : AuthSettings) (realmUri authId authRole : String) : Prop :=
  ∃ realm, settings.realms.find? (fun r => r.name == realmUri) = some realm ∧
    authId = configuredAuthId settings realm ∧ authRole = configuredAuthRole settings realm

/-- The identity that an authenticator's success names. -/
def AcceptedIdentity (es : List HandshakeEvent) (a : Nat) (authId authRole : String) : Prop :=
  ∃ success, .verdict a (.success success) ∈ es ∧ authId = success.authId ∧
    authRole = success.authRole

/-- The identity of a session, in its record and in its WELCOME, has one of the two sources. -/
def Grounded (settings : AuthSettings) (es : List HandshakeEvent) : HandshakeEvent → Prop
  | .sessionOpen realmUri session a => ∃ authId authRole,
      session.authId = some authId ∧ session.authRole = some authRole ∧
      match a with
      | none => ConfiguredIdentity settings realmUri authId authRole
      | some a => AcceptedIdentity es a authId authRole
  | .sent (.welcome _ details) =>
      (∃ realmUri, details.realm = some realmUri ∧
        ConfiguredIdentity settings realmUri details.authId details.authRole) ∨
      ∃ a, AcceptedIdentity es a details.authId details.authRole
  | _ => True

def HandshakeEvent.isSuccess : HandshakeEvent → Bool
  | verdict _ (.success _) => true
  | _ => false

/-- No authenticator accepts what the client shows. -/
def NoneAccepted (es : List HandshakeEvent) : Prop := es.any HandshakeEvent.isSuccess = false

instance (es : List HandshakeEvent) : Decidable (NoneAccepted es) :=
  inferInstanceAs (Decidable (_ = false))

/-- What a handler that is about to open a session relies on. -/
def Promises (settings : AuthSettings) (es : List HandshakeEvent) (s : HandshakeState) :
    Await → Prop
  | .allocateAnonymous details | .sending _ (.welcomeAnonymous _ details) =>
      ∃ realmUri, details.realm = some realmUri ∧ (s.realmUri = none ∨ s.realmUri = some realmUri) ∧
        ConfiguredIdentity settings realmUri details.authId details.authRole
  | .reallocate a _ success _ => .verdict a (.success success) ∈ es
  | .sending _ (.welcome a _ details _ _) => AcceptedIdentity es a details.authId details.authRole
  | _ => True

section

variable {settings : AuthSettings} {es es' : List HandshakeEvent}

theorem AcceptedIdentity.mono {a : Nat} {authId authRole : String}
    (h : AcceptedIdentity es a authId authRole) (hes : ∀ e ∈ es, e ∈ es') :
    AcceptedIdentity es' a authId authRole := by
  obtain ⟨success, hm, hs⟩ := h
  exact ⟨success, hes _ hm, hs⟩

theorem Grounded.configured {realmUri : String} {session : SessionRecord} {a : Option Nat}
    (h : Grounded settings es (.sessionOpen realmUri session a)) (hn : NoneAccepted es) :
    ∃ authId authRole, session.authId = some authId ∧ session.authRole = some authRole ∧
      ConfiguredIdentity settings realmUri authId authRole := by
  obtain ⟨authId, authRole, hid, hrole, hsource⟩ := h
  refine ⟨authId, authRole, hid, hrole, ?_⟩
  cases a with
  | none => exact hsource
  | some a =>
      obtain ⟨success, hm, -⟩ := hsource
      exact absurd rfl (List.any_eq_false.mp hn _ hm)

theorem Grounded.mono {e : HandshakeEvent} (h : Grounded settings es e)
    (hes : ∀ e ∈ es, e ∈ es') : Grounded settings es' e := by
  cases e with
  | sessionOpen u session a =>
      obtain ⟨authId, authRole, h₁, h₂, h₃⟩ := h
      refine ⟨authId, authRole, h₁, h₂, ?_⟩
      cases a with
      | none => exact h₃
      | some a => exact h₃.mono hes
  | sent frame =>
      cases frame with
      | welcome sessionId details => exact h.imp id fun ⟨a, ha⟩ => ⟨a, ha.mono hes⟩
      | _ => trivial
  | _ => trivial

theorem Promises.mono {s s' : HandshakeState} {w : Await} (h : Promises settings es s w)
    (hes : ∀ e ∈ es, e ∈ es') (hs : s'.realmUri = none ∨ s'.realmUri = s.realmUri) :
    Promises settings es' s' w := by
  have hanonymous : ∀ {details : WelcomeDetails},
      (∃ u, details.realm = some u ∧ (s.realmUri = none ∨ s.realmUri = some u) ∧
        ConfiguredIdentity settings u details.authId details.authRole) →
      ∃ u, details.realm = some u ∧ (s'.realmUri = none ∨ s'.realmUri = some u) ∧
        ConfiguredIdentity settings u details.authId details.authRole := by
    rintro details ⟨u, hd, hu, hc⟩
    refine ⟨u, hd, ?_, hc⟩
    rcases hs with hs | hs
    · exact .inl hs
    · rw [hs]
      exact hu
  cases w with
  | allocateAnonymous details => exact hanonymous h
  | reallocate a method success inHello => exact hes _ h
  | sending previous next =>
      cases next with
      | welcomeAnonymous id details => exact hanonymous h
      | welcome a id details success inHello => exact AcceptedIdentity.mono h hes
      | _ => trivial
  | _ => trivial

end

/-- Opens no session and sends no WELCOME. -/
def HandshakeEvent.isPlain : HandshakeEvent → Bool
  | sessionOpen _ _ _ | sent (.welcome _ _) => false
  | _ => true

theorem Grounded.of_plain {settings : AuthSettings} {es : List HandshakeEvent}
    {e : HandshakeEvent} (h : e.isPlain = true) : Grounded settings es e := by
  cases e with
  | sessionOpen u session a => cases h
  | sent frame =>
      cases frame with
      | welcome id details => cases h
      | _ => trivial
  | _ => trivial

namespace Scene

variable {settings : AuthSettings} {es : List HandshakeEvent} {sc : Scene}

/-- A segment keeps to the sources of identity, and leaves its handler with what it relies on; `es`
are the events before it. -/
def IdentityOk (settings : AuthSettings) (es : List HandshakeEvent) (segment : Segment) : Prop :=
  (∀ e ∈ segment.1.events, Grounded settings (es ++ segment.1.events) e) ∧
    ∀ w ∈ segment.2, Promises settings (es ++ segment.1.events) segment.1.state w

/-- The scene has opened nothing and sent no WELCOME. -/
def Plain (sc : Scene) : Prop := ∀ e ∈ sc.events, e.isPlain = true

theorem Plain.emit (h : sc.Plain) {e : HandshakeEvent} (he : e.isPlain = true) :
    (sc.emit e).Plain := by
  intro e' he'
  rcases List.mem_append.mp he' with he' | he'
  · exact h e' he'
  · rw [List.mem_singleton.mp he']
    exact he

theorem Plain.update (h : sc.Plain) (f : HandshakeState → HandshakeState) : (sc.update f).Plain := h

theorem Plain.abortPending (h : sc.Plain) : sc.abortPending.Plain := by
  unfold Scene.abortPending
  split
  · exact h
  · split
    · exact (h.update _).emit rfl
    · exact h

theorem Plain.recordFailure (h : sc.Plain) (u authId : String) (limits : RealmLimitSettings)
    (now : Nat) : (sc.recordFailure u authId limits now).Plain := by
  have hsc : Plain { sc with tracker := sc.tracker.recordFailure u authId limits now } := h
  unfold Scene.recordFailure
  dsimp only
  split
  · exact hsc.emit rfl
  · exact hsc

theorem Plain.runExit (h : sc.Plain) (now : Nat) (exit : Exit) : (sc.runExit now exit).Plain := by
  unfold Scene.runExit
  cases exit with
  | noMethod realm authId =>
      cases authId with
      | none => exact h
      | some id => exact (h.recordFailure _ _ _ _).update _
  | timedOut limits =>
      dsimp only
      split
      · exact (h.recordFailure _ _ _ _).update _
      · exact h
  | failed inHello =>
      dsimp only
      split
      · exact (h.recordFailure _ _ _ _).update _
      · exact h
  | _ => exact h

/-- Nothing was opened, and what follows relies on nothing. -/
theorem IdentityOk.of_plain {segment : Segment} (h : segment.1.Plain)
    (hw : ∀ w ∈ segment.2, Promises settings (es ++ segment.1.events) segment.1.state w) :
    IdentityOk settings es segment :=
  ⟨fun e he => .of_plain (h e he), hw⟩

theorem Plain.finish (h : sc.Plain) : IdentityOk settings es sc.finish :=
  .of_plain h fun w hw => by cases hw

theorem Plain.sendAbort (h : sc.Plain) (reason : String) (exit : Exit) :
    IdentityOk settings es (sc.sendAbort reason exit) := by
  refine .of_plain h.abortPending ?_
  rintro _ ⟨⟩
  trivial

theorem Plain.abortThenSend (h : sc.Plain) (reason : String) (exit : Exit) :
    IdentityOk settings es (sc.abortThenSend reason exit) := by
  refine .of_plain h.abortPending ?_
  rintro _ ⟨⟩
  trivial

theorem Plain.throwIn (h : sc.Plain) (inHello : Bool) :
    IdentityOk settings es (sc.throwIn inHello) := by
  cases inHello with
  | true => exact h.sendAbort ..
  | false => exact h.abortThenSend ..

theorem Plain.closeSession (h : sc.Plain) : IdentityOk settings es sc.closeSession := by
  refine .of_plain h.abortPending ?_
  rintro _ ⟨⟩
  trivial

theorem Plain.handleGoodbye (h : sc.Plain) (reason : String) :
    IdentityOk settings es (sc.handleGoodbye reason) := by
  unfold Scene.handleGoodbye
  split
  · refine .of_plain (h.emit rfl) ?_
    rintro _ ⟨⟩
    trivial
  · exact h.closeSession

theorem Plain.finishClose (h : sc.Plain) : sc.finishClose.Plain := by
  unfold Scene.finishClose
  split
  · exact (h.emit rfl).update _
  · exact h

/-! ### The handlers -/

/-- The claim of a HELLO counts: the options have no authid, and it names another one than the
default. -/
def claimCounts (options : Dict) (details : HelloDetails) : Bool :=
  match (options.at "authid").asString with
  | .ok none => details.authid.any fun id => id != "anonymous"
  | _ => false

theorem openAnonymousSession_identity {realmUri : String} {realm : AuthRealm} {options : Dict}
    {details : HelloDetails} (h : sc.Plain)
    (hfind : settings.realms.find? (fun r => r.name == realmUri) = some realm)
    (hoptions : options = anonymousOptions settings realm)
    (hrealm : sc.state.realmUri = some realmUri) (hclaim : claimCounts options details = false) :
    IdentityOk settings es (sc.openAnonymousSession options realmUri details) := by
  unfold Scene.openAnonymousSession
  dsimp only
  split
  · exact h.throwIn true
  · next welcome hok =>
    obtain ⟨authid, hauthid, hok⟩ := except_bind_eq_ok hok
    obtain ⟨provider, -, hok⟩ := except_bind_eq_ok hok
    obtain ⟨authrole, hauthrole, hok⟩ := except_bind_eq_ok hok
    cases hok
    refine .of_plain ((h.emit rfl).update _) ?_
    rintro _ ⟨⟩
    refine ⟨realmUri, rfl, .inr hrealm, realm, hfind, ?_, ?_⟩
    · change (authid <|> details.authid).getD "anonymous" = configuredAuthId settings realm
      unfold configuredAuthId stringOption
      rw [← hoptions, hauthid]
      unfold claimCounts at hclaim
      rw [hauthid] at hclaim
      cases authid with
      | some id => rfl
      | none =>
          cases hd : details.authid with
          | none => rfl
          | some id =>
              rw [hd] at hclaim
              simpa using hclaim
    · change authrole.getD "anonymous" = configuredAuthRole settings realm
      unfold configuredAuthRole stringOption
      rw [← hoptions, hauthrole]
      cases authrole <;> rfl

/-- The HELLO would open an anonymous session under the authid that it claims. -/
def claimsIdentity (settings : AuthSettings) (listener : ListenerAuth) (hello : Hello) : Bool :=
  match hello.realm.bind fun u => settings.realms.find? fun r => r.name == u with
  | none => false
  | some realm =>
      match resolveAuthenticatorSelection settings listener realm
          (hello.details.authmethods.getD []) with
      | .ok (some selection) => selection.isAnonymous && claimCounts selection.options hello.details
      | _ => false

theorem checkAuthId_plain (h : sc.Plain) (realm : AuthRealm) (authId : Option String) (now : Nat) :
    (sc.checkAuthId realm authId now).1.Plain ∧
      (sc.checkAuthId realm authId now).1.state = sc.state := by
  unfold Scene.checkAuthId
  cases authId with
  | none => exact ⟨h, rfl⟩
  | some id =>
      dsimp only
      split <;> exact ⟨h, rfl⟩

theorem handleHello_identity {listener : ListenerAuth} {hello : Hello} (h : sc.Plain)
    (hclaim : claimsIdentity settings listener hello = false) (flatBuffers profileAccepted : Bool)
    (now : Nat) :
    IdentityOk settings es
      (sc.handleHello settings listener flatBuffers hello profileAccepted now) := by
  unfold Scene.handleHello
  split
  · exact h.sendAbort ..
  · split
    · exact h.sendAbort ..
    · split
      · exact h.sendAbort ..
      · next realmUri hrealmUri =>
        split
        · exact h.sendAbort ..
        · split
          · exact h.sendAbort ..
          · next realm hfind =>
            dsimp only
            split
            · exact Plain.finish h
            · next selection hselection =>
              have hentered : ((sc.update fun s =>
                  { s with realmSettings := some realm, realmUri := some realmUri }).update
                  fun s => { s with pendingAuthId := hello.details.authid }).Plain := h
              obtain ⟨hplain, hstate⟩ := checkAuthId_plain hentered realm hello.details.authid now
              generalize ((sc.update fun s =>
                  { s with realmSettings := some realm, realmUri := some realmUri }).update
                  fun s => { s with pendingAuthId := hello.details.authid }).checkAuthId realm
                hello.details.authid now = checked at hplain hstate
              obtain ⟨sc₂, passed⟩ := checked
              split
              · exact hplain.sendAbort ..
              · split
                · exact hplain.sendAbort ..
                · next selection =>
                  split
                  · next ha =>
                    have hoptions : selection.options = anonymousOptions settings realm := by
                      unfold resolveAuthenticatorSelection at hselection
                      obtain ⟨_, -, hfirst⟩ := except_bind_eq_ok hselection
                      exact firstSelection_anonymous hfirst ha
                    refine openAnonymousSession_identity (hplain.update _) hfind hoptions ?_ ?_
                    · change sc₂.state.realmUri = _
                      rw [hstate]
                      rfl
                    · unfold claimsIdentity at hclaim
                      rw [hrealmUri, Option.bind_some, hfind] at hclaim
                      simp only [hselection, ha, Bool.true_and] at hclaim
                      exact hclaim
                  · refine .of_plain (hplain.update _) ?_
                    rintro _ ⟨⟩
                    trivial

theorem sendWelcome_identity {a : Nat} {success : AuthSuccess} (h : sc.Plain)
    (hsuccess : .verdict a (.success success) ∈ es ++ sc.events) (method : String)
    (inHello : Bool) (sessionId : Nat) :
    IdentityOk settings es (sc.sendWelcome a method success inHello sessionId) := by
  unfold Scene.sendWelcome
  dsimp only
  split
  · exact (h.update _).throwIn inHello
  · next provider _ =>
    have haccepted : ∀ e, AcceptedIdentity (es ++ (sc.events ++ [e])) a success.authId
        success.authRole := by
      intro e
      refine ⟨success, ?_, rfl, rfl⟩
      rw [← List.append_assoc]
      exact List.mem_append_left _ hsuccess
    refine ⟨fun e he => ?_, ?_⟩
    · rcases List.mem_append.mp he with he | he
      · exact .of_plain (h e he)
      · rw [List.mem_singleton.mp he]
        exact .inr ⟨a, haccepted _⟩
    · rintro _ ⟨⟩
      exact haccepted _

theorem applyAuthResult_identity {a : Nat} {result : AuthResult} (h : sc.Plain)
    (hresult : ∀ success, result = .success success →
      .verdict a (.success success) ∈ es ++ sc.events) (method : String) (inHello : Bool)
    (now : Nat) : IdentityOk settings es (sc.applyAuthResult a method result inHello now) := by
  unfold Scene.applyAuthResult
  cases result with
  | challenge =>
      refine .of_plain ((h.update _).emit rfl) ?_
      rintro _ ⟨⟩
      trivial
  | success success =>
      dsimp only
      split
      · exact sendWelcome_identity h (hresult success rfl) ..
      · refine .of_plain h ?_
        rintro _ ⟨⟩
        exact hresult success rfl
  | failure reason => exact h.abortThenSend ..

theorem handleAuthenticate_identity (h : sc.Plain) (flatBuffers : Bool)
    (signature : Option String) (profileAccepted : Bool) (now : Nat) :
    IdentityOk settings es
      (sc.handleAuthenticate flatBuffers signature profileAccepted now) := by
  unfold Scene.handleAuthenticate
  split
  · split
    · exact h.sendAbort ..
    · split
      · exact h.abortThenSend ..
      · split
        · exact h.abortThenSend ..
        · refine .of_plain (h.emit rfl) ?_
          rintro _ ⟨⟩
          trivial
  · exact h.abortThenSend ..

/-- The session opens under the identity of its WELCOME. -/
theorem openSession_identity {host : Host} {sessionId : Nat} {details : WelcomeDetails}
    {a : Option Nat} {opened : Scene × String} (h : sc.Plain)
    (ho : sc.openSession host sessionId details a = .ok opened)
    (hdetails : ∀ u, sc.state.realmUri = some u →
      match a with
      | none => ConfiguredIdentity settings u details.authId details.authRole
      | some a => AcceptedIdentity (es ++ sc.events) a details.authId details.authRole) :
    ∀ e ∈ opened.1.events, Grounded settings (es ++ opened.1.events) e := by
  unfold Scene.openSession at ho
  split at ho
  · cases ho
  · next u hu =>
    cases ho
    intro e he
    rcases List.mem_append.mp he with he | he
    · exact .of_plain (h e he)
    · rw [List.mem_singleton.mp he]
      refine ⟨details.authId, details.authRole, rfl, rfl, ?_⟩
      have hd := hdetails u hu
      cases a with
      | none => exact hd
      | some a =>
          refine AcceptedIdentity.mono hd fun e he => ?_
          change e ∈ es ++ (sc.events ++ _)
          rw [← List.append_assoc]
          exact List.mem_append_left _ he

theorem sendThrew_identity (h : sc.Plain) (next : Sending) :
    IdentityOk settings es (sc.sendThrew next) := by
  cases next with
  | abort exit =>
      cases exit with
      | failed inHello => exact h.throwIn inHello
      | _ => exact h.finish
  | challenge inHello => exact h.throwIn inHello
  | welcomeAnonymous id details => exact h.throwIn true
  | welcome a id details success inHello => exact h.throwIn inHello
  | goodbye => exact h.closeSession

theorem afterSend_identity {previous : HandshakePhase} {next : Sending} (h : sc.Plain)
    (hpromise : Promises settings (es ++ sc.events) sc.state (.sending previous next)) (host : Host)
    (now : Nat) : IdentityOk settings es (sc.afterSend host now next) := by
  unfold Scene.afterSend
  cases next with
  | abort exit => exact (h.runExit now exit).finish
  | challenge inHello => exact h.finish
  | welcomeAnonymous id details =>
      obtain ⟨u, -, hu, hconfigured⟩ := hpromise
      dsimp only
      split
      · exact (h.update _).throwIn true
      · next sc' u' ho =>
        refine ⟨openSession_identity (h.update _) ho fun v hv => ?_, fun w hw => by cases hw⟩
        change sc.state.realmUri = some v at hv
        rw [hv] at hu
        rcases hu with hu | hu
        · cases hu
        · cases hu
          exact hconfigured
  | welcome a id details success inHello =>
      dsimp only
      split
      · exact (h.update _).throwIn inHello
      · next sc' u' ho =>
        have hopened : ∀ e ∈ sc'.events, Grounded settings (es ++ sc'.events) e :=
          openSession_identity (h.update _) ho fun _ _ => hpromise
        refine ⟨fun e he => ?_, fun w hw => by cases hw⟩
        rcases List.mem_append.mp he with he | he
        · refine (hopened e he).mono fun e he => ?_
          change e ∈ es ++ (sc'.events ++ _)
          rw [← List.append_assoc]
          exact List.mem_append_left _ he
        · rw [List.mem_singleton.mp he]
          trivial
  | goodbye => exact h.closeSession

/-- **A handler goes on**, wherever it waits and whatever it waited for. -/
theorem resume_identity {w : Await} {host : Host} {now fresh : Nat} {outcome : Outcome}
    {segment : Segment} (h : sc.Plain) (hpromise : Promises settings (es ++ sc.events) sc.state w)
    (hr : sc.resume host now fresh w outcome = some segment) :
    IdentityOk settings es segment := by
  have hverdict : ∀ (a : Nat) (result : AuthResult) (success : AuthSuccess),
      result = .success success → HandshakeEvent.verdict a (.success success) ∈
        es ++ (sc.events ++ [.verdict a result]) := by
    rintro a _ success rfl
    exact List.mem_append_right _ (List.mem_append_right _ (List.mem_singleton_self _))
  unfold Scene.resume at hr
  split at hr
  · cases hr
    exact h.sendAbort ..
  · cases hr
    refine .of_plain ((h.update _).emit rfl) ?_
    rintro _ ⟨⟩
    trivial
  · -- `allocateAnonymous`
    cases hr
    obtain ⟨u, hd, hu, hconfigured⟩ := hpromise
    refine ⟨fun e he => ?_, ?_⟩
    · rcases List.mem_append.mp he with he | he
      · exact .of_plain (h e he)
      · rw [List.mem_singleton.mp he]
        exact .inl ⟨u, hd, hconfigured⟩
    · rintro _ ⟨⟩
      exact ⟨u, hd, hu, hconfigured⟩
  · cases hr
    refine .of_plain (h.update _) ?_
    rintro _ ⟨⟩
    trivial
  · cases hr
    refine .of_plain ((h.update _).emit rfl) ?_
    rintro _ ⟨⟩
    trivial
  · cases hr
    exact h.throwIn true
  · -- `onHello`
    cases hr
    exact applyAuthResult_identity ((h.emit rfl).update _) (hverdict _ _) ..
  · cases hr
    exact h.throwIn true
  · -- `onAuthenticate`
    dsimp only at hr
    split at hr
    · cases hr
      exact applyAuthResult_identity (h.emit rfl) (hverdict _ _) ..
    · cases hr
      exact (h.emit rfl).throwIn false
  · cases hr
    exact h.throwIn false
  · cases hr
    exact sendWelcome_identity h hpromise ..
  · split at hr
    · cases hr
      exact sendThrew_identity h _
    · cases hr
      exact afterSend_identity h hpromise host now
  · cases hr
    exact sendThrew_identity h _
  · cases hr
    exact h.finishClose.finish
  · cases hr

/-- A removal or drain opens nothing and keeps the realm or drops it. -/
theorem resume_closer {w : Await} {host : Host} {now fresh : Nat} {outcome : Outcome}
    {segment : Segment} (h : sc.Plain)
    (hw : w = .closing ∨ ∃ previous, w = .sending previous .goodbye)
    (hr : sc.resume host now fresh w outcome = some segment) :
    segment.1.Plain ∧
      (segment.1.state.realmUri = none ∨ segment.1.state.realmUri = sc.state.realmUri) ∧
      ∀ w' ∈ segment.2, w' = .closing := by
  have hclose : sc.closeSession.1.Plain ∧ (sc.closeSession.1.state.realmUri = none ∨
      sc.closeSession.1.state.realmUri = sc.state.realmUri) ∧
      ∀ w' ∈ sc.closeSession.2, w' = .closing := by
    refine ⟨h.abortPending, .inr ?_, ?_⟩
    · unfold Scene.closeSession Scene.abortPending
      split
      · rfl
      · split <;> rfl
    · rintro _ ⟨⟩
      rfl
  rcases hw with rfl | ⟨previous, rfl⟩
  · cases outcome <;> cases hr
    exact ⟨h.finishClose, .inl rfl, fun w' hw' => by cases hw'⟩
  · cases outcome with
    | done =>
        simp only [Scene.resume] at hr
        split at hr <;> cases hr <;> exact hclose
    | thrown =>
        cases hr
        exact hclose
    | allocated id => cases hr
    | result result => cases hr

end Scene

/-! ### The worker -/

namespace HandshakeWorker

/-- The listener that a message's handler reads. -/
def listenerFor (w : HandshakeWorker) (c : Nat) (listener : ListenerAuth) : ListenerAuth :=
  ((w.peerOf c).map (·.listener)).getD listener

def identitySafe (w : HandshakeWorker) : HandshakeInput → Bool
  | .message c (.hello hello _) listener _ =>
      !Scene.claimsIdentity w.settings (w.listenerFor c listener) hello
  | _ => true

/-- A HELLO that selects anonymous authentication claims no authid, or the realm configures one. -/
def IdentitySafe (w : HandshakeWorker) (input : Nat × HandshakeInput) : Prop :=
  w.identitySafe input.2 = true

instance (w : HandshakeWorker) (input : Nat × HandshakeInput) : Decidable (w.IdentitySafe input) :=
  inferInstanceAs (Decidable (_ = true))

/-- Every session and WELCOME so far has its identity from where it should. -/
structure IdentityKept (w : HandshakeWorker) : Prop where
  grounded : ∀ ref, ∀ e ∈ w.eventsOf ref, Grounded w.settings (w.eventsOf ref) e
  promised : ∀ ref p, w.peers.get? ref = some p → ∀ a ∈ p.handler,
    Promises w.settings (w.eventsOf ref) p.state a
  closing : ∀ ref p, w.peers.get? ref = some p → ∀ x ∈ p.closers,
    x.1 = .closing ∨ ∃ previous, x.1 = .sending previous .goodbye

theorem identityKept_initial (settings : AuthSettings) : IdentityKept (initial settings) where
  grounded ref e he := by cases he
  promised ref p hp := by cases hp
  closing ref p hp := by cases hp

variable {w : HandshakeWorker} {ref : Ref} {p : Peer}

/-- A step on one state object. -/
theorem IdentityKept.settle (h : IdentityKept w) (hp : w.peers.get? ref = some p) {now n : Nat}
    {table : LinkedMap Nat Ref} {sc : Scene} {f : Peer → Peer}
    (hevents : ∀ e ∈ sc.events, Grounded w.settings (w.eventsOf ref ++ sc.events) e)
    (hhandler : ∀ a ∈ (f { p with state := sc.state }).handler,
      Promises w.settings (w.eventsOf ref ++ sc.events) (f { p with state := sc.state }).state a)
    (hclosers : ∀ x ∈ (f { p with state := sc.state }).closers,
      x.1 = .closing ∨ ∃ previous, x.1 = .sending previous .goodbye) :
    IdentityKept (HandshakeWorker.settle
      { w with connectionStates := table, nextAuthenticator := n } ref now sc f) := by
  refine ⟨fun r e he => ?_, fun r q hq => ?_, fun r q hq => ?_⟩
  · rw [eventsOf_settle] at he ⊢
    by_cases hr : r = ref
    · rw [if_pos hr] at he ⊢
      rcases List.mem_append.mp he with he | he
      · exact (h.grounded ref e he).mono fun _ hm => List.mem_append_left _ hm
      · exact hevents e he
    · rw [if_neg hr] at he ⊢
      exact h.grounded r e he
  · rw [eventsOf_settle]
    rw [get?_settle] at hq
    by_cases hr : r = ref
    · rw [if_pos hr] at hq ⊢
      rw [hp] at hq
      cases hq
      exact hhandler
    · rw [if_neg hr] at hq ⊢
      exact h.promised r q hq
  · rw [get?_settle] at hq
    by_cases hr : r = ref
    · rw [if_pos hr, hp] at hq
      cases hq
      exact hclosers
    · rw [if_neg hr] at hq
      exact h.closing r q hq

/-- A step of the handler. -/
theorem IdentityKept.settle_handler (h : IdentityKept w) (hp : w.peers.get? ref = some p)
    {now n : Nat} {table : LinkedMap Nat Ref} {segment : Segment}
    (hsegment : Scene.IdentityOk w.settings (w.eventsOf ref) segment) :
    IdentityKept (HandshakeWorker.settle
      { w with connectionStates := table, nextAuthenticator := n } ref now segment.1
      fun p => { p with handler := segment.2 }) :=
  h.settle hp hsegment.1 hsegment.2 (h.closing ref p hp)

/-- A step of a removal or drain. -/
theorem IdentityKept.settle_closer (h : IdentityKept w) (hp : w.peers.get? ref = some p)
    {now n : Nat} {table : LinkedMap Nat Ref} {sc : Scene}
    {g : List (Await × Bool) → List (Await × Bool)} (hplain : sc.Plain)
    (hrealm : sc.state.realmUri = none ∨ sc.state.realmUri = p.state.realmUri)
    (hclosers : ∀ x ∈ g p.closers,
      x.1 = .closing ∨ ∃ previous, x.1 = .sending previous .goodbye) :
    IdentityKept (HandshakeWorker.settle
      { w with connectionStates := table, nextAuthenticator := n } ref now sc
      fun p => { p with closers := g p.closers }) := by
  refine h.settle hp (fun e he => .of_plain (hplain e he)) (fun a ha => ?_) hclosers
  exact (h.promised ref p hp a ha).mono (fun _ hm => List.mem_append_left _ hm) hrealm

theorem IdentityKept.addPeer (h : IdentityKept w) (c : Nat) (listener : ListenerAuth)
    (flatBuffers : Bool) : IdentityKept (w.addPeer c listener flatBuffers) := by
  refine ⟨h.grounded, fun r q hq => ?_, fun r q hq => ?_⟩
  · rw [get?_addPeer] at hq
    split at hq
    · cases hq
      exact fun a ha => by cases ha
    · exact h.promised r q hq
  · rw [get?_addPeer] at hq
    split at hq
    · cases hq
      exact fun a ha => by cases ha
    · exact h.closing r q hq

theorem IdentityKept.receive (h : IdentityKept w) {now : Nat} {message : HandshakeMessage}
    (hsafe : ∀ p, w.peers.get? ref = some p → ∀ hello accepted, message = .hello hello accepted →
      Scene.claimsIdentity w.settings p.listener hello = false) :
    IdentityKept (w.receive now ref message) := by
  unfold HandshakeWorker.receive
  split
  · exact h
  · next p hp =>
    refine h.settle_handler hp ?_
    have hplain : Scene.Plain ⟨p.state, w.tracker, []⟩ := fun e he => by cases he
    cases message with
    | hello hello accepted =>
        exact Scene.handleHello_identity hplain (hsafe p hp hello accepted rfl) ..
    | authenticate signature accepted => exact Scene.handleAuthenticate_identity hplain ..
    | goodbye =>
        refine Scene.Plain.handleGoodbye ?_ _
        intro e he
        rw [List.mem_singleton.mp he]
        rfl

/-- A removal or drain begins. -/
theorem IdentityKept.leave (h : IdentityKept w) (hp : w.peers.get? ref = some p)
    {table : LinkedMap Nat Ref} {segment : Segment} {isDrain : Bool} {now : Nat}
    (hplain : segment.1.Plain) (hrealm : segment.1.state.realmUri = p.state.realmUri)
    (hnext : ∀ a ∈ segment.2, a = .closing ∨ ∃ previous, a = .sending previous .goodbye) :
    IdentityKept (HandshakeWorker.leave { w with connectionStates := table } now ref segment
      isDrain) := by
  refine h.settle_closer hp (g := fun l => l ++ segment.2.toList.map fun a => (a, isDrain)) hplain
    (.inr hrealm) fun x hx => ?_
  rcases List.mem_append.mp hx with hx | hx
  · exact h.closing ref p hp x hx
  · obtain ⟨a, ha, rfl⟩ := List.mem_map.mp hx
    exact hnext a (Option.mem_toList.mp ha)

theorem IdentityKept.leave_close (h : IdentityKept w) (hp : w.peers.get? ref = some p)
    {table : LinkedMap Nat Ref} {isDrain : Bool} {now : Nat} :
    IdentityKept (HandshakeWorker.leave { w with connectionStates := table } now ref
      (Scene.closeSession ⟨p.state, w.tracker, [.leaving]⟩) isDrain) := by
  have hplain : Scene.Plain ⟨p.state, w.tracker, [.leaving]⟩ := by
    intro e he
    rw [List.mem_singleton.mp he]
    rfl
  refine h.leave hp hplain.abortPending ?_ ?_
  · unfold Scene.closeSession Scene.abortPending
    split
    · rfl
    · split <;> rfl
  · rintro _ ⟨⟩
    exact .inl rfl

theorem IdentityKept.resumeHandler (h : IdentityKept w) {now : Nat} {outcome : Outcome} :
    IdentityKept (w.resumeHandler now ref outcome) := by
  unfold HandshakeWorker.resumeHandler
  split
  · exact h
  · next p hp =>
    split
    · exact h
    · next await hawait =>
      split
      · exact h
      · next segment hr =>
        have hpromise := h.promised ref p hp await hawait
        refine h.settle_handler hp (Scene.resume_identity (fun e he => by cases he) ?_ hr)
        rw [List.append_nil]
        exact hpromise

theorem IdentityKept.resumeCloser (h : IdentityKept w) {now index : Nat} {outcome : Outcome} :
    IdentityKept (w.resumeCloser now ref index outcome) := by
  unfold HandshakeWorker.resumeCloser
  split
  · exact h
  · next p hp =>
    split
    · exact h
    · next await isDrain hindex =>
      have hclosing := h.closing ref p hp _ (List.mem_of_getElem? hindex)
      have hplain : Scene.Plain ⟨p.state, w.tracker, []⟩ := fun e he => by cases he
      split
      · exact h
      · next sc next hr =>
        obtain ⟨hplain, hrealm, hnext⟩ := Scene.resume_closer hplain hclosing hr
        refine h.settle_closer hp (g := fun l => l.set index (next, isDrain)) hplain hrealm
          fun x hx => ?_
        rcases List.mem_or_eq_of_mem_set hx with hx | rfl
        · exact h.closing ref p hp x hx
        · exact .inl (hnext next rfl)
      · next sc hr =>
        obtain ⟨hplain, hrealm, -⟩ := Scene.resume_closer hplain hclosing hr
        exact h.settle_closer hp (g := fun l => l.eraseIdx index) hplain hrealm
          fun x hx => h.closing ref p hp x (List.mem_of_mem_eraseIdx hx)

theorem IdentityKept.step (h : IdentityKept w) {input : Nat × HandshakeInput}
    (hsafe : w.IdentitySafe input) : IdentityKept (w.step input) := by
  obtain ⟨now, input⟩ := input
  cases input with
  | add c listener flatBuffers =>
      change IdentityKept (if w.knows c then w else w.addPeer c listener flatBuffers)
      split
      · exact h
      · exact h.addPeer ..
  | message c message listener flatBuffers =>
      have hclaim : ∀ hello accepted, message = .hello hello accepted →
          Scene.claimsIdentity w.settings (w.listenerFor c listener) hello = false := by
        rintro hello accepted rfl
        simpa [IdentitySafe, identitySafe] using hsafe
      simp only [HandshakeWorker.step]
      split
      · exact h
      · cases hc : w.connectionStates.get? c with
        | some ref =>
            refine h.receive fun p hp hello accepted hm => ?_
            have := hclaim hello accepted hm
            unfold listenerFor peerOf at this
            rw [hc, Option.bind_some, hp] at this
            exact this
        | none =>
            refine (h.addPeer c listener flatBuffers).receive fun p hp hello accepted hm => ?_
            rw [get?_addPeer, if_pos rfl] at hp
            cases hp
            have := hclaim hello accepted hm
            unfold listenerFor peerOf at this
            rw [hc] at this
            exact this
  | remove c =>
      exact remove_keeps h fun _ _ _ hp => h.leave_close hp
  | drain c reason =>
      refine drain_keeps h (fun _ _ hp => h.leave_close hp) fun ref p hp => h.leave hp ?_ rfl ?_
      · intro e he
        simp only [List.mem_cons, List.not_mem_nil, or_false] at he
        rcases he with rfl | rfl <;> rfl
      · rintro _ ⟨⟩
        exact .inr ⟨_, rfl⟩
  | handler ref outcome => exact h.resumeHandler
  | closer ref index outcome => exact h.resumeCloser

theorem settings_step (input : Nat × HandshakeInput) : (w.step input).settings = w.settings := by
  obtain ⟨now, input⟩ := input
  have hreceive : ∀ (w : HandshakeWorker) ref message,
      (w.receive now ref message).settings = w.settings := by
    intro w ref message
    unfold HandshakeWorker.receive
    split <;> rfl
  cases input with
  | add c listener flatBuffers =>
      simp only [HandshakeWorker.step]
      split <;> rfl
  | message c message listener flatBuffers =>
      simp only [HandshakeWorker.step]
      split
      · rfl
      · split
        · exact hreceive ..
        · exact hreceive ..
  | remove c =>
      simp only [HandshakeWorker.step, HandshakeWorker.remove]
      split
      · rfl
      · split <;> rfl
  | drain c reason =>
      simp only [HandshakeWorker.step, HandshakeWorker.drain]
      split
      · rfl
      · split <;> rfl
  | handler ref outcome =>
      simp only [HandshakeWorker.step, HandshakeWorker.resumeHandler]
      split
      · rfl
      · split
        · rfl
        · split <;> rfl
  | closer ref index outcome =>
      simp only [HandshakeWorker.step, HandshakeWorker.resumeCloser]
      split
      · rfl
      · split
        · rfl
        · split <;> rfl

/-- In every run under `IdentitySafe`, each session and each WELCOME of a connection takes its
identity from an authenticator's success or from the realm's options. -/
theorem grounded_of_run {settings : AuthSettings} {inputs : List (Nat × HandshakeInput)}
    (hrun : Run HandshakeWorker.step IdentitySafe (initial settings) inputs w) :
    ∀ ref, ∀ e ∈ w.eventsOf ref, Grounded settings (w.eventsOf ref) e := by
  obtain ⟨hkept, hsettings⟩ : IdentityKept w ∧ w.settings = settings :=
    hrun.invariant (P := fun w => IdentityKept w ∧ w.settings = settings)
      (fun w i h hsafe => ⟨h.1.step hsafe, (settings_step i).trans h.2⟩)
      ⟨identityKept_initial settings, rfl⟩
  intro ref e he
  rw [← hsettings]
  exact hkept.grounded ref e he

/-- **The identity of a session comes from authentication.**  In every run under `IdentitySafe`,
whatever the HELLOs claim; and any two such runs, in particular two whose HELLOs differ in their
claims alone, give the sessions that they open in a realm without an authenticator's success the
same identity. -/
theorem identity_from_authentication (settings : AuthSettings) :
    (∀ inputs w, Run HandshakeWorker.step IdentitySafe (initial settings) inputs w →
      ∀ ref, ∀ e ∈ w.eventsOf ref, Grounded settings (w.eventsOf ref) e) ∧
    ∀ inputs₁ inputs₂ w₁ w₂, Run HandshakeWorker.step IdentitySafe (initial settings) inputs₁ w₁ →
      Run HandshakeWorker.step IdentitySafe (initial settings) inputs₂ w₂ →
      ∀ ref₁ ref₂ realmUri session₁ session₂ a₁ a₂,
        .sessionOpen realmUri session₁ a₁ ∈ w₁.eventsOf ref₁ → NoneAccepted (w₁.eventsOf ref₁) →
        .sessionOpen realmUri session₂ a₂ ∈ w₂.eventsOf ref₂ → NoneAccepted (w₂.eventsOf ref₂) →
        session₁.authId = session₂.authId ∧ session₁.authRole = session₂.authRole := by
  refine ⟨fun inputs w hrun => grounded_of_run hrun, ?_⟩
  intro inputs₁ inputs₂ w₁ w₂ hrun₁ hrun₂ ref₁ ref₂ realmUri session₁ session₂ a₁ a₂ h₁ hn₁ h₂ hn₂
  -- Without a success, both identities are the configured one of the realm.
  obtain ⟨id₁, role₁, hid₁, hrole₁, realm₁, hfind₁, rfl, rfl⟩ := (grounded_of_run hrun₁ _ _ h₁).configured hn₁
  obtain ⟨id₂, role₂, hid₂, hrole₂, realm₂, hfind₂, rfl, rfl⟩ := (grounded_of_run hrun₂ _ _ h₂).configured hn₂
  rw [hfind₁] at hfind₂
  cases hfind₂
  exact ⟨hid₁.trans hid₂.symm, hrole₁.trans hrole₂.symm⟩

/-- A client that names itself, in a realm that takes anonymous clients. -/
def claimRun (claim : Option String) : List (Nat × HandshakeInput) :=
  [(0, .message 1 (.hello { realm := some "realm1", details := { authid := claim } } true) {} false),
    (0, .handler 0 (.allocated 7)),
    (0, .handler 0 .done)]

/-- A realm that takes anonymous clients, with these options. -/
def openRealm (options : Dict) : AuthSettings :=
  let auth : RealmAuthSettings :=
    { methods := ["anonymous"]
      methodOptions := LinkedMap.empty.insert "anonymous" options }
  { realms := [{ name := "realm1", auth := auth }]
    factories := ["anonymous"] }

/-- The authids of the sessions that were opened on a state object. -/
def openedAuthIds (w : HandshakeWorker) (ref : Ref) : List (Option String) :=
  (w.eventsOf ref).filterMap fun e =>
    match e with
    | .sessionOpen _ session _ => some session.authId
    | _ => none

theorem identity_from_authentication_sample :
    ∃ w, Run HandshakeWorker.step IdentitySafe
        (initial (openRealm (LinkedMap.empty.insert "authid" (.str "guest"))))
        (claimRun (some "alice")) w ∧ w.openedAuthIds 0 = [some "guest"] ∧
      ∀ ref, ∀ e ∈ w.eventsOf ref,
        Grounded (openRealm (LinkedMap.empty.insert "authid" (.str "guest"))) (w.eventsOf ref) e := by
  have hrun : Run HandshakeWorker.step IdentitySafe
      (initial (openRealm (LinkedMap.empty.insert "authid" (.str "guest"))))
      (claimRun (some "alice")) _ := Run.of_admitted (by decide +kernel)
  exact ⟨_, hrun, by decide +kernel, (identity_from_authentication _).1 _ _ hrun⟩

/-- Two inputs that differ in the claims of a HELLO alone. -/
inductive SameButClaims : Nat × HandshakeInput → Nat × HandshakeInput → Prop where
  | same (input : Nat × HandshakeInput) : SameButClaims input input
  | hello (now c : Nat) (realm : Option String) (methods : Option (List String))
      (authid₁ authid₂ authrole₁ authrole₂ : Option String) (accepted : Bool)
      (listener : ListenerAuth) (flatBuffers : Bool) :
      SameButClaims
        (now, .message c (.hello ⟨realm, authid₁, authrole₁, methods⟩ accepted) listener flatBuffers)
        (now, .message c (.hello ⟨realm, authid₂, authrole₂, methods⟩ accepted) listener flatBuffers)

/-- **A claimed authid is taken**: on a realm without a configured one, two clients that differ in
their claim alone get the authids they ask for. -/
theorem claimed_authid_taken :
    ¬ ∀ (settings : AuthSettings) (inputs₁ inputs₂ : List (Nat × HandshakeInput)),
      List.Forall₂ SameButClaims inputs₁ inputs₂ → ∀ ref,
      NoneAccepted ((inputs₁.foldl step (initial settings)).eventsOf ref) →
      NoneAccepted ((inputs₂.foldl step (initial settings)).eventsOf ref) →
      ∀ id₁ ∈ (inputs₁.foldl step (initial settings)).openedAuthIds ref,
      ∀ id₂ ∈ (inputs₂.foldl step (initial settings)).openedAuthIds ref, id₁ = id₂ := by
  intro h
  have hsame := h (openRealm .empty) (claimRun (some "alice")) (claimRun (some "bob"))
    (.cons (.hello ..) (.cons (.same _) (.cons (.same _) .nil))) 0 (by decide +kernel)
    (by decide +kernel) (some "alice") (by decide +kernel) (some "bob") (by decide +kernel)
  exact absurd hsame (by decide)

end HandshakeWorker

end Connectanum
