import Connectanum.Lib.Checks
import Connectanum.State.Value

/-!
# Wire — SessionProfile

The capability gate of a FlatBuffers connection (`FlatBuffersSessionProfile`).  Each peer holds
one, and shows it every message that it is about to send or has just received.

The phase that a message leads to does not depend on the peer that looks at it, only on the
direction in which the message travels (`turn`).  `Carries` is what the two bootstrap messages must
say, and `prepare_turn`, `acceptIncoming_of_turn` put the two together: a message that one peer
lets out passes the content check of the other.
-/

namespace Connectanum

open Checks Collections

/-- `flatBuffersMetadataFeature`. -/
def flatBuffersMetadataFeature : String := "_connectanum_flatbuffers_metadata_v1"

namespace Profile

/-- The message classes that the gate tells apart. -/
inductive Kind where
  | abort
  | hello
  | challenge
  | authenticate
  | welcome
  | goodbye
  /-- Every other message. -/
  | application
  deriving DecidableEq

/-- A message, with the dictionary that `metadataFor` reads and `retainMetadataValues` writes. -/
structure Message where
  kind : Kind
  dictionary : Dict := .empty

inductive Phase where
  | initial
  | hello
  | challenged
  | authenticated
  | established
  | closing
  | closed
  deriving DecidableEq

inductive Refusal where
  /-- `StateError`. -/
  | state (message : String)
  /-- `UnsupportedError`. -/
  | unsupported (message : String)
  /-- The dictionary does not fit the bounded metadata encoding. -/
  | metadata
  deriving DecidableEq

structure FlatBuffersSessionProfile where
  client : Bool
  phase : Phase := .initial
  deriving DecidableEq

/-! ### Metadata -/

section

-- the dictionaries that the metadata encoding takes, within its limits
variable (encodable : Dict → Bool)

def metadataFor (message : Message) : Except Refusal Dict :=
  if encodable message.dictionary then .ok message.dictionary else .error .metadata

def retainMetadataValues (message : Message) (dictionary : Dict) : Except Refusal Message :=
  if encodable dictionary then .ok { message with dictionary } else .error .metadata

/-! ### Roles -/

/-- One round of the loop of `_roles`: the role dictionaries, and the role's own check. -/
def checkRole (advertise : Bool) (name : String) (roles : List (String × Value)) :
    Except Refusal (List (String × Value)) :=
  match roles.lookup name with
  | none => .ok roles
  | some (.dict role) =>
      let role :=
        if advertise ∧ ((role.lookup "features").getD .null).isNull then
          assocInsert "features" (.dict []) role
        else role
      match role.lookup "features" with
      | some (.dict features) =>
          let features :=
            if advertise then assocInsert flatBuffersMetadataFeature (.bool true) features
            else features
          if ((features.lookup flatBuffersMetadataFeature).getD .null).isTrue then
            -- without `advertise` the maps are read and left as they are
            .ok (if advertise then
              assocInsert name (.dict (assocInsert "features" (.dict features) role)) roles
              else roles)
          else
            .error (.unsupported
              ("FlatBuffers role " ++ name ++ " must acknowledge " ++ flatBuffersMetadataFeature))
      | _ => .error (.unsupported ("FlatBuffers role " ++ name ++ " requires features"))
  | some _ => .error (.unsupported ("Invalid FlatBuffers role " ++ name))

/-- The loop of `_roles`, with the number of applicable roles. -/
def checkRoles (advertise : Bool) :
    List String → List (String × Value) → Except Refusal (Nat × List (String × Value))
  | [], roles => .ok (0, roles)
  | name :: names, roles => do
      let roles' ← checkRole advertise name roles
      let (applicable, roles'') ← checkRoles advertise names roles'
      pure (applicable + if (roles.lookup name).isSome then 1 else 0, roles'')

/-- `_roles`. -/
def checkRoleDictionary (message : Message) (names : List String) (advertise : Bool) :
    Except Refusal Message := do
  let dictionary ← metadataFor encodable message
  match dictionary.at "roles" with
  | .dict roles =>
      let (applicable, roles) ← checkRoles advertise names roles
      if applicable = 0 then .error (.unsupported "No applicable FlatBuffers WAMP role")
      else if advertise then
        retainMetadataValues encodable message (dictionary.insert "roles" (.dict roles))
      else pure message
  | _ => .error (.unsupported "FlatBuffers bootstrap requires WAMP roles")

def clientRoles : List String := ["caller", "callee", "publisher", "subscriber"]

def routerRoles : List String := ["broker", "dealer"]

/-- The dictionary check of CHALLENGE. -/
def checkExtra (message : Message) (advertise : Bool) : Except Refusal Message := do
  let extra ← metadataFor encodable message
  let extra := if advertise then extra.insert flatBuffersMetadataFeature (.bool true) else extra
  let message ← if advertise then retainMetadataValues encodable message extra else pure message
  if Dict.flag extra flatBuffersMetadataFeature then pure message
  else .error (.unsupported
    ("FlatBuffers CHALLENGE must acknowledge " ++ flatBuffersMetadataFeature))

/-! ### The gate -/

/-- `_expect`. -/
def expect (accepted : Bool) (name : String) : Except Refusal Unit :=
  if accepted then .ok ()
  else .error (.state ("Unexpected " ++ name ++ " during FlatBuffers session setup"))

/-- `_prepare`: the profile after the message, and the message as it leaves. -/
def FlatBuffersSessionProfile.prepare (profile : FlatBuffersSessionProfile) (message : Message)
    (outgoing advertise : Bool) : Except Refusal (FlatBuffersSessionProfile × Message) :=
  let phase := profile.phase
  let at' (phase : Phase) : FlatBuffersSessionProfile := { profile with phase }
  match message.kind with
  | .abort =>
      if phase = .established ∨ phase = .closing ∨ phase = .closed then
        .error (.state "Unexpected FlatBuffers bootstrap ABORT")
      else do
        let _ ← metadataFor encodable message
        pure (at' .closed, message)
  | .hello => do
      expect (outgoing = profile.client ∧ phase = .initial) "HELLO"
      let message ← checkRoleDictionary encodable message clientRoles advertise
      pure (at' .hello, message)
  | .challenge => do
      expect (outgoing ≠ profile.client ∧ (phase = .hello ∨ phase = .authenticated)) "CHALLENGE"
      let message ← checkExtra encodable message advertise
      pure (at' .challenged, message)
  | .authenticate => do
      expect (outgoing = profile.client ∧ phase = .challenged) "AUTHENTICATE"
      pure (at' .authenticated, message)
  | .welcome => do
      expect (outgoing ≠ profile.client ∧ (phase = .hello ∨ phase = .authenticated)) "WELCOME"
      let message ← checkRoleDictionary encodable message routerRoles advertise
      pure (at' .established, message)
  | .goodbye => do
      expect (phase = .established ∨ phase = .closing) "GOODBYE"
      pure (at' (if phase = .closing then .closed else .closing), message)
  | .application => do
      expect (phase = .established) "application message"
      pure (profile, message)

def FlatBuffersSessionProfile.prepareOutgoing (profile : FlatBuffersSessionProfile)
    (message : Message) (advertise : Bool) :
    Except Refusal (FlatBuffersSessionProfile × Message) :=
  profile.prepare encodable message true advertise

def FlatBuffersSessionProfile.acceptIncoming (profile : FlatBuffersSessionProfile)
    (message : Message) : Except Refusal FlatBuffersSessionProfile :=
  Prod.fst <$> profile.prepare encodable message false false

end

/-! ### What the bootstrap messages say -/

/-- A role dictionary that names the feature. -/
def acknowledges : Value → Bool
  | .dict role =>
      match role.lookup "features" with
      | some (.dict features) =>
          ((features.lookup flatBuffersMetadataFeature).getD .null).isTrue
      | _ => false
  | _ => false

/-- The dictionary has one of the roles, and each of them that it has names the feature. -/
def Carries (names : List String) (dictionary : Dict) : Prop :=
  ∃ roles, dictionary.at "roles" = .dict roles ∧
    (∃ name ∈ names, (roles.lookup name).isSome = true) ∧
    ∀ name ∈ names, ∀ role, roles.lookup name = some role → acknowledges role = true

/-- What a round of `_roles` leaves of the role dictionaries. -/
structure RoleChecked (advertise : Bool) (name : String) (roles roles' : List (String × Value)) :
    Prop where
  present : ∀ n, (roles'.lookup n).isSome = (roles.lookup n).isSome
  others : ∀ n, n ≠ name → roles'.lookup n = roles.lookup n
  acknowledged : ∀ role, roles'.lookup name = some role → acknowledges role = true
  silent : advertise = false → roles' = roles

theorem checkRole_ok {advertise : Bool} {name : String} {roles roles' : List (String × Value)}
    (h : checkRole advertise name roles = .ok roles') :
    RoleChecked advertise name roles roles' := by
  cases advertise with
  | false =>
      simp only [checkRole, Bool.false_eq_true, false_and, if_false] at h
      split at h
      · next hnone =>
        cases h
        refine ⟨fun _ => rfl, fun _ _ => rfl, fun role hrole => ?_, fun _ => rfl⟩
        rw [hnone] at hrole
        cases hrole
      · next role hrole =>
        split at h
        · next features hfeatures =>
          split at h
          · next htrue =>
            cases h
            refine ⟨fun _ => rfl, fun _ _ => rfl, fun role' hrole' => ?_, fun _ => rfl⟩
            rw [hrole, Option.some.injEq] at hrole'
            subst hrole'
            simp only [acknowledges, hfeatures, htrue]
          · cases h
        · cases h
      · cases h
  | true =>
      simp only [checkRole, true_and, if_true] at h
      split at h
      · next hnone =>
        cases h
        refine ⟨fun _ => rfl, fun _ _ => rfl, fun role hrole => ?_, fun _ => rfl⟩
        rw [hnone] at hrole
        cases hrole
      · next role hrole =>
        split at h
        · next features hfeatures =>
          split at h
          · next htrue =>
            cases h
            refine ⟨fun n => ?_, fun n hn => ?_, fun role' hrole' => ?_, fun h => nomatch h⟩
            · rw [lookup_assocInsert]
              split
              · next hn => rw [hn, hrole]; rfl
              · rfl
            · rw [lookup_assocInsert, if_neg hn]
            · rw [lookup_assocInsert, if_pos rfl, Option.some.injEq] at hrole'
              subst hrole'
              simp only [acknowledges, lookup_assocInsert, if_true]
              rfl
          · cases h
        · cases h
      · cases h

/-- A role that names the feature passes. -/
theorem checkRole_of_acknowledged {name : String} {roles : List (String × Value)}
    (h : ∀ role, roles.lookup name = some role → acknowledges role = true) :
    checkRole false name roles = .ok roles := by
  unfold checkRole
  split
  · rfl
  · next role hrole =>
    have hack := h _ hrole
    simp only [acknowledges] at hack
    split at hack
    · next features hfeatures => simp [hfeatures, hack]
    · cases hack
  · next role hnot hrole =>
    have hack := h _ hrole
    unfold acknowledges at hack
    split at hack
    · next entries => exact absurd rfl (hnot entries)
    · cases hack

/-- What the loop of `_roles` leaves. -/
structure RolesChecked (advertise : Bool) (names : List String)
    (roles : List (String × Value)) (applicable : Nat) (roles' : List (String × Value)) :
    Prop where
  present : ∀ n, (roles'.lookup n).isSome = (roles.lookup n).isSome
  others : ∀ n, n ∉ names → roles'.lookup n = roles.lookup n
  acknowledged : ∀ name ∈ names, ∀ role, roles'.lookup name = some role → acknowledges role = true
  silent : advertise = false → roles' = roles
  some_role : 0 < applicable ↔ ∃ name ∈ names, (roles.lookup name).isSome = true

theorem checkRoles_ok {advertise : Bool} {names : List String} {roles : List (String × Value)}
    {applicable : Nat} {roles' : List (String × Value)}
    (h : checkRoles advertise names roles = .ok (applicable, roles')) :
    RolesChecked advertise names roles applicable roles' := by
  induction names generalizing roles applicable roles' with
  | nil =>
      cases h
      exact ⟨fun _ => rfl, fun _ _ => rfl, fun _ h => (nomatch h), fun _ => rfl, (by simp)⟩
  | cons name names ih =>
      obtain ⟨roles₁, h₁, h⟩ := except_bind_eq_ok h
      obtain ⟨⟨k, roles₂⟩, h₂, h⟩ := except_bind_eq_ok h
      cases h
      have first := checkRole_ok h₁
      have rest := ih h₂
      refine ⟨fun n => (rest.present n).trans (first.present n), fun n hn => ?_,
        fun n hn role hrole => ?_, fun ha => (rest.silent ha).trans (first.silent ha), ?_⟩
      · rw [List.mem_cons, not_or] at hn
        exact (rest.others n hn.2).trans (first.others n hn.1)
      · -- a role that the later rounds do not meet stays as its own round left it
        by_cases hmem : n ∈ names
        · exact rest.acknowledged n hmem role hrole
        · obtain rfl : n = name := (List.mem_cons.mp hn).resolve_right hmem
          rw [rest.others n hmem] at hrole
          exact first.acknowledged role hrole
      · have hpos := rest.some_role
        simp only [first.present] at hpos
        simp only [List.mem_cons, exists_eq_or_imp, ← hpos]
        split
        · next hsome => simp [hsome]
        · next hsome => simp [hsome]

theorem checkRoles_of_acknowledged {names : List String} {roles : List (String × Value)}
    (h : ∀ name ∈ names, ∀ role, roles.lookup name = some role → acknowledges role = true) :
    ∃ applicable, checkRoles false names roles = .ok (applicable, roles) := by
  induction names with
  | nil => exact ⟨0, rfl⟩
  | cons name names ih =>
      obtain ⟨k, hk⟩ := ih fun n hn => h n (List.mem_cons_of_mem _ hn)
      refine ⟨k + if (roles.lookup name).isSome then 1 else 0, ?_⟩
      rw [checkRoles, checkRole_of_acknowledged (h name (List.mem_cons_self ..))]
      change (checkRoles false names roles >>= _) = _
      rw [hk]
      rfl

/-! ### The phases, and what a message must say -/

/-- The phase that a message leads to: `up` is the direction from the client to the router. -/
def turn (up : Bool) : Phase → Kind → Option Phase
  | .initial, .abort | .hello, .abort | .challenged, .abort | .authenticated, .abort =>
      some .closed
  | .initial, .hello => if up then some .hello else none
  | .hello, .challenge | .authenticated, .challenge => if up then none else some .challenged
  | .challenged, .authenticate => if up then some .authenticated else none
  | .hello, .welcome | .authenticated, .welcome => if up then none else some .established
  | .established, .goodbye => some .closing
  | .closing, .goodbye => some .closed
  | .established, .application => some .established
  | _, _ => none

section

variable {encodable : Dict → Bool}

/-- The message passes the content check of its kind. -/
def Sound (encodable : Dict → Bool) (message : Message) : Prop :=
  match message.kind with
  | .abort => encodable message.dictionary = true
  | .hello => encodable message.dictionary = true ∧ Carries clientRoles message.dictionary
  | .challenge =>
      encodable message.dictionary = true ∧
        Dict.flag message.dictionary flatBuffersMetadataFeature = true
  | .welcome => encodable message.dictionary = true ∧ Carries routerRoles message.dictionary
  | .authenticate | .goodbye | .application => True

theorem metadataFor_ok {message : Message} {dictionary : Dict}
    (h : metadataFor encodable message = .ok dictionary) :
    encodable message.dictionary = true ∧ dictionary = message.dictionary := by
  unfold metadataFor at h
  split at h
  · next hfit => cases h; exact ⟨hfit, rfl⟩
  · cases h

theorem retainMetadataValues_ok {message message' : Message} {dictionary : Dict}
    (h : retainMetadataValues encodable message dictionary = .ok message') :
    encodable dictionary = true ∧ message' = { message with dictionary } := by
  unfold retainMetadataValues at h
  split at h
  · next hfit => cases h; exact ⟨hfit, rfl⟩
  · cases h

/-- The message that `_roles` lets through has its kind, and carries the feature. -/
theorem checkRoleDictionary_ok {message message' : Message} {names : List String}
    {advertise : Bool}
    (h : checkRoleDictionary encodable message names advertise = .ok message') :
    message'.kind = message.kind ∧ encodable message'.dictionary = true ∧
      Carries names message'.dictionary := by
  obtain ⟨dictionary, hdict, h⟩ := except_bind_eq_ok h
  obtain ⟨hfit, rfl⟩ := metadataFor_ok hdict
  split at h
  · next roles hroles =>
    obtain ⟨⟨applicable, roles'⟩, hchecked, h⟩ := except_bind_eq_ok h
    have checked := checkRoles_ok hchecked
    simp only at h
    split at h
    · cases h
    · next hpos =>
      obtain ⟨name, hname, hsome⟩ := checked.some_role.mp (Nat.pos_of_ne_zero hpos)
      split at h
      · obtain ⟨hfit', rfl⟩ := retainMetadataValues_ok h
        refine ⟨rfl, hfit', roles', ?_, ⟨name, hname, ?_⟩, checked.acknowledged⟩
        · simp only [Dict.at, LinkedMap.get?_insert_self, Option.getD_some]
        · rw [checked.present, hsome]
      · next hsilent =>
        cases h
        have hsame := checked.silent (Bool.eq_false_iff.mpr hsilent)
        exact ⟨rfl, hfit, roles, hroles, ⟨name, hname, hsome⟩, hsame ▸ checked.acknowledged⟩
  · cases h

theorem checkRoleDictionary_of_carries {message : Message} {names : List String}
    (hfit : encodable message.dictionary = true) (h : Carries names message.dictionary) :
    checkRoleDictionary encodable message names false = .ok message := by
  obtain ⟨roles, hroles, ⟨name, hname, hsome⟩, hack⟩ := h
  obtain ⟨applicable, hchecked⟩ := checkRoles_of_acknowledged hack
  have hpos := (checkRoles_ok hchecked).some_role.mpr ⟨name, hname, hsome⟩
  have hmeta : metadataFor encodable message = .ok message.dictionary := if_pos hfit
  rw [checkRoleDictionary, hmeta]
  change (match message.dictionary.at "roles" with
    | .dict roles => checkRoles false names roles >>= _
    | _ => _) = _
  rw [hroles]
  change (checkRoles false names roles >>= _) = _
  rw [hchecked]
  exact if_neg (Nat.ne_of_gt hpos)

theorem checkExtra_ok {message message' : Message} {advertise : Bool}
    (h : checkExtra encodable message advertise = .ok message') :
    message'.kind = message.kind ∧ encodable message'.dictionary = true ∧
      Dict.flag message'.dictionary flatBuffersMetadataFeature = true := by
  obtain ⟨extra, hextra, h⟩ := except_bind_eq_ok h
  obtain ⟨hfit, rfl⟩ := metadataFor_ok hextra
  cases advertise with
  | false =>
      change (if Dict.flag message.dictionary _ then Except.ok message else _) = _ at h
      split at h
      · next hflag => cases h; exact ⟨rfl, hfit, hflag⟩
      · cases h
  | true =>
      obtain ⟨kept, hkept, h⟩ := except_bind_eq_ok h
      obtain ⟨hfit', rfl⟩ := retainMetadataValues_ok hkept
      change (if Dict.flag (message.dictionary.insert _ _) _ then Except.ok _ else _) = _ at h
      split at h
      · next hflag => cases h; exact ⟨rfl, hfit', hflag⟩
      · cases h

theorem checkExtra_of_flag {message : Message} (hfit : encodable message.dictionary = true)
    (h : Dict.flag message.dictionary flatBuffersMetadataFeature = true) :
    checkExtra encodable message false = .ok message := by
  have hmeta : metadataFor encodable message = .ok message.dictionary := if_pos hfit
  rw [checkExtra, hmeta]
  exact if_pos h

theorem expect_ok {accepted : Bool} {name : String} {u : Unit}
    (h : expect accepted name = .ok u) : accepted = true := by
  cases accepted with
  | false => cases h
  | true => rfl

namespace FlatBuffersSessionProfile

/-- What the gate lets through takes the turn of its direction, and is sound. -/
theorem prepare_turn {profile profile' : FlatBuffersSessionProfile} {message message' : Message}
    {outgoing advertise : Bool}
    (h : profile.prepare encodable message outgoing advertise = .ok (profile', message')) :
    turn (outgoing == profile.client) profile.phase message.kind = some profile'.phase ∧
      profile'.client = profile.client ∧ message'.kind = message.kind ∧
      Sound encodable message' := by
  obtain ⟨kind, dictionary⟩ := message
  obtain ⟨client, phase⟩ := profile
  cases kind with
  | abort =>
      simp only [prepare] at h
      split at h
      · cases h
      · next hphase =>
        obtain ⟨_, hfit, h⟩ := except_bind_eq_ok h
        cases h
        refine ⟨?_, rfl, rfl, (metadataFor_ok hfit).1⟩
        cases phase <;> simp_all [turn]
  | hello =>
      obtain ⟨_, hexpect, h⟩ := except_bind_eq_ok h
      obtain ⟨kept, hkept, h⟩ := except_bind_eq_ok h
      cases h
      obtain ⟨rfl, rfl⟩ := of_decide_eq_true (expect_ok hexpect)
      obtain ⟨hkind, hsound⟩ := checkRoleDictionary_ok hkept
      refine ⟨by simp [turn], rfl, hkind, ?_⟩
      simpa only [Sound, hkind] using hsound
  | challenge =>
      obtain ⟨_, hexpect, h⟩ := except_bind_eq_ok h
      obtain ⟨kept, hkept, h⟩ := except_bind_eq_ok h
      cases h
      obtain ⟨hdir, hphase⟩ := of_decide_eq_true (expect_ok hexpect)
      obtain ⟨hkind, hsound⟩ := checkExtra_ok hkept
      refine ⟨?_, rfl, hkind, ?_⟩
      · obtain rfl | rfl := hphase <;> simp_all [turn]
      · simpa only [Sound, hkind] using hsound
  | authenticate =>
      obtain ⟨_, hexpect, h⟩ := except_bind_eq_ok h
      cases h
      obtain ⟨rfl, rfl⟩ := of_decide_eq_true (expect_ok hexpect)
      exact ⟨by simp [turn], rfl, rfl, trivial⟩
  | welcome =>
      obtain ⟨_, hexpect, h⟩ := except_bind_eq_ok h
      obtain ⟨kept, hkept, h⟩ := except_bind_eq_ok h
      cases h
      obtain ⟨hdir, hphase⟩ := of_decide_eq_true (expect_ok hexpect)
      obtain ⟨hkind, hsound⟩ := checkRoleDictionary_ok hkept
      refine ⟨?_, rfl, hkind, ?_⟩
      · obtain rfl | rfl := hphase <;> simp_all [turn]
      · simpa only [Sound, hkind] using hsound
  | goodbye =>
      obtain ⟨_, hexpect, h⟩ := except_bind_eq_ok h
      cases h
      obtain rfl | rfl := of_decide_eq_true (expect_ok hexpect)
      · exact ⟨rfl, rfl, rfl, trivial⟩
      · exact ⟨rfl, rfl, rfl, trivial⟩
  | application =>
      obtain ⟨_, hexpect, h⟩ := except_bind_eq_ok h
      cases h
      obtain rfl := of_decide_eq_true (expect_ok hexpect)
      exact ⟨rfl, rfl, rfl, trivial⟩

/-- A sound message is accepted whenever its turn exists. -/
theorem acceptIncoming_of_turn {profile : FlatBuffersSessionProfile} {message : Message}
    {phase : Phase} (hsound : Sound encodable message)
    (h : turn (!profile.client) profile.phase message.kind = some phase) :
    profile.acceptIncoming encodable message = .ok { profile with phase } := by
  obtain ⟨kind, dictionary⟩ := message
  obtain ⟨client, now⟩ := profile
  cases kind with
  | abort =>
      have hmeta : metadataFor encodable ⟨.abort, dictionary⟩ = .ok dictionary := if_pos hsound
      cases now <;> cases h <;> simp [acceptIncoming, prepare, hmeta]
  | hello =>
      have hroles : checkRoleDictionary encodable ⟨.hello, dictionary⟩ clientRoles false = .ok _ :=
        checkRoleDictionary_of_carries hsound.1 hsound.2
      cases now <;> cases client <;> cases h
      all_goals
        simp only [acceptIncoming, prepare, hroles]
        rfl
  | challenge =>
      have hextra : checkExtra encodable ⟨.challenge, dictionary⟩ false = .ok _ :=
        checkExtra_of_flag hsound.1 hsound.2
      cases now <;> cases client <;> cases h
      all_goals
        simp only [acceptIncoming, prepare, hextra]
        rfl
  | authenticate => cases now <;> cases client <;> cases h <;> rfl
  | welcome =>
      have hroles : checkRoleDictionary encodable ⟨.welcome, dictionary⟩ routerRoles false = .ok _ :=
        checkRoleDictionary_of_carries hsound.1 hsound.2
      cases now <;> cases client <;> cases h
      all_goals
        simp only [acceptIncoming, prepare, hroles]
        rfl
  | goodbye => cases now <;> cases h <;> rfl
  | application => cases now <;> cases h <;> rfl

end FlatBuffersSessionProfile

end

end Profile

end Connectanum
