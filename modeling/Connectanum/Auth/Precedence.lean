import Connectanum.Auth.Patterns

/-!
# Auth — Precedence

Which permission decides a request: of those that match it and mention its action the most specific,
and the first of equally specific ones (`evaluateStaticPermissions_iff`).  So where no two permissions
are equally specific their order does not matter (`authorize_perm`), and no provider overrules a
static denial.
-/

namespace Connectanum

deriving instance DecidableEq for AuthorizationDecision

namespace PermissionSettings

/-- An earlier policy, or the same and more of the URI given. -/
def MoreSpecific (p q : PermissionSettings) : Prop :=
  policyPriority p.matchPolicy < policyPriority q.matchPolicy ∨
    (p.matchPolicy = q.matchPolicy ∧ policySpecificity q < policySpecificity p)

/-- The first operation name of the action that the permission lists is denied, or allowed and not
denied. -/
def Gives (p : PermissionSettings) (action : AuthorizationAction) (allowed : Bool) : Prop :=
  ∃ before operation after, action.operationCandidates = before ++ operation :: after ∧
    (∀ other ∈ before, containsOperation p.deny other = false ∧
      containsOperation p.allow other = false) ∧
    containsOperation p.deny operation = !allowed ∧
    (allowed = true → containsOperation p.allow operation = true)

theorem verdict_eq_some {p : PermissionSettings} {action : AuthorizationAction} {allowed : Bool} :
    p.verdict action = some allowed ↔ p.Gives action allowed := by
  have hnone (operation : String) :
      (if containsOperation p.deny operation then some false
        else if containsOperation p.allow operation then some true else none) = none ↔
      containsOperation p.deny operation = false ∧ containsOperation p.allow operation = false := by
    cases containsOperation p.deny operation <;> cases containsOperation p.allow operation <;> simp
  have hsome (operation : String) :
      (if containsOperation p.deny operation then some false
        else if containsOperation p.allow operation then some true else none) = some allowed ↔
      containsOperation p.deny operation = !allowed ∧
        (allowed = true → containsOperation p.allow operation = true) := by
    cases allowed <;> cases containsOperation p.deny operation <;>
      cases containsOperation p.allow operation <;> simp
  unfold verdict Gives
  rw [List.findSome?_eq_some_iff]
  simp only [hnone, hsome]
  constructor
  · rintro ⟨before, operation, after, heq, hgives, hbefore⟩
    exact ⟨before, operation, after, heq, hbefore, hgives⟩
  · rintro ⟨before, operation, after, heq, hbefore, hgives⟩
    exact ⟨before, operation, after, heq, hgives, hbefore⟩

theorem policyPriority_inj {a b : PermissionMatchPolicy} (h : policyPriority a = policyPriority b) :
    a = b := by
  cases a <;> cases b <;> first | rfl | cases h

/-- Two permissions of which neither is more specific. -/
theorem tied {p q : PermissionSettings} (hpq : ¬ p.MoreSpecific q) (hqp : ¬ q.MoreSpecific p) :
    p.matchPolicy = q.matchPolicy ∧ policySpecificity p = policySpecificity q := by
  simp only [MoreSpecific, not_or, not_and, Nat.not_lt] at hpq hqp
  have hpolicy := policyPriority_inj (Nat.le_antisymm hqp.1 hpq.1)
  exact ⟨hpolicy, Nat.le_antisymm (hpq.2 hpolicy) (hqp.2 hpolicy.symm)⟩

end PermissionSettings

theorem PermissionMatch.ranks_iff_moreSpecific {l r : PermissionMatch} :
    l.Ranks r ↔ l.permission.MoreSpecific r.permission ∨
      (¬ r.permission.MoreSpecific l.permission ∧ l.index ≤ r.index) := by
  have hinj : policyPriority l.permission.matchPolicy = policyPriority r.permission.matchPolicy ↔
      l.permission.matchPolicy = r.permission.matchPolicy :=
    ⟨PermissionSettings.policyPriority_inj, fun h => by rw [h]⟩
  rw [ranks_iff, hinj]
  simp only [PermissionSettings.MoreSpecific]
  by_cases hpolicy : l.permission.matchPolicy = r.permission.matchPolicy
  · simp only [hpolicy, true_and]
    omega
  · have hne : policyPriority l.permission.matchPolicy ≠ policyPriority r.permission.matchPolicy :=
      fun h => hpolicy (hinj.mp h)
    simp only [hpolicy, Ne.symm hpolicy, false_and, or_false]
    omega

namespace RealmAuthorizer

/-- The deciding permission ranks before every other one that mentions the action. -/
theorem decidingPermission_iff {role : RoleSettings} {action : AuthorizationAction} {uri : String}
    {m : PermissionMatch} :
    decidingPermission role action uri = some m ↔
      (m ∈ rankedMatches role action uri ∧ (m.permission.verdict action).isSome = true) ∧
        ∀ q ∈ rankedMatches role action uri, (q.permission.verdict action).isSome = true →
          m.Ranks q := by
  have hsorted : (rankedMatches role action uri).Pairwise PermissionMatch.Ranks :=
    List.pairwise_insertionSort _ _
  have hfirst {m' : PermissionMatch} (h : decidingPermission role action uri = some m') :
      ∀ q ∈ rankedMatches role action uri, (q.permission.verdict action).isSome = true →
        m'.Ranks q := by
    obtain ⟨hm, before, after, heq, hbefore⟩ := List.find?_eq_some_iff_append.mp h
    intro q hq hmentions
    rw [heq] at hq hsorted
    rcases List.mem_append.mp hq with hq | hq
    · have hsilent := hbefore q hq
      rw [hmentions] at hsilent
      cases hsilent
    · rcases List.mem_cons.mp hq with rfl | hq
      · exact (Std.Total.total (r := PermissionMatch.Ranks) q q).elim id id
      · exact (List.pairwise_cons.mp (List.pairwise_append.mp hsorted).2.1).1 q hq
  have hmention {m' : PermissionMatch} (h : decidingPermission role action uri = some m') :
      (m'.permission.verdict action).isSome = true :=
    (List.find?_eq_some_iff_append.mp h).1
  constructor
  · intro h
    exact ⟨⟨List.mem_of_find?_eq_some h, hmention h⟩, hfirst h⟩
  · rintro ⟨⟨hmem, hmentions⟩, hbest⟩
    cases h : decidingPermission role action uri with
    | none =>
        have hnone := List.find?_eq_none.mp h m hmem
        exact absurd hmentions hnone
    | some m' =>
        have hmem' := List.mem_of_find?_eq_some h
        have hranks := hbest m' hmem' (hmention h)
        have hranks' := hfirst h m hmem hmentions
        have hindex : m.index = m'.index := by
          rw [ranks_iff] at hranks hranks'
          omega
        have hperm := (mem_rankedMatches.mp hmem).1
        rw [hindex, (mem_rankedMatches.mp hmem').1] at hperm
        obtain ⟨p, i⟩ := m
        obtain ⟨p', i'⟩ := m'
        simp only at hindex hperm
        rw [hindex, Option.some.inj hperm]

/-- The decision of a permission that allows or denies. -/
def staticDecision (request : AuthorizationRequest) (allowed : Bool) : AuthorizationDecision :=
  if allowed then .allow
  else .deny ("Role " ++ request.authRole.getD "" ++ " may not " ++
    request.action.operationName ++ " " ++ request.uri)

/-- The permission `p`, the role's `i`th, decides the request. -/
structure Decides (role : RoleSettings) (request : AuthorizationRequest) (i : Nat)
    (p : PermissionSettings) (allowed : Bool) : Prop where
  listed : role.permissions[i]? = some p
  applies : permissionMatches request.action request.uri p = true
  gives : p.Gives request.action allowed
  best : ∀ (j : Nat) (q : PermissionSettings) (other : Bool), role.permissions[j]? = some q →
    permissionMatches request.action request.uri q = true → q.Gives request.action other →
    p.MoreSpecific q ∨ (¬ q.MoreSpecific p ∧ i ≤ j)

theorem decides_iff {role : RoleSettings} {request : AuthorizationRequest} {i : Nat}
    {p : PermissionSettings} {allowed : Bool} :
    Decides role request i p allowed ↔
      decidingPermission role request.action request.uri = some ⟨p, i⟩ ∧
        p.verdict request.action = some allowed := by
  rw [decidingPermission_iff]
  constructor
  · rintro ⟨hlisted, happlies, hgives, hbest⟩
    have hverdict := PermissionSettings.verdict_eq_some.mpr hgives
    refine ⟨⟨⟨mem_rankedMatches.mpr ⟨hlisted, happlies⟩, ?_⟩, fun q hq hmentions => ?_⟩, hverdict⟩
    · dsimp only
      rw [hverdict]
      rfl
    · obtain ⟨hq, hqapplies⟩ := mem_rankedMatches.mp hq
      obtain ⟨other, hother⟩ := Option.isSome_iff_exists.mp hmentions
      exact PermissionMatch.ranks_iff_moreSpecific.mpr
        (hbest q.index q.permission other hq hqapplies
          (PermissionSettings.verdict_eq_some.mp hother))
  · rintro ⟨⟨⟨hmem, -⟩, hbest⟩, hverdict⟩
    obtain ⟨hlisted, happlies⟩ := mem_rankedMatches.mp hmem
    refine ⟨hlisted, happlies, PermissionSettings.verdict_eq_some.mp hverdict,
      fun j q other hq hqapplies hqgives => ?_⟩
    refine PermissionMatch.ranks_iff_moreSpecific.mp
      (hbest ⟨q, j⟩ (mem_rankedMatches.mpr ⟨hq, hqapplies⟩) ?_)
    dsimp only
    rw [PermissionSettings.verdict_eq_some.mpr hqgives]
    rfl

theorem evaluateStaticPermissions_iff {settings : RealmSettings} {request : AuthorizationRequest}
    {decision : AuthorizationDecision} :
    evaluateStaticPermissions settings request = some decision ↔
      ∃ role i p allowed, roleOf settings request = some role ∧
        Decides role request i p allowed ∧ decision = staticDecision request allowed := by
  simp only [evaluateStaticPermissions, findSome?_eq_find?_bind, Option.bind_eq_some_iff,
    Option.map_eq_some_iff]
  constructor
  · rintro ⟨role, hrole, allowed, ⟨m, hm, hverdict⟩, rfl⟩
    exact ⟨role, m.index, m.permission, allowed, hrole, decides_iff.mpr ⟨hm, hverdict⟩, rfl⟩
  · rintro ⟨role, i, p, allowed, hrole, hdecides, rfl⟩
    obtain ⟨hm, hverdict⟩ := decides_iff.mp hdecides
    exact ⟨role, hrole, allowed, ⟨⟨p, i⟩, hm, hverdict⟩, rfl⟩

/-! ### The order of the permissions -/

/-- The same role with its permissions in another order. -/
def Reordered (role role' : RoleSettings) : Prop :=
  role.name = role'.name ∧ role.permissions.Perm role'.permissions

/-- No two permissions of the role are equally specific. -/
def Distinguished (role : RoleSettings) : Prop :=
  role.permissions.Pairwise fun p q =>
    ¬ (p.matchPolicy = q.matchPolicy ∧ policySpecificity p = policySpecificity q)

theorem Reordered.symm {role role' : RoleSettings} (h : Reordered role role') :
    Reordered role' role :=
  ⟨h.1.symm, h.2.symm⟩

theorem Distinguished.of_reordered {role role' : RoleSettings} (h : Distinguished role)
    (hsame : Reordered role role') : Distinguished role' :=
  hsame.2.pairwise h fun hne heq => hne ⟨heq.1.symm, heq.2.symm⟩

theorem Distinguished.index_eq {role : RoleSettings} (h : Distinguished role) {i j : Nat}
    {p q : PermissionSettings} (hp : role.permissions[i]? = some p)
    (hq : role.permissions[j]? = some q)
    (htied : p.matchPolicy = q.matchPolicy ∧ policySpecificity p = policySpecificity q) : i = j := by
  obtain ⟨hi, rfl⟩ := List.getElem?_eq_some_iff.mp hp
  obtain ⟨hj, rfl⟩ := List.getElem?_eq_some_iff.mp hq
  rw [Distinguished, List.pairwise_iff_getElem] at h
  rcases Nat.lt_trichotomy i j with hlt | heq | hgt
  · exact absurd htied (h i j hi hj hlt)
  · exact heq
  · exact absurd ⟨htied.1.symm, htied.2.symm⟩ (h j i hj hi hgt)

theorem Decides.reorder {role role' : RoleSettings} {request : AuthorizationRequest} {i : Nat}
    {p : PermissionSettings} {allowed : Bool} (h : Decides role request i p allowed)
    (hsame : Reordered role role') (hdist : Distinguished role) :
    ∃ i', Decides role' request i' p allowed := by
  obtain ⟨i', hi'⟩ := List.mem_iff_getElem?.mp (hsame.2.subset (List.mem_of_getElem? h.listed))
  refine ⟨i', hi', h.applies, h.gives, fun j' q other hq' hqapplies hqgives => ?_⟩
  obtain ⟨j, hj⟩ := List.mem_iff_getElem?.mp (hsame.2.symm.subset (List.mem_of_getElem? hq'))
  by_cases hmore : p.MoreSpecific q
  · exact .inl hmore
  · -- Equally specific, so it is the same permission in both orders.
    obtain ⟨hless, -⟩ := (h.best j q other hj hqapplies hqgives).resolve_left hmore
    have htied := PermissionSettings.tied hmore hless
    have hindex := (hdist.of_reordered hsame).index_eq hi' hq' htied
    exact .inr ⟨hless, Nat.le_of_eq hindex⟩

/-- Two settings that differ in the order of the roles' permissions. -/
def Permuted (settings settings' : RealmSettings) : Prop :=
  List.Forall₂ Reordered settings.roles settings'.roles

theorem Permuted.symm {settings settings' : RealmSettings} (h : Permuted settings settings') :
    Permuted settings' settings :=
  List.Forall₂.flip (h.imp fun _ _ hsame => hsame.symm)

theorem Permuted.roleOf {settings settings' : RealmSettings} (h : Permuted settings settings')
    {request : AuthorizationRequest} {role : RoleSettings}
    (hrole : RealmAuthorizer.roleOf settings request = some role) :
    ∃ role', RealmAuthorizer.roleOf settings' request = some role' ∧ Reordered role role' := by
  obtain ⟨roles⟩ := settings
  obtain ⟨roles'⟩ := settings'
  unfold RealmAuthorizer.roleOf at hrole ⊢
  cases hauth : request.authRole with
  | none =>
      rw [hauth] at hrole
      cases hrole
  | some authRole =>
      rw [hauth] at hrole
      dsimp only at hrole ⊢
      split at hrole
      · cases hrole
      · next hne =>
        rw [if_neg hne]
        dsimp only [Permuted] at h hrole ⊢
        induction h with
        | nil => cases hrole
        | @cons candidate candidate' roles roles' hsame _ ih =>
            rw [List.find?_cons] at hrole ⊢
            rw [← hsame.1]
            cases hname : candidate.name == authRole with
            | true =>
                rw [hname] at hrole
                obtain rfl := Option.some.inj hrole
                exact ⟨candidate', rfl, hsame⟩
            | false =>
                rw [hname] at hrole
                exact ih hrole

theorem Permuted.hasStaticPolicy {settings settings' : RealmSettings}
    (h : Permuted settings settings') :
    (settings'.roles.any fun role => !role.permissions.isEmpty) =
      settings.roles.any fun role => !role.permissions.isEmpty := by
  obtain ⟨roles⟩ := settings
  obtain ⟨roles'⟩ := settings'
  dsimp only [Permuted] at h ⊢
  induction h with
  | nil => rfl
  | cons hsame _ ih => rw [List.any_cons, List.any_cons, ih, hsame.2.isEmpty_eq]

theorem Permuted.evaluate {settings settings' : RealmSettings} (h : Permuted settings settings')
    {request : AuthorizationRequest}
    (hdist : ∀ role, RealmAuthorizer.roleOf settings request = some role → Distinguished role)
    {decision : AuthorizationDecision}
    (hdecision : evaluateStaticPermissions settings request = some decision) :
    evaluateStaticPermissions settings' request = some decision := by
  obtain ⟨role, i, p, allowed, hrole, hdecides, hd⟩ := evaluateStaticPermissions_iff.mp hdecision
  obtain ⟨role', hrole', hsame⟩ := h.roleOf hrole
  obtain ⟨i', hdecides'⟩ := hdecides.reorder hsame (hdist role hrole)
  exact evaluateStaticPermissions_iff.mpr ⟨role', i', p, allowed, hrole', hdecides', hd⟩

theorem authorize_perm {settings settings' : RealmSettings} (h : Permuted settings settings')
    {request : AuthorizationRequest}
    (hdist : ∀ role, roleOf settings request = some role → Distinguished role)
    (provider : Option (AuthorizationRequest → Option AuthorizationDecision)) :
    authorize settings' provider request = authorize settings provider request := by
  have hdist' : ∀ role, roleOf settings' request = some role → Distinguished role := by
    intro role' hrole'
    obtain ⟨role, hrole, hsame⟩ := h.symm.roleOf hrole'
    exact (hdist role hrole).of_reordered hsame.symm
  have heval : evaluateStaticPermissions settings' request =
      evaluateStaticPermissions settings request :=
    Option.ext fun decision => ⟨h.symm.evaluate hdist', h.evaluate hdist⟩
  simp only [authorize, heval, h.hasStaticPolicy]

/-! ### The provider -/

theorem authorize_of_denied {settings : RealmSettings} {request : AuthorizationRequest}
    {decision : AuthorizationDecision}
    (h : evaluateStaticPermissions settings request = some decision)
    (hdenied : decision.allowed = false)
    (provider : Option (AuthorizationRequest → Option AuthorizationDecision)) :
    authorize settings provider request = decision := by
  obtain ⟨allowed, reason, message⟩ := decision
  obtain rfl : allowed = false := hdenied
  simp only [authorize, h]

theorem authorize_of_abstaining {settings : RealmSettings} {request : AuthorizationRequest}
    {decision : AuthorizationDecision}
    (h : evaluateStaticPermissions settings request = some decision)
    {provider : Option (AuthorizationRequest → Option AuthorizationDecision)}
    (hprovider : provider.bind (· request) = none) :
    authorize settings provider request = decision := by
  obtain ⟨allowed, reason, message⟩ := decision
  cases allowed <;> simp only [authorize, h, hprovider]

/-- **Precedence.**  The static decision is that of the most specific matching permission that
mentions the action.  It stands where the provider has nothing to say, and a denial stands whatever
the provider says.  The order of permissions that are not equally specific does not matter. -/
theorem static_precedence (settings : RealmSettings) (request : AuthorizationRequest) :
    (∀ decision, evaluateStaticPermissions settings request = some decision ↔
      ∃ role i p allowed, roleOf settings request = some role ∧
        Decides role request i p allowed ∧ decision = staticDecision request allowed) ∧
    (∀ decision provider, evaluateStaticPermissions settings request = some decision →
      provider.bind (· request) = none → authorize settings provider request = decision) ∧
    (∀ decision provider, evaluateStaticPermissions settings request = some decision →
      decision.allowed = false → authorize settings provider request = decision) ∧
    (∀ settings' provider, Permuted settings settings' →
      (∀ role, roleOf settings request = some role → Distinguished role) →
      authorize settings' provider request = authorize settings provider request) :=
  ⟨fun _ => evaluateStaticPermissions_iff,
    fun _ _ h hprovider => authorize_of_abstaining h hprovider,
    fun _ provider h hdenied => authorize_of_denied h hdenied provider,
    fun _ provider h hdist => authorize_perm h hdist provider⟩

/-- The denial of `com.app.secret` stands in either order, against a provider that allows
everything. -/
theorem static_precedence_sample :
    let request := { sampleRequest with uri := "com.app.secret" }
    let provider := some fun _ => some .allow
    let settings := RealmSettings.mk [⟨"user", sampleRole.permissions.reverse⟩]
    authorize settings provider request = authorize sampleSettings provider request ∧
      authorize sampleSettings provider request = staticDecision request false := by
  have hprecedence := static_precedence sampleSettings
    { sampleRequest with uri := "com.app.secret" }
  refine ⟨hprecedence.2.2.2 _ _ (.cons ⟨rfl, (List.reverse_perm _).symm⟩ .nil) ?_,
    hprecedence.2.2.1 _ _ (by decide +kernel) rfl⟩
  intro role hrole
  have hrole' : roleOf sampleSettings { sampleRequest with uri := "com.app.secret" } =
      some sampleRole := by decide +kernel
  obtain rfl := Option.some.inj (hrole'.symm.trans hrole)
  exact .cons (fun q hq => by rw [List.mem_singleton.mp hq]; exact fun h => nomatch h.1)
    (List.pairwise_singleton _ _)

end RealmAuthorizer

end Connectanum
