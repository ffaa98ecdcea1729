import Connectanum.Auth.Authorization

/-!
# Auth — Patterns

A subscription or registration under a pattern reaches every URI that the pattern selects.  The
static authorizer looks at the pattern's text only, so what it allows for the pattern it need not
allow for each of these URIs (`pattern_allowed_uri_denied`).  It does when the permission that
decided matches the URI too and nothing that ranks before it denies (`allowed_of_covered`); the
first holds by itself for a prefix under a prefix permission and a wildcard under a wildcard
permission (`permissionMatches_of_selects`).
-/

namespace Connectanum

open Collections

/-- The atlas routes `uri` to a subscription, or registration, of `pattern` under `policy`. -/
def selects (action : AuthorizationAction) (policy : MatchPolicy) (pattern uri : String) : Bool :=
  if action.usesTopicMatching then
    SubscriptionEntry.matchesTopic
      { id := 0, topic := pattern, matchPolicy := policy, created := 0 } uri
  else
    ProcedureEntry.matchesProcedure
      { registrationId := 0, procedure := pattern, matchPolicy := policy, policy := .single,
        created := 0 } uri

/-! ### The pattern matchers compose -/

theorem zip_all_trans {as bs cs : List (List Char)} (hab : as.length = bs.length)
    (hbc : bs.length = cs.length)
    (h₁ : ((as.zip bs).all fun (a, b) => a.isEmpty || a == b) = true)
    (h₂ : ((bs.zip cs).all fun (b, c) => b.isEmpty || b == c) = true) :
    ((as.zip cs).all fun (a, c) => a.isEmpty || a == c) = true := by
  induction as generalizing bs cs with
  | nil => rfl
  | cons a as ih =>
      match bs, cs, hab, hbc with
      | b :: bs, c :: cs, hab, hbc =>
          simp only [List.zip_cons_cons, List.all_cons, Bool.and_eq_true, Bool.or_eq_true,
            List.isEmpty_iff, beq_iff_eq, List.length_cons, Nat.add_right_cancel_iff] at *
          refine ⟨?_, ih hab hbc h₁.2 h₂.2⟩
          -- a segment that is fixed in the pattern is fixed in what the pattern's text is
          rcases h₁.1 with ha | rfl
          · exact .inl ha
          · exact h₂.1

theorem wildcardMatches_trans {p q u : String} (h₁ : wildcardMatches p q = true)
    (h₂ : wildcardMatches q u = true) : wildcardMatches p u = true := by
  simp only [wildcardMatches, Bool.and_eq_true, beq_iff_eq] at *
  exact ⟨h₁.1.trans h₂.1, zip_all_trans h₁.1 h₂.1 h₁.2 h₂.2⟩

theorem isPrefixOf_trans {p q u : String} (h₁ : p.toList.isPrefixOf q.toList = true)
    (h₂ : q.toList.isPrefixOf u.toList = true) : p.toList.isPrefixOf u.toList = true := by
  rw [List.isPrefixOf_iff_prefix] at *
  exact h₁.trans h₂

/-- A segment prefix in terms of what comes after it. -/
theorem segmentPrefixMatches_iff {p u : String} :
    segmentPrefixMatches p u = true ↔ ∃ rest, u.toList = p.toList ++ rest ∧
      (rest = [] ∨ p.toList.getLast? = some '.' ∨ rest.head? = some '.') := by
  simp only [segmentPrefixMatches, Bool.and_eq_true, Bool.or_eq_true, beq_iff_eq,
    List.isPrefixOf_iff_prefix]
  constructor
  · rintro ⟨⟨rest, hrest⟩, hend⟩
    refine ⟨rest, hrest.symm, ?_⟩
    rw [← hrest] at hend
    rcases hend with (hlen | hdot) | hdot
    · exact .inl (by simpa using hlen)
    · exact .inr (.inl hdot)
    · exact .inr (.inr (by simpa [List.getElem?_append, List.head?_eq_getElem?] using hdot))
  · rintro ⟨rest, hrest, hend⟩
    refine ⟨⟨rest, hrest.symm⟩, ?_⟩
    rw [hrest]
    rcases hend with rfl | hdot | hdot
    · exact .inl (.inl (by simp))
    · exact .inl (.inr hdot)
    · exact .inr (by simpa [List.getElem?_append, List.head?_eq_getElem?] using hdot)

theorem segmentPrefixMatches_trans {p q u : String} (h₁ : segmentPrefixMatches p q = true)
    (h₂ : segmentPrefixMatches q u = true) : segmentPrefixMatches p u = true := by
  rw [segmentPrefixMatches_iff] at *
  obtain ⟨a, ha, hpa⟩ := h₁
  obtain ⟨b, hb, hqb⟩ := h₂
  refine ⟨a ++ b, by rw [hb, ha, List.append_assoc], ?_⟩
  cases a with
  | nil =>
      rw [List.append_nil] at ha
      rw [ha] at hqb
      exact hqb
  | cons c rest =>
      rcases hpa with hnil | hdot | hdot
      · cases hnil
      · exact .inr (.inl hdot)
      · exact .inr (.inr hdot)

/-- A pattern of the permission's own kind, and any exact URI, is covered with all it selects. -/
theorem permissionMatches_of_selects {action : AuthorizationAction} {policy : MatchPolicy}
    {pattern uri : String} {permission : PermissionSettings}
    (hkind : policy = .exact ∨ permission.matchPolicy = policy)
    (hp : permissionMatches action pattern permission = true)
    (hs : selects action policy pattern uri = true) :
    permissionMatches action uri permission = true := by
  cases hpol : policy with
  | exact =>
      have heq : pattern = uri := by
        subst hpol
        simp only [selects, SubscriptionEntry.matchesTopic, ProcedureEntry.matchesProcedure] at hs
        split at hs <;> simpa using hs
      exact heq ▸ hp
  | prefixed =>
      obtain hkind := hkind.resolve_left (by rw [hpol]; decide)
      simp only [permissionMatches, matchesTopicUri, matchesProcedureUri, hkind, hpol, selects,
        SubscriptionEntry.matchesTopic, ProcedureEntry.matchesProcedure] at hp hs ⊢
      split at hp
      · next htopic =>
        rw [if_pos htopic] at hs ⊢
        exact isPrefixOf_trans hp hs
      · next htopic =>
        rw [if_neg htopic] at hs ⊢
        rw [Bool.or_eq_true] at hp ⊢
        rcases hp with hp | hp
        · exact .inl hp
        · exact .inr (segmentPrefixMatches_trans hp hs)
  | wildcard =>
      obtain hkind := hkind.resolve_left (by rw [hpol]; decide)
      simp only [permissionMatches, matchesTopicUri, matchesProcedureUri, hkind, hpol, selects,
        SubscriptionEntry.matchesTopic, ProcedureEntry.matchesProcedure, ite_self] at hp hs ⊢
      exact wildcardMatches_trans hp hs

/-! ### The ranking -/

theorem ranks_iff {l r : PermissionMatch} :
    l.Ranks r ↔
      policyPriority l.permission.matchPolicy < policyPriority r.permission.matchPolicy ∨
      (policyPriority l.permission.matchPolicy = policyPriority r.permission.matchPolicy ∧
        (policySpecificity r.permission < policySpecificity l.permission ∨
          (policySpecificity r.permission = policySpecificity l.permission ∧
            l.index ≤ r.index))) := by
  simp only [PermissionMatch.Ranks, comparePermissionMatches, Ordering.isLE_then_iff_or,
    Nat.isLE_compare, Nat.compare_eq_lt, Nat.compare_eq_eq]

instance : Std.Total PermissionMatch.Ranks :=
  ⟨fun l r => by
    rw [ranks_iff, ranks_iff]
    omega⟩

instance : IsTrans PermissionMatch PermissionMatch.Ranks :=
  ⟨fun a b c hab hbc => by
    rw [ranks_iff] at *
    omega⟩

namespace RealmAuthorizer

/-- The permission that decides: the first one that mentions the action. -/
def decidingPermission (role : RoleSettings) (action : AuthorizationAction) (uri : String) :
    Option PermissionMatch :=
  (rankedMatches role action uri).find? fun m => (m.permission.verdict action).isSome

theorem findSome?_eq_find?_bind {α β : Type} (f : α → Option β) (l : List α) :
    l.findSome? f = (l.find? fun a => (f a).isSome).bind f := by
  induction l with
  | nil => rfl
  | cons a rest ih =>
      cases h : f a with
      | none => simp [h, ih]
      | some b => simp [h]

theorem mem_rankedMatches {role : RoleSettings} {action : AuthorizationAction} {uri : String}
    {m : PermissionMatch} :
    m ∈ rankedMatches role action uri ↔
      role.permissions[m.index]? = some m.permission ∧
        permissionMatches action uri m.permission = true := by
  simp only [rankedMatches, List.mem_insertionSort, List.mem_filter, List.mem_map,
    List.mem_zipIdx_iff_getElem?, Prod.exists]
  constructor
  · rintro ⟨⟨p, i, hp, rfl⟩, hm⟩
    exact ⟨hp, hm⟩
  · rintro ⟨hp, hm⟩
    exact ⟨⟨m.permission, m.index, hp, rfl⟩, hm⟩

/-- In a ranked list that holds an allowing permission, the first verdict is to allow if no
denying permission ranks before that one. -/
theorem findSome?_of_allowing {f : PermissionMatch → Option Bool} {m : PermissionMatch}
    (l : List PermissionMatch) (hsorted : l.Pairwise PermissionMatch.Ranks) (hm : m ∈ l)
    (hallow : f m = some true) (hdeny : ∀ q ∈ l, f q = some false → ¬ q.Ranks m) :
    l.findSome? f = some true := by
  induction l with
  | nil => cases hm
  | cons x rest ih =>
      rw [List.pairwise_cons] at hsorted
      have hrest : x ≠ m → m ∈ rest := fun hne => (List.mem_cons.mp hm).resolve_left hne.symm
      cases hx : f x with
      | some verdict =>
          rw [List.findSome?_cons, hx]
          cases verdict with
          | true => rfl
          | false =>
              have hne : x ≠ m := by
                rintro rfl
                rw [hx] at hallow
                cases hallow
              exact absurd (hsorted.1 m (hrest hne)) (hdeny x List.mem_cons_self hx)
      | none =>
          have hne : x ≠ m := by
            rintro rfl
            rw [hx] at hallow
            cases hallow
          rw [List.findSome?_cons, hx]
          exact ih hsorted.2 (hrest hne) fun q hq => hdeny q (List.mem_cons_of_mem _ hq)

/-- The verdict of the role's permissions on a request. -/
def staticVerdict (settings : RealmSettings) (request : AuthorizationRequest) : Option Bool :=
  (roleOf settings request).bind fun role =>
    (decidingPermission role request.action request.uri).bind (·.permission.verdict request.action)

theorem staticVerdict_eq_some {settings : RealmSettings} {request : AuthorizationRequest}
    {allowed : Bool} :
    staticVerdict settings request = some allowed ↔
      ∃ role m, roleOf settings request = some role ∧
        decidingPermission role request.action request.uri = some m ∧
        m.permission.verdict request.action = some allowed := by
  simp only [staticVerdict, Option.bind_eq_some_iff]
  constructor
  · rintro ⟨role, hrole, m, hm, hv⟩
    exact ⟨role, m, hrole, hm, hv⟩
  · rintro ⟨role, m, hrole, hm, hv⟩
    exact ⟨role, hrole, m, hm, hv⟩

/-- Without any permission there is no verdict. -/
theorem staticVerdict_of_empty (settings : RealmSettings) (request : AuthorizationRequest)
    (hempty : ∀ role ∈ settings.roles, role.permissions = []) :
    staticVerdict settings request = none := by
  rw [Option.eq_none_iff_forall_ne_some]
  intro allowed hv
  obtain ⟨role, m, hrole, hm, _⟩ := staticVerdict_eq_some.mp hv
  have hmem : role ∈ settings.roles := by
    simp only [roleOf] at hrole
    split at hrole
    · cases hrole
    · split at hrole
      · cases hrole
      · exact List.mem_of_find?_eq_some hrole
  have hperm := (mem_rankedMatches.mp (List.mem_of_find?_eq_some hm)).1
  rw [hempty role hmem] at hperm
  cases hperm

/-- What the static authorizer allows. -/
theorem authorize_allowed_iff (settings : RealmSettings) (request : AuthorizationRequest) :
    (authorize settings none request).allowed = true ↔
      staticVerdict settings request = some true ∨
        ∀ role ∈ settings.roles, role.permissions = [] := by
  have heval : evaluateStaticPermissions settings request =
      (staticVerdict settings request).map fun allowed =>
        if allowed then .allow
        else .deny ("Role " ++ request.authRole.getD "" ++ " may not " ++
          request.action.operationName ++ " " ++ request.uri) := by
    cases hrole : roleOf settings request with
    | none => simp only [evaluateStaticPermissions, staticVerdict, hrole, Option.bind_none,
        Option.map_none]
    | some role =>
        simp only [evaluateStaticPermissions, findSome?_eq_find?_bind, staticVerdict, hrole,
          decidingPermission, Option.bind_some]
  have hempty := staticVerdict_of_empty settings request
  cases hv : staticVerdict settings request with
  | some allowed =>
      have hsome : ¬ ∀ role ∈ settings.roles, role.permissions = [] := fun h => by
        rw [hempty h] at hv
        cases hv
      cases allowed <;> simp [authorize, heval, hv, hsome, AuthorizationDecision.allow,
        AuthorizationDecision.deny]
  | none =>
      have hnone : evaluateStaticPermissions settings request = none := by
        rw [heval, hv]
        rfl
      simp only [authorize, hnone, Option.bind_none, reduceCtorEq, false_or]
      cases hany : settings.roles.any fun role => !role.permissions.isEmpty with
      | true =>
          obtain ⟨role, hmem, hne⟩ := List.any_eq_true.mp hany
          refine ⟨nofun, fun h => ?_⟩
          rw [h role hmem] at hne
          cases hne
      | false =>
          refine ⟨fun _ role hmem => ?_, fun _ => rfl⟩
          have := List.any_eq_false.mp hany role hmem
          simpa using this

/-- The permission that decided for the pattern of `request` speaks for `uri` too: it matches it,
or is of the pattern's own kind, and no denying permission for `uri` ranks before it. -/
def Covered (settings : RealmSettings) (request : AuthorizationRequest) (policy : MatchPolicy)
    (uri : String) : Prop :=
  ∀ role m, roleOf settings request = some role →
    decidingPermission role request.action request.uri = some m →
    (m.permission.matchPolicy = policy ∨ permissionMatches request.action uri m.permission = true) ∧
    ∀ q ∈ rankedMatches role request.action uri,
      q.permission.verdict request.action = some false → ¬ q.Ranks m

/-- **What is allowed for a pattern is allowed for the URIs it covers.** -/
theorem allowed_of_covered (settings : RealmSettings) (request : AuthorizationRequest)
    (policy : MatchPolicy) (uri : String)
    (hallowed : (authorize settings none
      { request with targetMatchPolicy := some policy }).allowed = true)
    (hselects : selects request.action policy request.uri uri = true)
    (hcovered : policy ≠ .exact → Covered settings request policy uri) :
    (authorize settings none
      { request with
        uri := uri
        targetMatchPolicy := some .exact }).allowed = true := by
  rw [authorize_allowed_iff] at hallowed ⊢
  rcases hallowed with hverdict | hempty
  · refine .inl ?_
    by_cases hexact : policy = .exact
    · have heq : request.uri = uri := by
        subst hexact
        simp only [selects, SubscriptionEntry.matchesTopic,
          ProcedureEntry.matchesProcedure] at hselects
        split at hselects <;> simpa using hselects
      subst heq
      exact hverdict
    · obtain ⟨role, m, hrole, hm, hv⟩ := staticVerdict_eq_some.mp hverdict
      obtain ⟨hkind, hdeny⟩ := hcovered hexact role m hrole hm
      obtain ⟨hindex, hpattern⟩ := mem_rankedMatches.mp (List.mem_of_find?_eq_some hm)
      have hmatch : permissionMatches request.action uri m.permission = true :=
        hkind.elim (fun h => permissionMatches_of_selects (.inr h) hpattern hselects) id
      have hfirst := findSome?_of_allowing (f := fun m => m.permission.verdict request.action)
        (rankedMatches role request.action uri) (List.pairwise_insertionSort _ _)
        (mem_rankedMatches.mpr ⟨hindex, hmatch⟩) hv hdeny
      rw [findSome?_eq_find?_bind] at hfirst
      obtain ⟨m', hm', hv'⟩ := Option.bind_eq_some_iff.mp hfirst
      exact staticVerdict_eq_some.mpr ⟨role, m', hrole, hm', hv'⟩
  · exact .inr hempty

/-- A role that may subscribe below `com.app`, except to one topic. -/
def sampleRole : RoleSettings :=
  ⟨"user", [{ uri := "com.app", matchPolicy := .prefixed, allow := ["subscribe"] },
    { uri := "com.app.secret", deny := ["subscribe"] }]⟩

def sampleSettings : RealmSettings := ⟨[sampleRole]⟩

/-- A `user` asks for the topics below `com.app`. -/
def sampleRequest : AuthorizationRequest :=
  { realmUri := "realm1", action := .subscribe, uri := "com.app", sessionId := 1,
    authRole := some "user" }

theorem allowed_of_covered_sample :
    (authorize sampleSettings none
      { sampleRequest with
        uri := "com.app.news"
        targetMatchPolicy := some .exact }).allowed = true := by
  refine allowed_of_covered sampleSettings sampleRequest .prefixed "com.app.news"
    (by decide +kernel) (by decide +kernel) fun _ role m hrole hm => ?_
  have hrole' : roleOf sampleSettings sampleRequest = some sampleRole := by decide +kernel
  obtain rfl := Option.some.inj (hrole'.symm.trans hrole)
  have hm' : decidingPermission sampleRole .subscribe "com.app" =
      some ⟨{ uri := "com.app", matchPolicy := .prefixed, allow := ["subscribe"] }, 0⟩ := by
    decide +kernel
  obtain rfl := Option.some.inj (hm'.symm.trans hm)
  exact ⟨.inl rfl, by decide +kernel⟩

/-- The pattern is allowed, and one of the topics it selects is denied. -/
theorem pattern_allowed_uri_denied :
    ¬ ∀ (settings : RealmSettings) (request : AuthorizationRequest) (policy : MatchPolicy)
      (uri : String), request.action = .subscribe ∨ request.action = .register →
      (authorize settings none
        { request with targetMatchPolicy := some policy }).allowed = true →
      selects request.action policy request.uri uri = true →
      (authorize settings none
        { request with
          uri := uri
          targetMatchPolicy := some .exact }).allowed = true := by
  intro hall
  have hallowed := hall sampleSettings sampleRequest .prefixed "com.app.secret" (.inl rfl)
    (by decide +kernel) (by decide +kernel)
  exact absurd hallowed (by decide +kernel)

end RealmAuthorizer

end Connectanum
