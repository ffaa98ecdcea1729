import Connectanum.State.Capacity
import Connectanum.State.Snapshot
import Connectanum.State.Routing

/-!
# State — MetaMatch

The meta procedures `wamp.registration.match` and `wamp.subscription.match` search the lists of a
snapshot; calls and publications go through the atlases.

* `mem_matching`: for subscriptions both find the same entries;
* `find_eq_lookup_iff`: for registrations the list gives the first match and the atlas the best one,
  so they agree where nothing beats the first match (`FirstIsBest`);
* `meta_match_agrees_iff`: in every reachable realm; `meta_match_differs`: a longer prefix registered
  after a shorter one.
-/

namespace Connectanum

open Collections Machine

/-! ### The meta procedures -/

/-- `_registrationMatches`. -/
def registrationMatches (registration : RegistrationSnapshot) (procedure : String) : Bool :=
  match registration.matchPolicy with
  | .exact => registration.procedure == procedure
  | .prefixed =>
      procedure == registration.procedure ||
        (registration.procedure.toList ++ ['.']).isPrefixOf procedure.toList ||
        (registration.procedure.toList.getLast? == some '.' &&
          registration.procedure.toList.isPrefixOf procedure.toList)
  | .wildcard => wildcardMatches registration.procedure procedure

/-- `_subscriptionMatches`. -/
def subscriptionMatches (subscription : SubscriptionSnapshot) (topic : String) : Bool :=
  match subscription.matchPolicy with
  | .exact => subscription.topic == topic
  | .prefixed => subscription.topic.toList.isPrefixOf topic.toList
  | .wildcard => wildcardMatches subscription.topic topic

/-- `_visibleMetaRegistrationsForState`; `allowed` is the decision on a CALL of the procedure. -/
def visibleMetaRegistrations (allowed : String → Bool) (registrations : List RegistrationSnapshot) :
    List RegistrationSnapshot :=
  registrations.filter fun registration => allowed registration.procedure

/-- `_visibleMetaSubscriptionsForState`; `allowed` is the decision on a SUBSCRIBE. -/
def visibleMetaSubscriptions (allowed : String → TopicMatchPolicy → Bool)
    (subscriptions : List SubscriptionSnapshot) : List SubscriptionSnapshot :=
  subscriptions.filter fun subscription => allowed subscription.topic subscription.matchPolicy

/-- The answer of `wamp.registration.match`. -/
def registrationMatch (visible : List RegistrationSnapshot) (procedure : Option String) :
    Option Nat :=
  (visible.find? fun registration =>
    match procedure with
    | none => false
    | some procedure => registrationMatches registration procedure).map (·.registrationId)

/-- The answer of `wamp.subscription.match`. -/
def subscriptionMatch (visible : List SubscriptionSnapshot) (topic : Option String) :
    Option (List Nat) :=
  let found := (visible.filter fun subscription =>
    match topic with
    | none => false
    | some topic => subscriptionMatches subscription topic).map (·.id)
  if found.isEmpty then none else some found

/-! ### One entry -/

/-- The two ways of saying that a prefix matches are the same. -/
theorem prefix_cases (p text : List Char) :
    (text == p || (p ++ ['.']).isPrefixOf text || (p.getLast? == some '.' && p.isPrefixOf text)) =
      (p.isPrefixOf text &&
        (text.length == p.length || p.getLast? == some '.' || text[p.length]? == some '.')) := by
  rw [Bool.eq_iff_iff]
  simp only [Bool.or_eq_true, Bool.and_eq_true, beq_iff_eq, List.isPrefixOf_iff_prefix]
  constructor
  · rintro ((rfl | ⟨rest, rfl⟩) | ⟨hdot, hp⟩)
    · exact ⟨List.prefix_rfl, .inl (.inl rfl)⟩
    · exact ⟨⟨'.' :: rest, by simp⟩, .inr (by simp)⟩
    · exact ⟨hp, .inl (.inr hdot)⟩
  · rintro ⟨⟨rest, rfl⟩, (hlen | hdot) | hnext⟩
    · have hnil : rest = [] := by simpa using hlen
      exact .inl (.inl (by simp [hnil]))
    · exact .inr ⟨hdot, List.prefix_append _ _⟩
    · cases rest with
      | nil => simp at hnext
      | cons x rest =>
          obtain rfl : x = '.' := by simpa using hnext
          exact .inl (.inr ⟨rest, by simp⟩)

theorem registrationMatches_toSnapshot (e : ProcedureEntry) (u : String) :
    registrationMatches e.toSnapshot u = e.matchesProcedure u := by
  have hsame : (u == e.procedure) = (u.toList == e.procedure.toList) := by
    rw [Bool.eq_iff_iff]
    simp [String.toList_inj]
  rw [registrationMatches, ProcedureEntry.matchesProcedure]
  dsimp only [ProcedureEntry.toSnapshot]
  cases e.matchPolicy with
  | exact => rfl
  | wildcard => rfl
  | prefixed =>
      dsimp only
      rw [hsame, prefix_cases]

/-! ### The first match and the best one -/

/-- The entries of a table that match, in the order in which they were registered. -/
def matchingIn (heap : Heap ProcedureEntry) (u : String) (m : LinkedMap String Ref) :
    List (Ref × ProcedureEntry) :=
  (m.values.filterMap fun r => (heap.get? r).map fun e => (r, e)).filter (·.2.matchesProcedure u)

/-- Nothing beats the first one. -/
def FirstIsBest (better : ProcedureEntry → ProcedureEntry → Bool) :
    List (Ref × ProcedureEntry) → Prop
  | [] => True
  | first :: rest => ∀ x ∈ rest, better x.2 first.2 = false

instance (better : ProcedureEntry → ProcedureEntry → Bool) :
    (l : List (Ref × ProcedureEntry)) → Decidable (FirstIsBest better l)
  | [] => .isTrue trivial
  | first :: rest => inferInstanceAs (Decidable (∀ x ∈ rest, better x.2 first.2 = false))

def keepBest (better : ProcedureEntry → ProcedureEntry → Bool) (best x : Ref × ProcedureEntry) :
    Ref × ProcedureEntry :=
  if better x.2 best.2 then x else best

section

variable {better : ProcedureEntry → ProcedureEntry → Bool} {heap : Heap ProcedureEntry} {u : String}

theorem foldl_keepBest_mem (rest : List (Ref × ProcedureEntry)) (first : Ref × ProcedureEntry) :
    rest.foldl (keepBest better) first ∈ first :: rest := by
  induction rest generalizing first with
  | nil => exact List.mem_singleton_self first
  | cons x rest ih =>
      have hmem := ih (keepBest better first x)
      rw [List.foldl_cons]
      rcases List.mem_cons.mp hmem with heq | hrest
      · rw [heq, keepBest]
        split
        · exact List.mem_cons_of_mem _ List.mem_cons_self
        · exact List.mem_cons_self
      · exact List.mem_cons_of_mem _ (List.mem_cons_of_mem _ hrest)

/-- The first one stays the best one iff nothing beats it. -/
theorem foldl_keepBest_eq_iff {rest : List (Ref × ProcedureEntry)} {first : Ref × ProcedureEntry}
    (h : first ∉ rest) :
    rest.foldl (keepBest better) first = first ↔ FirstIsBest better (first :: rest) := by
  induction rest with
  | nil => simp [FirstIsBest]
  | cons x rest ih =>
      rw [List.mem_cons, not_or] at h
      rw [List.foldl_cons, keepBest]
      cases hx : better x.2 first.2 with
      | true =>
          -- once it is beaten, the best one is found after it
          rw [if_pos rfl]
          constructor
          · intro heq
            have hmem : rest.foldl (keepBest better) x ∈ x :: rest := foldl_keepBest_mem rest x
            rw [heq] at hmem
            exact absurd (List.mem_cons.mp hmem) (not_or.mpr h)
          · intro hbest
            exact absurd (hx.symm.trans (hbest x List.mem_cons_self)) (by simp)
      | false =>
          rw [if_neg Bool.false_ne_true, ih h.2]
          simp [FirstIsBest, hx]

/-- The fold goes on from an entry that matches. -/
theorem bestOf_from (refs : List Ref) (best : Ref × ProcedureEntry) :
    refs.foldl (fun best r =>
      match heap.get? r with
      | none => best
      | some entry =>
          if !entry.matchesProcedure u then best
          else match best with
            | none => some (r, entry)
            | some (_, b) => if better entry b then some (r, entry) else best) (some best) =
      some ((((refs.filterMap fun r => (heap.get? r).map fun e => (r, e)).filter
        (·.2.matchesProcedure u)).foldl (keepBest better) best)) := by
  induction refs generalizing best with
  | nil => rfl
  | cons r refs ih =>
      rw [List.foldl_cons]
      cases hr : heap.get? r with
      | none => simpa [hr] using ih best
      | some e =>
          cases he : e.matchesProcedure u with
          | false => simpa [hr, he] using ih best
          | true =>
              have hkeep := ih (keepBest better best (r, e))
              simp only [hr, he, Bool.not_true, Bool.false_eq_true, if_false, Option.map_some,
                List.filterMap_cons, List.filter_cons, if_true, List.foldl_cons]
              rw [← hkeep, keepBest]
              split <;> rfl

/-- The fold over a table is the fold over what matches in it. -/
theorem bestOf_eq (m : LinkedMap String Ref) :
    ProcedureAtlas.bestOf better heap u m =
      match matchingIn heap u m with
      | [] => none
      | first :: rest => some (rest.foldl (keepBest better) first) := by
  rw [ProcedureAtlas.bestOf, matchingIn]
  induction m.values with
  | nil => rfl
  | cons r refs ih =>
      rw [List.foldl_cons]
      cases hr : heap.get? r with
      | none => simpa [hr] using ih
      | some e =>
          cases he : e.matchesProcedure u with
          | false => simpa [hr, he] using ih
          | true =>
              simp only [hr, he, Bool.not_true, Bool.false_eq_true, if_false, Option.map_some,
                List.filterMap_cons, List.filter_cons, if_true]
              exact bestOf_from refs (r, e)

end

/-! ### One realm -/

namespace RealmRecord

variable {ids : WampIdAllocatorRegistry} {r : RealmRecord} {heldS heldR : Nat → Nat → Prop}
  {u : String}

/-- The matching entries of one table of the atlas. -/
def matchingProcedures (r : RealmRecord) (u : String) (m : LinkedMap String Ref) :
    List (Ref × ProcedureEntry) :=
  matchingIn r.procedures.heap u m

/-- **The first match is the best one.**  An exact registration is the only one; of several prefixes
the first one is the longest; where there is none, no wildcard ranks before the first one. -/
def Unbeaten (r : RealmRecord) (u : String) : Prop :=
  r.procedures.procedureAtlas.patterns.exact.get? u = none →
    FirstIsBest ProcedureAtlas.betterPrefix
        (r.matchingProcedures u r.procedures.procedureAtlas.patterns.prefixes) ∧
      (r.matchingProcedures u r.procedures.procedureAtlas.patterns.prefixes = [] →
        FirstIsBest (fun entry best => entry.compareWildcard best == .lt)
          (r.matchingProcedures u r.procedures.procedureAtlas.patterns.wildcards))

instance (r : RealmRecord) (u : String) : Decidable (r.Unbeaten u) :=
  inferInstanceAs (Decidable (_ → _ ∧ (_ → _)))

/-- What a search of one table's entries finds. -/
theorem find_table (m : LinkedMap String Ref) :
    (m.values.filterMap r.procedures.heap.get?).find? (·.matchesProcedure u) =
      (r.matchingProcedures u m).head?.map (·.2) := by
  rw [matchingProcedures, matchingIn]
  induction m.values with
  | nil => rfl
  | cons ref refs ih =>
      cases hr : r.procedures.heap.get? ref with
      | none => simpa [hr] using ih
      | some e =>
          cases he : e.matchesProcedure u with
          | false => simpa [hr, he] using ih
          | true => simp [hr, he]

/-- The exact registration of a procedure. -/
theorem find_exact (h : r.SoundFor ids heldS heldR) :
    (r.procedures.procedureAtlas.patterns.exact.values.filterMap r.procedures.heap.get?).find?
        (·.matchesProcedure u) =
      (r.procedures.procedureAtlas.patterns.exact.get? u).bind r.procedures.heap.get? := by
  have hown := fun q ref => h.procedures.atlas_own .exact q ref
  cases hu : r.procedures.procedureAtlas.patterns.exact.get? u with
  | none =>
      rw [Option.bind_none, List.find?_eq_none]
      intro e he hmatch
      obtain ⟨ref, href, hget⟩ := List.mem_filterMap.mp he
      obtain ⟨q, hq⟩ := LinkedMap.mem_values.mp href
      obtain ⟨e', he', hpol, rfl⟩ := hown q ref hq
      obtain rfl := Option.some.inj (he'.symm.trans hget)
      simp only [ProcedureEntry.matchesProcedure, hpol, beq_iff_eq] at hmatch
      rw [hmatch, hu] at hq
      cases hq
  | some ref =>
      obtain ⟨e, he, hpol, hproc⟩ := hown u ref hu
      rw [Option.bind_some, he]
      have hmatch : e.matchesProcedure u = true := by
        simp [ProcedureEntry.matchesProcedure, hpol, hproc]
      have hmem := List.mem_filterMap.mpr ⟨ref, LinkedMap.mem_values.mpr ⟨u, hu⟩, he⟩
      cases hfind : (r.procedures.procedureAtlas.patterns.exact.values.filterMap
          r.procedures.heap.get?).find? (·.matchesProcedure u) with
      | none => exact absurd hmatch (List.find?_eq_none.mp hfind e hmem)
      | some e' =>
          obtain ⟨ref', href', hget'⟩ := List.mem_filterMap.mp (List.mem_of_find?_eq_some hfind)
          have hmatch' := List.find?_some hfind
          obtain ⟨q, hq⟩ := LinkedMap.mem_values.mp href'
          obtain ⟨e'', he'', hpol', rfl⟩ := hown q ref' hq
          obtain rfl := Option.some.inj (he''.symm.trans hget')
          simp only [ProcedureEntry.matchesProcedure, hpol', beq_iff_eq] at hmatch'
          rw [hmatch', hu] at hq
          obtain rfl := Option.some.inj hq
          exact congrArg some (Option.some.inj (hget'.symm.trans he))

/-- The entry that the search of the snapshot finds. -/
theorem find_registration (h : r.SoundFor ids heldS heldR) :
    (r.buildSnapshot.registrations.find? (registrationMatches · u)).map (·.registrationId) =
      ((((r.procedures.procedureAtlas.patterns.exact.get? u).bind r.procedures.heap.get?).or
          ((r.matchingProcedures u r.procedures.procedureAtlas.patterns.prefixes).head?.map
            (·.2))).or
        ((r.matchingProcedures u r.procedures.procedureAtlas.patterns.wildcards).head?.map
          (·.2))).map (·.registrationId) := by
  have hsnapshot : r.buildSnapshot.registrations =
      (r.procedures.procedureAtlas.values r.procedures.heap).map ProcedureEntry.toSnapshot := rfl
  have hmatch : (fun x => registrationMatches x u) ∘ ProcedureEntry.toSnapshot =
      fun e : ProcedureEntry => e.matchesProcedure u :=
    funext fun e => registrationMatches_toSnapshot e u
  rw [hsnapshot, List.find?_map, hmatch, Option.map_map, ProcedureAtlas.values,
    List.filterMap_append, List.filterMap_append, List.find?_append, List.find?_append,
    find_exact h, find_table, find_table]
  rfl

theorem nodup_matching (h : r.SoundFor ids heldS heldR) (p : ProcedureMatchPolicy) :
    (r.matchingProcedures u (r.procedures.procedureAtlas.patterns.table p)).Nodup := by
  refine List.Nodup.filter _ (List.Nodup.filterMap ?_ (nodup_table h p))
  rintro ref ref' x hx hx'
  obtain ⟨e, -, rfl⟩ := Option.map_eq_some_iff.mp hx
  obtain ⟨e', -, heq⟩ := Option.map_eq_some_iff.mp hx'
  exact (Prod.mk.inj heq).1.symm

/-- Where a table has a match, the first one has the id of the best one iff it is unbeaten. -/
theorem first_id_iff (h : r.SoundFor ids heldS heldR)
    (halone : ∀ ref ref' e e', r.procedures.heap.get? ref = some e →
      r.procedures.heap.get? ref' = some e' → e.registrationId = e'.registrationId → ref = ref')
    (better : ProcedureEntry → ProcedureEntry → Bool) {p : ProcedureMatchPolicy}
    {first : Ref × ProcedureEntry} {rest : List (Ref × ProcedureEntry)}
    (hm : r.matchingProcedures u (r.procedures.procedureAtlas.patterns.table p) = first :: rest) :
    first.2.registrationId = (rest.foldl (keepBest better) first).2.registrationId ↔
      FirstIsBest better (first :: rest) := by
  have hget : ∀ x ∈ first :: rest, r.procedures.heap.get? x.1 = some x.2 := by
    intro x hx
    rw [← hm] at hx
    obtain ⟨ref, -, hx⟩ := List.mem_filterMap.mp (List.mem_filter.mp hx).1
    obtain ⟨e, he, rfl⟩ := Option.map_eq_some_iff.mp hx
    exact he
  have hnodup := nodup_matching (u := u) h p
  rw [hm, List.nodup_cons] at hnodup
  rw [← foldl_keepBest_eq_iff hnodup.1]
  constructor
  · intro hid
    have hbest : r.procedures.heap.get? (rest.foldl (keepBest better) first).1 =
        some (rest.foldl (keepBest better) first).2 := hget _ (foldl_keepBest_mem rest first)
    have hfirst := hget _ List.mem_cons_self
    have href := halone _ _ _ _ hbest hfirst hid.symm
    refine Prod.ext href ?_
    rw [href] at hbest
    exact Option.some.inj (hbest.symm.trans hfirst)
  · intro heq
    rw [heq]

/-- **The meta procedure finds the registration that a CALL goes to iff the first match is
unbeaten.** -/
theorem find_eq_lookup_iff (h : r.SoundFor ids heldS heldR)
    (halone : ∀ ref ref' e e', r.procedures.heap.get? ref = some e →
      r.procedures.heap.get? ref' = some e' → e.registrationId = e'.registrationId → ref = ref') :
    (r.buildSnapshot.registrations.find? (registrationMatches · u)).map (·.registrationId) =
        (r.procedures.procedureAtlas.lookup r.procedures.heap u).map (·.2.registrationId) ↔
      r.Unbeaten u := by
  rw [find_registration h, ProcedureAtlas.lookup, bestOf_eq, bestOf_eq]
  cases hu : r.procedures.procedureAtlas.patterns.exact.get? u with
  | some ref =>
      obtain ⟨e, he, -⟩ := h.procedures.atlas_own .exact u ref hu
      simp [he, Unbeaten, hu]
  | none =>
      simp only [Unbeaten, hu, forall_const, Option.bind_none, Option.none_or]
      cases hp : r.matchingProcedures u r.procedures.procedureAtlas.patterns.prefixes with
      | cons first rest =>
          have hid := first_id_iff (p := .prefixed) h halone ProcedureAtlas.betterPrefix hp
          rw [matchingProcedures] at hp
          simpa [hp] using hid
      | nil =>
          rw [matchingProcedures] at hp
          cases hw : r.matchingProcedures u r.procedures.procedureAtlas.patterns.wildcards with
          | nil =>
              rw [matchingProcedures] at hw
              simp [hp, hw, FirstIsBest]
          | cons first rest =>
              have hid := first_id_iff (p := .wildcard) h halone
                (fun entry best => entry.compareWildcard best == .lt) hw
              rw [matchingProcedures] at hw
              simpa [hp, hw, FirstIsBest] using hid

/-- The entries that a publication reaches. -/
theorem mem_matching (h : r.SoundFor ids heldS heldR) {e : SubscriptionEntry} :
    e ∈ r.subscriptions.subscriptionAtlas.matching r.subscriptions.heap u ↔
      ∃ ref, r.subscriptions.Live ref e ∧ e.matchesTopic u = true :=
  SubscriptionTable.Keyed.mem_matching h.subscriptions.atlas_own

/-- The meta procedure lists the subscriptions that a publication reaches. -/
theorem mem_subscriptionMatch (h : r.SoundFor ids heldS heldR) (id : Nat) :
    id ∈ (subscriptionMatch r.buildSnapshot.subscriptions (some u)).getD [] ↔
      id ∈ (r.subscriptions.subscriptionAtlas.matching r.subscriptions.heap u).map (·.id) := by
  have hfound : id ∈ (subscriptionMatch r.buildSnapshot.subscriptions (some u)).getD [] ↔
      id ∈ (r.buildSnapshot.subscriptions.filter (subscriptionMatches · u)).map (·.id) := by
    rw [subscriptionMatch]
    dsimp only
    split
    · next hempty =>
      rw [List.isEmpty_iff] at hempty
      rw [hempty]
      rfl
    · rfl
  rw [hfound, List.mem_map, List.mem_map]
  constructor
  · rintro ⟨x, hx, rfl⟩
    obtain ⟨hmem, hmatch⟩ := List.mem_filter.mp hx
    obtain ⟨ref, e, hl, rfl⟩ := (mem_subscriptions h).mp hmem
    exact ⟨e, (mem_matching h).mpr ⟨ref, hl, hmatch⟩, rfl⟩
  · rintro ⟨e, he, rfl⟩
    obtain ⟨ref, hl, hmatch⟩ := (mem_matching h).mp he
    exact ⟨e.toSnapshot, List.mem_filter.mpr ⟨(mem_subscriptions h).mpr ⟨ref, e, hl, rfl⟩, hmatch⟩,
      rfl⟩

/-- **The meta procedures agree with the routing** of a procedure or topic, for a caller that
`allowed` and `allowedTopic` decide for. -/
structure MetaAgrees (r : RealmRecord) (allowed : String → Bool)
    (allowedTopic : String → TopicMatchPolicy → Bool) (u : String) : Prop where
  /-- A CALL goes to the registration that `wamp.registration.match` names. -/
  registration :
    registrationMatch (visibleMetaRegistrations allowed r.buildSnapshot.registrations) (some u) =
      (r.procedures.procedureAtlas.lookup r.procedures.heap u).map (·.2.registrationId)
  /-- A PUBLISH goes to the subscriptions that `wamp.subscription.match` names. -/
  subscriptions : ∀ id,
    id ∈ (subscriptionMatch (visibleMetaSubscriptions allowedTopic r.buildSnapshot.subscriptions)
        (some u)).getD [] ↔
      id ∈ (r.subscriptions.subscriptionAtlas.matching r.subscriptions.heap u).map (·.id)

end RealmRecord

namespace RouterStateStore

/-- **The meta procedures agree with the routing iff the first matching registration is unbeaten**,
in every reachable realm and for a caller that may see everything. -/
theorem meta_match_agrees_iff (configs : List String) (inputs : List (StoreEnv × StoreInput))
    (st : RouterStateStore)
    (hrun : Run step (fun st x => st.Legal x ∧ st.IdsLeft) { realmConfigs := configs } inputs st)
    (uri : String) (realm : RealmRecord) (hr : st.realms.get? uri = some realm)
    (allowed : String → Bool) (allowedTopic : String → TopicMatchPolicy → Bool)
    (hall : ∀ x ∈ realm.buildSnapshot.registrations, allowed x.procedure = true)
    (hallTopics : ∀ x ∈ realm.buildSnapshot.subscriptions,
      allowedTopic x.topic x.matchPolicy = true) (u : String) :
    realm.MetaAgrees allowed allowedTopic u ↔ realm.Unbeaten u := by
  have hboth := hrun.invariant (P := fun st => st.Tables ∧ st.Budget)
    (fun _ x h hok => ⟨h.1.step hok.1 hok.2, h.2.step hok.2.registration x⟩)
    ⟨Tables.initial configs, Budget.initial configs⟩
  have hsound := hboth.1 uri realm hr
  have halone : ∀ ref ref' e e', realm.procedures.heap.get? ref = some e →
      realm.procedures.heap.get? ref' = some e' → e.registrationId = e'.registrationId →
      ref = ref' := by
    have hown := hboth.2.own_id uri
    unfold EntryAt at hown
    rw [realmOf_of_get hr] at hown
    exact hown
  have hregistrations : visibleMetaRegistrations allowed realm.buildSnapshot.registrations =
      realm.buildSnapshot.registrations := List.filter_eq_self.mpr hall
  have hsubscriptions : visibleMetaSubscriptions allowedTopic realm.buildSnapshot.subscriptions =
      realm.buildSnapshot.subscriptions := List.filter_eq_self.mpr hallTopics
  have hiff := RealmRecord.find_eq_lookup_iff (u := u) hsound halone
  constructor
  · intro h
    have hregistration := h.registration
    rw [hregistrations] at hregistration
    exact hiff.mp hregistration
  · intro h
    refine ⟨?_, fun id => ?_⟩
    · rw [hregistrations]
      exact hiff.mpr h
    · rw [hsubscriptions]
      exact RealmRecord.mem_subscriptionMatch hsound id

def prefixDetails : Dict := LinkedMap.empty.insert "match" (.str "prefix")

/-- Session 1 registers the prefix `com.app`, and then the prefix `com`. -/
def longestFirstInputs : List (StoreEnv × StoreInput) :=
  [({}, .command (.sessionOpen "realm1" { id := 1, connectionId := 1 })),
   ({}, .command (.procedureRegister "realm1" 1 "com.app" prefixDetails 0)),
   ({}, .command (.procedureRegister "realm1" 1 "com" prefixDetails 0))]

/-- Session 1 registers the prefix `com`, and then the prefix `com.app`. -/
def shortestFirstInputs : List (StoreEnv × StoreInput) :=
  [({}, .command (.sessionOpen "realm1" { id := 1, connectionId := 1 })),
   ({}, .command (.procedureRegister "realm1" 1 "com" prefixDetails 0)),
   ({}, .command (.procedureRegister "realm1" 1 "com.app" prefixDetails 0))]

/-- Registered before the shorter one, the longer prefix is found. -/
theorem longestFirst_agrees :
    ∃ st realm, Run step (fun st x => st.Legal x ∧ st.IdsLeft) { realmConfigs := ["realm1"] }
        longestFirstInputs st ∧ st.realms.get? "realm1" = some realm ∧
      registrationMatch realm.buildSnapshot.registrations (some "com.app.x") = some 1 ∧
      realm.MetaAgrees (fun _ => true) (fun _ _ => true) "com.app.x" := by
  obtain ⟨realm, hr⟩ := Option.isSome_iff_exists.mp (show ((longestFirstInputs.foldl step
    { realmConfigs := ["realm1"] }).realms.get? "realm1").isSome = true by decide +kernel)
  have hfresh : FreshSession { realmConfigs := ["realm1"] } "realm1" 1 := fun _ hr => by cases hr
  have hrun : Run step (fun st x => st.Legal x ∧ st.IdsLeft) { realmConfigs := ["realm1"] }
      longestFirstInputs (longestFirstInputs.foldl step { realmConfigs := ["realm1"] }) :=
    .cons ⟨hfresh, idsLeft_of_lt (by decide +kernel)⟩
      (.cons ⟨trivial, idsLeft_of_lt (by decide +kernel)⟩
      (.cons ⟨trivial, idsLeft_of_lt (by decide +kernel)⟩ (.nil _)))
  have hboth : ((longestFirstInputs.foldl step { realmConfigs := ["realm1"] }).realms.get?
      "realm1").map (fun r => (registrationMatch r.buildSnapshot.registrations (some "com.app.x"),
        decide (r.Unbeaten "com.app.x"))) = some (some 1, true) := by decide +kernel
  rw [hr, Option.map_some, Option.some.injEq, Prod.mk.injEq, decide_eq_true_iff] at hboth
  exact ⟨_, realm, hrun, hr, hboth.1, (meta_match_agrees_iff ["realm1"] longestFirstInputs _ hrun
    "realm1" realm hr (fun _ => true) (fun _ _ => true) (fun _ _ => rfl) (fun _ _ => rfl)
    "com.app.x").mpr hboth.2⟩

/-- **A CALL goes to the longer prefix and `wamp.registration.match` names the shorter one**, when
the shorter one was registered first. -/
theorem meta_match_differs :
    ∃ st realm, Run step (fun st x => st.Legal x ∧ st.IdsLeft) { realmConfigs := ["realm1"] }
        shortestFirstInputs st ∧ st.realms.get? "realm1" = some realm ∧
      registrationMatch (visibleMetaRegistrations (fun _ => true)
        realm.buildSnapshot.registrations) (some "com.app.x") = some 1 ∧
      (realm.procedures.procedureAtlas.lookup realm.procedures.heap "com.app.x").map
        (·.2.registrationId) = some 2 ∧
      ¬ realm.MetaAgrees (fun _ => true) (fun _ _ => true) "com.app.x" := by
  obtain ⟨realm, hr⟩ := Option.isSome_iff_exists.mp (show ((shortestFirstInputs.foldl step
    { realmConfigs := ["realm1"] }).realms.get? "realm1").isSome = true by decide +kernel)
  have hfresh : FreshSession { realmConfigs := ["realm1"] } "realm1" 1 := fun _ hr => by cases hr
  have hrun : Run step (fun st x => st.Legal x ∧ st.IdsLeft) { realmConfigs := ["realm1"] }
      shortestFirstInputs (shortestFirstInputs.foldl step { realmConfigs := ["realm1"] }) :=
    .cons ⟨hfresh, idsLeft_of_lt (by decide +kernel)⟩
      (.cons ⟨trivial, idsLeft_of_lt (by decide +kernel)⟩
      (.cons ⟨trivial, idsLeft_of_lt (by decide +kernel)⟩ (.nil _)))
  have hboth : ((shortestFirstInputs.foldl step { realmConfigs := ["realm1"] }).realms.get?
      "realm1").map (fun r => (registrationMatch (visibleMetaRegistrations (fun _ => true)
        r.buildSnapshot.registrations) (some "com.app.x"),
        (r.procedures.procedureAtlas.lookup r.procedures.heap "com.app.x").map
          (·.2.registrationId))) = some (some 1, some 2) := by decide +kernel
  rw [hr, Option.map_some, Option.some.injEq, Prod.mk.injEq] at hboth
  refine ⟨_, realm, hrun, hr, hboth.1, hboth.2, fun h => ?_⟩
  have hsame := h.registration
  rw [hboth.1, hboth.2] at hsame
  exact absurd hsame (by decide)

end RouterStateStore

end Connectanum
