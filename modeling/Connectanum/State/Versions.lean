import Connectanum.State.Moves

/-!
# State — Versions

The version of a realm stands for the contents of its snapshot: along a run it does not go back,
and where it is the same the snapshot is the same (`versions_sound`).  So a worker that is told
that its version is current may keep the snapshot that it has.

The reason is that every change that a snapshot shows raises the version (`versioned_move`): what
does not raise it touches pending invocations, the turn among callees, or the kept snapshot.
-/

namespace Connectanum

open Collections Machine

namespace RealmRecord

/-- The version does not go back, and the same version shows the same snapshot. -/
structure Versioned (r r' : RealmRecord) : Prop where
  version_le : r.version ≤ r'.version
  same : r'.version = r.version → r'.buildSnapshot = r.buildSnapshot

/-- A snapshot that was kept is the one that would be built. -/
def Kept (r : RealmRecord) : Prop :=
  ∀ snapshot, r.lastSnapshot = some snapshot → snapshot = r.buildSnapshot

theorem Versioned.refl (r : RealmRecord) : Versioned r r := ⟨Nat.le_refl _, fun _ => rfl⟩

theorem Versioned.trans {r r' r'' : RealmRecord} (h : Versioned r r') (h' : Versioned r' r'') :
    Versioned r r'' := by
  refine ⟨h.version_le.trans h'.version_le, fun he => ?_⟩
  have hle := h.version_le
  have hle' := h'.version_le
  rw [h'.same (by omega), h.same (by omega)]

theorem Versioned.bump {r r' : RealmRecord} (h : r'.version = r.version) :
    Versioned r r'.bumpVersion := by
  refine ⟨?_, fun he => ?_⟩
  · change r.version ≤ r'.version + 1
    omega
  · change r'.version + 1 = r.version at he
    omega

theorem modifySession_version (r : RealmRecord) (s : Nat) (f : SessionRecord → SessionRecord) :
    (r.modifySession s f).version = r.version := by
  unfold modifySession
  split <;> rfl

/-- What a snapshot shows of an entry. -/
def shown (e : ProcedureEntry) : RegistrationSnapshot where
  registrationId := e.registrationId
  procedure := e.procedure
  policy := e.policy
  matchPolicy := e.matchPolicy
  callees := e.callees.values
  created := e.created

/-- Choosing a callee shows in no snapshot. -/
theorem shown_nextCallee (e : ProcedureEntry) (draw : Nat) :
    shown (e.nextCallee draw).2 = shown e := by
  have hordered : shown e.orderedCallees.2 = shown e := by
    unfold ProcedureEntry.orderedCallees
    split
    · split <;> rfl
    · rfl
  unfold ProcedureEntry.nextCallee
  split
  · rfl
  · split
    · rfl
    · dsimp only
      split
      · exact hordered
      · exact hordered
    · exact hordered
    · exact hordered
    · exact hordered
    · rfl

theorem buildSnapshot_turned {r : RealmRecord} {ref : Ref} {entry : ProcedureEntry}
    (h : r.procedures.heap.get? ref = some entry) (draw : Nat) :
    RealmRecord.buildSnapshot
        { r with procedures := r.procedures.modify ref fun _ => (entry.nextCallee draw).2 } =
      r.buildSnapshot := by
  have hheap : ∀ r', ((r.procedures.heap.modify ref fun _ => (entry.nextCallee draw).2).get?
      r').map shown = (r.procedures.heap.get? r').map shown := by
    intro r'
    rw [Heap.get?_modify]
    by_cases e : r' = ref
    · rw [if_pos e, e, h, Option.map_some, Option.map_some, Option.map_some, shown_nextCallee]
    · rw [if_neg e]
  have hshown := fun refs : List Ref =>
    List.filterMap_congr (l := refs) fun r' _ => hheap r'
  simp only [buildSnapshot, ProcedureAtlas.values, ProcedureTable.modify, List.map_filterMap]
  exact congrArg (RealmSnapshot.mk _ _ _ _) (hshown _)

end RealmRecord

/-- What a worker keeps of a realm: the snapshot it has and the version of it. -/
structure RealmContext where
  snapshot : Option RealmSnapshot := none
  version : Option Nat := none

namespace RealmContext

/-- The request of `ensureSnapshot`, if it makes one: the version it says it knows. -/
def request (ctx : RealmContext) (forceRefresh : Bool) : Option (Option Nat) :=
  if !forceRefresh && ctx.snapshot.isSome then none
  else some (if forceRefresh then none else ctx.version)

/-- The version stays when the snapshot is dropped. -/
def invalidate (ctx : RealmContext) : RealmContext := { ctx with snapshot := none }

/-- The rest of `ensureSnapshot`, with the response at hand. -/
def receive (ctx : RealmContext) (response : RealmSnapshotResponse) : RealmContext :=
  if response.isNew || ctx.snapshot.isNone then
    { snapshot := some response.snapshot, version := some response.snapshot.version }
  else ctx

end RealmContext

namespace RouterStateStore

open RealmRecord

variable {st : RouterStateStore} {input : StoreInput} {u : String} {r r' : RealmRecord}
  {events : List StoreOutput}

theorem versioned_leave (s id : Nat) :
    Versioned r (r.removeSubscription s id) ∧ Versioned r (r.unregisterProcedure s id) := by
  constructor
  · unfold RealmRecord.removeSubscription
    split
    · exact .refl r
    · exact .bump (modifySession_version _ _ _)
  · unfold RealmRecord.unregisterProcedure
    split
    · exact .refl r
    · exact .bump (modifySession_version _ _ _)

/-- **What a snapshot shows changes with the version only.** -/
theorem versioned_move (h : RealmMove st input u r events r') : Versioned r r' := by
  cases h with
  | joined | departed | touched | bumped => exact .bump rfl
  | shown | invoked => exact ⟨Nat.le_refl _, fun _ => rfl⟩
  | subscribed | registered => exact .bump (modifySession_version _ _ _)
  | unsubscribed => exact (versioned_leave _ _).1
  | unregistered => exact (versioned_leave _ _).2
  | turned at_ref => exact ⟨Nat.le_refl _, fun _ => buildSnapshot_turned at_ref _⟩

theorem kept_of_none (h : r.lastSnapshot = none) : r.Kept := by
  intro snapshot hs
  rw [h] at hs
  cases hs

/-- A change drops the kept snapshot, or leaves what it shows as it is. -/
theorem kept_move (h : RealmMove st input u r events r') (hk : r.Kept) : r'.Kept := by
  cases h with
  | joined | departed | touched | bumped | subscribed | registered => exact kept_of_none rfl
  | shown => exact fun snapshot hs => (Option.some.inj hs).symm
  | invoked => exact hk
  | unsubscribed _ found =>
      rw [RealmRecord.removeSubscription, found]
      exact kept_of_none rfl
  | unregistered _ found =>
      rw [RealmRecord.unregisterProcedure, found]
      exact kept_of_none rfl
  | turned at_ref =>
      intro snapshot hs
      rw [buildSnapshot_turned at_ref]
      exact hk snapshot hs

theorem versioned_moves (h : Moves st input u r events r') : Versioned r r' :=
  h.induct .refl (fun _ _ _ => .trans) fun _ _ _ => versioned_move

theorem kept_moves (h : Moves st input u r events r') (hk : r.Kept) : r'.Kept := by
  induction h with
  | nil => exact hk
  | cons move _ ih => exact ih (kept_move move hk)

/-! ### Runs -/

theorem versioned_run (inputs : List (StoreEnv × StoreInput)) (st : RouterStateStore)
    (u : String) : Versioned (st.realmOf u) ((inputs.foldl step st).realmOf u) := by
  induction inputs generalizing st with
  | nil => exact .refl _
  | cons x rest ih =>
      obtain ⟨events, hmoves, -⟩ := moved_handle x.1 st x.2 u
      exact (versioned_moves hmoves).trans (ih (st.step x))

theorem kept_run (inputs : List (StoreEnv × StoreInput)) {st : RouterStateStore} {u : String}
    (h : (st.realmOf u).Kept) : ((inputs.foldl step st).realmOf u).Kept := by
  induction inputs generalizing st with
  | nil => exact h
  | cons x rest ih =>
      obtain ⟨events, hmoves, -⟩ := moved_handle x.1 st x.2 u
      exact ih (kept_moves hmoves h)

/-- What a request for a snapshot is answered. -/
theorem getSnapshot_answer {st : RouterStateStore} {u : String} {known : Option Nat}
    {response : RealmSnapshotResponse} (hk : (st.realmOf u).Kept)
    (h : (st.getSnapshot u known).2 = .ok response) :
    response.snapshot = (st.realmOf u).buildSnapshot ∧
      (response.isNew = false ↔ known = some (st.realmOf u).version) ∧
      (st.getSnapshot u none).2 =
        .ok { snapshot := (st.realmOf u).buildSnapshot, isNew := true } := by
  unfold getSnapshot at h ⊢
  cases hg : st.getOrCreateRealm u with
  | error e =>
      rw [hg] at h
      cases h
  | ok found =>
      obtain ⟨st', realm⟩ := found
      obtain ⟨hview, hrealm⟩ := view_getOrCreateRealm hg u
      obtain ⟨hsame, -⟩ := Prod.mk.inj hview
      rw [hrealm] at hsame
      subst hsame
      rw [hg] at h
      dsimp only at h ⊢
      rw [if_neg nofun]
      split at h
      · next hknown =>
        obtain rfl := Except.ok.inj h
        refine ⟨?_, by simp [hknown], rfl⟩
        cases hlast : (st.realmOf u).lastSnapshot with
        | none => rfl
        | some snapshot => exact hk snapshot hlast
      · next hknown =>
        obtain rfl := Except.ok.inj h
        exact ⟨rfl, by simp [hknown], rfl⟩

/-- **A realm's version stands for its snapshot.**  At two moments of a run, the later one has
no smaller version, and with the same version the snapshots are the same.  So where a snapshot
was taken at the first moment, and a request with its version is answered as unchanged at the
second, the snapshot is the one that a fresh request would get; and whatever a worker that took it
asks at the second moment, it ends up with that one. -/
theorem versions_sound (configs : List String) (before later : List (StoreEnv × StoreInput))
    (uri : String) :
    (∀ r₁ r₂ : RealmRecord,
      (before.foldl step { realmConfigs := configs }).realms.get? uri = some r₁ →
      ((before ++ later).foldl step { realmConfigs := configs }).realms.get? uri = some r₂ →
      r₁.version ≤ r₂.version ∧
        (r₁.version = r₂.version → r₁.buildSnapshot = r₂.buildSnapshot)) ∧
    ∀ (known : Option Nat) (first second : RealmSnapshotResponse),
      ((before.foldl step { realmConfigs := configs }).getSnapshot uri known).2 = .ok first →
      ∀ asked : Option Nat,
      (((before ++ later).foldl step { realmConfigs := configs }).getSnapshot uri asked).2 =
        .ok second →
      ∃ fresh,
        (((before ++ later).foldl step { realmConfigs := configs }).getSnapshot uri none).2 =
          .ok { snapshot := fresh, isNew := true } ∧
        second.snapshot = fresh ∧
        (asked = some first.snapshot.version → second.isNew = false → first.snapshot = fresh) ∧
        ∀ ctx : RealmContext, ctx = RealmContext.receive {} first ∨
            ctx = (RealmContext.receive {} first).invalidate →
          ∀ forceRefresh, ctx.request forceRefresh = some asked →
            (ctx.receive second).snapshot = some fresh := by
  have hempty : (realmOf { realmConfigs := configs } uri).Kept := fun snapshot hs => by cases hs
  have hkept := kept_run before hempty
  have hkept' := kept_run (before ++ later) hempty
  rw [List.foldl_append] at hkept' ⊢
  have hrun := versioned_run later (before.foldl step { realmConfigs := configs }) uri
  generalize before.foldl step { realmConfigs := configs } = st₁ at *
  generalize later.foldl step st₁ = st₂ at *
  constructor
  · intro r₁ r₂ h₁ h₂
    rw [realmOf_of_get h₁, realmOf_of_get h₂] at hrun
    exact ⟨hrun.version_le, fun he => (hrun.same he.symm).symm⟩
  · intro known first second h₁ asked h₂
    obtain ⟨hfirst, -, -⟩ := getSnapshot_answer hkept h₁
    obtain ⟨hsecond, hiff, hfresh⟩ := getSnapshot_answer hkept' h₂
    refine ⟨_, hfresh, hsecond, fun hasked hnew => ?_, fun ctx hctx forceRefresh hrequest => ?_⟩
    · have hversion := Option.some.inj (hasked.symm.trans (hiff.mp hnew))
      rw [hfirst] at hversion ⊢
      exact (hrun.same hversion.symm).symm
    · -- a worker that still has its snapshot asks only for a new one
      have htaken : second.isNew = true ∨ ctx.snapshot = none := by
        rcases hctx with rfl | rfl
        · refine .inl ?_
          cases forceRefresh with
          | false => simp [RealmContext.request, RealmContext.receive] at hrequest
          | true =>
              obtain rfl : none = asked := by simpa [RealmContext.request] using hrequest
              simpa using hiff
        · exact .inr rfl
      have hkeeps : (second.isNew || ctx.snapshot.isNone) = true := by
        rcases htaken with h | h
        · rw [h, Bool.true_or]
        · rw [h, Option.isNone_none, Bool.or_true]
      rw [RealmContext.receive, if_pos hkeeps, hsecond]

/-- A realm in which a session opens, registers and is called. -/
theorem versions_sound_of_sample :
    ∃ r₁ r₂ : RealmRecord,
      ((sampleInputs.take 1).foldl step { realmConfigs := ["realm1"] }).realms.get? "realm1" =
        some r₁ ∧
      (sampleInputs.foldl step { realmConfigs := ["realm1"] }).realms.get? "realm1" = some r₂ ∧
      r₁.version < r₂.version ∧ r₁.version ≤ r₂.version := by
  obtain ⟨r₁, h₁⟩ := Option.isSome_iff_exists.mp (show (((sampleInputs.take 1).foldl step
    { realmConfigs := ["realm1"] }).realms.get? "realm1").isSome = true by decide +kernel)
  obtain ⟨r₂, h₂⟩ := Option.isSome_iff_exists.mp (show ((sampleInputs.foldl step
    { realmConfigs := ["realm1"] }).realms.get? "realm1").isSome = true by decide +kernel)
  have hv₁ : (((sampleInputs.take 1).foldl step { realmConfigs := ["realm1"] }).realms.get?
    "realm1").map (·.version) = some 1 := by decide +kernel
  have hv₂ : ((sampleInputs.foldl step { realmConfigs := ["realm1"] }).realms.get?
    "realm1").map (·.version) = some 5 := by decide +kernel
  rw [h₁, Option.map_some] at hv₁
  rw [h₂, Option.map_some] at hv₂
  have hlt : r₁.version < r₂.version := by
    rw [Option.some.inj hv₁, Option.some.inj hv₂]
    decide
  have hsound := versions_sound ["realm1"] (sampleInputs.take 1) (sampleInputs.drop 1) "realm1"
  rw [List.take_append_drop] at hsound
  exact ⟨r₁, r₂, h₁, h₂, hlt, (hsound.1 r₁ r₂ h₁ h₂).1⟩

end RouterStateStore

end Connectanum
