import Connectanum.State.Calls

/-!
# State — Calm relations

A relation between the store before and after that the elementary updates respect holds across the
operations made of them.

* `Calm`: the relation is a preorder that the updates respect which leave the registrations as they
  are: other parts of a realm, ids, counters, timers, notices, and the release of leases;
* a lemma for each operation of this kind;
* `Calm.dispatchCommand`: what is left to show for a command.
-/

namespace Connectanum

open Collections Machine

/-- The output goes to one of the meta streams. -/
def StoreOutput.isNotice : StoreOutput → Bool
  | .reply _ _ => false
  | .invocationTimeout _ => false
  | _ => true

namespace RouterStateStore

/-- The relation holds across updates that leave the registrations as they are and hold no call
back. -/
structure Calm (R : RouterStateStore → RouterStateStore → Prop) : Prop where
  refl : ∀ st, R st st
  trans : ∀ {s₁ s₂ s₃}, R s₁ s₂ → R s₂ s₃ → R s₁ s₃
  realm : ∀ st uri r, ProcedureTable.Rested (st.realmOf uri).procedures r.procedures →
    R st (setRealm st uri r)
  notice : ∀ st o, o.isNotice = true → R st (emit st o)
  ids : ∀ st ids, ids.registration = st.ids.registration → R st { st with ids := ids }
  counters : ∀ st counters, R st { st with counters := counters }
  timers : ∀ st timers, R st { st with invocationTimeouts := timers }
  /-- A lease is given back. -/
  lease : ∀ st key id, R st { st with
    retryThrottleLeases := st.retryThrottleLeases.erase key
    retryThrottleKeysByInvocation := st.retryThrottleKeysByInvocation.erase id }

namespace Calm

variable {R : RouterStateStore → RouterStateStore → Prop} (h : Calm R) (st : RouterStateStore)
include h

/-- The realm `uri` changes, but not its registrations. -/
theorem put {uri : String} {realm r : RealmRecord} (hr : st.realms.get? uri = some realm)
    (hp : ProcedureTable.Rested realm.procedures r.procedures) : R st (st.setRealm uri r) :=
  h.realm st uri r (by rwa [realmOf_of_get hr])

theorem modifyRealm (uri : String) {f : RealmRecord → RealmRecord}
    (hf : ∀ r, (f r).procedures = r.procedures) : R st (st.modifyRealm uri f) := by
  unfold RouterStateStore.modifyRealm
  split
  · exact h.refl st
  · next realm hr => exact h.put st hr (by rw [hf]; exact .refl _)

omit st in
/-- Calls leave the registrations as they are. -/
theorem resting : Resting R where
  refl := h.refl
  trans := h.trans
  realm := by
    intro st uri r r' hr hs
    refine h.realm st uri r' ?_
    rw [hr]
    clear hr
    induction hs with
    | refl => exact .refl _
    | tail _ hstir ih =>
        refine ih.trans ?_
        cases hstir with
        | turned at_ref =>
            refine .modify _ _ fun e he => ?_
            obtain rfl := Option.some.inj (at_ref.symm.trans he)
            exact ProcedureTable.nextCallee_same _ _
        | touched => exact .modify _ _ fun e _ => ProcedureTable.touchCallee_same e _ _
        | _ => exact .refl _
  create hn := h.realm _ _ _ (by rw [realmOf_of_none hn]; exact .refl _)
  bumped hr := h.put _ hr (.refl _)
  shown hr := h.put _ hr (.refl _)
  changed st _ _ := h.notice st _ rfl
  ids st ids _ hr _ := h.ids st ids hr
  counters := h.counters
  drawn st := h.ids st _ rfl
  timers := h.timers
  dropLease st key := by
    unfold RouterStateStore.dropLease
    split
    · exact h.refl st
    · exact h.lease st _ _
  release st id := by
    unfold releaseRetryThrottleLease
    split
    · exact h.refl st
    · exact h.lease st _ _

omit h in
theorem procedures_modifySession (r : RealmRecord) (s : Nat) (f : SessionRecord → SessionRecord) :
    (r.modifySession s f).procedures = r.procedures := by
  unfold RealmRecord.modifySession
  split <;> rfl

theorem removeSubscription (uri : String) (s id : Nat) :
    R st (st.removeSubscription uri s id) := by
  unfold RouterStateStore.removeSubscription
  split
  · exact h.refl st
  · next realm hr =>
    split
    · exact h.refl st
    · next ref entry hf =>
      dsimp only
      refine h.trans ?_ (h.resting.bumpAndNotify _ uri)
      have hput : ∀ r : RealmRecord, r.procedures = realm.procedures → R st (st.setRealm uri r) :=
        fun r hp => h.put st hr (by rw [hp]; exact .refl _)
      have hemit : ∀ {st'} t, R st st' → R st (st'.emit (subscriptionMetaEvent uri t entry s)) :=
        fun t hst => h.trans hst (h.notice _ _ rfl)
      have htable := hput _ (procedures_modifySession
        { realm with subscriptions := realm.subscriptions.unsubscribe ref entry s } s
        (·.removeSubscriptionId id))
      split <;> split
      · exact hemit _ (hemit _ htable)
      · exact hemit _ htable
      · exact hemit _ htable
      · exact htable

theorem openSession (uri : String) (session : SessionRecord) :
    R st (st.openSession uri session).1 := by
  unfold RouterStateStore.openSession
  split
  · exact h.refl st
  · next hg =>
    obtain ⟨hst, hr⟩ := h.resting.getOrCreateRealm hg
    refine h.trans ?_ (h.notice _ _ rfl)
    refine h.trans ?_ (h.resting.bumpAndNotify _ uri)
    exact h.trans hst (h.put _ hr (.refl _))

theorem addSubscription (env : StoreEnv) (uri : String) (s : Nat) (topic : String)
    (p : TopicMatchPolicy) (details : Dict) :
    R st (st.addSubscription env uri s topic p details).1 := by
  refine addSubscription_elim (fun st' e ha => h.resting.asked ha)
    (fun st' e ha => h.trans (h.resting.asked ha) (h.ids _ _ rfl)) ?_
  intro st' realm session table ref entry hg _ _ _ done
  obtain ⟨hst, hr⟩ := h.resting.getOrCreateRealm hg
  have hdrawn : R st st'.drawSubscriptionId := h.trans hst (h.ids _ _ rfl)
  have htable : ∀ r : RealmRecord, r.procedures = realm.procedures →
      R st ((st'.drawSubscriptionId.setRealm uri r).bumpAndNotify uri) :=
    fun r hp => h.trans hdrawn (h.trans
      (h.put st'.drawSubscriptionId hr (by rw [hp]; exact .refl _))
      (h.resting.bumpAndNotify _ uri))
  have hdone : R st done := htable _ (procedures_modifySession _ _ _)
  refine h.trans ?_ (h.notice _ _ rfl)
  split
  · exact h.trans hdone (h.notice _ _ rfl)
  · exact hdone

/-! ### Commands -/

section

variable (hsend : ∀ st port payload, R st (send st port payload))
include hsend

/-- **A command** respects the relation, if those do that add or remove registrations or hold calls
back. -/
theorem dispatchCommand (env : StoreEnv) (c : RouterStateCommand)
    (hclose : ∀ uri s, c = .sessionClose uri s → R st (st.closeSession uri s))
    (hregister : ∀ uri s procedure details port, c = .procedureRegister uri s procedure details port →
      R st (st.registerProcedure env uri s procedure details).1)
    (hunregister : ∀ uri s id, c = .procedureUnregister uri s id →
      R st (st.unregisterProcedure uri s id))
    (hdispatch : ∀ uri caller request procedure options port,
      c = .invocationDispatch uri caller request procedure options port →
      R st (st.handleInvocationDispatch env uri caller request procedure options port)) :
    R st (st.dispatchCommand env c) := by
  have hcall : (StoreInput.command c).isOfMembers = false → c.isDispatch = false →
      R st (st.dispatchCommand env c) := by
    intro hm hd
    obtain ⟨st', p, hst, e⟩ := h.resting.command st env hm hd
    rw [e]
    exact h.resting.answered st hsend hst _ p
  cases c with
  | sessionOpen uri session => exact h.openSession st uri session
  | sessionClose uri s => exact hclose uri s rfl
  | subscriptionAdd uri s topic policy details port =>
      exact h.resting.sendGuardedReply st hsend port _
        (h.addSubscription st env uri s topic policy details)
  | subscriptionRemove uri s id => exact h.removeSubscription st uri s id
  | procedureRegister uri s procedure details port =>
      have hreg := hregister uri s procedure details port rfl
      simp only [RouterStateStore.dispatchCommand]
      split
      · next he =>
        rw [he] at hreg
        exact h.trans hreg (hsend _ port _)
      · next he =>
        rw [he] at hreg
        exact h.trans hreg (hsend _ port _)
  | procedureUnregister uri s id => exact hunregister uri s id rfl
  | invocationDispatch uri caller request procedure options port =>
      exact hdispatch uri caller request procedure options port rfl
  | _ => exact hcall rfl rfl

end

end Calm

end RouterStateStore

end Connectanum
