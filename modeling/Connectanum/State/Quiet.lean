import Connectanum.State.Calm

/-!
# State — Quiet quantities

A quantity of the store that depends on what it has answered, announced or holds back, and on
nothing else, is changed by few operations only.

* `Quiet`: the quantity does not see realms, ids, counters, timers, leases, nor the notices of the
  meta streams;
* a lemma for each operation that such a quantity does not notice;
* `Quiet.dispatchCommand`: a command that is no dispatch changes it by its answer.
-/

namespace Connectanum

open Collections Machine

namespace RouterStateStore

/-- The quantity `g` reads the answers, the announced timeouts and the held dispatches only. -/
structure Quiet {β : Type} (g : RouterStateStore → β) : Prop where
  realm : ∀ st uri r, g (setRealm st uri r) = g st
  notice : ∀ st o, o.isNotice = true → g (emit st o) = g st
  ids : ∀ st ids, g { st with ids := ids } = g st
  counters : ∀ st counters, g { st with counters := counters } = g st
  timers : ∀ st timers, g { st with invocationTimeouts := timers } = g st
  leases : ∀ st leases keys, g { st with
    retryThrottleLeases := leases, retryThrottleKeysByInvocation := keys } = g st

namespace Quiet

variable {β : Type} {g : RouterStateStore → β} (h : Quiet g) (st : RouterStateStore)
include h

/-- That the quantity is the same is a calm relation. -/
theorem calm : Calm fun st st' => g st' = g st where
  refl := fun _ => rfl
  trans := fun h₁ h₂ => h₂.trans h₁
  realm := fun st uri r _ => h.realm st uri r
  notice := h.notice
  ids := fun st ids _ => h.ids st ids
  counters := h.counters
  timers := h.timers
  lease := fun st _ _ => h.leases st _ _

omit st in
theorem resting : Resting fun st st' => g st' = g st := h.calm.resting

theorem registerProcedure (env : StoreEnv) (uri : String) (s : Nat) (procedure : String)
    (details : Dict) : g (st.registerProcedure env uri s procedure details).1 = g st := by
  refine registerProcedure_elim (fun st' e ha => h.resting.asked ha)
    (fun st' realm e hg => ?_) ?_
  · exact (h.realm _ _ _).trans ((h.ids _ _).trans (h.resting.getOrCreateRealm hg).1)
  · intro st' realm session policy matchPolicy retry table ref entry hg _ _ _ _ _ done
    have hdone : g done = g st := (h.resting.bumpAndNotify _ uri).trans ((h.realm _ _ _).trans
      ((h.realm _ _ _).trans ((h.ids _ _).trans (h.resting.getOrCreateRealm hg).1)))
    refine (h.notice _ _ rfl).trans ?_
    split
    · exact (h.notice _ _ rfl).trans hdone
    · exact hdone

/-! ### Where held dispatches are dropped -/

section

variable (hdrop : ∀ e st key, g (dropDebounce e st key) = g st)
include hdrop

theorem clearRetry (uri : String) (id : Nat) :
    g (st.clearRetryDeduplicationForRegistration uri id) = g st :=
  clearRetry_frame st g h.resting.dropLease hdrop uri id

theorem unregisterProcedure (uri : String) (s id : Nat) :
    g (st.unregisterProcedure uri s id) = g st := by
  unfold RouterStateStore.unregisterProcedure
  split
  · rfl
  · split
    · rfl
    · refine (h.resting.bumpAndNotify _ uri).trans ?_
      have hemit : ∀ st t e details, g (emit st (registrationMetaEvent uri t e details s)) = g st :=
        fun st t e details => h.notice st _ rfl
      split <;> split <;> simp only [h.clearRetry _ hdrop, hemit, h.realm]

theorem closeSession (uri : String) (s : Nat) : g (st.closeSession uri s) = g st := by
  have hstart : g ((st.cancelPendingRetryDebouncesForCaller uri s).removeInvocationsForSession uri
      s) = g st :=
    (h.resting.removeInvocations _ uri s).trans (cancelDebounces_frame st g hdrop uri s)
  unfold RouterStateStore.closeSession
  split
  · rfl
  · dsimp only
    split
    · exact hstart
    · rw [h.notice _ _ rfl, h.resting.bumpAndNotify,
        foldl_frame g fun st id => h.unregisterProcedure st hdrop uri s id,
        foldl_frame g fun st id => h.calm.removeSubscription st uri s id]
      refine Eq.trans ?_ hstart
      exact h.calm.modifyRealm _ uri fun _ => rfl

end

/-! ### Answers -/

section

variable {f : SendPort → β → β} (hsend : ∀ st port payload, g (send st port payload) = f port (g st))
include hsend

omit h in
theorem replyDispatch (port : SendPort)
    (result : RouterStateStore × Except StoreError InvocationDispatchResult) :
    g (replyDispatch port result) = f port (g result.1) := by
  obtain ⟨st, _ | _⟩ := result
  · exact hsend st port _
  · exact hsend st port _

omit h in
theorem sendGuardedReply {α : Type} (port : SendPort) (wrap : α → StoreReply)
    (result : RouterStateStore × Except StoreError α) :
    g (sendGuardedReply port wrap result) = f port (g result.1) := by
  obtain ⟨st, _ | _⟩ := result
  · exact hsend st port _
  · exact hsend st port _

omit h in
theorem answered (port? : Option SendPort) (p : StoreReply) :
    g (port?.elim st (send st · p)) = port?.elim (g st) (f · (g st)) := by
  cases port? with
  | none => rfl
  | some port => exact hsend st port p

theorem dispatchThrottled (env : StoreEnv) (uri : String) (caller request : Nat)
    (procedure : String) (options : Dict) (port : SendPort) (entry : ProcedureEntry)
    (policy : RetryDeduplication) (key : RetryDeduplicationKey) :
    g (st.dispatchThrottled env uri caller request procedure options port entry policy key) =
      f port (g st) := by
  have hcap := h.resting.ensureCapacity st entry policy
  unfold RouterStateStore.dispatchThrottled
  split
  · rw [hsend, h.counters]
  · split
    · next he =>
      rw [he] at hcap
      rw [hsend, hcap]
    · next st' he =>
      rw [he] at hcap
      have hd := h.resting.dispatchInvocation st' env uri caller request procedure options
      split
      · next hde =>
        rw [hde] at hd
        rw [hsend, hd, hcap]
      · next hde =>
        rw [hde] at hd
        rw [hsend, h.leases, hd, hcap]

/-- A dispatch command is answered, or it is held under the key of its transaction. -/
theorem handleInvocationDispatch_cases (env : StoreEnv) (uri : String) (caller request : Nat)
    (procedure : String) (options : Dict) (port : SendPort) :
    g (st.handleInvocationDispatch env uri caller request procedure options port) = f port (g st) ∨
      ∃ st' entry policy debounce hash, g st' = g st ∧
        transactionHash options = .ok (some hash) ∧
        st.handleInvocationDispatch env uri caller request procedure options port =
          st'.dispatchDebounced env uri caller request procedure options port entry policy debounce
            { realmUri := uri, registrationId := entry.registrationId, transactionHash := hash } := by
  refine handleInvocationDispatch_elim (fun st' ha => .inl ?_) (fun st' e ha => .inl ?_) ?_
  · rw [replyDispatch hsend, h.resting.dispatchInvocation, h.resting.asked ha]
  · rw [hsend, h.resting.asked ha]
  · intro st' realm ref entry policy hash _ hwire hg _ _
    have hreap := (h.resting.reap st' env.now).trans (h.resting.getOrCreateRealm hg).1
    split
    · exact .inl (by rw [h.dispatchThrottled _ hsend, hreap])
    · exact .inr ⟨_, _, _, _, hash, hreap, hwire, rfl⟩

/-- **A command that is no dispatch** changes the quantity by its answer, if what removes
memberships does not change it otherwise. -/
theorem dispatchCommand (env : StoreEnv) {c : RouterStateCommand} (hc : c.isDispatch = false)
    (hclose : ∀ uri s, c = .sessionClose uri s → g (st.closeSession uri s) = g st)
    (hunregister : ∀ uri s id, c = .procedureUnregister uri s id →
      g (st.unregisterProcedure uri s id) = g st) :
    g (st.dispatchCommand env c) = c.replyPort?.elim (g st) (f · (g st)) := by
  have hcall : (StoreInput.command c).isOfMembers = false →
      g (st.dispatchCommand env c) = c.replyPort?.elim (g st) (f · (g st)) := by
    intro hm
    obtain ⟨st', p, hst, e⟩ := h.resting.command st env hm hc
    rw [e, ← hst]
    exact answered st' hsend _ p
  cases c with
  | sessionOpen uri session => exact h.calm.openSession st uri session
  | sessionClose uri s => exact hclose uri s rfl
  | subscriptionAdd uri s topic policy details port =>
      exact (sendGuardedReply hsend port _ _).trans
        (congrArg (f port) (h.calm.addSubscription st env uri s topic policy details))
  | subscriptionRemove uri s id => exact h.calm.removeSubscription st uri s id
  | procedureRegister uri s procedure details port =>
      have hreg := h.registerProcedure st env uri s procedure details
      simp only [RouterStateStore.dispatchCommand]
      split
      · next he =>
        rw [he] at hreg
        exact (hsend _ port _).trans (congrArg (f port) hreg)
      · next he =>
        rw [he] at hreg
        exact (hsend _ port _).trans (congrArg (f port) hreg)
  | procedureUnregister uri s id => exact hunregister uri s id rfl
  | invocationDispatch => cases hc
  | _ => exact hcall rfl

end

end Quiet

end RouterStateStore

end Connectanum
