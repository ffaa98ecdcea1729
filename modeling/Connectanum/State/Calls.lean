import Connectanum.State.Ways
import Mathlib.Logic.Relation

/-!
# State — What calls do to the store

A call is looked up, held, dispatched, answered and timed out, and meanwhile the sessions, the
subscriptions and the registrations of every realm stay as they are.

* `Stir`: the elementary changes that calls make to a realm's record;
* `Resting`: a preorder respected by these, by notices that a realm changed, by other ids, counters
  and timers, and by the release of leases, with a lemma for each operation made of them;
* `Resting.command`: a command is such changes and an answer;
* `Stirred`: a preorder respected by everything but what tells of members or changes them;
* `Stirred.handle`: an input that is about no session, subscription or registration.
-/

namespace Connectanum

open Collections Machine

/-- The output tells of a session, a subscription or a registration. -/
def StoreOutput.isOfMembers : StoreOutput → Bool
  | .sessionMeta _ | .subscriptionMeta _ | .registrationMeta _ => true
  | _ => false

/-- The input opens or closes a session, or it adds or takes away a membership. -/
def StoreInput.isOfMembers : StoreInput → Bool
  | .command (.sessionOpen _ _) | .command (.sessionClose _ _) => true
  | .command (.subscriptionAdd _ _ _ _ _ _) | .command (.subscriptionRemove _ _ _) => true
  | .command (.procedureRegister _ _ _ _ _) | .command (.procedureUnregister _ _ _) => true
  | _ => false

/-- The port on which the sender of the command waits. -/
def RouterStateCommand.replyPort? : RouterStateCommand → Option SendPort
  | .realmEnsure _ => none
  | .realmSnapshot _ _ port => some port
  | .sessionOpen _ _ => none
  | .sessionAllocateId port => some port
  | .sessionClose _ _ => none
  | .subscriptionAdd _ _ _ _ _ port => some port
  | .subscriptionRemove _ _ _ => none
  | .subscriptionMatch _ _ _ _ port => some port
  | .procedureRegister _ _ _ _ port => some port
  | .procedureUnregister _ _ _ => none
  | .invocationDispatch _ _ _ _ _ port => some port
  | .invocationFindByCaller _ _ _ port => some port
  | .invocationCancel _ _ _ _ port => some port
  | .invocationGet _ _ port => some port
  | .invocationCaller _ _ _ port => some port
  | .invocationComplete _ _ port => port
  | .invocationTouch _ _ port => port
  | .metricsSnapshot port => some port

def RouterStateCommand.isDispatch : RouterStateCommand → Bool
  | .invocationDispatch _ _ _ _ _ _ => true
  | _ => false

/-- The command opens or closes a session, or it is about an invocation that it may change. -/
def RouterStateCommand.concernsInvocations : RouterStateCommand → Bool
  | .sessionOpen _ _ | .sessionClose _ _ => true
  | .invocationDispatch _ _ _ _ _ _ | .invocationCancel _ _ _ _ _ => true
  | .invocationComplete _ _ _ | .invocationTouch _ _ _ => true
  | _ => false

/-- One change that calls make to a realm's record. -/
inductive Stir : RealmRecord → RealmRecord → Prop where
  | invoked {r : RealmRecord} (invocations : LinkedMap Nat PendingInvocation) :
      Stir r { r with invocations := invocations }
  | turned {r : RealmRecord} {ref : Ref} {entry : ProcedureEntry} {draw : Nat}
      (at_ref : r.procedures.heap.get? ref = some entry) :
      Stir r { r with procedures := r.procedures.modify ref fun _ => (entry.nextCallee draw).2 }
  | touched {r : RealmRecord} {ref : Ref} {entry : ProcedureEntry} {id now : Nat}
      (at_ref : r.procedures.heap.get? ref = some entry) :
      Stir r (RealmRecord.bumpVersion
        { r with procedures := r.procedures.modify ref (·.touchCallee id now) })
  | bumped {r : RealmRecord} : Stir r r.bumpVersion
  | shown {r : RealmRecord} : Stir r { r with lastSnapshot := some r.buildSnapshot }

/-- Changes of this kind, one after the other. -/
abbrev Stirs : RealmRecord → RealmRecord → Prop := Relation.ReflTransGen Stir

/-- A callee was chosen, the invocation added and the callee's record touched. -/
theorem Stir.called {r : RealmRecord} {ref : Ref} {entry : ProcedureEntry} {draw : Nat}
    (h : r.procedures.heap.get? ref = some entry) (m : LinkedMap Nat PendingInvocation)
    (id now : Nat) :
    Stirs r (RealmRecord.bumpVersion
      { r with
        invocations := m
        procedures := (r.procedures.modify ref fun _ => (entry.nextCallee draw).2).modify ref
          (·.touchCallee id now) }) := by
  -- the entry was written back, so the callee is touched where it was found
  have hheap : (r.procedures.modify ref fun _ => (entry.nextCallee draw).2).heap.get? ref =
      some (entry.nextCallee draw).2 := by
    rw [ProcedureTable.heap_modify, if_pos rfl, h]
    rfl
  have hturn : Stirs r { r with
      procedures := r.procedures.modify ref fun _ => (entry.nextCallee draw).2 } :=
    .single (.turned h)
  exact (hturn.tail (.invoked m)).tail (.touched hheap)

namespace RouterStateStore

/-- The record of a realm, empty as long as the realm was not asked for. -/
def realmOf (st : RouterStateStore) (u : String) : RealmRecord :=
  (st.realms.get? u).getD { realmUri := u }

theorem realmOf_congr {st st' : RouterStateStore} {u : String}
    (h : st'.realms.get? u = st.realms.get? u) : st'.realmOf u = st.realmOf u := by
  rw [realmOf, h, realmOf]

theorem realmOf_of_get {st : RouterStateStore} {u : String} {realm : RealmRecord}
    (h : st.realms.get? u = some realm) : st.realmOf u = realm := by
  rw [realmOf, h, Option.getD_some]

theorem realmOf_of_none {st : RouterStateStore} {u : String} (h : st.realms.get? u = none) :
    st.realmOf u = { realmUri := u } := by
  rw [realmOf, h, Option.getD_none]

theorem realmOf_setRealm (st : RouterStateStore) (uri u : String) (r : RealmRecord) :
    (st.setRealm uri r).realmOf u = if u = uri then r else st.realmOf u := by
  rw [realmOf, get?_setRealm]
  by_cases e : u = uri
  · rw [if_pos e, if_pos e, Option.getD_some]
  · rw [if_neg e, if_neg e, realmOf]

theorem getOrCreateRealm_get {st st' : RouterStateStore} {uri : String} {realm : RealmRecord}
    (hg : st.getOrCreateRealm uri = .ok (st', realm)) : st'.realms.get? uri = some realm := by
  rcases getOrCreateRealm_ok hg with ⟨rfl, hr⟩ | ⟨_, rfl, rfl⟩
  · exact hr
  · rw [get?_setRealm, if_pos rfl]

/-- The relation holds across what a query does to the store. -/
structure Looking (R : RouterStateStore → RouterStateStore → Prop) : Prop where
  refl : ∀ st, R st st
  trans : ∀ {s₁ s₂ s₃}, R s₁ s₂ → R s₂ s₃ → R s₁ s₃
  create : ∀ {st uri}, st.realms.get? uri = none → R st (setRealm st uri { realmUri := uri })
  bumped : ∀ {st uri r}, st.realms.get? uri = some r → R st (setRealm st uri r.bumpVersion)
  shown : ∀ {st uri r}, st.realms.get? uri = some r →
    R st (setRealm st uri { r with lastSnapshot := some r.buildSnapshot })
  changed : ∀ st uri version, R st (emit st (.stateChanged uri version))
  ids : ∀ st ids, ids.subscription = st.ids.subscription →
    ids.registration = st.ids.registration → ids.invocation = st.ids.invocation →
    R st { st with ids := ids }
  counters : ∀ st counters, R st { st with counters := counters }
  dropLease : ∀ st key, R st (dropLease st key)

namespace Looking

variable {R : RouterStateStore → RouterStateStore → Prop} (h : Looking R) (st : RouterStateStore)
include h

theorem foldl {ι : Type} {f : RouterStateStore → ι → RouterStateStore}
    (hf : ∀ st x, R st (f st x)) (l : List ι) : R st (l.foldl f st) := by
  induction l generalizing st with
  | nil => exact h.refl st
  | cons x rest ih => exact h.trans (hf st x) (ih (f st x))

theorem bumpAndNotify (uri : String) : R st (st.bumpAndNotify uri) := by
  unfold RouterStateStore.bumpAndNotify
  split
  · exact h.refl st
  · next realm hr => exact h.trans (h.bumped hr) (h.changed _ _ _)

theorem getOrCreateRealm {st st' : RouterStateStore} {uri : String} {realm : RealmRecord}
    (hg : st.getOrCreateRealm uri = .ok (st', realm)) :
    R st st' ∧ st'.realms.get? uri = some realm := by
  refine ⟨?_, getOrCreateRealm_get hg⟩
  rcases getOrCreateRealm_ok hg with ⟨rfl, _⟩ | ⟨hn, rfl, rfl⟩
  · exact h.refl _
  · exact h.create hn

theorem asked {st st' : RouterStateStore} {uri : String} (ha : Asked st uri st') : R st st' := by
  obtain rfl | ⟨realm, hg⟩ := ha
  · exact h.refl _
  · exact (h.getOrCreateRealm hg).1

theorem reap (now : Nat) : R st (st.reapExpiredRetryThrottleLeases now) :=
  h.foldl st (fun st key => h.trans (h.dropLease st key) (h.counters _ _)) _

theorem ensureCapacity (entry : ProcedureEntry) (policy : RetryDeduplication) :
    R st (st.ensureRetryDeduplicationCapacity entry policy).1 := by
  simp only [ensureRetryDeduplicationCapacity]
  split
  · exact h.counters st _
  · exact h.refl st

theorem getSnapshot (uri : String) (known : Option Nat) : R st (st.getSnapshot uri known).1 := by
  unfold RouterStateStore.getSnapshot
  split
  · exact h.refl st
  · next hg =>
    obtain ⟨hst, hr⟩ := h.getOrCreateRealm hg
    split
    · exact hst
    · exact h.trans hst (h.shown hr)

theorem matchSubscriptions (uri topic : String) (publisher : Nat) (options : Dict) :
    R st (st.matchSubscriptions uri topic publisher options).1 := by
  unfold RouterStateStore.matchSubscriptions
  dsimp only
  split
  · exact h.counters st _
  · next hg =>
    exact h.trans (h.counters st _) (h.trans (h.getOrCreateRealm hg).1 (h.ids _ _ rfl rfl rfl))

theorem invocationCaller (uri : String) (id callee : Nat) :
    R st (st.invocationCaller uri id callee).1 := by
  unfold RouterStateStore.invocationCaller
  split
  · exact h.refl st
  · next hg =>
    have hst := (h.getOrCreateRealm hg).1
    split
    · exact hst
    · split <;> exact hst

section

variable (hsend : ∀ st port payload, R st (send st port payload))
include hsend

theorem replyDispatch (port : SendPort)
    {result : RouterStateStore × Except StoreError InvocationDispatchResult}
    (hr : R st result.1) : R st (replyDispatch port result) := by
  obtain ⟨st', _ | _⟩ := result
  · exact h.trans hr (hsend st' port _)
  · exact h.trans hr (hsend st' port _)

theorem sendGuardedReply {α : Type} (port : SendPort) (wrap : α → StoreReply)
    {result : RouterStateStore × Except StoreError α} (hr : R st result.1) :
    R st (sendGuardedReply port wrap result) := by
  obtain ⟨st', _ | _⟩ := result
  · exact h.trans hr (hsend st' port _)
  · exact h.trans hr (hsend st' port _)

theorem answered {st' : RouterStateStore} (hst : R st st') (port? : Option SendPort)
    (p : StoreReply) : R st (port?.elim st' (send st' · p)) := by
  cases port? with
  | none => exact hst
  | some port => exact h.trans hst (hsend st' port p)

end

/-- **A query** does that, and then answers. -/
theorem command (env : StoreEnv) {c : RouterStateCommand}
    (hm : (StoreInput.command c).isOfMembers = false) (hc : c.concernsInvocations = false) :
    ∃ st' p, R st st' ∧ st.dispatchCommand env c = c.replyPort?.elim st' (send st' · p) := by
  have hguarded : ∀ {α : Type} (port : SendPort) (wrap : α → StoreReply)
      (result : RouterStateStore × Except StoreError α), R st result.1 →
      ∃ st' p, R st st' ∧ RouterStateStore.sendGuardedReply port wrap result = send st' port p := by
    intro α port wrap result hr
    obtain ⟨st', _ | _⟩ := result
    · exact ⟨st', _, hr, rfl⟩
    · exact ⟨st', _, hr, rfl⟩
  cases c with
  | realmEnsure uri =>
      simp only [dispatchCommand]
      split
      · next hg => exact ⟨_, .flag true, (h.getOrCreateRealm hg).1, rfl⟩
      · exact ⟨st, .flag false, h.refl st, rfl⟩
  | realmSnapshot uri known port => exact hguarded _ _ _ (h.getSnapshot st uri known)
  | sessionAllocateId port => exact ⟨_, _, h.ids st st.drawSessionId.ids rfl rfl rfl, rfl⟩
  | subscriptionMatch uri topic publisher options port =>
      exact hguarded _ _ _ (h.matchSubscriptions st uri topic publisher options)
  | invocationFindByCaller uri caller request port => exact ⟨st, _, h.refl st, rfl⟩
  | invocationGet uri id port => exact ⟨st, _, h.refl st, rfl⟩
  | invocationCaller uri id callee port =>
      exact hguarded _ _ _ (h.invocationCaller st uri id callee)
  | metricsSnapshot port => exact ⟨_, _, h.reap st env.now, rfl⟩
  | sessionOpen | sessionClose | subscriptionAdd | subscriptionRemove | procedureRegister
  | procedureUnregister => cases hm
  | _ => cases hc

end Looking

/-- The relation holds across what calls do to the store without an answer. -/
structure Resting (R : RouterStateStore → RouterStateStore → Prop) : Prop extends Looking R where
  realm : ∀ {st uri r r'}, st.realmOf uri = r → Stirs r r' → R st (setRealm st uri r')
  drawn : ∀ st, R st st.drawInvocationId
  timers : ∀ st timers, R st { st with invocationTimeouts := timers }
  release : ∀ st id, R st (releaseRetryThrottleLease st id)

namespace Resting

variable {R : RouterStateStore → RouterStateStore → Prop} (h : Resting R) (st : RouterStateStore)
include h

theorem put {uri : String} {realm r : RealmRecord} (hr : st.realms.get? uri = some realm)
    (hs : Stirs realm r) : R st (st.setRealm uri r) :=
  h.realm (realmOf_of_get hr) hs

theorem modifyInvocations (uri : String)
    (f : LinkedMap Nat PendingInvocation → LinkedMap Nat PendingInvocation) :
    R st (st.modifyRealm uri fun r => { r with invocations := f r.invocations }) := by
  unfold modifyRealm
  split
  · exact h.refl st
  · next realm hr => exact h.put st hr (.single (.invoked _))

theorem schedule (uri : String) (i : PendingInvocation) :
    R st (st.scheduleInvocationTimeout uri i) := by
  unfold scheduleInvocationTimeout
  split
  · exact h.refl st
  · split
    · exact h.refl st
    · exact h.timers st _

/-- An invocation is over. -/
theorem finish (uri : String) (id : Nat) :
    R st (((st.cancelInvocationTimeout uri id).removeInvocation uri id).releaseRetryThrottleLease
      id) := by
  refine h.trans ?_ (h.release _ id)
  refine h.trans (h.timers st (st.invocationTimeouts.erase (uri, id))) ?_
  exact h.modifyInvocations (st.cancelInvocationTimeout uri id) uri (·.erase id)

theorem removeInvocations (uri : String) (s : Nat) :
    R st (st.removeInvocationsForSession uri s) := by
  unfold removeInvocationsForSession
  split
  · exact h.refl st
  · exact h.foldl st (fun st id => h.finish st uri id) _

theorem cancelInvocation (uri : String) (id : Nat) (mode : String) (waitForAck : Bool) :
    R st (st.cancelInvocation uri id mode waitForAck).1 := by
  unfold RouterStateStore.cancelInvocation
  split
  · exact h.refl st
  · dsimp only
    have hmark := fun i => h.modifyInvocations st uri (·.insert id i)
    split
    · exact h.trans (hmark _) (h.timers _ _)
    · exact h.trans (hmark _) (h.finish _ uri id)

theorem completeInvocation (uri : String) (id : Nat) :
    R st (st.completeInvocation uri id).1 := by
  unfold RouterStateStore.completeInvocation
  dsimp only
  split
  · exact h.timers st _
  · exact h.finish st uri id

theorem touchInvocation (uri : String) (id : Nat) : R st (st.touchInvocation uri id).1 := by
  unfold RouterStateStore.touchInvocation
  split
  · exact h.refl st
  · split
    · exact h.refl st
    · exact h.schedule st uri _

/-- A dispatch chooses a callee, adds a record or writes one back, and sends nothing. -/
theorem dispatchInvocation (env : StoreEnv) (uri : String) (caller request : Nat)
    (procedure : String) (options : Dict) :
    R st (st.dispatchInvocation env uri caller request procedure options).1 := by
  refine dispatchInvocation_elim (fun st' e ha => h.asked ha) ?_ ?_ ?_
  · intro st' realm session i result hg _ _ _ _ _ _
    obtain ⟨hst, hr⟩ := h.getOrCreateRealm hg
    exact h.trans hst (h.put st' hr (.tail (.single (.invoked _)) .bumped))
  · intro st' st₁ realm session ref entry e hg _ _ hlookup _ hst₁
    obtain ⟨hst, hr⟩ := h.getOrCreateRealm hg
    have hturn : Stirs realm { realm with
        procedures := realm.procedures.modify ref fun _ => (entry.nextCallee env.draw).2 } :=
      .single (.turned (ProcedureTable.heap_of_lookup hlookup))
    rcases hst₁ with rfl | rfl
    · exact h.trans hst (h.put _ hr hturn)
    · exact h.trans (h.trans hst (h.drawn st')) (h.put st'.drawInvocationId hr hturn)
  · intro st' realm session ref entry callee timeout calleeSession hg _ _ hlookup i
    obtain ⟨hst, hr⟩ := h.getOrCreateRealm hg
    have hentry := ProcedureTable.heap_of_lookup hlookup
    refine h.trans ?_ (h.counters _ _)
    refine h.trans ?_ (h.schedule _ uri _)
    refine h.trans (h.trans hst (h.drawn st')) ?_
    exact h.put st'.drawInvocationId hr (Stir.called hentry _ _ _)

theorem expireInvocation (hannounce : ∀ st event, R st (emit st (.invocationTimeout event)))
    (uri : String) (id : Nat) : R st (st.expireInvocation uri id) := by
  simp only [RouterStateStore.expireInvocation]
  split
  · exact h.timers st _
  · split
    · exact h.timers st _
    · refine h.trans ?_ (hannounce _ _)
      exact h.trans (h.finish st uri id) (h.bumpAndNotify _ uri)

/-- **A command that is no dispatch and about no member**: such a change, and then the answer. -/
theorem command (env : StoreEnv) {c : RouterStateCommand}
    (hm : (StoreInput.command c).isOfMembers = false) (hd : c.isDispatch = false) :
    ∃ st' p, R st st' ∧ st.dispatchCommand env c = c.replyPort?.elim st' (send st' · p) := by
  cases hc : c.concernsInvocations with
  | false => exact h.toLooking.command st env hm hc
  | true =>
      cases c with
      | invocationDispatch => cases hd
      | invocationCancel uri id mode waitForAck port =>
          exact ⟨_, _, h.cancelInvocation st uri id mode waitForAck, rfl⟩
      | invocationComplete uri id port =>
          refine ⟨_, .invocation (st.completeInvocation uri id).2, h.completeInvocation st uri id, ?_⟩
          cases port <;> rfl
      | invocationTouch uri id port =>
          refine ⟨_, .flag (st.touchInvocation uri id).2, h.touchInvocation st uri id, ?_⟩
          cases port <;> rfl
      | sessionOpen | sessionClose => cases hm
      | _ => cases hc

end Resting

/-- The relation holds across what calls do to the store, answers included. -/
structure Stirred (R : RouterStateStore → RouterStateStore → Prop) : Prop where
  refl : ∀ st, R st st
  trans : ∀ {s₁ s₂ s₃}, R s₁ s₂ → R s₂ s₃ → R s₁ s₃
  realm : ∀ {st uri r r'}, st.realmOf uri = r → Stirs r r' → R st (setRealm st uri r')
  output : ∀ st o, o.isOfMembers = false → R st (emit st o)
  /-- Timers, leases, held calls, counters and the other ids are not seen. -/
  aside : ∀ {st st'}, st'.realms = st.realms → st'.outbox = st.outbox →
    st'.ids.subscription = st.ids.subscription → st'.ids.registration = st.ids.registration →
    R st st'

namespace Stirred

variable {R : RouterStateStore → RouterStateStore → Prop} (h : Stirred R) {st st' : RouterStateStore}
include h

/-- What is done without an answer, in particular. -/
theorem resting : Resting R where
  refl := h.refl
  trans := h.trans
  create hn := h.realm (realmOf_of_none hn) .refl
  bumped hr := h.realm (realmOf_of_get hr) (.single .bumped)
  shown hr := h.realm (realmOf_of_get hr) (.single .shown)
  changed st _ _ := h.output st _ rfl
  ids _ _ hs hr _ := h.aside rfl rfl hs hr
  counters _ _ := h.aside rfl rfl rfl rfl
  dropLease st key := by unfold RouterStateStore.dropLease; split <;> exact h.aside rfl rfl rfl rfl
  realm := h.realm
  drawn _ := h.aside rfl rfl rfl rfl
  timers _ _ := h.aside rfl rfl rfl rfl
  release st id := by unfold releaseRetryThrottleLease; split <;> exact h.aside rfl rfl rfl rfl

theorem send (hst : R st st') (port : SendPort) (p : StoreReply) : R st (st'.send port p) :=
  h.trans hst (h.output _ _ rfl)

theorem dropDebounce (e : StoreError) (st : RouterStateStore) (key : RetryDeduplicationKey) :
    R st (dropDebounce e st key) := by
  unfold RouterStateStore.dropDebounce
  split
  · exact h.refl st
  · refine h.send ?_ _ _
    exact h.aside rfl rfl rfl rfl

theorem cancelDebounces (st : RouterStateStore) (uri : String) (s : Nat) :
    R st (st.cancelPendingRetryDebouncesForCaller uri s) :=
  h.resting.foldl st (h.dropDebounce _) _

theorem replyDispatch {port : SendPort}
    {result : RouterStateStore × Except StoreError InvocationDispatchResult}
    (hr : R st result.1) : R st (replyDispatch port result) :=
  h.resting.replyDispatch st (fun st _ _ => h.output st _ rfl) port hr

theorem sendGuardedReply {α : Type} {port : SendPort} {wrap : α → StoreReply}
    {result : RouterStateStore × Except StoreError α} (hr : R st result.1) :
    R st (sendGuardedReply port wrap result) :=
  h.resting.sendGuardedReply st (fun st _ _ => h.output st _ rfl) port wrap hr

theorem dispatchThrottled (env : StoreEnv) (st : RouterStateStore) (uri : String)
    (caller request : Nat) (procedure : String) (options : Dict) (port : SendPort)
    (entry : ProcedureEntry) (policy : RetryDeduplication) (key : RetryDeduplicationKey) :
    R st (st.dispatchThrottled env uri caller request procedure options port entry policy key) := by
  have hcap := h.resting.ensureCapacity st entry policy
  unfold RouterStateStore.dispatchThrottled
  split
  · refine h.send ?_ port _
    exact h.aside rfl rfl rfl rfl
  · split
    · next he =>
      rw [he] at hcap
      exact h.send hcap _ _
    · next st' he =>
      rw [he] at hcap
      have hd := h.trans hcap
        (h.resting.dispatchInvocation st' env uri caller request procedure options)
      split
      · next hde =>
        rw [hde] at hd
        exact h.send hd _ _
      · next hde =>
        rw [hde] at hd
        refine h.send (h.trans hd ?_) _ _
        exact h.aside rfl rfl rfl rfl

theorem dispatchDebounced (env : StoreEnv) (st : RouterStateStore) (uri : String)
    (caller request : Nat) (procedure : String) (options : Dict) (port : SendPort)
    (entry : ProcedureEntry) (policy : RetryDeduplication) (debounce : Int)
    (key : RetryDeduplicationKey) :
    R st (st.dispatchDebounced env uri caller request procedure options port entry policy debounce
      key) := by
  have hcap := h.resting.ensureCapacity st entry policy
  unfold RouterStateStore.dispatchDebounced
  dsimp only
  split
  · exact h.trans (h.dropDebounce _ st key) (h.aside rfl rfl rfl rfl)
  · split
    · next he =>
      rw [he] at hcap
      exact h.send hcap _ _
    · next he =>
      rw [he] at hcap
      exact h.trans hcap (h.aside rfl rfl rfl rfl)

theorem handleInvocationDispatch (env : StoreEnv) (st : RouterStateStore) (uri : String)
    (caller request : Nat) (procedure : String) (options : Dict) (port : SendPort) :
    R st (st.handleInvocationDispatch env uri caller request procedure options port) := by
  refine handleInvocationDispatch_elim (fun st' ha => ?_) (fun st' e ha => ?_) ?_
  · exact h.replyDispatch (h.trans (h.resting.asked ha) (h.resting.dispatchInvocation _ env _ _ _ _ _))
  · exact h.send (h.resting.asked ha) _ _
  · intro st' realm ref entry policy hash _ _ hg _ _
    have hreap := h.trans (h.resting.getOrCreateRealm hg).1 (h.resting.reap st' env.now)
    split
    · exact h.trans hreap (h.dispatchThrottled _ _ _ _ _ _ _ _ _ _ _)
    · exact h.trans hreap (h.dispatchDebounced _ _ _ _ _ _ _ _ _ _ _ _)

theorem dispatchPendingRetryDebounce (env : StoreEnv) (st : RouterStateStore)
    (key : RetryDeduplicationKey) : R st (st.dispatchPendingRetryDebounce env key) := by
  unfold RouterStateStore.dispatchPendingRetryDebounce
  split
  · exact h.refl st
  · refine h.replyDispatch (h.trans ?_ (h.resting.dispatchInvocation _ _ _ _ _ _ _))
    split <;> exact h.aside rfl rfl rfl rfl

/-- **An input that is about no session, subscription or registration** respects the relation. -/
theorem handle (env : StoreEnv) (st : RouterStateStore) {input : StoreInput}
    (hi : input.isOfMembers = false) : R st (st.handle env input) := by
  cases input with
  | invocationTimer uri id =>
      simp only [RouterStateStore.handle]
      split
      · exact h.resting.expireInvocation st (fun st _ => h.output st _ rfl) uri id
      · exact h.refl st
  | debounceTimer key => exact h.dispatchPendingRetryDebounce env st key
  | command c =>
      cases hd : c.isDispatch with
      | false =>
          obtain ⟨st', p, hst, e⟩ := h.resting.command st env hi hd
          rw [RouterStateStore.handle, e]
          exact h.resting.answered st (fun st port p => h.output st _ rfl) hst _ p
      | true =>
          cases c with
          | invocationDispatch uri caller request procedure options port =>
              exact h.handleInvocationDispatch env st uri caller request procedure options port
          | _ => cases hd

end Stirred

/-- Calls leave the sessions alone. -/
theorem stirred_sessions (u : String) :
    Stirred fun st st' => (st'.realmOf u).sessions = (st.realmOf u).sessions where
  refl := fun _ => rfl
  trans := fun h₁ h₂ => h₂.trans h₁
  realm := by
    intro st uri r r' hr hs
    have hsame : r'.sessions = r.sessions := by
      clear hr
      induction hs with
      | refl => rfl
      | tail _ hstir ih =>
          rw [← ih]
          cases hstir <;> rfl
    rw [realmOf_setRealm]
    split
    · next e => rw [hsame, ← hr, e]
    · rfl
  output := fun _ _ _ => rfl
  aside := fun hr _ _ _ => congrArg RealmRecord.sessions (realmOf_congr (by rw [hr]))

end RouterStateStore

end Connectanum
