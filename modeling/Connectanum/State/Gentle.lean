import Connectanum.State.Calm

/-!
# State — Gentle relations

What the memberships of the sessions do to the store leaves the invocations alone.

* `Gentle`: a preorder respected by the updates that change neither an invocation nor the connection
  of a session;
* a lemma for each operation on subscriptions and registrations;
* `Gentle.dispatchCommand`: a command that is about no invocation and no session.
-/

namespace Connectanum

open Collections Machine

namespace RouterStateStore

/-- The records agree in their invocations and in the connections of their sessions. -/
structure SameCalls (r r' : RealmRecord) : Prop where
  invocations : r'.invocations = r.invocations
  connections : ∀ s, (r'.sessions.get? s).map (·.connectionId) =
    (r.sessions.get? s).map (·.connectionId)

/-- The relation holds across updates that leave the invocations and the connections alone. -/
structure Gentle (R : RouterStateStore → RouterStateStore → Prop) : Prop where
  refl : ∀ st, R st st
  trans : ∀ {s₁ s₂ s₃}, R s₁ s₂ → R s₂ s₃ → R s₁ s₃
  realm : ∀ {st uri r r'}, st.realms.get? uri = some r → SameCalls r r' → R st (setRealm st uri r')
  create : ∀ {st uri}, st.realms.get? uri = none → R st (setRealm st uri { realmUri := uri })
  output : ∀ st o, R st (emit st o)
  ids : ∀ st ids, ids.invocation = st.ids.invocation → R st { st with ids := ids }
  counters : ∀ st counters, R st { st with counters := counters }
  dropLease : ∀ st key, R st (dropLease st key)
  dropDebounce : ∀ e st key, R st (dropDebounce e st key)

namespace Gentle

variable {R : RouterStateStore → RouterStateStore → Prop} (h : Gentle R) (st : RouterStateStore)
include h

omit st in
/-- Queries do nothing else. -/
theorem looking : Looking R where
  refl := h.refl
  trans := h.trans
  create := h.create
  bumped hr := h.realm hr ⟨rfl, fun _ => rfl⟩
  shown hr := h.realm hr ⟨rfl, fun _ => rfl⟩
  changed st _ _ := h.output st _
  ids st ids _ _ hi := h.ids st ids hi
  counters := h.counters
  dropLease := h.dropLease

theorem emit {st st' : RouterStateStore} (hst : R st st') (o : StoreOutput) : R st (st'.emit o) :=
  h.trans hst (h.output _ o)

/-- A realm's record with other tables, and one of its sessions with other memberships. -/
theorem put {st : RouterStateStore} {uri : String} {realm : RealmRecord}
    (hr : st.realms.get? uri = some realm) (r : RealmRecord)
    (hi : r.invocations = realm.invocations) (hs : r.sessions = realm.sessions) (sessionId : Nat)
    {f : SessionRecord → SessionRecord} (hf : ∀ c, (f c).connectionId = c.connectionId) :
    R st (st.setRealm uri (r.modifySession sessionId f)) := by
  refine h.realm hr ⟨(RealmRecord.modifySession_invocations _ _ _).trans hi, fun s => ?_⟩
  rw [← hs]
  unfold RealmRecord.modifySession
  split
  · rfl
  · next c hc =>
    rw [SplayMap.get?_insert]
    by_cases e : s = sessionId
    · rw [if_pos e, e, hc]
      exact congrArg some (hf c)
    · rw [if_neg e]

theorem clearRetry (uri : String) (id : Nat) :
    R st (st.clearRetryDeduplicationForRegistration uri id) :=
  h.trans (h.looking.foldl st h.dropLease _) (h.looking.foldl _ (h.dropDebounce _) _)

/-! ### Memberships -/

theorem removeSubscription (uri : String) (s id : Nat) : R st (st.removeSubscription uri s id) := by
  unfold RouterStateStore.removeSubscription
  split
  · exact h.refl st
  · next realm hr =>
    split
    · exact h.refl st
    · refine h.trans ?_ (h.looking.bumpAndNotify _ uri)
      have hput := fun t => h.put hr { realm with subscriptions := t } rfl rfl s
        (f := (·.removeSubscriptionId id)) fun _ => rfl
      split <;> split
      · exact h.emit (h.emit (hput _) _) _
      · exact h.emit (hput _) _
      · exact h.emit (hput _) _
      · exact hput _

theorem unregisterProcedure (uri : String) (s id : Nat) :
    R st (st.unregisterProcedure uri s id) := by
  unfold RouterStateStore.unregisterProcedure
  split
  · exact h.refl st
  · next realm hr =>
    split
    · exact h.refl st
    · refine h.trans ?_ (h.looking.bumpAndNotify _ uri)
      have hput := fun t => h.put hr { realm with procedures := t } rfl rfl s
        (f := (·.removeRegistrationId id)) fun _ => rfl
      split <;> split
      · exact h.trans (h.emit (hput _) _) (h.clearRetry _ _ _)
      · exact h.trans (h.emit (h.emit (hput _) _) _) (h.clearRetry _ _ _)
      · exact hput _
      · exact h.emit (hput _) _

theorem addSubscription (env : StoreEnv) (uri : String) (s : Nat) (topic : String)
    (p : TopicMatchPolicy) (details : Dict) :
    R st (st.addSubscription env uri s topic p details).1 := by
  refine addSubscription_elim (fun st' e ha => h.looking.asked ha)
    (fun st' e ha => h.trans (h.looking.asked ha) (h.ids _ _ rfl)) ?_
  intro st' realm session table ref entry hg _ _ _ done
  obtain ⟨hst, hr⟩ := h.looking.getOrCreateRealm hg
  have hdrawn : R st st'.drawSubscriptionId := h.trans hst (h.ids _ _ rfl)
  have hdone : R st done := by
    refine h.trans hdrawn (h.trans ?_ (h.looking.bumpAndNotify _ uri))
    have hr' : st'.drawSubscriptionId.realms.get? uri = some realm := hr
    apply h.put hr' <;> intros <;> rfl
  refine h.emit ?_ _
  split
  · exact h.emit hdone _
  · exact hdone

theorem registerProcedure (env : StoreEnv) (uri : String) (s : Nat) (procedure : String)
    (details : Dict) : R st (st.registerProcedure env uri s procedure details).1 := by
  refine registerProcedure_elim (fun st' e ha => h.looking.asked ha)
    (fun st' realm e hg => ?_) ?_
  · obtain ⟨hst, hr⟩ := h.looking.getOrCreateRealm hg
    have hdrawn : R st st'.drawRegistrationId := h.trans hst (h.ids _ _ rfl)
    exact h.trans hdrawn (h.realm hr ⟨rfl, fun _ => rfl⟩)
  · intro st' realm session policy matchPolicy retry table ref entry hg _ _ _ _ _ done
    obtain ⟨hst, hr⟩ := h.looking.getOrCreateRealm hg
    have hdrawn : R st st'.drawRegistrationId := h.trans hst (h.ids _ _ rfl)
    have htable : R st (st'.drawRegistrationId.setRealm uri { realm with procedures := table }) :=
      h.trans hdrawn (h.realm hr ⟨rfl, fun _ => rfl⟩)
    have hset := (get?_setRealm st'.drawRegistrationId uri uri
      { realm with procedures := table }).trans (if_pos rfl)
    have hdone : R st done := by
      refine h.trans htable (h.trans ?_ (h.looking.bumpAndNotify _ uri))
      apply h.put hset <;> intros <;> rfl
    refine h.emit ?_ _
    split
    · exact h.emit hdone _
    · exact hdone

/-! ### Answers -/

theorem replyDispatch {st : RouterStateStore} {port : SendPort}
    {result : RouterStateStore × Except StoreError InvocationDispatchResult}
    (hr : R st result.1) : R st (replyDispatch port result) :=
  h.looking.replyDispatch st (fun st _ _ => h.output st _) port hr

/-- **A command that is about no invocation and no session.** -/
theorem dispatchCommand (env : StoreEnv) {c : RouterStateCommand}
    (hc : c.concernsInvocations = false) : R st (st.dispatchCommand env c) := by
  have hsend : ∀ st port payload, R st (send st port payload) := fun st _ _ => h.output st _
  cases hm : (StoreInput.command c).isOfMembers with
  | false =>
      obtain ⟨st', p, hst, e⟩ := h.looking.command st env hm hc
      rw [e]
      exact h.looking.answered st hsend hst _ p
  | true =>
      cases c with
      | subscriptionAdd uri s topic p details port =>
          exact h.looking.sendGuardedReply st hsend port _
            (h.addSubscription st env uri s topic p details)
      | subscriptionRemove uri s i => exact h.removeSubscription st uri s i
      | procedureRegister uri s procedure details port =>
          have hreg := h.registerProcedure st env uri s procedure details
          simp only [RouterStateStore.dispatchCommand]
          split
          · next he =>
            rw [he] at hreg
            exact h.emit hreg _
          · next he =>
            rw [he] at hreg
            exact h.emit hreg _
      | procedureUnregister uri s i => exact h.unregisterProcedure st uri s i
      | sessionOpen | sessionClose => cases hc
      | _ => cases hm

end Gentle

end RouterStateStore

end Connectanum
