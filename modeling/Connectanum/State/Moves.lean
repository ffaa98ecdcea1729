import Connectanum.State.Effects

/-!
# State — Moves

What one input of the store does to the record of one realm, and which meta events about members
it sends for that realm.

* `RealmMove`: the elementary changes of a realm's record, each with its events;
* `Moves`: a sequence of them;
* `moved_handle`: every input is such a sequence in every realm.  A realm that is not there yet
  counts as the empty record that `getOrCreateRealm` will put there.
-/

namespace Connectanum

open Collections Machine

/-- The output tells of a subscription or a registration of the realm. -/
def StoreOutput.ofMembers (u : String) : StoreOutput → Bool
  | .subscriptionMeta event => event.realmUri == u
  | .registrationMeta event => event.realmUri == u
  | _ => false

/-- The input takes memberships away. -/
def StoreInput.isLeave : StoreInput → Bool
  | .command (.sessionClose _ _) => true
  | .command (.subscriptionRemove _ _ _) => true
  | .command (.procedureUnregister _ _ _) => true
  | _ => false

namespace RouterStateStore

/-- The meta events about members of the realm, in the order in which they were sent. -/
def memberEvents (st : RouterStateStore) (u : String) : List StoreOutput :=
  st.outbox.filter (StoreOutput.ofMembers u)

/-- The events of a subscription. -/
def subscribeEvents (u : String) (entry : SubscriptionEntry) (s : Nat) : List StoreOutput :=
  (if entry.subscribers.isEmpty then [subscriptionMetaEvent u .created entry s] else []) ++
    [subscriptionMetaEvent u .subscribed entry s]

/-- The events of an unsubscription. -/
def unsubscribeEvents (u : String) (entry : SubscriptionEntry) (s : Nat) : List StoreOutput :=
  (if (entry.subscribers.get? s).isSome then [subscriptionMetaEvent u .unsubscribed entry s]
    else []) ++
    (if (entry.removeSubscriber s).subscribers.isEmpty then
      [subscriptionMetaEvent u .deleted entry s] else [])

/-- The events of a registration. -/
def registerEvents (u : String) (entry : ProcedureEntry) (details : Dict) (s : Nat) :
    List StoreOutput :=
  (if entry.callees.isEmpty then [registrationMetaEvent u .created entry details s] else []) ++
    [registrationMetaEvent u .registered entry details s]

/-- The events of an unregistration. -/
def unregisterEvents (u : String) (entry : ProcedureEntry) (s id : Nat) : List StoreOutput :=
  (match entry.callees.get? id with
    | none => []
    | some callee => [registrationMetaEvent u .unregistered entry callee.details s]) ++
    (if (entry.removeCallee id).callees.isEmpty then
      [registrationMetaEvent u .deleted entry
        (((entry.callees.get? id).map (·.details)).getD .empty) s]
    else [])

/-- The input takes the registration `id` from the session `s`. -/
def GivesUp (st : RouterStateStore) (input : StoreInput) (u : String) (s id : Nat) : Prop :=
  input = .command (.procedureUnregister u s id) ∨
    ∃ session, input = .command (.sessionClose u s) ∧
      (st.realmOf u).sessions.get? s = some session ∧ id ∈ session.registrationIds.keys

/-- One change of the record of the realm `u` under an input, with the events that it sends. -/
inductive RealmMove (st : RouterStateStore) (input : StoreInput) (u : String) :
    RealmRecord → List StoreOutput → RealmRecord → Prop where
  | joined {r : RealmRecord} {session : SessionRecord}
      (isOpen : input = .command (.sessionOpen u session)) :
      RealmMove st input u r []
        (RealmRecord.bumpVersion
          { r with sessions := r.sessions.insert session.id session.opened })
  | departed {r : RealmRecord} {s : Nat} (isClose : input = .command (.sessionClose u s)) :
      RealmMove st input u r []
        (RealmRecord.bumpVersion { r with sessions := r.sessions.erase s })
  /-- A snapshot was taken and kept. -/
  | shown {r : RealmRecord} :
      RealmMove st input u r [] { r with lastSnapshot := some r.buildSnapshot }
  | subscribed {r : RealmRecord} {s : Nat} {session : SessionRecord} {topic : String}
      {p : TopicMatchPolicy} {details : Dict} {port : SendPort} {now : Nat}
      {table : SubscriptionTable} {ref : Ref} {entry : SubscriptionEntry}
      (isAdd : input = .command (.subscriptionAdd u s topic p details port))
      (here : r = st.realmOf u)
      (present : r.sessions.get? s = some session)
      (found : r.subscriptions.findOrCreateSubscription topic p st.ids.subscription.nextId now =
        (table, ref))
      (at_ref : table.heap.get? ref = some entry) :
      RealmMove st input u r (subscribeEvents u entry s)
        (RealmRecord.modifySession
          { r with
            subscriptions := table.addSubscriber ref
              { sessionId := s, authRole := session.authRole, details := details } }
          s (·.addSubscriptionId entry.id)).bumpVersion
  | unsubscribed {r : RealmRecord} {s id : Nat} {ref : Ref} {entry : SubscriptionEntry}
      (isLeave : input.isLeave = true)
      (found : r.subscriptions.findSubscriptionById id = some (ref, entry)) :
      RealmMove st input u r (unsubscribeEvents u entry s) (r.removeSubscription s id)
  | registered {r : RealmRecord} {s : Nat} {session : SessionRecord} {procedure : String}
      {details : Dict} {port : SendPort} {policy : InvocationPolicy}
      {matchPolicy : ProcedureMatchPolicy} {retryDeduplication : Option RetryDeduplication}
      {now : Nat} {table : ProcedureTable} {ref : Ref} {entry : ProcedureEntry}
      (isRegister : input = .command (.procedureRegister u s procedure details port))
      (here : r = st.realmOf u)
      (present : r.sessions.get? s = some session)
      (settings : registrationSettings details = .ok (policy, matchPolicy, retryDeduplication))
      (found : r.procedures.findOrCreateProcedure procedure st.ids.registration.nextId policy
        matchPolicy now = (table, ref))
      (at_ref : table.heap.get? ref = some entry)
      (shared : checkSharedRegistration entry procedure policy matchPolicy retryDeduplication
        details = .ok ()) :
      RealmMove st input u r (registerEvents u entry details s)
        (RealmRecord.modifySession
          { r with
            procedures := table.addRegistration ref
              { registrationId := st.ids.registration.nextId, procedure := procedure,
                sessionId := s, authRole := session.authRole, details := details,
                matchPolicy := matchPolicy } }
          s (·.addRegistrationId st.ids.registration.nextId)).bumpVersion
  | unregistered {r : RealmRecord} {s id : Nat} {ref : Ref} {entry : ProcedureEntry}
      (gives : GivesUp st input u s id)
      (found : r.procedures.findProcedureByRegistrationId id = some (ref, entry)) :
      RealmMove st input u r (unregisterEvents u entry s id) (r.unregisterProcedure s id)
  /-- The pending invocations changed. -/
  | invoked {r : RealmRecord} (invocations : LinkedMap Nat PendingInvocation) :
      RealmMove st input u r [] { r with invocations := invocations }
  /-- A callee was chosen. -/
  | turned {r : RealmRecord} {ref : Ref} {entry : ProcedureEntry} {draw : Nat}
      (at_ref : r.procedures.heap.get? ref = some entry) :
      RealmMove st input u r []
        { r with procedures := r.procedures.modify ref fun _ => (entry.nextCallee draw).2 }
  /-- A callee was called. -/
  | touched {r : RealmRecord} {ref : Ref} {id now : Nat} :
      RealmMove st input u r []
        (RealmRecord.bumpVersion
          { r with procedures := r.procedures.modify ref (·.touchCallee id now) })
  | bumped {r : RealmRecord} : RealmMove st input u r [] r.bumpVersion

/-- Changes of a realm's record, one after the other. -/
inductive Moves (st : RouterStateStore) (input : StoreInput) (u : String) :
    RealmRecord → List StoreOutput → RealmRecord → Prop where
  | nil (r : RealmRecord) : Moves st input u r [] r
  | cons {r r' r'' : RealmRecord} {events events' : List StoreOutput}
      (move : RealmMove st input u r events r') (rest : Moves st input u r' events' r'') :
      Moves st input u r (events ++ events') r''

namespace Moves

variable {st : RouterStateStore} {input : StoreInput} {u : String} {r r' r'' : RealmRecord}
  {events events' : List StoreOutput}

theorem append (h : Moves st input u r events r') (h' : Moves st input u r' events' r'') :
    Moves st input u r (events ++ events') r'' := by
  induction h with
  | nil => exact h'
  | cons move _ ih =>
      rw [List.append_assoc]
      exact .cons move (ih h')

theorem one (h : RealmMove st input u r events r') : Moves st input u r events r' := by
  have hcons := Moves.cons h (.nil r')
  rwa [List.append_nil] at hcons

/-- A relation that every change keeps to, sequences keep to. -/
theorem induct {P : RealmRecord → RealmRecord → Prop} (hrefl : ∀ r, P r r)
    (htrans : ∀ r r' r'', P r r' → P r' r'' → P r r'')
    (hmove : ∀ r events r', RealmMove st input u r events r' → P r r')
    (h : Moves st input u r events r') : P r r' := by
  induction h with
  | nil r => exact hrefl r
  | cons move _ ih => exact htrans _ _ _ (hmove _ _ _ move) ih

end Moves

/-- The session `s` gives up subscriptions and registrations, one after the other; the registrations
are among `regs`. -/
inductive Leaves (u : String) (s : Nat) (regs : List Nat) :
    RealmRecord → List StoreOutput → RealmRecord → Prop where
  | nil (r : RealmRecord) : Leaves u s regs r [] r
  | unsubscribed {r r' : RealmRecord} {id : Nat} {ref : Ref} {entry : SubscriptionEntry}
      {events : List StoreOutput}
      (found : r.subscriptions.findSubscriptionById id = some (ref, entry))
      (rest : Leaves u s regs (r.removeSubscription s id) events r') :
      Leaves u s regs r (unsubscribeEvents u entry s ++ events) r'
  | unregistered {r r' : RealmRecord} {id : Nat} {ref : Ref} {entry : ProcedureEntry}
      {events : List StoreOutput} (mem : id ∈ regs)
      (found : r.procedures.findProcedureByRegistrationId id = some (ref, entry))
      (rest : Leaves u s regs (r.unregisterProcedure s id) events r') :
      Leaves u s regs r (unregisterEvents u entry s id ++ events) r'

namespace Leaves

variable {u : String} {s : Nat} {regs : List Nat} {r r' r'' : RealmRecord}
  {events events' : List StoreOutput}

theorem append (h : Leaves u s regs r events r') (h' : Leaves u s regs r' events' r'') :
    Leaves u s regs r (events ++ events') r'' := by
  induction h with
  | nil => exact h'
  | unsubscribed found _ ih =>
      rw [List.append_assoc]
      exact .unsubscribed found (ih h')
  | unregistered mem found _ ih =>
      rw [List.append_assoc]
      exact .unregistered mem found (ih h')

theorem moves {st : RouterStateStore} {input : StoreInput} (hi : input.isLeave = true)
    (hregs : ∀ id ∈ regs, GivesUp st input u s id) (h : Leaves u s regs r events r') :
    Moves st input u r events r' := by
  induction h with
  | nil r => exact .nil r
  | unsubscribed found _ ih => exact .cons (.unsubscribed hi found) ih
  | unregistered mem found _ ih => exact .cons (.unregistered (hregs _ mem) found) ih

theorem modifySession_bump (r : RealmRecord) (s : Nat) (f : SessionRecord → SessionRecord) :
    r.bumpVersion.modifySession s f = (r.modifySession s f).bumpVersion := by
  unfold RealmRecord.modifySession
  rw [show r.bumpVersion.sessions = r.sessions from rfl]
  split <;> rfl

theorem removeSubscription_bump (r : RealmRecord) (s id : Nat) :
    r.bumpVersion.removeSubscription s id = (r.removeSubscription s id).bumpVersion := by
  unfold RealmRecord.removeSubscription
  rw [show r.bumpVersion.subscriptions = r.subscriptions from rfl]
  split
  · rfl
  · next ref e _ =>
    exact congrArg RealmRecord.bumpVersion (modifySession_bump
      { r with subscriptions := r.subscriptions.unsubscribe ref e s } s (·.removeSubscriptionId id))

theorem unregisterProcedure_bump (r : RealmRecord) (s id : Nat) :
    r.bumpVersion.unregisterProcedure s id = (r.unregisterProcedure s id).bumpVersion := by
  unfold RealmRecord.unregisterProcedure
  rw [show r.bumpVersion.procedures = r.procedures from rfl]
  split
  · rfl
  · next ref e _ =>
    exact congrArg RealmRecord.bumpVersion (modifySession_bump
      { r with procedures := r.procedures.unregister ref e id } s (·.removeRegistrationId id))

/-- It does not matter whether the version is raised before or after. -/
theorem bump (h : Leaves u s regs r events r') :
    Leaves u s regs r.bumpVersion events r'.bumpVersion := by
  induction h with
  | nil r => exact .nil _
  | unsubscribed found _ ih =>
      rw [← removeSubscription_bump] at ih
      exact .unsubscribed found ih
  | unregistered mem found _ ih =>
      rw [← unregisterProcedure_bump] at ih
      exact .unregistered mem found ih

end Leaves

/-- From `s₁` to `s₂` the session `s` gives up some of its memberships of the realm `uri`. -/
def LeftBy (uri : String) (s : Nat) (regs : List Nat) (s₁ s₂ : RouterStateStore) : Prop :=
  (∃ events, Leaves uri s regs (s₁.realmOf uri) events (s₂.realmOf uri) ∧
    s₂.memberEvents uri = s₁.memberEvents uri ++ events) ∧
  ∀ u, u ≠ uri → s₂.realmOf u = s₁.realmOf u ∧ s₂.memberEvents u = s₁.memberEvents u

/-- From `s₁` to `s₂` the realm `u` moves as the input `input` of `st` may move it. -/
def Moved (st : RouterStateStore) (input : StoreInput) (u : String) (s₁ s₂ : RouterStateStore) :
    Prop :=
  ∃ events, Moves st input u (s₁.realmOf u) events (s₂.realmOf u) ∧
    s₂.memberEvents u = s₁.memberEvents u ++ events

/-! ### What the updates of the store are to one realm -/

section

variable (st : RouterStateStore)

/-- The realm and the events about it, which most tables of the store do not show in. -/
def view (u : String) (st : RouterStateStore) : RealmRecord × List StoreOutput :=
  (st.realmOf u, st.memberEvents u)

theorem memberEvents_emit (u : String) (o : StoreOutput) :
    (st.emit o).memberEvents u =
      st.memberEvents u ++ if o.ofMembers u then [o] else [] := by
  simp only [memberEvents, emit, List.filter_append, List.filter_cons, List.filter_nil]

theorem view_emit {u : String} {o : StoreOutput} (h : o.ofMembers u = false) :
    view u (st.emit o) = view u st := by
  rw [view, memberEvents_emit, h]
  simp only [Bool.false_eq_true, if_false, List.append_nil]
  rfl

theorem view_send (u : String) (port : SendPort) (p : StoreReply) :
    view u (st.send port p) = view u st := view_emit st rfl

theorem view_getOrCreateRealm {st st' : RouterStateStore} {uri : String} {realm : RealmRecord}
    (h : st.getOrCreateRealm uri = .ok (st', realm)) (u : String) :
    view u st' = view u st ∧ st'.realmOf uri = realm := by
  rcases getOrCreateRealm_ok h with ⟨rfl, hr⟩ | ⟨hn, rfl, rfl⟩
  · exact ⟨rfl, realmOf_of_get hr⟩
  · refine ⟨?_, by rw [realmOf_setRealm, if_pos rfl]⟩
    rw [view, realmOf_setRealm]
    by_cases e : u = uri
    · rw [if_pos e, view, realmOf, e, hn]
      rfl
    · rw [if_neg e]
      rfl

theorem realmOf_getOrCreateRealm {st st' : RouterStateStore} {uri : String} {realm : RealmRecord}
    (h : st.getOrCreateRealm uri = .ok (st', realm)) : realm = st.realmOf uri := by
  obtain ⟨hview, hrealm⟩ := view_getOrCreateRealm h uri
  exact hrealm.symm.trans (Prod.mk.inj hview).1

theorem view_dropLease (u : String) (key : RetryDeduplicationKey) :
    view u (st.dropLease key) = view u st := by
  unfold dropLease
  split <;> rfl

theorem view_dropDebounce (u : String) (e : StoreError) (key : RetryDeduplicationKey) :
    view u (dropDebounce e st key) = view u st := by
  unfold dropDebounce
  split
  · rfl
  · exact view_send _ u _ _

theorem view_clearRetry (u uri : String) (id : Nat) :
    view u (st.clearRetryDeduplicationForRegistration uri id) = view u st :=
  clearRetry_frame st (view u) (fun st key => view_dropLease st u key)
    (fun e st key => view_dropDebounce st u e key) uri id

theorem view_cancelDebounces (u uri : String) (s : Nat) :
    view u (st.cancelPendingRetryDebouncesForCaller uri s) = view u st :=
  cancelDebounces_frame st (view u) (fun e st key => view_dropDebounce st u e key) uri s

theorem view_release (u : String) (id : Nat) :
    view u (st.releaseRetryThrottleLease id) = view u st := by
  unfold releaseRetryThrottleLease
  split <;> rfl

theorem memberEvents_setRealm (u uri : String) (r : RealmRecord) :
    (st.setRealm uri r).memberEvents u = st.memberEvents u := rfl

theorem memberEvents_drawSubscriptionId (u : String) :
    st.drawSubscriptionId.memberEvents u = st.memberEvents u := rfl

theorem memberEvents_drawRegistrationId (u : String) :
    st.drawRegistrationId.memberEvents u = st.memberEvents u := rfl

theorem memberEvents_bumpAndNotify (u uri : String) :
    (st.bumpAndNotify uri).memberEvents u = st.memberEvents u := by
  unfold bumpAndNotify
  split
  · rfl
  · rw [memberEvents_emit, memberEvents_setRealm]
    exact List.append_nil _

theorem memberEvents_clearRetry (u uri : String) (id : Nat) :
    (st.clearRetryDeduplicationForRegistration uri id).memberEvents u = st.memberEvents u :=
  (Prod.mk.inj (view_clearRetry st u uri id)).2

/-- The events of another realm. -/
theorem ofMembers_subscriptionMetaEvent (u uri : String) (t : SubscriptionMetaEventType)
    (e : SubscriptionEntry) (s : Nat) :
    (subscriptionMetaEvent uri t e s).ofMembers u = decide (u = uri) := by
  rw [Bool.eq_iff_iff]
  simp only [subscriptionMetaEvent, StoreOutput.ofMembers, beq_iff_eq, decide_eq_true_eq]
  exact eq_comm

theorem ofMembers_registrationMetaEvent (u uri : String) (t : RegistrationMetaEventType)
    (e : ProcedureEntry) (details : Dict) (s : Nat) :
    (registrationMetaEvent uri t e details s).ofMembers u = decide (u = uri) := by
  rw [Bool.eq_iff_iff]
  simp only [registrationMetaEvent, StoreOutput.ofMembers, beq_iff_eq, decide_eq_true_eq]
  exact eq_comm

theorem memberEvents_removeSubscription (u : String) {uri : String} {realm : RealmRecord}
    (s : Nat) {id : Nat} {ref : Ref} {entry : SubscriptionEntry}
    (hr : st.realms.get? uri = some realm)
    (hf : realm.subscriptions.findSubscriptionById id = some (ref, entry)) :
    (st.removeSubscription uri s id).memberEvents u =
      st.memberEvents u ++ if u = uri then unsubscribeEvents uri entry s else [] := by
  simp only [removeSubscription, hr, hf, memberEvents_bumpAndNotify, unsubscribeEvents]
  by_cases e : u = uri
  all_goals
    split <;> split <;> simp [memberEvents_emit, memberEvents_setRealm,
      ofMembers_subscriptionMetaEvent, e]

theorem memberEvents_unregisterProcedure (u : String) {uri : String} {realm : RealmRecord}
    (s : Nat) {id : Nat} {ref : Ref} {entry : ProcedureEntry}
    (hr : st.realms.get? uri = some realm)
    (hf : realm.procedures.findProcedureByRegistrationId id = some (ref, entry)) :
    (st.unregisterProcedure uri s id).memberEvents u =
      st.memberEvents u ++ if u = uri then unregisterEvents uri entry s id else [] := by
  simp only [unregisterProcedure, hr, hf, memberEvents_bumpAndNotify, unregisterEvents]
  cases entry.callees.get? id <;> by_cases e : u = uri
  all_goals
    split <;> simp [memberEvents_emit, memberEvents_setRealm, memberEvents_clearRetry,
      ofMembers_registrationMetaEvent, e]

end

namespace LeftBy

variable {s₁ s₂ s₃ : RouterStateStore} {uri : String} {s : Nat} {regs : List Nat}

theorem refl (st : RouterStateStore) : LeftBy uri s regs st st :=
  ⟨⟨[], .nil _, (List.append_nil _).symm⟩, fun _ _ => ⟨rfl, rfl⟩⟩

theorem trans (h : LeftBy uri s regs s₁ s₂) (h' : LeftBy uri s regs s₂ s₃) :
    LeftBy uri s regs s₁ s₃ := by
  obtain ⟨⟨events, hm, he⟩, ho⟩ := h
  obtain ⟨⟨events', hm', he'⟩, ho'⟩ := h'
  refine ⟨⟨events ++ events', hm.append hm', by rw [he', he, List.append_assoc]⟩, fun u hu => ?_⟩
  exact ⟨(ho' u hu).1.trans (ho u hu).1, (ho' u hu).2.trans (ho u hu).2⟩

theorem foldl {ι : Type} {f : RouterStateStore → ι → RouterStateStore}
    (l : List ι) (hf : ∀ st x, x ∈ l → LeftBy uri s regs st (f st x)) (st : RouterStateStore) :
    LeftBy uri s regs st (l.foldl f st) := by
  induction l generalizing st with
  | nil => exact refl st
  | cons x rest ih =>
      refine (hf st x List.mem_cons_self).trans (ih (fun st y hy => ?_) (f st x))
      exact hf st y (List.mem_cons_of_mem _ hy)

theorem removeSubscription (uri : String) (s : Nat) (st : RouterStateStore) (id : Nat) :
    LeftBy uri s regs st (st.removeSubscription uri s id) := by
  cases hr : st.realms.get? uri with
  | none =>
      simp only [RouterStateStore.removeSubscription, hr]
      exact refl st
  | some realm =>
      cases hf : realm.subscriptions.findSubscriptionById id with
      | none =>
          simp only [RouterStateStore.removeSubscription, hr, hf]
          exact refl st
      | some found =>
          obtain ⟨ref, entry⟩ := found
          have hrealm : ∀ u, (st.removeSubscription uri s id).realmOf u =
              if u = uri then realm.removeSubscription s id else st.realmOf u := by
            intro u
            rw [realmOf, get?_removeSubscription, hr]
            by_cases e : u = uri
            · simp [e]
            · simp [e, realmOf]
          have hevents := fun u => memberEvents_removeSubscription st u s hr hf
          refine ⟨⟨unsubscribeEvents uri entry s, ?_, ?_⟩, fun u hu => ?_⟩
          · rw [hrealm, if_pos rfl, realmOf_of_get hr]
            have hleave : Leaves uri s regs realm (unsubscribeEvents uri entry s ++ [])
                (realm.removeSubscription s id) := .unsubscribed hf (.nil _)
            rwa [List.append_nil] at hleave
          · rw [hevents, if_pos rfl]
          · rw [hrealm, hevents, if_neg hu, if_neg hu, List.append_nil]
            exact ⟨rfl, rfl⟩

theorem unregisterProcedure (uri : String) (s : Nat) (st : RouterStateStore) {id : Nat}
    (hid : id ∈ regs) : LeftBy uri s regs st (st.unregisterProcedure uri s id) := by
  cases hr : st.realms.get? uri with
  | none =>
      simp only [RouterStateStore.unregisterProcedure, hr]
      exact refl st
  | some realm =>
      cases hf : realm.procedures.findProcedureByRegistrationId id with
      | none =>
          simp only [RouterStateStore.unregisterProcedure, hr, hf]
          exact refl st
      | some found =>
          obtain ⟨ref, entry⟩ := found
          have hrealm : ∀ u, (st.unregisterProcedure uri s id).realmOf u =
              if u = uri then realm.unregisterProcedure s id else st.realmOf u := by
            intro u
            rw [realmOf, get?_unregisterProcedure, hr]
            by_cases e : u = uri
            · simp [e]
            · simp [e, realmOf]
          have hevents := fun u => memberEvents_unregisterProcedure st u s hr hf
          refine ⟨⟨unregisterEvents uri entry s id, ?_, ?_⟩, fun u hu => ?_⟩
          · rw [hrealm, if_pos rfl, realmOf_of_get hr]
            have hleave := Leaves.unregistered (u := uri) hid hf
              (.nil (realm.unregisterProcedure s id))
            rwa [List.append_nil] at hleave
          · rw [hevents, if_pos rfl]
          · rw [hrealm, hevents, if_neg hu, if_neg hu, List.append_nil]
            exact ⟨rfl, rfl⟩

theorem moved {st : RouterStateStore} {input : StoreInput} (hi : input.isLeave = true)
    (hregs : ∀ id ∈ regs, GivesUp st input uri s id) (h : LeftBy uri s regs s₁ s₂) (u : String) :
    Moved st input u s₁ s₂ := by
  obtain ⟨⟨events, hm, he⟩, ho⟩ := h
  by_cases e : u = uri
  · subst e
    exact ⟨events, hm.moves hi hregs, he⟩
  · refine ⟨[], ?_, by rw [(ho u e).2, List.append_nil]⟩
    rw [(ho u e).1]
    exact .nil _

end LeftBy

namespace Moved

variable {st s₁ s₂ s₃ : RouterStateStore} {input : StoreInput} {u uri : String}

theorem of_view (h : view u s₂ = view u s₁) : Moved st input u s₁ s₂ := by
  obtain ⟨hr, he⟩ := Prod.mk.inj h
  refine ⟨[], ?_, by rw [he, List.append_nil]⟩
  rw [hr]
  exact .nil _

theorem of_asked (h : Asked s₁ uri s₂) : Moved st input u s₁ s₂ := by
  obtain rfl | ⟨realm, hg⟩ := h
  · exact of_view rfl
  · exact of_view (view_getOrCreateRealm hg u).1

theorem refl (s : RouterStateStore) : Moved st input u s s := of_view rfl

theorem trans (h : Moved st input u s₁ s₂) (h' : Moved st input u s₂ s₃) :
    Moved st input u s₁ s₃ := by
  obtain ⟨events, hm, he⟩ := h
  obtain ⟨events', hm', he'⟩ := h'
  exact ⟨events ++ events', hm.append hm', by rw [he', he, List.append_assoc]⟩

theorem emit (h : Moved st input u s₁ s₂) {o : StoreOutput} (ho : o.ofMembers u = false) :
    Moved st input u s₁ (s₂.emit o) := h.trans (of_view (view_emit s₂ ho))

theorem send (h : Moved st input u s₁ s₂) (port : SendPort) (p : StoreReply) :
    Moved st input u s₁ (s₂.send port p) := h.trans (of_view (view_send s₂ u port p))

/-- The realm's record was replaced, and its events sent. -/
theorem of_moves {r r' : RealmRecord} {events : List StoreOutput} (hr : s₁.realmOf uri = r)
    (hm : Moves st input uri r events r')
    (h₂ : ∀ u, s₂.realmOf u = if u = uri then r' else s₁.realmOf u)
    (he : s₂.memberEvents u = s₁.memberEvents u ++ if u = uri then events else []) :
    Moved st input u s₁ s₂ := by
  by_cases e : u = uri
  · subst e
    refine ⟨events, ?_, by rw [he, if_pos rfl]⟩
    rw [h₂, if_pos rfl, hr]
    exact hm
  · refine ⟨[], ?_, by rw [he, if_neg e]⟩
    rw [h₂, if_neg e]
    exact .nil _

/-- The realm's record was replaced, without events about members. -/
theorem setRealm {r r' : RealmRecord} (hr : s₁.realmOf uri = r)
    (hm : Moves st input uri r [] r') : Moved st input u s₁ (s₁.setRealm uri r') := by
  refine of_moves hr hm (fun u => realmOf_setRealm s₁ uri u r') ?_
  rw [ite_self, List.append_nil]
  rfl

/-- Calls make moves without events about members. -/
theorem moves_of_stirs {r r' : RealmRecord} (hs : Stirs r r') : Moves st input u r [] r' := by
  induction hs with
  | refl => exact .nil r
  | tail _ hstir ih =>
      refine ih.append (.one ?_)
      cases hstir with
      | invoked m => exact .invoked m
      | turned at_ref => exact .turned at_ref
      | touched => exact .touched
      | bumped => exact .bumped
      | shown => exact .shown

theorem stirred : Stirred (Moved st input u) where
  refl := refl
  trans := trans
  realm := fun hr hs => setRealm hr (moves_of_stirs hs)
  output := fun s o ho => emit (refl s) (by cases o <;> first | rfl | cases ho)
  aside := fun hr ho _ _ => of_view (by rw [view, realmOf, hr, memberEvents, ho]; rfl)

theorem openSession (s : RouterStateStore) (session : SessionRecord) :
    Moved st (.command (.sessionOpen uri session)) u s (s.openSession uri session).1 := by
  unfold RouterStateStore.openSession
  split
  · exact refl s
  · next s' realm hg =>
    obtain ⟨hview, hrealm⟩ := view_getOrCreateRealm hg u
    refine (of_view hview).trans (emit ?_ rfl)
    refine of_moves hrealm (.one (.joined rfl)) (fun u => ?_) ?_
    · rw [realmOf, get?_bumpAndNotify, get?_setRealm, if_pos rfl]
      by_cases e : u = uri
      · simp [e]
      · simp [e, realmOf, get?_setRealm]
    · rw [memberEvents_bumpAndNotify, memberEvents_setRealm]
      simp

theorem addSubscription (env : StoreEnv) (s : RouterStateStore) (session : Nat) (topic : String)
    (p : TopicMatchPolicy) (details : Dict) (port : SendPort) :
    Moved s (.command (.subscriptionAdd uri session topic p details port)) u s
      (s.addSubscription env uri session topic p details).1 := by
  refine addSubscription_elim (fun s' e ha => of_asked ha)
    (fun s' e ha => (of_asked ha).trans (of_view rfl)) ?_
  intro s' realm record table ref entry hg hs hf he done
  obtain ⟨hview, hrealm⟩ := view_getOrCreateRealm hg u
  rw [getOrCreateRealm_ids hg] at hf
  refine (of_view hview).trans ?_
  refine of_moves hrealm (.one (.subscribed rfl (realmOf_getOrCreateRealm hg) hs hf he))
    (fun u => ?_) ?_
  · rw [realmOf, emit_realms]
    split <;> by_cases e : u = uri
    all_goals
      simp [done, e, realmOf, get?_bumpAndNotify, get?_setRealm, drawSubscriptionId]
  · rw [subscribeEvents, memberEvents_emit, ofMembers_subscriptionMetaEvent]
    split <;> by_cases e : u = uri
    all_goals
      simp [done, memberEvents_emit, memberEvents_setRealm, memberEvents_bumpAndNotify,
        ofMembers_subscriptionMetaEvent, memberEvents_drawSubscriptionId, e]

theorem registerProcedure (env : StoreEnv) (s : RouterStateStore) (session : Nat)
    (procedure : String) (details : Dict) (port : SendPort) :
    Moved s (.command (.procedureRegister uri session procedure details port)) u s
      (s.registerProcedure env uri session procedure details).1 := by
  refine registerProcedure_elim (fun s' e ha => of_asked ha)
    (fun s' realm e hg => ?_) ?_
  · obtain ⟨hview, hrealm⟩ := view_getOrCreateRealm hg u
    have hdrawn : Moved s (.command (.procedureRegister uri session procedure details port)) u s
        s'.drawRegistrationId := (of_view hview).trans (of_view rfl)
    exact hdrawn.trans (setRealm hrealm (.nil realm))
  · intro s' realm record policy matchPolicy retry table ref entry hg hs hset hf he hc done
    obtain ⟨hview, hrealm⟩ := view_getOrCreateRealm hg u
    have hids := getOrCreateRealm_ids hg
    rw [hids] at hf
    refine (of_view hview).trans ?_
    refine of_moves hrealm (.one (.registered rfl (realmOf_getOrCreateRealm hg) hs hset hf he hc))
      (fun u => ?_) ?_
    · rw [realmOf, emit_realms]
      split <;> by_cases e : u = uri
      all_goals
        simp [done, e, realmOf, get?_bumpAndNotify, get?_setRealm, drawRegistrationId, hids]
    · rw [registerEvents, memberEvents_emit, ofMembers_registrationMetaEvent]
      split <;> by_cases e : u = uri
      all_goals
        simp [done, memberEvents_emit, memberEvents_setRealm, memberEvents_bumpAndNotify,
          ofMembers_registrationMetaEvent, memberEvents_drawRegistrationId, e]

/-- A close: the session's record goes, and then its memberships one by one. -/
theorem closeSession (s : RouterStateStore) (session : Nat) :
    Moved s (.command (.sessionClose uri session)) u s (s.closeSession uri session) := by
  unfold RouterStateStore.closeSession
  split
  · exact refl s
  · next realm₀ hr₀ =>
    dsimp only
    have hsessions := (stirred_sessions uri).trans
      ((stirred_sessions uri).cancelDebounces s uri session)
      ((stirred_sessions uri).resting.removeInvocations _ uri session)
    have hstart : Moved s (.command (.sessionClose uri session)) u s
        ((s.cancelPendingRetryDebouncesForCaller uri session).removeInvocationsForSession uri
          session) :=
      (stirred.cancelDebounces s uri session).trans (stirred.resting.removeInvocations _ uri session)
    generalize (s.cancelPendingRetryDebouncesForCaller uri session).removeInvocationsForSession uri
      session = s₁ at hstart hsessions
    split
    · exact hstart
    · next record hrecord =>
      refine hstart.trans (emit ?_ rfl)
      obtain ⟨realm, hr, hpresent⟩ := Option.bind_eq_some_iff.mp hrecord
      rw [realmOf_of_get hr] at hsessions
      have herase : s₁.modifyRealm uri (fun r => { r with sessions := r.sessions.erase session }) =
          s₁.setRealm uri { realm with sessions := realm.sessions.erase session } := by
        rw [modifyRealm, hr]
      rw [herase]
      have hunsubscribed : LeftBy uri session record.registrationIds.keys _ _ :=
        .foldl record.subscriptionIds.keys
          (fun st id _ => LeftBy.removeSubscription uri session st id)
          (s₁.setRealm uri { realm with sessions := realm.sessions.erase session })
      have hleft := hunsubscribed.trans (LeftBy.foldl record.registrationIds.keys
        (fun st _ hid => LeftBy.unregisterProcedure uri session st hid) _)
      generalize hs₂ : record.registrationIds.keys.foldl
        (fun st id => st.unregisterProcedure uri session id)
        (record.subscriptionIds.keys.foldl (fun st id => st.removeSubscription uri session id)
          (s₁.setRealm uri { realm with sessions := realm.sessions.erase session })) = s₂ at hleft
      have hexists : ∃ r₂, s₂.realms.get? uri = some r₂ := by
        rw [← hs₂, get?_foldl _ uri (fun st id u => get?_unregisterProcedure st uri u session id),
          if_pos rfl,
          get?_foldl _ uri (fun st id u => get?_removeSubscription st uri u session id),
          if_pos rfl, get?_setRealm, if_pos rfl]
        exact ⟨_, rfl⟩
      obtain ⟨r₂, hr₂⟩ := hexists
      obtain ⟨⟨events, hm, he⟩, ho⟩ := hleft
      rw [realmOf_setRealm, if_pos rfl, realmOf_of_get hr₂] at hm
      have hgives : ∀ id ∈ record.registrationIds.keys,
          GivesUp s (.command (.sessionClose uri session)) uri session id :=
        fun id hid => .inr ⟨record, rfl, by rw [← hsessions]; exact hpresent, hid⟩
      refine of_moves (realmOf_of_get hr) (.cons (.departed rfl) (hm.bump.moves rfl hgives))
        (fun u => ?_) ?_
      · rw [realmOf, get?_bumpAndNotify, hr₂]
        by_cases e : u = uri
        · simp [e]
        · rw [if_neg e, if_neg e]
          refine (ho u e).1.trans ?_
          rw [realmOf_setRealm, if_neg e]
      · rw [memberEvents_bumpAndNotify]
        by_cases e : u = uri
        · subst e
          rw [if_pos rfl, he]
          rfl
        · rw [if_neg e, (ho u e).2, List.append_nil]
          rfl

end Moved

/-- **Every input moves every realm as `RealmMove` says.** -/
theorem moved_handle (env : StoreEnv) (st : RouterStateStore) (input : StoreInput) (u : String) :
    Moved st input u st (st.handle env input) := by
  cases hi : input.isOfMembers with
  | false => exact Moved.stirred.handle env st hi
  | true =>
      cases input with
      | command c =>
          cases c with
          | sessionOpen uri session => exact .openSession st session
          | sessionClose uri s => exact .closeSession st s
          | subscriptionAdd uri s topic p details port =>
              exact Moved.stirred.sendGuardedReply (.addSubscription env st s topic p details port)
          | subscriptionRemove uri s id =>
              have hleft : LeftBy uri s [] st (st.removeSubscription uri s id) :=
                .removeSubscription uri s st id
              exact hleft.moved rfl (fun _ hid => absurd hid List.not_mem_nil) u
          | procedureRegister uri s procedure details port =>
              have hreg : Moved st (.command (.procedureRegister uri s procedure details port)) u st
                  (st.registerProcedure env uri s procedure details).1 :=
                .registerProcedure env st s procedure details port
              simp only [handle, dispatchCommand]
              split
              · next he =>
                rw [he] at hreg
                exact hreg.send _ _
              · next he =>
                rw [he] at hreg
                exact hreg.send _ _
          | procedureUnregister uri s id =>
              refine (LeftBy.unregisterProcedure uri s st (List.mem_singleton_self id)).moved rfl ?_ u
              intro id' hid
              exact .inl (by rw [List.mem_singleton.mp hid])
          | _ => cases hi
      | _ => cases hi

end RouterStateStore

end Connectanum
