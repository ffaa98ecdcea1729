import Connectanum.Router.Tokens

/-!
# Router — Ledger

The account of one invocation: pending in the store, in the hands of a handler that has taken it
out, announced to the boss as timed out, or answered.  Every step of the router moves it from one
place to the next and never doubles it, as long as no handler sends a reply for a completion
that found nothing and no accepted CALL fails when it is handed on.
-/

namespace Connectanum

open Collections Machine

/-- The invocation that has timed out. -/
def InvocationTimeoutEvent.key (e : InvocationTimeoutEvent) : InvocationKey :=
  (e.realmUri, e.invocationId)

namespace RouterStateStore

/-- One for a pending invocation. -/
def pendingCount (st : RouterStateStore) (key : InvocationKey) : Nat :=
  (st.getInvocation key.1 key.2).isSome.toNat

/-- The session is open in the realm. -/
def SessionOpen (st : RouterStateStore) (u : String) (s : Nat) : Prop :=
  ∃ realm session, st.realms.get? u = some realm ∧ realm.sessions.get? s = some session ∧
    session.id = s

theorem SessionOpen.connectionOf {st : RouterStateStore} {u : String} {s : Nat}
    (h : st.SessionOpen u s) : (st.connectionOf u s).isSome := by
  obtain ⟨realm, session, hr, hs, -⟩ := h
  simp [RouterStateStore.connectionOf, hr, hs]

/-- A snapshot shows the open sessions. -/
theorem SessionOpen.snapshot {st : RouterStateStore} {u : String} {s : Nat}
    (h : st.SessionOpen u s) (env : StoreEnv) (port : SendPort) :
    ∃ response, (st.handle env (.command (.realmSnapshot u none port))).replies =
        st.replies ++ [(port, .snapshot response)] ∧
      (findConnectionIdForSession response.snapshot s).isSome := by
  obtain ⟨realm, session, hr, hs, hid⟩ := h
  have hget : st.getSnapshot u none =
      (st.setRealm u { realm with lastSnapshot := some realm.buildSnapshot },
        .ok { snapshot := realm.buildSnapshot, isNew := true }) := by
    simp [getSnapshot, getOrCreateRealm, hr]
  refine ⟨{ snapshot := realm.buildSnapshot, isNew := true }, ?_, ?_⟩
  · simp only [handle, dispatchCommand, hget]
    exact replies_send _ port _
  · rw [findConnectionIdForSession, Option.isSome_map, List.find?_isSome]
    refine ⟨session.toSessionInfo, ?_, ?_⟩
    · exact List.mem_map_of_mem (SplayMap.mem_values.mpr ⟨s, hs⟩)
    · simpa using hid

/-- An input that is none of the five that remove invocations, and no dispatch. -/
theorem Change.isSome {st : RouterStateStore} {u : String} {id : Nat} {input : StoreInput}
    {o : Option PendingInvocation} (h : Change st u id input o)
    (hdispatch : ∀ caller request, ¬ Dispatches st input u caller request)
    (hcancel : ∀ mode port, input ≠ .command (.invocationCancel u id mode false port))
    (hcomplete : ∀ port, input ≠ .command (.invocationComplete u id port))
    (htimer : input ≠ .invocationTimer u id)
    (hclose : ∀ s, input ≠ .command (.sessionClose u s)) :
    o.isSome = (st.getInvocation u id).isSome := by
  cases h with
  | same => rfl
  | added absent fresh own plain dispatch => exact absurd dispatch (hdispatch _ _)
  | chunk found dispatch => exact absurd dispatch (hdispatch _ _)
  | marked found isCancel => rw [found]; rfl
  | cancelled isCancel => exact absurd isCancel (hcancel _ _)
  | completed isComplete => exact absurd isComplete (hcomplete _)
  | expired isTimer => exact absurd isTimer htimer
  | closed isClose found involved => exact absurd isClose (hclose _)

/-- An input that is none of the four that remove invocations. -/
theorem Change.count_le {st st' : RouterStateStore} {key : InvocationKey} {input : StoreInput}
    (h : Change st key.1 key.2 input (st'.getInvocation key.1 key.2))
    (hcancel : ∀ mode port, input ≠ .command (.invocationCancel key.1 key.2 mode false port))
    (hcomplete : ∀ port, input ≠ .command (.invocationComplete key.1 key.2 port))
    (htimer : input ≠ .invocationTimer key.1 key.2)
    (hclose : ∀ s, input ≠ .command (.sessionClose key.1 s)) :
    st.pendingCount key ≤ st'.pendingCount key := by
  unfold pendingCount
  generalize st'.getInvocation key.1 key.2 = o at h
  cases h with
  | same => exact Nat.le_refl _
  | added absent fresh own plain dispatch => rw [absent]; exact Nat.zero_le _
  | chunk found dispatch => exact Bool.toNat_le _
  | marked found isCancel => exact Bool.toNat_le _
  | cancelled isCancel => exact absurd isCancel (hcancel _ _)
  | completed isComplete => exact absurd isComplete (hcomplete _)
  | expired isTimer => exact absurd isTimer htimer
  | closed isClose found involved => exact absurd isClose (hclose _)

/-- A timer that runs out turns a pending invocation into a timeout. -/
theorem timer_flow {st : RouterStateStore} (h : st.Invocations) (hs : st.timeoutEvents = [])
    (env : StoreEnv) (u : String) (id : Nat) (key : InvocationKey) :
    (st.handle env (.invocationTimer u id)).timeoutEvents.countP (fun e => decide (e.key = key)) +
        (st.handle env (.invocationTimer u id)).pendingCount key = st.pendingCount key ∧
      ∀ e ∈ (st.handle env (.invocationTimer u id)).timeoutEvents, e.key = key →
        ∃ i, st.getInvocation key.1 key.2 = some i ∧
          e.callerConnectionId = st.connectionOf key.1 i.callerSessionId := by
  rw [handle]
  split
  · have hget := getInvocation_expire st u id key.1 key.2
    rcases timeoutEvents_expireInvocation st u id with
      ⟨hnone, hevents⟩ | ⟨i, event, hi, hu, hid, -, -, hc, hevents⟩
    · rw [hevents, hs]
      refine ⟨?_, fun e he => by cases he⟩
      rw [pendingCount, hget, pendingCount]
      split
      · next he => rw [he.1, he.2, hnone]; rfl
      · exact Nat.zero_add _
    · have hown := (h.own_key u id i hi).1
      have hkey : event.key = (u, id) := by rw [InvocationTimeoutEvent.key, hu, hid, hown]
      rw [hevents, hs, List.nil_append]
      refine ⟨?_, fun e he hek => ?_⟩
      · rw [pendingCount, hget, pendingCount, List.countP_singleton, hkey]
        by_cases he : key.1 = u ∧ key.2 = id
        · obtain rfl : key = (u, id) := Prod.ext he.1 he.2
          rw [if_pos he, hi]
          simp
        · rw [if_neg he, if_neg fun heq => he ?_]
          · exact Nat.zero_add _
          · rw [← of_decide_eq_true heq]
            exact ⟨rfl, rfl⟩
      · obtain rfl := List.mem_singleton.mp he
        rw [hkey] at hek
        subst hek
        refine ⟨i, hi, ?_⟩
        rw [hc, connectionOf]
        cases st.realms.get? u <;> rfl
  · rw [hs]
    exact ⟨Nat.zero_add _, fun e he => by cases he⟩

end RouterStateStore

namespace Tokens

theorem freed_complete (key : InvocationKey) (point : Point) (u : String) (id : Nat)
    (o : Option PendingInvocation) :
    freed key (.store point u (.completeInvocation id)) (.invocation o) =
      if (u, id) = key then o.isSome.toNat else 0 := by
  cases o with
  | none => exact (ite_self 0).symm
  | some i => rfl

theorem freed_cancel (key : InvocationKey) (point : Point) (u : String) (id : Nat)
    (mode : String) (b : Bool) :
    freed key (.store point u (.cancelInvocation id mode false)) (.flag b) =
      if (u, id) = key then b.toNat else 0 := by
  cases b with
  | false => exact (ite_self 0).symm
  | true => rfl

end Tokens

open RouterStateStore

/-- The reply of a store that had sent none. -/
theorem reply_unique {st st' : RouterStateStore} {port : SendPort} {r r' : StoreReply}
    (hs : st.replies = []) (hr : st'.replies = [(port, r)])
    (hr' : st'.replies = st.replies ++ [(port, r')]) : r = r' := by
  rw [hs, List.nil_append, hr] at hr'
  cases hr'
  rfl

/-- One invocation was removed. -/
theorem pendingCount_removed {st st' : RouterStateStore} {u : String} {id : Nat}
    {key : InvocationKey}
    (h : st'.getInvocation key.1 key.2 =
      if key.1 = u ∧ key.2 = id then none else st.getInvocation key.1 key.2) :
    st'.pendingCount key + (if (u, id) = key then (st.getInvocation u id).isSome.toNat else 0) =
      st.pendingCount key := by
  obtain ⟨u', id'⟩ := key
  rw [pendingCount, h, pendingCount]
  by_cases he : u' = u ∧ id' = id
  · obtain ⟨rfl, rfl⟩ := he
    simp
  · rw [if_neg he, if_neg fun heq => he ⟨(congrArg Prod.fst heq).symm, (congrArg Prod.snd heq).symm⟩]
    rfl

namespace RealmRequest

/-- **What leaves the store becomes a token**: a command that is answered on the spot takes an
invocation out exactly where its answer brings a token for it. -/
theorem pendingCount_command {st : RouterStateStore} (h : st.Invocations)
    (hx : ¬ st.ids.invocation.Exhausted) {request : RealmRequest}
    (hd : request.isDispatch = false) (env : StoreEnv) {u : String} {port : SendPort}
    {r : StoreReply} (hs : st.replies = [])
    (hr : (st.handle env (.command (request.command u port))).replies = [(port, r)])
    (point : Point) (key : InvocationKey) :
    (st.handle env (.command (request.command u port))).pendingCount key +
      Tokens.freed key (.store point u request) r = st.pendingCount key := by
  have hchange := change_handle h hx env (.command (request.command u port)) key.1 key.2
  have hkept : (∀ id, request ≠ .completeInvocation id) →
      (∀ id mode, request ≠ .cancelInvocation id mode false) →
      (st.handle env (.command (request.command u port))).pendingCount key =
        st.pendingCount key := by
    intro hcomplete hcancel
    refine congrArg Bool.toNat (hchange.isSome ?_ ?_ ?_ ?_ ?_)
    · rintro caller n (⟨_, _, _, heq⟩ | ⟨_, _, heq, -⟩)
      · cases request <;> cases heq
        cases hd
      · cases request <;> cases heq
    · intro mode port' heq
      cases request <;> cases heq
      exact hcancel _ _ rfl
    · intro port' heq
      cases request <;> cases heq
      exact hcomplete _ rfl
    · intro heq
      cases request <;> cases heq
    · intro s heq
      cases request <;> cases heq
  cases request with
  | completeInvocation id =>
      obtain rfl : r = .invocation (st.getInvocation u id) :=
        reply_unique hs hr (replies_complete env st u id port)
      have hget : (st.handle env (.command (.invocationComplete u id (some port)))).getInvocation
          key.1 key.2 = if key.1 = u ∧ key.2 = id then none else st.getInvocation key.1 key.2 :=
        getInvocation_complete st u id key.1 key.2
      rw [Tokens.freed_complete]
      exact pendingCount_removed hget
  | cancelInvocation id mode waitForAck =>
      cases waitForAck with
      | true => exact hkept nofun nofun
      | false =>
          obtain rfl : r = .flag (st.getInvocation u id).isSome :=
            reply_unique hs hr (replies_cancel env st u id mode false port)
          have hget : (st.handle env (.command (.invocationCancel u id mode false
              port))).getInvocation key.1 key.2 =
              if key.1 = u ∧ key.2 = id then none else st.getInvocation key.1 key.2 :=
            getInvocation_cancel st u id mode key.1 key.2
          rw [Tokens.freed_cancel]
          exact pendingCount_removed hget
  | dispatchInvocation s n procedure options => cases hd
  | _ => exact hkept nofun nofun

end RealmRequest

/-! ### The account -/

/-- The token of the handler at the port `holder`, if there is one. -/
def held (holder : Option SendPort) (p : SendPort) : Nat := if holder = some p then 1 else 0

/-- The handler at `port` has `x` tokens now. -/
def claim (holder : Option SendPort) (port : SendPort) (x : Nat) : Option SendPort :=
  if x = 0 then (if holder = some port then none else holder) else some port

section

variable {holder : Option SendPort} {port : SendPort} {x : Nat}

theorem held_le (holder : Option SendPort) (p : SendPort) :
    held holder p ≤ holder.isSome.toNat := by
  unfold held
  split
  · next h => rw [h]; exact Nat.le_refl _
  · exact Nat.zero_le _

theorem claim_count (holder : Option SendPort) (port : SendPort) (hx : x ≤ 1) (hfree : x = 1 → holder.isSome.toNat = held holder port) :
    (claim holder port x).isSome.toNat + held holder port = holder.isSome.toNat + x := by
  unfold claim
  split
  · next h0 =>
    unfold held
    split
    · next h => simp [h, h0]
    · simp [h0]
  · next h0 =>
    have h1 : x = 1 := by omega
    rw [hfree h1, h1, Nat.add_comm]
    rfl

theorem held_claim (hx : x ≤ 1) (hfree : x = 1 → holder.isSome.toNat = held holder port) :
    Function.update (held holder) port x = held (claim holder port x) := by
  funext p
  rw [Function.update_apply]
  obtain rfl | rfl : x = 0 ∨ x = 1 := by omega
  · unfold claim held
    grind
  · cases holder with
    | none => simp [claim, held, eq_comm]
    | some q =>
        have hq : some q = some port := by
          by_contra hne
          have := hfree rfl
          rw [held, if_neg hne] at this
          cases this
        rw [hq]
        simp [claim, held, eq_comm]

end

/-- The handler whose command an input lets the store handle. -/
def RouterInput.taker : RouterInput → Option SendPort
  | .execute port _ => some port
  | _ => none

namespace Router

/-- The terminal replies sent for an invocation. -/
def terminals (st : Router) (key : InvocationKey) : Nat := st.posted.countP (Post.terminal key)

/-- The timeouts of an invocation that the boss has not handled. -/
def expiring (st : Router) (key : InvocationKey) : Nat :=
  st.timeouts.countP fun e => decide (e.key = key)

/-- Where the invocation is, counted. -/
def balance (st : Router) (key : InvocationKey) (holder : Option SendPort) : Nat :=
  holder.isSome.toNat + st.expiring key + st.terminals key + st.store.pendingCount key

/-- The account of the invocation `key` is in order. -/
structure Ledger (key : InvocationKey) (caller : Option Nat) (st : Router)
    (holder : Option SendPort) : Prop where
  watched : Watched (tokens key caller) st (held holder)
  /-- The token is with a handler in progress. -/
  owned : ∀ p, holder = some p → (st.tasks.get? p).isSome
  /-- A timeout reaches the waiting caller. -/
  reachable : caller.isSome → ∀ e ∈ st.timeouts, e.key = key →
    (invocationTimeoutPosts e).countP (Post.terminal key) = 1
  owner : ∀ i s, st.store.getInvocation key.1 key.2 = some i → s ∈ caller → i.callerSessionId = s

/-! ### What a step may do -/

/-- Where a CALL hands its invocation on, nothing fails. -/
def handsOver (view : View) : Query → Bool
  | .handOver _ toInternal =>
      view.failure.isNone &&
        (!toInternal || (view.state.realmUri.isSome && view.state.sessionId.isSome))
  | _ => true

/-- No accepted CALL fails when it is handed on, and no completion that is not looked at finds
its invocation gone. -/
def terminalSafe (st : Router) : RouterInput → Bool
  | .resume port native retains failure =>
      match st.tasks.get? port with
      | some ⟨c, .ready, script⟩ =>
          let view := st.viewOf ⟨c, .ready, script⟩ native retains failure
          (script.met view.now).all (handsOver view)
      | _ => true
  | .execute port _ =>
      match st.tasks.get? port with
      | some ⟨_, .queued, .ask (.store point u (.completeInvocation id)) _⟩ =>
          !point.unchecked || (st.store.getInvocation u id).isSome
      | _ => true
  | _ => true

/-- The caller of the invocation, if it is pending, is gone. -/
def callerGone (st : Router) (u : String) (id : Nat) : Bool :=
  (st.store.getInvocation u id).all fun i => (st.store.connectionOf u i.callerSessionId).isNone

/-- Where a callee's message is handed on, nothing fails. -/
def handsReply (view : View) : Query → Bool
  | .reply _ => view.failure.isNone
  | _ => true

/-- No invocation is taken out behind the back of its open caller, no callee's message is lost
when it is handed on, and no final YIELD comes for an invocation whose cancellation waits. -/
def replySafe (st : Router) : RouterInput → Bool
  | .resume port native retains failure =>
      match st.tasks.get? port with
      | some ⟨c, .ready, script⟩ =>
          let view := st.viewOf ⟨c, .ready, script⟩ native retains failure
          (script.met view.now).all (handsReply view)
      | _ => true
  | .execute port _ =>
      match st.tasks.get? port with
      | some ⟨_, .queued, .ask (.store point u (.completeInvocation id)) _⟩ =>
          !point.silent || st.callerGone u id
      | some ⟨_, .queued, .ask (.store (.yieldGet false) u (.getInvocation id)) _⟩ =>
          (st.store.getInvocation u id).all fun i => !i.cancelRequested
      | _ => true
  | .store _ (.command (.invocationComplete u id _)) => st.callerGone u id
  | .store _ (.command (.invocationCancel u id _ waitForAck _)) => waitForAck || st.callerGone u id
  | .store _ (.command (.sessionClose u s)) =>
      ((st.store.realms.get? u).map (·.invocations.keys)).all fun ids => ids.all fun id =>
        (st.store.getInvocation u id).all fun i =>
          i.calleeSessionId != s || i.callerSessionId == s || st.callerGone u id
  | _ => true

/-- The condition under which no call is answered twice. -/
def TerminalSafe (st : Router) (input : RouterInput) : Prop :=
  ¬ st.store.ids.invocation.Exhausted ∧ st.terminalSafe input = true

instance (st : Router) (input : RouterInput) : Decidable (st.TerminalSafe input) :=
  inferInstanceAs (Decidable (_ ∧ _))

/-- The condition under which, besides, no call stays unanswered. -/
def ReplySafe (st : Router) (input : RouterInput) : Prop :=
  st.TerminalSafe input ∧ st.replySafe input = true

instance (st : Router) (input : RouterInput) : Decidable (st.ReplySafe input) :=
  inferInstanceAs (Decidable (_ ∧ _))

/-- The caller waits: it is open before and after the step, or its invocation is still there, or
it was nowhere yet. -/
def Waits (key : InvocationKey) (caller : Option Nat) (st : Router) (holder : Option SendPort)
    (input : RouterInput) : Prop :=
  ∀ s ∈ caller,
    (st.store.SessionOpen key.1 s ∧ (st.step input).store.SessionOpen key.1 s) ∨
      (st.step input).store.pendingCount key = 1 ∨ st.balance key holder = 0

/-! ### One step -/

section

variable {key : InvocationKey} {caller : Option Nat} {st : Router} {holder : Option SendPort}

/-- The step has brought the account to order again: nothing was added but an invocation that is
new in the store, and where a caller waits nothing was lost.  Only the handler `taker` may have
come by a token, for an invocation that was pending. -/
def Carried (key : InvocationKey) (caller : Option Nat) (st : Router)
    (holder taker : Option SendPort) (st' : Router) : Prop :=
  ∃ holder', Ledger key caller st' holder' ∧
    (∀ p, holder' = some p →
      holder = some p ∨ (taker = some p ∧ 0 < st.store.pendingCount key)) ∧
    st'.balance key holder' ≤ st.balance key holder +
      (st'.store.pendingCount key - st.store.pendingCount key) ∧
    (caller.isSome → st'.balance key holder' = st.balance key holder +
      (st'.store.pendingCount key - st.store.pendingCount key))

theorem claim_cases {port p : SendPort} {x : Nat} (h : claim holder port x = some p) :
    holder = some p ∨ (x ≠ 0 ∧ port = p) := by
  unfold claim at h
  split at h
  · split at h
    · cases h
    · exact .inl h
  · next h0 => exact .inr ⟨h0, Option.some.inj h⟩

/-- The handler at one port moves, to `x` tokens. -/
theorem Ledger.move (h : Ledger key caller st holder) {st' : Router} {port : SendPort} {x : Nat}
    (hw : Watched (tokens key caller) st' (Function.update (held holder) port x)) (hx : x ≤ 1)
    (hfree : x = 1 → holder.isSome.toNat = held holder port)
    (hport : x ≠ 0 → (st'.tasks.get? port).isSome)
    (hothers : ∀ p, p ≠ port → (st.tasks.get? p).isSome → (st'.tasks.get? p).isSome)
    (htimeouts : st'.timeouts = st.timeouts)
    (howner : ∀ i s, st'.store.getInvocation key.1 key.2 = some i → s ∈ caller →
      i.callerSessionId = s) :
    Ledger key caller st' (claim holder port x) where
  watched := by
    rw [← held_claim hx hfree]
    exact hw
  owned := by
    intro p hp
    by_cases hpp : p = port
    · subst hpp
      refine hport fun h0 => ?_
      rw [h0, claim, if_pos rfl] at hp
      split at hp
      · cases hp
      · next hne => exact hne hp
    · refine hothers p hpp (h.owned p ?_)
      exact (claim_cases hp).resolve_right fun hport => hpp hport.2.symm
  reachable := by
    rw [htimeouts]
    exact h.reachable
  owner := howner

theorem passes_count {n x : Nat} {posts : List Post}
    (h : (tokens key caller).passes n posts = some x) :
    n = x + posts.countP (Post.terminal key) := by
  induction posts generalizing n with
  | nil => exact Option.some.inj h
  | cons p rest ih =>
      obtain ⟨y, hy, hrest⟩ := Option.bind_eq_some_iff.mp h
      rw [List.countP_cons, ← Nat.add_assoc, ← ih hrest]
      simp only [tokens] at hy
      split at hy
      · next hp =>
        split at hy
        · cases hy
        · rw [if_pos hp, ← Option.some.inj hy]
          omega
      · next hp =>
        rw [if_neg hp, ← Option.some.inj hy]
        rfl

theorem Ledger.receive (h : Ledger key caller st holder) (ho : Orderly st) (port : SendPort)
    (c : Nat) (message : ClientMessage) :
    Carried key caller st holder none (st.step (.receive port c message)) := by
  obtain heq | ⟨hlt, heq⟩ := receive_cases st port c message
  · rw [heq]
    exact ⟨holder, h, fun _ hp => .inl hp, Nat.le_add_right _ _, fun _ => by omega⟩
  · rw [heq]
    have hheld : held holder port = 0 := by
      refine if_neg fun hp => ?_
      have := (ho.ports port (h.owned port hp)).2
      exact absurd this (Nat.not_le_of_lt hlt)
    have hset := h.watched.setTask port (x := held holder port)
      (t := some ⟨c, .ready, handleSessionMessage c message⟩) fun task ht => by
        cases ht
        rw [hheld]
        exact Tokens.obeys_handleSessionMessage key caller c message
    rw [Function.update_eq_self] at hset
    refine ⟨holder, ⟨hset.congr rfl, fun p hp => ?_, h.reachable, h.owner⟩, fun _ hp => .inl hp, ?_,
      fun _ => ?_⟩
    · rw [LinkedMap.get?_insert]
      split
      · rfl
      · exact h.owned p hp
    · exact Nat.le_add_right _ _
    · simp [balance, expiring, terminals]

/-- A step that only moves handlers. -/
theorem Carried.of_same {st' : Router} (h : Ledger key caller st' holder)
    (hs : st'.store = st.store) (ht : st'.timeouts = st.timeouts)
    (hp : st'.posted = st.posted) (taker : Option SendPort) :
    Carried key caller st holder taker st' := by
  have hb : st'.balance key holder = st.balance key holder := by
    rw [balance, balance, expiring, expiring, terminals, terminals, hs, ht, hp]
  exact ⟨holder, h, fun _ hp => .inl hp, by rw [hb]; exact Nat.le_add_right _ _,
    fun _ => by rw [hb, hs]; omega⟩

theorem Ledger.resume (h : Ledger key caller st holder) {port : SendPort} {native : List Nat}
    {retains : Bool} {failure : Option Failure}
    (hsafe : st.terminalSafe (.resume port native retains failure) = true)
    (hreply : caller.isSome → st.replySafe (.resume port native retains failure) = true) :
    Carried key caller st holder none (st.resume port native retains failure) := by
  obtain heq | ⟨c, script, ht, heq⟩ := resume_cases st port native retains failure
  · rw [heq]
    exact .of_same h rfl rfl rfl _
  · rw [heq]
    generalize hview : st.viewOf ⟨c, .ready, script⟩ native retains failure = view
    have hover : ∀ q ∈ script.met view.now, handsOver view q = true := by
      simpa [terminalSafe, ht, hview, List.all_eq_true] using hsafe
    have hreplies : caller.isSome → ∀ q ∈ script.met view.now, handsReply view q = true := by
      intro hc
      simpa [replySafe, ht, hview, List.all_eq_true] using hreply hc
    have hnow : ∀ q ∈ script.met view.now, ∀ a, view.now q = some a →
        ∀ t, (tokens key caller).admits t q a ∧ (tokens key caller).answer t q a = t := by
      intro q hq a ha t
      cases q with
      | look => exact ⟨trivial, rfl⟩
      | handOver key' toInternal =>
          cases ha
          have hok := hover _ hq
          simp only [handsOver, Bool.and_eq_true, Bool.or_eq_true, Option.isNone_iff_eq_none,
            Bool.not_eq_true'] at hok
          exact ⟨fun _ => ⟨hok.1, fun hi => hok.2.resolve_left (by simp [hi])⟩, rfl⟩
      | reply key' =>
          cases ha
          exact ⟨fun _ hc => by simpa [handsReply] using hreplies hc _ hq, rfl⟩
      | _ => cases ha
    obtain ⟨x, hx, hfinal, hwatched⟩ := h.watched.resume ht hnow (script.sent view.now)
    have hcount := passes_count hx
    have hle := held_le holder port
    have hone : holder.isSome.toNat ≤ 1 := Bool.toNat_le _
    generalize hstop : Task.stop c (script.remainder view.now) = stop at hfinal hwatched
    -- a handler that has ended holds no token any more
    have hmove : ∀ y, (stop ≠ none → y = x) → y ≤ x → (stop = none → y = 0) →
        Ledger key caller ((st.post (script.sent view.now)).setTask port stop)
          (claim holder port y) := by
      intro y hy hyx hzero
      refine h.move (hwatched y hy) (by omega) (fun h1 => by omega) (fun h0 => ?_)
        (fun p hp hsome => ?_) ?_ ?_
      · rw [setTask_get?, if_pos rfl, Option.isSome_iff_ne_none]
        exact fun hnone => h0 (hzero hnone)
      · rw [setTask_get?, if_neg hp]
        exact hsome
      · exact setTask_frame Router.timeouts (fun _ _ => rfl) ..
      · rw [setTask_frame Router.store (fun _ _ => rfl)]
        exact h.owner
    have hbalance : ∀ y, y ≤ x → (((st.post (script.sent view.now)).setTask port stop).balance key
        (claim holder port y)) + x = st.balance key holder + y := by
      intro y hyx
      have hclaim := claim_count holder port (x := y) (by omega) (fun h1 => by omega)
      rw [balance, balance, expiring, expiring, terminals, terminals,
        setTask_frame Router.timeouts (fun _ _ => rfl),
        setTask_frame Router.posted (fun _ _ => rfl),
        setTask_frame Router.store (fun _ _ => rfl)]
      simp only [post, List.countP_append]
      omega
    have hstore : ((st.post (script.sent view.now)).setTask port stop).store = st.store :=
      setTask_frame Router.store (fun _ _ => rfl) ..
    have htaker : ∀ y, y ≤ x → ∀ p, claim holder port y = some p →
        holder = some p ∨ (none = some p ∧ 0 < st.store.pendingCount key) := by
      intro y hyx p hp
      obtain hp | ⟨h0, rfl⟩ := claim_cases hp
      · exact .inl hp
      · refine .inl ?_
        by_contra hne
        have hzero : held holder port = 0 := if_neg hne
        omega
    cases stop with
    | none =>
        refine ⟨_, hmove 0 (fun hne => absurd rfl hne) (Nat.zero_le _) fun _ => rfl,
          htaker 0 (Nat.zero_le _), ?_, ?_⟩
        · have := hbalance 0 (Nat.zero_le _)
          omega
        · intro hc
          have := hbalance 0 (Nat.zero_le _)
          rw [hstore]
          rw [hfinal rfl hc] at this
          omega
    | some task =>
        refine ⟨_, hmove x (fun _ => rfl) (Nat.le_refl _) (by rintro ⟨⟩), htaker x (Nat.le_refl _), ?_,
          fun _ => ?_⟩
        · have := hbalance x (Nat.le_refl _)
          omega
        · have := hbalance x (Nat.le_refl _)
          rw [hstore]
          omega

/-- An answer that brings no token. -/
theorem Ledger.answer (h : Ledger key caller st holder) {port : SendPort} {c : Nat}
    {stage : Stage} {q : Query} {next : q.Answer → Handler}
    (ht : st.tasks.get? port = some ⟨c, stage, .ask q next⟩) {a : q.Answer}
    (hadm : Tokens.admits key caller (held holder port) q a) (hz : Tokens.freed key q a = 0) :
    Carried key caller st holder none (st.setTask port (some ⟨c, .ready, next a⟩)) := by
  have hw := h.watched.answer ht hadm .ready
  change Watched _ _ (Function.update _ _ (held holder port + Tokens.freed key q a)) at hw
  rw [hz, Nat.add_zero, Function.update_eq_self] at hw
  refine .of_same ⟨hw, fun p hp => ?_, h.reachable, h.owner⟩ rfl rfl rfl _
  rw [setTask_get?]
  split
  · rfl
  · exact h.owned p hp

theorem Ledger.authorize (h : Ledger key caller st holder) (port : SendPort)
    (decision : AuthorizationDecision) :
    Carried key caller st holder none (st.authorize port decision) := by
  obtain heq | ⟨c, request, next, ht, heq⟩ := authorize_cases st port decision
  · rw [heq]
    exact .of_same h rfl rfl rfl _
  · rw [heq]
    exact h.answer (q := .authorize request) ht trivial rfl

theorem Ledger.respond (h : Ledger key caller st holder) (port : SendPort)
    (response : InternalResponse) :
    Carried key caller st holder none (st.respond port response) := by
  obtain heq | ⟨c, next, ht, heq⟩ := respond_cases st port response
  · rw [heq]
    exact .of_same h rfl rfl rfl _
  · rw [heq]
    exact h.answer (q := .response) ht trivial rfl

/-- A timeout is one reply, if there is a way to the caller. -/
theorem terminal_timeoutPosts (key : InvocationKey) (e : InvocationTimeoutEvent) :
    (invocationTimeoutPosts e).countP (Post.terminal key) =
      if e.key = key ∧ (e.callerInternalSendPort.isSome ∨ e.callerConnectionId.isSome) then 1
      else 0 := by
  obtain ⟨u, id, requestId, s, s', c, c', port, port'⟩ := e
  -- the interrupt of the callee is no reply
  cases port' <;> cases c' <;> cases port <;> cases c <;>
    simp [invocationTimeoutPosts, List.countP_cons, Post.terminal, InternalMessage.isTerminal,
      RouterMessage.isTerminal, InvocationTimeoutEvent.key]

/-- The boss handles a timeout. -/
theorem Ledger.timeout (h : Ledger key caller st holder) :
    Carried key caller st holder none (st.step .timeout) := by
  obtain heq | ⟨event, rest, htimeouts, heq⟩ := timeout_cases st
  · rw [heq]
    exact .of_same h rfl rfl rfl _
  · have hposts : (invocationTimeoutPosts event).countP (Post.terminal key) ≤
        if event.key = key then 1 else 0 := by
      rw [terminal_timeoutPosts]
      split
      · next hc => rw [if_pos hc.1]
      · exact Nat.zero_le _
    have hled : Ledger key caller (st.step .timeout) holder := by
      rw [heq]
      refine ⟨h.watched.congr rfl, h.owned, fun hc e he hkey => ?_, h.owner⟩
      exact h.reachable hc e (by rw [htimeouts]; exact List.mem_cons_of_mem _ he) hkey
    have hexp : st.expiring key = rest.countP (fun e => decide (e.key = key)) +
        if event.key = key then 1 else 0 := by
      rw [expiring, htimeouts, List.countP_cons]
      simp
    have hbal : (st.step .timeout).balance key holder + (if event.key = key then 1 else 0) =
        st.balance key holder + (invocationTimeoutPosts event).countP (Post.terminal key) := by
      rw [balance, balance, hexp, heq]
      simp only [post, expiring, terminals, List.countP_append]
      omega
    refine ⟨holder, hled, fun _ hp => .inl hp, by omega, fun hc => ?_⟩
    have hall : (invocationTimeoutPosts event).countP (Post.terminal key) =
        if event.key = key then 1 else 0 := by
      by_cases hkey : event.key = key
      · rw [if_pos hkey]
        exact h.reachable hc event (by rw [htimeouts]; exact List.mem_cons_self ..) hkey
      · rw [if_neg hkey] at hposts ⊢
        omega
    have hstore : (st.step .timeout).store = st.store := by
      rw [heq]
      rfl
    rw [hstore]
    omega

/-! ### The store -/

theorem pendingCount_execute {port : SendPort} {c : Nat} {point : Point} {u : String}
    {request : RealmRequest} {next : StoreReply → Handler}
    (ht : st.tasks.get? port = some ⟨c, .queued, .ask (.store point u request) next⟩)
    (env : StoreEnv) (key : InvocationKey) :
    (st.step (.execute port env)).store.pendingCount key =
      (st.store.handle env (.command (request.command u port))).pendingCount key := by
  rw [step, execute, ht]
  dsimp only
  rw [absorb_store]
  rfl

/-- The answers of the store are those that the account counts on. -/
theorem Ledger.admits (h : Ledger key caller st holder) (ho : Orderly st)
    (hle : st.balance key holder ≤ 1) {port : SendPort} {env : StoreEnv}
    (hsafe : st.TerminalSafe (.execute port env))
    (hreply : caller.isSome → st.replySafe (.execute port env) = true)
    (hwaits : Waits key caller st holder (.execute port env)) {c : Nat} {point : Point} {u : String}
    {request : RealmRequest} {next : StoreReply → Handler}
    (ht : st.tasks.get? port = some ⟨c, .queued, .ask (.store point u request) next⟩)
    (hd : request.isDispatch = false) {r : StoreReply}
    (hr : (st.store.handle env (.command (request.command u port))).replies = [(port, r)]) :
    Tokens.admits key caller (held holder port) (.store point u request) r := by
  have hs := ho.replies
  have hpending := RealmRequest.pendingCount_command ho.invocations hsafe.1 hd env hs hr point key
  have hstep := pendingCount_execute ht env key
  cases request with
  | completeInvocation id =>
      obtain rfl : r = .invocation (st.store.getInvocation u id) :=
        reply_unique hs hr (replies_complete env st.store u id port)
      rintro rfl
      refine ⟨fun hun => ?_, fun hc => ⟨_, rfl, fun hsilent => ?_⟩⟩
      · have hsome := hsafe.2
        simp only [terminalSafe, ht, hun, Bool.not_true, Bool.false_or] at hsome
        obtain ⟨i, hi⟩ := Option.isSome_iff_exists.mp hsome
        exact ⟨i, by rw [hi]⟩
      · by_contra hsome
        obtain ⟨i, hi⟩ := Option.ne_none_iff_exists'.mp hsome
        obtain ⟨s, hs'⟩ := Option.isSome_iff_exists.mp hc
        have hgone := hreply hc
        simp only [replySafe, ht, hsilent, Bool.not_true, Bool.false_or, callerGone, hi,
          Option.all_some, h.owner i s hi hs'] at hgone
        rw [Tokens.freed_complete, if_pos rfl, hi] at hpending
        have hone : st.store.pendingCount (u, id) ≤ 1 := Bool.toNat_le _
        simp only [Option.isSome_some, Bool.toNat_true] at hpending
        obtain ⟨hopen, -⟩ | hstill | hzero := hwaits s hs'
        · exact absurd hopen.connectionOf (by simp [Option.isNone_iff_eq_none.mp hgone])
        · rw [hstep] at hstill
          omega
        · unfold balance at hzero
          omega
  | cancelInvocation id mode waitForAck =>
      obtain rfl : r = .flag (st.store.getInvocation u id).isSome :=
        reply_unique hs hr (replies_cancel env st.store u id mode waitForAck port)
      exact fun _ _ => ⟨_, rfl⟩
  | getInvocation id =>
      obtain rfl : r = .invocation (st.store.getInvocation u id) :=
        reply_unique hs hr (replies_get env st.store u id port)
      rintro rfl i hi s hs
      exact h.owner i s (by simpa using hi) hs
  | snapshot =>
      intro hn hu s hs'
      have hheld := held_le holder port
      obtain ⟨hopen, -⟩ | hstill | hzero := hwaits s hs'
      · obtain ⟨response, hr', hfound⟩ := hopen.snapshot env port
        subst hu
        exact ⟨response, reply_unique hs hr hr', hfound⟩
      · -- the handler has the token, so that nothing is pending
        have hfreed : Tokens.freed key (.store point u .snapshot) r = 0 := rfl
        rw [hstep] at hstill
        unfold balance at hle
        omega
      · unfold balance at hzero
        omega
  | _ => trivial

theorem Orderly.timeoutEvents (ho : Orderly st) : st.store.timeoutEvents = [] := by
  rw [RouterStateStore.timeoutEvents, ho.outbox]
  rfl

/-- A command that is answered on the spot. -/
theorem Ledger.executeNow (h : Ledger key caller st holder) (ho : Orderly st)
    (hle : st.balance key holder ≤ 1) {port : SendPort} {env : StoreEnv}
    (hsafe : st.TerminalSafe (.execute port env))
    (hreply : caller.isSome → st.replySafe (.execute port env) = true)
    (hwaits : Waits key caller st holder (.execute port env))
    (howner : ∀ i s, (st.step (.execute port env)).store.getInvocation key.1 key.2 = some i →
      s ∈ caller → i.callerSessionId = s) {c : Nat} {point : Point} {u : String}
    {request : RealmRequest} {next : StoreReply → Handler}
    (ht : st.tasks.get? port = some ⟨c, .queued, .ask (.store point u request) next⟩)
    (hd : request.isDispatch = false) :
    Carried key caller st holder (some port) (st.step (.execute port env)) := by
  obtain ⟨r, hr, hw⟩ := h.watched.execute ho.settled env ht hd
    fun r hr => h.admits ho hle hsafe hreply hwaits ht hd hr
  have hpending := RealmRequest.pendingCount_command ho.invocations hsafe.1 hd env ho.replies hr
    point key
  obtain ⟨r', hr', htasks⟩ := execute_answered ho.settled env ht hd
  have heq : st.step (.execute port env) =
      (st.setTask port (some ⟨c, .waiting, .ask (.store point u request) next⟩)).absorb
        (st.store.handle env (.command (request.command u port))) := by
    rw [step, execute, ht]
  have htimeouts : (st.step (.execute port env)).timeouts = st.timeouts := by
    rw [heq, absorb_timeouts, handle, timeoutEvents_dispatchCommand, ho.timeoutEvents,
      List.append_nil]
    rfl
  have hposted : (st.step (.execute port env)).posted = st.posted := by
    rw [heq, absorb_posted]
    rfl
  have hstep := pendingCount_execute ht env key
  have hheld := held_le holder port
  unfold balance at hle
  have hx : held holder port + Tokens.freed key (.store point u request) r ≤ 1 := by omega
  have hfree : held holder port + Tokens.freed key (.store point u request) r = 1 →
      holder.isSome.toNat = held holder port := by omega
  have hclaim := claim_count holder port hx hfree
  refine ⟨_, h.move hw hx hfree (fun _ => ?_) (fun p hp hsome => ?_) htimeouts howner,
    fun p hp => ?_, ?_, ?_⟩
  · rw [step, htasks port, if_pos rfl]
    rfl
  · rw [step, htasks p, if_neg hp]
    exact hsome
  · obtain hp | ⟨h0, rfl⟩ := claim_cases hp
    · exact .inl hp
    · by_cases hself : holder = some port
      · exact .inl hself
      · have hzero : held holder port = 0 := if_neg hself
        change held holder port + _ ≠ 0 at h0
        exact .inr ⟨rfl, by omega⟩
  · rw [balance, balance, expiring, expiring, terminals, terminals, htimeouts, hposted, hstep]
    change (claim holder port (held holder port + _)).isSome.toNat + _ + _ + _ ≤ _
    omega
  · intro _
    rw [balance, balance, expiring, expiring, terminals, terminals, htimeouts, hposted, hstep]
    change (claim holder port (held holder port + _)).isSome.toNat + _ + _ + _ = _
    omega

/-- What the store handles without giving anybody a token. -/
theorem Ledger.absorb (h : Ledger key caller st holder) {st₁ : Router}
    (hw : Watched (tokens key caller) st₁ (held holder))
    (hsome : ∀ p, (st.tasks.get? p).isSome → (st₁.tasks.get? p).isSome)
    (hdispatch : ∀ p c point u request next,
      st₁.tasks.get? p = some ⟨c, .waiting, .ask (.store point u request) next⟩ →
      request.isDispatch = true)
    (htimeouts : st₁.timeouts = st.timeouts) (hposted : st₁.posted = st.posted)
    {s : RouterStateStore}
    (hflow : s.timeoutEvents.countP (fun e => decide (e.key = key)) + s.pendingCount key ≤
      st.store.pendingCount key + (s.pendingCount key - st.store.pendingCount key))
    (hkept : caller.isSome → st.store.pendingCount key ≤
      s.timeoutEvents.countP (fun e => decide (e.key = key)) + s.pendingCount key)
    (hreach : caller.isSome → ∀ e ∈ s.timeoutEvents, e.key = key →
      (invocationTimeoutPosts e).countP (Post.terminal key) = 1)
    (howner : ∀ i s', (st₁.absorb s).store.getInvocation key.1 key.2 = some i → s' ∈ caller →
      i.callerSessionId = s') :
    ∀ taker, Carried key caller st holder taker (st₁.absorb s) := by
  intro taker
  have hstore : (st₁.absorb s).store.pendingCount key = s.pendingCount key := by
    rw [absorb_store]
    rfl
  have hexp : (st₁.absorb s).expiring key = st.expiring key +
      s.timeoutEvents.countP (fun e => decide (e.key = key)) := by
    rw [expiring, absorb_timeouts, List.countP_append, htimeouts]
    rfl
  refine ⟨holder, ⟨?_, fun p hp => ?_, fun hc e he hkey => ?_, howner⟩, fun _ hp => .inl hp, ?_,
    fun hc => ?_⟩
  · refine hw.absorb hdispatch s fun p c point u request next r _ hd _ => ?_
    cases request <;> cases hd
    exact ⟨trivial, rfl⟩
  · rw [(answered_absorb st₁ s p).isSome]
    exact hsome p (h.owned p hp)
  · rw [absorb_timeouts, htimeouts] at he
    rcases List.mem_append.mp he with he | he
    · exact h.reachable hc e he hkey
    · exact hreach hc e he hkey
  · rw [balance, balance, hexp, hstore, terminals, terminals, absorb_posted, hposted]
    omega
  · have := hkept hc
    rw [balance, balance, hexp, hstore, terminals, terminals, absorb_posted, hposted]
    omega

theorem Ledger.execute (h : Ledger key caller st holder) (ho : Orderly st)
    (hle : st.balance key holder ≤ 1) {port : SendPort} {env : StoreEnv}
    (hsafe : st.TerminalSafe (.execute port env))
    (hreply : caller.isSome → st.replySafe (.execute port env) = true)
    (hwaits : Waits key caller st holder (.execute port env))
    (howner : ∀ i s, (st.step (.execute port env)).store.getInvocation key.1 key.2 = some i →
      s ∈ caller → i.callerSessionId = s) :
    Carried key caller st holder (some port) (st.step (.execute port env)) := by
  obtain heq | ⟨c, point, u, request, next, ht, heq⟩ := execute_cases st port env
  · rw [step, heq]
    exact .of_same h rfl rfl rfl _
  · cases hd : request.isDispatch with
    | false => exact h.executeNow ho hle hsafe hreply hwaits howner ht hd
    | true =>
        have hevents :
            (st.store.handle env (.command (request.command u port))).timeoutEvents = [] :=
          (timeoutEvents_dispatchCommand env st.store _).trans ho.timeoutEvents
        have hmore : st.store.pendingCount key ≤
            (st.store.handle env (.command (request.command u port))).pendingCount key := by
          refine (change_handle ho.invocations hsafe.1 env _ key.1 key.2).count_le
            (fun mode port' heq => ?_) (fun port' heq => ?_) (fun heq => ?_) fun s heq => ?_
          all_goals
            cases request <;> cases hd
            cases heq
        have hwatched : Watched (tokens key caller)
            (st.setTask port (some ⟨c, .waiting, .ask (.store point u request) next⟩))
            (held holder) := by
          have hset := h.watched.setTask port (x := held holder port)
            (t := some ⟨c, .waiting, .ask (.store point u request) next⟩) fun task htask => by
              have hobeys := h.watched port _ ht
              cases htask
              exact hobeys
          rwa [Function.update_eq_self] at hset
        rw [step, heq] at howner ⊢
        refine h.absorb hwatched (fun p hp => ?_) (fun p c' point' u' request' next' hp => ?_)
          rfl rfl ?_ (fun _ => ?_) (fun _ e he => ?_) howner _
        · rw [setTask_get?]
          split
          · rfl
          · exact hp
        · rw [setTask_get?] at hp
          split at hp
          · cases hp
            exact hd
          · exact ho.waits _ _ _ _ _ _ hp
        · rw [hevents, List.countP_nil]
          omega
        · rw [hevents, List.countP_nil]
          omega
        · rw [hevents] at he
          cases he

/-- A command of another component leaves the invocation of an open caller alone. -/
theorem Ledger.kept (h : Ledger key caller st holder) (hx : ¬ st.store.ids.invocation.Exhausted)
    (ho : Orderly st) {s : Nat} (hs : s ∈ caller) (hopen : st.store.SessionOpen key.1 s)
    {env : StoreEnv} {input : StoreInput}
    (hafter : (st.step (.store env input)).store.SessionOpen key.1 s)
    (hreply : st.replySafe (.store env input) = true)
    (hcommand : ∃ cmd, input.fromOther = .command cmd) :
    st.store.pendingCount key ≤ (st.store.handle env input.fromOther).pendingCount key := by
  have hthere : st.callerGone key.1 key.2 = true → st.store.getInvocation key.1 key.2 = none := by
    intro hgone
    by_contra hsome
    obtain ⟨i, hi⟩ := Option.ne_none_iff_exists'.mp hsome
    simp only [callerGone, hi, Option.all_some, h.owner i s hi hs, Option.isNone_iff_eq_none]
      at hgone
    exact absurd hopen.connectionOf (by rw [hgone]; nofun)
  have hchange := change_handle ho.invocations hx env input.fromOther key.1 key.2
  by_cases hnone : st.store.getInvocation key.1 key.2 = none
  · rw [pendingCount, hnone]
    exact Nat.zero_le _
  · unfold pendingCount
    generalize hget : (st.store.handle env input.fromOther).getInvocation key.1 key.2 = o at hchange
    cases hchange with
    | same => exact Nat.le_refl _
    | added absent fresh own plain dispatch => exact absurd absent hnone
    | chunk found dispatch => exact Bool.toNat_le _
    | marked found isCancel => exact Bool.toNat_le _
    | cancelled isCancel =>
        cases input with
        | command cmd =>
            cases cmd <;> cases isCancel
            exact absurd (hthere hreply) hnone
        | _ => cases isCancel
    | completed isComplete =>
        cases input with
        | command cmd =>
            cases cmd <;> cases isComplete
            exact absurd (hthere hreply) hnone
        | _ => cases isComplete
    | expired isTimer =>
        obtain ⟨cmd, hcmd⟩ := hcommand
        rw [hcmd] at isTimer
        cases isTimer
    | @closed i s' isClose found involved =>
        have hself : i.callerSessionId ≠ s' := by
          intro heq
          rw [h.owner i s found hs] at heq
          subst heq
          have hclosed := hafter.connectionOf
          rw [step, absorb_store, isClose] at hclosed
          change ((st.store.closeSession key.1 s).connectionOf key.1 s).isSome = true at hclosed
          rw [connectionOf_close] at hclosed
          cases hclosed
        cases input with
        | command cmd =>
            cases cmd <;> cases isClose
            obtain ⟨realm, hr, hi⟩ := getInvocation_some.mp found
            have hall := hreply
            simp only [replySafe, hr, Option.map_some, Option.all_some, List.all_eq_true] at hall
            have hone := hall key.2 (LinkedMap.mem_keys.mpr ⟨i, hi⟩)
            simp only [found, Option.all_some, Bool.or_eq_true, bne_iff_ne, beq_iff_eq] at hone
            rcases hone with (hcallee | hcaller) | hgone
            · exact absurd (involved.resolve_left hself) hcallee
            · exact absurd hcaller hself
            · exact absurd (hthere hgone) hnone
        | _ => cases isClose

/-- A command of another component, or a timer. -/
theorem Ledger.store (h : Ledger key caller st holder) (ho : Orderly st) {env : StoreEnv}
    {input : StoreInput} (hx : ¬ st.store.ids.invocation.Exhausted)
    (hreply : caller.isSome → st.replySafe (.store env input) = true)
    (hwaits : Waits key caller st holder (.store env input))
    (howner : ∀ i s, (st.step (.store env input)).store.getInvocation key.1 key.2 = some i →
      s ∈ caller → i.callerSessionId = s) :
    Carried key caller st holder none (st.step (.store env input)) := by
  have hstep : (st.step (.store env input)).store.pendingCount key =
      (st.store.handle env input.fromOther).pendingCount key := by
    rw [step, absorb_store]
    rfl
  have hquiet : (st.store.handle env input.fromOther).timeoutEvents = [] →
      (caller.isSome → st.store.pendingCount key ≤
        (st.store.handle env input.fromOther).pendingCount key) →
      Carried key caller st holder none (st.step (.store env input)) := by
    intro hevents hmore
    refine h.absorb h.watched (fun _ hp => hp) ho.waits rfl rfl ?_ (fun hc => ?_)
      (fun _ e he => ?_) howner _
    · rw [hevents, List.countP_nil]
      omega
    · rw [hevents, List.countP_nil, Nat.zero_add]
      exact hmore hc
    · rw [hevents] at he
      cases he
  cases hinput : input.fromOther with
  | invocationTimer u id =>
      obtain ⟨hflow, hevents⟩ := timer_flow ho.invocations ho.timeoutEvents env u id key
      rw [← hinput] at hflow hevents
      refine h.absorb h.watched (fun _ hp => hp) ho.waits rfl rfl (by omega) (fun _ => hflow.ge)
        (fun hc e he hkey => ?_) howner _
      obtain ⟨i, hi, hconn⟩ := hevents e he hkey
      obtain ⟨s, hs⟩ := Option.isSome_iff_exists.mp hc
      have hopen : st.store.SessionOpen key.1 s := by
        -- the event is there in place of the invocation
        have hpos : 0 < (st.store.handle env input.fromOther).timeoutEvents.countP
            (fun e => decide (e.key = key)) :=
          List.countP_pos_iff.mpr ⟨e, he, decide_eq_true hkey⟩
        have hone : st.store.pendingCount key ≤ 1 := Bool.toNat_le _
        obtain ⟨hopen, -⟩ | hstill | hzero := hwaits s hs
        · exact hopen
        · omega
        · unfold balance at hzero
          omega
      have hway : e.callerConnectionId.isSome := by
        rw [hconn, h.owner i s hi hs]
        exact hopen.connectionOf
      rw [terminal_timeoutPosts, if_pos ⟨hkey, .inr hway⟩]
  | debounceTimer k =>
      refine hquiet ?_ fun _ => ?_
      · rw [hinput]
        exact (timeoutEvents_dispatchPendingRetryDebounce env st.store k).trans ho.timeoutEvents
      · rw [hinput]
        exact (change_handle ho.invocations hx env _ key.1 key.2).count_le
          (by rintro _ _ ⟨⟩) (by rintro _ ⟨⟩) (by rintro ⟨⟩) (by rintro _ ⟨⟩)
  | command cmd =>
      refine hquiet ?_ fun hc => ?_
      · rw [hinput]
        exact (timeoutEvents_dispatchCommand env st.store cmd).trans ho.timeoutEvents
      · obtain ⟨s, hs⟩ := Option.isSome_iff_exists.mp hc
        obtain ⟨hopen, hafter⟩ | hstill | hzero := hwaits s hs
        · exact h.kept hx ho hs hopen hafter (hreply hc) ⟨cmd, hinput⟩
        · rw [← hstep, hstill]
          exact Bool.toNat_le _
        · unfold balance at hzero
          omega

/-- **The step lemma of the account.** -/
theorem Ledger.step (h : Ledger key caller st holder) (ho : Orderly st)
    (hle : st.balance key holder ≤ 1) {input : RouterInput} (hsafe : st.TerminalSafe input)
    (hreply : caller.isSome → st.replySafe input = true) (hwaits : Waits key caller st holder input)
    (howner : ∀ i s, (st.step input).store.getInvocation key.1 key.2 = some i →
      s ∈ caller → i.callerSessionId = s) :
    Carried key caller st holder input.taker (st.step input) := by
  cases input with
  | receive port c message => exact h.receive ho port c message
  | resume port native retains failure => exact h.resume hsafe.2 hreply
  | execute port env => exact h.execute ho hle hsafe hreply hwaits howner
  | authorize port decision => exact h.authorize port decision
  | respond port response => exact h.respond port response
  | store env input => exact h.store ho hsafe.1 hreply hwaits howner
  | timeout => exact h.timeout
  | connection c state =>
      have hsame : Ledger key caller (st.step (.connection c state)) holder :=
        ⟨h.watched.congr rfl, h.owned, h.reachable, h.owner⟩
      exact .of_same hsame rfl rfl rfl _
  | link input =>
      have hsame : Ledger key caller (st.step (.link input)) holder :=
        ⟨h.watched.congr rfl, h.owned, h.reachable, h.owner⟩
      exact .of_same hsame rfl rfl rfl _

end

/-! ### What comes into being -/

section

variable {st : Router}

/-- Ids are drawn upwards, and a new invocation has the id that was drawn. -/
theorem fresh_step (ho : Orderly st) (hx : ¬ st.store.ids.invocation.Exhausted)
    (input : RouterInput) (key : InvocationKey) :
    st.store.ids.invocation.current ≤ (st.step input).store.ids.invocation.current ∧
      (st.store.pendingCount key < (st.step input).store.pendingCount key →
        st.store.ids.invocation.current < key.2 ∧
          key.2 ≤ (st.step input).store.ids.invocation.current) := by
  obtain heq | ⟨env, storeInput, heq⟩ := store_step st input
  · rw [heq]
    exact ⟨Nat.le_refl _, fun hlt => absurd hlt (Nat.lt_irrefl _)⟩
  · refine ⟨?_, fun hlt => ⟨?_, ?_⟩⟩
    · rw [heq]
      change _ ≤ (st.store.handle env storeInput).ids.invocation.current
      rcases invocationIds_handle env st.store storeInput with hids | hids
      · rw [hids]
      · rw [hids, WampIdGenerator.next_current, WampIdGenerator.nextId_of_not_exhausted hx]
        exact Nat.le_succ _
    · have hchange := change_handle ho.invocations hx env storeInput key.1 key.2
      rw [heq] at hlt
      change _ < (st.store.handle env storeInput).pendingCount key at hlt
      unfold pendingCount at hlt
      generalize (st.store.handle env storeInput).getInvocation key.1 key.2 = o at hchange hlt
      cases hchange with
      | same => exact absurd hlt (Nat.lt_irrefl _)
      | added absent fresh own plain dispatch =>
          rw [fresh, WampIdGenerator.nextId_of_not_exhausted hx]
          exact Nat.lt_succ_self _
      | chunk found dispatch => rw [found] at hlt; exact absurd hlt (Nat.lt_irrefl _)
      | marked found isCancel => rw [found] at hlt; exact absurd hlt (Nat.lt_irrefl _)
      | _ => exact absurd hlt (Nat.not_lt_zero _)
    · obtain ⟨i, hi⟩ : ∃ i, (st.step input).store.getInvocation key.1 key.2 = some i := by
        refine Option.isSome_iff_exists.mp (Bool.eq_true_of_not_eq_false fun hf => ?_)
        change _ < ((st.step input).store.getInvocation key.1 key.2).isSome.toNat at hlt
        rw [hf] at hlt
        exact absurd hlt (Nat.not_lt_zero _)
      exact ((ho.step hx input).invocations.own_key _ _ _ hi).2

end

/-- At most one of pending, taken, announced and answered; before its dispatch, none. -/
structure Accounted (key : InvocationKey) (st : Router) : Prop where
  orderly : Orderly st
  ledger : ∃ holder, Ledger key none st holder ∧ st.balance key holder ≤ 1 ∧
    (st.store.ids.invocation.current < key.2 → st.balance key holder = 0)

theorem Ledger.initial (realms : List String) (key : InvocationKey) (caller : Option Nat) :
    Ledger key caller (initial realms) none where
  watched := fun p task hp => by cases hp
  owned := fun p hp => by cases hp
  reachable := fun _ e he => by cases he
  owner := fun i s hi => by cases hi

theorem Accounted.initial (realms : List String) (key : InvocationKey) :
    Accounted key (initial realms) :=
  ⟨.initial realms, none, .initial realms key none, Nat.zero_le _, fun _ => rfl⟩

theorem Accounted.step {key : InvocationKey} {st : Router} (h : Accounted key st)
    {input : RouterInput} (hsafe : st.TerminalSafe input) : Accounted key (st.step input) := by
  obtain ⟨ho, holder, hledger, hle, hfresh⟩ := h
  refine ⟨ho.step hsafe.1 input, ?_⟩
  obtain ⟨holder', hledger', -, hbalance, -⟩ := hledger.step ho hle hsafe
    (fun hc => by cases hc) (fun s hs => by cases hs) fun i s _ hs => by cases hs
  obtain ⟨hids, hnew⟩ := fresh_step ho hsafe.1 input key
  have hone : (st.step input).store.pendingCount key ≤ 1 := Bool.toNat_le _
  by_cases hlt : st.store.pendingCount key < (st.step input).store.pendingCount key
  · have hzero := hfresh (hnew hlt).1
    refine ⟨holder', hledger', by omega, fun hc => ?_⟩
    exact absurd (hnew hlt).2 (Nat.not_le_of_lt hc)
  · refine ⟨holder', hledger', by omega, fun hc => ?_⟩
    have hzero := hfresh (Nat.lt_of_le_of_lt hids hc)
    omega

/-- **No call is answered twice**, as long as no completion that is not looked at finds its
invocation gone and no accepted CALL fails when it is handed on. -/
theorem terminals_le_one (realms : List String) (inputs : List RouterInput) (st : Router)
    (hrun : Run step TerminalSafe (initial realms) inputs st) (key : InvocationKey) :
    st.terminals key ≤ 1 := by
  have hinv : Accounted key st :=
    hrun.invariant (P := Accounted key) (fun _ _ h hsafe => h.step hsafe) (.initial realms key)
  obtain ⟨-, holder, -, hle, -⟩ := hinv
  unfold balance at hle
  omega

/-- A worker's view of a connection with an open session. -/
def sampleState (s : Nat) : WorkerConnectionState :=
  { phaseOpen := true, sessionId := some s, realmUri := some "realm1", realmSettings := some ⟨[]⟩ }

/-- Sessions 1 and 2 on the connections 1 and 2; session 2 has registered a procedure. -/
def sampleStart : List RouterInput :=
  [.connection 1 (sampleState 1), .connection 2 (sampleState 2),
   .store {} (.command (.sessionOpen "realm1" { id := 1, connectionId := 1 })),
   .store {} (.command (.sessionOpen "realm1" { id := 2, connectionId := 2 })),
   .store {} (.command (.procedureRegister "realm1" 2 "com.proc" .empty 0))]

/-- A handler runs to its next await, with nothing forwarded natively. -/
def sampleResume (port : SendPort) : RouterInput := .resume port [] true none

/-- Session 1 calls the procedure, from its reading to the INVOCATION. -/
def sampleCall : List RouterInput :=
  [.receive 1 1 (.call 7 none "com.proc" .null), sampleResume 1, .authorize 1 .allow,
   sampleResume 1, .execute 1 {}, sampleResume 1]

/-- Session 2 answers invocation 1. -/
def sampleYield (port : SendPort) : List RouterInput :=
  [.receive port 2 (.yield 1 none .null), sampleResume port, .execute port {}, sampleResume port,
   .execute port {}, sampleResume port, .execute port {}, sampleResume port]

theorem terminals_le_one_sample :
    Run step TerminalSafe (initial ["realm1"]) (sampleStart ++ sampleCall ++ sampleYield 2)
        ((sampleStart ++ sampleCall ++ sampleYield 2).foldl step (initial ["realm1"])) ∧
      ((sampleStart ++ sampleCall ++ sampleYield 2).foldl step
        (initial ["realm1"])).terminals ("realm1", 1) ≤ 1 := by
  have hrun : Run step TerminalSafe (initial ["realm1"])
      (sampleStart ++ sampleCall ++ sampleYield 2)
      ((sampleStart ++ sampleCall ++ sampleYield 2).foldl step (initial ["realm1"])) :=
    Run.of_admitted (by decide +kernel)
  exact ⟨hrun, terminals_le_one _ _ _ hrun _⟩

/-- Session 1 cancels its call without a mode; the YIELD of session 2 completes the invocation
between the lookup of the cancellation and its own completion, which is not looked at. -/
def raceInputs : List RouterInput :=
  sampleStart ++ sampleCall ++
  [.receive 2 1 (.cancel 7 none), sampleResume 2, .execute 2 {}, sampleResume 2,
   .authorize 2 .allow, sampleResume 2] ++
  sampleYield 3 ++ [.execute 2 {}, sampleResume 2]

/-- **A cancellation and a final YIELD that cross are both answered.** -/
theorem call_answered_twice :
    ¬ ∀ (realms : List String) (inputs : List RouterInput) (key : InvocationKey),
      (inputs.foldl step (initial realms)).terminals key ≤ 1 := by
  intro h
  have htwo : (raceInputs.foldl step (initial ["realm1"])).terminals ("realm1", 1) = 2 := by
    decide +kernel
  have hle := h ["realm1"] raceInputs ("realm1", 1)
  omega

end Router

end Connectanum
