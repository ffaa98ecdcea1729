import Connectanum.Router.Ledger

/-!
# Router — Replies

No call is left without its answer.  Whoever takes an invocation out of the store while its
caller is open answers the caller, and the terminal message of a callee takes its invocation out.

* `Cleared`: a handler of a callee's terminal message does not end before its invocation is gone;
* `no_lost_reply`: both halves, over every run under `ReplySafe`.
-/

namespace Connectanum

open Collections Machine RouterStateStore

namespace Router

/-! ### The answer of a call -/

/-- Exactly one of pending, taken, announced and answered, for a caller that waits. -/
structure Owed (key : InvocationKey) (s : Nat) (st : Router) : Prop where
  orderly : Orderly st
  ledger : ∃ holder, Ledger key (some s) st holder ∧ st.balance key holder = 1
  /-- The invocation has been dispatched. -/
  drawn : key.2 ≤ st.store.ids.invocation.current

/-- Not dispatched yet. -/
structure Unborn (key : InvocationKey) (s : Nat) (st : Router) : Prop where
  orderly : Orderly st
  ledger : ∃ holder, Ledger key (some s) st holder ∧ st.balance key holder = 0
  undrawn : st.store.ids.invocation.current < key.2

/-- Gone, or another caller's. -/
structure Lost (key : InvocationKey) (s : Nat) (st : Router) : Prop where
  orderly : Orderly st
  drawn : key.2 ≤ st.store.ids.invocation.current
  gone : ∀ i, st.store.getInvocation key.1 key.2 = some i → i.callerSessionId ≠ s

section

variable {key : InvocationKey} {s : Nat} {st : Router} {input : RouterInput}

/-- A record keeps its caller and its callee; one that was not there before has a new id. -/
theorem record_step (ho : Orderly st) (hx : ¬ st.store.ids.invocation.Exhausted)
    (input : RouterInput) {i' : PendingInvocation}
    (h : (st.step input).store.getInvocation key.1 key.2 = some i') :
    (∃ i, st.store.getInvocation key.1 key.2 = some i ∧
        i'.callerSessionId = i.callerSessionId ∧ i'.calleeSessionId = i.calleeSessionId) ∨
      (st.store.getInvocation key.1 key.2 = none ∧ st.store.ids.invocation.current < key.2) := by
  obtain heq | ⟨env, storeInput, heq⟩ := store_step st input
  · rw [heq] at h
    exact .inl ⟨i', h, rfl, rfl⟩
  · have hchange := change_handle ho.invocations hx env storeInput key.1 key.2
    rw [heq] at h
    change (st.store.handle env storeInput).getInvocation key.1 key.2 = some i' at h
    rw [h] at hchange
    generalize ho' : some i' = o at hchange
    cases hchange with
    | same => exact .inl ⟨i', ho'.symm, rfl, rfl⟩
    | added absent fresh own plain dispatch =>
        refine .inr ⟨absent, ?_⟩
        rw [fresh, WampIdGenerator.nextId_of_not_exhausted hx]
        exact Nat.lt_succ_self _
    | chunk found dispatch => cases ho'; exact .inl ⟨_, found, rfl, rfl⟩
    | marked found isCancel => cases ho'; exact .inl ⟨_, found, rfl, rfl⟩
    | _ => cases ho'

theorem pendingCount_eq_one {st : RouterStateStore} {i : PendingInvocation}
    (h : st.getInvocation key.1 key.2 = some i) : st.pendingCount key = 1 := by
  rw [pendingCount, h]
  rfl

theorem pendingCount_eq_zero {st : RouterStateStore}
    (h : st.getInvocation key.1 key.2 = none) : st.pendingCount key = 0 := by
  rw [pendingCount, h]
  rfl

/-- What is gone does not come back. -/
theorem gone_step (ho : Orderly st) (hx : ¬ st.store.ids.invocation.Exhausted)
    (hdrawn : key.2 ≤ st.store.ids.invocation.current)
    (h : st.store.getInvocation key.1 key.2 = none) (input : RouterInput) :
    (st.step input).store.getInvocation key.1 key.2 = none := by
  by_contra hne
  obtain ⟨i', hi'⟩ := Option.ne_none_iff_exists'.mp hne
  obtain ⟨i, hi, -⟩ | ⟨-, hfresh⟩ := record_step ho hx input hi'
  · rw [h] at hi
    cases hi
  · exact absurd hdrawn (Nat.not_le_of_lt hfresh)

theorem owner_step (ho : Orderly st) (hx : ¬ st.store.ids.invocation.Exhausted)
    (hdrawn : key.2 ≤ st.store.ids.invocation.current) {holder : Option SendPort}
    (h : Ledger key (some s) st holder) :
    ∀ i s', (st.step input).store.getInvocation key.1 key.2 = some i → s' ∈ some s →
      i.callerSessionId = s' := by
  intro i' s' hi' hs'
  obtain ⟨i, hi, heq, -⟩ | ⟨-, hfresh⟩ := record_step ho hx input hi'
  · rw [heq]
    exact h.owner i s' hi hs'
  · exact absurd hdrawn (Nat.not_le_of_lt hfresh)

/-- A step that meets an open caller, or leaves the invocation where it is. -/
theorem Owed.step (h : Owed key s st) (hsafe : st.ReplySafe input)
    (hwaits : (st.store.SessionOpen key.1 s ∧ (st.step input).store.SessionOpen key.1 s) ∨
      (st.step input).store.pendingCount key = 1) :
    Owed key s (st.step input) := by
  obtain ⟨ho, ⟨holder, hledger, hone⟩, hdrawn⟩ := h
  have hx := hsafe.1.1
  obtain ⟨hids, hnew⟩ := fresh_step ho hx input key
  obtain ⟨holder', hledger', -, -, hbalance⟩ := hledger.step ho hone.le hsafe.1 (fun _ => hsafe.2)
    (fun s' hs' => by cases hs'; exact hwaits.imp_right .inl) (owner_step ho hx hdrawn hledger)
  refine ⟨ho.step hx input, ⟨holder', hledger', ?_⟩, hdrawn.trans hids⟩
  have hnone : ¬ st.store.pendingCount key < (st.step input).store.pendingCount key :=
    fun hlt => absurd hdrawn (Nat.not_le_of_lt (hnew hlt).1)
  have heq := hbalance rfl
  omega

/-- An invocation of the session `s`, followed from before its dispatch. -/
def Traced (key : InvocationKey) (s : Nat) (st : Router) : Prop :=
  Unborn key s st ∨ (Owed key s st ∧ ∃ i, st.store.getInvocation key.1 key.2 = some i) ∨
    Lost key s st

theorem Unborn.step (h : Unborn key s st) (hsafe : st.ReplySafe input) :
    Traced key s (st.step input) := by
  obtain ⟨ho, ⟨holder, hledger, hzero⟩, hundrawn⟩ := h
  have hx := hsafe.1.1
  have ho' := ho.step hx input
  have hcarried : (∀ i s', (st.step input).store.getInvocation key.1 key.2 = some i →
      s' ∈ some s → i.callerSessionId = s') →
      Carried key (some s) st holder input.taker (st.step input) := fun howner =>
    hledger.step ho (hzero.le.trans (Nat.zero_le 1)) hsafe.1 (fun _ => hsafe.2)
      (fun _ _ => .inr (.inr hzero)) howner
  have hpending : st.store.pendingCount key = 0 := by
    unfold balance at hzero
    omega
  cases hget : (st.step input).store.getInvocation key.1 key.2 with
  | none =>
      by_cases hdrawn : key.2 ≤ (st.step input).store.ids.invocation.current
      · refine .inr (.inr ⟨ho', hdrawn, fun i hi => ?_⟩)
        rw [hget] at hi
        cases hi
      · obtain ⟨holder', hledger', -, -, hbalance⟩ := hcarried fun i s' hi => by
          rw [hget] at hi
          cases hi
        refine .inl ⟨ho', ⟨holder', hledger', ?_⟩, Nat.lt_of_not_le hdrawn⟩
        rw [hbalance rfl, hzero, hpending, pendingCount_eq_zero hget]
  | some i =>
      have hdrawn := (ho'.invocations.own_key _ _ _ hget).2
      by_cases hs : i.callerSessionId = s
      · obtain ⟨holder', hledger', -, -, hbalance⟩ := hcarried fun i' s' hi' hs' => by
          rw [hget] at hi'
          cases hi'
          cases hs'
          exact hs
        refine .inr (.inl ⟨⟨ho', ⟨holder', hledger', ?_⟩, hdrawn⟩, i, hget⟩)
        rw [hbalance rfl, hzero, hpending, pendingCount_eq_one hget]
      · refine .inr (.inr ⟨ho', hdrawn, fun i' hi' => ?_⟩)
        rw [hget] at hi'
        cases hi'
        exact hs

theorem Lost.step (h : Lost key s st) (hx : ¬ st.store.ids.invocation.Exhausted) :
    Lost key s (st.step input) := by
  refine ⟨h.orderly.step hx input, h.drawn.trans (fresh_step h.orderly hx input key).1,
    fun i' hi' => ?_⟩
  obtain ⟨i, hi, heq, -⟩ | ⟨-, hfresh⟩ := record_step h.orderly hx input hi'
  · rw [heq]
    exact h.gone i hi
  · exact absurd h.drawn (Nat.not_le_of_lt hfresh)

theorem Traced.step (h : Traced key s st) (hsafe : st.ReplySafe input) :
    Traced key s (st.step input) := by
  obtain h | ⟨h, i, hi⟩ | h := h
  · exact h.step hsafe
  · cases hget : (st.step input).store.getInvocation key.1 key.2 with
    | none =>
        have hids := (fresh_step h.orderly hsafe.1.1 input key).1
        refine .inr (.inr ⟨h.orderly.step hsafe.1.1 input, h.drawn.trans hids, fun i' hi' => ?_⟩)
        rw [hget] at hi'
        cases hi'
    | some i' =>
        exact .inr (.inl ⟨h.step hsafe (.inr (pendingCount_eq_one hget)), i', hget⟩)
  · exact .inr (.inr (h.step hsafe.1.1))

theorem Traced.initial (realms : List String) : Traced key s (initial realms) := by
  by_cases hpos : 0 < key.2
  · exact .inl ⟨.initial realms, ⟨none, .initial realms key (some s), rfl⟩, hpos⟩
  · exact .inr (.inr ⟨.initial realms, Nat.le_of_not_lt hpos, fun i hi => by cases hi⟩)

/-- In a run under `ReplySafe`, the account of a pending invocation is in order. -/
theorem owed_of_run {realms : List String} {inputs : List RouterInput}
    (hrun : Run Router.step ReplySafe (Router.initial realms) inputs st) {i : PendingInvocation}
    (hi : st.store.getInvocation key.1 key.2 = some i) : Owed key i.callerSessionId st := by
  obtain h | ⟨h, -⟩ | h : Traced key i.callerSessionId st :=
    hrun.invariant (P := Traced key i.callerSessionId) (fun _ _ h hsafe => h.step hsafe)
      (.initial realms)
  · obtain ⟨-, ⟨holder, -, hzero⟩, -⟩ := h
    have hone := pendingCount_eq_one hi
    unfold balance at hzero
    omega
  · exact h
  · exact absurd rfl (h.gone i hi)

end

/-! ### Who took it -/

section

variable {key : InvocationKey} {s : Nat} {st : Router} {input : RouterInput}

/-- The invocation is out of the store, and the handler that has its token is `taker`. -/
structure Taken (key : InvocationKey) (s : Nat) (taker : Option SendPort) (st : Router) : Prop where
  orderly : Orderly st
  drawn : key.2 ≤ st.store.ids.invocation.current
  gone : st.store.getInvocation key.1 key.2 = none
  ledger : ∃ holder, Ledger key (some s) st holder ∧ st.balance key holder = 1 ∧
    ∀ p, holder = some p → taker = some p

/-- The step that takes it out. -/
theorem Owed.taken (h : Owed key s st) (hsafe : st.ReplySafe input)
    (hopen : st.store.SessionOpen key.1 s) (hafter : (st.step input).store.SessionOpen key.1 s)
    {i : PendingInvocation} (hi : st.store.getInvocation key.1 key.2 = some i)
    (hgone : (st.step input).store.getInvocation key.1 key.2 = none) :
    Taken key s input.taker (st.step input) := by
  obtain ⟨ho, ⟨holder, hledger, hone⟩, hdrawn⟩ := h
  have hx := hsafe.1.1
  have hpending := pendingCount_eq_one hi
  have hnone : holder = none := by
    cases holder with
    | none => rfl
    | some p =>
        rw [balance, Option.isSome_some, Bool.toNat_true] at hone
        omega
  obtain ⟨holder', hledger', htaker, -, hbalance⟩ := hledger.step ho hone.le hsafe.1
    (fun _ => hsafe.2) (fun s' hs' => by cases hs'; exact .inl ⟨hopen, hafter⟩)
    (owner_step ho hx hdrawn hledger)
  refine ⟨ho.step hx input, hdrawn.trans (fresh_step ho hx input key).1, hgone, holder', hledger',
    ?_, fun p hp => ?_⟩
  · rw [hbalance rfl, hone, pendingCount_eq_zero hgone, Nat.zero_sub]
  · obtain hp' | ⟨hp', -⟩ := htaker p hp
    · rw [hnone] at hp'
      cases hp'
    · exact hp'

/-- Every later step, while the caller stays open. -/
theorem Taken.step {taker : Option SendPort} (h : Taken key s taker st)
    (hsafe : st.ReplySafe input) (hopen : st.store.SessionOpen key.1 s)
    (hafter : (st.step input).store.SessionOpen key.1 s) :
    Taken key s taker (st.step input) := by
  obtain ⟨ho, hdrawn, hgone, holder, hledger, hone, hholder⟩ := h
  have hx := hsafe.1.1
  have hgone' := gone_step ho hx hdrawn hgone input
  obtain ⟨holder', hledger', htaker, -, hbalance⟩ := hledger.step ho hone.le hsafe.1
    (fun _ => hsafe.2) (fun s' hs' => by cases hs'; exact .inl ⟨hopen, hafter⟩)
    (owner_step ho hx hdrawn hledger)
  refine ⟨ho.step hx input, hdrawn.trans (fresh_step ho hx input key).1, hgone', holder', hledger',
    ?_, fun p hp => ?_⟩
  · rw [hbalance rfl, hone, pendingCount_eq_zero hgone', Nat.zero_sub]
  · obtain hp' | ⟨-, hpos⟩ := htaker p hp
    · exact hholder p hp'
    · rw [pendingCount_eq_zero hgone] at hpos
      exact absurd hpos (Nat.lt_irrefl 0)

end

section

variable {key : InvocationKey} {s : Nat} {st st' : Router} {inputs : List RouterInput}

theorem open_of_run
    (hrun : Run step (fun st x => ReplySafe st x ∧ st.store.SessionOpen key.1 s) st inputs st')
    (hend : st'.store.SessionOpen key.1 s) : st.store.SessionOpen key.1 s := by
  cases hrun with
  | nil => exact hend
  | cons hok _ => exact hok.2

theorem Taken.of_run {taker : Option SendPort} (h : Taken key s taker st)
    (hrun : Run Router.step (fun st x => ReplySafe st x ∧ st.store.SessionOpen key.1 s) st inputs st')
    (hend : st'.store.SessionOpen key.1 s) : Taken key s taker st' := by
  induction hrun with
  | nil => exact h
  | cons hok hrest ih => exact ih (h.step hok.1 hok.2 (open_of_run hrest hend)) hend

end

theorem Taken.answered {key : InvocationKey} {s : Nat} {taker : Option SendPort} {st : Router}
    (h : Taken key s taker st) :
    st.terminals key = 1 ∨ (st.terminals key = 0 ∧
      ((∃ port, taker = some port ∧ (st.tasks.get? port).isSome) ∨
        ∃ e ∈ st.timeouts, e.key = key)) := by
  obtain ⟨-, -, hgone, holder, hledger, hone, hholder⟩ := h
  unfold balance at hone
  rw [pendingCount_eq_zero hgone] at hone
  cases holder with
  | some p =>
      rw [Option.isSome_some, Bool.toNat_true] at hone
      exact .inr ⟨by omega, .inl ⟨p, hholder p rfl, hledger.owned p rfl⟩⟩
  | none =>
      rw [Option.isSome_none, Bool.toNat_false] at hone
      by_cases hexp : st.expiring key = 0
      · exact .inl (by omega)
      · obtain ⟨e, he, hkey⟩ := List.countP_pos_iff.mp (Nat.pos_of_ne_zero hexp)
        exact .inr ⟨by omega, .inr ⟨e, he, of_decide_eq_true hkey⟩⟩

end Router

/-! ### The callee's last message -/

/-- Not a progressive result. -/
def InternalResponse.isTerminal : InternalResponse → Bool
  | .result progress _ _ _ => !progress
  | _ => true

/-- The callee's last message about the invocation `id`: a final YIELD, or an ERROR. -/
def ClientMessage.endsInvocation (id : Nat) : ClientMessage → Bool
  | .yield invocationRequestId options _ =>
      invocationRequestId == id && !(options.map (·.progress)).getD false
  | .error requestId _ _ _ => requestId == id
  | _ => false

namespace Clears

/-- What a handler learns or does about the invocation `key`: it is gone. -/
def clears (key : InvocationKey) : (q : Query) → q.Answer → Bool
  | .store _ u (.completeInvocation id), _ => decide ((u, id) = key)
  | .store _ u (.getInvocation id), r =>
      match r with
      | .invocation none => decide ((u, id) = key)
      | _ => false
  | _, _ => false

/-- A callee with a connection is still open there, and its invocation is not waiting for the end
of a cancellation. -/
def admits (key : InvocationKey) (callee : Nat) (external : Bool) : (q : Query) → q.Answer → Prop
  | .look, view => external = true → view.state.phaseOpen = true ∧
      view.state.realmUri = some key.1 ∧ view.state.sessionId = some callee
  | .store point u (.getInvocation id), r => (u, id) = key → ∃ o, r = .invocation o ∧
      ∀ i ∈ o, i.calleeSessionId = callee ∧
        (point = .yieldGet false → i.cancelRequested = false)
  | _, _ => True

end Clears

/-- The monitor of a handler that is to take the invocation `key` out. -/
def clearance (key : InvocationKey) (callee : Nat) (external : Bool) :
    Monitor Post Query Query.Answer Bool where
  send t _ := some t
  admits _ q a := Clears.admits key callee external q a
  answer t q a := t || Clears.clears key q a
  final t := t = true

namespace Clears

variable {key : InvocationKey} {callee : Nat} {external : Bool}

/-- Once the invocation is gone, nothing is left to do. -/
theorem obeys_true (script : Handler) : (clearance key callee external).Obeys true script := by
  induction script with
  | done => rfl
  | send p rest ih => exact ⟨true, rfl, ih⟩
  | ask q next ih => exact fun a _ => ih a

theorem obeys_complete {point : Point} {next : StoreReply → Handler} :
    (clearance key callee external).Obeys false
      (.ask (.store point key.1 (.completeInvocation key.2)) next) := by
  intro r _
  have htrue : (clearance key callee external).answer false
      (.store point key.1 (.completeInvocation key.2)) r = true := by
    simp [clearance, clears]
  rw [htrue]
  exact obeys_true _

/-- The reading of the invocation: it is gone, or the handler goes on with its record. -/
theorem obeys_get {point : Point} {next : StoreReply → Handler}
    (h : ∀ i, i.calleeSessionId = callee →
      (point = .yieldGet false → i.cancelRequested = false) →
      (clearance key callee external).Obeys false (next (.invocation (some i)))) :
    (clearance key callee external).Obeys false (.ask (.store point key.1 (.getInvocation key.2)) next) := by
  intro r hadm
  obtain ⟨o, rfl, hrecord⟩ := hadm rfl
  cases o with
  | none =>
      have htrue : (clearance key callee external).answer false
          (.store point key.1 (.getInvocation key.2)) (.invocation none) = true := by
        simp [clearance, clears]
      rw [htrue]
      exact obeys_true _
  | some i => exact h i (hrecord i rfl).1 (hrecord i rfl).2

theorem obeys_look {next : View → Handler} (hext : external = true)
    (h : ∀ view : View, view.state.phaseOpen = true → view.state.realmUri = some key.1 →
      view.state.sessionId = some callee → (clearance key callee external).Obeys false (next view)) :
    (clearance key callee external).Obeys false (.ask .look next) :=
  fun view hview => h view (hview hext).1 (hview hext).2.1 (hview hext).2.2

theorem obeys_yield {c : Nat} {options : Option YieldOptions} {payload : Payload}
    (hfinal : ((options.map (·.progress)).getD false) = false) :
    (clearance key callee true).Obeys false
      (handleSessionMessage c (.yield key.2 options payload)) := by
  refine obeys_look rfl fun view hopen _ hsession => ?_
  simp only [hopen, hsession, Bool.not_true, Option.isNone_some, Bool.or_self, Bool.false_eq_true,
    if_false]
  refine obeys_look rfl fun view _ hrealm _ => ?_
  simp only [hrealm]
  refine obeys_get fun i hcallee hcancel => ?_
  rw [hfinal] at hcancel
  refine obeys_look rfl fun view _ _ hsession => ?_
  simp only [hsession, hcallee, hcancel rfl, hfinal, ne_eq, not_true_eq_false, if_false,
    Bool.false_and, Bool.false_eq_true]
  exact obeys_complete

theorem obeys_error {c : Nat} {details : Dict} {errorUri : Option String} {payload : Payload} :
    (clearance key callee true).Obeys false
      (handleSessionMessage c (.error key.2 details errorUri payload)) := by
  refine obeys_look rfl fun view hopen _ hsession => ?_
  simp only [hopen, hsession, Bool.not_true, Option.isNone_some, Bool.or_self, Bool.false_eq_true,
    if_false]
  refine obeys_look rfl fun view _ hrealm _ => ?_
  simp only [hrealm]
  refine obeys_get fun i hcallee _ => ?_
  refine obeys_look rfl fun view _ _ hsession => ?_
  simp only [hsession, hcallee, ne_eq, not_true_eq_false, if_false]
  exact obeys_complete

theorem obeys_relayError {errorUri : String} {details : Dict} {payload : Payload} :
    (clearance key callee external).Obeys false
      (sendInternalInvocationError key.1 key.2 callee errorUri details payload) := by
  refine obeys_get fun i hcallee _ => ?_
  simp only [StoreReply.asInvocation, hcallee, ne_eq, not_true_eq_false, if_false]
  exact obeys_complete

/-- The last answer of an internal callee. -/
theorem obeys_relay {procedure : String} {response : InternalResponse}
    (hfinal : response.isTerminal = true) :
    (clearance key callee external).Obeys false
      (relayResponse key.1 key.2 callee procedure response) := by
  cases response with
  | result progress ppt details payload =>
      have hprogress : progress = false := by simpa [InternalResponse.isTerminal] using hfinal
      subst hprogress
      refine obeys_get fun i hcallee _ => ?_
      simp only [StoreReply.asInvocation, hcallee, ne_eq, not_true_eq_false, if_false,
        Bool.false_and, Bool.false_eq_true]
      split
      · exact obeys_complete
      · exact obeys_complete
  | error error details payload => exact obeys_relayError
  | invalid => exact obeys_relayError

end Clears

namespace Router

/-- The handler at `port` is to take the invocation out; for a callee with a connection, it is a
handler of that connection. -/
structure Clearing (key : InvocationKey) (callee : Nat) (connection : Option Nat)
    (port : SendPort) (st : Router) : Prop where
  orderly : Orderly st
  drawn : key.2 ≤ st.store.ids.invocation.current
  record : ∀ i, st.store.getInvocation key.1 key.2 = some i → i.calleeSessionId = callee
  state : ∀ c ∈ connection, (st.stateOf c).phaseOpen = true ∧
    (st.stateOf c).realmUri = some key.1 ∧ (st.stateOf c).sessionId = some callee
  taken : port ≤ st.lastPort
  task : (st.tasks.get? port = none ∧ st.store.getInvocation key.1 key.2 = none) ∨
    ∃ task t, st.tasks.get? port = some task ∧ (∀ c ∈ connection, task.connectionId = c) ∧
      (clearance key callee connection.isSome).Obeys t task.script ∧
      (t = true → st.store.getInvocation key.1 key.2 = none)

section

variable {key : InvocationKey} {callee : Nat} {connection : Option Nat} {port : SendPort}
  {st : Router} {input : RouterInput}

/-- What the handler gets to see of the store. -/
theorem Clearing.admits (h : Clearing key callee connection port st) {env : StoreEnv}
    (hreply : st.replySafe (.execute port env) = true) {c' : Nat} {point : Point} {u : String}
    {request : RealmRequest} {next : StoreReply → Handler}
    (ht : st.tasks.get? port = some ⟨c', .queued, .ask (.store point u request) next⟩)
    {r : StoreReply}
    (hr : (st.store.handle env (.command (request.command u port))).replies = [(port, r)]) :
    Clears.admits key callee connection.isSome (.store point u request) r := by
  cases request with
  | getInvocation id =>
      rintro rfl
      obtain rfl : r = .invocation (st.store.getInvocation u id) :=
        reply_unique h.orderly.replies hr (replies_get env st.store u id port)
      refine ⟨_, rfl, fun i hi => ⟨h.record i hi, fun hpoint => ?_⟩⟩
      subst hpoint
      have hi' : st.store.getInvocation u id = some i := hi
      simpa [replySafe, ht, hi'] using hreply
  | _ => trivial

theorem passes_clearance (t : Bool) (posts : List Post) :
    (clearance key callee connection.isSome).passes t posts = some t := by
  induction posts with
  | nil => rfl
  | cons p rest ih => exact ih

/-- An answer that tells nothing of the invocation. -/
theorem obeys_answer {t : Bool} {q : Query} {next : q.Answer → Handler} {a : q.Answer}
    (h : (clearance key callee connection.isSome).Obeys t (.ask q next)) (hadm : Clears.admits key callee connection.isSome q a)
    (hnot : Clears.clears key q a = false) : (clearance key callee connection.isSome).Obeys t (next a) := by
  have hnext := h a hadm
  change (clearance key callee connection.isSome).Obeys (t || Clears.clears key q a) (next a) at hnext
  rwa [hnot, Bool.or_false] at hnext

/-- A command that tells the handler that the invocation is gone leaves it gone. -/
theorem gone_of_clears (ho : Orderly st) (hx : ¬ st.store.ids.invocation.Exhausted)
    (hdrawn : key.2 ≤ st.store.ids.invocation.current) {env : StoreEnv} {c' : Nat} {point : Point}
    {u : String} {request : RealmRequest} {next : StoreReply → Handler}
    (ht : st.tasks.get? port = some ⟨c', .queued, .ask (.store point u request) next⟩)
    {r : StoreReply}
    (hr : (st.store.handle env (.command (request.command u port))).replies = [(port, r)])
    (h : Clears.clears key (.store point u request) r = true) :
    (st.step (.execute port env)).store.getInvocation key.1 key.2 = none := by
  cases request with
  | completeInvocation id =>
      obtain rfl : (u, id) = key := of_decide_eq_true h
      rw [step, execute, ht]
      dsimp only
      rw [absorb_store]
      exact (getInvocation_complete st.store u id u id).trans (if_pos ⟨rfl, rfl⟩)
  | getInvocation id =>
      obtain rfl : r = .invocation (st.store.getInvocation u id) :=
        reply_unique ho.replies hr (replies_get env st.store u id port)
      cases hget : st.store.getInvocation u id with
      | none =>
          rw [hget] at h
          obtain rfl : (u, id) = key := of_decide_eq_true h
          exact gone_step ho hx hdrawn hget _
      | some i =>
          rw [hget] at h
          cases h
  | _ => cases h

/-- What the handler reads on the spot. -/
theorem admits_now {script : Handler} {native : List Nat} {retains : Bool}
    {failure : Option Failure} {q : Query} {a : q.Answer} {t : Bool}
    (hstate : ∀ c ∈ connection, (st.stateOf c).phaseOpen = true ∧
      (st.stateOf c).realmUri = some key.1 ∧ (st.stateOf c).sessionId = some callee)
    {c : Nat} (hc : ∀ c' ∈ connection, c = c')
    (ha : (st.viewOf ⟨c, .ready, script⟩ native retains failure).now q = some a) :
    (clearance key callee connection.isSome).admits t q a ∧ (clearance key callee connection.isSome).answer t q a = t := by
  cases q with
  | look =>
      cases ha
      refine ⟨fun hext => ?_, Bool.or_false t⟩
      obtain ⟨c', hc'⟩ := Option.isSome_iff_exists.mp hext
      obtain rfl := hc c' hc'
      exact hstate c hc'
  | handOver key' toInternal => exact ⟨trivial, Bool.or_false t⟩
  | reply key' => exact ⟨trivial, Bool.or_false t⟩
  | _ => cases ha

/-- **The step lemma of a clearing handler.** -/
theorem Clearing.step (h : Clearing key callee connection port st) (hsafe : st.ReplySafe input)
    (hconn : ∀ c ∈ connection, ∀ state, input ≠ .connection c state) :
    Clearing key callee connection port (st.step input) := by
  have hx := hsafe.1.1
  have ho := h.orderly
  have hgone : st.store.getInvocation key.1 key.2 = none →
      (st.step input).store.getInvocation key.1 key.2 = none :=
    fun hnone => gone_step ho hx h.drawn hnone input
  refine ⟨ho.step hx input, h.drawn.trans (fresh_step ho hx input key).1, fun i' hi' => ?_, ?_,
    h.taken.trans (lastPort_step st input), ?_⟩
  · obtain ⟨i, hi, -, heq⟩ | ⟨-, hfresh⟩ := record_step ho hx input hi'
    · rw [heq]
      exact h.record i hi
    · exact absurd h.drawn (Nat.not_le_of_lt hfresh)
  · intro c hc
    rw [stateOf_step (hconn c hc)]
    exact h.state c hc
  · have hmoved := moved_step ho.settled input port
    obtain ⟨hnone, hget⟩ | ⟨⟨c', stage, script⟩, t, htask, hc, hobeys, hcleared⟩ := h.task
    · refine .inl ⟨?_, hgone hget⟩
      generalize (st.step input).tasks.get? port = after at hmoved
      cases hmoved with
      | same => exact hnone
      | received _ fresh => exact absurd h.taken (Nat.not_le_of_lt fresh)
      | resumed _ found => rw [hnone] at found; cases found
      | authorized _ found => rw [hnone] at found; cases found
      | responded _ found => rw [hnone] at found; cases found
      | executed _ found => rw [hnone] at found; cases found
      | waiting _ found => rw [hnone] at found; cases found
      | dispatched found => rw [hnone] at found; cases found
    · generalize hafter : (st.step input).tasks.get? port = after at hmoved
      cases hmoved with
      | same => exact .inr ⟨_, t, htask, hc, hobeys, fun ht => hgone (hcleared ht)⟩
      | received _ fresh => exact absurd h.taken (Nat.not_le_of_lt fresh)
      | @resumed native retains failure _ _ isInput found =>
          rw [htask] at found
          cases found
          obtain ⟨x, hx', hrest⟩ := hobeys.segment
            (st.viewOf ⟨c', .ready, script⟩ native retains failure).now
            fun q hq a ha t => admits_now h.state hc ha
          rw [passes_clearance] at hx'
          cases hx'
          cases hstop : Task.stop c' (script.remainder
              (st.viewOf ⟨c', .ready, script⟩ native retains failure).now) with
          | none => exact .inl ⟨rfl, hgone (hcleared (final_of_stop hrest hstop))⟩
          | some task =>
              refine .inr ⟨task, t, rfl, fun c hc' => ?_, ?_, fun ht => hgone (hcleared ht)⟩
              · rw [(Task.stop_script hstop).2]
                exact hc c hc'
              · rw [(Task.stop_script hstop).1]
                exact hrest
      | authorized _ found =>
          rw [htask] at found
          cases found
          exact .inr ⟨_, t, rfl, hc, obeys_answer (q := .authorize _) hobeys trivial rfl,
            fun ht => hgone (hcleared ht)⟩
      | responded _ found =>
          rw [htask] at found
          cases found
          exact .inr ⟨_, t, rfl, hc, obeys_answer (q := .response) hobeys trivial rfl,
            fun ht => hgone (hcleared ht)⟩
      | executed isInput found direct reply =>
          subst isInput
          have hadm := h.admits hsafe.2 found reply
          have hclear := gone_of_clears ho hx h.drawn found reply
          rw [htask] at found
          cases found
          refine .inr ⟨_, _, rfl, hc, hobeys _ hadm, fun ht => ?_⟩
          obtain ht | ht := Bool.or_eq_true_iff.mp ht
          · exact hgone (hcleared ht)
          · exact hclear ht
      | waiting _ found =>
          rw [htask] at found
          cases found
          exact .inr ⟨_, t, rfl, hc, hobeys, fun ht => hgone (hcleared ht)⟩
      | @dispatched _ _ _ _ request _ _ _ _ found dispatch reply handled =>
          rw [htask] at found
          cases found
          cases request <;> cases dispatch
          exact .inr ⟨_, t, rfl, hc, obeys_answer (q := .store _ _ _) hobeys trivial rfl,
            fun ht => hgone (hcleared ht)⟩

/-- In a run that leaves the callee's connection alone, the invocation is gone when the handler
has ended. -/
theorem Clearing.gone_of_run {inputs : List RouterInput} {st' : Router}
    (h : Clearing key callee connection port st)
    (hrun : Run Router.step
      (fun st x => ReplySafe st x ∧ ∀ c ∈ connection, ∀ state, x ≠ .connection c state)
      st inputs st') (hended : st'.tasks.get? port = none) :
    st'.store.getInvocation key.1 key.2 = none := by
  have hend : Clearing key callee connection port st' :=
    hrun.invariant (P := Clearing key callee connection port) (fun _ _ h hok => h.step hok.1 hok.2) h
  obtain ⟨-, hgone⟩ | ⟨task, t, htask, -⟩ := hend.task
  · exact hgone
  · rw [hended] at htask
    cases htask

end

/-! ### Both halves -/

/-- The invocation was taken out of the store by `input`, which led to `st`: the caller, open all
the while, has exactly one answer, or the handler (or the boss, for a timeout) has still to send
it. -/
def AnswersRemoval (key : InvocationKey) (s : Nat) (input : RouterInput) (st : Router) : Prop :=
  ∀ ys st', Run step (fun st x => ReplySafe st x ∧ st.store.SessionOpen key.1 s) st ys st' →
    st'.store.SessionOpen key.1 s →
    st'.terminals key = 1 ∨ (st'.terminals key = 0 ∧
      ((∃ port, input.taker = some port ∧ (st'.tasks.get? port).isSome) ∨
        ∃ e ∈ st'.timeouts, e.key = key))

/-- The handler at `port` is in progress in `st`: once it has ended, with the state of its
`connection` as it was, the invocation is not pending. -/
def EndsInvocation (key : InvocationKey) (connection : Option Nat) (port : SendPort)
    (st : Router) : Prop :=
  ∀ ys st', Run step
      (fun st x => ReplySafe st x ∧ ∀ c ∈ connection, ∀ state, x ≠ .connection c state) st ys st' →
    st'.tasks.get? port = none → st'.store.getInvocation key.1 key.2 = none

/-- **No lost reply.**  In every state that a run under `ReplySafe` reaches, and for every pending
invocation: a step that takes it out while its caller is open is answered exactly once, by the
handler it belongs to; and the callee's final YIELD or ERROR, or the last answer of an internal
callee, does not leave it pending. -/
theorem no_lost_reply (realms : List String) (inputs : List RouterInput) (st : Router)
    (hrun : Run step ReplySafe (initial realms) inputs st) (key : InvocationKey)
    (i : PendingInvocation) (hi : st.store.getInvocation key.1 key.2 = some i) :
    (∀ input, ReplySafe st input → st.store.SessionOpen key.1 i.callerSessionId →
      (st.step input).store.getInvocation key.1 key.2 = none →
      AnswersRemoval key i.callerSessionId input (st.step input)) ∧
    (∀ port c message, ReplySafe st (.receive port c message) → st.lastPort < port →
      message.endsInvocation key.2 = true →
      (st.stateOf c).phaseOpen = true → (st.stateOf c).realmUri = some key.1 →
      (st.stateOf c).sessionId = some i.calleeSessionId →
      EndsInvocation key (some c) port (st.step (.receive port c message))) ∧
    (∀ port c procedure response, ReplySafe st (.respond port response) →
      st.tasks.get? port = some ⟨c, .waiting, .ask .response
        (relayResponse key.1 key.2 i.calleeSessionId procedure)⟩ →
      response.isTerminal = true →
      EndsInvocation key none port (st.step (.respond port response))) := by
  have howed := owed_of_run hrun hi
  have hrecord : ∀ i', st.store.getInvocation key.1 key.2 = some i' →
      i'.calleeSessionId = i.calleeSessionId := by
    intro i' hi'
    rw [hi] at hi'
    cases hi'
    rfl
  refine ⟨fun input hsafe hopen hgone ys st' hrest hopen' => ?_,
    fun port c message hsafe hport hends hphase hrealm hsession ys st' hrest hended => ?_,
    fun port c procedure response hsafe htask hends ys st' hrest hended => ?_⟩
  · have hafter := open_of_run hrest hopen'
    exact ((howed.taken hsafe hopen hafter hi hgone).of_run hrest hopen').answered
  · have hstart : Clearing key i.calleeSessionId (some c) port (st.step (.receive port c message)) := by
      have heq : st.step (.receive port c message) =
          { st with
            lastPort := port
            tasks := st.tasks.insert port ⟨c, .ready, handleSessionMessage c message⟩ } :=
        if_pos hport
      have horderly := howed.orderly.step hsafe.1.1 (.receive port c message)
      rw [heq] at horderly ⊢
      refine ⟨horderly, howed.drawn, hrecord, ?_, Nat.le_refl _, .inr ⟨_, false,
        LinkedMap.get?_insert_self .., fun c' hc' => Option.some.inj hc', ?_, nofun⟩⟩
      · rintro c' ⟨⟩
        exact ⟨hphase, hrealm, hsession⟩
      · cases message with
        | yield id options payload =>
            simp only [ClientMessage.endsInvocation, Bool.and_eq_true, beq_iff_eq,
              Bool.not_eq_true'] at hends
            obtain ⟨rfl, hfinal⟩ := hends
            exact Clears.obeys_yield hfinal
        | error id details errorUri payload =>
            obtain rfl : id = key.2 := by simpa [ClientMessage.endsInvocation] using hends
            exact Clears.obeys_error
        | _ => cases hends
    exact hstart.gone_of_run hrest hended
  · have hstart : Clearing key i.calleeSessionId none port (st.step (.respond port response)) := by
      have heq : st.step (.respond port response) = st.setTask port (some ⟨c, .ready,
          relayResponse key.1 key.2 i.calleeSessionId procedure response⟩) := by
        rw [step, respond, htask]
      have hport := (howed.orderly.ports port (by rw [htask]; rfl)).2
      have horderly := howed.orderly.step hsafe.1.1 (.respond port response)
      rw [heq] at horderly ⊢
      exact ⟨horderly, howed.drawn, hrecord, (fun _ hc => by cases hc), hport, .inr ⟨_, false,
        LinkedMap.get?_insert_self .., (fun _ hc => by cases hc), Clears.obeys_relay hends, nofun⟩⟩
    exact hstart.gone_of_run hrest hended

/-- Session 1 has called the procedure and waits for session 2. -/
def sampleCalled : Router := (sampleStart ++ sampleCall).foldl step (initial ["realm1"])

theorem no_lost_reply_sample :
    ∃ i, sampleCalled.store.getInvocation "realm1" 1 = some i ∧ i.callerSessionId = 1 ∧
      ∀ input, ReplySafe sampleCalled input → sampleCalled.store.SessionOpen "realm1" 1 →
        (sampleCalled.step input).store.getInvocation "realm1" 1 = none →
        AnswersRemoval ("realm1", 1) 1 input (sampleCalled.step input) := by
  have hrun : Run step ReplySafe (initial ["realm1"]) (sampleStart ++ sampleCall) sampleCalled :=
    Run.of_admitted (by decide +kernel)
  have hcaller : (sampleCalled.store.getInvocation "realm1" 1).map (·.callerSessionId) = some 1 := by
    decide +kernel
  obtain ⟨i, hi, hc⟩ := Option.map_eq_some_iff.mp hcaller
  obtain ⟨hanswers, -⟩ := no_lost_reply _ _ _ hrun ("realm1", 1) i hi
  rw [hc] at hanswers
  exact ⟨i, hi, hc, hanswers⟩

/-- **The callee's session is closed and its caller never hears of it**: the store drops the
pending invocation, and nothing is left that would answer the call. -/
theorem invocation_dropped_silently :
    ¬ ∀ (realms : List String) (inputs : List RouterInput) (input : RouterInput)
        (key : InvocationKey) (i : PendingInvocation) (st : Router),
      st = inputs.foldl step (initial realms) →
      st.store.getInvocation key.1 key.2 = some i →
      (st.step input).store.getInvocation key.1 key.2 = none →
      (st.step input).store.SessionOpen key.1 i.callerSessionId →
      (st.step input).terminals key = 1 ∨ ((st.step input).terminals key = 0 ∧
        ((∃ port, input.taker = some port ∧ ((st.step input).tasks.get? port).isSome) ∨
          ∃ e ∈ (st.step input).timeouts, e.key = key)) := by
  intro h
  have hcaller : (sampleCalled.store.getInvocation "realm1" 1).map (·.callerSessionId) = some 1 := by
    decide +kernel
  obtain ⟨i, hi, hc⟩ := Option.map_eq_some_iff.mp hcaller
  have hnone : (sampleCalled.step (.store {} (.command
      (.sessionClose "realm1" 2)))).terminals ("realm1", 1) = 0 := by decide +kernel
  have hquiet : (sampleCalled.step (.store {} (.command
      (.sessionClose "realm1" 2)))).timeouts = [] := by decide +kernel
  have hopen : (((sampleCalled.step (.store {} (.command (.sessionClose "realm1"
      2)))).store.realms.get? "realm1").bind fun r => r.sessions.get? 1).map (·.id) = some 1 := by
    decide +kernel
  obtain ⟨session, hsession, hid⟩ := Option.map_eq_some_iff.mp hopen
  obtain ⟨realm, hrealm, hsession⟩ := Option.bind_eq_some_iff.mp hsession
  have hone := h ["realm1"] (sampleStart ++ sampleCall)
    (.store {} (.command (.sessionClose "realm1" 2))) ("realm1", 1) i sampleCalled rfl hi
    (by decide +kernel) ⟨realm, session, hrealm, by rw [hc]; exact hsession, by rw [hc]; exact hid⟩
  rw [hnone, hquiet] at hone
  rcases hone with hone | ⟨-, ⟨port, htaker, -⟩ | ⟨e, he, -⟩⟩
  · cases hone
  · cases htaker
  · cases he

end Router

end Connectanum
