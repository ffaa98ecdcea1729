import Connectanum.Router.Watch

/-!
# Router — Tokens

The bookkeeping of terminal replies.  Whoever takes an invocation out of the store gets a token
for it, and a terminal reply costs one.  `tokens key caller` is the monitor of that for the
invocation `key`: without a caller it says that no handler sends more than it has tokens for;
with the session of the caller, which is open all the while, it says that no handler ends with a
token left.
-/

namespace Connectanum

open Collections Machine

namespace Point

/-- The completions after which a terminal reply is sent without looking at their answer. -/
def unchecked : Point → Bool
  | .cancelSkip | .relayErrorComplete | .relayRefused (some _) => true
  | _ => false

/-- The completions after which the caller is told nothing. -/
def silent : Point → Bool
  | .yieldForeign | .yieldDisallowed | .yieldAbandon | .errorForeign => true
  | .relayMismatch | .relayErrorMismatch | .relayRefused none => true
  | _ => false

end Point

namespace Tokens

/-- The tokens that an answer brings. -/
def freed (key : InvocationKey) : (q : Query) → q.Answer → Nat
  | .store _ u (.completeInvocation id), r =>
      match r with
      | .invocation (some _) => if (u, id) = key then 1 else 0
      | _ => 0
  | .store _ u (.cancelInvocation id _ false), r =>
      match r with
      | .flag true => if (u, id) = key then 1 else 0
      | _ => 0
  | _, _ => 0

/-- The answers of the store that the monitor counts on: where the reply is due, the caller is
found. -/
def admitsReply (key : InvocationKey) (caller : Option Nat) (n : Nat) (point : Point)
    (u : String) : RealmRequest → StoreReply → Prop
  | .completeInvocation id, r => (u, id) = key →
      (point.unchecked → ∃ i, r = .invocation (some i)) ∧
      (caller.isSome → ∃ o, r = .invocation o ∧ (point.silent → o = none))
  | .cancelInvocation id _ _, r => (u, id) = key → caller.isSome → ∃ b, r = .flag b
  | .getInvocation id, r => (u, id) = key → ∀ i, r = .invocation (some i) →
      ∀ s ∈ caller, i.callerSessionId = s
  | .snapshot, r => n ≠ 0 → u = key.1 → ∀ s ∈ caller, ∃ response, r = .snapshot response ∧
      (findConnectionIdForSession response.snapshot s).isSome
  | _, _ => True

def admits (key : InvocationKey) (caller : Option Nat) (n : Nat) : (q : Query) → q.Answer → Prop
  | .handOver key' toInternal, view => key' = key → view.failure = none ∧
      (toInternal → view.state.realmUri.isSome ∧ view.state.sessionId.isSome)
  | .reply key', view => key' = key → caller.isSome → view.failure = none
  | .store point u request, r => admitsReply key caller n point u request r
  | _, _ => True

end Tokens

/-- The monitor of the terminal replies for the invocation `key`. -/
def tokens (key : InvocationKey) (caller : Option Nat) :
    Monitor Post Query Query.Answer Nat where
  send n p := if p.terminal key then (if n = 0 then none else some (n - 1)) else some n
  admits n q a := Tokens.admits key caller n q a
  answer n q a := n + Tokens.freed key q a
  final n := caller.isSome → n = 0

namespace Tokens

variable {key : InvocationKey} {caller : Option Nat} {n : Nat}

/-- Enough tokens for `k` replies, and no more than these where a caller waits. -/
def Covers (caller : Option Nat) (n k : Nat) : Prop := k ≤ n ∧ (caller.isSome → n = k)

theorem obeys_done (h : caller.isSome → n = 0) : (tokens key caller).Obeys n .done := h

theorem obeys_send {p : Post} {rest : Handler} (hp : p.terminal key = false)
    (h : (tokens key caller).Obeys n rest) : (tokens key caller).Obeys n (.send p rest) :=
  ⟨n, by simp [tokens, hp], h⟩

theorem obeys_last {p : Post} (h : Covers caller n (if p.terminal key then 1 else 0)) :
    (tokens key caller).Obeys n (.send p .done) := by
  obtain ⟨hle, heq⟩ := h
  cases hp : p.terminal key with
  | false =>
      simp only [hp, Bool.false_eq_true, if_false] at heq
      exact obeys_send hp (obeys_done heq)
  | true =>
      simp only [hp, if_true] at hle heq
      refine ⟨n - 1, ?_, fun hc => by rw [heq hc]⟩
      simp only [tokens, hp, if_true]
      rw [if_neg (by omega)]

/-- A query whose answer brings no token. -/
theorem obeys_ask {q : Query} {next : q.Answer → Handler} (hz : ∀ a, freed key q a = 0)
    (h : ∀ a, admits key caller n q a → (tokens key caller).Obeys n (next a)) :
    (tokens key caller).Obeys n (.ask q next) := by
  intro a hadm
  change (tokens key caller).Obeys (n + freed key q a) (next a)
  rw [hz]
  exact h a hadm

theorem asInvocation_ok {r : StoreReply} {o : Option PendingInvocation}
    (h : r.asInvocation = .ok o) : r = .invocation o := by
  cases r <;> cases h
  rfl

theorem freed_complete_error {r : StoreReply} {f : Failure} (h : r.asInvocation = .error f)
    (point : Point) (u : String) (id : Nat) :
    freed key (.store point u (.completeInvocation id)) r = 0 := by
  cases r with
  | invocation o => cases h
  | _ => rfl

/-- A completion. -/
theorem obeys_complete {point : Point} {u : String} {id : Nat} {next : StoreReply → Handler}
    (hsome : ∀ i, (caller.isSome → point.silent → (u, id) ≠ key) →
      (tokens key caller).Obeys (n + if (u, id) = key then 1 else 0) (next (.invocation (some i))))
    (hnone : (point.unchecked → (u, id) ≠ key) →
      (tokens key caller).Obeys n (next (.invocation none)))
    (hother : ∀ r f, r.asInvocation = .error f → (caller.isSome → (u, id) ≠ key) →
      (tokens key caller).Obeys n (next r)) :
    (tokens key caller).Obeys n (.ask (.store point u (.completeInvocation id)) next) := by
  intro r hadm
  cases hr : r.asInvocation with
  | error f =>
      change (tokens key caller).Obeys (n + freed key _ r) (next r)
      rw [freed_complete_error hr]
      refine hother r f hr fun hc heq => ?_
      obtain ⟨o, rfl, -⟩ := (hadm heq).2 hc
      cases hr
  | ok o =>
      obtain rfl := asInvocation_ok hr
      cases o with
      | none =>
          refine hnone fun hun heq => ?_
          obtain ⟨i, hi⟩ := (hadm heq).1 hun
          cases hi
      | some i =>
          refine hsome i fun hc hsilent heq => ?_
          obtain ⟨o, ho, hnil⟩ := (hadm heq).2 hc
          cases ho
          cases hnil hsilent

theorem asFlag_ok {r : StoreReply} {b : Bool} (h : r.asFlag = .ok b) : r = .flag b := by
  cases r <;> cases h
  rfl

/-- A cancellation. -/
theorem obeys_cancel {point : Point} {u : String} {id : Nat} {mode : String} {waitForAck : Bool}
    {next : StoreReply → Handler}
    (htrue : (tokens key caller).Obeys
      (n + if waitForAck = false ∧ (u, id) = key then 1 else 0) (next (.flag true)))
    (hfalse : (tokens key caller).Obeys n (next (.flag false)))
    (hother : ∀ r f, r.asFlag = .error f → (tokens key caller).Obeys n (next r)) :
    (tokens key caller).Obeys n
      (.ask (.store point u (.cancelInvocation id mode waitForAck)) next) := by
  intro r hadm
  cases hr : r.asFlag with
  | error f =>
      have hz : freed key (.store point u (.cancelInvocation id mode waitForAck)) r = 0 := by
        cases r with
        | flag b => cases hr
        | _ => cases waitForAck <;> rfl
      change (tokens key caller).Obeys (n + freed key _ r) (next r)
      rw [hz]
      exact hother r f hr
  | ok b =>
      obtain rfl := asFlag_ok hr
      cases waitForAck with
      | false =>
          cases b with
          | false => exact hfalse
          | true =>
              simp only [true_and] at htrue
              exact htrue
      | true =>
          cases b with
          | false => exact hfalse
          | true => exact htrue

/-- The caller is looked up: where it waits, it is found. -/
theorem obeys_findCaller {point : Point} {u : String} {id : Nat} {s : Nat}
    {onError : Failure → Handler} {onGone : Handler} {onFound : Nat → Handler}
    (hcaller : (u, id) = key → ∀ s' ∈ caller, s = s')
    (herror : (caller.isSome → n ≠ 0 → (u, id) ≠ key) →
      ∀ f, (tokens key caller).Obeys n (onError f))
    (hgone : (caller.isSome → n ≠ 0 → (u, id) ≠ key) → (tokens key caller).Obeys n onGone)
    (hfound : ∀ c, (tokens key caller).Obeys n (onFound c)) :
    (tokens key caller).Obeys n (.ask (.store point u .snapshot) fun reply =>
      match reply.asSnapshot with
      | .error f => onError f
      | .ok snapshot =>
          match findConnectionIdForSession snapshot s with
          | none => onGone
          | some c => onFound c) := by
  refine obeys_ask (fun _ => rfl) fun r hadm => ?_
  have hfind : caller.isSome → n ≠ 0 → (u, id) = key → ∃ response, r = .snapshot response ∧
      (findConnectionIdForSession response.snapshot s).isSome := by
    intro hc hn heq
    obtain ⟨s', hs'⟩ := Option.isSome_iff_exists.mp hc
    rw [hcaller heq s' hs']
    exact hadm hn (by rw [← heq]) s' hs'
  split
  · next f hr =>
    refine herror (fun hc hn heq => ?_) f
    obtain ⟨response, rfl, -⟩ := hfind hc hn heq
    cases hr
  · next snapshot hr =>
    split
    · next hf =>
      refine hgone fun hc hn heq => ?_
      obtain ⟨response, rfl, hs⟩ := hfind hc hn heq
      cases hr
      rw [hf] at hs
      cases hs
    · exact hfound _

/-- The record that a handler reads has the caller's session. -/
theorem caller_of_get {point : Point} {u : String} {id : Nat} {r : StoreReply}
    {i : PendingInvocation}
    (h : admits key caller n (.store point u (.getInvocation id)) r)
    (hi : r.asInvocation = .ok (some i)) :
    (u, id) = key → ∀ s ∈ caller, i.callerSessionId = s :=
  fun heq s hs => h heq i (asInvocation_ok hi) s hs

theorem covers_add {k : Nat} (hn : caller.isSome → n = 0) : Covers caller (n + k) k :=
  ⟨Nat.le_add_left _ _, fun hc => by rw [hn hc, Nat.zero_add]⟩

theorem covers_of_ne {u : String} {id : Nat} (hne : (u, id) ≠ key) (hn : caller.isSome → n = 0) :
    Covers caller n (if (u, id) = key then 1 else 0) := by
  rw [if_neg hne]
  exact ⟨Nat.zero_le _, hn⟩

/-- A completion after which nothing is sent. -/
theorem obeys_abandon {point : Point} {u : String} {id : Nat} {next : StoreReply → Handler}
    (hn : caller.isSome → n = 0) (hp : point.silent = true)
    (hnext : ∀ o, next (.invocation o) = .done)
    (hother : ∀ r f, r.asInvocation = .error f → (tokens key caller).Obeys n (next r)) :
    (tokens key caller).Obeys n (.ask (.store point u (.completeInvocation id)) next) := by
  refine obeys_complete (fun i hsilent => ?_) (fun _ => ?_) fun r f hr _ => hother r f hr
  · rw [hnext]
    intro hc
    rw [if_neg (hsilent hc hp)]
    exact hn hc
  · rw [hnext]
    exact hn

/-- A completion that is not looked at: only the record itself is an answer to count on. -/
theorem obeys_unchecked {point : Point} {u : String} {id : Nat} {next : StoreReply → Handler}
    (hp : point.unchecked = true) (hn : caller.isSome → n = 0)
    (htail : ∀ o n', Covers caller n' (if (u, id) = key then 1 else 0) →
      (tokens key caller).Obeys n' (next (.invocation o)))
    (hother : ∀ r f, r.asInvocation = .error f → (tokens key caller).Obeys n (next r)) :
    (tokens key caller).Obeys n (.ask (.store point u (.completeInvocation id)) next) := by
  refine obeys_complete (fun i _ => ?_) (fun hun => ?_) fun r f hr _ => hother r f hr
  · exact htail (some i) _ (covers_add hn)
  · exact htail none n (covers_of_ne (hun hp) hn)

/-- A terminal reply of the invocation `(u, id)`, the last thing sent. -/
theorem obeys_terminal {p : Post} {u : String} {id : Nat}
    (hp : p.terminal key = decide ((u, id) = key))
    (h : Covers caller n (if (u, id) = key then 1 else 0)) :
    (tokens key caller).Obeys n (.send p .done) := by
  refine obeys_last ?_
  rw [hp]
  simpa using h

@[simp] theorem invocation_beq (k k' : InvocationKey) :
    (Stream.invocation k == Stream.invocation k') = decide (k = k') := by
  by_cases h : k = k'
  · simp [h]
  · rw [decide_eq_false h]
    exact beq_eq_false_iff_ne.mpr fun heq => h (Stream.invocation.inj heq)

/-! ### The relay of an internal callee -/

theorem obeys_sendInternalInvocationError (hn : caller.isSome → n = 0) {u : String}
    {id callee : Nat} {errorUri : String} {details : Dict} {payload : Payload} :
    (tokens key caller).Obeys n
      (sendInternalInvocationError u id callee errorUri details payload) := by
  refine obeys_ask (fun _ => rfl) fun r hget => ?_
  split
  · exact hn
  · exact hn
  · next i hi =>
    have hcaller := caller_of_get hget hi
    split
    · exact obeys_abandon hn rfl (fun _ => rfl) fun _ _ _ => hn
    · refine obeys_unchecked rfl hn (fun o n' hc => ?_) fun r f hr => ?_
      · have hlost : (caller.isSome → n' ≠ 0 → (u, id) ≠ key) → caller.isSome → n' = 0 := by
          intro hne hs
          by_contra hn'
          exact hn' ((hc.2 hs).trans (if_neg (hne hs hn')))
        dsimp only [StoreReply.asInvocation]
        split
        · exact obeys_terminal (by simp [Post.terminal, InternalMessage.isTerminal]) hc
        · exact obeys_findCaller hcaller (fun hne _ => hlost hne) (fun hne => hlost hne) fun c =>
            obeys_terminal (by simp [Post.terminal, RouterMessage.isTerminal]) hc
      · simp only [hr]
        exact hn

theorem obeys_relayResult {u : String} {id callee : Nat} {i : PendingInvocation} {progress : Bool}
    (hc : Covers caller n (if (u, id) = key ∧ progress = false then 1 else 0))
    (hcaller : (u, id) = key → ∀ s ∈ caller, i.callerSessionId = s) {ppt : PPTOptions}
    {details : Dict} {payload : Payload} :
    (tokens key caller).Obeys n
      (relayResult u id callee i progress ppt details payload) := by
  have hlost : (caller.isSome → n ≠ 0 → (u, id) ≠ key) → caller.isSome → n = 0 := by
    intro hne hs
    by_contra hn
    exact hn ((hc.2 hs).trans (if_neg fun h => hne hs hn h.1))
  unfold relayResult
  split
  · refine obeys_last ?_
    simpa [Post.terminal, InternalMessage.isTerminal] using hc
  · refine obeys_findCaller hcaller (fun hne _ => ?_) (fun hne => hlost hne) fun c => ?_
    · exact obeys_sendInternalInvocationError (hlost hne)
    · refine obeys_ask (fun _ => rfl) fun view _ => obeys_last ?_
      simpa [Post.terminal, RouterMessage.isTerminal, relayedDetails] using hc

theorem obeys_refuseResult (hn : caller.isSome → n = 0) {u : String} {id callee : Nat}
    {i : PendingInvocation} {errorUri text : String} :
    (tokens key caller).Obeys n (refuseResult u id callee i errorUri text) := by
  unfold refuseResult
  cases i.callerInternalSendPort with
  | none =>
      refine obeys_complete (fun i hsilent => ?_) (fun _ => ?_) fun r f hr _ => ?_
      · refine obeys_sendInternalInvocationError (fun hs => ?_)
        rw [if_neg (hsilent hs rfl)]
        exact hn hs
      · exact obeys_sendInternalInvocationError hn
      · simp only [hr]
        exact obeys_sendInternalInvocationError hn
  | some port =>
      refine obeys_unchecked rfl hn (fun o n' hc => ?_) fun r f hr => ?_
      · exact obeys_terminal (by simp [Post.terminal, InternalMessage.isTerminal]) hc
      · simp only [hr]
        exact obeys_sendInternalInvocationError hn

theorem obeys_sendInternalInvocationResult (hn : caller.isSome → n = 0) {u : String}
    {id callee : Nat} {progress : Bool} {ppt : PPTOptions} {details : Dict} {payload : Payload} :
    (tokens key caller).Obeys n
      (sendInternalInvocationResult u id callee progress ppt details payload) := by
  refine obeys_ask (fun _ => rfl) fun r hget => ?_
  split
  · exact obeys_sendInternalInvocationError hn
  · exact hn
  · next i hi =>
    have hcaller := caller_of_get hget hi
    split
    · refine obeys_abandon hn rfl (fun _ => rfl) fun r f hr => ?_
      simp only [hr]
      exact obeys_sendInternalInvocationError hn
    · split
      · exact obeys_refuseResult hn
      · split
        · exact obeys_refuseResult hn
        · split
          · next hprogress =>
            refine obeys_ask (fun _ => rfl) fun r _ => ?_
            split
            · exact obeys_sendInternalInvocationError hn
            · exact hn
            · refine obeys_relayResult ?_ hcaller
              simpa [hprogress] using ⟨Nat.zero_le _, hn⟩
          · next hprogress =>
            refine obeys_complete (fun i' _ => ?_) (fun _ => hn) fun r f hr _ => ?_
            · refine obeys_relayResult ?_ hcaller
              simpa [hprogress] using covers_add hn
            · simp only [hr]
              exact obeys_sendInternalInvocationError hn

/-! ### The handlers -/

/-- An error that belongs to no invocation, the last thing sent. -/
theorem obeys_sessionError (hn : caller.isSome → n = 0) {c requestType requestId : Nat}
    {reason : String} {message : Option String} :
    (tokens key caller).Obeys n
      (.send (sessionError c requestType requestId reason message none) .done) :=
  obeys_send rfl hn

theorem obeys_authorize (hn : caller.isSome → n = 0) {c requestType requestId : Nat}
    {action : AuthorizationAction} {uri : String} {options : Dict}
    {policy : Option PermissionMatchPolicy} {allowed : Handler}
    (h : (tokens key caller).Obeys n allowed) :
    (tokens key caller).Obeys n
      (authorizeStateAction c requestType requestId action uri options policy allowed) := by
  refine obeys_ask (fun _ => rfl) fun view _ => ?_
  split
  · refine obeys_ask (fun _ => rfl) fun decision _ => ?_
    split
    · exact h
    · exact obeys_sessionError hn
  · exact obeys_sessionError hn

theorem obeys_handleSubscribe (hn : caller.isSome → n = 0) {c requestId : Nat}
    {options : Option SubscribeOptions} {topic : String} :
    (tokens key caller).Obeys n (handleSubscribe c requestId options topic) := by
  refine obeys_ask (fun _ => rfl) fun view _ => ?_
  split
  · exact obeys_sessionError hn
  · dsimp only
    split
    · exact obeys_sessionError hn
    · refine obeys_authorize hn (obeys_ask (fun _ => rfl) fun view _ => ?_)
      split
      · exact obeys_sessionError hn
      · refine obeys_ask (fun _ => rfl) fun r _ => ?_
        split
        · exact obeys_sessionError hn
        · refine obeys_ask (fun _ => rfl) fun r _ => ?_
          split
          · exact obeys_sessionError hn
          · exact obeys_send rfl hn

theorem obeys_handleRegister (hn : caller.isSome → n = 0) {c requestId : Nat}
    {options : Option RegisterOptions} {procedure : String} :
    (tokens key caller).Obeys n (handleRegister c requestId options procedure) := by
  refine obeys_ask (fun _ => rfl) fun view _ => ?_
  split
  · exact obeys_sessionError hn
  · split
    · exact obeys_sessionError hn
    · dsimp only
      split
      · exact obeys_sessionError hn
      · refine obeys_authorize hn (obeys_ask (fun _ => rfl) fun view _ => ?_)
        split
        · exact obeys_sessionError hn
        · refine obeys_ask (fun _ => rfl) fun r _ => ?_
          split
          · exact obeys_sessionError hn
          · refine obeys_ask (fun _ => rfl) fun r _ => ?_
            split
            · exact obeys_sessionError hn
            · exact obeys_send rfl hn

/-- A publication has no reply. -/
theorem terminal_publicationPosts {view : View} {c requestId publisher : Nat}
    {options : Option PublishOptions} {topic : String} {payload : Payload}
    {routing : PublicationRouting} {p : Post}
    (hp : p ∈ publicationPosts view c requestId options publisher topic payload routing) :
    p.terminal key = false := by
  simp only [publicationPosts, List.mem_append, List.mem_map, List.mem_filterMap] at hp
  obtain ((hp | hp) | ⟨m, -, hm⟩) | ⟨m, -, rfl⟩ := hp
  · split at hp
    · rw [List.mem_singleton.mp hp]
      rfl
    · cases hp
  · split at hp
    · obtain ⟨m, -, rfl⟩ := List.mem_map.mp hp
      rfl
    · cases hp
  · obtain ⟨port, -, rfl⟩ := Option.map_eq_some_iff.mp hm
    rfl
  · rfl

theorem passes_of_plain {posts : List Post} (h : ∀ p ∈ posts, p.terminal key = false) :
    (tokens key caller).passes n posts = some n := by
  induction posts with
  | nil => rfl
  | cons p rest ih =>
      rw [Monitor.passes]
      simp only [tokens, h p (List.mem_cons_self ..), Bool.false_eq_true, if_false,
        Option.bind_some]
      exact ih fun q hq => h q (List.mem_cons_of_mem _ hq)

theorem obeys_handlePublish (hn : caller.isSome → n = 0) {c requestId : Nat}
    {options : Option PublishOptions} {topic : String} {payload : Payload} :
    (tokens key caller).Obeys n (handlePublish c requestId options topic payload) := by
  refine obeys_ask (fun _ => rfl) fun view _ => ?_
  split
  · exact hn
  · split
    · exact obeys_sessionError hn
    · refine obeys_authorize hn (obeys_ask (fun _ => rfl) fun view _ => ?_)
      split
      · refine obeys_ask (fun _ => rfl) fun r _ => ?_
        split
        · exact obeys_sessionError hn
        · refine obeys_ask (fun _ => rfl) fun view _ => ?_
          exact Monitor.Obeys.sendAll (passes_of_plain fun _ => terminal_publicationPosts) hn
      · exact obeys_sessionError hn

/-- An accepted CALL hands its invocation on; its reply is not its own to send. -/
theorem obeys_forwardInvocation (hn : caller.isSome → n = 0) {c requestId : Nat}
    {options : Option CallOptions} {procedure : String} {payload : Payload}
    {dispatch : InvocationDispatchResult} {key' : InvocationKey} {view : View}
    (hview : admits key caller n (.handOver key' dispatch.calleeInternalSendPort.isSome) view) :
    (tokens key caller).Obeys n
      (forwardInvocation c requestId options procedure payload dispatch key' view) := by
  have hother : ∀ {p : Post}, p.stream = some (.invocation key') → key' ≠ key →
      p.terminal key = false := by
    intro p hp hne
    cases p <;> simp_all [Post.terminal, Post.stream]
  unfold forwardInvocation
  split
  · next port hport =>
    have hinternal : key' = key → view.failure = none ∧ view.state.realmUri.isSome ∧
        view.state.sessionId.isSome := by
      intro heq
      exact ⟨(hview heq).1, (hview heq).2 (by rw [hport]; rfl)⟩
    unfold handleInternalInvocation
    split
    · split
      · next f hf =>
        refine obeys_send (hother rfl fun heq => ?_) hn
        rw [(hinternal heq).1] at hf
        cases hf
      · refine obeys_send (by simp [Post.terminal, InternalMessage.isTerminal]) ?_
        refine obeys_ask (fun _ => rfl) fun response _ => ?_
        cases response with
        | result progress ppt details payload => exact obeys_sendInternalInvocationResult hn
        | error error details payload => exact obeys_sendInternalInvocationError hn
        | invalid => exact obeys_sendInternalInvocationError hn
    · next hopen =>
      refine obeys_send (hother rfl fun heq => ?_) hn
      obtain ⟨-, hr, hs⟩ := hinternal heq
      obtain ⟨realmUri, hr⟩ := Option.isSome_iff_exists.mp hr
      obtain ⟨s, hs⟩ := Option.isSome_iff_exists.mp hs
      exact hopen _ _ hr hs
  · split
    · exact obeys_send (by simp [Post.terminal, RouterMessage.isTerminal]) hn
    · split
      · next f hf =>
        refine obeys_send (hother rfl fun heq => ?_) hn
        rw [(hview heq).1] at hf
        cases hf
      · exact obeys_send (by simp [Post.terminal, RouterMessage.isTerminal]) hn

theorem obeys_handleCall (hn : caller.isSome → n = 0) {c requestId : Nat}
    {options : Option CallOptions} {procedure : String} {payload : Payload} :
    (tokens key caller).Obeys n (handleCall c requestId options procedure payload) := by
  refine obeys_ask (fun _ => rfl) fun view _ => ?_
  split
  · exact obeys_sessionError hn
  · split
    · exact hn
    · split
      · exact obeys_sessionError hn
      · refine obeys_authorize hn (obeys_ask (fun _ => rfl) fun view _ => ?_)
        split
        · refine obeys_ask (fun _ => rfl) fun r _ => ?_
          split
          · exact obeys_sessionError hn
          · exact obeys_ask (fun _ => rfl) fun view hview => obeys_forwardInvocation hn hview
        · exact obeys_sessionError hn

theorem obeys_interruptCallee {u : String} {i : PendingInvocation} {mode : CancelMode}
    {fail : Failure → Handler} {rest : Handler}
    (hfail : (caller.isSome → n ≠ 0 → (u, i.invocationId) ≠ key) → ∀ f, (tokens key caller).Obeys n (fail f))
    (hrest : (tokens key caller).Obeys n rest) :
    (tokens key caller).Obeys n (interruptCallee u i mode fail rest) := by
  have hinterrupt : ∀ c, (tokens key caller).Obeys n (.send (.frame .forward
      { connectionId := c, message := .interrupt i.invocationId mode.name }) rest) :=
    fun _ => obeys_send rfl hrest
  unfold interruptCallee
  split
  · exact obeys_send rfl hrest
  · exact hinterrupt _
  · refine obeys_ask (fun _ => rfl) fun r hadm => ?_
    split
    · next f hr =>
      refine hfail (fun hs hn heq => ?_) f
      obtain ⟨s, hs⟩ := Option.isSome_iff_exists.mp hs
      obtain ⟨response, rfl, -⟩ := hadm hn (by rw [← heq]) s hs
      cases hr
    · split
      · exact hrest
      · exact hinterrupt _

/-- A cancellation that does not wait for the callee takes the invocation out, and its ERROR is
the reply. -/
theorem obeys_handleCancel (hn : caller.isSome → n = 0) {c requestId : Nat}
    {mode : Option String} :
    (tokens key caller).Obeys n (handleCancel c requestId mode) := by
  have hack : ∀ {key' : InvocationKey}, (cancelAck c requestId key').terminal key =
      decide (key' = key) := by
    intro key'
    simp [cancelAck, Post.terminal, RouterMessage.isTerminal]
  refine obeys_ask (fun _ => rfl) fun view _ => ?_
  split
  · exact obeys_sessionError hn
  · exact obeys_sessionError hn
  · next u s _ _ =>
    refine obeys_ask (fun _ => rfl) fun r _ => ?_
    split
    · exact obeys_sessionError hn
    · exact obeys_sessionError hn
    · next i hi =>
      refine obeys_authorize hn ?_
      split
      · exact obeys_sessionError hn
      · refine obeys_unchecked rfl hn (fun o n' hc => obeys_terminal hack hc) fun r f hr => ?_
        simp only [hr]
        exact obeys_sessionError hn
      · next killMode _ _ =>
        refine obeys_cancel ?_ (obeys_sessionError hn) fun r f hr => ?_
        · refine obeys_interruptCallee (fun hne f => obeys_sessionError fun hs => ?_) ?_
          · by_contra hn'
            refine hn' ?_
            rw [hn hs, if_neg fun h => hne hs hn' h.2]
          · by_cases hwait : killMode = .kill
            · simp only [hwait, decide_true, Bool.true_eq_false, false_and, if_false, if_true]
              exact hn
            · simp only [hwait, decide_false, true_and, if_false]
              exact obeys_terminal hack (covers_add hn)
        · simp only [hr]
          exact obeys_sessionError hn

/-! ### YIELD and ERROR -/

theorem obeys_replyToCaller {point : Point} {u : String} {c id : Nat} {i : PendingInvocation}
    {internal : InternalMessage} {external : RouterMessage} {callerGone : Handler}
    (hsame : internal.isTerminal = external.isTerminal)
    (hc : Covers caller n (if (u, id) = key ∧ external.isTerminal then 1 else 0))
    (hcaller : (u, id) = key → ∀ s ∈ caller, i.callerSessionId = s)
    (hgone : (caller.isSome → n = 0) → (tokens key caller).Obeys n callerGone) :
    (tokens key caller).Obeys n
      (replyToCaller point u c id i internal external callerGone) := by
  have hlost : (caller.isSome → n ≠ 0 → (u, id) ≠ key) → caller.isSome → n = 0 := by
    intro hne hs
    by_contra hn
    exact hn ((hc.2 hs).trans (if_neg fun h => hne hs hn h.1))
  have hfail : ∀ {view : View} {f : Failure},
      admits key caller n (.reply (u, id)) view → view.failure = some f →
      caller.isSome → n = 0 := by
    intro view f hview hf
    refine hlost fun hs _ heq => ?_
    rw [hview heq hs] at hf
    cases hf
  unfold replyToCaller
  dsimp only
  split
  · refine obeys_ask (fun _ => rfl) fun view hview => ?_
    split
    · next f hf => exact obeys_sessionError (hfail hview hf)
    · refine obeys_last ?_
      simpa [Post.terminal, hsame] using hc
  · refine obeys_findCaller hcaller (fun hne _ => obeys_sessionError (hlost hne))
      (fun hne => obeys_send rfl (hgone (hlost hne))) fun c => ?_
    refine obeys_ask (fun _ => rfl) fun view hview => ?_
    split
    · refine obeys_last ?_
      simpa [Post.terminal] using hc
    · split
      · next f hf => exact obeys_sessionError (hfail hview hf)
      · refine obeys_last ?_
        simpa [Post.terminal] using hc

/-- The callee's invocation is over, and the caller is told nothing. -/
theorem obeys_abandoned {point : Point} {c id : Nat} {u : String} (hp : point.silent = true)
    (hn : caller.isSome → n = 0) :
    (tokens key caller).Obeys n (.ask (.store point u (.completeInvocation id)) fun answer =>
      match StoreReply.asInvocation answer with
      | .error f => .send (invocationErrorToCallee c id (invocationFailure f).1
          (some (invocationFailure f).2)) .done
      | .ok _ => .done) := by
  refine obeys_abandon hn hp (fun _ => rfl) fun r f hr => ?_
  simp only [hr]
  exact obeys_sessionError hn

theorem obeys_handleYield (hn : caller.isSome → n = 0) {c id : Nat}
    {options : Option YieldOptions} {payload : Payload} :
    (tokens key caller).Obeys n (handleYield c id options payload) := by
  refine obeys_ask (fun _ => rfl) fun view _ => ?_
  split
  · exact obeys_sessionError hn
  · next u _ =>
    dsimp only
    refine obeys_ask (fun _ => rfl) fun r hget => ?_
    split
    · exact obeys_sessionError hn
    · exact obeys_sessionError hn
    · next i hi =>
      have hcaller := caller_of_get hget hi
      refine obeys_ask (fun _ => rfl) fun view _ => ?_
      split
      · exact obeys_send rfl (obeys_abandoned rfl hn)
      · split
        · exact obeys_sessionError hn
        · split
          · exact obeys_send rfl (obeys_abandoned rfl hn)
          · split
            · next hprogress =>
              refine obeys_ask (fun _ => rfl) fun r _ => ?_
              split
              · exact obeys_sessionError hn
              · exact obeys_sessionError hn
              · refine obeys_replyToCaller ?_ ?_ hcaller fun hn' => ?_
                · simp [InternalMessage.isTerminal, RouterMessage.isTerminal, hprogress]
                · simpa [RouterMessage.isTerminal, hprogress] using ⟨Nat.zero_le n, hn⟩
                · exact obeys_abandoned rfl hn'
            · next hprogress =>
              refine obeys_complete (fun i' _ => ?_) (fun _ => obeys_sessionError hn)
                fun r f hr _ => ?_
              · refine obeys_replyToCaller ?_ ?_ hcaller fun hn' => ?_
                · simp [InternalMessage.isTerminal, RouterMessage.isTerminal, hprogress]
                · simpa [RouterMessage.isTerminal, hprogress] using covers_add hn
                · exact obeys_abandoned rfl hn'
              · simp only [hr]
                exact obeys_sessionError hn

theorem obeys_handleInvocationError (hn : caller.isSome → n = 0) {c id : Nat} {details : Dict}
    {errorUri : Option String} {payload : Payload} :
    (tokens key caller).Obeys n (handleInvocationError c id details errorUri payload) := by
  refine obeys_ask (fun _ => rfl) fun view _ => ?_
  split
  · exact obeys_sessionError hn
  · next u _ =>
    refine obeys_ask (fun _ => rfl) fun r hget => ?_
    split
    · exact obeys_sessionError hn
    · exact obeys_sessionError hn
    · next i hi =>
      have hcaller := caller_of_get hget hi
      refine obeys_ask (fun _ => rfl) fun view _ => ?_
      split
      · refine obeys_send rfl (obeys_abandon hn rfl (fun _ => rfl) fun r f hr => ?_)
        simp only [hr]
        exact obeys_sessionError hn
      · refine obeys_complete (fun i' _ => ?_) (fun _ => obeys_sessionError hn) fun r f hr _ => ?_
        · refine obeys_replyToCaller rfl ?_ hcaller fun hn' => hn'
          simpa [RouterMessage.isTerminal] using covers_add hn
        · simp only [hr]
          exact obeys_sessionError hn

/-- **Every handler** keeps its tokens. -/
theorem obeys_handleSessionMessage (key : InvocationKey) (caller : Option Nat) (c : Nat)
    (message : ClientMessage) :
    (tokens key caller).Obeys 0 (handleSessionMessage c message) := by
  refine obeys_ask (fun _ => rfl) fun view _ => ?_
  split
  · split
    · exact fun _ => rfl
    · exact obeys_sessionError fun _ => rfl
  · cases message with
    | subscribe requestId options topic => exact obeys_handleSubscribe fun _ => rfl
    | register requestId options procedure => exact obeys_handleRegister fun _ => rfl
    | publish requestId options topic payload => exact obeys_handlePublish fun _ => rfl
    | call requestId options procedure payload => exact obeys_handleCall fun _ => rfl
    | cancel requestId mode => exact obeys_handleCancel fun _ => rfl
    | yield id options payload => exact obeys_handleYield fun _ => rfl
    | error id details errorUri payload => exact obeys_handleInvocationError fun _ => rfl

end Tokens

end Connectanum
