import Connectanum.Client.Responses

/-!
# Client — Interrupts

What an INTERRUPT means to the INVOCATIONs of other ids: nothing.  A run with it and a run without
it look the same to every other id (`Same`).
-/

namespace Connectanum

namespace Callee

open Collections

namespace Session

/-- Two sessions that look the same to one request id. -/
structure Same (k : Nat) (s s' : Session) : Prop where
  count : s'.invocations.length = s.invocations.length
  invocation : ∀ i : Nat, (s'.invocations[i]?).filter (·.requestId = k) =
    (s.invocations[i]?).filter (·.requestId = k)
  pending : s'.pendingInvocations.get? k = s.pendingInvocations.get? k
  interrupt : s'.pendingInvocationInterrupts.get? k = s.pendingInvocationInterrupts.get? k
  sent : s'.sent.filter (·.requestId = k) = s.sent.filter (·.requestId = k)
  delivered : s'.delivered.filter (·.1 = k) = s.delivered.filter (·.1 = k)
  registrations : s'.registrations = s.registrations
  goodbyeSent : s'.goodbyeSent = s.goodbyeSent
  incomingClosed : s'.incomingClosed = s.incomingClosed

variable {k : Nat} {s s' s'' : Session} {t : Transport} {i requestId : Nat}
  {invocation : Invocation} {response : Response} {e : Emission}

namespace Same

theorem refl (s : Session) : Same k s s :=
  ⟨rfl, fun _ => rfl, rfl, rfl, rfl, rfl, rfl, rfl, rfl⟩

theorem symm (h : Same k s s') : Same k s' s :=
  ⟨h.count.symm, fun i => (h.invocation i).symm, h.pending.symm, h.interrupt.symm, h.sent.symm,
    h.delivered.symm, h.registrations.symm, h.goodbyeSent.symm, h.incomingClosed.symm⟩

theorem trans (h : Same k s s') (h' : Same k s' s'') : Same k s s'' :=
  ⟨h'.count.trans h.count, fun i => (h'.invocation i).trans (h.invocation i),
    h'.pending.trans h.pending, h'.interrupt.trans h.interrupt, h'.sent.trans h.sent,
    h'.delivered.trans h.delivered, h'.registrations.trans h.registrations,
    h'.goodbyeSent.trans h.goodbyeSent, h'.incomingClosed.trans h.incomingClosed⟩

theorem live (h : Same k s s') : s'.live = s.live := by
  rw [Session.live, h.goodbyeSent, h.incomingClosed, ← Session.live]

/-- The INVOCATIONs of the id are the same. -/
theorem getElem? (h : Same k s s') (hget : s.invocations[i]? = some invocation)
    (hid : invocation.requestId = k) : s'.invocations[i]? = some invocation := by
  have hsame := h.invocation i
  rw [hget, Option.filter_some, if_pos (decide_eq_true hid)] at hsame
  exact (Option.filter_eq_some_iff.mp hsame).1

end Same

/-! ### Responses -/

theorem get?_change_of_ne {table : TableChange} (hne : k ≠ requestId) :
    (s.change requestId table).get? k = s.pendingInvocations.get? k := by
  cases table with
  | keep => rfl
  | take => rw [change, LinkedMap.get?_erase, if_neg hne]
  | reset =>
      simp only [change, resetTimeout]
      split
      · rfl
      · exact LinkedMap.get?_insert_of_ne _ _ hne

/-- A response through an INVOCATION of another id. -/
theorem same_emit_of_ne
    (hne : ∀ invocation, s.invocations[i]? = some invocation → invocation.requestId ≠ k) :
    Same k s (s.emitResponse t i response).2 := by
  cases hget : s.invocations[i]? with
  | none =>
      rw [emitResponse_none hget]
      exact .refl s
  | some invocation =>
      have hid := hne invocation hget
      rw [emitResponse_eq hget]
      refine ⟨List.length_set, fun j => ?_, get?_change_of_ne hid.symm, rfl, ?_, rfl, rfl, rfl, rfl⟩
      · by_cases hji : j = i
        · subst hji
          obtain ⟨hlt, -⟩ := List.getElem?_eq_some_iff.mp hget
          have hid' : (emission s.live t invocation response).invocation.requestId ≠ k := by
            rw [emission_requestId]
            exact hid
          rw [apply, List.getElem?_set_self hlt, hget, Option.filter_some, Option.filter_some,
            if_neg (by simpa using hid'), if_neg (by simpa using hid)]
        · rw [apply, List.getElem?_set_ne (Ne.symm hji)]
      · rw [apply, List.filter_append]
        cases (emission s.live t invocation response).response with
        | none => exact List.append_nil _
        | some sent => simp [hid]

theorem get?_change_congr (hpending : s'.pendingInvocations.get? k = s.pendingInvocations.get? k)
    (table : TableChange) : (s'.change k table).get? k = (s.change k table).get? k := by
  cases table with
  | keep => exact hpending
  | take => rw [change, change, LinkedMap.get?_erase, LinkedMap.get?_erase, if_pos rfl, if_pos rfl]
  | reset =>
      simp only [change, resetTimeout, hpending]
      cases s.pendingInvocations.get? k with
      | none => exact hpending
      | some r => simp

/-- The same change at the same INVOCATION. -/
theorem Same.apply (h : Same k s s') (i : Nat) (e : Emission) :
    Same k (s.apply i k e) (s'.apply i k e) := by
  refine ⟨?_, fun j => ?_, get?_change_congr h.pending e.table, h.interrupt, ?_, h.delivered,
    h.registrations, h.goodbyeSent, h.incomingClosed⟩
  · simp only [Session.apply, List.length_set]
    exact h.count
  · simp only [Session.apply, List.getElem?_set, h.count]
    split
    · rfl
    · exact h.invocation j
  · simp only [Session.apply, List.filter_append, h.sent]

/-- The same response through the same INVOCATION. -/
theorem Same.emit (h : Same k s s') (t : Transport) (i : Nat) (response : Response) :
    Same k (s.emitResponse t i response).2 (s'.emitResponse t i response).2 := by
  by_cases hk : ∃ invocation, s.invocations[i]? = some invocation ∧ invocation.requestId = k
  · obtain ⟨invocation, hget, hid⟩ := hk
    rw [emitResponse_eq hget, emitResponse_eq (h.getElem? hget hid), h.live, hid]
    exact h.apply i _
  · have hne : ∀ invocation, s.invocations[i]? = some invocation → invocation.requestId ≠ k :=
      fun invocation hget hid => hk ⟨invocation, hget, hid⟩
    have hne' : ∀ invocation, s'.invocations[i]? = some invocation → invocation.requestId ≠ k :=
      fun invocation hget hid => hk ⟨invocation, h.symm.getElem? hget hid, hid⟩
    exact ((same_emit_of_ne hne).symm.trans h).trans (same_emit_of_ne hne')

theorem same_respondOpen_of_ne
    (hne : ∀ invocation, s.invocations[i]? = some invocation → invocation.requestId ≠ k) :
    Same k s (s.respondOpen t i response) := by
  rw [respondOpen_eq]
  exact same_emit_of_ne hne

theorem Same.respondOpen (h : Same k s s') (t : Transport) (i : Nat) (response : Response) :
    Same k (s.respondOpen t i response) (s'.respondOpen t i response) := by
  rw [respondOpen_eq, respondOpen_eq]
  exact h.emit t i response

/-! ### Events -/

/-- An INTERRUPT for another id. -/
theorem same_handleInterrupt_of_ne (h : s.Sound) (hne : k ≠ requestId) (mode : Option String) :
    Same k s (s.handleInterrupt t requestId mode) := by
  have herased : (s.pendingInvocations.erase requestId).get? k = s.pendingInvocations.get? k := by
    rw [LinkedMap.get?_erase, if_neg hne]
  rcases s.open_or_unanswerable requestId with ⟨r, hr, hopen⟩ | hwaits
  · rw [handleInterrupt_cancels hr hopen]
    have htaken : Same k s (s.takeInvocation requestId).2 := { Same.refl s with pending := herased }
    refine htaken.trans (same_respondOpen_of_ne fun invocation hget hid => ?_)
    obtain ⟨invocation', hget', hid', -⟩ := h.tracked requestId r hr
    obtain rfl := Option.some.inj (hget'.symm.trans hget)
    exact hne (hid.symm.trans hid')
  · rw [handleInterrupt_waits hwaits]
    exact { Same.refl s with
      pending := herased
      interrupt := LinkedMap.get?_insert_of_ne _ _ hne }

/-- The responders of the id are the same, and so are the INVOCATIONs behind them. -/
theorem Same.responder (h : Same k s s') (hs : s.Sound) {r : Responder}
    (hr : s.pendingInvocations.get? k = some r) :
    s'.invocations[r.invocation]? = s.invocations[r.invocation]? := by
  obtain ⟨invocation, hget, hid, -⟩ := hs.tracked k r hr
  rw [hget, h.getElem? hget hid]

/-- An INTERRUPT for the id itself. -/
theorem Same.handleInterrupt (h : Same k s s') (hs : s.Sound) (t : Transport)
    (mode : Option String) :
    Same k (s.handleInterrupt t k mode) (s'.handleInterrupt t k mode) := by
  have herased := get?_change_congr h.pending .take
  rcases s.open_or_unanswerable k with ⟨r, hr, hopen⟩ | hwaits
  · have hopen' : ¬ (s'.invocations[r.invocation]?).any (·.responseClosed) = true := by
      rw [h.responder hs hr]
      exact hopen
    rw [handleInterrupt_cancels hr hopen, handleInterrupt_cancels (h.pending.trans hr) hopen']
    have htaken : Same k (s.takeInvocation k).2 (s'.takeInvocation k).2 :=
      { h with pending := herased }
    exact htaken.respondOpen t _ _
  · have hwaits' : s'.Unanswerable k := fun r hr' => by
      have hr := h.pending.symm.trans hr'
      rw [h.responder hs hr]
      exact hwaits r hr
    rw [handleInterrupt_waits hwaits, handleInterrupt_waits hwaits']
    exact { h with
      pending := herased
      interrupt := by rw [LinkedMap.get?_insert_self, LinkedMap.get?_insert_self] }

theorem same_handleTimer_of_ne (h : s.Sound) (hne : k ≠ requestId) :
    Same k s (s.handleTimer t requestId) := by
  unfold handleTimer
  split
  · exact .refl s
  next r hr =>
  split
  · have hdisarmed : Same k s { s with
        pendingInvocations := s.pendingInvocations.insert requestId { r with armed := false } } :=
      { Same.refl s with pending := LinkedMap.get?_insert_of_ne _ _ hne }
    refine hdisarmed.trans (same_respondOpen_of_ne fun invocation hget hid => ?_)
    obtain ⟨invocation', hget', hid', -⟩ := h.tracked requestId r hr
    obtain rfl := Option.some.inj (hget'.symm.trans hget)
    exact hne (hid.symm.trans hid')
  · exact .refl s

theorem Same.handleTimer (h : Same k s s') (t : Transport) :
    Same k (s.handleTimer t k) (s'.handleTimer t k) := by
  simp only [Session.handleTimer, h.pending]
  split
  · exact h
  next r hr =>
  split
  · refine Same.respondOpen ?_ t _ _
    exact { h with pending := by rw [LinkedMap.get?_insert_self, LinkedMap.get?_insert_self] }
  · exact h

/-- One more INVOCATION message, of any id. -/
theorem Same.received (h : Same k s s') (invocation : Invocation) :
    Same k { s with invocations := s.invocations ++ [invocation] }
      { s' with invocations := s'.invocations ++ [invocation] } := by
  refine { h with count := ?_, invocation := fun i => ?_ }
  · simp only [List.length_append, h.count]
  · simp only [List.getElem?_append, h.count]
    split
    · exact h.invocation i
    · rfl

theorem Same.opened (h : Same k s s') (requestId : Nat) (timeout : Option Int) :
    Same k (s.opened requestId timeout) (s'.opened requestId timeout) := by
  refine { h.received { requestId, onResponse := true } with pending := ?_ }
  simp only [Session.opened, trackInvocation, LinkedMap.get?_insert, LinkedMap.get?_erase, h.count,
    h.pending]

/-- An INVOCATION of another id, once it is tracked. -/
theorem same_handleInvocation_of_ne {registrationId : Nat} {timeout : Option Int}
    {registered : Registered} (hne : k ≠ requestId)
    (hregistered : s.registrations.get? registrationId = some registered) :
    Same k (s.opened requestId timeout)
      (s.handleInvocation t requestId registrationId timeout) := by
  cases hwaiting : s.pendingInvocationInterrupts.get? requestId with
  | none =>
      rw [handleInvocation_delivers hregistered hwaiting]
      split
      · exact .refl _
      · refine { Same.refl (s.opened requestId timeout) with delivered := ?_ }
        simp [hne.symm, opened, trackInvocation]
  | some mode =>
      rw [handleInvocation_canceled hregistered hwaiting]
      have hremoved : Same k (s.opened requestId timeout)
          { s.opened requestId timeout with
            pendingInvocationInterrupts := s.pendingInvocationInterrupts.erase requestId } :=
        { Same.refl (s.opened requestId timeout) with
          interrupt := by rw [LinkedMap.get?_erase, if_neg hne]; rfl }
      refine hremoved.trans (same_respondOpen_of_ne fun invocation hget hid => ?_)
      have hself : (s.invocations ++ [({ requestId, onResponse := true } : Invocation)])[
          s.invocations.length]? = some { requestId, onResponse := true } :=
        List.getElem?_concat_length
      obtain rfl := Option.some.inj (hself.symm.trans hget)
      exact hne hid.symm

theorem Same.handleInvocation (h : Same k s s') (t : Transport) (requestId registrationId : Nat)
    (timeout : Option Int) :
    Same k (s.handleInvocation t requestId registrationId timeout)
      (s'.handleInvocation t requestId registrationId timeout) := by
  cases hregistered : s.registrations.get? registrationId with
  | none =>
      have hregistered' : s'.registrations.get? registrationId = none := by
        rw [h.registrations]
        exact hregistered
      rw [handleInvocation_rejected hregistered, handleInvocation_rejected hregistered']
      refine { h.received { requestId } with sent := ?_ }
      simp only [List.filter_append, h.sent, h.count]
  | some registered =>
  have hregistered' : s'.registrations.get? registrationId = some registered := by
    rw [h.registrations]
    exact hregistered
  by_cases hne : k = requestId
  · subst hne
    have hopened := h.opened k timeout
    cases hwaiting : s.pendingInvocationInterrupts.get? k with
    | none =>
        rw [handleInvocation_delivers hregistered hwaiting,
          handleInvocation_delivers hregistered' (h.interrupt.trans hwaiting)]
        split
        · exact hopened
        · exact { hopened with delivered := by simp only [List.filter_append, h.delivered, h.count] }
    | some mode =>
        rw [handleInvocation_canceled hregistered hwaiting,
          handleInvocation_canceled hregistered' (h.interrupt.trans hwaiting), h.count]
        refine Same.respondOpen ?_ t _ _
        exact { hopened with interrupt := by simp only [LinkedMap.get?_erase, if_true] }
  · exact ((same_handleInvocation_of_ne hne hregistered).symm.trans (h.opened _ _)).trans
      (same_handleInvocation_of_ne hne hregistered')

theorem Same.closeResponse (h : Same k s s') (i : Nat) :
    Same k (s.modifyInvocation i Invocation.closeResponse)
      (s'.modifyInvocation i Invocation.closeResponse) := by
  have hfilter : ∀ o : Option Invocation,
      (o.map Invocation.closeResponse).filter (·.requestId = k) =
        (o.filter (·.requestId = k)).map Invocation.closeResponse := by
    intro o
    cases o with
    | none => rfl
    | some invocation =>
        rw [Option.map_some, Option.filter_some, Option.filter_some]
        change (if decide (invocation.requestId = k) = true then _ else none) = _
        split <;> rfl
  refine { h with count := ?_, invocation := fun j => ?_ }
  · simp only [modifyInvocation, List.length_modify]
    exact h.count
  · simp only [modifyInvocation, List.getElem?_modify]
    split
    · change (Option.map Invocation.closeResponse _).filter _ =
        (Option.map Invocation.closeResponse _).filter _
      rw [hfilter, hfilter, h.invocation j]
    · simpa using h.invocation j

/-- **Sessions that look the same to an id go on looking the same to it.** -/
theorem Same.step (h : Same k s s') (hs : s.Sound) (hs' : s'.Sound) (e : Event) :
    Same k (s.step e) (s'.step e) := by
  cases e with
  | registered registrationId registered =>
      exact { h with registrations := by rw [Session.step, Session.step, h.registrations] }
  | unregistered registrationId =>
      exact { h with registrations := by rw [Session.step, Session.step, h.registrations] }
  | invocation t requestId registrationId timeout => exact h.handleInvocation t _ _ _
  | interrupt t requestId mode =>
      by_cases hne : k = requestId
      · subst hne
        exact h.handleInterrupt hs t mode
      · exact ((same_handleInterrupt_of_ne hs hne mode).symm.trans h).trans
          (same_handleInterrupt_of_ne hs' hne mode)
  | timer t requestId =>
      by_cases hne : k = requestId
      · subst hne
        exact h.handleTimer t
      · exact ((same_handleTimer_of_ne hs hne).symm.trans h).trans (same_handleTimer_of_ne hs' hne)
  | respond t i response => exact h.emit t i response
  | closeResponse i => exact h.closeResponse i
  | goodbye => exact { h with goodbyeSent := rfl }
  | transportClosed => exact { h with incomingClosed := rfl }
  | tablesCleared =>
      simp only [Session.step, h.incomingClosed]
      split
      · exact { h with pending := rfl, interrupt := rfl, registrations := rfl, incomingClosed := rfl }
      · exact h

theorem Same.foldl (h : Same k s s') (hs : s.Sound) (hs' : s'.Sound) (events : List Event) :
    Same k (events.foldl Session.step s) (events.foldl Session.step s') := by
  induction events generalizing s s' with
  | nil => exact h
  | cons e events ih => exact ih (h.step hs hs' e) (hs.step e) (hs'.step e)

/-! ### The INVOCATION after an INTERRUPT -/

theorem delivered_emitResponse (s : Session) (t : Transport) (i : Nat) (response : Response) :
    (s.emitResponse t i response).2.delivered = s.delivered ∧
      (s.emitResponse t i response).2.pendingInvocationInterrupts =
        s.pendingInvocationInterrupts := by
  cases hget : s.invocations[i]? with
  | none =>
      rw [emitResponse_none hget]
      exact ⟨rfl, rfl⟩
  | some invocation =>
      rw [emitResponse_eq hget]
      exact ⟨rfl, rfl⟩

/-- An INTERRUPT that waits cancels the next INVOCATION with its id, which no handler sees. -/
theorem canceled_of_waiting {registrationId : Nat} {timeout : Option Int} {mode : Option String}
    (hregistered : (s.registrations.get? registrationId).isSome)
    (hwaiting : s.pendingInvocationInterrupts.get? requestId = some mode) :
    (s.handleInvocation t requestId registrationId timeout).delivered = s.delivered ∧
      (s.handleInvocation t requestId registrationId timeout).pendingInvocationInterrupts.get?
        requestId = none ∧
      (s.live = true → t.isReady = true → t.outcome = .sent →
        (s.handleInvocation t requestId registrationId timeout).sent = s.sent ++
          [⟨requestId, .error errorInvocationCanceled mode, s.invocations.length⟩]) := by
  obtain ⟨registered, hregistered⟩ := Option.isSome_iff_exists.mp hregistered
  rw [handleInvocation_canceled hregistered hwaiting, respondOpen_eq]
  obtain ⟨hdelivered, hinterrupts⟩ := delivered_emitResponse
    { s.opened requestId timeout with
      pendingInvocationInterrupts := s.pendingInvocationInterrupts.erase requestId }
    t s.invocations.length (.error errorInvocationCanceled mode)
  refine ⟨hdelivered, ?_, fun hlive hready hsent => ?_⟩
  · rw [hinterrupts, LinkedMap.get?_erase, if_pos rfl]
  · have hself : (s.opened requestId timeout).invocations[s.invocations.length]? =
        some { requestId, onResponse := true } := List.getElem?_concat_length
    rw [emitResponse_eq (s := { s.opened requestId timeout with
      pendingInvocationInterrupts := s.pendingInvocationInterrupts.erase requestId }) hself]
    change s.sent ++ ((emission s.live t _ _).response.map _).toList = _
    rw [hlive]
    simp [emission, hready, hsent, Response.progressive]

end Session

open Session in
/-- **The responses of a callee.** -/
theorem invocation_responses (events : List Event) :
    -- Through an INVOCATION nothing follows the last answer.
    (∀ front m back, (run events).sent = front ++ m :: back → m.terminal = true →
      ∀ m' ∈ back, m'.invocation ≠ m.invocation) ∧
    -- For an id that came in one INVOCATION, nothing follows it at all.
    (∀ id, (events.flatMap Event.invoked).count id ≤ 1 →
      ∀ front m back, (run events).sent = front ++ m :: back → m.terminal = true →
        m.requestId = id → ∀ m' ∈ back, m'.requestId ≠ id) ∧
    -- An INTERRUPT that finds nothing open sends nothing, and waits for the next INVOCATION
    -- with its id, which it cancels.
    (∀ t id mode, (run events).Unanswerable id →
      ((run events).step (.interrupt t id mode)).sent = (run events).sent ∧
        ((run events).step (.interrupt t id mode)).invocations = (run events).invocations ∧
        ((run events).step (.interrupt t id mode)).pendingInvocationInterrupts.get? id =
          some mode) ∧
    (∀ t id registrationId timeout mode,
      ((run events).registrations.get? registrationId).isSome →
      (run events).pendingInvocationInterrupts.get? id = some mode →
      ((run events).step (.invocation t id registrationId timeout)).delivered =
          (run events).delivered ∧
        ((run events).step (.invocation t id registrationId timeout)
          ).pendingInvocationInterrupts.get? id = none ∧
        ((run events).live = true → t.isReady = true → t.outcome = .sent →
          ((run events).step (.invocation t id registrationId timeout)).sent =
            (run events).sent ++
              [⟨id, .error errorInvocationCanceled mode, (run events).invocations.length⟩])) ∧
    -- To other ids an INTERRUPT means nothing, whatever comes after it.
    (∀ t id mode k, k ≠ id → ∀ more : List Event,
      Same k (more.foldl step (run events))
        (more.foldl step ((run events).step (.interrupt t id mode)))) ∧
    -- The tables.
    (∀ id r, (run events).pendingInvocations.get? id = some r →
      ∃ invocation, (run events).invocations[r.invocation]? = some invocation ∧
        invocation.requestId = id ∧
        ∀ m ∈ (run events).sent, m.invocation = r.invocation → m.terminal = false) ∧
    (∀ id, ((run events).pendingInvocationInterrupts.get? id).isSome →
      (run events).pendingInvocations.get? id = none) := by
  have hs := sound_run events
  refine ⟨hs.last, fun id hone front m back hsent hterminal hid => ?_, fun t id mode hwaits => ?_,
    fun t id registrationId timeout mode hregistered hwaiting => ?_,
    fun t id mode k hne more => ?_, hs.tracked, hs.kept⟩
  · rw [← ids_run] at hone
    exact hs.last_of_once hone hsent hterminal hid
  · rw [step, handleInterrupt_waits hwaits]
    exact ⟨rfl, rfl, LinkedMap.get?_insert_self _ _ _⟩
  · exact canceled_of_waiting hregistered hwaiting
  · exact (same_handleInterrupt_of_ne hs hne mode).foldl hs (hs.handleInterrupt t id mode) more

open Session in
/-- Two chunks of one progressive call, both answered for good; an INTERRUPT for an answered id, which
stays; and one that comes too early, which keeps an INVOCATION from its handler. -/
theorem second_chunk_answered_again :
    ((run [.registered 1 ⟨true, false, false⟩, .invocation ⟨true, .sent, true⟩ 5 1 none,
        .invocation ⟨true, .sent, true⟩ 5 1 none,
        .respond ⟨true, .sent, true⟩ 0 (.yield false),
        .respond ⟨true, .sent, true⟩ 1 (.yield false)]).sent.map
      fun m => (m.requestId, m.terminal)) = [(5, true), (5, true)] ∧
    (run [.registered 1 ⟨true, false, false⟩, .invocation ⟨true, .sent, true⟩ 5 1 none,
        .respond ⟨true, .sent, true⟩ 0 (.yield false),
        .interrupt ⟨true, .sent, true⟩ 5 none]).pendingInvocationInterrupts.get? 5 =
      some none ∧
    (run [.registered 1 ⟨true, false, false⟩, .interrupt ⟨true, .sent, true⟩ 6 none,
        .invocation ⟨true, .sent, true⟩ 6 1 none]).delivered = [] := by
  decide

end Callee

end Connectanum
