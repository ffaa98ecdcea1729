import Connectanum.Client.Invocations
import Mathlib.Data.List.NodupEquivFin

/-!
# Client — Responses

What a callee sends for an INVOCATION: through each one no more than one last YIELD or ERROR, and
nothing after it.  An INTERRUPT that finds no open INVOCATION waits for the next one with its id, and
means nothing to those of other ids.
-/

namespace Connectanum

namespace Callee

open Collections

namespace Session

variable {s s' : Session} {t : Transport} {i requestId : Nat} {invocation : Invocation}
  {response : Response}

/-- What holds after every step. -/
structure Sound (s : Session) : Prop where
  origin : ∀ m ∈ s.sent, ∃ invocation, s.invocations[m.invocation]? = some invocation ∧
    invocation.requestId = m.requestId ∧ (m.terminal = true → invocation.Done)
  last : ∀ front m back, s.sent = front ++ m :: back → m.terminal = true →
    ∀ m' ∈ back, m'.invocation ≠ m.invocation
  tracked : ∀ id r, s.pendingInvocations.get? id = some r →
    ∃ invocation, s.invocations[r.invocation]? = some invocation ∧ invocation.requestId = id ∧
      ∀ m ∈ s.sent, m.invocation = r.invocation → m.terminal = false
  kept : ∀ id, (s.pendingInvocationInterrupts.get? id).isSome →
    s.pendingInvocations.get? id = none

theorem sound_initial : initial.Sound where
  origin := nofun
  last front m back h := by cases front <;> cases h
  tracked := nofun
  kept := nofun

namespace Sound

/-- Where nothing is sent, INVOCATIONs may only be closed and responders only go. -/
theorem quiet (h : s.Sound) (hsent : s'.sent = s.sent)
    (hinvocations : ∀ {i : Nat} {invocation}, s.invocations[i]? = some invocation →
      ∃ invocation', s'.invocations[i]? = some invocation' ∧
        invocation'.requestId = invocation.requestId ∧ (invocation.Done → invocation'.Done))
    (hpending : ∀ {id r}, s'.pendingInvocations.get? id = some r →
      ∃ r', s.pendingInvocations.get? id = some r' ∧ r'.invocation = r.invocation)
    (hkept : ∀ id, (s'.pendingInvocationInterrupts.get? id).isSome →
      s'.pendingInvocations.get? id = none) : s'.Sound where
  origin m hm := by
    rw [hsent] at hm
    obtain ⟨invocation, hget, hid, hdone⟩ := h.origin m hm
    obtain ⟨invocation', hget', hid', hdone'⟩ := hinvocations hget
    exact ⟨invocation', hget', hid'.trans hid, fun hterminal => hdone' (hdone hterminal)⟩
  last := by
    rw [hsent]
    exact h.last
  tracked id r hr := by
    rw [hsent]
    obtain ⟨r', hr', hsame⟩ := hpending hr
    obtain ⟨invocation, hget, hid, hunanswered⟩ := h.tracked id r' hr'
    rw [hsame] at hget hunanswered
    obtain ⟨invocation', hget', hid', -⟩ := hinvocations hget
    exact ⟨invocation', hget', hid'.trans hid, hunanswered⟩
  kept := hkept

/-- As `quiet`, with the INVOCATIONs and the INTERRUPTs as they were. -/
theorem shrink (h : s.Sound) {pending : LinkedMap Nat Responder}
    (hpending : ∀ {id r}, pending.get? id = some r →
      ∃ r', s.pendingInvocations.get? id = some r' ∧ r'.invocation = r.invocation) :
    Sound { s with pendingInvocations := pending } := by
  refine h.quiet rfl (fun hget => ⟨_, hget, rfl, id⟩) hpending fun id hid => ?_
  cases hget : pending.get? id with
  | none => rfl
  | some r =>
      obtain ⟨r', hr', -⟩ := hpending hget
      rw [h.kept id hid] at hr'
      cases hr'

theorem last_snoc (h : s.Sound) {m : Sent}
    (hnew : ∀ m' ∈ s.sent, m'.terminal = true → m.invocation ≠ m'.invocation) :
    ∀ front m' back, s.sent ++ [m] = front ++ m' :: back → m'.terminal = true →
      ∀ m'' ∈ back, m''.invocation ≠ m'.invocation := by
  intro front m' back heq hterminal m'' hm''
  rcases List.eq_nil_or_concat' back with rfl | ⟨back, last, rfl⟩
  · cases hm''
  · rw [← List.cons_append, ← List.append_assoc] at heq
    obtain ⟨hsent, hlast⟩ := List.append_inj' heq rfl
    obtain rfl := List.singleton_inj.mp hlast
    rcases List.mem_append.mp hm'' with hold | hself
    · exact h.last front m' back hsent hterminal m'' hold
    · rw [List.mem_singleton.mp hself]
      refine hnew m' ?_ hterminal
      rw [hsent]
      exact List.mem_append_right _ List.mem_cons_self

/-- A response through an INVOCATION. -/
theorem emit (h : s.Sound) (t : Transport) (i : Nat) (response : Response) :
    (s.emitResponse t i response).2.Sound := by
  cases hget : s.invocations[i]? with
  | none =>
      rw [emitResponse_none hget]
      exact h
  | some invocation =>
  rw [emitResponse_eq hget]
  obtain ⟨hlt, -⟩ := List.getElem?_eq_some_iff.mp hget
  have hset : ∀ {j : Nat} {invocation'}, s.invocations[j]? = some invocation' → j ≠ i →
      (s.invocations.set i (emission s.live t invocation response).invocation)[j]? =
        some invocation' := fun hj hne => by
    rw [List.getElem?_set_ne hne.symm]
    exact hj
  have hself := List.getElem?_set_self
    (a := (emission s.live t invocation response).invocation) hlt
  have hid : (emission s.live t invocation response).invocation.requestId =
    invocation.requestId := emission_requestId
  have hkept : ∀ id, (s.pendingInvocationInterrupts.get? id).isSome →
      (s.change invocation.requestId (emission s.live t invocation response).table).get? id =
        none := by
    intro id hid
    rw [Option.eq_none_iff_forall_not_mem]
    intro r hr
    obtain ⟨r', hr', -⟩ := get?_change hr
    rw [h.kept id hid] at hr'
    cases hr'
  cases hresponse : (emission s.live t invocation response).response with
  | none =>
      refine h.quiet ?_ (fun {j invocation'} hj => ?_) get?_change hkept
      · rw [apply, hresponse]
        exact List.append_nil _
      · by_cases hji : j = i
        · subst hji
          obtain rfl := Option.some.inj (hget.symm.trans hj)
          refine ⟨_, hself, hid, fun hdone => ?_⟩
          rw [emission_of_done hdone]
          exact hdone
        · exact ⟨invocation', hset hj hji, rfl, fun hdone => hdone⟩
  | some sent =>
      obtain ⟨hopen, rfl, hlast⟩ := emission_some hresponse
      have hsent : (s.apply i invocation.requestId (emission s.live t invocation sent)).sent =
          s.sent ++ [⟨invocation.requestId, sent, i⟩] := by
        rw [apply, hresponse]
        rfl
      -- No last answer has been sent through an INVOCATION that is open.
      have hunanswered : ∀ m ∈ s.sent, m.invocation = i → m.terminal = false := by
        intro m hm hmi
        obtain ⟨invocation', hget', -, hdone⟩ := h.origin m hm
        rw [hmi, hget] at hget'
        obtain rfl := Option.some.inj hget'
        cases hterminal : m.terminal with
        | false => rfl
        | true => exact absurd (hdone hterminal) hopen
      refine ⟨?_, ?_, ?_, hkept⟩
      · rw [hsent]
        intro m hm
        rcases List.mem_append.mp hm with hold | hnew
        · obtain ⟨invocation', hget', hid', hdone⟩ := h.origin m hold
          by_cases hmi : m.invocation = i
          · rw [hmi] at hget' ⊢
            obtain rfl := Option.some.inj (hget.symm.trans hget')
            refine ⟨_, hself, hid.trans hid', fun hterminal => ?_⟩
            rw [hunanswered m hold hmi] at hterminal
            cases hterminal
          · exact ⟨invocation', hset hget' hmi, hid', hdone⟩
        · obtain rfl := List.mem_singleton.mp hnew
          refine ⟨_, hself, hid, fun hterminal => (hlast ?_).1⟩
          simpa [Sent.terminal] using hterminal
      · rw [hsent]
        refine h.last_snoc fun m' hm' hterminal hsame => ?_
        rw [hunanswered m' hm' hsame.symm] at hterminal
        cases hterminal
      · intro id r hr
        obtain ⟨r', hr', hsame⟩ := get?_change hr
        obtain ⟨invocation', hget', hid', hnone⟩ := h.tracked id r' hr'
        rw [hsame] at hget' hnone
        rw [hsent]
        by_cases hri : r.invocation = i
        · rw [hri] at hget' hnone ⊢
          obtain rfl := Option.some.inj (hget.symm.trans hget')
          refine ⟨_, hself, hid.trans hid', fun m hm hmi => ?_⟩
          rcases List.mem_append.mp hm with hold | hnew
          · exact hnone m hold hmi
          · obtain rfl := List.mem_singleton.mp hnew
            cases hprogressive : sent.progressive with
            | true => simp [Sent.terminal, hprogressive]
            | false =>
                -- The responder of the last answer has left the table.
                rw [apply, (hlast hprogressive).2, hid'] at hr
                simp [change] at hr
        · refine ⟨invocation', hset hget' hri, hid', fun m hm hmi => ?_⟩
          rcases List.mem_append.mp hm with hold | hnew
          · exact hnone m hold hmi
          · obtain rfl := List.mem_singleton.mp hnew
            exact absurd hmi.symm hri

theorem respondOpen (h : s.Sound) (t : Transport) (i : Nat) (response : Response) :
    (s.respondOpen t i response).Sound := by
  rw [respondOpen_eq]
  exact h.emit t i response

theorem takeInvocation (h : s.Sound) (requestId : Nat) : (s.takeInvocation requestId).2.Sound :=
  h.shrink fun {id r} (hr : (s.change requestId .take).get? id = some r) => get?_change hr

/-- An INTERRUPT that waits, where no responder does. -/
theorem interrupted (h : s.Sound) (hnone : s.pendingInvocations.get? requestId = none)
    (mode : Option String) :
    Sound { s with
      pendingInvocationInterrupts := s.pendingInvocationInterrupts.insert requestId mode } := by
  refine h.quiet rfl (fun hget => ⟨_, hget, rfl, fun hdone => hdone⟩)
    (fun hr => ⟨_, hr, rfl⟩) fun id hid => ?_
  by_cases hself : id = requestId
  · rw [hself]
    exact hnone
  · rw [LinkedMap.get?_insert_of_ne _ _ hself] at hid
    exact h.kept id hid

theorem handleInterrupt (h : s.Sound) (t : Transport) (requestId : Nat) (mode : Option String) :
    (s.handleInterrupt t requestId mode).Sound := by
  have htaken := h.takeInvocation requestId
  have hnone : (s.takeInvocation requestId).2.pendingInvocations.get? requestId = none := by
    simp [Session.takeInvocation]
  unfold Session.handleInterrupt
  dsimp only
  split
  · split
    · exact htaken.interrupted hnone mode
    · exact htaken.respondOpen t _ _
  · exact htaken.interrupted hnone mode

theorem handleTimer (h : s.Sound) (t : Transport) (requestId : Nat) :
    (s.handleTimer t requestId).Sound := by
  unfold Session.handleTimer
  split
  · exact h
  next r hr =>
  split
  · refine Sound.respondOpen (h.shrink fun {id r'} hr' => ?_) t _ _
    rw [LinkedMap.get?_insert] at hr'
    split at hr'
    · next hid =>
      obtain rfl := Option.some.inj hr'
      exact ⟨r, hid ▸ hr, rfl⟩
    · exact ⟨r', hr', rfl⟩
  · exact h

/-- One more INVOCATION message. -/
theorem received (h : s.Sound) (invocation : Invocation) :
    Sound { s with invocations := s.invocations ++ [invocation] } := by
  refine h.quiet rfl (fun {i invocation'} hget => ?_) (fun hr => ⟨_, hr, rfl⟩) h.kept
  obtain ⟨hlt, -⟩ := List.getElem?_eq_some_iff.mp hget
  refine ⟨invocation', ?_, rfl, fun hdone => hdone⟩
  rw [List.getElem?_append_left hlt]
  exact hget

/-- The numbers of the INVOCATIONs that have been answered. -/
theorem lt_length (h : s.Sound) {m : Sent} (hm : m ∈ s.sent) :
    m.invocation < s.invocations.length := by
  obtain ⟨_, hget, -⟩ := h.origin m hm
  exact (List.getElem?_eq_some_iff.mp hget).1

/-- An INVOCATION for no registration: the session itself has the last word. -/
theorem rejected (h : s.Sound) (requestId : Nat) :
    Sound { s with
      invocations := s.invocations ++ [({ requestId } : Invocation)]
      sent := s.sent ++ [⟨requestId, .error noSuchRegistration none, s.invocations.length⟩] } := by
  have hreceived := h.received { requestId }
  have hself : (s.invocations ++ [({ requestId } : Invocation)])[s.invocations.length]? =
      some { requestId } := List.getElem?_concat_length
  refine ⟨?_, h.last_snoc fun m' hm' _ hsame => ?_, ?_, hreceived.kept⟩
  · intro m hm
    rcases List.mem_append.mp hm with hold | hnew
    · exact hreceived.origin m hold
    · obtain rfl := List.mem_singleton.mp hnew
      exact ⟨_, hself, rfl, fun _ => .inr rfl⟩
  · exact Nat.ne_of_gt (h.lt_length hm') hsame
  · intro id r hr
    obtain ⟨invocation, hget, hid, hnone⟩ := hreceived.tracked id r hr
    obtain ⟨invocation', hget', -⟩ := h.tracked id r hr
    have hlt := (List.getElem?_eq_some_iff.mp hget').1
    refine ⟨invocation, hget, hid, fun m hm hmr => ?_⟩
    rcases List.mem_append.mp hm with hold | hnew
    · exact hnone m hold hmr
    · obtain rfl := List.mem_singleton.mp hnew
      exact absurd hmr.symm (Nat.ne_of_lt hlt)

/-- An INVOCATION for a handler, once no INTERRUPT waits for it. -/
theorem opened (h : s.Sound) (requestId : Nat) (timeout : Option Int)
    (interrupts : LinkedMap Nat (Option String))
    (hsub : ∀ id, (interrupts.get? id).isSome →
      (s.pendingInvocationInterrupts.get? id).isSome ∧ id ≠ requestId) :
    Sound { s.opened requestId timeout with pendingInvocationInterrupts := interrupts } := by
  have hreceived := h.received { requestId, onResponse := true }
  refine ⟨hreceived.origin, hreceived.last, ?_, ?_⟩
  · intro id r hr
    simp only [Session.opened, trackInvocation, LinkedMap.get?_insert, LinkedMap.get?_erase] at hr
    split at hr
    · next hid =>
      obtain rfl := Option.some.inj hr
      refine ⟨_, List.getElem?_concat_length, hid.symm, fun m hm hmr => ?_⟩
      exact absurd hmr (Nat.ne_of_lt (h.lt_length hm))
    · next hid =>
      exact hreceived.tracked id r hr
  · intro id hid
    obtain ⟨hold, hne⟩ := hsub id hid
    simp only [Session.opened, trackInvocation, LinkedMap.get?_insert, LinkedMap.get?_erase, if_neg hne]
    exact h.kept id hold

theorem handleInvocation (h : s.Sound) (t : Transport) (requestId registrationId : Nat)
    (timeout : Option Int) : (s.handleInvocation t requestId registrationId timeout).Sound := by
  cases hregistered : s.registrations.get? registrationId with
  | none =>
      rw [handleInvocation_rejected hregistered]
      split
      · exact h.rejected requestId
      · rw [List.append_nil]
        exact h.received _
  | some registered =>
  cases hwaiting : s.pendingInvocationInterrupts.get? requestId with
  | none =>
      have hopened := h.opened requestId timeout s.pendingInvocationInterrupts fun id hid =>
        ⟨hid, fun hself => by simp [hself, hwaiting] at hid⟩
      rw [handleInvocation_delivers hregistered hwaiting]
      split
      · exact hopened
      · exact ⟨hopened.origin, hopened.last, hopened.tracked, hopened.kept⟩
  | some mode =>
      rw [handleInvocation_canceled hregistered hwaiting]
      refine Sound.respondOpen (h.opened requestId timeout _ fun id hid => ?_) t _ _
      rw [LinkedMap.get?_erase] at hid
      split at hid
      · cases hid
      · next hne => exact ⟨hid, hne⟩

theorem step (h : s.Sound) (e : Event) : (s.step e).Sound := by
  cases e with
  | registered registrationId registered => exact ⟨h.origin, h.last, h.tracked, h.kept⟩
  | unregistered registrationId => exact ⟨h.origin, h.last, h.tracked, h.kept⟩
  | invocation t requestId registrationId timeout =>
      exact h.handleInvocation t requestId registrationId timeout
  | interrupt t requestId mode => exact h.handleInterrupt t requestId mode
  | timer t requestId => exact h.handleTimer t requestId
  | respond t i response => exact h.emit t i response
  | closeResponse i =>
      refine h.quiet rfl (fun {j invocation} hj => ?_) (fun hr => ⟨_, hr, rfl⟩) h.kept
      simp only [Session.step, modifyInvocation, List.getElem?_modify, hj]
      split
      · exact ⟨_, rfl, rfl, fun _ => .inl rfl⟩
      · exact ⟨_, rfl, rfl, fun hdone => hdone⟩
  | goodbye => exact ⟨h.origin, h.last, h.tracked, h.kept⟩
  | transportClosed => exact ⟨h.origin, h.last, h.tracked, h.kept⟩
  | tablesCleared =>
      rw [Session.step]
      split
      · exact ⟨h.origin, h.last, by rintro _ _ ⟨⟩, by rintro _ ⟨⟩⟩
      · exact h

end Sound

theorem sound_foldl (h : s.Sound) (events : List Event) : (events.foldl step s).Sound := by
  induction events generalizing s with
  | nil => exact h
  | cons e events ih => exact ih (h.step e)

theorem sound_run (events : List Event) : (run events).Sound := sound_foldl sound_initial events

/-! ### The ids of the INVOCATIONs -/

/-- The ids under which INVOCATIONs came, in their order. -/
def ids (s : Session) : List Nat := s.invocations.map (·.requestId)

theorem ids_modifyInvocation {f : Invocation → Invocation}
    (hf : ∀ invocation, (f invocation).requestId = invocation.requestId) :
    (s.modifyInvocation i f).ids = s.ids := by
  refine List.ext_getElem? fun j => ?_
  simp only [ids, modifyInvocation, List.getElem?_map, List.getElem?_modify]
  cases s.invocations[j]? with
  | none => split <;> rfl
  | some invocation =>
      split
      · exact congrArg some (hf invocation)
      · rfl

@[simp] theorem ids_emitResponse : (s.emitResponse t i response).2.ids = s.ids := by
  cases hget : s.invocations[i]? with
  | none => rw [emitResponse_none hget]
  | some invocation =>
      have hid : s.ids[i]? = some invocation.requestId := by
        rw [ids, List.getElem?_map, hget]
        rfl
      obtain ⟨hlt, hid⟩ := List.getElem?_eq_some_iff.mp hid
      rw [emitResponse_eq hget, ids, apply, List.map_set, emission_requestId, ← hid]
      exact List.set_getElem_self hlt

@[simp] theorem ids_respondOpen : (s.respondOpen t i response).ids = s.ids := by
  rw [respondOpen_eq, ids_emitResponse]

end Session

/-- The id of an INVOCATION. -/
def Event.invoked : Event → List Nat
  | .invocation _ requestId _ _ => [requestId]
  | _ => []

namespace Session

variable {s : Session} {t : Transport} {i requestId : Nat}

theorem ids_step (e : Event) : (s.step e).ids = s.ids ++ e.invoked := by
  cases e with
  | invocation t requestId registrationId timeout =>
      change (s.handleInvocation t requestId registrationId timeout).ids = s.ids ++ [requestId]
      cases hregistered : s.registrations.get? registrationId with
      | none =>
          rw [handleInvocation_rejected hregistered]
          exact List.map_append
      | some registered =>
      cases hwaiting : s.pendingInvocationInterrupts.get? requestId with
      | none =>
          rw [handleInvocation_delivers hregistered hwaiting]
          split <;> exact List.map_append
      | some mode =>
          rw [handleInvocation_canceled hregistered hwaiting, ids_respondOpen]
          exact List.map_append
  | interrupt t requestId mode =>
      refine Eq.trans ?_ (List.append_nil _).symm
      rw [step, handleInterrupt]
      dsimp only
      split
      · split
        · rfl
        · exact ids_respondOpen
      · rfl
  | timer t requestId =>
      refine Eq.trans ?_ (List.append_nil _).symm
      rw [step, handleTimer]
      split
      · rfl
      · split
        · exact ids_respondOpen
        · rfl
  | respond t i response => exact ids_emitResponse.trans (List.append_nil _).symm
  | closeResponse i =>
      refine Eq.trans ?_ (List.append_nil _).symm
      exact ids_modifyInvocation (f := Invocation.closeResponse) fun _ => rfl
  | tablesCleared =>
      refine Eq.trans ?_ (List.append_nil _).symm
      rw [step]
      split <;> rfl
  | registered _ _ | unregistered _ | goodbye | transportClosed => exact (List.append_nil _).symm

theorem ids_foldl (events : List Event) :
    (events.foldl step s).ids = s.ids ++ events.flatMap Event.invoked := by
  induction events generalizing s with
  | nil => rw [List.foldl_nil, List.flatMap_nil, List.append_nil]
  | cons e events ih =>
      rw [List.foldl_cons, ih, ids_step, List.flatMap_cons, List.append_assoc]

theorem ids_run (events : List Event) : (run events).ids = events.flatMap Event.invoked :=
  ids_foldl events

/-- An id that came once is the id of one INVOCATION. -/
theorem eq_of_ids {j id : Nat} (hone : s.ids.count id ≤ 1) (hi : s.ids[i]? = some id)
    (hj : s.ids[j]? = some id) : i = j := by
  have hle : ∀ {i j : Nat}, s.ids[i]? = some id → s.ids[j]? = some id → ¬ i < j := by
    intro i j hi hj hlt
    obtain ⟨hilt, hi⟩ := List.getElem?_eq_some_iff.mp hi
    obtain ⟨hjlt, hj⟩ := List.getElem?_eq_some_iff.mp hj
    have htwice : List.Duplicate id s.ids :=
      List.duplicate_iff_exists_distinct_get.mpr
        ⟨⟨i, hilt⟩, ⟨j, hjlt⟩, hlt, hi.symm, hj.symm⟩
    exact absurd (List.duplicate_iff_two_le_count.mp htwice) (by omega)
  exact Nat.le_antisymm (Nat.not_lt.mp (hle hj hi)) (Nat.not_lt.mp (hle hi hj))

theorem Sound.ids_getElem? (h : s.Sound) {m : Sent} (hm : m ∈ s.sent) :
    s.ids[m.invocation]? = some m.requestId := by
  obtain ⟨invocation, hget, hid, -⟩ := h.origin m hm
  rw [ids, List.getElem?_map, hget, ← hid]
  rfl

/-- **An id that came once is answered once**, and then no more. -/
theorem Sound.last_of_once (h : s.Sound) {id : Nat} (hone : s.ids.count id ≤ 1)
    {front back : List Sent} {m : Sent} (hsent : s.sent = front ++ m :: back)
    (hterminal : m.terminal = true) (hid : m.requestId = id) :
    ∀ m' ∈ back, m'.requestId ≠ id := by
  intro m' hm' hid'
  have hmem : m ∈ s.sent := hsent ▸ List.mem_append_right _ List.mem_cons_self
  have hmem' : m' ∈ s.sent :=
    hsent ▸ List.mem_append_right _ (List.mem_cons_of_mem _ hm')
  refine h.last front m back hsent hterminal m' hm' (eq_of_ids hone ?_ ?_)
  · rw [h.ids_getElem? hmem', hid']
  · rw [h.ids_getElem? hmem, hid]

end Session

end Callee

end Connectanum
