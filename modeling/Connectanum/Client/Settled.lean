import Connectanum.Client.Session
import Connectanum.Lib.Runs

/-!
# Client — Settled

Every request of the client ends once, and with the first reply that carries its id.

* `Requests.Pends`: a request is in its table;
* `Books`: what the tables, the queue of the close and the endings have to do with each other;
* `Sound`: the inputs under which the books stay in order.
-/

namespace Connectanum

open Collections Machine

namespace Client

/-- The request that a message ends: a reply names it by its own id, an error by the type and the id
of what it answers.  An error of a CANCEL is one of the call. -/
def Message.answered : Message → Option Request
  | .result id progress => if progress then none else some ⟨.call, id⟩
  | .published id _ => some ⟨.publish, id⟩
  | .subscribed id _ => some ⟨.subscribe, id⟩
  | .unsubscribed id _ => some ⟨.unsubscribe, id⟩
  | .registered id _ => some ⟨.register, id⟩
  | .unregistered id => some ⟨.unregister, id⟩
  | .event _ _ => none
  | .error requestTypeId id _ => (tableOfError requestTypeId).map (⟨·, id⟩)
  | .other => none

namespace Requests

variable {s : Requests}

def Pends (s : Requests) (r : Request) : Prop :=
  ((s.pending r.kind).get? r.id).isSome

def Ended (s : Requests) (r : Request) : Prop :=
  r ∈ s.endings.map Prod.fst

instance (s : Requests) (r : Request) : Decidable (s.Pends r) :=
  inferInstanceAs (Decidable (_ = true))

instance (s : Requests) (r : Request) : Decidable (s.Ended r) :=
  inferInstanceAs (Decidable (_ ∈ _))

theorem pends_of_get? {k : Kind} {id : Nat} {e : Entry k} (h : (s.pending k).get? id = some e) :
    s.Pends ⟨k, id⟩ := by
  rw [Pends, h]
  rfl

theorem nextId_le (s : Requests) (k k' : Kind) :
    s.nextId k' ≤ Function.update s.nextId k (s.nextId k + 1) k' := by
  by_cases hk : k' = k
  · subst hk
    simp
  · simp [hk]

theorem pends_request {k : Kind} {e : Entry k} {sent : Bool} {r : Request} :
    (s.request k e sent).Pends r ↔ r = ⟨k, s.nextId k⟩ ∨ s.Pends r := by
  obtain ⟨k', id⟩ := r
  simp only [Pends, request, Request.mk.injEq]
  by_cases hk : k' = k
  · subst hk
    rw [Function.update_self, LinkedMap.get?_insert]
    by_cases hid : id = s.nextId k' <;> simp [hid]
  · rw [Function.update_of_ne hk]
    simp [hk]

theorem pends_settle {r r' : Request} {e : Ending} :
    (s.settle r' e).Pends r ↔ r ≠ r' ∧ s.Pends r := by
  obtain ⟨k, id⟩ := r
  obtain ⟨k', id'⟩ := r'
  simp only [Pends, settle, ne_eq, Request.mk.injEq]
  by_cases hk : k = k'
  · subst hk
    rw [Function.update_self, LinkedMap.get?_erase]
    by_cases hid : id = id' <;> simp [hid]
  · rw [Function.update_of_ne hk]
    simp [hk]

theorem answer_of_pends {r : Request} {e : Ending} (h : s.Pends r) : s.answer r e = s.settle r e := by
  obtain ⟨v, hv⟩ := Option.isSome_iff_exists.mp h
  rw [answer, hv]

theorem answer_of_not_pends {r : Request} {e : Ending} (h : ¬ s.Pends r) : s.answer r e = s := by
  rw [Pends, Option.not_isSome_iff_eq_none] at h
  rw [answer, h]

@[simp] theorem closing_answer (r : Request) (e : Ending) : (s.answer r e).closing = s.closing := by
  rw [answer]
  split <;> rfl

theorem pends_closeTables {r : Request} : s.closeTables.Pends r ↔ r.kind = .call ∧ s.Pends r := by
  simp only [Pends, closeTables]
  by_cases hk : r.kind = .call
  · simp [hk]
  · simp [hk]

theorem pends_noCalls {r : Request} :
    Pends { s with pending := Function.update s.pending .call .empty } r ↔
      r.kind ≠ .call ∧ s.Pends r := by
  obtain ⟨k, id⟩ := r
  by_cases hk : k = .call
  · subst hk
    simp [Pends]
  · simp [Pends, hk]

/-- What a message does to the requests. -/
def hear (s : Requests) (m : Message) : Requests :=
  match m.answered with
  | none => s
  | some r => s.answer r (.reply m)

@[simp] theorem closing_hear (m : Message) : (s.hear m).closing = s.closing := by
  rw [hear]
  split <;> simp

end Requests

namespace Session

open Requests

variable {s : Session}

theorem handleSubscribed_requests (m : Message) (id subscriptionId : Nat) :
    (s.handleSubscribed m id subscriptionId).toRequests =
      s.toRequests.answer ⟨.subscribe, id⟩ (.reply m) := by
  rw [handleSubscribed]
  split
  · next h => rw [Requests.answer, h]
  · rfl

theorem handleUnsubscribed_requests (m : Message) (id : Nat) (revoked : Option Nat) :
    (s.handleUnsubscribed m id revoked).toRequests =
      s.toRequests.answer ⟨.unsubscribe, id⟩ (.reply m) := by
  have hreply : (s.handleUnsubscribed m id none).toRequests =
      s.toRequests.answer ⟨.unsubscribe, id⟩ (.reply m) := by
    simp only [handleUnsubscribed]
    split
    · next h => rw [Requests.answer, h]
    · rfl
  cases revoked <;> exact hreply

theorem handleUnregistered_requests (m : Message) (id : Nat) :
    (s.handleUnregistered m id).toRequests =
      s.toRequests.answer ⟨.unregister, id⟩ (.reply m) := by
  rw [handleUnregistered]
  split
  · next h => rw [Requests.answer, h]
  · rfl

theorem handleTransportMessage_requests (m : Message) (throwing : List Nat) :
    (s.handleTransportMessage m throwing).toRequests = s.toRequests.hear m := by
  cases m with
  | result id progress => cases progress <;> rfl
  | published id _ => rfl
  | subscribed id subscriptionId => exact handleSubscribed_requests _ _ _
  | unsubscribed id revoked => exact handleUnsubscribed_requests _ _ _
  | registered id registrationId => rfl
  | unregistered id => exact handleUnregistered_requests _ _
  | event _ _ => rfl
  | error requestTypeId id _ =>
      simp only [handleTransportMessage, handleError, hear, Message.answered]
      cases tableOfError requestTypeId <;> rfl
  | other => rfl

/-- A release does nothing, sends UNSUBSCRIBE for the last handler, or takes one of several away. -/
theorem releaseSubscription_cases (s : Session) (subscribed : Subscribed) (sends : Bool) :
    s.releaseSubscription subscribed sends = s ∨
      (s.handlers subscribed.subscriptionId = [subscribed] ∧
        s.releaseSubscription subscribed sends =
          s.unsubscribe subscribed.subscriptionId sends) ∨
      ∃ subscriptions, s.releaseSubscription subscribed sends =
        { s with
          subscriptionHandlers := s.subscriptionHandlers.insert subscribed.subscriptionId
            ((s.handlers subscribed.subscriptionId).filter (· ≠ subscribed))
          subscriptions := subscriptions } := by
  rw [releaseSubscription, handlers]
  dsimp only
  cases s.subscriptionHandlers.get? subscribed.subscriptionId with
  | none => exact .inl rfl
  | some handlers =>
      dsimp only [Option.getD_some]
      by_cases hmem : subscribed ∈ handlers
      · rw [if_neg (not_not_intro hmem)]
        by_cases hlast : handlers.length = 1
        · obtain ⟨y, rfl⟩ := List.length_eq_one_iff.mp hlast
          rw [if_pos hlast, List.mem_singleton.mp hmem]
          exact .inr (.inl ⟨rfl, rfl⟩)
        · rw [if_neg hlast]
          exact .inr (.inr ⟨_, rfl⟩)
      · rw [if_pos hmem]
        exact .inl rfl

theorem releaseSubscription_requests (subscribed : Subscribed) (sends : Bool) :
    (s.releaseSubscription subscribed sends).toRequests = s.toRequests ∨
      (s.releaseSubscription subscribed sends).toRequests =
        s.toRequests.request .unsubscribe subscribed.subscriptionId sends := by
  obtain hs | ⟨-, hs⟩ | ⟨_, hs⟩ := s.releaseSubscription_cases subscribed sends
  · exact .inl (by rw [hs])
  · exact .inr (by rw [hs]; rfl)
  · exact .inl (by rw [hs])

end Session

/-! ### The books -/

/-- The calls that the close has still to end. -/
def Closing.queue : Closing → List (Nat × PendingCall)
  | .calls _ rest => rest
  | .opened | .draining | .closed => []

/-- The calls that it has in hand: the one it waits for, and the queue. -/
def Closing.inHand : Closing → List (Nat × PendingCall)
  | .calls p rest => p :: rest
  | .opened | .draining | .closed => []

/-- A request made is in its table, in the queue of a close, or has ended; and in one of them
only. -/
structure Ledger (s : Requests) (queue : List (Nat × PendingCall)) : Prop where
  once : (s.endings.map Prod.fst).Nodup
  ended_lt : ∀ {r}, s.Ended r → r.id < s.nextId r.kind
  pends_lt : ∀ {r}, s.Pends r → r.id < s.nextId r.kind
  queued_lt : ∀ {q}, q ∈ queue → q.1 < s.nextId .call
  apart : ∀ {r}, s.Pends r → ¬ s.Ended r
  queued : ∀ {q}, q ∈ queue → ¬ s.Ended ⟨.call, q.1⟩ ∧ ¬ s.Pends ⟨.call, q.1⟩
  distinct : (queue.map Prod.fst).Nodup
  kept : ∀ {r}, r ∈ s.issued →
    s.Pends r ∨ (∃ q ∈ queue, r = ⟨.call, q.1⟩) ∨ s.Ended r

theorem nodup_snoc {l : List (Request × Ending)} (h : (l.map Prod.fst).Nodup) {r : Request}
    (hr : r ∉ l.map Prod.fst) (e : Ending) : ((l ++ [(r, e)]).map Prod.fst).Nodup := by
  rw [List.map_append, List.map_singleton, ← List.concat_eq_append]
  exact h.concat hr

namespace Ledger

open Requests

variable {s : Requests} {queue : List (Nat × PendingCall)}

theorem request (h : Ledger s queue) (k : Kind) (e : Entry k) :
    Ledger (s.request k e true) queue := by
  have hle : ∀ k', s.nextId k' ≤ (s.request k e true).nextId k' := s.nextId_le k
  have hended : ∀ r, (s.request k e true).Ended r ↔ s.Ended r := fun r => Iff.rfl
  -- the new id is above those of all older requests
  have hnew : ∀ {r : Request}, r.id < s.nextId r.kind → r ≠ ⟨k, s.nextId k⟩ := by
    rintro r hr rfl
    exact Nat.lt_irrefl _ hr
  refine ⟨h.once, fun hr => (h.ended_lt hr).trans_le (hle _), fun {r} hr => ?_,
    fun hq => (h.queued_lt hq).trans_le (hle _), fun {r} hr hr' => ?_, fun {q} hq => ?_, h.distinct,
    fun {r} hr => ?_⟩
  · obtain rfl | hr := pends_request.mp hr
    · simp [Requests.request]
    · exact (h.pends_lt hr).trans_le (hle _)
  · obtain rfl | hr := pends_request.mp hr
    · exact hnew (h.ended_lt hr') rfl
    · exact h.apart hr hr'
  · refine ⟨(h.queued hq).1, fun hr => ?_⟩
    obtain hr | hr := pends_request.mp hr
    · exact hnew (h.queued_lt hq) hr
    · exact (h.queued hq).2 hr
  · have hold : ∀ {r}, r ∈ s.issued → (s.request k e true).Pends r ∨
        (∃ q ∈ queue, r = ⟨.call, q.1⟩) ∨ (s.request k e true).Ended r :=
      fun hr => (h.kept hr).imp_left fun hr => pends_request.mpr (.inr hr)
    have hissued : (s.request k e true).issued =
      if s.closing = .closed then s.issued else s.issued ++ [⟨k, s.nextId k⟩] := rfl
    rw [hissued] at hr
    split at hr
    · exact hold hr
    · obtain hr | hr := List.mem_append.mp hr
      · exact hold hr
      · exact .inl (pends_request.mpr (.inl (List.mem_singleton.mp hr)))

theorem settle (h : Ledger s queue) {r : Request} (hr : s.Pends r) (e : Ending) :
    Ledger (s.settle r e) queue := by
  have hended : ∀ r', (s.settle r e).Ended r' ↔ s.Ended r' ∨ r' = r := fun r' => by
    simp [Ended, Requests.settle]
  refine ⟨?_, fun {r'} hr' => ?_, fun hr' => h.pends_lt (pends_settle.mp hr').2, h.queued_lt,
    fun {r'} hr' he => ?_, fun {q} hq => ⟨fun he => ?_, fun hp => ?_⟩, h.distinct,
    fun {r'} hr' => ?_⟩
  · exact nodup_snoc h.once (h.apart hr) e
  · obtain hr' | rfl := (hended r').mp hr'
    · exact h.ended_lt hr'
    · exact h.pends_lt hr
  · obtain ⟨hne, hp⟩ := pends_settle.mp hr'
    obtain he | he := (hended r').mp he
    · exact h.apart hp he
    · exact hne he
  · obtain he | rfl := (hended _).mp he
    · exact (h.queued hq).1 he
    · exact (h.queued hq).2 hr
  · exact (h.queued hq).2 (pends_settle.mp hp).2
  · by_cases hrr : r' = r
    · exact .inr (.inr ((hended r').mpr (.inr hrr)))
    · obtain hp | hq | he := h.kept hr'
      · exact .inl (pends_settle.mpr ⟨hrr, hp⟩)
      · exact .inr (.inl hq)
      · exact .inr (.inr ((hended r').mpr (.inl he)))

/-- The close ends the next call of its queue. -/
theorem pop {p : Nat × PendingCall} (h : Ledger s (p :: queue)) (c : Closing) :
    Ledger { s with endings := s.endings ++ [(⟨.call, p.1⟩, .closed)], closing := c } queue := by
  have hp := h.queued List.mem_cons_self
  have hended : ∀ r, Ended { s with
      endings := s.endings ++ [(⟨.call, p.1⟩, .closed)], closing := c } r ↔
        s.Ended r ∨ r = ⟨.call, p.1⟩ := fun r => by simp [Ended]
  have hdistinct := List.nodup_cons.mp h.distinct
  refine ⟨?_, fun {r} hr => ?_, h.pends_lt, fun hq => h.queued_lt (List.mem_cons_of_mem _ hq),
    fun {r} hr he => ?_, fun {q} hq => ⟨fun he => ?_, (h.queued (List.mem_cons_of_mem _ hq)).2⟩,
    hdistinct.2, fun {r} hr => ?_⟩
  · exact nodup_snoc h.once hp.1 .closed
  · obtain hr | rfl := (hended r).mp hr
    · exact h.ended_lt hr
    · exact h.queued_lt List.mem_cons_self
  · obtain he | rfl := (hended r).mp he
    · exact h.apart hr he
    · exact hp.2 hr
  · obtain he | he := (hended _).mp he
    · exact (h.queued (List.mem_cons_of_mem _ hq)).1 he
    · refine hdistinct.1 ?_
      rw [← (Request.mk.inj he).2]
      exact List.mem_map_of_mem hq
  · obtain hr | ⟨q, hq, rfl⟩ | hr := h.kept hr
    · exact .inl hr
    · obtain rfl | hq := List.mem_cons.mp hq
      · exact .inr (.inr ((hended _).mpr (.inr rfl)))
      · exact .inr (.inl ⟨q, hq, rfl⟩)
    · exact .inr (.inr ((hended _).mpr (.inl hr)))

/-- The endings of the other tables, when the close empties them. -/
theorem ended_closeTables {r : Request} :
    s.closeTables.Ended r ↔ s.Ended r ∨ (r.kind ≠ .call ∧ s.Pends r) := by
  obtain ⟨k, id⟩ := r
  have hkeys : ∀ k', id ∈ (s.pending k').keys ↔ ((s.pending k').get? id).isSome = true := by
    intro k'
    rw [LinkedMap.mem_keys, Option.isSome_iff_exists]
  simp only [Ended, Pends, closeTables, List.map_append, List.mem_append, ne_eq]
  refine or_congr_right ?_
  cases k <;> simp [hkeys]

theorem nodup_closeTables (h : Ledger s queue) : (s.closeTables.endings.map Prod.fst).Nodup := by
  simp only [Requests.closeTables, List.map_append, List.map_flatMap, List.map_map]
  have hkind : ∀ {k : Kind} {r : Request},
      r ∈ (s.pending k).keys.map (Prod.fst ∘ fun id => (Request.mk k id, Ending.closed)) →
        r.kind = k ∧ s.Pends r := by
    intro k r hr
    obtain ⟨id, hid, rfl⟩ := List.mem_map.mp hr
    obtain ⟨e, he⟩ := LinkedMap.mem_keys.mp hid
    exact ⟨rfl, pends_of_get? he⟩
  refine List.nodup_append.mpr ⟨h.once, List.nodup_flatMap.mpr ⟨fun k _ => ?_, ?_⟩, ?_⟩
  · exact (s.pending k).nodup.map fun a b hab => (Request.mk.inj hab).2
  · have hkinds : [Kind.publish, .subscribe, .unsubscribe, .register, .unregister].Nodup := by
      decide
    refine hkinds.imp fun hne r hr hr' => hne ?_
    exact (hkind hr).1.symm.trans (hkind hr').1
  · rintro r hr r' hr' rfl
    obtain ⟨k, -, hr'⟩ := List.mem_flatMap.mp hr'
    exact h.apart (hkind hr').2 hr

theorem closeTables (h : Ledger s []) (hcalls : ∀ id, ¬ s.Pends ⟨.call, id⟩) :
    Ledger s.closeTables [] ∧ ∀ r ∈ s.issued, s.closeTables.Ended r := by
  have hnone : ∀ {r}, ¬ s.closeTables.Pends r := by
    rintro ⟨k, id⟩ hr
    obtain ⟨rfl, hr⟩ := pends_closeTables.mp hr
    exact hcalls id hr
  have hall : ∀ r ∈ s.issued, s.closeTables.Ended r := by
    intro r hr
    refine ended_closeTables.mpr ?_
    obtain hr | ⟨q, hq, -⟩ | hr := h.kept hr
    · refine .inr ⟨fun hk => ?_, hr⟩
      obtain ⟨k, id⟩ := r
      cases hk
      exact hcalls id hr
    · cases hq
    · exact .inl hr
  refine ⟨⟨?_, fun {r} hr => ?_, fun hr => absurd hr hnone, fun hq => (nomatch hq),
    fun hr => absurd hr hnone, fun hq => (nomatch hq), h.distinct,
    fun hr => .inr (.inr (hall _ hr))⟩, hall⟩
  · exact nodup_closeTables h
  · obtain hr | ⟨-, hr⟩ := ended_closeTables.mp hr
    · exact h.ended_lt hr
    · exact h.pends_lt hr

end Ledger

/-- The books of a session, by how far its close is. -/
structure Books (s : Requests) : Prop where
  ledger : Ledger s s.closing.queue
  /-- While calls are closed, no new one waits. -/
  idle : ∀ {p rest}, s.closing = .calls p rest → ∀ id, ¬ s.Pends ⟨.call, id⟩
  /-- The streams that are closed have their listeners. -/
  heard : ∀ q ∈ s.closing.inHand, q.2.stream = true → q.1 ∈ s.listening
  flushed : s.closing = .draining ∨ s.closing = .closed → ∀ r ∈ s.issued, s.Ended r

namespace Books

open Requests

variable {s : Requests}

theorem request (h : Books s) (k : Kind) (e : Entry k) (hcall : k = .call → s.closing = .opened ∨
    s.closing = .closed) (hdraining : s.closing ≠ .draining) : Books (s.request k e true) := by
  refine ⟨h.ledger.request k e, fun {p rest} hc id hp => ?_, h.heard, ?_⟩
  · obtain hr | hr := pends_request.mp hp
    · have hopen := hcall (Request.mk.inj hr).1.symm
      rw [show s.closing = .calls p rest from hc] at hopen
      simp at hopen
    · exact h.idle hc id hr
  · rintro (hc | hc) r hr
    · exact absurd hc hdraining
    · have hissued : (s.request k e true).issued = s.issued := if_pos hc
      exact h.flushed (.inr hc) r (hissued ▸ hr)

theorem answer (h : Books s) (r : Request) (e : Ending) : Books (s.answer r e) := by
  by_cases hr : s.Pends r
  · rw [answer_of_pends hr]
    refine ⟨h.ledger.settle hr e, fun hc id hp => h.idle hc id (pends_settle.mp hp).2, h.heard,
      fun hc r' hr' => ?_⟩
    have hended := h.flushed hc r' hr'
    simp only [Ended, Requests.settle, List.map_append, List.mem_append] at hended ⊢
    exact .inl hended
  · rw [answer_of_not_pends hr]
    exact h

theorem hear (h : Books s) (m : Message) : Books (s.hear m) := by
  rw [Requests.hear]
  split
  · exact h
  · exact h.answer _ _

theorem listening (h : Books s) {l : List Nat}
    (hl : ∀ q ∈ s.closing.inHand, q.1 ∈ s.listening → q.1 ∈ l) :
    Books { s with listening := l } where
  ledger := ⟨h.ledger.once, h.ledger.ended_lt, h.ledger.pends_lt, h.ledger.queued_lt,
    h.ledger.apart, h.ledger.queued, h.ledger.distinct, h.ledger.kept⟩
  idle := h.idle
  heard := fun q hq hstream => hl q hq (h.heard q hq hstream)
  flushed := h.flushed

end Books

namespace Session

open Requests

variable {s : Session}

/-- No send fails; no call is made while the transport closes, and no other request once that has
emptied the tables; and the streams of calls that it closes have a listener. -/
def Sound (s : Session) : Input → Prop
  | .call _ _ sends => sends = true ∧ (s.closing = .opened ∨ s.closing = .closed)
  | .publish _ acknowledge sends => acknowledge = true → sends = true ∧ s.closing ≠ .draining
  | .subscribe _ _ sends | .unsubscribe _ sends | .releaseSubscription _ sends
  | .register _ sends | .unregister _ sends => sends = true ∧ s.closing ≠ .draining
  | .pause requestId => ∀ q ∈ s.closing.inHand, q.1 ≠ requestId
  | .transportClosed => s.closing = .opened →
      ∀ p ∈ (s.pending .call).entries, p.2.stream = true → p.1 ∈ s.listening
  | .listen _ | .cancel _ | .message _ _ | .resume => True

instance (s : Session) (i : Input) : Decidable (s.Sound i) := by
  cases i <;> unfold Sound <;> infer_instance

theorem books_closeCalls {rest : List (Nat × PendingCall)} (h : Ledger s.toRequests rest)
    (hidle : ∀ id, ¬ s.Pends ⟨.call, id⟩)
    (hheard : ∀ q ∈ rest, q.2.stream = true → q.1 ∈ s.listening) :
    Books (s.closeCalls rest).toRequests := by
  cases rest with
  | nil =>
      obtain ⟨hledger, hall⟩ := h.closeTables hidle
      exact ⟨hledger, fun hc => (nomatch hc), fun _ hq => (nomatch hq), fun _ => hall⟩
  | cons p rest =>
      refine ⟨h.pop _, fun _ => hidle, hheard, fun hc => ?_⟩
      obtain hc | hc := hc <;> cases hc

/-- The calls leave their table for the queue of the close. -/
theorem ledger_close (h : Ledger s.toRequests []) :
    Ledger { s.toRequests with pending := Function.update s.pending .call .empty }
      (s.pending .call).entries := by
  have hcalls : ∀ {q}, q ∈ (s.pending .call).entries → s.Pends ⟨.call, q.1⟩ :=
    fun {q} hq => pends_of_get? (LinkedMap.mem_entries.mp (show (q.1, q.2) ∈ _ from hq))
  refine ⟨h.once, h.ended_lt, fun hr => h.pends_lt (pends_noCalls.mp hr).2,
    fun hq => h.pends_lt (hcalls hq), fun hr => h.apart (pends_noCalls.mp hr).2,
    fun hq => ⟨h.apart (hcalls hq), fun hr => (pends_noCalls.mp hr).1 rfl⟩, (s.pending .call).nodup,
    fun {r} hr => ?_⟩
  obtain hr | ⟨q, hq, -⟩ | hr := h.kept hr
  · by_cases hk : r.kind = .call
    · obtain ⟨k, id⟩ := r
      cases hk
      obtain ⟨e, he⟩ := Option.isSome_iff_exists.mp hr
      exact .inr (.inl ⟨(id, e), LinkedMap.mem_entries.mpr he, rfl⟩)
    · exact .inl (pends_noCalls.mpr ⟨hk, hr⟩)
  · cases hq
  · exact .inr (.inr hr)

theorem books_handleTransportClosed (h : Books s.toRequests)
    (hheard : s.closing = .opened →
      ∀ p ∈ (s.pending .call).entries, p.2.stream = true → p.1 ∈ s.listening) :
    Books s.handleTransportClosed.toRequests := by
  rw [handleTransportClosed]
  split
  · next hopen =>
      have hqueue : Ledger s.toRequests [] := by
        have hledger := h.ledger
        rw [hopen] at hledger
        exact hledger
      refine books_closeCalls (ledger_close hqueue) (fun id hp => ?_) (hheard hopen)
      simp [Pends] at hp
  · exact h

theorem books_resume (h : Books s.toRequests) : Books s.resume.toRequests := by
  rw [resume]
  cases hc : s.closing with
  | opened => exact h
  | closed => exact h
  | draining =>
      have hledger := h.ledger
      have hheard := h.heard
      have hflushed := h.flushed (.inl hc)
      rw [hc] at hledger
      exact ⟨⟨hledger.once, hledger.ended_lt, hledger.pends_lt, hledger.queued_lt, hledger.apart,
        hledger.queued, hledger.distinct, hledger.kept⟩, fun hc => (nomatch hc),
        fun _ hq => (nomatch hq), fun _ => hflushed⟩
  | calls p rest =>
      dsimp only
      split
      · exact h
      · have hledger := h.ledger
        have hheard := h.heard
        rw [hc] at hledger hheard
        exact books_closeCalls hledger (h.idle hc)
          fun q hq => hheard q (List.mem_cons_of_mem _ hq)

/-- Ids are used up by what nobody waits for, too. -/
theorem books_unacknowledged (h : Books s.toRequests) (k : Kind) :
    Books { s.toRequests with nextId := Function.update s.nextId k (s.nextId k + 1) } := by
  have hle := s.nextId_le k
  have hledger := h.ledger
  exact ⟨⟨hledger.once, fun hr => (hledger.ended_lt hr).trans_le (hle _),
    fun hr => (hledger.pends_lt hr).trans_le (hle _),
    fun hq => (hledger.queued_lt hq).trans_le (hle _), hledger.apart, hledger.queued,
    hledger.distinct, hledger.kept⟩, h.idle, h.heard, h.flushed⟩

theorem books_cancel (h : Books s.toRequests) (id : Nat) : Books (s.cancel id).toRequests := by
  rw [cancel]
  dsimp only
  split
  · have hanswer := h.answer ⟨.call, id⟩ .cancelled
    refine hanswer.listening fun q _ hq => List.mem_cons_of_mem _ ?_
    by_cases hp : s.Pends ⟨.call, id⟩
    · rw [answer_of_pends hp] at hq
      exact hq
    · rw [answer_of_not_pends hp] at hq
      exact hq
  · exact h.listening fun q _ hq => List.mem_cons_of_mem _ hq

theorem books_step (h : Books s.toRequests) {i : Input} (hi : s.Sound i) :
    Books (s.step i).toRequests := by
  cases i with
  | call procedure stream sends =>
      obtain ⟨rfl, hopen⟩ := hi
      refine h.request .call _ (fun _ => hopen) fun hc => ?_
      rw [hc] at hopen
      simp at hopen
  | publish topic acknowledge sends =>
      cases acknowledge with
      | false => exact books_unacknowledged h .publish
      | true =>
          obtain ⟨rfl, hdraining⟩ := hi rfl
          exact h.request .publish _ (fun hk => (nomatch hk)) hdraining
  | subscribe topic policy sends =>
      obtain ⟨rfl, hdraining⟩ := hi
      exact h.request .subscribe _ (fun hk => (nomatch hk)) hdraining
  | unsubscribe subscriptionId sends =>
      obtain ⟨rfl, hdraining⟩ := hi
      exact h.request .unsubscribe _ (fun hk => (nomatch hk)) hdraining
  | releaseSubscription subscribed sends =>
      obtain ⟨rfl, hdraining⟩ := hi
      obtain hs | hs := releaseSubscription_requests (s := s) subscribed true
      · exact hs ▸ h
      · exact hs ▸ h.request .unsubscribe _ (fun hk => (nomatch hk)) hdraining
  | register procedure sends =>
      obtain ⟨rfl, hdraining⟩ := hi
      exact h.request .register _ (fun hk => (nomatch hk)) hdraining
  | unregister registrationId sends =>
      obtain ⟨rfl, hdraining⟩ := hi
      exact h.request .unregister _ (fun hk => (nomatch hk)) hdraining
  | listen id => exact h.listening fun q _ hq => List.mem_cons_of_mem _ hq
  | pause id =>
      exact h.listening fun q hq hmem => List.mem_filter.mpr ⟨hmem, decide_eq_true (hi q hq)⟩
  | cancel id => exact books_cancel h id
  | message m throwing =>
      change Books (s.handleTransportMessage m throwing).toRequests
      rw [handleTransportMessage_requests]
      exact h.hear m
  | transportClosed => exact books_handleTransportClosed h hi
  | resume => exact books_resume h

/-! ### One step of a run -/

/-- What an input can do to the requests: make one, or end some. -/
structure Advance (i : Input) (s s' : Requests) : Prop where
  grows : ∀ k, s.nextId k ≤ s'.nextId k
  made : ∀ {r}, s'.Pends r → s.Pends r ∨ r.id = s.nextId r.kind ∧ s'.nextId r.kind = r.id + 1
  ended : ∃ more, s'.endings = s.endings ++ more ∧ ∀ r m, (r, .reply m) ∈ more →
    (∃ throwing, i = .message m throwing) ∧ s.Pends r ∧ m.answered = some r

theorem advance_request (i : Input) (s : Requests) (k : Kind) (e : Entry k) (sends : Bool) :
    Advance i s (s.request k e sends) := by
  refine ⟨s.nextId_le k, fun hr => ?_, ?_⟩
  · obtain rfl | hr := pends_request.mp hr
    · exact .inr ⟨rfl, by simp [Requests.request]⟩
    · exact .inl hr
  · cases sends with
    | true => exact ⟨[], (List.append_nil _).symm, fun _ _ hr => (nomatch hr)⟩
    | false => exact ⟨_, rfl, fun r m hr => by simp at hr⟩

/-- No request is made, and none ends with a reply. -/
theorem advance_of_closed {i : Input} {s s' : Requests} (hnext : ∀ k, s.nextId k ≤ s'.nextId k)
    (hpends : ∀ {r}, s'.Pends r → s.Pends r) {more : List (Request × Ending)}
    (hended : s'.endings = s.endings ++ more) (hmore : ∀ p ∈ more, ∀ m, p.2 ≠ .reply m) :
    Advance i s s' :=
  ⟨hnext, fun hr => .inl (hpends hr), more, hended, fun r m hr => absurd rfl (hmore _ hr m)⟩

theorem advance_of_same {i : Input} {s s' : Requests} (hnext : ∀ k, s.nextId k ≤ s'.nextId k)
    (hpending : s'.pending = s.pending) (hended : s'.endings = s.endings) : Advance i s s' := by
  refine advance_of_closed hnext (fun {r} hr => ?_) (hended.trans (List.append_nil _).symm)
    fun _ hp => (nomatch hp)
  rw [Pends, hpending] at hr
  exact hr

theorem advance_closeCalls (i : Input) (rest : List (Nat × PendingCall)) :
    Advance i s.toRequests (s.closeCalls rest).toRequests := by
  cases rest with
  | nil =>
      refine advance_of_closed (fun _ => Nat.le_refl _) (fun hr => (pends_closeTables.mp hr).2) rfl
        fun p hp m he => ?_
      obtain ⟨k, -, hp⟩ := List.mem_flatMap.mp hp
      obtain ⟨id, -, rfl⟩ := List.mem_map.mp hp
      cases he
  | cons p rest =>
      refine advance_of_closed (fun _ => Nat.le_refl _) (fun hr => hr) rfl fun q hq m he => ?_
      rw [List.mem_singleton.mp hq] at he
      cases he

theorem advance_hear (s : Requests) (m : Message) (throwing : List Nat) :
    Advance (.message m throwing) s (s.hear m) := by
  rw [hear]
  split
  · exact advance_of_same (fun _ => Nat.le_refl _) rfl rfl
  · next r hr =>
      by_cases hp : s.Pends r
      · rw [answer_of_pends hp]
        refine ⟨fun _ => Nat.le_refl _, fun hr' => .inl (pends_settle.mp hr').2, _, rfl,
          fun r' m' hmem => ?_⟩
        obtain ⟨rfl, he⟩ := Prod.mk.inj (List.mem_singleton.mp hmem)
        cases he
        exact ⟨⟨throwing, rfl⟩, hp, hr⟩
      · rw [answer_of_not_pends hp]
        exact advance_of_same (fun _ => Nat.le_refl _) rfl rfl

theorem advance_step (s : Session) (i : Input) : Advance i s.toRequests (s.step i).toRequests := by
  cases i with
  | call procedure stream sends => exact advance_request _ _ _ _ _
  | publish topic acknowledge sends =>
      cases acknowledge with
      | false => exact advance_of_same (s.nextId_le .publish) rfl rfl
      | true => exact advance_request _ _ _ _ _
  | subscribe topic policy sends => exact advance_request _ _ _ _ _
  | unsubscribe subscriptionId sends => exact advance_request _ _ _ _ _
  | releaseSubscription subscribed sends =>
      change Advance _ _ (s.releaseSubscription subscribed sends).toRequests
      obtain hs | hs := releaseSubscription_requests (s := s) subscribed sends
      · rw [hs]
        exact advance_of_same (fun _ => Nat.le_refl _) rfl rfl
      · rw [hs]
        exact advance_request _ _ _ _ _
  | register procedure sends => exact advance_request _ _ _ _ _
  | unregister registrationId sends => exact advance_request _ _ _ _ _
  | listen id => exact advance_of_same (fun _ => Nat.le_refl _) rfl rfl
  | pause id => exact advance_of_same (fun _ => Nat.le_refl _) rfl rfl
  | cancel id =>
      change Advance _ _ (s.cancel id).toRequests
      rw [cancel]
      dsimp only
      split
      · by_cases hp : s.Pends ⟨.call, id⟩
        · rw [answer_of_pends hp]
          refine advance_of_closed (fun _ => Nat.le_refl _)
            (fun hr => (pends_settle (e := .cancelled).mp hr).2) rfl fun q hq m he => ?_
          rw [List.mem_singleton.mp hq] at he
          cases he
        · rw [answer_of_not_pends hp]
          exact advance_of_same (fun _ => Nat.le_refl _) rfl rfl
      · exact advance_of_same (fun _ => Nat.le_refl _) rfl rfl
  | message m throwing =>
      change Advance _ _ (s.handleTransportMessage m throwing).toRequests
      rw [handleTransportMessage_requests]
      exact advance_hear _ m throwing
  | transportClosed =>
      change Advance _ _ s.handleTransportClosed.toRequests
      rw [handleTransportClosed]
      split
      · obtain ⟨hnext, hmade, hended⟩ := advance_closeCalls
          (s := { s with pending := Function.update s.pending .call .empty }) .transportClosed
          (s.pending .call).entries
        exact ⟨hnext, fun hr => (hmade hr).imp_left fun hr => (pends_noCalls.mp hr).2, by
          obtain ⟨more, hmore, hreply⟩ := hended
          refine ⟨more, hmore, fun r m hr => ?_⟩
          obtain ⟨⟨_, hi⟩, -⟩ := hreply r m hr
          cases hi⟩
      · exact advance_of_same (fun _ => Nat.le_refl _) rfl rfl
  | resume =>
      change Advance _ _ s.resume.toRequests
      rw [resume]
      split
      · split
        · exact advance_of_same (fun _ => Nat.le_refl _) rfl rfl
        · exact advance_closeCalls _ _
      · exact advance_of_same (fun _ => Nat.le_refl _) rfl rfl
      · exact advance_of_same (fun _ => Nat.le_refl _) rfl rfl
      · exact advance_of_same (fun _ => Nat.le_refl _) rfl rfl

/-- A reply ends the request that it names. -/
theorem hear_answered {s : Requests} {m : Message} {r : Request} (hm : m.answered = some r) :
    ¬ (s.hear m).Pends r ∧ (s.Pends r → (r, .reply m) ∈ (s.hear m).endings) := by
  rw [hear, hm]
  dsimp only
  by_cases hp : s.Pends r
  · rw [answer_of_pends hp]
    exact ⟨fun hr => (pends_settle.mp hr).1 rfl, fun _ =>
      List.mem_append_right _ (List.mem_singleton_self _)⟩
  · rw [answer_of_not_pends hp]
    exact ⟨hp, fun hr => absurd hr hp⟩

/-! ### The close comes to its end -/

theorem resume_issued : s.resume.issued = s.issued := by
  rw [resume]
  split
  · next p rest _ =>
      split
      · rfl
      · cases rest <;> rfl
  · rfl
  · rfl
  · rfl

theorem closing_resume_calls (h : Books s.toRequests) {p : Nat × PendingCall}
    {rest : List (Nat × PendingCall)} (hc : s.closing = .calls p rest) :
    s.resume = s.closeCalls rest := by
  have hheard := h.heard
  rw [hc] at hheard
  have hnot : ¬ (p.2.stream = true ∧ p.1 ∉ s.listening) :=
    fun hp => hp.2 (hheard p List.mem_cons_self hp.1)
  rw [resume, hc]
  exact if_neg hnot

theorem closes_from_calls {p : Nat × PendingCall} {rest : List (Nat × PendingCall)}
    (h : Books s.toRequests) (hc : s.closing = .calls p rest) :
    ∃ n, (resume^[n] s).closing = .draining := by
  induction rest generalizing s p with
  | nil =>
      refine ⟨1, ?_⟩
      change s.resume.closing = _
      rw [closing_resume_calls h hc]
      rfl
  | cons q rest ih =>
      have hnext : s.resume.closing = .calls q rest := by
        rw [closing_resume_calls h hc]
        rfl
      obtain ⟨n, hn⟩ := ih (books_resume h) hnext
      exact ⟨n + 1, hn⟩

theorem books_iterate (h : Books s.toRequests) (n : Nat) :
    Books (resume^[n] s).toRequests ∧ (resume^[n] s).issued = s.issued := by
  induction n generalizing s with
  | zero => exact ⟨h, rfl⟩
  | succ n ih =>
      obtain ⟨hbooks, hissued⟩ := ih (books_resume h)
      exact ⟨hbooks, hissued.trans resume_issued⟩

/-- A close that has begun comes to its end, and leaves no request open. -/
theorem closes (h : Books s.toRequests) (hc : s.closing ≠ .opened) :
    ∃ n, (resume^[n] s).closing = .closed ∧ ∀ r ∈ s.issued, (resume^[n] s).Ended r := by
  have hlast : ∃ n, (resume^[n] s).closing = .closed := by
    have hdrains : ∀ n, (resume^[n] s).closing = .draining → (resume^[n + 1] s).closing = .closed := by
      intro n hn
      rw [Function.iterate_succ_apply', resume, hn]
    cases hs : s.closing with
    | opened => exact absurd hs hc
    | calls p rest =>
        obtain ⟨n, hn⟩ := closes_from_calls h hs
        exact ⟨n + 1, hdrains n hn⟩
    | draining => exact ⟨1, hdrains 0 hs⟩
    | closed => exact ⟨0, hs⟩
  obtain ⟨n, hn⟩ := hlast
  obtain ⟨hbooks, hissued⟩ := books_iterate h n
  exact ⟨n, hn, fun r hr => hbooks.flushed (.inr hn) r (hissued ▸ hr)⟩

/-! ### Runs -/

/-- The session after a run. -/
def after (inputs : List Input) : Session :=
  inputs.foldl step {}

/-- `r` has been made, and no reply to it has come since. -/
def Unanswered (inputs : List Input) (r : Request) : Prop :=
  ∃ before i between, inputs = before ++ i :: between ∧
    (r.id = (after before).nextId r.kind ∧ ((after before).step i).nextId r.kind = r.id + 1) ∧
    ∀ m throwing, .message m throwing ∈ between → m.answered ≠ some r

/-- The requests of a run are settled as they should be. -/
structure Orderly (inputs : List Input) : Prop where
  /-- A future or a stream ends at most once. -/
  once : ((after inputs).endings.map Prod.fst).Nodup
  /-- The reply that it ends with is the first that names it. -/
  first : ∀ r m, (r, .reply m) ∈ (after inputs).endings →
    ∃ before throwing rest, inputs = before ++ .message m throwing :: rest ∧
      m.answered = some r ∧ Unanswered before r
  /-- The reply to a request in its table ends it. -/
  answered : ∀ before m throwing rest r, inputs = before ++ .message m throwing :: rest →
    m.answered = some r → (after before).Pends r → (r, .reply m) ∈ (after inputs).endings
  /-- Once the transport has closed, the session comes to a point where all requests made before
  or during the close have ended. -/
  closed : (after inputs).closing ≠ .opened →
    ∃ n, (resume^[n] (after inputs)).closing = .closed ∧
      ∀ r ∈ (after inputs).issued, (resume^[n] (after inputs)).Ended r
  /-- No table keeps an entry whose request has ended. -/
  tables : ∀ r, (after inputs).Pends r → ¬ (after inputs).Ended r

/-- What a run keeps: the books, and what the requests have to do with the replies so far. -/
structure Trace (inputs : List Input) (s : Session) : Prop where
  state : s = after inputs
  books : Books s.toRequests
  unanswered : ∀ r, s.Pends r → Unanswered inputs r
  first : ∀ r m, (r, .reply m) ∈ s.endings →
    ∃ before throwing rest, inputs = before ++ .message m throwing :: rest ∧
      m.answered = some r ∧ Unanswered before r
  answered : ∀ before m throwing rest r, inputs = before ++ .message m throwing :: rest →
    m.answered = some r → (after before).Pends r → (r, .reply m) ∈ s.endings

theorem trace_nil : Trace [] {} where
  state := rfl
  books :=
    { ledger :=
        { once := List.nodup_nil
          ended_lt := fun hr => (nomatch hr)
          pends_lt := fun hr => (nomatch hr)
          queued_lt := fun hq => (nomatch hq)
          apart := fun hr => (nomatch hr)
          queued := fun hq => (nomatch hq)
          distinct := List.nodup_nil
          kept := fun hr => (nomatch hr) }
      idle := fun hc => (nomatch hc)
      heard := fun _ hq => (nomatch hq)
      flushed := fun hc => (nomatch hc) }
  unanswered := fun _ hr => (nomatch hr)
  first := fun _ _ hr => (nomatch hr)
  answered := fun before m throwing rest r h => by simp at h

/-- A request that is still in its table has not been answered by the last input either. -/
theorem Unanswered.snoc {inputs : List Input} {r : Request} (h : Unanswered inputs r) {i : Input}
    (hi : ∀ m throwing, i = .message m throwing → m.answered ≠ some r) :
    Unanswered (inputs ++ [i]) r := by
  obtain ⟨before, j, between, rfl, hmade, hbetween⟩ := h
  refine ⟨before, j, between ++ [i], by simp, hmade, fun m throwing hm => ?_⟩
  obtain hm | hm := List.mem_append.mp hm
  · exact hbetween m throwing hm
  · exact hi m throwing (List.mem_singleton.mp hm).symm

theorem Trace.step {inputs : List Input} {s : Session} (h : Trace inputs s) {i : Input}
    (hi : s.Sound i) : Trace (inputs ++ [i]) (s.step i) := by
  obtain ⟨-, hmade, more, hmore, hreplies⟩ := advance_step s i
  have hheard : ∀ {m throwing r}, i = .message m throwing → m.answered = some r →
      ¬ (s.step i).Pends r ∧ (s.Pends r → (r, .reply m) ∈ (s.step i).endings) := by
    rintro m throwing r rfl hm
    change ¬ (s.handleTransportMessage m throwing).Pends r ∧
      (_ → _ ∈ (s.handleTransportMessage m throwing).endings)
    rw [handleTransportMessage_requests]
    exact hear_answered hm
  refine ⟨?_, books_step h.books hi, fun r hr => ?_, fun r m hr => ?_,
    fun before m throwing rest r hin hm hr => ?_⟩
  · rw [after, List.foldl_append, ← after, ← h.state]
    rfl
  · obtain hold | hnew := hmade hr
    · exact (h.unanswered r hold).snoc fun m throwing hmessage hm => (hheard hmessage hm).1 hr
    · exact ⟨inputs, i, [], rfl, h.state ▸ hnew, fun _ _ hm => (nomatch hm)⟩
  · rw [hmore] at hr
    obtain hold | hnew := List.mem_append.mp hr
    · obtain ⟨before, throwing, rest, rfl, hm, hbefore⟩ := h.first r m hold
      exact ⟨before, throwing, rest ++ [i], by simp, hm, hbefore⟩
    · obtain ⟨⟨throwing, rfl⟩, hp, hm⟩ := hreplies r m hnew
      exact ⟨inputs, throwing, [], rfl, hm, h.unanswered r hp⟩
  · obtain rfl | ⟨rest, j, rfl⟩ := List.eq_nil_or_concat rest
    · -- the reply is the last input
      obtain ⟨rfl, hmessage⟩ := List.append_inj' hin rfl
      exact (hheard (List.singleton_inj.mp hmessage) hm).2 (h.state ▸ hr)
    · have hin' : inputs ++ [i] = (before ++ .message m throwing :: rest) ++ [j] := by
        rw [hin, List.concat_eq_append, List.append_assoc, List.cons_append]
      rw [hmore]
      exact List.mem_append_left _
        (h.answered before m throwing rest r (List.append_inj' hin' rfl).1 hm hr)

/-- **Requests settle once.**  In a run in which no send fails, no call is made while the transport
closes and no other request after that has emptied the tables, and the streams that it closes have
listeners, every request ends at most once, with the first reply that names it; the close leaves
none open; and no table keeps one that has ended. -/
theorem requests_settle_once {inputs : List Input} {s : Session}
    (h : Run step Sound {} inputs s) : Orderly inputs := by
  have htrace : Trace ([] ++ inputs) s := h.history (fun _ _ _ h hi => h.step hi) trace_nil
  obtain ⟨rfl, hbooks, -, hfirst, hanswered⟩ := htrace
  exact ⟨hbooks.ledger.once, hfirst, hanswered, closes hbooks, fun r => hbooks.ledger.apart⟩

/-- A call with an interim result and a subscription that is answered, and a close that ends the
call and a publication. -/
theorem requests_settle_once_closing :
    Orderly [.subscribe "topic" .exact true, .call "procedure" true true, .listen 1,
      .message (.subscribed 1 9) [], .message (.result 1 true) [], .publish "topic" true true,
      .transportClosed, .resume, .resume] :=
  requests_settle_once (Run.of_admitted (by decide))

/-- A call made while the close waits for another one is never ended; a send that fails leaves its
entry behind; and a stream that nobody listens to keeps the close from all that comes after it. -/
theorem requests_left_open :
    ¬ Orderly [.call "first" false true, .transportClosed, .call "second" false true, .resume,
        .resume] ∧
      ¬ Orderly [.publish "topic" true false] ∧
      ¬ Orderly [.call "procedure" true true, .publish "topic" true true, .transportClosed] := by
  refine ⟨fun h => ?_, fun h => ?_, fun h => ?_⟩
  · obtain ⟨n, -, hended⟩ := h.closed (by decide)
    have hlost := hended ⟨.call, 2⟩ (by decide)
    rw [Function.iterate_fixed rfl] at hlost
    exact absurd hlost (by decide)
  · exact h.tables ⟨.publish, 1⟩ (by decide) (by decide)
  · obtain ⟨n, hclosed, -⟩ := h.closed (by decide)
    rw [Function.iterate_fixed rfl] at hclosed
    cases hclosed

end Session

end Client

end Connectanum
