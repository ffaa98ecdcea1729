import Connectanum.Client.Settled

/-!
# Client — Handlers

The handlers that share a subscription.  The router gives every SUBSCRIBE of a session to one topic
and policy the same subscription, and the table of handlers goes by its id.

* `Watched`: a session, and the handlers that its user counts on;
* `Serves`: what the user expects of an event and of a release;
* `Careful`: the inputs under which the session does as expected.
-/

namespace Connectanum

open Collections Machine

namespace Client

open Requests Session

/-- A session with the handlers whose subscribe has completed and that have been neither released
nor unsubscribed since. -/
structure Watched where
  session : Session := {}
  live : List Subscribed := []

namespace Watched

variable {w w' : Watched}

/-- Who is live after an input.  A subscription that the router revokes is unsubscribed, too. -/
def track (w : Watched) : Input → List Subscribed
  | .message (.subscribed id subscriptionId) _ =>
      match (w.session.pending .subscribe).get? id with
      | none => w.live
      | some (pending : PendingSubscribe) =>
          w.live ++ [⟨id, subscriptionId, pending.topic, pending.policy⟩]
  | .message (.unsubscribed _ (some subscriptionId)) _ =>
      w.live.filter (·.subscriptionId ≠ subscriptionId)
  | .unsubscribe subscriptionId _ => w.live.filter (·.subscriptionId ≠ subscriptionId)
  | .releaseSubscription subscribed _ => w.live.filter (· ≠ subscribed)
  | _ => w.live

def step (w : Watched) (i : Input) : Watched where
  session := w.session.step i
  live := w.track i

def after (inputs : List Input) : Watched :=
  inputs.foldl step {}

/-- While the transport is open, an event reaches each live handler of its subscription once, and a
release sends UNSUBSCRIBE only if the subscription has no other handler, and none whose SUBSCRIBE
for the same topic and policy is unanswered. -/
def Serves (w : Watched) : Input → Prop
  | .message (.event subscriptionId publicationId) throwing =>
      w.session.closing = .opened → ∀ h ∈ w.live, h.subscriptionId = subscriptionId →
        ∃ calls, (w.session.step (.message (.event subscriptionId publicationId) throwing)).delivered
            = w.session.delivered ++ calls ∧
          calls.count (h, publicationId) = 1
  | .releaseSubscription subscribed sends =>
      w.session.closing = .opened → ∀ id, .unsubscribe id subscribed.subscriptionId ∈
          (w.session.step (.releaseSubscription subscribed sends)).sent.drop w.session.sent.length →
        w.session.handlers subscribed.subscriptionId = [subscribed] ∧
          (∀ h ∈ w.live, h.subscriptionId = subscribed.subscriptionId → h = subscribed) ∧
          ∀ e ∈ (w.session.pending .subscribe).entries, e.2 ≠ ⟨subscribed.topic, subscribed.policy⟩
  | _ => True

/-- The last handler of a subscription is not released while a SUBSCRIBE for the same topic and
policy is unanswered; no SUBSCRIBED comes for a subscription while an UNSUBSCRIBE of it is
unanswered; and no handler with others after it throws. -/
def Careful (w : Watched) : Input → Prop
  | .releaseSubscription subscribed _ =>
      w.session.handlers subscribed.subscriptionId = [subscribed] →
        ∀ e ∈ (w.session.pending .subscribe).entries, e.2 ≠ ⟨subscribed.topic, subscribed.policy⟩
  | .message (.subscribed id subscriptionId) _ =>
      w.session.Pends ⟨.subscribe, id⟩ →
        ∀ e ∈ (w.session.pending .unsubscribe).entries, e.2 ≠ subscriptionId
  | .message (.event subscriptionId _) throwing =>
      ∀ h ∈ (w.session.handlers subscriptionId).dropLast, h.subscribeRequestId ∉ throwing
  | _ => True

/-- The table of handlers has the live ones, each once, under its own id; and an UNSUBSCRIBE that
is unanswered will not touch them. -/
structure Kept (w : Watched) : Prop where
  below : ∀ {n}, w.session.Pends ⟨.subscribe, n⟩ → n < w.session.nextId .subscribe
  mine : ∀ {id h}, h ∈ w.session.handlers id → h.subscriptionId = id
  known : ∀ {id h}, h ∈ w.session.handlers id →
    h.subscribeRequestId < w.session.nextId .subscribe ∧
      ¬ w.session.Pends ⟨.subscribe, h.subscribeRequestId⟩
  nodup : ∀ id, (w.session.handlers id).Nodup
  attached : ∀ {h}, h ∈ w.live → h ∈ w.session.handlers h.subscriptionId
  apart : ∀ {u id}, (w.session.pending .unsubscribe).get? u = some id →
    ∀ h ∈ w.live, h.subscriptionId ≠ id

/-! ### The tables after a step -/

/-- Entries are taken out of the tables only. -/
theorem get?_answer {s : Requests} {r : Request} {e : Ending} {k : Kind} {u : Nat} {v : Entry k}
    (h : ((s.answer r e).pending k).get? u = some v) : (s.pending k).get? u = some v := by
  by_cases hr : s.Pends r
  · rw [answer_of_pends hr] at h
    change (Function.update s.pending r.kind _ k).get? u = some v at h
    by_cases hk : k = r.kind
    · subst hk
      rw [Function.update_self, LinkedMap.get?_erase] at h
      split at h
      · cases h
      · exact h
    · rwa [Function.update_of_ne hk] at h
  · rwa [answer_of_not_pends hr] at h

theorem get?_hear {s : Requests} {m : Message} {k : Kind} {u : Nat} {v : Entry k}
    (h : ((s.hear m).pending k).get? u = some v) : (s.pending k).get? u = some v := by
  rw [hear] at h
  split at h
  · exact h
  · exact get?_answer h

/-- The ids of requests that were made stay below the next one, and do not come back. -/
theorem Kept.ids (h : Kept w) (i : Input) :
    (∀ {n}, (w.step i).session.Pends ⟨.subscribe, n⟩ → n < (w.step i).session.nextId .subscribe) ∧
      ∀ {id x}, x ∈ w.session.handlers id →
        x.subscribeRequestId < (w.step i).session.nextId .subscribe ∧
          ¬ (w.step i).session.Pends ⟨.subscribe, x.subscribeRequestId⟩ := by
  obtain ⟨hgrows, hmade, -⟩ := advance_step w.session i
  refine ⟨fun {n} hp => ?_, fun {id x} hx => ?_⟩
  · obtain hp | ⟨-, hnext⟩ := hmade hp
    · exact (h.below hp).trans_le (hgrows _)
    · exact hnext ▸ Nat.lt_succ_self n
  · obtain ⟨hlt, hpends⟩ := h.known hx
    refine ⟨hlt.trans_le (hgrows _), fun hp => ?_⟩
    obtain hp | ⟨hid, -⟩ := hmade hp
    · exact hpends hp
    · exact absurd hid (Nat.ne_of_lt hlt)

/-- An input after which the table has no new handlers. -/
theorem Kept.shrink (h : Kept w) {i : Input}
    (hhandlers : ∀ id, ((w.step i).session.handlers id).Sublist (w.session.handlers id))
    (hattached : ∀ x ∈ w.track i, x ∈ (w.step i).session.handlers x.subscriptionId)
    (hapart : ∀ {u id}, ((w.step i).session.pending .unsubscribe).get? u = some id →
      ∀ x ∈ w.track i, x.subscriptionId ≠ id) : Kept (w.step i) := by
  obtain ⟨hbelow, hknown⟩ := h.ids i
  exact ⟨hbelow, fun {id x} hx => h.mine ((hhandlers id).subset hx),
    fun {id x} hx => hknown ((hhandlers id).subset hx),
    fun id => (h.nodup id).sublist (hhandlers id), fun hx => hattached _ hx, hapart⟩

theorem Kept.idle (h : Kept w) {i : Input} (hs : w.session.step i = w.session)
    (hlive : ∀ x ∈ w.track i, x ∈ w.live) : Kept (w.step i) := by
  refine h.shrink (fun id => ?_) (fun x hx => ?_) fun {u id} hu x hx => ?_
  · change ((w.session.step i).handlers id).Sublist _
    rw [hs]
  · change x ∈ (w.session.step i).handlers _
    rw [hs]
    exact h.attached (hlive x hx)
  · change ((w.session.step i).pending .unsubscribe).get? u = some id at hu
    rw [hs] at hu
    exact h.apart hu x (hlive x hx)

/-- What leaves the handlers alone. -/
theorem Kept.frame (h : Kept w) {i : Input}
    (hhandlers : ∀ id, (w.step i).session.handlers id = w.session.handlers id)
    (hlive : w.track i = w.live)
    (hunsubscribes : ∀ {u id}, ((w.step i).session.pending .unsubscribe).get? u = some id →
      (w.session.pending .unsubscribe).get? u = some id) : Kept (w.step i) := by
  refine h.shrink (fun id => hhandlers id ▸ List.Sublist.refl _) (fun x hx => ?_)
    fun hu x hx => h.apart (hunsubscribes hu) x (hlive ▸ hx)
  rw [hhandlers]
  exact h.attached (hlive ▸ hx)

/-- A message that only answers a request. -/
theorem Kept.message (h : Kept w) {m : Message} {throwing : List Nat}
    (hhandlers : ∀ id, (w.session.handleTransportMessage m throwing).handlers id =
      w.session.handlers id)
    (hlive : w.track (.message m throwing) = w.live) : Kept (w.step (.message m throwing)) := by
  refine h.frame hhandlers hlive fun {u id} hu => ?_
  change ((w.session.handleTransportMessage m throwing).pending .unsubscribe).get? u = some id at hu
  rw [handleTransportMessage_requests] at hu
  exact get?_hear hu

/-- The new entry is the only one that the handlers have to fear. -/
theorem Kept.unsubscribe (h : Kept w) {i : Input} {subscriptionId : Nat} {sends : Bool}
    (hstep : w.session.step i = w.session.unsubscribe subscriptionId sends)
    (hlive : ∀ x ∈ w.track i, x ∈ w.live ∧ x.subscriptionId ≠ subscriptionId) :
    Kept (w.step i) := by
  refine h.shrink (fun id => ?_) (fun x hx => ?_) fun {u id} hu x hx => ?_
  · change ((w.session.step i).handlers id).Sublist _
    rw [hstep]
    exact List.Sublist.refl _
  · change x ∈ (w.session.step i).handlers _
    rw [hstep]
    exact h.attached (hlive x hx).1
  · change ((w.session.step i).pending .unsubscribe).get? u = some id at hu
    rw [hstep] at hu
    change ((w.session.pending .unsubscribe).insert _ subscriptionId).get? u = some id at hu
    rw [LinkedMap.get?_insert] at hu
    split at hu
    · cases hu
      exact (hlive x hx).2
    · exact h.apart hu x (hlive x hx).1

theorem handlers_insert {s : Session} {table : LinkedMap Nat (List Subscribed)} {k : Nat}
    {l : List Subscribed} (hs : s.subscriptionHandlers = table.insert k l) (id : Nat) :
    s.handlers id = if id = k then l else (table.get? id).getD [] := by
  rw [Session.handlers, hs, LinkedMap.get?_insert]
  split <;> rfl

theorem handlers_removeSubscription (s : Session) (k id : Nat) :
    (s.removeSubscription k).handlers id = if id = k then [] else s.handlers id := by
  rw [Session.handlers, removeSubscription, LinkedMap.get?_erase]
  split <;> rfl

theorem Kept.release (h : Kept w) (subscribed : Subscribed) (sends : Bool) :
    Kept (w.step (.releaseSubscription subscribed sends)) := by
  have hlive : ∀ {x}, x ∈ w.track (.releaseSubscription subscribed sends) →
      x ∈ w.live ∧ x ≠ subscribed := by
    intro x hx
    obtain ⟨hx, hne⟩ := List.mem_filter.mp hx
    exact ⟨hx, of_decide_eq_true hne⟩
  obtain hs | ⟨hlast, hs⟩ | ⟨subscriptions, hs⟩ :=
    w.session.releaseSubscription_cases subscribed sends
  · exact h.idle hs fun x hx => (hlive hx).1
  · -- a live handler of the subscription would be the one that is released
    refine h.unsubscribe hs fun x hx => ⟨(hlive hx).1, fun hid => ?_⟩
    have hx' := h.attached (hlive hx).1
    rw [hid, hlast, List.mem_singleton] at hx'
    exact (hlive hx).2 hx'
  · have hafter : ∀ id, (w.session.releaseSubscription subscribed sends).handlers id =
        if id = subscribed.subscriptionId then
          (w.session.handlers subscribed.subscriptionId).filter (· ≠ subscribed)
        else w.session.handlers id := by
      intro id
      rw [hs]
      exact handlers_insert rfl id
    refine h.shrink (fun id => ?_) (fun x hx => ?_) fun {u id} hu x hx => ?_
    · change ((w.session.releaseSubscription _ _).handlers id).Sublist _
      rw [hafter]
      split
      · next hid =>
          rw [hid]
          exact List.filter_sublist
      · exact List.Sublist.refl _
    · change x ∈ (w.session.releaseSubscription _ _).handlers _
      have hx' := h.attached (hlive hx).1
      rw [hafter]
      split
      · next hid =>
          rw [hid] at hx'
          exact List.mem_filter.mpr ⟨hx', decide_eq_true (hlive hx).2⟩
      · exact hx'
    · change ((w.session.releaseSubscription _ _).pending .unsubscribe).get? u = some id at hu
      rw [hs] at hu
      exact h.apart hu x (hlive hx).1

/-- The handlers of a subscription go with its UNSUBSCRIBED, and no live one is among them. -/
theorem Kept.unsubscribed (h : Kept w) (u : Nat) (revoked : Option Nat) (throwing : List Nat) :
    Kept (w.step (.message (.unsubscribed u revoked) throwing)) := by
  have hlive : ∀ {x}, x ∈ w.track (.message (.unsubscribed u revoked) throwing) →
      x ∈ w.live ∧ ∀ v, revoked = some v → x.subscriptionId ≠ v := by
    intro x hx
    cases revoked with
    | none => exact ⟨hx, by simp⟩
    | some v =>
        obtain ⟨hx, hne⟩ := List.mem_filter.mp hx
        refine ⟨hx, ?_⟩
        rintro _ ⟨⟩
        exact of_decide_eq_true hne
  have hafter : ∀ id,
      (w.session.handleUnsubscribed (.unsubscribed u revoked) u revoked).handlers id =
        w.session.handlers id ∨
      (w.session.handleUnsubscribed (.unsubscribed u revoked) u revoked).handlers id = [] ∧
        (revoked = some id ∨ (w.session.pending .unsubscribe).get? u = some id) := by
    intro id
    have hreply :
        (w.session.handleUnsubscribed (.unsubscribed u revoked) u none).handlers id =
            w.session.handlers id ∨
          (w.session.handleUnsubscribed (.unsubscribed u revoked) u none).handlers id = [] ∧
            (w.session.pending .unsubscribe).get? u = some id := by
      simp only [handleUnsubscribed]
      split
      · exact .inl rfl
      · next k hk =>
          change (w.session.removeSubscription k).handlers id = _ ∨
            (w.session.removeSubscription k).handlers id = [] ∧ _
          rw [handlers_removeSubscription]
          by_cases hid : id = k
          · exact .inr ⟨if_pos hid, hid ▸ hk⟩
          · exact .inl (if_neg hid)
    cases revoked with
    | none => exact hreply.imp_right fun hr => ⟨hr.1, .inr hr.2⟩
    | some v =>
        rw [handleUnsubscribed, handlers_removeSubscription]
        by_cases hid : id = v
        · exact .inr ⟨if_pos hid, .inl (congrArg some hid.symm)⟩
        · rw [if_neg hid]
          exact hreply.imp_right fun hr => ⟨hr.1, .inr hr.2⟩
  refine h.shrink (fun id => ?_) (fun x hx => ?_) fun {v id} hv x hx => ?_
  · change ((w.session.handleUnsubscribed _ u revoked).handlers id).Sublist _
    obtain hsame | ⟨hnone, -⟩ := hafter id
    · rw [hsame]
    · rw [hnone]
      exact List.nil_sublist _
  · change x ∈ (w.session.handleUnsubscribed _ u revoked).handlers _
    obtain ⟨hx, hrevoked⟩ := hlive hx
    obtain hsame | ⟨-, hgone | hgone⟩ := hafter x.subscriptionId
    · rw [hsame]
      exact h.attached hx
    · exact absurd rfl (hrevoked _ hgone)
    · exact absurd rfl (h.apart hgone x hx)
  · change ((w.session.handleTransportMessage _ throwing).pending .unsubscribe).get? v = some id at hv
    rw [handleTransportMessage_requests] at hv
    exact h.apart (get?_hear hv) x (hlive hx).1

/-- A handler joins those of a subscription that no UNSUBSCRIBE is under way for. -/
theorem Kept.subscribed (h : Kept w) {id subscriptionId : Nat} {throwing : List Nat}
    (hcareful : w.Careful (.message (.subscribed id subscriptionId) throwing)) :
    Kept (w.step (.message (.subscribed id subscriptionId) throwing)) := by
  cases hpending : (w.session.pending .subscribe).get? id with
  | none =>
      refine h.message (fun k => ?_) (by rw [track, hpending])
      change (w.session.handleSubscribed _ id subscriptionId).handlers k = _
      rw [handleSubscribed, hpending]
  | some pending =>
      have hp : w.session.Pends ⟨.subscribe, id⟩ := pends_of_get? hpending
      let new : Subscribed := ⟨id, subscriptionId, pending.topic, pending.policy⟩
      have hlive : (w.step (.message (.subscribed id subscriptionId) throwing)).live =
          w.live ++ [new] := by
        change w.track (.message (.subscribed id subscriptionId) throwing) = _
        rw [track, hpending]
      have hafter : ∀ k, (w.step (.message (.subscribed id subscriptionId) throwing)).session.handlers
          k = if k = subscriptionId then w.session.handlers subscriptionId ++ [new]
            else w.session.handlers k := by
        intro k
        change (w.session.handleSubscribed _ id subscriptionId).handlers k = _
        rw [handleSubscribed, hpending]
        exact handlers_insert rfl k
      have hmem : ∀ {k x}, x ∈ (w.step (.message (.subscribed id subscriptionId)
          throwing)).session.handlers k → x ∈ w.session.handlers k ∨ (x = new ∧ k = subscriptionId) := by
        intro k x hx
        rw [hafter] at hx
        split at hx
        · next hk =>
            obtain hx | hx := List.mem_append.mp hx
            · exact .inl (hk ▸ hx)
            · exact .inr ⟨List.mem_singleton.mp hx, hk⟩
        · exact .inl hx
      have hgone : ¬ (w.step (.message (.subscribed id subscriptionId) throwing)).session.Pends
          ⟨.subscribe, id⟩ := by
        change ¬ (w.session.handleTransportMessage _ throwing).Pends _
        rw [handleTransportMessage_requests]
        exact (hear_answered rfl).1
      have hold : new ∉ w.session.handlers subscriptionId := fun hx => (h.known hx).2 hp
      obtain ⟨hbelow, hknown⟩ := h.ids (.message (.subscribed id subscriptionId) throwing)
      have hgrows := (advance_step w.session
        (.message (.subscribed id subscriptionId) throwing)).grows .subscribe
      refine ⟨hbelow, fun {k x} hx => ?_, fun {k x} hx => ?_, fun k => ?_, fun {x} hx => ?_,
        fun {u k} hu x hx => ?_⟩
      · obtain hx | ⟨rfl, rfl⟩ := hmem hx
        · exact h.mine hx
        · rfl
      · obtain hx | ⟨rfl, -⟩ := hmem hx
        · exact hknown hx
        · exact ⟨(h.below hp).trans_le hgrows, hgone⟩
      · rw [hafter]
        split
        · rw [← List.concat_eq_append]
          exact (h.nodup subscriptionId).concat hold
        · exact h.nodup k
      · rw [hafter]
        rw [hlive] at hx
        obtain hx | hx := List.mem_append.mp hx
        · split
          · next hk => exact List.mem_append_left _ (hk ▸ h.attached hx)
          · exact h.attached hx
        · rw [List.mem_singleton.mp hx, if_pos rfl]
          exact List.mem_append_right _ (List.mem_singleton_self _)
      · rw [hlive] at hx
        change ((w.session.handleTransportMessage _ throwing).pending .unsubscribe).get? u = some k at hu
        rw [handleTransportMessage_requests] at hu
        obtain hx | hx := List.mem_append.mp hx
        · exact h.apart (get?_hear hu) x hx
        · rw [List.mem_singleton.mp hx]
          exact (hcareful hp _ (LinkedMap.mem_entries.mpr (get?_hear hu))).symm

theorem closeCalls_ne_opened (s : Session) (rest : List (Nat × PendingCall)) :
    (s.closeCalls rest).closing ≠ .opened := by
  cases rest <;> exact fun h => (nomatch h)

/-- A close that has begun stays so. -/
theorem opened_of_step {s : Session} {i : Input} (h : (s.step i).closing = .opened) :
    s.closing = .opened := by
  cases i with
  | publish topic acknowledge sends => cases acknowledge <;> exact h
  | releaseSubscription subscribed sends =>
      change (s.releaseSubscription subscribed sends).closing = _ at h
      obtain hs | hs := releaseSubscription_requests (s := s) subscribed sends <;>
        rw [hs] at h <;> exact h
  | cancel id =>
      change (s.cancel id).closing = _ at h
      rw [cancel] at h
      dsimp only at h
      split at h
      · rwa [closing_answer] at h
      · exact h
  | message m throwing =>
      change (s.handleTransportMessage m throwing).closing = _ at h
      rwa [handleTransportMessage_requests, closing_hear] at h
  | transportClosed =>
      change s.handleTransportClosed.closing = _ at h
      rw [handleTransportClosed] at h
      split at h
      · assumption
      · exact h
  | resume =>
      change s.resume.closing = _ at h
      rw [resume] at h
      split at h
      · split at h
        · exact h
        · exact absurd h (closeCalls_ne_opened _ _)
      · cases h
      · exact h
      · exact h
  | _ => exact h

theorem Kept.step (h : Kept w) {i : Input} (hi : w.Careful i)
    (hopen : (w.step i).session.closing = .opened) : Kept (w.step i) := by
  have hopened := opened_of_step hopen
  cases i with
  | call procedure stream sends => exact h.frame (fun _ => rfl) rfl fun hu => hu
  | publish topic acknowledge sends =>
      cases acknowledge <;> exact h.frame (fun _ => rfl) rfl fun hu => hu
  | subscribe topic policy sends => exact h.frame (fun _ => rfl) rfl fun hu => hu
  | unsubscribe subscriptionId sends =>
      refine h.unsubscribe rfl fun x hx => ?_
      obtain ⟨hx, hne⟩ := List.mem_filter.mp hx
      exact ⟨hx, of_decide_eq_true hne⟩
  | releaseSubscription subscribed sends => exact h.release subscribed sends
  | register procedure sends => exact h.frame (fun _ => rfl) rfl fun hu => hu
  | unregister registrationId sends => exact h.frame (fun _ => rfl) rfl fun hu => hu
  | listen id => exact h.frame (fun _ => rfl) rfl fun hu => hu
  | pause id => exact h.frame (fun _ => rfl) rfl fun hu => hu
  | cancel id =>
      refine h.frame (fun _ => rfl) rfl fun {u k} hu => ?_
      change ((w.session.cancel id).pending .unsubscribe).get? u = some k at hu
      rw [cancel] at hu
      dsimp only at hu
      split at hu
      · exact get?_answer hu
      · exact hu
  | message m throwing =>
      cases m with
      | result id progress => cases progress <;> exact h.message (fun _ => rfl) rfl
      | published id _ => exact h.message (fun _ => rfl) rfl
      | subscribed id subscriptionId => exact h.subscribed hi
      | unsubscribed id revoked => exact h.unsubscribed id revoked throwing
      | registered id registrationId => exact h.message (fun _ => rfl) rfl
      | unregistered id =>
          refine h.message (fun k => ?_) rfl
          change (w.session.handleUnregistered _ id).handlers k = _
          rw [handleUnregistered]
          split <;> rfl
      | event subscriptionId publicationId => exact h.message (fun _ => rfl) rfl
      | error requestTypeId id _ =>
          refine h.message (fun k => ?_) rfl
          change (w.session.handleError _ requestTypeId id).handlers k = _
          rw [handleError]
          split <;> rfl
      | other => exact h.message (fun _ => rfl) rfl
  | transportClosed =>
      change w.session.handleTransportClosed.closing = _ at hopen
      rw [handleTransportClosed, if_pos hopened] at hopen
      exact absurd hopen (closeCalls_ne_opened _ _)
  | resume =>
      have hs : w.session.step .resume = w.session := by
        change w.session.resume = _
        rw [resume, hopened]
      exact h.idle hs fun x hx => hx

/-! ### Runs -/

theorem reached_of_quiet {throwing : List Nat} {l : List Subscribed}
    (h : ∀ x ∈ l.dropLast, x.subscribeRequestId ∉ throwing) : reached throwing l = l := by
  induction l with
  | nil => rfl
  | cons x rest ih =>
      rw [reached]
      cases rest with
      | nil =>
          split
          · rfl
          · rfl
      | cons y rest =>
          rw [if_neg (h x List.mem_cons_self), ih fun z hz => h z (List.mem_cons_of_mem _ hz)]

theorem kept_initial : Kept {} where
  below := fun hp => (nomatch hp)
  mine := fun hx => (nomatch hx)
  known := fun hx => (nomatch hx)
  nodup := fun _ => List.nodup_nil
  attached := fun hx => (nomatch hx)
  apart := fun hu => (nomatch hu)

theorem kept_of_run {inputs : List Input} (h : Run step Careful {} inputs w) :
    w.session.closing = .opened → Kept w := by
  refine h.invariant (P := fun w => w.session.closing = .opened → Kept w) ?_ fun _ => kept_initial
  intro w i hw hi hopen
  exact (hw (opened_of_step hopen)).step hi hopen

theorem serves_event (h : Kept w) {subscriptionId publicationId : Nat} {throwing : List Nat}
    (hi : w.Careful (.message (.event subscriptionId publicationId) throwing)) {x : Subscribed}
    (hx : x ∈ w.live) (hid : x.subscriptionId = subscriptionId) :
    ∃ calls, (w.session.step (.message (.event subscriptionId publicationId) throwing)).delivered
        = w.session.delivered ++ calls ∧ calls.count (x, publicationId) = 1 := by
  refine ⟨_, rfl, ?_⟩
  rw [reached_of_quiet hi]
  refine List.count_eq_one_of_mem ?_ ?_
  · exact (h.nodup subscriptionId).map fun a b hab => (Prod.mk.inj hab).1
  · exact List.mem_map_of_mem (hid ▸ h.attached hx)

theorem serves_release (h : Kept w) {subscribed : Subscribed} {sends : Bool}
    (hi : w.Careful (.releaseSubscription subscribed sends)) {id : Nat}
    (hid : .unsubscribe id subscribed.subscriptionId ∈
      (w.session.releaseSubscription subscribed sends).sent.drop w.session.sent.length) :
    w.session.handlers subscribed.subscriptionId = [subscribed] ∧
      (∀ x ∈ w.live, x.subscriptionId = subscribed.subscriptionId → x = subscribed) ∧
      ∀ e ∈ (w.session.pending .subscribe).entries, e.2 ≠ ⟨subscribed.topic, subscribed.policy⟩ := by
  obtain hs | ⟨hlast, -⟩ | ⟨_, hs⟩ := w.session.releaseSubscription_cases subscribed sends
  · rw [hs] at hid
    simp at hid
  · refine ⟨hlast, fun x hx hsame => ?_, hi hlast⟩
    have hmem := h.attached hx
    rw [hsame, hlast] at hmem
    exact List.mem_singleton.mp hmem
  · rw [hs] at hid
    simp at hid

/-- **Handlers are served.**  Assume that the last handler of a subscription is not released while a
SUBSCRIBE for the same topic and policy is unanswered, that no SUBSCRIBED comes for a subscription
while an UNSUBSCRIBE of it is unanswered, and that no handler with others after it throws.  Then
every event of the run reaches each live handler of its subscription once, and every release that
sends UNSUBSCRIBE is that of the last handler. -/
theorem handlers_served {inputs : List Input} (h : Run step Careful {} inputs w) :
    ∀ before i rest, inputs = before ++ i :: rest → (after before).Serves i := by
  rintro before i rest rfl
  obtain ⟨w', hbefore, hrest⟩ := h.split
  obtain rfl := hbefore.eq_foldl
  have hkept := kept_of_run hbefore
  obtain _ | ⟨hi, -⟩ := hrest
  cases i with
  | message m throwing =>
      cases m with
      | event subscriptionId publicationId =>
          intro hopen x hx hid
          exact serves_event (hkept hopen) hi hx hid
      | _ => trivial
  | releaseSubscription subscribed sends =>
      intro hopen id hid
      exact serves_release (hkept hopen) hi hid
  | _ => trivial

instance (w : Watched) : (i : Input) → Decidable (w.Careful i)
  | .message (.subscribed ..) _ | .message (.event ..) _ | .message (.result ..) _
  | .message (.published ..) _ | .message (.unsubscribed ..) _ | .message (.registered ..) _
  | .message (.unregistered ..) _ | .message (.error ..) _ | .message .other _
  | .releaseSubscription .. | .call .. | .publish .. | .subscribe .. | .unsubscribe ..
  | .register .. | .unregister .. | .listen .. | .pause .. | .cancel .. | .transportClosed
  | .resume => by dsimp only [Careful]; infer_instance

/-- Two handlers share a subscription; one of them is released between two events. -/
theorem handlers_served_shared :
    let inputs : List Input :=
      [.subscribe "topic" .exact true, .message (.subscribed 1 9) [],
        .subscribe "topic" .exact true, .message (.subscribed 2 9) [], .message (.event 9 5) [],
        .releaseSubscription ⟨1, 9, "topic", .exact⟩ true, .message (.event 9 6) []]
    ∀ before i rest, inputs = before ++ i :: rest → (after before).Serves i :=
  handlers_served (Run.of_admitted (by decide))

/-- The only handler of a subscription is released while a second SUBSCRIBE for its topic is
unanswered: UNSUBSCRIBE is sent, and its reply takes the second handler away. -/
theorem second_handler_torn_down :
    let released : Subscribed := ⟨1, 9, "topic", .exact⟩
    let second : List Input :=
      [.subscribe "topic" .exact true, .message (.subscribed 1 9) [],
        .subscribe "topic" .exact true]
    let answered : List Input :=
      second ++ [.releaseSubscription released true, .message (.subscribed 2 9) [],
        .message (.unsubscribed 1 none) []]
    ¬ (after second).Serves (.releaseSubscription released true) ∧
      ¬ (after answered).Serves (.message (.event 9 5) []) := by
  refine ⟨fun h => ?_, fun h => ?_⟩
  · obtain ⟨-, -, hnone⟩ := h rfl 1 (by decide)
    exact hnone (2, ⟨"topic", .exact⟩) (by decide) rfl
  · obtain ⟨calls, hcalls, hcount⟩ := h rfl ⟨2, 9, "topic", .exact⟩ (by decide) rfl
    have hnone : calls = [] := hcalls.symm
    rw [hnone] at hcount
    cases hcount

end Watched

end Client

end Connectanum
