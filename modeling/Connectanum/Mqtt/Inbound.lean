import Connectanum.Lib.Runs
import Connectanum.Native.Frame

/-!
# Mqtt — Inbound

The queue between the task that reads an MQTT connection and the consumer that polls it.

The reading task puts a chunk into the queue, then raises the notification flag, and calls the
wake-up callback when the flag was down.  A poll takes chunks off the queue; when there is none it
lowers the flag and looks again.  Every operation on the queue, on the flag and on the callback is one
step, and the steps of the task, of a poll and of the consumer interleave in any way (`step`).

`Sound` is what holds in every state reached.  Its first part accounts for the bytes, the others for
the wake-ups: the flag is up only while a wake-up is under way (`flagged`), and the bytes that wait
for a consumer that has gone to sleep have a wake-up under way (`covered`).
-/

namespace Connectanum

namespace Mqtt

open Machine (Run)
open Wamp (Bytes)

/-- Where a poll is: `taking` and `gathering` are the two reads of `try_recv_limited`, and
`resetting` is before the flag is lowered. -/
inductive Poll where
  | idle
  | taking (maxBytes : Nat) (retry : Bool)
  | gathering (maxBytes : Nat) (combined : Bytes)
  | resetting (maxBytes : Nat)
  deriving DecidableEq, Repr

/-- Where the reading task is after it has put a chunk into the queue. -/
inductive Sending where
  | idle
  | swapping
  | notifying
  deriving DecidableEq, Repr

structure Inbound where
  queue : List Bytes := []
  /-- The sender has not been dropped. -/
  connected : Bool := true
  pending : Option Bytes := none
  notificationPending : Bool := false
  /-- A callback is set. -/
  wakeup : Bool := false
  poll : Poll := .idle
  sending : Sending := .idle
  /-- What was put into the queue. -/
  handed : Bytes := []
  /-- What the polls returned. -/
  polled : List Bytes := []
  /-- The calls of the callback that the consumer has not acted upon. -/
  wakeups : Nat := 0
  /-- The consumer has set its callback, or was woken, and has not polled until empty since. -/
  owes : Bool := false
  /-- The poll under way began after the consumer last set its callback or was woken. -/
  fresh : Bool := false
  deriving Repr

/-- The capacity of the queue. -/
def queueCapacity : Nat := 64

namespace Inbound

/-! ### Polls -/

/-- The first chunk of a poll.  The result of a poll that has not ended is `none`. -/
def receive (s : Inbound) (maxBytes : Nat) (bytes : Bytes) : Inbound × Option (Option Bytes) :=
  if maxBytes < bytes.length then
    ({ s with pending := some (bytes.drop maxBytes) }, some (some (bytes.take maxBytes)))
  else ({ s with poll := .gathering maxBytes bytes }, none)

/-- `poll_with_wake_reset`, up to the next operation on the queue or on the flag. -/
def advance (s : Inbound) : Inbound × Option (Option Bytes) :=
  match s.poll with
  | .idle => (s, none)
  | .taking maxBytes retry =>
      match s.pending with
      | some bytes => receive { s with pending := none } maxBytes bytes
      | none =>
          match s.queue with
          | bytes :: rest => receive { s with queue := rest } maxBytes bytes
          | [] =>
              if s.connected && !retry then ({ s with poll := .resetting maxBytes }, none)
              else (s, some none)
  | .gathering maxBytes combined =>
      if combined.length < maxBytes then
        match s.queue with
        | [] => (s, some (some combined))
        | next :: rest =>
            let remaining := maxBytes - combined.length
            if remaining < next.length then
              ({ s with queue := rest, pending := some (next.drop remaining) },
                some (some (combined ++ next.take remaining)))
            else ({ s with queue := rest, poll := .gathering maxBytes (combined ++ next) }, none)
      else (s, some (some combined))
  | .resetting maxBytes =>
      ({ s with notificationPending := false, poll := .taking maxBytes true }, none)

/-- The poll returns.  One that returns nothing is what the consumer owed, unless it began too
early. -/
def finish (s : Inbound) : Option (Option Bytes) → Inbound
  | none => s
  | some none => { s with poll := .idle, owes := s.owes && !s.fresh }
  | some (some bytes) => { s with poll := .idle, polled := s.polled ++ [bytes] }

/-! ### Steps -/

inductive Input where
  /-- The reading task: `chunk_tx.send`, the swap of the flag, the call of the callback. -/
  | send (bytes : Bytes)
  | swap
  | notify
  /-- The reading task ends, or is aborted where it waits. -/
  | drop
  /-- The consumer: `poll_mqtt_chunk` begins and goes on, `set_mqtt_wakeup`, and a wake-up. -/
  | begin (maxBytes : Nat)
  | advance
  | setWakeup (callback : Bool)
  | wake
  deriving DecidableEq, Repr

def step (s : Inbound) : Input → Inbound
  | .send bytes =>
      { s with queue := s.queue ++ [bytes], handed := s.handed ++ bytes, sending := .swapping }
  | .swap =>
      { s with
        notificationPending := true
        sending := if s.notificationPending then .idle else .notifying }
  | .notify => { s with sending := .idle, wakeups := s.wakeups + s.wakeup.toNat }
  | .drop => { s with connected := false }
  | .begin maxBytes => { s with poll := .taking maxBytes false, fresh := true }
  | .advance => s.advance.1.finish s.advance.2
  | .setWakeup callback =>
      { s with wakeup := callback, owes := s.owes || callback, fresh := s.fresh && !callback }
  | .wake => { s with wakeups := s.wakeups - 1, owes := true, fresh := false }

def ok (s : Inbound) : Input → Prop
  | .send _ =>
      s.connected = true ∧ s.sending = .idle ∧ s.queue.length < queueCapacity
  | .swap => s.sending = .swapping
  | .notify => s.sending = .notifying
  | .drop => s.sending = .idle
  | .begin maxBytes => s.poll = .idle ∧ 0 < maxBytes
  | .advance => s.poll ≠ .idle
  | .setWakeup _ => True
  | .wake => 0 < s.wakeups

instance (s : Inbound) : (i : Input) → Decidable (s.ok i)
  | .send _ =>
      inferInstanceAs (Decidable (s.connected = true ∧ s.sending = .idle ∧
        s.queue.length < queueCapacity))
  | .swap => inferInstanceAs (Decidable (s.sending = .swapping))
  | .notify => inferInstanceAs (Decidable (s.sending = .notifying))
  | .drop => inferInstanceAs (Decidable (s.sending = .idle))
  | .begin maxBytes => inferInstanceAs (Decidable (s.poll = .idle ∧ 0 < maxBytes))
  | .advance => inferInstanceAs (Decidable (s.poll ≠ .idle))
  | .setWakeup _ => inferInstanceAs (Decidable True)
  | .wake => inferInstanceAs (Decidable (0 < s.wakeups))

/-- The reading task goes on to where it has dealt with the chunk that it has put into the queue.
It does not wait on the way. -/
def settle (s : Inbound) : Inbound :=
  match s.sending with
  | .idle => s
  | .swapping => if s.notificationPending then s.step .swap else (s.step .swap).step .notify
  | .notifying => s.step .notify

theorem wakeups_le_settle (s : Inbound) : s.wakeups ≤ s.settle.wakeups := by
  rw [settle]
  split
  · exact Nat.le_refl _
  · split
    · exact Nat.le_refl _
    · exact Nat.le_add_right _ _
  · exact Nat.le_add_right _ _

/-! ### What holds in every state reached -/

/-- What a poll has taken off the queue and not returned. -/
def gathered (s : Inbound) : Bytes :=
  match s.poll with
  | .gathering _ combined => combined
  | _ => []

/-- What waits for a poll. -/
def waiting (s : Inbound) : Bytes := s.pending.getD [] ++ s.queue.flatten

/-- The callback has been called, or the reading task is about to call it. -/
def Roused (s : Inbound) : Prop := 0 < s.wakeups ∨ s.sending = .notifying

/-- The consumer sleeps: it has a callback, and nothing makes it poll but a wake-up. -/
def Asleep (s : Inbound) : Prop := s.wakeup = true ∧ s.owes = false

/-- What a poll does up to its next operation on the queue or on the flag. -/
inductive Advances (s : Inbound) : Inbound × Option (Option Bytes) → Prop where
  | returns {queue : List Bytes} {pending : Option Bytes} {taken : Bytes}
      (h : s.waiting = taken ++ (pending.getD [] ++ queue.flatten)) :
      Advances s
        ({ s with queue := queue, pending := pending }, some (some (s.gathered ++ taken)))
  | gathers {queue : List Bytes} {maxBytes : Nat} {taken : Bytes}
      (h : s.waiting = taken ++ queue.flatten) :
      Advances s
        ({ s with
            queue := queue, pending := none
            poll := .gathering maxBytes (s.gathered ++ taken) }, none)
  | empties {maxBytes : Nat} (hpoll : s.poll = .taking maxBytes false) (h : s.waiting = []) :
      Advances s ({ s with poll := .resetting maxBytes }, none)
  | resets {maxBytes : Nat} (hpoll : s.poll = .resetting maxBytes) :
      Advances s
        ({ s with notificationPending := false, poll := .taking maxBytes true }, none)
  | nothing {maxBytes : Nat} {retry : Bool} (hpoll : s.poll = .taking maxBytes retry)
      (h : s.waiting = []) (hend : s.connected = false ∨ retry = true) :
      Advances s (s, some none)

/-- The first chunk of a poll, wherever it comes from. -/
theorem advances_receive {s : Inbound} {queue : List Bytes} {maxBytes : Nat} {bytes : Bytes}
    (hgathered : s.gathered = []) (h : s.waiting = bytes ++ queue.flatten) :
    Advances s (receive { s with queue := queue, pending := none } maxBytes bytes) := by
  rw [receive]
  split
  · have hcut : s.waiting =
        bytes.take maxBytes ++ ((some (bytes.drop maxBytes)).getD [] ++ queue.flatten) := by
      rw [h, Option.getD_some, ← List.append_assoc, List.take_append_drop]
    have hreturns := Advances.returns hcut
    rw [hgathered] at hreturns
    exact hreturns
  · have hgathers : Advances s ({ s with
        queue := queue, pending := none
        poll := .gathering maxBytes (s.gathered ++ bytes) }, none) := .gathers h
    rw [hgathered] at hgathers
    exact hgathers

theorem advances {s : Inbound} (hpoll : s.poll ≠ .idle)
    (hemptied : ∀ maxBytes combined, s.poll = .gathering maxBytes combined → s.pending = none) :
    Advances s s.advance := by
  obtain ⟨queue, connected, pending, flag, wakeup, poll, sending, handed, polled, wakeups, owes,
    fresh⟩ := s
  cases poll with
  | idle => exact absurd rfl hpoll
  | taking maxBytes retry =>
      cases pending with
      | some bytes => exact advances_receive rfl rfl
      | none =>
          cases queue with
          | cons bytes rest => exact advances_receive rfl rfl
          | nil =>
              rw [advance]
              dsimp only
              split
              · next hretry =>
                  obtain ⟨-, hretry⟩ := Bool.and_eq_true_iff.mp hretry
                  obtain rfl : retry = false := by simpa using hretry
                  exact .empties rfl rfl
              · next hretry =>
                  refine .nothing rfl rfl ?_
                  cases connected with
                  | false => exact .inl rfl
                  | true => exact .inr (by simpa using hretry)
  | gathering maxBytes combined =>
      obtain rfl : pending = none := hemptied maxBytes combined rfl
      have hall (s : Inbound) (hs : s.gathered = combined) :
          Advances s (s, some (some combined)) := by
        have hreturns : Advances s (s, some (some (s.gathered ++ []))) := .returns rfl
        rw [List.append_nil, hs] at hreturns
        exact hreturns
      rw [advance]
      dsimp only
      split
      · cases queue with
        | nil => exact hall _ rfl
        | cons next rest =>
            dsimp only
            split
            · refine .returns ?_
              change next ++ rest.flatten = _
              rw [Option.getD_some, ← List.append_assoc, List.take_append_drop]
            · exact .gathers rfl
      · exact hall _ rfl
  | resetting maxBytes => exact .resets rfl

structure Sound (s : Inbound) : Prop where
  accounted : s.polled.flatten ++ s.gathered ++ s.waiting = s.handed
  emptied : ∀ maxBytes combined, s.poll = .gathering maxBytes combined → s.pending = none
  flagged : s.connected = true → s.notificationPending = true → s.Asleep → s.Roused
  /-- After the flag was lowered, it is up only if the callback is called. -/
  renewed : ∀ maxBytes, s.poll = .taking maxBytes true → s.fresh = true → s.wakeup = true →
    s.notificationPending = true → s.Roused
  covered : s.Asleep → s.waiting ≠ [] →
    s.Roused ∨ s.sending = .swapping ∧ s.notificationPending = false

theorem sound_start : Sound {} where
  accounted := rfl
  emptied _ _ h := nomatch h
  flagged _ h := nomatch h
  renewed _ h := nomatch h
  covered h := nomatch h.1

namespace Sound

variable {s : Inbound}

theorem send (h : Sound s) (bytes : Bytes) (hok : s.ok (.send bytes)) :
    Sound (s.step (.send bytes)) := by
  obtain ⟨hconnected, hidle, -⟩ := hok
  have hroused : s.Roused → 0 < s.wakeups := by
    rintro (hw | hn)
    · exact hw
    · rw [hidle] at hn
      cases hn
  constructor
  · change s.polled.flatten ++ s.gathered ++ (s.pending.getD [] ++ (s.queue ++ [bytes]).flatten) =
      s.handed ++ bytes
    rw [← h.accounted, waiting]
    simp
  · exact h.emptied
  · intro _ hflag hasleep
    exact .inl (hroused (h.flagged hconnected hflag hasleep))
  · intro maxBytes hpoll hfresh hset hflag
    exact .inl (hroused (h.renewed maxBytes hpoll hfresh hset hflag))
  · intro hasleep _
    cases hflag : s.notificationPending with
    | true => exact .inl (.inl (hroused (h.flagged hconnected hflag hasleep)))
    | false => exact .inr ⟨rfl, hflag⟩

theorem swap (h : Sound s) (hok : s.ok .swap) : Sound (s.step .swap) := by
  have hswapping : s.sending = .swapping := hok
  have hroused : s.Roused → 0 < s.wakeups := by
    rintro (hw | hn)
    · exact hw
    · rw [hswapping] at hn
      cases hn
  -- With the flag down the task goes on to the call; with the flag up a wake-up was under way.
  have hup : (s.notificationPending = true → s.Roused) → (s.step .swap).Roused := by
    intro hflag
    cases hpending : s.notificationPending with
    | true => exact .inl (hroused (hflag hpending))
    | false => exact .inr (by simp [step, hpending])
  constructor
  · exact h.accounted
  · exact h.emptied
  · intro hconnected _ hasleep
    exact hup fun hflag => h.flagged hconnected hflag hasleep
  · intro maxBytes hpoll hfresh hset _
    exact hup fun hflag => h.renewed maxBytes hpoll hfresh hset hflag
  · intro hasleep hwaiting
    refine .inl (hup fun hflag => ?_)
    obtain hr | ⟨-, hdown⟩ := h.covered hasleep hwaiting
    · exact hr
    · rw [hflag] at hdown
      cases hdown

theorem notify (h : Sound s) : Sound (s.step .notify) := by
  have hcalled : s.wakeup = true → (s.step .notify).Roused := by
    intro hset
    exact .inl (by simp [step, hset])
  constructor
  · exact h.accounted
  · exact h.emptied
  · exact fun _ _ hasleep => hcalled hasleep.1
  · exact fun _ _ _ hset _ => hcalled hset
  · exact fun hasleep _ => .inl (hcalled hasleep.1)

theorem drop (h : Sound s) : Sound (s.step .drop) where
  accounted := h.accounted
  emptied := h.emptied
  flagged hconnected := nomatch hconnected
  renewed := h.renewed
  covered := h.covered

theorem begin (h : Sound s) (maxBytes : Nat) (hok : s.ok (.begin maxBytes)) :
    Sound (s.step (.begin maxBytes)) where
  accounted := by
    have hgathered : s.gathered = [] := by rw [gathered, hok.1]
    have haccounted := h.accounted
    rw [hgathered] at haccounted
    exact haccounted
  emptied _ _ hpoll := nomatch hpoll
  flagged := h.flagged
  renewed _ hpoll := nomatch hpoll
  covered := h.covered

theorem advance (h : Sound s) (hok : s.ok .advance) : Sound (s.step .advance) := by
  have hadvances := advances hok h.emptied
  change Sound (s.advance.1.finish s.advance.2)
  generalize s.advance = r at hadvances ⊢
  -- What is taken off the queue leaves a suffix of what waited.
  have hcovered {taken rest : Bytes} (hcut : s.waiting = taken ++ rest) :
      s.Asleep → rest ≠ [] →
        s.Roused ∨ s.sending = .swapping ∧ s.notificationPending = false := by
    intro hasleep hne
    refine h.covered hasleep fun hnil => hne ?_
    rw [hcut] at hnil
    exact (List.append_eq_nil_iff.mp hnil).2
  cases hadvances with
  | @returns queue pending taken hcut =>
      refine ⟨?_, fun _ _ hp => (nomatch hp), h.flagged, fun _ hp => (nomatch hp), hcovered hcut⟩
      change (s.polled ++ [s.gathered ++ taken]).flatten ++ [] ++
        (pending.getD [] ++ queue.flatten) = s.handed
      rw [← h.accounted, hcut]
      simp
  | @gathers queue maxBytes taken hcut =>
      refine ⟨?_, fun _ _ _ => rfl, h.flagged, fun _ hp => (nomatch hp), hcovered hcut⟩
      change s.polled.flatten ++ (s.gathered ++ taken) ++ ([] ++ queue.flatten) = s.handed
      rw [← h.accounted, hcut]
      simp
  | empties hpoll hwaiting =>
      refine ⟨?_, fun _ _ hp => (nomatch hp), h.flagged, fun _ hp => (nomatch hp), h.covered⟩
      have haccounted := h.accounted
      rw [gathered, hpoll] at haccounted
      exact haccounted
  | resets hpoll =>
      refine ⟨?_, fun _ _ hp => (nomatch hp), fun _ hflag => (nomatch hflag),
        fun _ _ _ _ hflag => (nomatch hflag), fun hasleep hwaiting => ?_⟩
      · have haccounted := h.accounted
        rw [gathered, hpoll] at haccounted
        exact haccounted
      · obtain hroused | ⟨hswapping, -⟩ := h.covered hasleep hwaiting
        · exact .inl hroused
        · exact .inr ⟨hswapping, rfl⟩
  | @nothing maxBytes retry hpoll hwaiting hend =>
      -- The consumer may go to sleep here: nothing waits, and the flag is up only if it was raised
      -- after this poll had lowered it.
      have hfresh : s.wakeup = true ∧ (s.owes && !s.fresh) = false →
          s.Asleep ∨ s.wakeup = true ∧ s.fresh = true := by
        rintro ⟨hset, howes⟩
        cases hfresh : s.fresh with
        | true => exact .inr ⟨hset, rfl⟩
        | false => exact .inl ⟨hset, by simpa [hfresh] using howes⟩
      refine ⟨?_, fun _ _ hp => (nomatch hp), fun hconnected hflag hasleep => ?_,
        fun _ hp => (nomatch hp), fun _ hne => absurd hwaiting hne⟩
      · have haccounted := h.accounted
        rw [gathered, hpoll] at haccounted
        exact haccounted
      · obtain hasleep | ⟨hset, hfresh⟩ := hfresh hasleep
        · exact h.flagged hconnected hflag hasleep
        · obtain hgone | rfl := hend
          · rw [show s.connected = true from hconnected] at hgone
            cases hgone
          · exact h.renewed maxBytes hpoll hfresh hset hflag

theorem setWakeup (h : Sound s) (callback : Bool) : Sound (s.step (.setWakeup callback)) := by
  -- A consumer that is asleep after this has cleared nothing and set nothing.
  have hasleep : (s.step (.setWakeup callback)).Asleep → False := by
    rintro ⟨hset, howes⟩
    have hcallback : callback = true := hset
    simp [step, hcallback] at howes
  constructor
  · exact h.accounted
  · exact h.emptied
  · exact fun _ _ ha => (hasleep ha).elim
  · intro maxBytes _ hfresh hset
    have hcallback : callback = true := hset
    simp [step, hcallback] at hfresh
  · exact fun ha _ => (hasleep ha).elim

theorem wake (h : Sound s) : Sound (s.step .wake) where
  accounted := h.accounted
  emptied := h.emptied
  flagged _ _ hasleep := nomatch hasleep.2
  renewed _ _ hfresh := nomatch hfresh
  covered hasleep := nomatch hasleep.2

protected theorem step (h : Sound s) (i : Input) (hok : s.ok i) : Sound (s.step i) := by
  cases i with
  | send bytes => exact h.send bytes hok
  | swap => exact h.swap hok
  | notify => exact h.notify
  | drop => exact h.drop
  | begin maxBytes => exact h.begin maxBytes hok
  | advance => exact h.advance hok
  | setWakeup callback => exact h.setWakeup callback
  | wake => exact h.wake

/-- Only the reading task puts bytes into the queue, and only its end drops the sender. -/
theorem frame (h : Sound s) {i : Input} (hok : s.ok i) (hsend : ∀ bytes, i ≠ .send bytes)
    (hdrop : i ≠ .drop) : (s.step i).handed = s.handed ∧ (s.step i).connected = s.connected := by
  cases i with
  | send bytes => exact absurd rfl (hsend bytes)
  | drop => exact absurd rfl hdrop
  | advance =>
      have hadvances := advances hok h.emptied
      change (s.advance.1.finish s.advance.2).handed = s.handed ∧
        (s.advance.1.finish s.advance.2).connected = s.connected
      generalize s.advance = r at hadvances ⊢
      cases hadvances with
      | _ => exact ⟨rfl, rfl⟩
  | _ => exact ⟨rfl, rfl⟩

/-- When a poll returns nothing, everything that was put into the queue has been polled. -/
theorem polled_eq (h : Sound s) (hpoll : s.poll ≠ .idle) (hnothing : s.advance.2 = some none) :
    s.polled.flatten = s.handed := by
  have hadvances := advances hpoll h.emptied
  generalize s.advance = r at hadvances hnothing
  cases hadvances with
  | nothing hpoll hwaiting hend =>
      have haccounted := h.accounted
      rw [gathered, hpoll, hwaiting] at haccounted
      simpa using haccounted
  | _ => cases hnothing

theorem polled_le (h : Sound s) : s.polled.flatten <+: s.handed :=
  ⟨s.gathered ++ s.waiting, by rw [← List.append_assoc, h.accounted]⟩

/-- What waits for a consumer that sleeps has a wake-up. -/
theorem woken (h : Sound s) (hasleep : s.Asleep) (hwaiting : s.waiting ≠ []) :
    0 < s.settle.wakeups := by
  have hset : s.wakeup = true := hasleep.1
  obtain (hpos | hnotifying) | ⟨hswapping, hflag⟩ := h.covered hasleep hwaiting
  · exact Nat.lt_of_lt_of_le hpos s.wakeups_le_settle
  · simp [settle, hnotifying, step, hset]
  · simp [settle, hswapping, hflag, step, hset]

end Sound

end Inbound

end Mqtt

end Connectanum
