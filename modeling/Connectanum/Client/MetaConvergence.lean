import Connectanum.Client.MetaCache
import Connectanum.Lib.LastWriter

/-!
# Client — MetaConvergence

When the meta-state cache shows its realm.

A change writes some of the realm's keys: a session, an entry, or the membership of a session in an
entry.  A replay of events leaves at each key what the last of them writes there.  So the cache ends
with what the realm holds when no event is missed that writes a key which an event that the cache has
been sent has written (`cache_converges`).  Between the subscriptions to the meta topics, such an
event can be missed (`callee_lost`).
-/

namespace Connectanum

open Machine (Run)
open LastWriter (Settled Kept last put)

inductive MetaKey where
  | session (id : Nat)
  | entry (kind : MetaKind) (id : Nat)
  | member (kind : MetaKind) (id session : Nat)

/-- What a realm holds at a key. -/
abbrev MetaKey.Value (δ : Type) : MetaKey → Type
  | .session _ => Option (MetaDetails δ)
  | .entry _ _ => Option (MetaDetails δ)
  | .member _ _ _ => Prop

variable {δ : Type}

namespace MetaTables

def look (t : MetaTables δ) : (k : MetaKey) → k.Value δ
  | .session id => t.sessions id
  | .entry kind id => (t.entries kind id).map (·.details)
  | .member kind id session => ∃ entry, t.entries kind id = some entry ∧ session ∈ entry.members

theorem ext_look {t t' : MetaTables δ} (h : t.look = t'.look) : t = t' := by
  have hsessions : t.sessions = t'.sessions := funext fun id => congrFun h (.session id)
  have hentries : t.entries = t'.entries := by
    funext kind id
    have hdetails : (t.entries kind id).map (·.details) = (t'.entries kind id).map (·.details) :=
      congrFun h (.entry kind id)
    have hmembers (session : Nat) :
        (∃ entry, t.entries kind id = some entry ∧ session ∈ entry.members) ↔
          ∃ entry, t'.entries kind id = some entry ∧ session ∈ entry.members :=
      iff_of_eq (congrFun h (.member kind id session))
    cases he : t.entries kind id with
    | none =>
        cases he' : t'.entries kind id with
        | none => rfl
        | some entry' => simp [he, he'] at hdetails
    | some entry =>
        cases he' : t'.entries kind id with
        | none => simp [he, he'] at hdetails
        | some entry' =>
            obtain ⟨details, members⟩ := entry
            obtain ⟨details', members'⟩ := entry'
            simp only [he, he', Option.map_some, Option.some.injEq] at hdetails
            simp only [he, he', Option.some.injEq, exists_eq_left'] at hmembers
            rw [hdetails, Finset.ext hmembers]
  cases t
  cases t'
  simp only at hsessions hentries
  rw [hsessions, hentries]

/-! What the operations on the tables leave at a key. -/

section

variable (t : MetaTables δ)

theorem sessions_setSession (id id' : Nat) (details : Option (MetaDetails δ)) :
    (t.setSession id details).sessions id' = if id' = id then details else t.sessions id' :=
  Function.update_apply ..

theorem entries_setEntry (kind kind' : MetaKind) (id id' : Nat) (entry : Option (MetaEntry δ)) :
    (t.setEntry kind id entry).entries kind' id' =
      if kind' = kind ∧ id' = id then entry else t.entries kind' id' := by
  simp only [setEntry, Function.update_apply]
  by_cases hkind : kind' = kind
  · subst hkind
    simp [Function.update_apply]
  · simp [hkind]

theorem look_removeSessionMemberships_entry (session : Nat) (kind : MetaKind) (id : Nat) :
    (t.removeSessionMemberships session).look (.entry kind id) = t.look (.entry kind id) := by
  change ((t.entries kind id).map _).map _ = (t.entries kind id).map _
  rw [Option.map_map]
  rfl

theorem look_removeSessionMemberships_member (session : Nat) (kind : MetaKind) (id member : Nat) :
    (t.removeSessionMemberships session).look (.member kind id member) =
      (member ≠ session ∧ t.look (.member kind id member)) := by
  simp only [look, removeSessionMemberships, eq_iff_iff]
  cases t.entries kind id <;> simp

end

end MetaTables

namespace RealmChange

/-- What a change writes. -/
def write : RealmChange δ → (k : MetaKey) → Option (k.Value δ)
  | .join session rest, .session id =>
      if id = session then some (some { session := some session, rest }) else none
  | .leave session, .session id => if id = session then some none else none
  | .leave session, .member _ _ member => if member = session then some False else none
  | .create kind _ id rest, .entry kind' id' =>
      if kind' = kind ∧ id' = id then some (some { id := some id, rest }) else none
  | .create kind _ id _, .member kind' id' _ =>
      if kind' = kind ∧ id' = id then some False else none
  | .add kind session id, .member kind' id' member =>
      if (kind' = kind ∧ id' = id) ∧ member = session then some True else none
  | .remove kind session id, .member kind' id' member =>
      if (kind' = kind ∧ id' = id) ∧ member = session then some False else none
  | .delete kind _ id, .entry kind' id' => if kind' = kind ∧ id' = id then some none else none
  | .delete kind _ id, .member kind' id' _ =>
      if kind' = kind ∧ id' = id then some False else none
  | _, _ => none

variable {t : MetaTables δ}

/-- What a change writes is what it leaves, and it leaves everything else alone. -/
theorem look_apply {change : RealmChange δ} (h : change.Possible t) (k : MetaKey) :
    (change.apply t).look k = put write t.look change k := by
  cases change with
  | join session rest =>
      cases k with
      | session id =>
          simp only [apply, MetaTables.look, MetaTables.sessions_setSession, put, write]
          split <;> rfl
      | entry kind id => rfl
      | member kind id member => rfl
  | leave session =>
      cases k with
      | session id =>
          simp only [put, write]
          refine (MetaTables.sessions_setSession ..).trans ?_
          split <;> rfl
      | entry kind id => exact MetaTables.look_removeSessionMemberships_entry ..
      | member kind id member =>
          refine (MetaTables.look_removeSessionMemberships_member ..).trans ?_
          simp only [put, write]
          split
          · next hm => exact eq_false fun hand => hand.1 hm
          · next hm => exact propext (and_iff_right hm)
  | create kind session id rest =>
      cases k with
      | session id' => rfl
      | entry kind' id' =>
          simp only [apply, MetaTables.look, MetaTables.entries_setEntry, put, write]
          split <;> rfl
      | member kind' id' member =>
          simp only [apply, MetaTables.look, MetaTables.entries_setEntry, put, write]
          split <;> simp
  | add kind session id =>
      obtain ⟨entry, hentry⟩ := Option.isSome_iff_exists.mp h
      cases k with
      | session id' => rfl
      | entry kind' id' =>
          simp only [apply, MetaTables.look, MetaTables.entries_setEntry, put, write]
          split
          · next heq => rw [heq.1, heq.2, hentry]; rfl
          · rfl
      | member kind' id' member =>
          simp only [apply, MetaTables.look, MetaTables.entries_setEntry, put, write]
          by_cases heq : kind' = kind ∧ id' = id
          · obtain ⟨rfl, rfl⟩ := heq
            by_cases hm : member = session <;> simp [hentry, hm]
          · simp [heq]
  | remove kind session id =>
      cases k with
      | session id' => rfl
      | entry kind' id' =>
          simp only [apply, MetaTables.look, MetaTables.entries_setEntry, put, write]
          split
          · next heq => rw [heq.1, heq.2, Option.map_map]; rfl
          · rfl
      | member kind' id' member =>
          simp only [apply, MetaTables.look, MetaTables.entries_setEntry, put, write]
          by_cases heq : kind' = kind ∧ id' = id
          · obtain ⟨rfl, rfl⟩ := heq
            by_cases hm : member = session <;> simp [hm]
          · simp [heq]
  | delete kind session id =>
      cases k with
      | session id' => rfl
      | entry kind' id' =>
          simp only [apply, MetaTables.look, MetaTables.entries_setEntry, put, write]
          split <;> rfl
      | member kind' id' member =>
          simp only [apply, MetaTables.look, MetaTables.entries_setEntry, put, write]
          split <;> simp

/-- A change that writes no membership of an entry does not write the entry. -/
theorem write_entry {change : RealmChange δ} {kind : MetaKind} {id session : Nat}
    (h : change.write (.member kind id session) = none) :
    change.write (.entry kind id) = none := by
  cases change with
  | create kind' _ id' _ =>
      simp only [write] at h ⊢
      split at h
      · cases h
      · next hne => exact if_neg hne
  | delete kind' _ id' =>
      simp only [write] at h ⊢
      split at h
      · cases h
      · next hne => exact if_neg hne
  | _ => rfl

end RealmChange

/-! ### The cache applies the events -/

namespace MetaTables

variable {t : MetaTables δ}

theorem setEntry_self {kind : MetaKind} {id : Nat} {entry : Option (MetaEntry δ)}
    (h : t.entries kind id = entry) : t.setEntry kind id entry = t := by
  subst h
  simp only [setEntry, Function.update_eq_self]

/-- The event of a change makes the change, when there is the entry that it is about. -/
theorem applyEvent_event {change : RealmChange δ} (h : change.Possible t) :
    (t.applyEvent change.event).1 = change.apply t := by
  cases change with
  | join session rest => rfl
  | leave session => rfl
  | create kind session id rest => rfl
  | delete kind session id => rfl
  | add kind session id =>
      obtain ⟨entry, hentry⟩ := Option.isSome_iff_exists.mp h
      change (t.updateMember kind [.int session, .int id] true).1 = _
      simp only [updateMember, asInt, RealmChange.apply, List.getElem?_cons_zero,
        List.getElem?_cons_succ, hentry, Option.map_some]
      by_cases hmem : session ∈ entry.members
      · simp only [hmem, decide_true, if_true, Finset.insert_eq_of_mem hmem]
        exact (setEntry_self hentry).symm
      · simp [hmem]
  | remove kind session id =>
      change (t.updateMember kind [.int session, .int id] false).1 = _
      simp only [updateMember, asInt, RealmChange.apply, List.getElem?_cons_zero,
        List.getElem?_cons_succ]
      cases hentry : t.entries kind id with
      | none => exact (setEntry_self hentry).symm
      | some entry =>
          by_cases hmem : session ∈ entry.members
          · simp [hmem]
          · simp only [hmem, decide_false, if_true, Option.map_some,
              Finset.erase_eq_of_notMem hmem]
            exact (setEntry_self hentry).symm

/-- An event about an entry that there is not is ignored. -/
theorem applyEvent_of_not_possible {change : RealmChange δ} (h : ¬ change.Possible t) :
    (t.applyEvent change.event).1 = t ∧
      ∃ kind session id, change = .add kind session id ∧ t.entries kind id = none := by
  cases change with
  | add kind session id =>
      have hnone : t.entries kind id = none := Option.not_isSome_iff_eq_none.mp h
      refine ⟨?_, kind, session, id, rfl, hnone⟩
      change (t.updateMember kind [.int session, .int id] true).1 = t
      simp only [updateMember, asInt, List.getElem?_cons_zero, List.getElem?_cons_succ, hnone]
  | _ => exact absurd trivial h

theorem updateMember_unchanged {kind : MetaKind} {arguments : List (MetaArgument δ)} {add : Bool} :
    (t.updateMember kind arguments add).2 = false →
      (t.updateMember kind arguments add).1 = t := by
  unfold updateMember
  cases asInt arguments[0]? with
  | none => exact fun _ => rfl
  | some session =>
      cases asInt arguments[1]? with
      | none => exact fun _ => rfl
      | some id =>
          dsimp only
          cases t.entries kind id with
          | none => exact fun _ => rfl
          | some entry =>
              by_cases hmem : add = decide (session ∈ entry.members)
              · dsimp only
                rw [if_pos hmem]
                exact fun _ => rfl
              · dsimp only
                rw [if_neg hmem]
                exact nofun

/-- An event that the cache does not report has changed nothing. -/
theorem applyEvent_unchanged {event : MetaEvent δ} :
    (t.applyEvent event).2 = false → (t.applyEvent event).1 = t := by
  obtain ⟨topic, arguments⟩ := event
  cases topic with
  | joined =>
      simp only [applyEvent]
      cases stringMap arguments[0]? with
      | none => exact fun _ => rfl
      | some details =>
          dsimp only
          cases details.session.or details.id with
          | none => exact fun _ => rfl
          | some id => exact nofun
  | left =>
      simp only [applyEvent]
      cases asInt arguments[0]? with
      | none => exact fun _ => rfl
      | some id => exact nofun
  | created kind =>
      simp only [applyEvent]
      cases stringMap arguments[1]? with
      | none => exact fun _ => rfl
      | some details =>
          dsimp only
          cases details.id with
          | none => exact fun _ => rfl
          | some id => exact nofun
  | added kind => exact updateMember_unchanged
  | removed kind => exact updateMember_unchanged
  | deleted kind =>
      simp only [applyEvent]
      cases asInt arguments[1]? with
      | none => exact fun _ => rfl
      | some id =>
          intro h
          exact setEntry_self (Option.not_isSome_iff_eq_none.mp (Bool.eq_false_iff.mp h))

end MetaTables

/-- The tables agree with the state, but for memberships in entries that they do not have. -/
structure Shadows (t : MetaTables δ) (s : (k : MetaKey) → k.Value δ) : Prop where
  session : ∀ id, t.look (.session id) = s (.session id)
  entry : ∀ kind id, t.look (.entry kind id) = s (.entry kind id)
  member : ∀ kind id session, t.look (.entry kind id) ≠ none →
    t.look (.member kind id session) = s (.member kind id session)

namespace Shadows

variable {t : MetaTables δ} {s : (k : MetaKey) → k.Value δ}

theorem refl (t : MetaTables δ) : Shadows t t.look :=
  ⟨fun _ => rfl, fun _ _ => rfl, fun _ _ _ _ => rfl⟩

theorem applyEvent (h : Shadows t s) (change : RealmChange δ) :
    Shadows (t.applyEvent change.event).1 (put RealmChange.write s change) := by
  by_cases hp : change.Possible t
  · rw [MetaTables.applyEvent_event hp]
    refine ⟨fun id => ?_, fun kind id => ?_, fun kind id session hentry => ?_⟩
    · rw [RealmChange.look_apply hp, put, put, h.session]
    · rw [RealmChange.look_apply hp, put, put, h.entry]
    · rw [RealmChange.look_apply hp, put] at hentry ⊢
      rw [put]
      cases hw : change.write (.member kind id session) with
      | some v => rfl
      | none =>
          rw [RealmChange.write_entry hw] at hentry
          exact h.member kind id session hentry
  · obtain ⟨hsame, kind, session, id, rfl, hnone⟩ := MetaTables.applyEvent_of_not_possible hp
    rw [hsame]
    refine ⟨h.session, h.entry, fun kind' id' member hentry => ?_⟩
    have hne : ¬ ((kind' = kind ∧ id' = id) ∧ member = session) := by
      rintro ⟨⟨rfl, rfl⟩, -⟩
      exact hentry (by rw [MetaTables.look, hnone]; rfl)
    rw [put, RealmChange.write, if_neg hne]
    exact h.member kind' id' member hentry

theorem replay (h : Shadows t s) (changes : List (RealmChange δ)) :
    Shadows (changes.foldl (fun t change => (t.applyEvent change.event).1) t)
      (changes.foldl (put RealmChange.write) s) := by
  induction changes generalizing t s with
  | nil => exact h
  | cons change changes ih => exact ih (h.applyEvent change)

/-- Memberships are of entries that there are, so there is no other difference. -/
theorem eq {t' : MetaTables δ} (h : Shadows t t'.look) : t = t' := by
  refine MetaTables.ext_look (funext fun k => ?_)
  cases k with
  | session id => exact h.session id
  | entry kind id => exact h.entry kind id
  | member kind id session =>
      have hentry := h.entry kind id
      simp only [MetaTables.look] at hentry
      cases he : t.entries kind id with
      | some entry =>
          exact h.member kind id session (by rw [MetaTables.look, he]; exact Option.some_ne_none _)
      | none =>
          rw [he] at hentry
          have he' : t'.entries kind id = none := Option.map_eq_none_iff.mp hentry.symm
          simp [MetaTables.look, he, he']

end Shadows

/-! ### The answers -/

theorem last_entry {changes : List (RealmChange δ)} {kind : MetaKind} {id session : Nat}
    (h : last RealmChange.write changes (.member kind id session) = none) :
    last RealmChange.write changes (.entry kind id) = none := by
  induction changes with
  | nil => rfl
  | cons change changes ih =>
      obtain ⟨hrest, hchange⟩ := Option.or_eq_none_iff.mp h
      exact Option.or_eq_none_iff.mpr ⟨ih hrest, RealmChange.write_entry hchange⟩

/-- An answer tells what the realm holds at a key, until a change writes it. -/
structure MetaAnswers.Current (a : MetaAnswers δ) (changes : List (RealmChange δ))
    (s : (k : MetaKey) → k.Value δ) : Prop where
  sessionIds {ids : List Nat} (h : a.sessionIds = some ids) (id : Nat) :
    Kept RealmChange.write changes s (.session id) fun details => id ∈ ids ↔ details ≠ none
  session {id : Nat} {details : Option (MetaDetails δ)} (h : a.session id = some details) :
    Kept RealmChange.write changes s (.session id) fun details' => details = details'
  entryIds {kind : MetaKind} {ids : List Nat} (h : a.entryIds kind = some ids) (id : Nat) :
    Kept RealmChange.write changes s (.entry kind id) fun details => id ∈ ids ↔ details ≠ none
  details {kind : MetaKind} {id : Nat} {details : Option (MetaDetails δ)}
    (h : a.details kind id = some details) :
    Kept RealmChange.write changes s (.entry kind id) fun details' => details = details'
  present {kind : MetaKind} {id : Nat} {members : Option (Finset Nat)}
    (h : a.members kind id = some members) :
    Kept RealmChange.write changes s (.entry kind id) fun details =>
      members = none ↔ details = none
  members {kind : MetaKind} {id : Nat} {members : Option (Finset Nat)}
    (h : a.members kind id = some members) (session : Nat) :
    Kept RealmChange.write changes s (.member kind id session) fun member =>
      (∃ ids, members = some ids ∧ session ∈ ids) ↔ member

namespace MetaAnswers.Current

variable {a : MetaAnswers δ} {changes : List (RealmChange δ)} {s s' : (k : MetaKey) → k.Value δ}

theorem snoc (h : a.Current changes s) {change : RealmChange δ}
    (hs : ∀ k, s' k = put RealmChange.write s change k) : a.Current (changes ++ [change]) s' where
  sessionIds hids id := (h.sessionIds hids id).snoc hs
  session hd := (h.session hd).snoc hs
  entryIds hids id := (h.entryIds hids id).snoc hs
  details hd := (h.details hd).snoc hs
  present hm := (h.present hm).snoc hs
  members hm session := (h.members hm session).snoc hs

theorem new (n : Nat) : Current { subscribed := n } changes s where
  sessionIds := nofun
  session := nofun
  entryIds := nofun
  details := nofun
  present := nofun
  members := nofun

/-! An answer is given from the tables as they are. -/

theorem sessionList {t : MetaTables δ} (h : a.Current changes t.look) {ids : List Nat}
    (hids : ∀ id, id ∈ ids ↔ (t.sessions id).isSome = true) :
    Current { a with sessionIds := some ids } changes t.look where
  sessionIds := by
    rintro _ ⟨⟩ id -
    exact (hids id).trans Option.isSome_iff_ne_none
  session := h.session
  entryIds := h.entryIds
  details := h.details
  present := h.present
  members := h.members

theorem entryList {t : MetaTables δ} (h : a.Current changes t.look) {kind : MetaKind}
    {ids : List Nat} (hids : ∀ id, id ∈ ids ↔ (t.entries kind id).isSome = true) :
    Current { a with entryIds := Function.update a.entryIds kind (some ids) } changes t.look where
  sessionIds := h.sessionIds
  session := h.session
  entryIds := by
    intro kind' ids' hids'
    dsimp only at hids'
    by_cases hk : kind' = kind
    · subst hk
      rw [Function.update_self] at hids'
      obtain rfl := Option.some.inj hids'
      intro id _
      refine (hids id).trans (Option.isSome_iff_ne_none.trans (not_congr ?_))
      exact Option.map_eq_none_iff.symm
    · rw [Function.update_of_ne hk] at hids'
      exact h.entryIds hids'
  details := h.details
  present := h.present
  members := h.members

theorem sessionGet {t : MetaTables δ} (h : a.Current changes t.look) (id : Nat) :
    Current { a with session := Function.update a.session id (some (t.sessions id)) } changes
      t.look where
  sessionIds := h.sessionIds
  session := by
    intro id' details hd
    dsimp only at hd
    by_cases hid : id' = id
    · subst hid
      rw [Function.update_self] at hd
      exact fun _ => Option.some.inj hd.symm
    · rw [Function.update_of_ne hid] at hd
      exact h.session hd
  entryIds := h.entryIds
  details := h.details
  present := h.present
  members := h.members

/-- A table of answers of both kinds, with one more answer. -/
theorem update_answers {α : Type} {f : MetaKind → Nat → Option α} {kind kind' : MetaKind}
    {id id' : Nat} {x y : α}
    (h : Function.update f kind (Function.update (f kind) id (some x)) kind' id' = some y) :
    (kind' = kind ∧ id' = id ∧ y = x) ∨ f kind' id' = some y := by
  by_cases hk : kind' = kind
  · subst hk
    rw [Function.update_self] at h
    by_cases hid : id' = id
    · subst hid
      rw [Function.update_self] at h
      exact .inl ⟨rfl, rfl, (Option.some.inj h).symm⟩
    · rw [Function.update_of_ne hid] at h
      exact .inr h
  · rw [Function.update_of_ne hk] at h
    exact .inr h

theorem entryGet {t : MetaTables δ} (h : a.Current changes t.look) (kind : MetaKind) (id : Nat) :
    Current
      { a with
        details := Function.update a.details kind
          (Function.update (a.details kind) id (some ((t.entries kind id).map (·.details)))) }
      changes t.look where
  sessionIds := h.sessionIds
  session := h.session
  entryIds := h.entryIds
  details := by
    intro kind' id' details hd
    rcases update_answers hd with ⟨rfl, rfl, rfl⟩ | hd
    · exact fun _ => rfl
    · exact h.details hd
  present := h.present
  members := h.members

theorem memberList {t : MetaTables δ} (h : a.Current changes t.look) (kind : MetaKind) (id : Nat) :
    Current
      { a with
        members := Function.update a.members kind
          (Function.update (a.members kind) id (some ((t.entries kind id).map (·.members)))) }
      changes t.look where
  sessionIds := h.sessionIds
  session := h.session
  entryIds := h.entryIds
  details := h.details
  present := by
    intro kind' id' members hm
    rcases update_answers hm with ⟨rfl, rfl, rfl⟩ | hm
    · intro _
      simp only [MetaTables.look, Option.map_eq_none_iff]
    · exact h.present hm
  members := by
    intro kind' id' members hm session
    rcases update_answers hm with ⟨rfl, rfl, rfl⟩ | hm
    · intro _
      simp [MetaTables.look]
    · exact h.members hm session

/-- What has been loaded is what there is. -/
theorem state {t : MetaTables δ} (h : a.Current changes t.look) (hsessions : a.SessionsLoaded)
    (hentries : ∀ kind, a.EntriesLoaded kind) (k : MetaKey) :
    Kept RealmChange.write changes t.look k fun v => a.state.look k = v := by
  intro hlast
  -- An entry of the list has been loaded with its details and its members.
  have hloaded (kind : MetaKind) (id : Nat)
      (hlast : last RealmChange.write changes (.entry kind id) = none) :
      (t.entries kind id = none ∧ a.state.entries kind id = none) ∨
        ∃ details ids, t.look (.entry kind id) = some details ∧
          a.state.entries kind id = some ⟨details, ids⟩ ∧ a.members kind id = some (some ids) := by
    obtain ⟨ids, hids, hall⟩ := hentries kind
    have hlisted : id ∈ ids ↔ t.look (.entry kind id) ≠ none := h.entryIds hids id hlast
    by_cases hid : id ∈ ids
    · right
      obtain ⟨hd, hm⟩ := hall id hid
      obtain ⟨details, hd⟩ := Option.isSome_iff_exists.mp hd
      obtain ⟨members, hm⟩ := Option.isSome_iff_exists.mp hm
      have hdetails : details = t.look (.entry kind id) := h.details hd hlast
      have hmembers : members = none ↔ t.look (.entry kind id) = none := h.present hm hlast
      obtain ⟨d, hd'⟩ := Option.ne_none_iff_exists'.mp (hlisted.mp hid)
      obtain ⟨m, rfl⟩ := Option.ne_none_iff_exists'.mp fun hnone => hlisted.mp hid (hmembers.mp hnone)
      refine ⟨d, m, hd', ?_, hm⟩
      simp only [MetaAnswers.state, hids, Option.getD_some, if_pos hid, loadEntry, hd, hm, hdetails,
        hd', Option.join_some]
    · left
      have hnone : t.look (.entry kind id) = none := by
        rw [hlisted, not_not] at hid
        exact hid
      refine ⟨Option.map_eq_none_iff.mp hnone, ?_⟩
      simp only [MetaAnswers.state, hids, Option.getD_some, if_neg hid]
  cases k with
  | session id =>
      obtain ⟨ids, hids, hall⟩ := hsessions
      have hlisted : id ∈ ids ↔ t.look (.session id) ≠ none := h.sessionIds hids id hlast
      simp only [MetaTables.look, MetaAnswers.state, hids, Option.getD_some]
      by_cases hid : id ∈ ids
      · obtain ⟨details, hd⟩ := Option.isSome_iff_exists.mp (hall id hid)
        have hdetails : details = t.look (.session id) := h.session hd hlast
        rw [if_pos hid, loadSession, hd, hdetails]
        rfl
      · rw [hlisted, not_not] at hid
        rw [if_neg (fun hmem => hlisted.mp hmem hid)]
        exact hid.symm
  | entry kind id =>
      rcases hloaded kind id hlast with ⟨ht, ha⟩ | ⟨details, ids, ht, ha, -⟩
      · simp only [MetaTables.look, ht, ha]
      · rw [ht, MetaTables.look, ha]
        rfl
  | member kind id session =>
      have hlast' := last_entry hlast
      rcases hloaded kind id hlast' with ⟨ht, ha⟩ | ⟨details, ids, -, ha, hm⟩
      · simp only [MetaTables.look, ht, ha]
      · have hmember := h.members hm session hlast
        refine propext (Iff.trans ?_ hmember)
        simp [MetaTables.look, ha]

end MetaAnswers.Current

/-! ### The runs -/

namespace MetaWorld

/-- The changes whose events the cache has been sent or may still be sent. -/
def told (w : MetaWorld δ) : List (RealmChange δ) := w.sent ++ w.unpublished

/-- An event that the cache misses, because it is not yet subscribed to its topic, writes no key that
an event which it has been sent has written. -/
def Harmless (w : MetaWorld δ) : MetaStep δ → Prop
  | .published =>
      ∀ change ∈ w.unpublished.head?, ¬ w.isSubscribed change.event.topic →
        ∀ earlier ∈ w.sent, ∀ k, change.write k ≠ none → earlier.write k = none
  | _ => True

theorem mem_eventTopics (topic : MetaTopic) : topic ∈ eventTopics := by
  cases topic with
  | joined => decide
  | left => decide
  | created kind => cases kind <;> decide
  | added kind => cases kind <;> decide
  | removed kind => cases kind <;> decide
  | deleted kind => cases kind <;> decide

theorem isSubscribed_of_all {w : MetaWorld δ} (h : w.answers.subscribed = eventTopics.length)
    (topic : MetaTopic) : w.isSubscribed topic := by
  rw [isSubscribed, h, List.take_length]
  exact mem_eventTopics topic

/-- What the cache has made of the events that it has received. -/
structure Cached (w : MetaWorld δ) (received : List (RealmChange δ)) : Prop where
  sent : w.sent = received ++ w.inFlight
  buffered : w.cache.hydrating = true →
    w.cache.tables = {} ∧ w.cache.bufferedEvents = received.map (·.event)
  live : w.cache.hydrating = false →
    w.cache.snapshot = w.cache.tables ∧ w.answers.subscribed = eventTopics.length ∧
    ∃ start : MetaTables δ,
      w.cache.tables = received.foldl (fun t change => (t.applyEvent change.event).1) start ∧
      ∀ k, Kept RealmChange.write w.told w.realm.look k fun v => start.look k = v

structure Tracked (w : MetaWorld δ) : Prop where
  settled : Settled RealmChange.write w.told w.realm.look
  current : w.answers.Current w.told w.realm.look
  /-- Nothing is read before the cache is subscribed to all topics. -/
  reading : w.answers.subscribed ≠ eventTopics.length →
    w.answers = { subscribed := w.answers.subscribed }
  cached : ∃ received, w.Cached received

namespace Tracked

variable {w : MetaWorld δ}

theorem new (realm : MetaTables δ) : Tracked { realm } where
  settled := .nil
  current := .new 0
  reading _ := rfl
  cached := ⟨[], rfl, fun _ => ⟨rfl, rfl⟩, nofun⟩

theorem changed (h : w.Tracked) {change : RealmChange δ} (hp : change.Possible w.realm) :
    (w.step (.changed change)).Tracked := by
  have hput (k : MetaKey) := RealmChange.look_apply hp k
  have htold : (w.step (.changed change)).told = w.told ++ [change] :=
    (List.append_assoc ..).symm
  obtain ⟨received, hc⟩ := h.cached
  refine ⟨?_, ?_, h.reading, received, hc.sent, hc.buffered, fun hlive => ?_⟩
  · rw [htold]
    exact h.settled.snoc change hput
  · rw [htold]
    exact h.current.snoc hput
  · obtain ⟨hsnap, hall, start, htables, hstart⟩ := hc.live hlive
    refine ⟨hsnap, hall, start, htables, fun k => ?_⟩
    rw [htold]
    exact (hstart k).snoc hput

theorem last_sent_eq_none {change : RealmChange δ} {sent : List (RealmChange δ)}
    (h : ∀ earlier ∈ sent, ∀ k, change.write k ≠ none → earlier.write k = none) (k : MetaKey)
    (hk : change.write k ≠ none) : last RealmChange.write sent k = none := by
  induction sent with
  | nil => rfl
  | cons earlier sent ih =>
      have hrest := ih fun e he => h e (List.mem_cons_of_mem _ he)
      exact Option.or_eq_none_iff.mpr ⟨hrest, h earlier List.mem_cons_self k hk⟩

theorem published (h : w.Tracked) (hok : w.Harmless .published) : w.publish.Tracked := by
  obtain ⟨received, hc⟩ := h.cached
  unfold publish
  split
  · exact h
  · next change unpublished hun =>
    split
    · -- The event is sent, so what is told is as before.
      have htold : (w.sent ++ [change]) ++ unpublished = w.told := by
        rw [told, hun, List.append_assoc]
        rfl
      refine ⟨?_, ?_, h.reading, received, ?_, hc.buffered, fun hlive => ?_⟩
      · change Settled _ ((w.sent ++ [change]) ++ unpublished) _
        rw [htold]
        exact h.settled
      · change MetaAnswers.Current _ ((w.sent ++ [change]) ++ unpublished) _
        rw [htold]
        exact h.current
      · exact (congrArg (· ++ [change]) hc.sent).trans (List.append_assoc ..)
      · obtain ⟨hsnap, hall, start, htables, hstart⟩ := hc.live hlive
        refine ⟨hsnap, hall, start, htables, fun k => ?_⟩
        change Kept _ ((w.sent ++ [change]) ++ unpublished) _ _ _
        rw [htold]
        exact hstart k
    · next hmissed =>
      have hnone := hok change (by rw [hun]; rfl) hmissed
      have hsubscribed : w.answers.subscribed ≠ eventTopics.length := fun hall =>
        hmissed (isSubscribed_of_all hall _)
      refine ⟨?_, ?_, h.reading, received, hc.sent, hc.buffered, fun hlive => ?_⟩
      · have hsettled := h.settled
        rw [told, hun] at hsettled
        exact hsettled.forget (last_sent_eq_none hnone)
      · rw [h.reading hsubscribed]
        exact .new _
      · exact absurd (hc.live hlive).2.1 hsubscribed

theorem delivered (h : w.Tracked) : w.deliver.Tracked := by
  obtain ⟨received, hc⟩ := h.cached
  unfold deliver
  split
  · exact h
  · next change inFlight hin =>
    have hsent : w.sent = (received ++ [change]) ++ inFlight := by
      rw [hc.sent, hin, List.append_cons]
    refine ⟨h.settled, h.current, h.reading, received ++ [change], hsent, fun hhyd => ?_,
      fun hlive => ?_⟩
    · cases hh : w.cache.hydrating with
      | true =>
          obtain ⟨htables, hbuffered⟩ := hc.buffered hh
          simp only [MetaCache.handleEvent, hh, if_true, htables, hbuffered, List.map_append,
            List.map_singleton, and_self]
      | false => simp [MetaCache.handleEvent, hh] at hhyd
    · cases hh : w.cache.hydrating with
      | true => simp [MetaCache.handleEvent, hh] at hlive
      | false =>
          obtain ⟨hsnap, hall, start, htables, hstart⟩ := hc.live hh
          refine ⟨?_, hall, start, ?_, hstart⟩
          · simp only [MetaCache.handleEvent, hh, if_neg Bool.false_ne_true]
            split
            · rfl
            · next hsame =>
              rw [hsnap, MetaTables.applyEvent_unchanged (Bool.eq_false_iff.mpr hsame)]
          · simp only [MetaCache.handleEvent, hh, if_neg Bool.false_ne_true, htables,
              List.foldl_append, List.foldl_cons, List.foldl_nil]

/-- An answer, to a call that is only made once the cache is subscribed to everything. -/
theorem answered (h : w.Tracked) {answers : MetaAnswers δ}
    (hall : w.answers.subscribed = eventTopics.length)
    (hsame : answers.subscribed = w.answers.subscribed)
    (hcurrent : answers.Current w.told w.realm.look) : Tracked { w with answers } := by
  obtain ⟨received, hc⟩ := h.cached
  have hall' : answers.subscribed = eventTopics.length := hsame.trans hall
  refine ⟨h.settled, hcurrent, fun hne => absurd hall' hne, received, hc.sent, hc.buffered,
    fun hlive => ?_⟩
  obtain ⟨hsnap, -, hstart⟩ := hc.live hlive
  exact ⟨hsnap, hall', hstart⟩

theorem subscribed (h : w.Tracked) (hok : w.ok .subscribed) :
    (w.step .subscribed).Tracked := by
  have hlt : w.answers.subscribed < eventTopics.length := hok
  obtain ⟨received, hc⟩ := h.cached
  have hanswers := h.reading (Nat.ne_of_lt hlt)
  have hanswers' : (w.step .subscribed).answers = { subscribed := w.answers.subscribed + 1 } := by
    change { w.answers with subscribed := w.answers.subscribed + 1 } = _
    rw [hanswers]
  refine ⟨h.settled, ?_, fun _ => hanswers', received, hc.sent, hc.buffered, fun hlive => ?_⟩
  · rw [hanswers']
    exact .new _
  · exact absurd (hc.live hlive).2.1 (Nat.ne_of_lt hlt)

theorem hydrated (h : w.Tracked) (hok : w.ok .hydrated) : (w.step .hydrated).Tracked := by
  obtain ⟨hhyd, hsessions, hentries⟩ := hok
  obtain ⟨received, hc⟩ := h.cached
  obtain ⟨htables, hbuffered⟩ := hc.buffered hhyd
  refine ⟨h.settled, h.current, h.reading, received, hc.sent, nofun, fun _ => ⟨rfl, ?_, ?_⟩⟩
  · by_contra hne
    obtain ⟨ids, hids, -⟩ := hsessions
    rw [h.reading hne] at hids
    cases hids
  · refine ⟨w.answers.state, ?_, h.current.state hsessions hentries⟩
    have hstart : MetaTables.addAll {} w.answers.state = w.answers.state := by
      simp only [MetaTables.addAll, Option.or_none]
    change (w.cache.hydrate w.answers.state).tables = _
    simp only [MetaCache.hydrate, htables, hstart, hbuffered, List.foldl_map]

/-- What is read is read after the last subscription. -/
theorem subscribed_of_reading (h : w.Tracked)
    (hread : w.answers.sessionIds ≠ none ∨ ∃ kind, w.answers.entryIds kind ≠ none) :
    w.answers.subscribed = eventTopics.length := by
  by_contra hne
  rw [h.reading hne] at hread
  rcases hread with hread | ⟨kind, hread⟩
  · exact hread rfl
  · exact hread rfl

theorem subscribed_of_loaded (h : w.Tracked) (hsessions : w.answers.SessionsLoaded) :
    w.answers.subscribed = eventTopics.length := by
  obtain ⟨ids, hids, -⟩ := hsessions
  exact h.subscribed_of_reading (.inl (hids ▸ Option.some_ne_none ids))

theorem step (h : w.Tracked) (s : MetaStep δ) (hok : w.ok s) (hharm : w.Harmless s) :
    (w.step s).Tracked := by
  cases s with
  | changed change => exact h.changed hok
  | published => exact h.published hharm
  | delivered => exact h.delivered
  | subscribed => exact h.subscribed hok
  | sessionList ids =>
      obtain ⟨hall, -, hids⟩ := hok
      exact h.answered hall rfl (h.current.sessionList hids)
  | entryList kind ids =>
      obtain ⟨hread, -, -, hids⟩ := hok
      exact h.answered (h.subscribed_of_reading (.inl hread)) rfl (h.current.entryList hids)
  | sessionGet id =>
      obtain ⟨hread, -, -⟩ := hok
      exact h.answered (h.subscribed_of_reading (.inr ⟨_, hread⟩)) rfl (h.current.sessionGet id)
  | entryGet kind id =>
      exact h.answered (h.subscribed_of_loaded hok.1) rfl (h.current.entryGet kind id)
  | memberList kind id =>
      exact h.answered (h.subscribed_of_loaded hok.1) rfl (h.current.memberList kind id)
  | hydrated => exact h.hydrated hok

theorem run {steps : List (MetaStep δ)} {w' : MetaWorld δ}
    (hrun : Run MetaWorld.step (fun w s => w.ok s ∧ w.Harmless s) w steps w') (h : w.Tracked) :
    w'.Tracked :=
  hrun.invariant (fun _ s h hok => h.step s hok.1 hok.2) h

end Tracked

/-- **The cache converges.**  In every run in which no missed event writes a key that an event which
the cache has been sent has written, the cache shows the realm once it is hydrated and has received
every event. -/
theorem cache_converges {realm : MetaTables δ} {steps : List (MetaStep δ)} {w : MetaWorld δ}
    (h : Run step (fun w s => w.ok s ∧ w.Harmless s) { realm } steps w)
    (hhydrated : w.cache.hydrating = false) (hpublished : w.unpublished = [])
    (hdelivered : w.inFlight = []) :
    w.cache.tables = w.realm ∧ w.cache.snapshot = w.realm := by
  have htracked : w.Tracked := .run h (.new realm)
  obtain ⟨received, hc⟩ := htracked.cached
  obtain ⟨hsnap, -, start, htables, hstart⟩ := hc.live hhydrated
  have htold : w.told = received := by
    rw [told, hc.sent, hpublished, hdelivered, List.append_nil, List.append_nil]
  have hsettled := htracked.settled
  rw [htold] at hsettled hstart
  -- A replay over what was read leaves what the realm holds.
  have hreplay : received.foldl (put RealmChange.write) start.look = w.realm.look :=
    hsettled.replay_eq fun k => hstart k
  have hshadows := (Shadows.refl start).replay received
  rw [hreplay, ← htables] at hshadows
  have heq := hshadows.eq
  exact ⟨heq, hsnap.trans heq⟩

/-! ### Two runs -/

theorem subscribe_run (w : MetaWorld δ) (n : Nat)
    (h : w.answers.subscribed + n ≤ eventTopics.length) :
    Run step (fun w s => w.ok s ∧ w.Harmless s) w (List.replicate n .subscribed)
      { w with answers.subscribed := w.answers.subscribed + n } := by
  induction n generalizing w with
  | zero => exact .nil w
  | succ n ih =>
      have hlt : w.answers.subscribed < eventTopics.length := by omega
      have hrest := ih (w.step .subscribed) (by
        change w.answers.subscribed + 1 + n ≤ _
        omega)
      have hcount : w.answers.subscribed + 1 + n = w.answers.subscribed + (n + 1) := by omega
      simp only [step, hcount] at hrest
      exact .cons ⟨hlt, trivial⟩ hrest

/-- A session joins before the cache subscribes, and is read. -/
def sampleSteps : List (MetaStep Unit) :=
  [.changed (.join 5 ()), .published] ++ (List.replicate 10 .subscribed ++
    [.sessionList [5], .entryList .registration [], .entryList .subscription [], .sessionGet 5,
      .hydrated])

def sampleWorld : MetaWorld Unit := sampleSteps.foldl step { realm := {} }

theorem sampleSteps_run :
    Run step (fun w s => w.ok s ∧ w.Harmless s) { realm := {} } sampleSteps sampleWorld := by
  have hlisted (id : Nat) :
      id ∈ [5] ↔ (Function.update (fun _ => none) 5 (some { session := some 5, rest := () })
        id : Option (MetaDetails Unit)).isSome = true := by
    rw [List.mem_singleton, Function.update_apply]
    by_cases hid : id = 5 <;> simp [hid]
  refine .cons ⟨trivial, trivial⟩ (.cons ⟨nofun, fun _ _ _ _ he => nomatch he⟩ ?_)
  refine (subscribe_run _ 10 (Nat.le_refl 10)).append ?_
  refine .cons ⟨⟨rfl, rfl, hlisted⟩, trivial⟩ (.cons ⟨⟨nofun, nofun, rfl, ?_⟩, trivial⟩
    (.cons ⟨⟨nofun, fun _ => nofun, rfl, ?_⟩, trivial⟩ (.cons ⟨⟨nofun, ?_, rfl⟩, trivial⟩
      (.cons ⟨⟨rfl, ?_, ?_⟩, trivial⟩ (.nil _)))))
  · exact fun id => ⟨nofun, nofun⟩
  · exact fun id => ⟨nofun, nofun⟩
  · exact List.mem_singleton_self 5
  · refine ⟨[5], rfl, fun id hid => ?_⟩
    rw [List.mem_singleton.mp hid]
    rfl
  · intro kind
    cases kind with
    | registration => exact ⟨[], rfl, nofun⟩
    | subscription => exact ⟨[], rfl, nofun⟩

theorem cache_converges_sample :
    sampleWorld.cache.tables = sampleWorld.realm ∧
      sampleWorld.cache.snapshot = sampleWorld.realm :=
  cache_converges sampleSteps_run rfl rfl rfl

/-- A session registers a procedure when the cache is subscribed to `on_create`, and not yet to
`on_register`. -/
def lostSteps : List (MetaStep Unit) :=
  List.replicate 3 .subscribed ++
    ([.changed (.create .registration 5 7 ()), .published, .changed (.add .registration 5 7),
        .published] ++
      (List.replicate 7 .subscribed ++
        [.sessionList [], .entryList .registration [7], .entryList .subscription [],
          .entryGet .registration 7, .memberList .registration 7, .delivered, .hydrated]))

/-- **The callee is lost.**  The cache has read the registration with its callee, and then replays
the event of its creation over it. -/
theorem callee_lost :
    ∃ w : MetaWorld Unit, Run step ok { realm := {} } lostSteps w ∧
      w.cache.hydrating = false ∧ w.unpublished = [] ∧ w.inFlight = [] ∧
      (w.realm.entries .registration 7).map (·.members) = some {5} ∧
      (w.cache.snapshot.entries .registration 7).map (·.members) = some ∅ := by
  have hsubscribe (w : MetaWorld Unit) (n : Nat)
      (h : w.answers.subscribed + n ≤ eventTopics.length) :=
    (subscribe_run w n h).mono fun _ _ hok => hok.1
  refine ⟨lostSteps.foldl step { realm := {} }, ?_, rfl, rfl, rfl, rfl, rfl⟩
  refine (hsubscribe _ 3 (by decide)).append ?_
  refine .cons trivial (.cons nofun (.cons rfl (.cons nofun ?_)))
  refine (hsubscribe _ 7 (Nat.le_refl 10)).append ?_
  refine .cons ⟨rfl, rfl, fun id => ⟨nofun, nofun⟩⟩ (.cons ⟨nofun, nofun, rfl, ?_⟩
    (.cons ⟨nofun, fun _ => nofun, rfl, fun id => ⟨nofun, nofun⟩⟩
      (.cons ⟨⟨[], rfl, nofun⟩, nofun, List.mem_singleton_self 7, rfl⟩
        (.cons ⟨⟨[], rfl, nofun⟩, nofun, List.mem_singleton_self 7, rfl⟩
          (.cons nofun (.cons ⟨rfl, ⟨[], rfl, nofun⟩, ?_⟩ (.nil _)))))))
  · intro id
    change id ∈ [7] ↔ ((RealmChange.apply (RealmChange.apply {} (.create .registration 5 7 ()))
      (.add .registration 5 7)).entries .registration id).isSome = true
    by_cases hid : id = 7 <;> simp [RealmChange.apply, MetaTables.entries_setEntry, hid]
  · intro kind
    cases kind with
    | registration =>
        refine ⟨[7], rfl, fun id hid => ?_⟩
        rw [List.mem_singleton.mp hid]
        exact ⟨rfl, rfl⟩
    | subscription => exact ⟨[], rfl, nofun⟩

end MetaWorld

end Connectanum
