import Connectanum.State.Session
import Mathlib.Data.List.Sort

/-!
# State — Subscription

Subscription entries and the topic index.  An entry is one object that `subscriptionsById` and
the atlas share, so both hold references to it.
-/

namespace Connectanum

open Collections

/-- The matching policies of topics and of procedures. -/
inductive MatchPolicy where
  | exact
  | prefixed
  | wildcard
  deriving DecidableEq, Repr

abbrev TopicMatchPolicy := MatchPolicy

abbrev ProcedureMatchPolicy := MatchPolicy

/-- The wildcard matching that topics and procedures share: as many segments, and each
non-empty segment of the pattern equal to the candidate's. -/
def wildcardMatches (pattern candidate : String) : Bool :=
  let segments := splitDots pattern
  let parts := splitDots candidate
  segments.length == parts.length &&
    (segments.zip parts).all fun (patternPart, part) => patternPart.isEmpty || patternPart == part

/-- References to entries, by pattern, in one table for each policy. -/
structure PatternIndex where
  exact : LinkedMap String Ref := .empty
  prefixes : LinkedMap String Ref := .empty
  wildcards : LinkedMap String Ref := .empty

namespace PatternIndex

/-- The table of `policy`. -/
def table (a : PatternIndex) : MatchPolicy → LinkedMap String Ref
  | .exact => a.exact
  | .prefixed => a.prefixes
  | .wildcard => a.wildcards

def setTable (a : PatternIndex) (policy : MatchPolicy) (m : LinkedMap String Ref) :
    PatternIndex :=
  match policy with
  | .exact => { a with exact := m }
  | .prefixed => { a with prefixes := m }
  | .wildcard => { a with wildcards := m }

def get? (a : PatternIndex) (policy : MatchPolicy) (pattern : String) : Option Ref :=
  (a.table policy).get? pattern

def insert (a : PatternIndex) (policy : MatchPolicy) (pattern : String) (r : Ref) :
    PatternIndex :=
  a.setTable policy ((a.table policy).insert pattern r)

def erase (a : PatternIndex) (policy : MatchPolicy) (pattern : String) : PatternIndex :=
  a.setTable policy ((a.table policy).erase pattern)

@[simp] theorem get?_empty (policy : MatchPolicy) (pattern : String) :
    ({} : PatternIndex).get? policy pattern = none := by
  cases policy <;> rfl

theorem table_setTable (a : PatternIndex) (p p' : MatchPolicy) (m : LinkedMap String Ref) :
    (a.setTable p m).table p' = if p' = p then m else a.table p' := by
  cases p <;> cases p' <;> rfl

theorem get?_insert (a : PatternIndex) (p p' : MatchPolicy) (t t' : String) (r : Ref) :
    (a.insert p t r).get? p' t' = if p' = p ∧ t' = t then some r else a.get? p' t' := by
  unfold get? insert
  rw [table_setTable]
  by_cases hp : p' = p
  · subst hp
    simp [LinkedMap.get?_insert]
  · simp [hp]

theorem get?_erase (a : PatternIndex) (p p' : MatchPolicy) (t t' : String) :
    (a.erase p t).get? p' t' = if p' = p ∧ t' = t then none else a.get? p' t' := by
  unfold get? erase
  rw [table_setTable]
  by_cases hp : p' = p
  · subst hp
    simp [LinkedMap.get?_erase]
  · simp [hp]

/-- What is reached after an entry was allocated for a pattern that had none. -/
theorem reached_alloc {α : Type} {heap : Heap α} {a : PatternIndex} (policy : α → MatchPolicy)
    (pattern : α → String) {new : α} (hnew : a.get? (policy new) (pattern new) = none) (r : Ref)
    (e : α) :
    ((heap.alloc new).get? r = some e ∧
        (a.insert (policy new) (pattern new) heap.next).get? (policy e) (pattern e) = some r) ↔
      (r = heap.next ∧ e = new) ∨
        (heap.get? r = some e ∧ a.get? (policy e) (pattern e) = some r) := by
  rw [Heap.get?_alloc, get?_insert]
  by_cases hr : r = heap.next
  · subst hr
    simp only [if_true, Option.some.injEq, Heap.get?_next]
    constructor
    · rintro ⟨rfl, _⟩
      exact .inl ⟨trivial, rfl⟩
    · rintro (⟨_, rfl⟩ | ⟨h, _⟩)
      · exact ⟨rfl, by simp⟩
      · cases h
  · rw [if_neg hr]
    constructor
    · rintro ⟨h₁, h₂⟩
      split at h₂
      · exact absurd (Option.some.inj h₂).symm hr
      · exact .inr ⟨h₁, h₂⟩
    · rintro (⟨h, _⟩ | ⟨h₁, h₂⟩)
      · exact absurd h hr
      · refine ⟨h₁, ?_⟩
        rw [if_neg]
        · exact h₂
        · rintro ⟨hp, ht⟩
          rw [hp, ht, hnew] at h₂
          cases h₂

end PatternIndex

/-- A subscriber attached to a subscription. -/
structure SubscriberRecord where
  sessionId : Nat
  authRole : Option String
  details : Dict

/-- A subscription entry (topic or pattern). -/
structure SubscriptionEntry where
  id : Nat
  topic : String
  matchPolicy : TopicMatchPolicy
  subscribers : SplayMap Nat SubscriberRecord := .empty
  options : Dict := .empty
  created : Nat

namespace SubscriptionEntry

def matchesTopic (e : SubscriptionEntry) (candidate : String) : Bool :=
  match e.matchPolicy with
  | .exact => e.topic == candidate
  | .prefixed => e.topic.toList.isPrefixOf candidate.toList
  | .wildcard => wildcardMatches e.topic candidate

def matchPriority (e : SubscriptionEntry) : Int :=
  match e.matchPolicy with
  | .exact => 0
  | .prefixed => 1
  | .wildcard => 2

def matchSpecificity (e : SubscriptionEntry) : Int :=
  match e.matchPolicy with
  | .exact => utf16Length e.topic
  | .prefixed => utf16Length e.topic
  | .wildcard => ((splitDots e.topic).filter fun segment => !segment.isEmpty).length

def secondarySpecificity (e : SubscriptionEntry) : Int :=
  match e.matchPolicy with
  | .exact => utf16Length e.topic
  | .prefixed => - (e.id : Int)
  | .wildcard => (splitDots e.topic).length

/-- The routing order of matching entries: `_matchComparator(a, b) <= 0`. -/
def comesBefore (a b : SubscriptionEntry) : Bool :=
  if a.matchPriority ≠ b.matchPriority then a.matchPriority ≤ b.matchPriority
  else if b.matchSpecificity ≠ a.matchSpecificity then b.matchSpecificity ≤ a.matchSpecificity
  else if b.secondarySpecificity ≠ a.secondarySpecificity then
    b.secondarySpecificity ≤ a.secondarySpecificity
  else a.id ≤ b.id

def addSubscriber (e : SubscriptionEntry) (record : SubscriberRecord) : SubscriptionEntry :=
  { e with subscribers := e.subscribers.insert record.sessionId record }

def removeSubscriber (e : SubscriptionEntry) (sessionId : Nat) : SubscriptionEntry :=
  { e with subscribers := e.subscribers.erase sessionId }

end SubscriptionEntry

/-- Topic-to-subscription index. -/
abbrev SubscriptionAtlas := PatternIndex

/-- The entries that a topic reaches, in routing order. -/
def SubscriptionAtlas.matching (atlas : SubscriptionAtlas) (heap : Heap SubscriptionEntry)
    (topic : String) : List SubscriptionEntry :=
  let matchingIn (m : LinkedMap String Ref) :=
    (m.values.filterMap heap.get?).filter (·.matchesTopic topic)
  let exactMatch := ((atlas.exact.get? topic).bind heap.get?).toList
  (exactMatch ++ matchingIn atlas.prefixes ++ matchingIn atlas.wildcards).insertionSort
    (fun a b => a.comesBefore b = true)

/-- Snapshot of a subscription for the workers. -/
structure SubscriptionSnapshot where
  id : Nat
  topic : String
  matchPolicy : TopicMatchPolicy
  subscribers : List SubscriberRecord
  options : Dict
  created : Nat

/-- A subscriber that an EVENT goes to. -/
structure SubscriptionMatch where
  subscriptionId : Nat
  sessionId : Nat
  connectionId : Nat
  details : Dict
  serializerId : Option Nat
  internalSendPort : Option SendPort
  authRole : Option String

structure PublicationRouting where
  publicationId : Nat
  matched : List SubscriptionMatch

end Connectanum
