import Connectanum.State.Subscription

/-!
# State — Procedure

Procedure entries with their callees, the choice of the next callee, and the procedure index.
As with subscriptions, an entry is one object that several tables refer to.
-/

namespace Connectanum

open Collections

/-- Invocation policies for shared registrations. -/
inductive InvocationPolicy where
  | single
  | roundRobin
  | random
  | first
  | last
  | load
  deriving DecidableEq, Repr

def InvocationPolicy.name : InvocationPolicy → String
  | .single => "single"
  | .roundRobin => "roundRobin"
  | .random => "random"
  | .first => "first"
  | .last => "last"
  | .load => "load"

def MatchPolicy.name : MatchPolicy → String
  | .exact => "exact"
  | .prefixed => "prefix"
  | .wildcard => "wildcard"

/-- One callee of a procedure entry. -/
structure RegistrationRecord where
  registrationId : Nat
  procedure : String
  sessionId : Nat
  authRole : Option String
  details : Dict
  matchPolicy : ProcedureMatchPolicy
  lastInvocation : Nat := 0

structure RegistrationSnapshot where
  registrationId : Nat
  procedure : String
  policy : InvocationPolicy
  matchPolicy : ProcedureMatchPolicy
  callees : List RegistrationRecord
  created : Nat

/-- A procedure entry, possibly with several callees. -/
structure ProcedureEntry where
  registrationId : Nat
  procedure : String
  matchPolicy : ProcedureMatchPolicy
  policy : InvocationPolicy
  callees : SplayMap Nat RegistrationRecord := .empty
  created : Nat
  cursor : Nat := 0
  cacheVersion : Nat := 0
  /-- The version `cachedCallees` was taken at; the source starts at `-1`. -/
  cachedVersion : Option Nat := none
  cachedCallees : Option (List RegistrationRecord) := none

namespace ProcedureEntry

/-- `_orderedCallees()`: the callees in registration order, through the cache. -/
def orderedCallees (e : ProcedureEntry) : List RegistrationRecord × ProcedureEntry :=
  match e.cachedCallees with
  | some cached =>
      if e.cachedVersion = some e.cacheVersion then (cached, e)
      else
        (e.callees.values,
          { e with cachedCallees := some e.callees.values, cachedVersion := some e.cacheVersion })
  | none =>
      (e.callees.values,
        { e with cachedCallees := some e.callees.values, cachedVersion := some e.cacheVersion })

/-- The least recently invoked callee, the earliest registration on a tie. -/
def leastRecent (callees : List RegistrationRecord) : Option RegistrationRecord :=
  callees.foldl (fun best record =>
    match best with
    | none => some record
    | some b => if record.lastInvocation < b.lastInvocation then some record else some b) none

/-- `nextCallee()`; `draw` is the outcome of `_random.nextInt`. -/
def nextCallee (e : ProcedureEntry) (draw : Nat) : Option RegistrationRecord × ProcedureEntry :=
  if e.callees.isEmpty then (none, e)
  else match e.policy with
    | .single => (e.callees.values.head?, e)
    | .roundRobin =>
        let (entries, e) := e.orderedCallees
        if entries.isEmpty then (none, e)
        else
          (entries[e.cursor % entries.length]?,
            { e with cursor := (e.cursor + 1) % entries.length })
    | .random =>
        let (entries, e) := e.orderedCallees
        (entries[draw % entries.length]?, e)
    | .first =>
        let (entries, e) := e.orderedCallees
        (entries.head?, e)
    | .last =>
        let (entries, e) := e.orderedCallees
        (entries.getLast?, e)
    | .load => (leastRecent e.callees.values, e)

def addCallee (e : ProcedureEntry) (record : RegistrationRecord) : ProcedureEntry :=
  { e with
    callees := e.callees.insert record.registrationId record
    cacheVersion := e.cacheVersion + 1 }

def removeCallee (e : ProcedureEntry) (registrationId : Nat) : ProcedureEntry :=
  match e.callees.get? registrationId with
  | none => e
  | some _ =>
      let callees := e.callees.erase registrationId
      { e with
        callees := callees
        cacheVersion := e.cacheVersion + 1
        cursor :=
          if callees.isEmpty then 0
          else if e.cursor ≥ callees.length then e.cursor % callees.length
          else e.cursor }

/-- `callee.lastInvocation = now`. -/
def touchCallee (e : ProcedureEntry) (registrationId now : Nat) : ProcedureEntry :=
  match e.callees.get? registrationId with
  | none => e
  | some record =>
      { e with callees := e.callees.insert registrationId { record with lastInvocation := now } }

def matchesProcedure (e : ProcedureEntry) (candidate : String) : Bool :=
  match e.matchPolicy with
  | .exact => e.procedure == candidate
  | .prefixed =>
      e.procedure.toList.isPrefixOf candidate.toList &&
        (candidate.toList.length == e.procedure.toList.length ||
          e.procedure.toList.getLast? == some '.' ||
          candidate.toList[e.procedure.toList.length]? == some '.')
  | .wildcard => wildcardMatches e.procedure candidate

def prefixLength (e : ProcedureEntry) : Nat :=
  if e.matchPolicy = .prefixed then utf16Length e.procedure else 0

/-- The lengths of the maximal runs of non-empty segments. -/
def literalBlocks (segments : List (List Char)) : List Nat :=
  let (blocks, current) := segments.foldl (fun (blocks, current) segment =>
    if segment.isEmpty then (if current > 0 then blocks ++ [current] else blocks, 0)
    else (blocks, current + 1)) (([] : List Nat), 0)
  if current > 0 then blocks ++ [current] else blocks

def wildcardLiteralBlocks (e : ProcedureEntry) : List Nat :=
  if e.matchPolicy = .wildcard then literalBlocks (splitDots e.procedure) else []

def wildcardSegmentCount (e : ProcedureEntry) : Nat :=
  if e.matchPolicy = .wildcard then (splitDots e.procedure).length else 0

/-- The first difference of two block lists, missing blocks counting as `0`. -/
def compareBlocks : List Nat → List Nat → Ordering
  | [], [] => .eq
  | a :: as, [] => if a > 0 then .lt else compareBlocks as []
  | [], b :: bs => if 0 < b then .gt else compareBlocks [] bs
  | a :: as, b :: bs => if a > b then .lt else if a < b then .gt else compareBlocks as bs

/-- `_compareWildcard`. -/
def compareWildcard (a b : ProcedureEntry) : Ordering :=
  match compareBlocks a.wildcardLiteralBlocks b.wildcardLiteralBlocks with
  | .eq =>
      if a.wildcardSegmentCount > b.wildcardSegmentCount then .lt
      else if a.wildcardSegmentCount < b.wildcardSegmentCount then .gt
      else compare a.registrationId b.registrationId
  | o => o

end ProcedureEntry

/-- The procedure index: `_exact`, `_prefixes`, `_wildcards` and `_registrations`. -/
structure ProcedureAtlas where
  patterns : PatternIndex := {}
  registrations : LinkedMap Nat Ref := .empty

namespace ProcedureAtlas

/-- The entries of all registrations, exact ones first. -/
def values (atlas : ProcedureAtlas) (heap : Heap ProcedureEntry) : List ProcedureEntry :=
  (atlas.patterns.exact.values ++ atlas.patterns.prefixes.values ++
    atlas.patterns.wildcards.values).filterMap heap.get?

/-- `entry` displaces the best prefix match so far. -/
def betterPrefix (entry best : ProcedureEntry) : Bool :=
  entry.prefixLength > best.prefixLength ||
    (entry.prefixLength == best.prefixLength && entry.registrationId < best.registrationId)

/-- Folds a table for the best entry that matches `procedure`. -/
def bestOf (better : ProcedureEntry → ProcedureEntry → Bool) (heap : Heap ProcedureEntry)
    (procedure : String) (m : LinkedMap String Ref) : Option (Ref × ProcedureEntry) :=
  m.values.foldl (fun best r =>
    match heap.get? r with
    | none => best
    | some entry =>
        if !entry.matchesProcedure procedure then best
        else match best with
          | none => some (r, entry)
          | some (_, b) => if better entry b then some (r, entry) else best) none

/-- `match(procedure)`: an exact entry, else the longest prefix, else the best wildcard. -/
def lookup (atlas : ProcedureAtlas) (heap : Heap ProcedureEntry) (procedure : String) :
    Option (Ref × ProcedureEntry) :=
  match (atlas.patterns.exact.get? procedure).bind fun r => (heap.get? r).map fun e => (r, e) with
  | some found => some found
  | none =>
      match bestOf betterPrefix heap procedure atlas.patterns.prefixes with
      | some found => some found
      | none =>
          bestOf (fun entry best => entry.compareWildcard best == .lt) heap procedure
            atlas.patterns.wildcards

def indexRegistration (atlas : ProcedureAtlas) (registrationId : Nat) (r : Ref) :
    ProcedureAtlas :=
  { atlas with registrations := atlas.registrations.insert registrationId r }

/-- `removeRegistration`: the pattern goes with the entry's last callee. -/
def removeRegistration (atlas : ProcedureAtlas) (heap : Heap ProcedureEntry)
    (registrationId : Nat) : ProcedureAtlas :=
  match atlas.registrations.get? registrationId with
  | none => atlas
  | some r =>
      let registrations := atlas.registrations.erase registrationId
      match heap.get? r with
      | none => { atlas with registrations := registrations }
      | some entry =>
          if entry.callees.isEmpty then
            { patterns := atlas.patterns.erase entry.matchPolicy entry.procedure
              registrations := registrations }
          else { atlas with registrations := registrations }

end ProcedureAtlas

end Connectanum
