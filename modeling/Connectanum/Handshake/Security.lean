import Connectanum.Lib.Maps

/-!
# Handshake — Security

`AuthSecurityTracker`: the failed authentications of each realm, by authid, and the lockout that
follows too many of them.  Times are milliseconds of a clock that every call reads anew.  A record
is kept under the digest of its authid; here the authid stands for its digest.
-/

namespace Connectanum

open Collections

structure RealmLimitSettings where
  authTimeoutMs : Int := 10000
  maxFailedAuth : Int := 5
  maxFailedAuthRecords : Int := 4096
  maxHttpAuthGrants : Int := 4096
  lockoutMs : Int := 900000
  deriving DecidableEq

structure FailureRecord where
  count : Nat := 0
  retainedUntil : Nat
  lockedUntil : Option Nat := none
  deriving DecidableEq

/-- `_realmFailures`. -/
abbrev AuthSecurityTracker := LinkedMap String (LinkedMap String FailureRecord)

namespace AuthSecurityTracker

def trackingEnabled (limits : RealmLimitSettings) : Bool :=
  decide (0 < limits.maxFailedAuth) && decide (0 < limits.lockoutMs)

/-- The records of a realm. -/
def realmMap (t : AuthSecurityTracker) (realmUri : String) : LinkedMap String FailureRecord :=
  (t.get? realmUri).getD .empty

/-- A realm without records has no map. -/
def setRealmMap (t : AuthSecurityTracker) (realmUri : String)
    (m : LinkedMap String FailureRecord) : AuthSecurityTracker :=
  if m.isEmpty then t.erase realmUri else t.insert realmUri m

/-- `_removeExpiredRecords`. -/
def removeExpiredRecords (t : AuthSecurityTracker) (realmUri : String) (now : Nat) :
    AuthSecurityTracker :=
  t.setRealmMap realmUri
    ((t.realmMap realmUri).filter fun _ record => decide (now < record.retainedUntil))

/-- `lockoutRemaining`. -/
def lockoutRemaining (t : AuthSecurityTracker) (realmUri authId : String)
    (limits : RealmLimitSettings) (now : Nat) : AuthSecurityTracker × Option Nat :=
  if !trackingEnabled limits then (t.erase realmUri, none)
  else
    let t := t.removeExpiredRecords realmUri now
    match ((t.realmMap realmUri).get? authId).bind (·.lockedUntil) with
    | none => (t, none)
    | some lockedUntil =>
        if now < lockedUntil then (t, some (lockedUntil - now))
        else (t.setRealmMap realmUri ((t.realmMap realmUri).erase authId), none)

/-- `capacityRetryAfter`. -/
def capacityRetryAfter (t : AuthSecurityTracker) (realmUri authId : String)
    (limits : RealmLimitSettings) (now : Nat) : AuthSecurityTracker × Option Nat :=
  if !trackingEnabled limits then (t.erase realmUri, none)
  else if limits.maxFailedAuthRecords ≤ 0 then
    (t, some (min (max limits.lockoutMs.toNat 1) 0x7fffffff))
  else
    let t := t.removeExpiredRecords realmUri now
    let records := t.realmMap realmUri
    if records.contains authId || decide ((records.length : Int) < limits.maxFailedAuthRecords) then
      (t, none)
    else
      match (records.values.map (·.retainedUntil)).min? with
      | none => (t, none)
      | some earliest => (t, some (earliest - now))

/-- `recordFailure`. -/
def recordFailure (t : AuthSecurityTracker) (realmUri authId : String)
    (limits : RealmLimitSettings) (now : Nat) : AuthSecurityTracker :=
  if !trackingEnabled limits || decide (limits.maxFailedAuthRecords ≤ 0) then t
  else
    let t := t.removeExpiredRecords realmUri now
    let records := t.realmMap realmUri
    let until_ := now + limits.lockoutMs.toNat
    let write (record : FailureRecord) : AuthSecurityTracker :=
      t.insert realmUri (records.insert authId
        (if limits.maxFailedAuth ≤ (record.count : Int) + 1 then
          { count := 0, retainedUntil := until_, lockedUntil := some until_ }
        else { record with count := record.count + 1, retainedUntil := until_ }))
    match records.get? authId with
    | some record => write record
    | none =>
        if limits.maxFailedAuthRecords ≤ (records.length : Int) then t
        else write { retainedUntil := now }

/-- The failure is recorded: tracking is on, and there is a record or room for one. -/
def takesFailure (t : AuthSecurityTracker) (realmUri authId : String)
    (limits : RealmLimitSettings) (now : Nat) : Bool :=
  let records := (t.removeExpiredRecords realmUri now).realmMap realmUri
  trackingEnabled limits && decide (0 < limits.maxFailedAuthRecords) &&
    (records.contains authId || decide ((records.length : Int) < limits.maxFailedAuthRecords))

/-- `recordSuccess`. -/
def recordSuccess (t : AuthSecurityTracker) (realmUri authId : String) : AuthSecurityTracker :=
  match t.get? realmUri with
  | none => t
  | some records => t.setRealmMap realmUri (records.erase authId)

end AuthSecurityTracker

end Connectanum
