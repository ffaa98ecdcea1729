import Connectanum.State.Procedure

/-!
# Auth — Authorization

The realm authorizer: static role permissions, combined with an optional dynamic provider.
The static part decides on the text of the requested URI; the policy under which a pattern
will match (`targetMatchPolicy`) is there for the provider.
-/

namespace Connectanum

/-- Actions that can be authorized against a realm policy. -/
inductive AuthorizationAction where
  | subscribe
  | unsubscribe
  | publish
  | call
  | cancel
  | register
  | unregister
  deriving DecidableEq, Repr

namespace AuthorizationAction

def operationName : AuthorizationAction → String
  | .subscribe => "subscribe"
  | .unsubscribe => "unsubscribe"
  | .publish => "publish"
  | .call => "call"
  | .cancel => "cancel"
  | .register => "register"
  | .unregister => "unregister"

def operationCandidates : AuthorizationAction → List String
  | .subscribe => ["subscribe"]
  | .unsubscribe => ["unsubscribe", "subscribe"]
  | .publish => ["publish"]
  | .call => ["call"]
  | .cancel => ["cancel", "call"]
  | .register => ["register"]
  | .unregister => ["unregister", "register"]

def usesTopicMatching : AuthorizationAction → Bool
  | .subscribe | .unsubscribe | .publish => true
  | .call | .cancel | .register | .unregister => false

end AuthorizationAction

abbrev PermissionMatchPolicy := MatchPolicy

/-- Permission entry describing which operations are allowed or denied. -/
structure PermissionSettings where
  uri : String
  matchPolicy : PermissionMatchPolicy := .exact
  allow : List String := []
  deny : List String := []
  deriving DecidableEq

structure RoleSettings where
  name : String
  permissions : List PermissionSettings
  deriving DecidableEq

/-- What the authorizer reads of a realm's settings. -/
structure RealmSettings where
  roles : List RoleSettings

/-- Authorization request passed to static and dynamic authorizers. -/
structure AuthorizationRequest where
  realmUri : String
  action : AuthorizationAction
  uri : String
  sessionId : Nat
  connectionId : Option Nat := none
  authId : Option String := none
  authRole : Option String := none
  authMethod : Option String := none
  authProvider : Option String := none
  options : Dict := .empty
  targetMatchPolicy : Option PermissionMatchPolicy := none
  isInternal : Bool := false

/-- Final allow/deny decision returned by the authorizer. -/
structure AuthorizationDecision where
  allowed : Bool
  reason : String
  message : Option String

namespace AuthorizationDecision

/-- `wamp.Error.notAuthorized`. -/
def notAuthorized : String := "wamp.error.not_authorized"

def allow : AuthorizationDecision := ⟨true, "", none⟩

def deny (message : String) : AuthorizationDecision := ⟨false, notAuthorized, some message⟩

end AuthorizationDecision

/-! ### Matching permissions -/

/-- The prefix matching of procedures, which ends at a segment. -/
def segmentPrefixMatches (pattern candidate : String) : Bool :=
  pattern.toList.isPrefixOf candidate.toList &&
    (candidate.toList.length == pattern.toList.length ||
      pattern.toList.getLast? == some '.' ||
      candidate.toList[pattern.toList.length]? == some '.')

def matchesTopicUri (permission : PermissionSettings) (candidate : String) : Bool :=
  match permission.matchPolicy with
  | .exact => permission.uri == candidate
  | .prefixed => permission.uri.toList.isPrefixOf candidate.toList
  | .wildcard => wildcardMatches permission.uri candidate

def matchesProcedureUri (permission : PermissionSettings) (candidate : String) : Bool :=
  match permission.matchPolicy with
  | .exact => permission.uri == candidate
  | .prefixed => permission.uri.isEmpty || segmentPrefixMatches permission.uri candidate
  | .wildcard => wildcardMatches permission.uri candidate

def permissionMatches (action : AuthorizationAction) (uri : String)
    (permission : PermissionSettings) : Bool :=
  if action.usesTopicMatching then matchesTopicUri permission uri
  else matchesProcedureUri permission uri

/-- `_containsOperation`.  The candidates are ASCII, so only ASCII letters can fold to them. -/
def containsOperation (operations : List String) (candidate : String) : Bool :=
  operations.any fun operation => operation.toLower == candidate.toLower

/-- `_PermissionMatch`. -/
structure PermissionMatch where
  permission : PermissionSettings
  index : Nat
  deriving DecidableEq

def policyPriority : PermissionMatchPolicy → Nat
  | .exact => 0
  | .prefixed => 1
  | .wildcard => 2

def policySpecificity (permission : PermissionSettings) : Nat :=
  match permission.matchPolicy with
  | .exact | .prefixed => utf16Length permission.uri
  | .wildcard => ((splitDots permission.uri).filter fun segment => !segment.isEmpty).length

def comparePermissionMatches (left right : PermissionMatch) : Ordering :=
  (compare (policyPriority left.permission.matchPolicy)
      (policyPriority right.permission.matchPolicy)).then
    ((compare (policySpecificity right.permission) (policySpecificity left.permission)).then
      (compare left.index right.index))

/-- `left` is sorted before `right`, or they are one permission. -/
def PermissionMatch.Ranks (left right : PermissionMatch) : Prop :=
  (comparePermissionMatches left right).isLE = true

instance : DecidableRel PermissionMatch.Ranks := fun _ _ => inferInstanceAs (Decidable (_ = true))

/-- What a permission says about an action: nothing, or denied before allowed. -/
def PermissionSettings.verdict (permission : PermissionSettings) (action : AuthorizationAction) :
    Option Bool :=
  action.operationCandidates.findSome? fun operation =>
    if containsOperation permission.deny operation then some false
    else if containsOperation permission.allow operation then some true
    else none

namespace RealmAuthorizer

/-- The role's permissions that match, most specific first. -/
def rankedMatches (role : RoleSettings) (action : AuthorizationAction) (uri : String) :
    List PermissionMatch :=
  ((role.permissions.zipIdx.map fun (permission, index) => ⟨permission, index⟩).filter
    fun m : PermissionMatch => permissionMatches action uri m.permission).insertionSort
      PermissionMatch.Ranks

/-- The role of the requester. -/
def roleOf (settings : RealmSettings) (request : AuthorizationRequest) : Option RoleSettings :=
  match request.authRole with
  | none => none
  | some authRole =>
      if authRole.isEmpty then none
      else settings.roles.find? fun candidate => candidate.name == authRole

def evaluateStaticPermissions (settings : RealmSettings) (request : AuthorizationRequest) :
    Option AuthorizationDecision :=
  (roleOf settings request).bind fun role =>
    ((rankedMatches role request.action request.uri).findSome?
      fun m => m.permission.verdict request.action).map fun allowed =>
        if allowed then .allow
        else .deny ("Role " ++ request.authRole.getD "" ++ " may not " ++
          request.action.operationName ++ " " ++ request.uri)

/-- `authorize`, with the dynamic provider that is in force. -/
def authorize (settings : RealmSettings)
    (provider : Option (AuthorizationRequest → Option AuthorizationDecision))
    (request : AuthorizationRequest) : AuthorizationDecision :=
  let hasStaticPolicy := settings.roles.any fun role => !role.permissions.isEmpty
  let staticDecision := evaluateStaticPermissions settings request
  match staticDecision with
  | some ⟨false, reason, message⟩ => ⟨false, reason, message⟩
  | _ =>
      match provider.bind (· request) with
      | some decision => decision
      | none =>
          match staticDecision with
          | some decision => decision
          | none =>
              if !hasStaticPolicy then .allow
              else .deny ("Not authorized to " ++ request.action.operationName ++ " " ++
                request.uri ++ " in realm " ++ request.realmUri)

end RealmAuthorizer

end Connectanum
