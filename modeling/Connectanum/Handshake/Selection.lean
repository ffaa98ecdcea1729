import Connectanum.State.Value
import Connectanum.Handshake.Security
import Connectanum.Lib.Text

/-!
# Handshake — Selection

Which authentication method a HELLO gets: the first one, in the order of the client or else of the
realm, that realm and listener allow and for which there is an authenticator.  A HELLO selects by
its `authmethods` alone.

A failing cast or lookup throws; `Except Unit` stands for that.
-/

namespace Connectanum

open Collections

/-- `value as String?`. -/
def Value.asString : Value → Except Unit (Option String)
  | .null => .ok none
  | .str s => .ok (some s)
  | _ => .error ()

structure RealmAuthSettings where
  methods : List String := []
  methodOptions : LinkedMap String Dict := .empty

/-- The part of `RealmSettings` that the handshake reads. -/
structure AuthRealm where
  name : String
  auth : RealmAuthSettings := {}
  limits : RealmLimitSettings := {}

structure AuthenticatorDefinition where
  type : String
  options : Dict := .empty

structure ProfileMethods where
  name : String
  methods : List String

/-- The part of `ListenerSettings` that the handshake reads. -/
structure ListenerAuth where
  authmethods : List String := []
  sessionProfile : Option String := none

structure AuthSettings where
  realms : List AuthRealm
  authenticators : LinkedMap String AuthenticatorDefinition := .empty
  sessionProfiles : List ProfileMethods := []
  /-- The methods that `AuthenticatorRegistry` has a factory for. -/
  factories : List String := []

structure AuthenticatorSelection where
  method : String
  isAnonymous : Bool
  options : Dict

def canonicalAuthMethod (method : String) : String :=
  if method = "scram" then "wamp-scram" else method

def authMethodAlias (method : String) : Option String :=
  if method = "scram" then some "wamp-scram"
  else if method = "wamp-scram" then some "scram"
  else none

/-- `map[method] ?? map[authMethodAlias(method)]`. -/
def lookupMethod {ν : Type} (m : LinkedMap String ν) (method : String) : Option ν :=
  m.get? method <|> (authMethodAlias method).bind m.get?

/-- `AuthenticatorRegistry.factoryFor(method) != null`. -/
def AuthSettings.hasFactory (settings : AuthSettings) (method : String) : Bool :=
  settings.factories.contains method || (authMethodAlias method).any settings.factories.contains

/-- `options['authenticator'] as String? ?? options['use'] as String?`. -/
def authenticatorKey (options : Dict) : Except Unit (Option String) := do
  match ← (options.at "authenticator").asString with
  | some key => return some key
  | none => (options.at "use").asString

def createAuthenticatorSelectionForMethod (settings : AuthSettings) (realm : AuthRealm)
    (method : String) : Except Unit (Option AuthenticatorSelection) := do
  let realmOptions := lookupMethod realm.auth.methodOptions method
  let key ← match realmOptions with
    | none => pure none
    | some options => authenticatorKey options
  let options : Dict := match realmOptions with
    | none => .empty
    | some options => (options.erase "authenticator").erase "use"
  let definitionKey := key.getD method
  let definition := match settings.authenticators.get? definitionKey with
    | some d => some d
    | none => if key.isNone then (authMethodAlias method).bind settings.authenticators.get? else none
  if settings.hasFactory ((definition.map (·.type)).getD definitionKey) then
    let options : Dict := match definition with
      | none => options
      | some d => Dict.addAll options d.options
    let options : Dict :=
      if (Dict.at options "authenticator").isNull then
        options.insert "authenticator" (.str definitionKey)
      else options
    return some ⟨method, false, options⟩
  else return none

/-- The methods of the listener's session profile; an unknown profile throws. -/
def listenerSessionProfileMethods (settings : AuthSettings) (listener : ListenerAuth) :
    Except Unit (List String) :=
  match listener.sessionProfile.map Text.trimMark with
  | none => .ok []
  | some name =>
      if name.isEmpty then .ok []
      else match settings.sessionProfiles.find? fun p => p.name == name with
        | some p => .ok p.methods
        | none => .error ()

/-- The first method of the list that leads to a selection. -/
def firstSelection (settings : AuthSettings) (realm : AuthRealm) (allows : String → Bool) :
    List String → Except Unit (Option AuthenticatorSelection)
  | [] => .ok none
  | method :: rest =>
      if !allows method then firstSelection settings realm allows rest
      else do
        let selection ← createAuthenticatorSelectionForMethod settings realm method
        if method = "anonymous" then
          return some ⟨"anonymous", true, (selection.map (·.options)).getD .empty⟩
        else match selection with
          | some s => return some s
          | none => firstSelection settings realm allows rest

/-- `resolveAuthenticatorSelection`. -/
def resolveAuthenticatorSelection (settings : AuthSettings) (listener : ListenerAuth)
    (realm : AuthRealm) (clientMethods : List String) :
    Except Unit (Option AuthenticatorSelection) := do
  let realmMethods := realm.auth.methods
  let profileMethods ← listenerSessionProfileMethods settings listener
  let listenerMethods :=
    if listener.authmethods.isEmpty then profileMethods else listener.authmethods
  let listenerAllows (method : String) : Bool :=
    listenerMethods.isEmpty ||
      (listenerMethods.map canonicalAuthMethod).contains (canonicalAuthMethod method)
  let realmAllows (method : String) : Bool :=
    if realmMethods.isEmpty then method == "anonymous"
    else (realmMethods.map canonicalAuthMethod).contains (canonicalAuthMethod method)
  let priority :=
    if !clientMethods.isEmpty then clientMethods
    else if !realmMethods.isEmpty then realmMethods
    else ["anonymous"]
  firstSelection settings realm (fun m => realmAllows m && listenerAllows m) priority

end Connectanum
