import Mathlib.Data.List.Basic
import Connectanum.Lib.Maps
import Connectanum.Lib.Text

/-!
# Http — Routes

The two HTTP route matchers.  The router's binding scans the configured routes in order
(`matchHttpRoute`); the native listener scans the routes it was given in its configuration,
longest path first (`EndpointRuntimeConfig.matchHttpRoute`).  Between them stands
`httpRouteSettingsToNative`, which writes a configured route in the native format.

A native route remembers the position of the configured route it was made from, and a native
target the action it was made from; nothing reads them but the statements.
-/

namespace Connectanum

open Collections
open Text (trimWhere startsWith)

/-! ### Texts -/

/-- `text.trim()` of the binding. -/
def dartTrim (s : String) : String := Text.trimMark s

/-- `str::trim` of the native listener. -/
def nativeTrim (s : String) : String := Text.trim s

/-- The aliases of the protocol names. -/
def protocolAlias (cleaned : String) : String :=
  if ["http", "http1", "http/1", "http/1.0", "http/1.1"].contains cleaned then "http"
  else if ["h2", "http2", "http/2"].contains cleaned then "http2"
  else if ["h3", "http3", "http/3"].contains cleaned then "http3"
  else cleaned

/-- Adds to a set that keeps its insertion order. -/
def addUnique (l : List String) (x : String) : List String := if l.contains x then l else l ++ [x]

/-- `toList()..sort()`. -/
def sortTexts (l : List String) : List String := l.mergeSort fun a b => decide (a ≤ b)

/-! ### Configured routes -/

inductive HttpRouteActionType where
  | rpc
  | internalCall
  | auth
  | reservedRealm
  | namespace
  | mcp
  | file
  | sessionProxy
  | fastCgi
  | reverseProxy
  | publish
  | handler
  deriving DecidableEq

structure HttpRouteAction where
  type : HttpRouteActionType
  procedure : Option String := none
  realm : Option String := none
  sessionProfile : Option String := none
  namespaceName : Option String := none
  appendMethodSuffix : Option Bool := none
  topic : Option String := none
  directory : Option String := none
  delegate : Option String := none
  deriving DecidableEq

structure HttpRouteMatch where
  path : Option String := none
  pathPrefix : Option String := none
  host : Option String := none
  methods : List String := []
  protocols : List String := []
  headers : LinkedMap String String := .empty

structure HttpRouteSettings where
  routeMatch : HttpRouteMatch
  action : HttpRouteAction
  methodActions : LinkedMap String HttpRouteAction := .empty

structure RouterHttpRequest where
  path : String
  method : String
  protocol : String
  headers : LinkedMap String String := .empty

def headerValue (headers : LinkedMap String String) (name : String) : Option String :=
  (headers.entries.find? fun e => e.1.toLower == name.toLower).map Prod.snd

/-- `method.trim().toUpperCase()`. -/
def dartMethod (method : String) : String := (dartTrim method).toUpper

def normaliseHttpRouteProtocol (protocol : String) : String :=
  protocolAlias (dartTrim protocol).toLower

/-- The methods that a CORS preflight of an MCP route asks for. -/
def isMcpMethod (method : String) : Bool := ["GET", "POST", "DELETE"].contains method

namespace HttpRouteSettings

/-- The configured methods, then those with an action of their own. -/
def namedMethods (route : HttpRouteSettings) : List String :=
  ((route.routeMatch.methods ++ route.methodActions.keys).map dartMethod).foldl
    (fun allowed method => if method.isEmpty then allowed else addUnique allowed method) []

def hasMcpPreflightTarget (route : HttpRouteSettings) : Bool :=
  (route.action.type == .mcp && (route.routeMatch.methods.map dartMethod).any isMcpMethod) ||
    route.methodActions.entries.any fun e => e.2.type == .mcp && isMcpMethod (dartMethod e.1)

/-- `_httpRouteAllowedMethods`. -/
def httpRouteAllowedMethods (route : HttpRouteSettings) : List String :=
  let allowed := route.namedMethods
  let allowed := if route.hasMcpPreflightTarget then addUnique allowed "OPTIONS" else allowed
  if allowed.contains "GET" &&
      (route.action.type == .file ||
        route.methodActions.entries.any fun e => dartMethod e.1 == "GET" && e.2.type == .file) then
    addUnique allowed "HEAD"
  else allowed

end HttpRouteSettings

namespace HttpRouteMatch

def pathMatches (m : HttpRouteMatch) (path : String) : Bool :=
  match m.path, m.pathPrefix with
  | some p, _ => p == path
  | none, some p => startsWith path p
  | none, none => true

/-- The host of the `host` header, without its port. -/
def requestHost (header : String) : String :=
  (dartTrim (String.ofList (header.toList.takeWhile (· ≠ ':')))).toLower

def hostMatches (m : HttpRouteMatch) (headers : LinkedMap String String) : Bool :=
  match m.host with
  | none => true
  | some host =>
      let header := (headerValue headers "host").getD ""
      !header.isEmpty && requestHost header == (dartTrim host).toLower

def protocolMatches (m : HttpRouteMatch) (protocol : String) : Bool :=
  m.protocols.isEmpty ||
    (m.protocols.map normaliseHttpRouteProtocol).contains (normaliseHttpRouteProtocol protocol)

/-- `normalizedHeaders`: of several names that differ in case only, the last one counts. -/
def headersMatch (m : HttpRouteMatch) (headers : LinkedMap String String) : Bool :=
  m.headers.entries.all fun e =>
    ((headers.entries.reverse.find? fun h => h.1.toLower == e.1.toLower).map Prod.snd) == some e.2

end HttpRouteMatch

/-- `_httpRouteMatchesRequest`. -/
def httpRouteMatchesRequest (route : HttpRouteSettings) (request : RouterHttpRequest)
    (ignoreMethod ignoreProtocol : Bool) : Bool :=
  let m := route.routeMatch
  let allowedMethods := route.httpRouteAllowedMethods
  m.pathMatches request.path && m.hostMatches request.headers &&
    (ignoreProtocol || m.protocolMatches request.protocol) &&
    (ignoreMethod || allowedMethods.isEmpty ||
      allowedMethods.contains (dartMethod request.method)) &&
    m.headersMatch request.headers

/-- The route admits the request, by the rules of the binding. -/
def HttpRouteSettings.admits (route : HttpRouteSettings) (request : RouterHttpRequest) : Bool :=
  httpRouteMatchesRequest route request false false

inductive HttpRouteMatchResult where
  | route (index : Nat) (route : HttpRouteSettings)
  | methodNotAllowed (allowedMethods : List String)
  | protocolNotAllowed (allowedProtocols : List String)
  | notFound

/-- What the scan has collected of the routes that did not match. -/
structure RouteScan where
  allowedMethods : List String := []
  allowedProtocols : List String := []

namespace RouteScan

def note (scan : RouteScan) (route : HttpRouteSettings) (request : RouterHttpRequest) :
    RouteScan :=
  let protocols := (route.routeMatch.protocols.map normaliseHttpRouteProtocol).filter
    fun p => !p.isEmpty
  { allowedMethods :=
      if httpRouteMatchesRequest route request true false then
        route.httpRouteAllowedMethods.foldl addUnique scan.allowedMethods
      else scan.allowedMethods
    allowedProtocols :=
      if !route.routeMatch.protocols.isEmpty && httpRouteMatchesRequest route request true true &&
          !protocols.contains (normaliseHttpRouteProtocol request.protocol) then
        protocols.foldl addUnique scan.allowedProtocols
      else scan.allowedProtocols }

def result (scan : RouteScan) : HttpRouteMatchResult :=
  if !scan.allowedMethods.isEmpty then .methodNotAllowed (sortTexts scan.allowedMethods)
  else if !scan.allowedProtocols.isEmpty then .protocolNotAllowed (sortTexts scan.allowedProtocols)
  else .notFound

end RouteScan

inductive HttpRouteMapping where
  | translation (realm procedure : String)
  | reservedRealm (namespaceName : Option String) (appendMethodSuffix : Bool)
  | namespace (realm namespaceName : String) (appendMethodSuffix : Bool)
  deriving DecidableEq

structure HttpRouteTarget where
  action : HttpRouteAction
  mapping : HttpRouteMapping

inductive HttpRouteMatchKind where
  | exact
  | prefixed
  deriving DecidableEq

/-- A route as the native configuration spells it. -/
structure HttpRouteConfig where
  origin : Nat
  path : String
  matchKind : HttpRouteMatchKind
  protocols : List String := []
  methods : LinkedMap String HttpRouteTarget := .empty
  defaultTarget : Option HttpRouteTarget := none

structure HttpRouteRuntime where
  origin : Nat
  path : String
  matchKind : HttpRouteMatchKind
  protocols : List String
  methods : LinkedMap String HttpRouteTarget
  defaultTarget : Option HttpRouteTarget

namespace HttpRouteSettings

end HttpRouteSettings

section

variable (toNative : HttpRouteAction → Option HttpRouteMapping)

end

namespace HttpRouteRuntime

def normalisePath (value : String) : Option String :=
  let trimmed := nativeTrim value
  if trimmed.isEmpty then none else if startsWith trimmed "/" then some trimmed else none

def normaliseProtocol (protocol : String) : String := protocolAlias (nativeTrim protocol).toLower

def normaliseProtocols (protocols : List String) : Option (List String) :=
  protocols.foldl (fun acc p => do
    let result ← acc
    let cleaned := normaliseProtocol p
    if cleaned.isEmpty then none else some (addUnique result cleaned)) (some [])

/-- `method.trim().to_uppercase()`. -/
def methodKey (method : String) : String := (nativeTrim method).toUpper

end HttpRouteRuntime

/-- `HttpRouteTarget::from_config`. -/
def HttpRouteTarget.fromConfig (target : HttpRouteTarget) : Option HttpRouteTarget :=
  match target.mapping with
  | .translation realm procedure =>
      if (nativeTrim realm).isEmpty || (nativeTrim procedure).isEmpty then none
      else some { target with mapping := .translation (nativeTrim realm) (nativeTrim procedure) }
  | .reservedRealm name append =>
      some { target with mapping := .reservedRealm (name.map nativeTrim) append }
  | .namespace realm name append =>
      if (nativeTrim realm).isEmpty || (nativeTrim name).isEmpty then none
      else some { target with mapping := .namespace (nativeTrim realm) (nativeTrim name) append }

namespace HttpRouteRuntime

def normaliseMethods (methods : LinkedMap String HttpRouteTarget) :
    Option (LinkedMap String HttpRouteTarget) :=
  methods.entries.foldl (fun acc e => do
    let result ← acc
    let key := methodKey e.1
    let target ← e.2.fromConfig
    if key.isEmpty || result.contains key then none else some (result.insert key target))
    (some .empty)

/-- A route without a default target keeps none. -/
def normaliseDefault : Option HttpRouteTarget → Option (Option HttpRouteTarget)
  | none => some none
  | some target => target.fromConfig.map some

def fromConfig (config : HttpRouteConfig) : Option HttpRouteRuntime := do
  let path ← normalisePath config.path
  let protocols ← normaliseProtocols config.protocols
  let methods ← normaliseMethods config.methods
  let defaultTarget ← normaliseDefault config.defaultTarget
  return ⟨config.origin, path, config.matchKind, protocols, methods, defaultTarget⟩

def matchesPath (route : HttpRouteRuntime) (path : String) : Bool :=
  match route.matchKind with
  | .exact => path == route.path
  | .prefixed =>
      route.path == "/" ||
        (startsWith path route.path &&
          (path.toList.length == route.path.toList.length ||
            route.path.toList.getLast?.all (· == '/') ||
            path.toList[route.path.toList.length]? == some '/'))

def allowsProtocol (route : HttpRouteRuntime) (protocol : String) : Bool :=
  route.protocols.isEmpty || route.protocols.contains protocol

def targetFor (route : HttpRouteRuntime) (method : String) : Option HttpRouteTarget :=
  route.methods.get? (methodKey method) <|> route.defaultTarget

end HttpRouteRuntime

/-! ### What a native target resolves to -/

structure HttpRouteResolution where
  origin : Nat
  action : HttpRouteAction
  realm : String
  procedure : String
  method : String
  protocol : String
  path : String
  query : Option String
  deriving DecidableEq

def trimMatches (c : Char) (s : String) : String := trimWhere (· == c) s

def normaliseNamespace (name : String) : String :=
  let trimmed := trimMatches '.' (nativeTrim name)
  if trimmed.isEmpty then "" else trimmed ++ "."

def sanitiseSegment (segment : List Char) : String :=
  if segment.isEmpty then "index"
  else String.ofList (segment.map fun c =>
    if c.isAlphanum then c.toLower else '_')

def segmentsFromPath (path : String) : List String :=
  let stripped := trimMatches '/' path
  if stripped.isEmpty then [] else (stripped.toList.splitOn '/').map sanitiseSegment

def appendPathSegments (buffer path : String) : String :=
  if (segmentsFromPath path).isEmpty then buffer ++ "index"
  else (segmentsFromPath path).foldl (fun buffer segment =>
    if buffer.isEmpty || buffer.toList.getLast? == some '.' then buffer ++ segment
    else buffer ++ "." ++ segment) buffer

def appendSuffix (buffer method : String) : String :=
  if buffer.isEmpty then method.toLower else buffer ++ "." ++ method.toLower

/-- What is left of the request's path below the route. -/
def routeRelativePath (routePath requestPath : String) : String :=
  if startsWith requestPath routePath then
    match requestPath.toList.drop routePath.toList.length with
    | [] => "/"
    | '/' :: rest => String.ofList ('/' :: rest)
    | rest => String.ofList ('/' :: rest)
  else requestPath

namespace HttpRouteRuntime

def reservedHttpRealm : String := "router.http"

def procedureName (name path method : String) (append : Bool) : String :=
  let identifier := appendPathSegments name path
  if append then appendSuffix identifier method else identifier

def targetPath (route : HttpRouteRuntime) (target : HttpRouteTarget) (path : String) : String :=
  match route.matchKind, target.mapping with
  | .prefixed, .namespace _ _ _ => if route.path == "/" then path else routeRelativePath route.path path
  | _, _ => path

/-- The realm and the procedure that a target stands for. -/
def materialise (mapping : HttpRouteMapping) (path method : String) : String × String :=
  match mapping with
  | .translation realm procedure => (realm, procedure)
  | .reservedRealm name append =>
      (reservedHttpRealm, procedureName ((name.map normaliseNamespace).getD "") path method append)
  | .namespace realm name append => (realm, procedureName (normaliseNamespace name) path method append)

def resolveForMethod (route : HttpRouteRuntime) (request : RouterHttpRequest)
    (query : Option String) : Option HttpRouteResolution :=
  (route.targetFor request.method).map fun target =>
    let place := materialise target.mapping (route.targetPath target request.path)
      (methodKey request.method)
    { origin := route.origin
      action := target.action
      realm := place.1
      procedure := place.2
      method := methodKey request.method
      protocol := request.protocol
      path := request.path
      query := query }

/-- The route admits the request, by the rules of the native listener. -/
def admits (route : HttpRouteRuntime) (request : RouterHttpRequest) : Bool :=
  route.matchesPath request.path && route.allowsProtocol (normaliseProtocol request.protocol) &&
    (route.targetFor request.method).isSome

end HttpRouteRuntime

inductive NativeRouteMatch where
  | notFound
  | methodNotAllowed (allowedMethods : List String)
  | protocolNotAllowed (allowedProtocols : List String)
  | resolved (resolution : HttpRouteResolution)

/-- What the native scan has found so far. -/
structure NativeScan where
  best : Option (Nat × HttpRouteResolution) := none
  methodNotAllowed : Option (List String) := none
  protocolNotAllowed : Option (List String) := none

namespace NativeScan

def addAll (entry : Option (List String)) (values : List String) : Option (List String) :=
  some (values.foldl addUnique (entry.getD []))

def result (scan : NativeScan) : NativeRouteMatch :=
  match scan.best, scan.methodNotAllowed, scan.protocolNotAllowed with
  | some b, _, _ => .resolved b.2
  | none, some allowed, _ => .methodNotAllowed (sortTexts allowed)
  | none, none, some allowed => .protocolNotAllowed (sortTexts allowed)
  | none, none, none => .notFound

end NativeScan

section

variable (toNative : HttpRouteAction → Option HttpRouteMapping)

end

end Connectanum
