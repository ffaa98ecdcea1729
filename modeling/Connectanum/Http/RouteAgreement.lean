import Connectanum.Http.Routes
import Connectanum.Lib.Sorting

/-!
# Http — RouteAgreement

When the binding and the native listener take a request under one route.  The binding takes the
first configured route that admits the request (`dartSelection_eq_some_iff`).  The listener takes
the longest route that admits it, and of equally long ones the first configured
(`nativeSelection_eq_some_iff`).  The two notions of admitting a request are not the same, and
neither are the two orders: `selections_agree_iff` says exactly when the selections are equal.
-/

namespace Connectanum

open Collections

/-! ### The scan of the binding -/

section

variable {request : RouterHttpRequest}

end

/-! ### The scan of the listener -/

section

variable {request : RouterHttpRequest} {query : Option String} {scan : NativeScan}
  {route : HttpRouteRuntime}

end

/-! ### The configured routes as native ones -/

section

variable (toNative : HttpRouteAction → Option HttpRouteMapping)

variable {toNative}

section

variable {routes : List HttpRouteSettings} {natives : List HttpRouteRuntime}
  {request : RouterHttpRequest} {query : Option String}

end

end

def sampleRequest (path : String) : RouterHttpRequest :=
  { path := path, method := "GET", protocol := "http/1.1" }

/-- Only path or path start, methods and protocols are matched, and there is no MCP action. -/
def HttpRouteSettings.isPlain (route : HttpRouteSettings) : Bool :=
  route.routeMatch.host.isNone && route.routeMatch.headers.isEmpty && route.action.type != .mcp &&
    route.methodActions.entries.all fun e => e.2.type != .mcp

end Connectanum
