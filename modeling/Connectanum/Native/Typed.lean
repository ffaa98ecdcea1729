import Connectanum.Native.CborPaths
import Connectanum.Native.Datum

/-!
# Native — Typed

What a parser makes of a frame, up to the errors and to the bytes of the payload (`typedMessage`).
-/

namespace Connectanum

open Checks

namespace Wamp

/-! ### The typed fields -/

end Wamp

end Connectanum
