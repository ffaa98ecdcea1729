import Connectanum.State.Store
import Connectanum.Auth.Authorization

/-!
# Wire — Options

The option and detail objects of the WAMP messages that the router handles, and what the worker
makes of them before it asks the state store.
-/

namespace Connectanum

open Collections

/-! ### Errors as text -/

/-- `Error.safeToString`. -/
def Value.safeText : Value → String
  | .str s =>
      "\"" ++ String.join (s.toList.map fun c =>
        if c = '"' then "\\\"" else if c = '\\' then "\\\\" else if c = '\n' then "\\n"
        else if c = '\r' then "\\r" else if c = '\t' then "\\t" else c.toString) ++ "\""
  | .list _ => "Instance of '_GrowableList<dynamic>'"
  | .dict _ => "Instance of '_Map<String, dynamic>'"
  | v => v.toText

/-- `error.toString()`. -/
def ArgumentError.toText (e : ArgumentError) : String :=
  let kind := if e.value.isNone then "Invalid argument(s)" else "Invalid argument"
  let name := (e.name.map fun n => " (" ++ n ++ ")").getD ""
  let value := (e.value.map fun v => ": " ++ v.safeText).getD ""
  kind ++ name ++ ": " ++ e.message ++ value

def StoreError.toText : StoreError → String
  | .command message => "Bad state: " ++ message
  | .invalid message cause => "Bad state: " ++ message ++ ": " ++ cause.toText
  | .state message => "Bad state: " ++ message
  | .argument error => error.toText

/-- What an `await` on the store can throw. -/
inductive Failure where
  | state (message : String)
  | argument (error : ArgumentError)
  | other (text : String)

namespace Failure

def toText : Failure → String
  | .state message => "Bad state: " ++ message
  | .argument error => error.toText
  | .other text => text

/-- A `!` on a value that is null. -/
def nullCheck : Failure := .other "Null check operator used on a null value"

end Failure

/-! ### URIs -/

namespace UriPattern

/-- `\s` of a regular expression. -/
def isSpace (c : Char) : Bool :=
  [0x09, 0x0A, 0x0B, 0x0C, 0x0D, 0x20, 0xA0, 0x1680, 0x2028, 0x2029, 0x202F, 0x205F, 0x3000,
    0xFEFF].contains c.toNat || (0x2000 ≤ c.toNat && c.toNat ≤ 0x200A)

/-- `[^\s.#]`, where the dots separate the segments. -/
def plain (c : Char) : Bool := !isSpace c && c != '#'

/-- `^([^\s.#]+\.)*([^\s.#]+)$`. -/
def regular (uri : String) : Bool :=
  (splitDots uri).all fun segment => !segment.isEmpty && segment.all plain

/-- `^(([^\s.#]+\.)|\.)*([^\s.#]+)?$`. -/
def matchWildcard (uri : String) : Bool := uri.toList.all plain

end UriPattern

/-- `_validateTopicUri` and `_validateProcedureUri`, which read alike. -/
def validateUri (uri : String) (policy : MatchPolicy) : Except ArgumentError Unit :=
  let invalid : ArgumentError := ⟨none, none, "invalid_uri: " ++ uri⟩
  let cs := uri.toList
  if policy = .prefixed ∧ cs.getLast? = some '.' then
    let trimmed := cs.dropLast
    if trimmed.isEmpty ∨ trimmed.getLast? = some '.' then .error invalid
    else if UriPattern.regular (String.ofList trimmed) then .ok () else .error invalid
  else
    let isValid := match policy with
      | .exact | .prefixed => UriPattern.regular uri
      | .wildcard => UriPattern.matchWildcard uri
    if policy = .wildcard ∧ '*' ∈ cs then .error invalid
    else if isValid then .ok () else .error invalid

/-! ### Options -/

/-- The payload passthru options that all messages with a payload share. -/
structure PPTOptions where
  pptScheme : Option String := none
  pptSerializer : Option String := none
  pptCipher : Option String := none
  pptKeyId : Option String := none
  deriving DecidableEq

structure SubscribeOptions where
  «match» : Option String := none
  metaTopic : Option String := none
  getRetained : Option Bool := none
  custom : Dict := .empty

structure RegisterOptions where
  discloseCaller : Option Bool := none
  «match» : Option String := none
  invoke : Option String := none
  forwardTimeout : Option Bool := none
  custom : Dict := .empty

structure PublishOptions extends PPTOptions where
  acknowledge : Option Bool := none
  exclude : Option (List Int) := none
  excludeAuthId : Option (List String) := none
  excludeAuthRole : Option (List String) := none
  eligible : Option (List Int) := none
  eligibleAuthId : Option (List String) := none
  eligibleAuthRole : Option (List String) := none
  excludeMe : Option Bool := none
  discloseMe : Option Bool := none
  retain : Option Bool := none
  custom : Dict := .empty

structure CallOptions extends PPTOptions where
  progress : Option Bool := none
  receiveProgress : Option Bool := none
  timeout : Option Int := none
  discloseMe : Option Bool := none
  custom : Dict := .empty

structure YieldOptions extends PPTOptions where
  progress : Bool := false
  custom : Dict := .empty

/-! ### Details -/

structure EventDetails extends PPTOptions where
  publisher : Option Nat := none
  trustlevel : Option Int := none
  topic : Option String := none
  custom : Dict := .empty

structure InvocationDetails extends PPTOptions where
  progress : Option Bool := none
  caller : Option Nat := none
  procedure : Option String := none
  receiveProgress : Option Bool := none
  timeout : Option Int := none
  custom : Dict := .empty

structure ResultDetails extends PPTOptions where
  progress : Option Bool := none
  custom : Dict := .empty

/-! ### Dictionaries -/

namespace Dict

/-- `if (value != null) map[key] = value`. -/
def put (d : Dict) (key : String) (value : Option Value) : Dict :=
  match value with
  | none => d
  | some v => d.insert key v

/-- `map.removeWhere((key, _) => keys.contains(key))`. -/
def without (d : Dict) (keys : List String) : Dict :=
  keys.foldl (fun acc key => acc.erase key) d

/-- The four passthru options under their wire names. -/
def putPPT (d : Dict) (options : PPTOptions) : Dict :=
  (((d.put "ppt_scheme" (options.pptScheme.map .str)).put "ppt_serializer"
    (options.pptSerializer.map .str)).put "ppt_cipher" (options.pptCipher.map .str)).put
    "ppt_keyid" (options.pptKeyId.map .str)

end Dict

def subscriptionDetailsFromOptions : Option SubscribeOptions → Dict
  | none => .empty
  | some options =>
      ((((Dict.put .empty "match" (options.match.map .str)).put "meta_topic"
        (options.metaTopic.map .str)).put "get_retained" (options.getRetained.map .bool))).addAll
        options.custom

def registrationDetailsFromOptions : Option RegisterOptions → Dict
  | none => .empty
  | some options =>
      ((((Dict.put .empty "disclose_caller" (options.discloseCaller.map .bool)).put "match"
        (options.match.map .str)).put "invoke" (options.invoke.map .str)).put "forward_timeout"
        (options.forwardTimeout.map .bool)).addAll options.custom

/-- `_matchPolicyFromSubscribe` and `_matchPolicyFromRegisterOptions`. -/
def matchPolicyFromOption (option : Option String) : MatchPolicy :=
  if option = some "prefix" then .prefixed
  else if option = some "wildcard" then .wildcard
  else .exact

/-- `options?.verify()` of a REGISTER. -/
def RegisterOptions.verify : Option RegisterOptions → Except ArgumentError Unit
  | none => .ok ()
  | some options => (RetryDeduplication.ofDetails options.custom).map fun _ => ()

def publishOptionsToMap : Option PublishOptions → Dict
  | none => .empty
  | some options =>
      let ids (l : Option (List Int)) := l.map fun l => Value.list (l.map .int)
      let strings (l : Option (List String)) := l.map fun l => Value.list (l.map .str)
      let map := Dict.put .empty "acknowledge" (options.acknowledge.map .bool)
      let map := map.put "exclude" (ids options.exclude)
      let map := map.put "exclude_authid" (strings options.excludeAuthId)
      let map := map.put "exclude_authrole" (strings options.excludeAuthRole)
      let map := map.put "eligible" (ids options.eligible)
      let map := map.put "eligible_authid" (strings options.eligibleAuthId)
      let map := map.put "eligible_authrole" (strings options.eligibleAuthRole)
      let map := map.put "exclude_me" (options.excludeMe.map .bool)
      map.put "disclose_me" (options.discloseMe.map .bool)

/-- The details of an INVOCATION that only the router sets. -/
def routerOwnedInvocationDetailKeys : List String :=
  ["caller", "caller_authid", "caller_authrole", "authid", "authrole", "authmethod",
    "authprovider", "procedure", "progress", "receive_progress", "timeout", "disclose_me",
    "ppt_scheme", "ppt_serializer", "ppt_cipher", "ppt_keyid", "transaction_hash"]

def filteredInvocationOptionDetails (options : Dict) : Dict :=
  options.without routerOwnedInvocationDetailKeys

/-- `_callOptionsToMap`; the getter `transactionHash` throws on a malformed hash. -/
def callOptionsToMap : Option CallOptions → Except ArgumentError Dict
  | none => .ok .empty
  | some options =>
      match transactionHash options.custom with
      | .error e => .error e
      | .ok hash =>
          let map := filteredInvocationOptionDetails options.custom
          let map := map.put transactionHashWireField (hash.map .str)
          let map := map.put "progress" (options.progress.map .bool)
          let map := map.put "receive_progress" (options.receiveProgress.map .bool)
          let map := map.put "timeout" (options.timeout.map .int)
          let map := map.put "disclose_me" (options.discloseMe.map .bool)
          .ok (map.putPPT options.toPPTOptions)

/-- `options[key] as bool?`, where the options are the store's own map. -/
def Dict.bool? (d : Dict) (key : String) : Option Bool :=
  match d.at key with
  | .bool b => some b
  | _ => none

def Dict.str? (d : Dict) (key : String) : Option String :=
  match d.at key with
  | .str s => some s
  | _ => none

def Dict.int? (d : Dict) (key : String) : Option Int :=
  match d.at key with
  | .int n => some n
  | _ => none

def Dict.ppt (d : Dict) : PPTOptions where
  pptScheme := d.str? "ppt_scheme"
  pptSerializer := d.str? "ppt_serializer"
  pptCipher := d.str? "ppt_cipher"
  pptKeyId := d.str? "ppt_keyid"

/-- `_invocationDetailsForCall`. -/
def invocationDetailsForCall (dispatch : InvocationDispatchResult) (procedure : String) :
    InvocationDetails :=
  let options := dispatch.initiatingOptions
  let custom := filteredInvocationOptionDetails options
  let custom := custom.put "caller_authid" (dispatch.disclosedCallerAuthId.map .str)
  let custom := custom.put "caller_authrole" (dispatch.disclosedCallerAuthRole.map .str)
  { toPPTOptions := options.ppt
    caller := dispatch.disclosedCallerSessionId
    procedure := some procedure
    receiveProgress := options.bool? "receive_progress"
    timeout := if dispatch.timeoutForwarded then options.int? "timeout" else none
    progress :=
      if dispatch.progressiveInvocation then some dispatch.progress else options.bool? "progress"
    custom := custom }

/-- `_eventTopicForMatch`: an EVENT names its topic for the pattern subscriptions. -/
def eventTopicForMatch (subscriberDetails : Dict) (topic : String) : Option String :=
  match subscriberDetails.at "match" with
  | .str "prefix" | .str "wildcard" => some topic
  | _ => none

/-- The details of the EVENT that the worker builds for a subscriber itself. -/
def eventDetailsForMatch (options : Option PublishOptions) (publisher : Option Nat)
    (matched : SubscriptionMatch) (topic : String) : EventDetails :=
  { toPPTOptions := (options.map (·.toPPTOptions)).getD {}
    publisher := if options.any (·.discloseMe == some true) then publisher else none
    topic := eventTopicForMatch matched.details topic
    custom := (options.map (·.custom)).getD .empty }

end Connectanum
