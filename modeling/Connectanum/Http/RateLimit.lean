import Mathlib.Data.List.Induction
import Connectanum.Http.Routes

/-!
# Http — RateLimit

The rate limit of a route's action: buckets with a window each, which are dropped when they are
touched after their window or when the table is full.

The windows of a bucket are read off the times of the requests that were admitted: the first one
opens a window, and the first one after its end the next (`windows`).

* `evaluateBuckets_cases`: all that a request can do to the buckets of its action;
* `Tracks`: a kept bucket is the newest window, a dropped one is over;
* `http_route_rate_limit`: what holds of every sequence of requests.
-/

namespace Connectanum

open Collections

namespace HttpRouteRateLimit

/-! ### The limiter -/

/-- The bounds are asserted by the constructor and checked by the loader. -/
structure HttpRouteRateLimitSettings where
  maxRequests : Int := 60
  windowMs : Int := 60000
  key : String := "global"
  maxBuckets : Int := 4096
  maxRequests_pos : 0 < maxRequests := by decide
  windowMs_pos : 0 < windowMs := by decide
  maxBuckets_pos : 0 < maxBuckets := by decide

/-- `_HttpRouteRateLimitState`; times are in microseconds. -/
structure RateLimitState where
  windowStart : Int
  count : Nat
  deriving DecidableEq

/-- `_HttpRouteRateLimitDecision`: the refusal of a request. -/
structure RateLimitDecision where
  key : String
  limit : Int
  windowMs : Int
  retryAfterMs : Int
  resetAt : Int
  maxBuckets : Int
  bucketCapacityExhausted : Bool := false
  deriving DecidableEq

abbrev Buckets := LinkedMap String RateLimitState

/-- `DateTime.add(window)`. -/
def RateLimitState.end_ (s : RateLimitState) (window : Int) : Int := s.windowStart + window

/-- The earliest end of a window; the list is not empty. -/
def earliestReset (window : Int) : List RateLimitState → Int
  | [] => 0
  | first :: rest =>
      rest.foldl (fun resetAt s => if s.end_ window < resetAt then s.end_ window else resetAt)
        (first.end_ window)

/-- `retryAfter.isNegative ? 0 : retryAfter.inMilliseconds`. -/
def retryAfterMs (resetAt now : Int) : Int :=
  if resetAt - now < 0 then 0 else (resetAt - now) / 1000

/-- `_evaluateHttpRouteRateLimit`, on the buckets of the action. -/
def evaluateBuckets (settings : HttpRouteRateLimitSettings) (bucketKey : String) (now : Int)
    (buckets : Buckets) : Option RateLimitDecision × Buckets :=
  let maxRequests := if settings.maxRequests ≤ 0 then 1 else settings.maxRequests
  let windowMs := if settings.windowMs ≤ 0 then 1 else settings.windowMs
  let maxBuckets := if settings.maxBuckets ≤ 0 then 1 else settings.maxBuckets
  let window := windowMs * 1000
  let refusal (resetAt : Int) (exhausted : Bool) : RateLimitDecision :=
    { key := settings.key, limit := maxRequests, windowMs,
      retryAfterMs := retryAfterMs resetAt now, resetAt, maxBuckets,
      bucketCapacityExhausted := exhausted }
  match (buckets.get? bucketKey).filter fun s => now < s.end_ window with
  | none =>
      -- there is no such bucket, or its window is over
      let buckets := buckets.erase bucketKey
      let buckets :=
        if maxBuckets ≤ buckets.length then buckets.filter fun _ s => now < s.end_ window
        else buckets
      if maxBuckets ≤ buckets.length then
        (some (refusal (earliestReset window buckets.values) true), buckets)
      else (none, buckets.insert bucketKey ⟨now, 1⟩)
  | some s =>
      if (s.count : Int) < maxRequests then
        (none, buckets.insert bucketKey { s with count := s.count + 1 })
      else (some (refusal (s.end_ window) false), buckets)

/-! ### Bucket keys -/

structure LimitedRequest extends RouterHttpRequest where
  connectionId : Nat

/-- `_extractBearerToken`. -/
def extractBearerToken (headers : LinkedMap String String) : Option String :=
  match headerValue headers "authorization" with
  | none => none
  | some header =>
      let value := (dartTrim header).toList
      let scheme := "bearer"
      if value.length ≤ scheme.length ∨
          (String.ofList (value.take scheme.length)).toLower ≠ scheme then none
      else
        match value[scheme.length]? with
        | none => none
        | some separator =>
            if separator.toNat ≠ 0x20 ∧ separator.toNat ≠ 0x09 then none
            else
              let token := dartTrim (String.ofList (value.drop (scheme.length + 1)))
              if token.isEmpty ||
                  token.toList.any fun c => decide (c.toNat ≤ 0x20) || c.toNat == 0x7f then none
              else some token

section
variable (sha256 : String → String)

/-- `_httpRouteRateLimitScopeDigest`; `sha256` gives the digits of the digest. -/
def scopeDigest (scope value : String) : String := scope ++ ":" ++ sha256 value

/-- `_httpRouteRateLimitHeaderBucket`. -/
def headerBucket (request : LimitedRequest) (headerName : String) : String :=
  let normalized := (dartTrim headerName).toLower
  if normalized.isEmpty then "header:<missing>"
  else scopeDigest sha256 ("header:" ++ normalized)
    ((headerValue request.headers normalized).getD "<missing>")

/-- `_httpRouteRateLimitBucketKey`. -/
def bucketKey (request : LimitedRequest) (settings : HttpRouteRateLimitSettings) : String :=
  let key := (dartTrim settings.key).toLower
  if key = "connection" then "connection:" ++ toString request.connectionId
  else if key = "bearer" then
    scopeDigest sha256 "bearer" ((extractBearerToken request.headers).getD "<missing>")
  else if Text.startsWith key "header:" then
    headerBucket sha256 request (String.ofList (key.toList.drop "header:".length))
  else "global"

end

/-! ### Routes and actions -/

/-- A matched route: the identities of the configured route and of its action in effect. -/
structure MatchedRoute where
  route : Nat
  action : Nat
  deriving DecidableEq

/-- `_httpRouteRateLimitStates`, by identities. -/
abbrev RouteStates := LinkedMap Nat (LinkedMap Nat Buckets)

def RouteStates.find (states : RouteStates) (m : MatchedRoute) : Buckets :=
  (((states.get? m.route).getD .empty).get? m.action).getD .empty

def RouteStates.put (states : RouteStates) (m : MatchedRoute) (buckets : Buckets) : RouteStates :=
  states.insert m.route (((states.get? m.route).getD .empty).insert m.action buckets)

theorem RouteStates.find_put (states : RouteStates) (m m' : MatchedRoute) (buckets : Buckets) :
    (states.put m buckets).find m' = if m' = m then buckets else states.find m' := by
  obtain ⟨route, action⟩ := m
  obtain ⟨route', action'⟩ := m'
  simp only [find, put, LinkedMap.get?_insert, MatchedRoute.mk.injEq]
  by_cases hroute : route' = route
  · subst hroute
    rw [if_pos rfl, Option.getD_some, LinkedMap.get?_insert]
    by_cases haction : action' = action
    · rw [if_pos haction, if_pos ⟨rfl, haction⟩]
      rfl
    · rw [if_neg haction, if_neg fun h => haction h.2]
  · rw [if_neg hroute, if_neg fun h => hroute h.1]

/-- A request as it comes to the limiter; no route was matched if `matched` is `none`. -/
structure Hit where
  time : Int
  matched : Option MatchedRoute
  request : LimitedRequest

variable (sha256 : String → String) (rateLimit : Nat → Option HttpRouteRateLimitSettings)

/-- `_evaluateHttpRouteRateLimit`, where the actions have the limits `rateLimit`. -/
def evaluate (states : RouteStates) (hit : Hit) : Option RateLimitDecision × RouteStates :=
  match hit.matched with
  | none => (none, states)
  | some m =>
      match rateLimit m.action with
      | none => (none, states)
      | some settings =>
          let r := evaluateBuckets settings (bucketKey sha256 hit.request settings) hit.time
            (states.find m)
          (r.1, states.put m r.2)

/-- The table, and the requests with what became of them. -/
structure Served where
  states : RouteStates := .empty
  log : List (Hit × Option RateLimitDecision) := []

def serve (s : Served) (hit : Hit) : Served :=
  let r := evaluate sha256 rateLimit s.states hit
  ⟨r.2, s.log ++ [(hit, r.1)]⟩

def run (hits : List Hit) : Served := hits.foldl (serve sha256 rateLimit) {}

/-- The clock does not go back. -/
def OnTime (hits : List Hit) : Prop := (hits.map (·.time)).Pairwise (· ≤ ·)

instance (hits : List Hit) : Decidable (OnTime hits) :=
  inferInstanceAs (Decidable (List.Pairwise _ _))

/-! ### Windows -/

structure Window where
  start : Int
  count : Nat
  deriving DecidableEq

/-- What an admitted request makes of the windows so far, the newest first. -/
def admitted (window : Int) : List Window → Int → List Window
  | [], time => [⟨time, 1⟩]
  | newest :: older, time =>
      if time < newest.start + window then ⟨newest.start, newest.count + 1⟩ :: older
      else ⟨time, 1⟩ :: newest :: older

/-- The windows that the times of the admitted requests make, the newest first. -/
def windows (window : Int) (times : List Int) : List Window := times.foldl (admitted window) []

/-- Whether the newest window is open. -/
def Open (window now : Int) (ws : List Window) : Prop :=
  ∃ w, ws.head? = some w ∧ now < w.start + window

@[simp]
theorem windows_append (window : Int) (times : List Int) (time : Int) :
    windows window (times ++ [time]) = admitted window (windows window times) time := by
  simp [windows]

/-! ### The buckets that are dropped -/

/-- `settings.windowMs`, in microseconds. -/
def HttpRouteRateLimitSettings.window (settings : HttpRouteRateLimitSettings) : Int :=
  settings.windowMs * 1000

/-- Of the buckets are kept all but some whose window is over. -/
structure Thinned (window now : Int) (buckets kept : Buckets) : Prop where
  same : ∀ k s, kept.get? k = some s → buckets.get? k = some s
  dropped : ∀ k s, buckets.get? k = some s → kept.get? k = none → s.end_ window ≤ now
  length_le : kept.length ≤ buckets.length
  length_lt : ∀ k s, buckets.get? k = some s → kept.get? k = none → kept.length < buckets.length

section
variable {window now : Int} {buckets kept kept' : Buckets}

theorem Thinned.trans (h : Thinned window now buckets kept) (h' : Thinned window now kept kept') :
    Thinned window now buckets kept' where
  same k s hk := h.same k s (h'.same k s hk)
  dropped k s hk hnone := by
    cases hmiddle : kept.get? k with
    | none => exact h.dropped k s hk hmiddle
    | some t =>
        obtain rfl := Option.some.inj ((h.same k t hmiddle).symm.trans hk)
        exact h'.dropped k t hmiddle hnone
  length_le := Nat.le_trans h'.length_le h.length_le
  length_lt k s hk hnone := by
    cases hmiddle : kept.get? k with
    | none => exact Nat.lt_of_le_of_lt h'.length_le (h.length_lt k s hk hmiddle)
    | some t => exact Nat.lt_of_lt_of_le (h'.length_lt k t hmiddle hnone) h.length_le

/-- A bucket that is touched after its window. -/
theorem thinned_erase {key : String} (h : ∀ s, buckets.get? key = some s → s.end_ window ≤ now) :
    Thinned window now buckets (buckets.erase key) where
  same k s hk := by
    rw [LinkedMap.get?_erase] at hk
    split at hk
    · cases hk
    · exact hk
  dropped k s hk hnone := by
    rw [LinkedMap.get?_erase] at hnone
    split at hnone
    · next hkey => exact h s (hkey ▸ hk)
    · rw [hk] at hnone
      cases hnone
  length_le := LinkedMap.length_erase_le _ _
  length_lt k s hk hnone := by
    rw [LinkedMap.get?_erase] at hnone
    split at hnone
    · next hkey =>
      have hlength := LinkedMap.length_erase buckets (hkey ▸ hk)
      omega
    · rw [hk] at hnone
      cases hnone

/-- The sweep of a full table. -/
theorem thinned_filter (buckets : Buckets) :
    Thinned window now buckets (buckets.filter fun _ s => now < s.end_ window) where
  same k s hk := by
    rw [LinkedMap.get?_filter] at hk
    exact (Option.filter_eq_some_iff.mp hk).1
  dropped k s hk hnone := by
    rw [LinkedMap.get?_filter, hk, Option.filter_eq_none_iff] at hnone
    have hlive := hnone s rfl
    simpa using hlive
  length_le := LinkedMap.length_filter_le _ _
  length_lt k s hk hnone := by
    rw [LinkedMap.get?_filter, hk, Option.filter_eq_none_iff] at hnone
    exact List.length_filter_lt_length_iff_exists.mpr
      ⟨(k, s), LinkedMap.mem_entries.mpr hk, by simpa using hnone s rfl⟩

theorem earliestReset_mem (window : Int) (first : RateLimitState) (rest : List RateLimitState) :
    ∃ s ∈ first :: rest, earliestReset window (first :: rest) = s.end_ window := by
  rw [earliestReset]
  induction rest using List.reverseRecOn with
  | nil => exact ⟨first, List.mem_singleton_self _, rfl⟩
  | append_singleton rest s ih =>
      rw [List.foldl_append]
      obtain ⟨r, hr, he⟩ := ih
      rw [he]
      change ∃ t ∈ _, (if s.end_ window < r.end_ window then _ else _) = _
      split
      · exact ⟨s, by simp, rfl⟩
      · rcases List.mem_cons.mp hr with rfl | hr
        · exact ⟨r, List.mem_cons_self, rfl⟩
        · exact ⟨r, List.mem_cons_of_mem _ (List.mem_append_left _ hr), rfl⟩

/-- The announced reset is the end of some bucket's window. -/
theorem exists_earliestReset (h : 0 < kept.length) :
    ∃ k s, kept.get? k = some s ∧ earliestReset window kept.values = s.end_ window := by
  cases hvalues : kept.values with
  | nil =>
      have hlength := congrArg List.length hvalues
      rw [LinkedMap.values, List.length_map] at hlength
      exact absurd hlength (Nat.ne_of_gt h)
  | cons first rest =>
      obtain ⟨s, hs, hreset⟩ := earliestReset_mem window first rest
      obtain ⟨k, hk⟩ := LinkedMap.mem_values.mp (hvalues ▸ hs)
      exact ⟨k, s, hk, hreset⟩

end

/-! ### What a request does to the buckets -/

/-- All that can become of a request, and of the buckets of its action. -/
inductive Evaluated (settings : HttpRouteRateLimitSettings) (key : String) (now : Int)
    (buckets : Buckets) : Option RateLimitDecision × Buckets → Prop where
  | counted (s : RateLimitState) (hs : buckets.get? key = some s)
      (hopen : now < s.end_ settings.window) (hroom : (s.count : Int) < settings.maxRequests) :
      Evaluated settings key now buckets
        (none, buckets.insert key { s with count := s.count + 1 })
  | exhausted (s : RateLimitState) (hs : buckets.get? key = some s)
      (hopen : now < s.end_ settings.window) (hfull : settings.maxRequests ≤ s.count)
      (d : RateLimitDecision) (hreset : d.resetAt = s.end_ settings.window) :
      Evaluated settings key now buckets (some d, buckets)
  | opened (kept : Buckets) (hkept : Thinned settings.window now buckets kept)
      (hown : kept.get? key = none) (hroom : (kept.length : Int) < settings.maxBuckets) :
      Evaluated settings key now buckets (none, kept.insert key ⟨now, 1⟩)
  | crowded (kept : Buckets) (hkept : Thinned settings.window now buckets kept)
      (hown : kept.get? key = none) (hfull : settings.maxBuckets ≤ kept.length)
      (hopen : ∀ k s, kept.get? k = some s → now < s.end_ settings.window)
      (d : RateLimitDecision)
      (hreset : ∃ k s, kept.get? k = some s ∧ d.resetAt = s.end_ settings.window) :
      Evaluated settings key now buckets (some d, kept)

theorem evaluateBuckets_cases (settings : HttpRouteRateLimitSettings) (key : String) (now : Int)
    (buckets : Buckets) :
    Evaluated settings key now buckets (evaluateBuckets settings key now buckets) := by
  -- The bounds are positive, so that the code takes them as they are.
  have hrequests := Int.not_le.mpr settings.maxRequests_pos
  have hwindow := Int.not_le.mpr settings.windowMs_pos
  have hbuckets := Int.not_le.mpr settings.maxBuckets_pos
  simp only [evaluateBuckets, if_neg hrequests, if_neg hwindow, if_neg hbuckets]
  change Evaluated settings key now buckets
    (match (buckets.get? key).filter fun s => now < s.end_ settings.window with
      | none => _
      | some s => _)
  cases hstate : (buckets.get? key).filter fun s => now < s.end_ settings.window with
  | some s =>
      obtain ⟨hs, hopen⟩ := Option.filter_eq_some_iff.mp hstate
      simp only [decide_eq_true_eq] at hopen
      dsimp only
      split
      · next hroom => exact .counted s hs hopen hroom
      · next hroom => exact .exhausted s hs hopen (Int.not_lt.mp hroom) _ rfl
  | none =>
      have herase : Thinned settings.window now buckets (buckets.erase key) := by
        refine thinned_erase fun s hs => ?_
        rw [hs, Option.filter_eq_none_iff] at hstate
        simpa using hstate s rfl
      have hown := buckets.get?_erase_self key
      dsimp only
      by_cases hfull : settings.maxBuckets ≤ (buckets.erase key).length
      · rw [if_pos hfull]
        have hkept := herase.trans (thinned_filter (buckets.erase key))
        have hown' : ((buckets.erase key).filter fun _ s =>
            now < s.end_ settings.window).get? key = none := by
          rw [LinkedMap.get?_filter, hown]
          rfl
        split
        · next hfull' =>
          refine .crowded _ hkept hown' hfull' (fun k s hk => ?_) _ ?_
          · rw [LinkedMap.get?_filter] at hk
            simpa using (Option.filter_eq_some_iff.mp hk).2
          · have hpos := Int.lt_of_lt_of_le settings.maxBuckets_pos hfull'
            exact exists_earliestReset (Int.natCast_pos.mp hpos)
        · next hroom => exact .opened _ hkept hown' (Int.not_le.mp hroom)
      · rw [if_neg hfull, if_neg hfull]
        exact .opened _ herase hown (Int.not_le.mp hfull)

/-! ### Buckets and windows -/

/-- At `clock`, the buckets of an action against the windows of their keys. -/
structure Tracks (settings : HttpRouteRateLimitSettings) (ws : String → List Window)
    (buckets : Buckets) (clock : Int) : Prop where
  /-- A bucket is the newest window of its key. -/
  newest : ∀ k s, buckets.get? k = some s → (ws k).head? = some ⟨s.windowStart, s.count⟩
  /-- Without a bucket, the newest window is over. -/
  finished : ∀ k w, buckets.get? k = none → (ws k).head? = some w → w.start + settings.window ≤ clock
  bounded : ∀ k, ∀ w ∈ ws k, (w.count : Int) ≤ settings.maxRequests
  room : (buckets.length : Int) ≤ settings.maxBuckets

section
variable {settings : HttpRouteRateLimitSettings} {ws : String → List Window} {key : String}
  {buckets kept : Buckets} {clock now : Int}

theorem tracks_empty (clock : Int) : Tracks settings (fun _ => []) .empty clock where
  newest k s h := nomatch h
  finished k w _ h := nomatch h
  bounded k w h := nomatch h
  room := Int.le_of_lt settings.maxBuckets_pos

theorem Tracks.later (h : Tracks settings ws buckets clock) (hclock : clock ≤ now) :
    Tracks settings ws buckets now where
  newest := h.newest
  finished k w hk hw := Int.le_trans (h.finished k w hk hw) hclock
  bounded := h.bounded
  room := h.room

/-- What is dropped is over. -/
theorem Tracks.thinned (h : Tracks settings ws buckets now)
    (hkept : Thinned settings.window now buckets kept) : Tracks settings ws kept now where
  newest k s hk := h.newest k s (hkept.same k s hk)
  finished k w hk hw := by
    cases hb : buckets.get? k with
    | none => exact h.finished k w hb hw
    | some s =>
        obtain rfl := Option.some.inj ((h.newest k s hb).symm.trans hw)
        exact hkept.dropped k s hb hk
  bounded := h.bounded
  room := Int.le_trans (Int.ofNat_le.mpr hkept.length_le) h.room

/-- The windows of `key` with one more admitted request. -/
def noteAdmitted (settings : HttpRouteRateLimitSettings) (ws : String → List Window)
    (key : String) (now : Int) (k : String) : List Window :=
  if k = key then admitted settings.window (ws k) now else ws k

/-- An admitted request is written in the bucket of its key. -/
theorem Tracks.note (h : Tracks settings ws kept now) {s : RateLimitState} {older : List Window}
    (hnoted : admitted settings.window (ws key) now = ⟨s.windowStart, s.count⟩ :: older)
    (holder : ∀ w ∈ older, w ∈ ws key) (hcount : (s.count : Int) ≤ settings.maxRequests)
    (hroom : ((kept.insert key s).length : Int) ≤ settings.maxBuckets) :
    Tracks settings (noteAdmitted settings ws key now) (kept.insert key s) now := by
  have hown : noteAdmitted settings ws key now key = ⟨s.windowStart, s.count⟩ :: older := by
    rw [noteAdmitted, if_pos rfl, hnoted]
  have hother : ∀ k, k ≠ key → noteAdmitted settings ws key now k = ws k := fun k hk => if_neg hk
  refine ⟨fun k t hk => ?_, fun k w hk hw => ?_, fun k w hw => ?_, hroom⟩
  · rw [LinkedMap.get?_insert] at hk
    split at hk
    · next hkey =>
      obtain rfl := Option.some.inj hk
      rw [hkey, hown]
      rfl
    · next hkey =>
      rw [hother k hkey]
      exact h.newest k t hk
  · rw [LinkedMap.get?_insert] at hk
    split at hk
    · cases hk
    · next hkey =>
      rw [hother k hkey] at hw
      exact h.finished k w hk hw
  · by_cases hkey : k = key
    · rw [hkey, hown] at hw
      rcases List.mem_cons.mp hw with rfl | hw
      · exact hcount
      · exact h.bounded key w (holder w hw)
    · rw [hother k hkey] at hw
      exact h.bounded k w hw

/-- The newest window is open, so that the request is counted in it. -/
theorem Tracks.counted (h : Tracks settings ws buckets now) {s : RateLimitState}
    (hs : buckets.get? key = some s) (hopen : now < s.end_ settings.window)
    (hroom : (s.count : Int) < settings.maxRequests) :
    Tracks settings (noteAdmitted settings ws key now)
      (buckets.insert key { s with count := s.count + 1 }) now := by
  obtain ⟨older, hws⟩ := List.head?_eq_some_iff.mp (h.newest key s hs)
  have hnoted : admitted settings.window (ws key) now =
      ⟨s.windowStart, s.count + 1⟩ :: older := by
    rw [hws, admitted]
    exact if_pos hopen
  refine h.note hnoted (fun w hw => ?_) (Int.add_one_le_of_lt hroom) ?_
  · rw [hws]
    exact List.mem_cons_of_mem _ hw
  · rw [LinkedMap.length_insert_of_some buckets hs]
    exact h.room

/-- The newest window is over, so that the request opens the next one. -/
theorem Tracks.opened (h : Tracks settings ws kept now) (hown : kept.get? key = none)
    (hroom : (kept.length : Int) < settings.maxBuckets) :
    Tracks settings (noteAdmitted settings ws key now) (kept.insert key ⟨now, 1⟩) now := by
  have hnoted : admitted settings.window (ws key) now = ⟨now, 1⟩ :: ws key := by
    cases hws : ws key with
    | nil => rfl
    | cons newest older =>
        have hover := h.finished key newest hown (by rw [hws]; rfl)
        rw [admitted, if_neg (Int.not_lt.mpr hover)]
  refine h.note hnoted (fun w hw => hw) (Int.add_one_le_of_lt settings.maxRequests_pos) ?_
  rw [LinkedMap.length_insert kept _ hown]
  exact Int.add_one_le_of_lt hroom

/-- **A request** keeps the buckets on track. -/
theorem Tracks.evaluated (h : Tracks settings ws buckets now) {r : Option RateLimitDecision × Buckets}
    (hr : Evaluated settings key now buckets r) :
    Tracks settings (if r.1 = none then noteAdmitted settings ws key now else ws) r.2 now := by
  cases hr with
  | counted s hs hopen hroom => exact h.counted hs hopen hroom
  | exhausted s hs hopen hfull d hreset => exact h
  | opened kept hkept hown hroom => exact (h.thinned hkept).opened hown hroom
  | crowded kept hkept hown hfull hopen d hreset => exact h.thinned hkept

/-- The newest window of the key is open, and has no more room. -/
def Exhausted (settings : HttpRouteRateLimitSettings) (ws : List Window) (now : Int) : Prop :=
  ∃ w, ws.head? = some w ∧ now < w.start + settings.window ∧ (w.count : Int) = settings.maxRequests

/-- As many other keys as there may be buckets have an open window. -/
def Crowded (settings : HttpRouteRateLimitSettings) (ws : String → List Window) (key : String)
    (now : Int) : Prop :=
  ∃ others : List String, others.Nodup ∧ (others.length : Int) = settings.maxBuckets ∧
    key ∉ others ∧ ∀ k ∈ others, Open settings.window now (ws k)

/-- **Why a request is refused.** -/
theorem Tracks.refused (h : Tracks settings ws buckets now) {d : RateLimitDecision}
    (hr : Evaluated settings key now buckets (some d, kept)) :
    Exhausted settings (ws key) now ∨ Crowded settings ws key now := by
  cases hr with
  | exhausted s hs hopen hfull _ hreset =>
      have hnewest := h.newest key s hs
      have hbounded := h.bounded key _ (List.mem_of_head? hnewest)
      exact .inl ⟨_, hnewest, hopen, Int.le_antisymm hbounded hfull⟩
  | crowded _ hkept hown hfull hopen _ hreset =>
      have hthinned := h.thinned hkept
      refine .inr ⟨kept.keys, kept.nodup, ?_, fun hmem => ?_, fun k hk => ?_⟩
      · rw [LinkedMap.keys, List.length_map]
        exact Int.le_antisymm hthinned.room hfull
      · obtain ⟨s, hs⟩ := LinkedMap.mem_keys.mp hmem
        rw [hown] at hs
        cases hs
      · obtain ⟨s, hs⟩ := LinkedMap.mem_keys.mp hk
        exact ⟨_, hthinned.newest k s hs, hopen k s hs⟩

/-- **At the reset** that a refusal announces, the bucket that stood in the way goes. -/
theorem admitted_at_reset (hroom : (buckets.length : Int) ≤ settings.maxBuckets)
    {d : RateLimitDecision} (hr : Evaluated settings key now buckets (some d, kept)) :
    (evaluateBuckets settings key d.resetAt kept).1 = none := by
  have hagain := evaluateBuckets_cases settings key d.resetAt kept
  generalize evaluateBuckets settings key d.resetAt kept = r at hagain ⊢
  cases hr with
  | exhausted s hs hopen hfull _ hreset =>
      cases hagain with
      | counted => rfl
      | opened => rfl
      | exhausted t ht hopen' =>
          obtain rfl := Option.some.inj (hs.symm.trans ht)
          exact absurd hopen' (Int.not_lt.mpr (Int.le_of_eq hreset.symm))
      | crowded kept' hkept' hown' hfull' =>
          have hlength := hkept'.length_lt key s hs hown'
          omega
  | crowded _ hkept hown hfull hopen _ hreset =>
      cases hagain with
      | counted => rfl
      | opened => rfl
      | exhausted t ht =>
          rw [hown] at ht
          cases ht
      | crowded kept' hkept' hown' hfull' hopen' =>
          obtain ⟨k, s, hs, hreset⟩ := hreset
          -- The bucket whose end was announced is gone.
          have hgone : kept'.get? k = none := by
            cases hk : kept'.get? k with
            | none => rfl
            | some t =>
                obtain rfl := Option.some.inj ((hkept'.same k t hk).symm.trans hs)
                exact absurd (hopen' k t hk) (Int.not_lt.mpr (Int.le_of_eq hreset.symm))
          have hlength := hkept'.length_lt k s hs hgone
          have hlength' := hkept.length_le
          omega

end

/-! ### Sequences of requests -/

section
variable {sha256 : String → String} {rateLimit : Nat → Option HttpRouteRateLimitSettings}
  {settings : HttpRouteRateLimitSettings} {m : MatchedRoute} {hit : Hit} {hits : List Hit}

theorem evaluate_matched (hm : hit.matched = some m) (hs : rateLimit m.action = some settings)
    (states : RouteStates) :
    evaluate sha256 rateLimit states hit =
      ((evaluateBuckets settings (bucketKey sha256 hit.request settings) hit.time
          (states.find m)).1,
        states.put m (evaluateBuckets settings (bucketKey sha256 hit.request settings) hit.time
          (states.find m)).2) := by
  simp only [evaluate, hm, hs]

theorem evaluate_other (hm : hit.matched ≠ some m) (states : RouteStates) :
    (evaluate sha256 rateLimit states hit).2.find m = states.find m := by
  rw [evaluate]
  cases hmatched : hit.matched with
  | none => rfl
  | some m' =>
      have hne : m ≠ m' := fun h => hm (h ▸ hmatched)
      dsimp only
      cases rateLimit m'.action with
      | none => rfl
      | some settings' => exact (RouteStates.find_put states m' m _).trans (if_neg hne)

variable (sha256 settings m) in
/-- When the requests of a bucket were admitted. -/
def bucketTimes (log : List (Hit × Option RateLimitDecision)) (key : String) : List Int :=
  (log.filter fun e => decide (e.2 = none) && decide (e.1.matched = some m) &&
    bucketKey sha256 e.1.request settings == key).map (·.1.time)

variable (sha256 settings m) in
def bucketWindows (log : List (Hit × Option RateLimitDecision)) (key : String) : List Window :=
  windows settings.window (bucketTimes sha256 settings m log key)

theorem bucketWindows_matched (hm : hit.matched = some m)
    (log : List (Hit × Option RateLimitDecision)) (answer : Option RateLimitDecision) :
    bucketWindows sha256 settings m (log ++ [(hit, answer)]) =
      if answer = none then
        noteAdmitted settings (bucketWindows sha256 settings m log)
          (bucketKey sha256 hit.request settings) hit.time
      else bucketWindows sha256 settings m log := by
  funext key
  rw [bucketWindows, bucketTimes, List.filter_append, List.map_append]
  cases answer with
  | some d => simp [bucketWindows, bucketTimes]
  | none =>
      rw [if_pos rfl, noteAdmitted]
      by_cases hkey : key = bucketKey sha256 hit.request settings
      · rw [if_pos hkey, hkey]
        simp [hm, bucketWindows, bucketTimes]
      · rw [if_neg hkey]
        simp [Ne.symm hkey, bucketWindows, bucketTimes]

theorem bucketWindows_other (hm : hit.matched ≠ some m)
    (log : List (Hit × Option RateLimitDecision)) (answer : Option RateLimitDecision) :
    bucketWindows sha256 settings m (log ++ [(hit, answer)]) =
      bucketWindows sha256 settings m log := by
  funext key
  simp [bucketWindows, bucketTimes, hm]

theorem run_snoc (hits : List Hit) (hit : Hit) :
    run sha256 rateLimit (hits ++ [hit]) = serve sha256 rateLimit (run sha256 rateLimit hits) hit := by
  rw [run, List.foldl_append]
  rfl

theorem OnTime.snoc (h : OnTime (hits ++ [hit])) :
    OnTime hits ∧ ∀ earlier ∈ hits, earlier.time ≤ hit.time := by
  rw [OnTime, List.map_append, List.pairwise_append] at h
  exact ⟨h.1, fun earlier he => h.2.2 _ (List.mem_map_of_mem he) _ (List.mem_singleton_self _)⟩

/-- **Every sequence of requests** leaves the buckets of an action on track. -/
theorem tracks_run (hs : rateLimit m.action = some settings) (hon : OnTime hits) {clock : Int}
    (hclock : ∀ hit ∈ hits, hit.time ≤ clock) :
    Tracks settings (bucketWindows sha256 settings m (run sha256 rateLimit hits).log)
      ((run sha256 rateLimit hits).states.find m) clock := by
  induction hits using List.reverseRecOn generalizing clock with
  | nil => exact tracks_empty clock
  | append_singleton hits hit ih =>
      obtain ⟨hon, hle⟩ := hon.snoc
      have htracks := ih hon hle
      have hnow : hit.time ≤ clock := hclock hit (by simp)
      refine Tracks.later ?_ hnow
      rw [run_snoc, serve]
      by_cases hm : hit.matched = some m
      · rw [bucketWindows_matched hm, evaluate_matched hm hs]
        dsimp only
        rw [RouteStates.find_put, if_pos rfl]
        exact htracks.evaluated (evaluateBuckets_cases _ _ _ _)
      · rw [bucketWindows_other hm]
        dsimp only
        rw [evaluate_other hm]
        exact htracks

/-- Requests of other actions leave the buckets alone. -/
theorem find_run_others {between : List Hit} (h : ∀ other ∈ between, other.matched ≠ some m) :
    (run sha256 rateLimit (hits ++ between)).states.find m =
      (run sha256 rateLimit hits).states.find m := by
  induction between using List.reverseRecOn with
  | nil => rw [List.append_nil]
  | append_singleton between other ih =>
      rw [← List.append_assoc, run_snoc, serve]
      dsimp only
      rw [evaluate_other (h other (by simp))]
      exact ih fun other' ho => h other' (List.mem_append_left _ ho)

variable (sha256 rateLimit) in
/-- What becomes of a request after others. -/
def answer (hits : List Hit) (hit : Hit) : Option RateLimitDecision :=
  (evaluate sha256 rateLimit (run sha256 rateLimit hits).states hit).1

/-- A refusal, and what it leaves of the buckets. -/
theorem evaluated_of_refused (hs : rateLimit m.action = some settings) (hm : hit.matched = some m)
    {d : RateLimitDecision} (hd : answer sha256 rateLimit hits hit = some d) :
    Evaluated settings (bucketKey sha256 hit.request settings) hit.time
      ((run sha256 rateLimit hits).states.find m)
      (some d, (run sha256 rateLimit (hits ++ [hit])).states.find m) := by
  rw [answer, evaluate_matched hm hs] at hd
  rw [run_snoc, serve]
  dsimp only
  rw [evaluate_matched hm hs, RouteStates.find_put, if_pos rfl, ← hd]
  exact evaluateBuckets_cases _ _ _ _

/-- **The rate limit.**  For every action with a limit and every sequence of requests under a clock
that does not go back: no window of a bucket has more than `maxRequests` admitted requests, there are
at most `maxBuckets` buckets, a request is refused only if its own bucket is exhausted or `maxBuckets`
others are live, and at the reset that a refusal announces the bucket's next request is admitted, if
no other request of the action came between. -/
theorem http_route_rate_limit (sha256 : String → String)
    (rateLimit : Nat → Option HttpRouteRateLimitSettings) (m : MatchedRoute)
    (settings : HttpRouteRateLimitSettings) (hs : rateLimit m.action = some settings) :
    (∀ hits, OnTime hits →
      (∀ key, ∀ w ∈ bucketWindows sha256 settings m (run sha256 rateLimit hits).log key,
        (w.count : Int) ≤ settings.maxRequests) ∧
      (((run sha256 rateLimit hits).states.find m).length : Int) ≤ settings.maxBuckets) ∧
    (∀ hits hit d, OnTime (hits ++ [hit]) → hit.matched = some m →
      answer sha256 rateLimit hits hit = some d →
      Exhausted settings (bucketWindows sha256 settings m (run sha256 rateLimit hits).log
          (bucketKey sha256 hit.request settings)) hit.time ∨
        Crowded settings (bucketWindows sha256 settings m (run sha256 rateLimit hits).log)
          (bucketKey sha256 hit.request settings) hit.time) ∧
    ∀ hits hit d between hit', OnTime (hits ++ hit :: (between ++ [hit'])) →
      hit.matched = some m → hit'.matched = some m →
      bucketKey sha256 hit'.request settings = bucketKey sha256 hit.request settings →
      (∀ other ∈ between, other.matched ≠ some m) →
      answer sha256 rateLimit hits hit = some d → hit'.time = d.resetAt →
      answer sha256 rateLimit (hits ++ hit :: between) hit' = none := by
  refine ⟨fun hits hon => ?_, fun hits hit d hon hm hd => ?_,
    fun hits hit d between hit' hon hm hm' hkey hothers hd hreset => ?_⟩
  · obtain ⟨clock, hclock⟩ : ∃ clock, ∀ hit ∈ hits, hit.time ≤ clock := by
      cases hits using List.reverseRecOn with
      | nil => exact ⟨0, fun hit h => nomatch h⟩
      | append_singleton hits last =>
          refine ⟨last.time, fun hit h => ?_⟩
          rcases List.mem_append.mp h with h | h
          · exact hon.snoc.2 hit h
          · exact Int.le_of_eq (congrArg Hit.time (List.mem_singleton.mp h))
    have htracks : Tracks settings (bucketWindows sha256 settings m (run sha256 rateLimit hits).log)
        ((run sha256 rateLimit hits).states.find m) clock := tracks_run hs hon hclock
    exact ⟨htracks.bounded, htracks.room⟩
  · obtain ⟨hon, hle⟩ := hon.snoc
    exact (tracks_run hs hon hle).refused (evaluated_of_refused hs hm hd)
  · have hprefix : OnTime (hits ++ [hit]) := by
      have hsublist : (hits ++ [hit]).Sublist (hits ++ hit :: (between ++ [hit'])) :=
        (List.singleton_sublist.mpr List.mem_cons_self).append_left hits
      exact List.Pairwise.sublist (hsublist.map _) hon
    obtain ⟨hon', hle⟩ := hprefix.snoc
    have htracks : Tracks settings (bucketWindows sha256 settings m (run sha256 rateLimit hits).log)
        ((run sha256 rateLimit hits).states.find m) hit.time := tracks_run hs hon' hle
    have hroom := htracks.room
    have hadmitted := admitted_at_reset hroom (evaluated_of_refused hs hm hd)
    rw [answer, evaluate_matched hm' hs, hkey, hreset, List.append_cons, find_run_others hothers]
    exact hadmitted

/-- One request a second from each connection, and no more than one connection. -/
def sampleLimit : HttpRouteRateLimitSettings :=
  { maxRequests := 1, windowMs := 1000, key := "connection", maxBuckets := 1 }

def sampleHit (time : Int) (connectionId : Nat) : Hit :=
  ⟨time, some ⟨0, 0⟩,
    { path := "/", method := "GET", protocol := "http", connectionId := connectionId }⟩

/-- The second connection finds the table full, and is admitted when the first one's window ends. -/
theorem second_connection_admitted :
    answer id (fun _ => some sampleLimit) ([sampleHit 0 1] ++ sampleHit 5 2 :: [])
      (sampleHit 1000000 2) = none :=
  (http_route_rate_limit id (fun _ => some sampleLimit) ⟨0, 0⟩ sampleLimit rfl).2.2
    [sampleHit 0 1] (sampleHit 5 2) _ [] (sampleHit 1000000 2) (by decide) rfl rfl rfl
    (fun _ h => nomatch h)
    (show answer id (fun _ => some sampleLimit) [sampleHit 0 1] (sampleHit 5 2) =
      some ⟨"connection", 1, 1000, 999, 1000000, 1, true⟩ by decide +kernel)
    rfl

end

end HttpRouteRateLimit

end Connectanum
