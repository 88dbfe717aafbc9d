import Ajenda.ClockReadings
import Ajenda.FiniteTable
import Ajenda.FixedWindows
import Ajenda.TransitionSystem
import Mathlib.Data.Rat.Floor

/-!
# The rate limiter

`RateLimiter` with its buckets, its policies and `_resolve_policy`, and runs of `evaluate` and
`evaluate_with_policy`. The clock reads doubles, and what is computed from them is rounded. A trace
keeps the decisions beside the buckets.
-/
namespace Ajenda.RateLimit
open ClockReadings DoubleRounding FiniteTable FixedWindows JsonValue TransitionSystem

section Limiter

structure RateLimitKey where
  tenantId : String
  principalId : String
  route : String
  deriving DecidableEq

structure RateLimitDecision where
  allowed : Bool
  remaining : ℕ
  retryAfterSeconds : Option ℤ
  deriving DecidableEq

/-- Limits that are not positive raise a `ValueError`. -/
structure RoutePolicy where
  maxRequests : ℕ
  windowSeconds : ℕ
  max_pos : 0 < maxRequests
  window_pos : 0 < windowSeconds
  deriving DecidableEq

/-- The limits and the route policies, a dictionary. -/
structure RateLimiter where
  limits : RoutePolicy
  routePolicies : List (String × RoutePolicy)
  keys : (routePolicies.map (·.1)).Nodup

/-- `route.startswith(prefix)`. -/
def startsWith (route start : String) : Bool := start.toList.isPrefixOf route.toList

/-- The route policies as `__init__` sorts them: longer prefixes first. -/
def RateLimiter.sortedPolicies (limiter : RateLimiter) : List (String × RoutePolicy) :=
  limiter.routePolicies.insertionSort fun a b => b.1.length ≤ a.1.length

/-- The limits of the first of these prefixes that matches, or the global ones. -/
def RateLimiter.longest (limiter : RateLimiter) (matching : String → Bool) : RoutePolicy :=
  match limiter.sortedPolicies.find? fun p => matching p.1 with
  | some p => p.2
  | none => limiter.limits

/-- `_resolve_policy`. -/
def RateLimiter.resolvePolicy (limiter : RateLimiter) (route : String) : RoutePolicy :=
  limiter.longest fun start =>
    route = start || startsWith route (start ++ "/") || startsWith route start

/-- `int(x)`. -/
def truncate (x : ℚ) : ℤ := if 0 ≤ x then ⌊x⌋ else ⌈x⌉

abbrev Bucket := RateLimitKey × ℕ × ℕ

/-- For each bucket its count and the start of its window. -/
abbrev Buckets := Table Bucket (ℕ × Reading)

def bucketOf (key : RateLimitKey) (limits : RoutePolicy) : Bucket :=
  (key, limits.maxRequests, limits.windowSeconds)

/-- `now - window_start >= window_seconds`. -/
def RoutePolicy.ended (limits : RoutePolicy) (start now : Reading) : Bool :=
  atLeast (now.since start) limits.windowSeconds

/-- The count and the start of the window at a time, after a reset. -/
def Buckets.current (buckets : Buckets) (key : RateLimitKey) (limits : RoutePolicy)
    (now : Reading) : ℕ × Reading :=
  let entry := (buckets.get (bucketOf key limits)).getD (0, now)
  if limits.ended entry.2 now then (0, now) else entry

/-- `window_seconds - (now - window_start)`. -/
def RoutePolicy.left (limits : RoutePolicy) (start now : Reading) : Option ℚ :=
  -- an integer too large for a float, and an infinite difference, raise an `OverflowError`
  match toDouble limits.windowSeconds, now.since start with
  | .finite window, .finite elapsed =>
    match toDouble (window - elapsed) with
    | .finite left => some left
    | _ => none
  | _, _ => none

/-- `evaluate_with_policy`; no decision when it raises. -/
def Buckets.evaluateWithPolicy (buckets : Buckets) (key : RateLimitKey) (limits : RoutePolicy)
    (now : Reading) : Option RateLimitDecision × Buckets :=
  let entry := buckets.current key limits now
  if limits.maxRequests ≤ entry.1 then
    ((limits.left entry.2 now).map fun left => ⟨false, 0, some (max 1 (truncate left))⟩, buckets)
  else
    (some ⟨true, limits.maxRequests - (entry.1 + 1), none⟩,
      buckets.put (bucketOf key limits) (entry.1 + 1, entry.2))

end Limiter

section Runs

/-- A call of `evaluate_with_policy`, or of `evaluate` when it comes without limits. -/
structure Request where
  now : Reading
  key : RateLimitKey
  explicit : Option RoutePolicy

variable (limiter : RateLimiter)

def RateLimiter.limitsOf (request : Request) : RoutePolicy :=
  request.explicit.getD (limiter.resolvePolicy request.key.route)

def RateLimiter.bucket (request : Request) : Bucket :=
  bucketOf request.key (limiter.limitsOf request)

def RateLimiter.evaluate (buckets : Buckets) (request : Request) :
    Option RateLimitDecision × Buckets :=
  buckets.evaluateWithPolicy request.key (limiter.limitsOf request) request.now

/-- The buckets, and the requests with their decisions. -/
structure Trace where
  buckets : Buckets
  log : List (Request × Option RateLimitDecision)

def Trace.empty : Trace := ⟨∅, []⟩

def RateLimiter.step (trace : Trace) (request : Request) : Trace :=
  let answer := limiter.evaluate trace.buckets request
  ⟨answer.2, trace.log ++ [(request, answer.1)]⟩

def RateLimiter.run (requests : List Request) : Trace := exec limiter.step .empty requests

/-- The decision on a request after others. -/
def RateLimiter.decide (requests : List Request) (request : Request) : Option RateLimitDecision :=
  (limiter.evaluate (limiter.run requests).buckets request).1

/-- The times of the allowed requests of a bucket. -/
def RateLimiter.granted (requests : List Request) (bucket : Bucket) : List ℚ :=
  ((limiter.run requests).log.filter fun e =>
    e.2.any (·.allowed) ∧ limiter.bucket e.1 = bucket).map (·.1.now.seconds)

end Runs

section Law
variable (limiter : RateLimiter)

/-- The prefix ends where a segment of the route ends. -/
def OnBoundary (route start : String) : Prop :=
  startsWith route start = true ∧
    (route = start ∨ startsWith route (start ++ "/") = true ∨ start.toList.getLast? = some '/')

instance (route start : String) : Decidable (OnBoundary route start) :=
  inferInstanceAs (Decidable (_ ∧ _))

/-- The limits of the longest configured prefix at a boundary, or the global ones. -/
def RateLimiter.boundaryPolicy (route : String) : RoutePolicy :=
  limiter.longest fun start => Decidable.decide (OnBoundary route start)

/-- The limits are those of the longest configured prefix at a boundary, or the global ones. -/
def RateLimiter.Governs (route : String) (limits : RoutePolicy) : Prop :=
  (∃ p ∈ limiter.routePolicies, OnBoundary route p.1 ∧ limits = p.2 ∧
    ∀ q ∈ limiter.routePolicies, OnBoundary route q.1 → q.1.length ≤ p.1.length) ∨
  (limits = limiter.limits ∧ ∀ q ∈ limiter.routePolicies, ¬OnBoundary route q.1)

/-- The window of a call, after the call, holds what the answer leaves of the limit. -/
def RateLimiter.Counts (before : List Request) (request : Request) (answer : RateLimitDecision) :
    Prop :=
  ∃ w ws, Split ((limiter.limitsOf request).windowSeconds : ℚ)
      (limiter.granted (before ++ [request]) (limiter.bucket request)) (w :: ws) ∧
    w.start ≤ request.now.seconds ∧
    request.now.seconds < w.start + (limiter.limitsOf request).windowSeconds ∧
    w.times.length + answer.remaining = (limiter.limitsOf request).maxRequests

/-- The law of the limiter over a run. -/
structure RateLimiter.Lawful (requests : List Request) : Prop where
  /-- Every call returns a decision. -/
  answers : ∀ before request after, requests = before ++ request :: after →
    (limiter.decide before request).isSome = true
  /-- The allowed calls of a bucket are split into windows that are not too full. -/
  windows : ∀ key limits, ∃ ws,
    Split (limits.windowSeconds : ℚ) (limiter.granted requests (bucketOf key limits)) ws ∧
      ∀ w ∈ ws, ((limiter.granted requests (bucketOf key limits)).filter fun t =>
        w.start ≤ t ∧ t < w.start + limits.windowSeconds).length ≤ limits.maxRequests
  /-- What remains is what the window of the call has left. -/
  remaining : ∀ before request after, requests = before ++ request :: after →
    ∀ answer, limiter.decide before request = some answer → limiter.Counts before request answer
  /-- Calls for other keys change no decision. -/
  others : ∀ before request after, requests = before ++ request :: after →
    limiter.decide (before.filter fun r => r.key = request.key) request =
      limiter.decide before request
  /-- A denied caller is allowed when the clock reads the time it was told. -/
  retry : ∀ before request after, requests = before ++ request :: after →
    ∀ answer, limiter.decide before request = some answer → answer.allowed = false →
      ∃ seconds, answer.retryAfterSeconds = some seconds ∧
        ∀ others : List Request, (∀ r ∈ others, r.key ≠ request.key) →
          ∀ later : Reading, request.now.plus seconds = .finite later.seconds →
            (limiter.decide (before ++ request :: others) { request with now := later }).any
              (·.allowed) = true
  /-- `evaluate` uses the longest prefix at a segment boundary. -/
  policy : ∀ request ∈ requests, request.explicit = none →
    limiter.Governs request.key.route (limiter.limitsOf request)

end Law

end Ajenda.RateLimit
