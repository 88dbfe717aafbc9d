import Ajenda.RateLimiter

/-!
# The law of the rate limiter

A bucket holds the size and the start of the newest window of its allowed calls while rounding does
not carry the time elapsed over the end of a window. The waiting time is truncated and every
configured prefix of a route matches it. The law holds of a run exactly when no call is rounded over
an end, the whole seconds left to a denied call take the clock to the end of its window, and the
longest configured prefix of a route ends where a segment does.
-/
namespace Ajenda.RateLimit
open ClockReadings DoubleRounding FiniteTable FixedWindows JsonValue TransitionSystem

section Conditions
variable (limiter : RateLimiter)

/-- Rounding does not change on which side of the end of its window a call is. -/
def RateLimiter.OnTime (buckets : Buckets) (request : Request) : Prop :=
  ∀ count start, buckets.get (limiter.bucket request) = some (count, start) →
    ((limiter.limitsOf request).ended start request.now = true ↔
      start.seconds + (limiter.limitsOf request).windowSeconds ≤ request.now.seconds)

/-- While its bucket is full, the whole seconds that its window has left, at least one, take the
clock to the end of the window. -/
def RateLimiter.WaitsOut (buckets : Buckets) (request : Request) : Prop :=
  ∀ count start, buckets.get (limiter.bucket request) = some (count, start) →
    (limiter.limitsOf request).maxRequests ≤ count →
    (limiter.limitsOf request).ended start request.now = false →
    ∃ left, (limiter.limitsOf request).left start request.now = some left ∧
      ∀ later : Reading, request.now.plus (max 1 (truncate left) : ℤ) = .finite later.seconds →
        (limiter.limitsOf request).ended start later = true

/-- The longest configured prefix that the route starts with is at a segment boundary, or has the
same limits as the longest one that is. -/
def RateLimiter.Segmented (route : String) : Prop :=
  ∀ p ∈ limiter.routePolicies, startsWith route p.1 = true →
    (∀ q ∈ limiter.routePolicies, startsWith route q.1 = true → q.1.length ≤ p.1.length) →
      OnBoundary route p.1 ∨ p.2 = limiter.boundaryPolicy route

end Conditions

section Traces
variable {limiter : RateLimiter} {requests before : List Request} {request : Request}
  {bucket : Bucket}

theorem run_append (requests others : List Request) : limiter.run (requests ++ others) =
    exec limiter.step (limiter.run requests) others :=
  exec_append ..

theorem run_snoc : limiter.run (requests ++ [request]) =
    limiter.step (limiter.run requests) request :=
  run_append ..

theorem granted_snoc : limiter.granted (requests ++ [request]) bucket =
    limiter.granted requests bucket ++
      if (limiter.decide requests request).any (·.allowed) = true ∧ limiter.bucket request = bucket
      then [request.now.seconds] else [] := by
  rw [RateLimiter.granted, run_snoc]
  simp only [RateLimiter.step, List.filter_append, List.map_append]
  congr 1
  by_cases h : (limiter.decide requests request).any (·.allowed) = true ∧
      limiter.bucket request = bucket
  · rw [if_pos h, List.filter_cons_of_pos (by simpa [RateLimiter.decide] using h)]
    rfl
  · rw [if_neg h, List.filter_cons_of_neg (by simpa [RateLimiter.decide] using h)]
    rfl

theorem log_requests : (limiter.run requests).log.map Prod.fst = requests := by
  induction requests using List.reverseRecOn with
  | nil => rfl
  | append_singleton requests request ih =>
    rw [run_snoc, RateLimiter.step, List.map_append, ih]
    rfl

/-- Allowed calls were made. -/
theorem mem_granted {t : ℚ} (h : t ∈ limiter.granted requests bucket) :
    ∃ r ∈ requests, r.now.seconds = t := by
  obtain ⟨e, he, rfl⟩ := List.mem_map.1 h
  refine ⟨e.1, ?_, rfl⟩
  have hlog : (limiter.run requests).log.map Prod.fst = requests := log_requests
  rw [← hlog]
  exact List.mem_map_of_mem (List.mem_filter.1 he).1

/-- The times of calls of other buckets do not count. -/
theorem granted_snoc_ne (h : limiter.bucket request ≠ bucket) :
    limiter.granted (requests ++ [request]) bucket = limiter.granted requests bucket := by
  rw [granted_snoc, if_neg (fun hc => h hc.2), List.append_nil]

end Traces

section Buckets
variable {limiter : RateLimiter} {buckets buckets' : Buckets} {key : RateLimitKey}
  {limits : RoutePolicy} {now : Reading}

theorem evaluate_denied (h : limits.maxRequests ≤ (buckets.current key limits now).1) :
    buckets.evaluateWithPolicy key limits now =
      ((limits.left (buckets.current key limits now).2 now).map fun left =>
        ⟨false, 0, some (max 1 (truncate left))⟩, buckets) :=
  if_pos h

theorem evaluate_allowed (h : (buckets.current key limits now).1 < limits.maxRequests) :
    buckets.evaluateWithPolicy key limits now =
      (some ⟨true, limits.maxRequests - ((buckets.current key limits now).1 + 1), none⟩,
        buckets.put (bucketOf key limits)
          ((buckets.current key limits now).1 + 1, (buckets.current key limits now).2)) :=
  if_neg (Nat.not_le.2 h)

theorem allowed_iff : (buckets.evaluateWithPolicy key limits now).1.any (·.allowed) = true ↔
    (buckets.current key limits now).1 < limits.maxRequests := by
  rcases Nat.lt_or_ge (buckets.current key limits now).1 limits.maxRequests with h | h
  · rw [evaluate_allowed h]
    exact iff_of_true rfl h
  · rw [evaluate_denied h]
    refine iff_of_false ?_ (Nat.not_lt.2 h)
    cases limits.left (buckets.current key limits now).2 now <;> exact Bool.false_ne_true

/-- A call changes its own bucket only. -/
theorem get_evaluate_ne {bucket : Bucket} (h : bucket ≠ bucketOf key limits) :
    (buckets.evaluateWithPolicy key limits now).2.get bucket = buckets.get bucket := by
  rcases Nat.lt_or_ge (buckets.current key limits now).1 limits.maxRequests with hc | hc
  · rw [evaluate_allowed hc, Table.get_put_ne _ _ h]
  · rw [evaluate_denied hc]

/-- A call reads its own bucket only. -/
theorem evaluate_congr (h : buckets.get (bucketOf key limits) = buckets'.get (bucketOf key limits)) :
    (buckets.evaluateWithPolicy key limits now).1 =
        (buckets'.evaluateWithPolicy key limits now).1 ∧
      (buckets.evaluateWithPolicy key limits now).2.get (bucketOf key limits) =
        (buckets'.evaluateWithPolicy key limits now).2.get (bucketOf key limits) := by
  have hcurrent : buckets.current key limits now = buckets'.current key limits now := by
    rw [Buckets.current, Buckets.current, h]
  rcases Nat.lt_or_ge (buckets.current key limits now).1 limits.maxRequests with hc | hc
  · rw [evaluate_allowed hc, evaluate_allowed (hcurrent ▸ hc), hcurrent]
    exact ⟨rfl, by rw [Table.get_put_self, Table.get_put_self]⟩
  · rw [evaluate_denied hc, evaluate_denied (hcurrent ▸ hc), hcurrent]
    exact ⟨rfl, h⟩

/-- A window does not end when it starts. -/
theorem ended_self : limits.ended now now = false := by
  have hpos : (0 : ℚ) < limits.windowSeconds := by exact_mod_cast limits.window_pos
  rw [← Bool.not_eq_true, RoutePolicy.ended, Reading.since_self, atLeast_finite]
  exact not_le.2 hpos

theorem current_none (h : buckets.get (bucketOf key limits) = none) :
    buckets.current key limits now = (0, now) := by
  rw [Buckets.current, h, Option.getD_none, ended_self]
  rfl

theorem current_some (now : Reading) {entry : ℕ × Reading}
    (h : buckets.get (bucketOf key limits) = some entry) :
    buckets.current key limits now =
      if limits.ended entry.2 now = true then (0, now) else entry := by
  rw [Buckets.current, h, Option.getD_some]

/-- A call finds no room in a full window that has not ended. -/
theorem full_iff : limits.maxRequests ≤ (buckets.current key limits now).1 ↔
    ∃ count start, buckets.get (bucketOf key limits) = some (count, start) ∧
      limits.maxRequests ≤ count ∧ limits.ended start now = false := by
  have hpos := limits.max_pos
  cases hget : buckets.get (bucketOf key limits) with
  | none =>
    rw [current_none hget]
    exact iff_of_false (Nat.not_le.2 hpos) (by simp)
  | some entry =>
    rw [current_some _ hget]
    split_ifs with hend
    · refine iff_of_false (Nat.not_le.2 hpos) ?_
      rintro ⟨count, start, h, -, hopen⟩
      obtain rfl := Option.some.inj h
      rw [hend] at hopen
      cases hopen
    · constructor
      · intro hfull
        exact ⟨entry.1, entry.2, rfl, hfull, by simpa using hend⟩
      · rintro ⟨count, start, h, hfull, -⟩
        obtain rfl := Option.some.inj h
        exact hfull

end Buckets

section Windows
variable {limiter : RateLimiter} {requests before after : List Request} {request : Request}
  {bucket : Bucket} {ws : List (Window ℚ)}

/-- A count and the time of a reading. -/
def atSeconds (entry : ℕ × Reading) : ℕ × ℚ := (entry.1, entry.2.seconds)

/-- The bucket holds the newest of the windows of its allowed calls. -/
structure Tracked (limiter : RateLimiter) (requests : List Request) (bucket : Bucket)
    (ws : List (Window ℚ)) : Prop where
  split : Split (bucket.2.2 : ℚ) (limiter.granted requests bucket) ws
  full : ∀ w ∈ ws, w.times.length ≤ bucket.2.1
  newest : ((limiter.run requests).buckets.get bucket).map atSeconds =
    ws.head?.map fun w => (w.times.length, w.start)

theorem Tracked.start : Tracked limiter [] bucket [] :=
  ⟨Split.nil, fun _ h => absurd h List.not_mem_nil, rfl⟩

/-- A call of another bucket leaves the windows as they are. -/
theorem Tracked.other (h : Tracked limiter requests bucket ws) (hne : limiter.bucket request ≠ bucket) :
    Tracked limiter (requests ++ [request]) bucket ws := by
  refine ⟨?_, h.full, ?_⟩
  · rw [granted_snoc_ne hne]
    exact h.split
  · rw [run_snoc, RateLimiter.step, RateLimiter.evaluate, get_evaluate_ne hne.symm]
    exact h.newest

variable (h : Tracked limiter requests (limiter.bucket request) ws)
include h

/-- A bucket that is held has a newest window. -/
theorem Tracked.held {count : ℕ} {start : Reading}
    (hget : (limiter.run requests).buckets.get (limiter.bucket request) = some (count, start)) :
    ∃ w rest, ws = w :: rest ∧ w.times.length = count ∧ w.start = start.seconds := by
  have hnewest := h.newest
  rw [hget] at hnewest
  cases ws with
  | nil => cases hnewest
  | cons w rest =>
    obtain ⟨hcount, hstart⟩ := Prod.mk.inj (Option.some.inj hnewest)
    exact ⟨w, rest, rfl, hcount.symm, hstart.symm⟩

/-- The entry of a call on time is the newest window at its time. -/
theorem Tracked.current (hon : limiter.OnTime (limiter.run requests).buckets request) :
    atSeconds ((limiter.run requests).buckets.current request.key (limiter.limitsOf request)
      request.now) =
      FixedWindows.newest ((limiter.limitsOf request).windowSeconds : ℚ) ws request.now.seconds := by
  cases hget : (limiter.run requests).buckets.get (limiter.bucket request) with
  | none =>
    have hnewest := h.newest
    rw [hget] at hnewest
    cases ws with
    | nil => rw [current_none hget, FixedWindows.newest, atSeconds]
    | cons w rest => cases hnewest
  | some entry =>
    obtain ⟨w, rest, rfl, hcount, hstart⟩ := h.held hget
    have hended := hon entry.1 entry.2 hget
    rw [current_some _ hget, FixedWindows.newest, hstart]
    by_cases hend : entry.2.seconds + (limiter.limitsOf request).windowSeconds ≤ request.now.seconds
    · rw [if_pos (hended.2 hend), if_pos hend, atSeconds]
    · rw [if_neg (fun hc => hend (hended.1 hc)), if_neg hend, atSeconds, hcount]

/-- A call that is not allowed leaves the windows as they are. -/
theorem Tracked.denied (hdenied : (limiter.decide requests request).any (·.allowed) = false) :
    Tracked limiter (requests ++ [request]) (limiter.bucket request) ws := by
  have hfull : (limiter.limitsOf request).maxRequests ≤ ((limiter.run requests).buckets.current
      request.key (limiter.limitsOf request) request.now).1 := by
    rw [RateLimiter.decide, RateLimiter.evaluate, ← Bool.not_eq_true, allowed_iff, not_lt] at hdenied
    exact hdenied
  refine ⟨?_, h.full, ?_⟩
  · rw [granted_snoc, if_neg (by simp [hdenied]), List.append_nil]
    exact h.split
  · rw [run_snoc, RateLimiter.step, RateLimiter.evaluate, evaluate_denied hfull]
    exact h.newest

/-- An allowed call takes its place in the windows. -/
theorem Tracked.place (hclock : ∀ r ∈ requests, r.now.seconds ≤ request.now.seconds)
    (hallowed : (limiter.decide requests request).any (·.allowed) = true) :
    Split ((limiter.limitsOf request).windowSeconds : ℚ)
      (limiter.granted (requests ++ [request]) (limiter.bucket request))
      (place ((limiter.limitsOf request).windowSeconds : ℚ) ws request.now.seconds) := by
  rw [granted_snoc, if_pos ⟨hallowed, rfl⟩]
  refine h.split.place (by exact_mod_cast (limiter.limitsOf request).window_pos) fun t ht => ?_
  obtain ⟨r, hr, rfl⟩ := mem_granted ht
  exact hclock r hr

theorem Tracked.allowed (hon : limiter.OnTime (limiter.run requests).buckets request)
    (hclock : ∀ r ∈ requests, r.now.seconds ≤ request.now.seconds)
    (hallowed : (limiter.decide requests request).any (·.allowed) = true) :
    Tracked limiter (requests ++ [request]) (limiter.bucket request)
      (FixedWindows.place ((limiter.limitsOf request).windowSeconds : ℚ) ws request.now.seconds) := by
  have hroom := allowed_iff.1 hallowed
  obtain ⟨w, rest, hplace, hlength, hstart, -, hrest⟩ :=
    place_newest ((limiter.limitsOf request).windowSeconds : ℚ) request.now.seconds ws
  have hcurrent := h.current hon
  refine ⟨h.place hclock hallowed, fun u hu => ?_, ?_⟩
  · rw [hplace] at hu
    rcases List.mem_cons.1 hu with rfl | hu
    · rw [hlength, ← hcurrent]
      exact hroom
    · exact h.full u (hrest u hu)
  · rw [run_snoc, RateLimiter.step, RateLimiter.evaluate, evaluate_allowed hroom, hplace,
      RateLimiter.bucket, Table.get_put_self, Option.map_some, List.head?_cons, Option.map_some,
      hlength, hstart, ← hcurrent]
    rfl

end Windows

section Law
variable {limiter : RateLimiter} {requests before after : List Request} {request : Request}

/-- Every call of a run is on time. -/
def RateLimiter.KeepsTime (limiter : RateLimiter) (requests : List Request) : Prop :=
  ∀ before request after, requests = before ++ request :: after →
    limiter.OnTime (limiter.run before).buckets request

theorem RateLimiter.KeepsTime.init (h : limiter.KeepsTime (before ++ request :: after)) :
    limiter.KeepsTime before := by
  intro b r a hsplit
  exact h b r (a ++ request :: after) (by rw [hsplit]; simp)

theorem tracked_snoc {bucket : Bucket} (hon : limiter.OnTime (limiter.run requests).buckets request)
    (hclock : ∀ r ∈ requests, r.now.seconds ≤ request.now.seconds)
    (h : ∃ ws, Tracked limiter requests bucket ws) :
    ∃ ws, Tracked limiter (requests ++ [request]) bucket ws := by
  obtain ⟨ws, h⟩ := h
  by_cases hbucket : limiter.bucket request = bucket
  · subst hbucket
    cases hallowed : (limiter.decide requests request).any (·.allowed) with
    | true => exact ⟨_, h.allowed hon hclock hallowed⟩
    | false => exact ⟨ws, h.denied hallowed⟩
  · exact ⟨ws, h.other hbucket⟩

/-- After every run of calls on time all buckets hold their newest windows. -/
theorem tracked (hclock : requests.Pairwise fun a b => a.now.seconds ≤ b.now.seconds)
    (hon : limiter.KeepsTime requests) (bucket : Bucket) :
    ∃ ws, Tracked limiter requests bucket ws := by
  induction requests using List.reverseRecOn with
  | nil => exact ⟨[], Tracked.start⟩
  | append_singleton requests request ih =>
    rw [List.pairwise_append] at hclock
    exact tracked_snoc (hon requests request [] rfl)
      (fun r hr => hclock.2.2 r hr request List.mem_cons_self) (ih hclock.1 hon.init)

theorem windows_not_full {bucket : Bucket} {ws : List (Window ℚ)}
    (h : Tracked limiter requests bucket ws) : ∀ w ∈ ws,
      ((limiter.granted requests bucket).filter fun t =>
        w.start ≤ t ∧ t < w.start + bucket.2.2).length ≤ bucket.2.1 := by
  intro w hw
  rw [h.split.filter_window hw]
  exact h.full w hw

theorem remaining_exact {ws : List (Window ℚ)} {answer : RateLimitDecision}
    (h : Tracked limiter before (limiter.bucket request) ws)
    (hon : limiter.OnTime (limiter.run before).buckets request)
    (hclock : ∀ r ∈ before, r.now.seconds ≤ request.now.seconds)
    (hanswer : limiter.decide before request = some answer) :
    limiter.Counts before request answer := by
  have hcurrent := h.current hon
  rcases Nat.lt_or_ge ((limiter.run before).buckets.current request.key (limiter.limitsOf request)
    request.now).1 (limiter.limitsOf request).maxRequests with hroom | hfull
  · have hallowed : (limiter.decide before request).any (·.allowed) = true := allowed_iff.2 hroom
    have hplaced := h.place hclock hallowed
    obtain ⟨w, rest, hplace, hlength, -, hmem, -⟩ :=
      place_newest ((limiter.limitsOf request).windowSeconds : ℚ) request.now.seconds ws
    rw [hplace] at hplaced
    have hwithin := hplaced.within w List.mem_cons_self request.now.seconds hmem
    refine ⟨w, rest, hplaced, hwithin.1, hwithin.2, ?_⟩
    rw [RateLimiter.decide, RateLimiter.evaluate, evaluate_allowed hroom] at hanswer
    obtain rfl := Option.some.inj hanswer
    rw [hlength, ← hcurrent]
    exact Nat.add_sub_of_le (Nat.succ_le_of_lt hroom)
  · have hnot : (limiter.decide before request).any (·.allowed) = false := by
      rw [← Bool.not_eq_true, RateLimiter.decide, RateLimiter.evaluate, allowed_iff]
      exact Nat.not_lt.2 hfull
    obtain ⟨count, start, hget, hcount, hopen⟩ := full_iff.1 hfull
    obtain ⟨w, rest, rfl, hlength, hstart⟩ := h.held hget
    have hbegun : w.start ∈ limiter.granted before (limiter.bucket request) := by
      rw [← h.split.times]
      exact List.mem_append_right _ (start_mem w)
    obtain ⟨r, hr, hrnow⟩ := mem_granted hbegun
    have hend : request.now.seconds < w.start + (limiter.limitsOf request).windowSeconds := by
      rw [← not_le, hstart, ← hon count start hget, hopen]
      exact Bool.false_ne_true
    refine ⟨w, rest, (h.denied hnot).split, hrnow ▸ hclock r hr, hend, ?_⟩
    have hnone : answer.remaining = 0 := by
      rw [RateLimiter.decide, RateLimiter.evaluate, evaluate_denied hfull] at hanswer
      obtain ⟨left, -, rfl⟩ := Option.map_eq_some_iff.1 hanswer
      rfl
    have hmost : w.times.length ≤ (limiter.limitsOf request).maxRequests :=
      h.full w List.mem_cons_self
    omega

/-- A call whose answer counts its window is on time. -/
theorem onTime_of_counts {ws : List (Window ℚ)} {answer : RateLimitDecision}
    (h : Tracked limiter before (limiter.bucket request) ws)
    (hclock : ∀ r ∈ before, r.now.seconds ≤ request.now.seconds)
    (hanswer : limiter.decide before request = some answer)
    (hcounts : limiter.Counts before request answer) :
    limiter.OnTime (limiter.run before).buckets request := by
  intro count start hget
  obtain ⟨w, rest, rfl, hlength, hstart⟩ := h.held hget
  obtain ⟨v, vs, hsplit, -, hopen, hsum⟩ := hcounts
  have hcurrent := current_some request.now hget
  have hpositive : 0 < w.times.length := by simp [Window.times]
  rw [← hstart]
  by_cases hended : (limiter.limitsOf request).ended start request.now = true
  · -- the call starts a window of the bucket; in an older one it would be the second at least
    refine iff_of_true hended (not_lt.1 fun hlate => ?_)
    rw [if_pos hended] at hcurrent
    have hroom : ((limiter.run before).buckets.current request.key (limiter.limitsOf request)
        request.now).1 < (limiter.limitsOf request).maxRequests := by
      rw [hcurrent]
      exact (limiter.limitsOf request).max_pos
    have hplaced := h.place hclock (allowed_iff.2 hroom)
    rw [FixedWindows.place, if_neg (not_le.2 hlate)] at hplaced
    obtain ⟨rfl, rfl⟩ := List.cons.inj (hsplit.unique hplaced)
    rw [RateLimiter.decide, RateLimiter.evaluate, evaluate_allowed hroom, hcurrent] at hanswer
    obtain rfl := Option.some.inj hanswer
    have hmax := (limiter.limitsOf request).max_pos
    have hsum' : (w.later ++ [request.now.seconds]).length + 1 +
        ((limiter.limitsOf request).maxRequests - 1) = (limiter.limitsOf request).maxRequests := hsum
    rw [List.length_append, List.length_singleton] at hsum'
    omega
  · refine iff_of_false hended fun hover => ?_
    rw [if_neg hended] at hcurrent
    rcases Nat.lt_or_ge count (limiter.limitsOf request).maxRequests with hroom | hfull
    · -- the call is counted in a window that is over
      have hroom' : ((limiter.run before).buckets.current request.key (limiter.limitsOf request)
          request.now).1 < (limiter.limitsOf request).maxRequests := by
        rw [hcurrent]
        exact hroom
      have hplaced := h.place hclock (allowed_iff.2 hroom')
      rw [FixedWindows.place, if_pos hover] at hplaced
      obtain ⟨rfl, rfl⟩ := List.cons.inj (hsplit.unique hplaced)
      rw [RateLimiter.decide, RateLimiter.evaluate, evaluate_allowed hroom', hcurrent] at hanswer
      obtain rfl := Option.some.inj hanswer
      have hsum' : 1 + ((limiter.limitsOf request).maxRequests - (count + 1)) =
        (limiter.limitsOf request).maxRequests := hsum
      omega
    · -- the call is denied in a window that is over
      have hnot : (limiter.decide before request).any (·.allowed) = false := by
        rw [← Bool.not_eq_true, RateLimiter.decide, RateLimiter.evaluate, allowed_iff, hcurrent]
        exact Nat.not_lt.2 hfull
      obtain ⟨rfl, rfl⟩ := List.cons.inj (hsplit.unique (h.denied hnot).split)
      exact absurd hover (not_le.2 hopen)

/-- A run whose answers count their windows is on time. -/
theorem keepsTime_of_counts (hclock : requests.Pairwise fun a b => a.now.seconds ≤ b.now.seconds)
    (h : ∀ before request after, requests = before ++ request :: after →
      ∃ answer, limiter.decide before request = some answer ∧
        limiter.Counts before request answer) : limiter.KeepsTime requests := by
  induction requests using List.reverseRecOn with
  | nil =>
    intro before request after hsplit
    simp at hsplit
  | append_singleton requests last ih =>
    rw [List.pairwise_append] at hclock
    have hearlier : limiter.KeepsTime requests := ih hclock.1 fun before request after hsplit =>
      h before request (after ++ [last]) (by rw [hsplit]; simp)
    intro before request after hsplit
    rcases List.eq_nil_or_concat after with rfl | ⟨after, last', rfl⟩
    · obtain ⟨rfl, hlast⟩ := List.append_inj' hsplit rfl
      obtain rfl := List.singleton_inj.1 hlast
      obtain ⟨ws, htracked⟩ := tracked hclock.1 hearlier (limiter.bucket last)
      obtain ⟨answer, hanswer, hcounts⟩ := h requests last [] rfl
      exact onTime_of_counts htracked (fun r hr => hclock.2.2 r hr last List.mem_cons_self) hanswer
        hcounts
    · have hinit : requests ++ [last] = (before ++ request :: after) ++ [last'] := by
        rw [hsplit]
        simp
      exact hearlier before request after (List.append_inj' hinit rfl).1

theorem RateLimiter.Lawful.keepsTime (h : limiter.Lawful requests)
    (hclock : requests.Pairwise fun a b => a.now.seconds ≤ b.now.seconds) :
    limiter.KeepsTime requests := by
  refine keepsTime_of_counts hclock fun before request after hsplit => ?_
  obtain ⟨answer, hanswer⟩ := Option.isSome_iff_exists.1 (h.answers before request after hsplit)
  exact ⟨answer, hanswer, h.remaining before request after hsplit answer hanswer⟩

/-- Calls for other keys leave the buckets of a key as they are. -/
theorem buckets_filter (limits : RoutePolicy) (key : RateLimitKey) :
    (limiter.run (requests.filter fun r => r.key = key)).buckets.get (bucketOf key limits) =
      (limiter.run requests).buckets.get (bucketOf key limits) := by
  induction requests using List.reverseRecOn generalizing limits with
  | nil => rfl
  | append_singleton requests r ih =>
    rw [List.filter_append, run_snoc]
    by_cases hkey : r.key = key
    · rw [List.filter_cons_of_pos (by simpa using hkey), List.filter_nil, run_snoc]
      subst hkey
      by_cases hbucket : bucketOf r.key limits = limiter.bucket r
      · rw [hbucket]
        exact (evaluate_congr (ih (limiter.limitsOf r))).2
      · have hrest := ih limits
        rw [RateLimiter.step, RateLimiter.step, RateLimiter.evaluate, RateLimiter.evaluate,
          get_evaluate_ne hbucket, get_evaluate_ne hbucket]
        exact hrest
    · rw [List.filter_cons_of_neg (by simpa using hkey), List.filter_nil, List.append_nil, ih,
        RateLimiter.step, RateLimiter.evaluate, get_evaluate_ne]
      intro hbucket
      exact hkey (congrArg Prod.fst hbucket).symm

theorem others_change_nothing : limiter.decide (before.filter fun r => r.key = request.key) request =
    limiter.decide before request :=
  (evaluate_congr (buckets_filter (limiter.limitsOf request) request.key)).1

end Law

section Waiting
variable {limiter : RateLimiter} {before others : List Request} {request : Request}

/-- Calls for other keys after a call leave its bucket as it is. -/
theorem get_run_others {limits : RoutePolicy} {key : RateLimitKey} (h : ∀ r ∈ others, r.key ≠ key)
    (requests : List Request) :
    (limiter.run (requests ++ others)).buckets.get (bucketOf key limits) =
      (limiter.run requests).buckets.get (bucketOf key limits) := by
  have hnone : others.filter (fun r => r.key = key) = [] := by
    refine List.filter_eq_nil_iff.2 fun r hr => ?_
    simpa using h r hr
  rw [← buckets_filter limits key, List.filter_append, hnone, List.append_nil, buckets_filter]

/-- A call without room changes no bucket. -/
theorem run_full (h : (limiter.limitsOf request).maxRequests ≤ ((limiter.run before).buckets.current
      request.key (limiter.limitsOf request) request.now).1) :
    (limiter.run (before ++ [request])).buckets = (limiter.run before).buckets := by
  rw [run_snoc, RateLimiter.step, RateLimiter.evaluate, evaluate_denied h]

variable {count : ℕ} {start : Reading}
  (hget : (limiter.run before).buckets.get (limiter.bucket request) = some (count, start))
  (hfull : (limiter.limitsOf request).maxRequests ≤ count)
  (hopen : (limiter.limitsOf request).ended start request.now = false)
include hget hfull hopen

/-- The decision on a call that finds its bucket full. -/
theorem decide_full : limiter.decide before request =
    ((limiter.limitsOf request).left start request.now).map fun left =>
      ⟨false, 0, some (max 1 (truncate left))⟩ := by
  have hcurrent := current_some request.now hget
  rw [hopen, if_neg Bool.false_ne_true] at hcurrent
  rw [RateLimiter.decide, RateLimiter.evaluate, evaluate_denied (by rw [hcurrent]; exact hfull),
    hcurrent]

/-- The same call at a later reading is allowed when its window has ended. -/
theorem allowed_later (hothers : ∀ r ∈ others, r.key ≠ request.key) (later : Reading) :
    (limiter.decide (before ++ request :: others) { request with now := later }).any (·.allowed) =
        true ↔
      (limiter.limitsOf request).ended start later = true := by
  have hcurrent := current_some request.now hget
  rw [hopen, if_neg Bool.false_ne_true] at hcurrent
  have hbucket : (limiter.run (before ++ request :: others)).buckets.get
      (bucketOf request.key (limiter.limitsOf request)) = some (count, start) := by
    rw [List.append_cons, get_run_others hothers, run_full (by rw [hcurrent]; exact hfull)]
    exact hget
  have hlater := current_some later hbucket
  refine allowed_iff.trans ?_
  change ((limiter.run (before ++ request :: others)).buckets.current request.key
    (limiter.limitsOf request) later).1 < (limiter.limitsOf request).maxRequests ↔ _
  rw [hlater]
  split_ifs with hend
  · exact iff_of_true (limiter.limitsOf request).max_pos hend
  · exact iff_of_false (Nat.not_lt.2 hfull) hend

omit hget hfull hopen

/-- A call that waits out its window gets an answer. -/
theorem answers_of_waitsOut (h : limiter.WaitsOut (limiter.run before).buckets request) :
    (limiter.decide before request).isSome = true := by
  rcases Nat.lt_or_ge ((limiter.run before).buckets.current request.key (limiter.limitsOf request)
    request.now).1 (limiter.limitsOf request).maxRequests with hroom | hfull
  · rw [RateLimiter.decide, RateLimiter.evaluate, evaluate_allowed hroom]
    rfl
  · obtain ⟨count, start, hget, hcount, hopen⟩ := full_iff.1 hfull
    obtain ⟨left, hleft, -⟩ := h count start hget hcount hopen
    rw [decide_full hget hcount hopen, hleft]
    rfl

/-- A denied call that waits out its window is allowed at the reading it was told. -/
theorem retry_of_waitsOut {answer : RateLimitDecision}
    (h : limiter.WaitsOut (limiter.run before).buckets request)
    (hanswer : limiter.decide before request = some answer) (hdenied : answer.allowed = false) :
    ∃ seconds, answer.retryAfterSeconds = some seconds ∧
      ∀ others : List Request, (∀ r ∈ others, r.key ≠ request.key) →
        ∀ later : Reading, request.now.plus seconds = .finite later.seconds →
          (limiter.decide (before ++ request :: others) { request with now := later }).any
            (·.allowed) = true := by
  have hnot : ¬(limiter.decide before request).any (·.allowed) = true := by
    rw [hanswer, Option.any_some, hdenied]
    exact Bool.false_ne_true
  rw [RateLimiter.decide, RateLimiter.evaluate, allowed_iff, not_lt, full_iff] at hnot
  obtain ⟨count, start, hget, hfull, hopen⟩ := hnot
  obtain ⟨left, hleft, hlater⟩ := h count start hget hfull hopen
  rw [decide_full hget hfull hopen, hleft] at hanswer
  obtain rfl := Option.some.inj hanswer
  refine ⟨_, rfl, fun others hothers later hreads => ?_⟩
  exact (allowed_later hget hfull hopen hothers later).2 (hlater later hreads)

end Waiting

section Policies
variable {limiter : RateLimiter} {route : String}

theorem matches_iff (start : String) :
    (decide (route = start) || startsWith route (start ++ "/") || startsWith route start) =
      startsWith route start := by
  rw [Bool.eq_iff_iff]
  simp only [Bool.or_eq_true, decide_eq_true_eq]
  refine ⟨?_, .inr⟩
  rintro ((rfl | h) | h)
  · rw [startsWith, List.isPrefixOf_iff_prefix]
  · rw [startsWith, List.isPrefixOf_iff_prefix] at h ⊢
    rw [String.toList_append] at h
    exact (List.prefix_append _ _).trans h
  · exact h

/-- The first prefix that matches is the longest one. -/
theorem longest_cases (limiter : RateLimiter) (matching : String → Bool) :
    (∃ p ∈ limiter.routePolicies, matching p.1 = true ∧ limiter.longest matching = p.2 ∧
      ∀ q ∈ limiter.routePolicies, matching q.1 = true → q.1.length ≤ p.1.length) ∨
    (limiter.longest matching = limiter.limits ∧
      ∀ q ∈ limiter.routePolicies, matching q.1 = false) := by
  have hmem : ∀ p, p ∈ limiter.sortedPolicies ↔ p ∈ limiter.routePolicies := fun p =>
    List.mem_insertionSort _
  have hsorted : limiter.sortedPolicies.Pairwise fun a b => b.1.length ≤ a.1.length :=
    List.pairwise_insertionSort _ _
  rw [RateLimiter.longest]
  cases hfind : limiter.sortedPolicies.find? fun p => matching p.1 with
  | none =>
    refine .inr ⟨rfl, fun q hq => ?_⟩
    rw [List.find?_eq_none] at hfind
    simpa using hfind q ((hmem q).2 hq)
  | some p =>
    obtain ⟨hp, earlier, later, hlist, hearlier⟩ := List.find?_eq_some_iff_append.1 hfind
    refine .inl ⟨p, (hmem p).1 (List.mem_of_find?_eq_some hfind), hp, rfl, fun q hq hstart => ?_⟩
    rw [hlist, List.pairwise_append, List.pairwise_cons] at hsorted
    have hq' := (hmem q).2 hq
    rw [hlist, List.mem_append, List.mem_cons] at hq'
    rcases hq' with hq' | rfl | hq'
    · have hnot := hearlier q hq'
      rw [hstart] at hnot
      cases hnot
    · exact le_rfl
    · exact hsorted.2.1.1 q hq'

/-- The policy in force is that of the longest prefix, wherever it ends. -/
theorem resolvePolicy_cases (limiter : RateLimiter) (route : String) :
    (∃ p ∈ limiter.routePolicies, startsWith route p.1 = true ∧ limiter.resolvePolicy route = p.2 ∧
      ∀ q ∈ limiter.routePolicies, startsWith route q.1 = true → q.1.length ≤ p.1.length) ∨
    (limiter.resolvePolicy route = limiter.limits ∧
      ∀ q ∈ limiter.routePolicies, startsWith route q.1 = false) := by
  rw [RateLimiter.resolvePolicy]
  simp only [matches_iff]
  exact longest_cases limiter (startsWith route)

/-- Two starts of a route of one length are the same. -/
theorem startsWith_eq {a b : String} (ha : startsWith route a = true)
    (hb : startsWith route b = true) (h : a.length = b.length) : a = b := by
  rw [startsWith, List.isPrefixOf_iff_prefix] at ha hb
  have hlength : a.toList.length = b.toList.length := by
    rw [String.length_toList, String.length_toList, h]
  have hlist := List.prefix_of_prefix_length_le ha hb hlength.le
  exact String.toList_inj.1 (hlist.eq_of_length hlength)

/-- A route has one longest prefix of a kind. -/
theorem longest_unique {p q : String × RoutePolicy} (hp : p ∈ limiter.routePolicies)
    (hq : q ∈ limiter.routePolicies) (hpstart : startsWith route p.1 = true)
    (hqstart : startsWith route q.1 = true) (h : p.1.length = q.1.length) : p = q :=
  List.inj_on_of_nodup_map limiter.keys hp hq (startsWith_eq hpstart hqstart h)

theorem governs_boundary {limits : RoutePolicy} :
    limiter.Governs route limits ↔ limits = limiter.boundaryPolicy route := by
  rw [RateLimiter.boundaryPolicy]
  rcases longest_cases limiter fun start => decide (OnBoundary route start) with
    ⟨p, hp, hboundary, hpolicy, hlongest⟩ | ⟨hlimits, hnone⟩
  · simp only [decide_eq_true_eq] at hboundary hlongest
    rw [hpolicy]
    constructor
    · rintro (⟨q, hq, hqb, rfl, hqlongest⟩ | ⟨-, hnone⟩)
      · have heq : q = p := longest_unique hq hp hqb.1 hboundary.1
          (le_antisymm (hlongest q hq hqb) (hqlongest p hp hboundary))
        rw [heq]
      · exact absurd hboundary (hnone p hp)
    · rintro rfl
      exact .inl ⟨p, hp, hboundary, rfl, hlongest⟩
  · simp only [decide_eq_false_iff_not] at hnone
    rw [hlimits]
    constructor
    · rintro (⟨q, hq, hqb, -⟩ | ⟨rfl, -⟩)
      · exact absurd hqb (hnone q hq)
      · rfl
    · rintro rfl
      exact .inr ⟨rfl, hnone⟩

theorem governs_iff : limiter.Governs route (limiter.resolvePolicy route) ↔
    limiter.Segmented route := by
  rcases resolvePolicy_cases limiter route with ⟨p, hp, hstart, hpolicy, hlongest⟩ | ⟨hlimits, hnone⟩
  · rw [hpolicy]
    constructor
    · intro hgoverns q hq hqstart hqlongest
      obtain rfl : q = p := longest_unique hq hp hqstart hstart
        (le_antisymm (hlongest q hq hqstart) (hqlongest p hp hstart))
      exact .inr (governs_boundary.1 hgoverns)
    · intro hsegmented
      rcases hsegmented p hp hstart hlongest with hboundary | hsame
      · exact .inl ⟨p, hp, hboundary, rfl, fun q hq hqb => hlongest q hq hqb.1⟩
      · exact governs_boundary.2 hsame
  · refine iff_of_true (.inr ⟨hlimits, fun q hq hqb => ?_⟩) fun q hq hqstart => ?_
    · have hstart := hqb.1
      rw [hnone q hq] at hstart
      cases hstart
    · rw [hnone q hq] at hqstart
      cases hqstart

end Policies

/-- A run obeys the law exactly when its calls are on time and wait out their windows, and every
route is segmented by the prefixes. -/
theorem lawful_iff (limiter : RateLimiter) (requests : List Request)
    (hclock : requests.Pairwise fun a b => a.now.seconds ≤ b.now.seconds) :
    limiter.Lawful requests ↔
      (∀ before request after, requests = before ++ request :: after →
        limiter.OnTime (limiter.run before).buckets request ∧
          limiter.WaitsOut (limiter.run before).buckets request) ∧
      ∀ request ∈ requests, request.explicit = none → limiter.Segmented request.key.route := by
  have hpolicy : ∀ request : Request, request.explicit = none →
      limiter.limitsOf request = limiter.resolvePolicy request.key.route := by
    intro request hnone
    rw [RateLimiter.limitsOf, hnone, Option.getD_none]
  constructor
  · intro h
    refine ⟨fun before request after hsplit => ⟨h.keepsTime hclock before request after hsplit, ?_⟩,
      fun request hmem hnone => ?_⟩
    · intro count start hget hfull hopen
      obtain ⟨answer, hanswer⟩ := Option.isSome_iff_exists.1 (h.answers before request after hsplit)
      have hdecide := decide_full hget hfull hopen
      rw [hanswer] at hdecide
      obtain ⟨left, hleft, rfl⟩ := Option.map_eq_some_iff.1 hdecide.symm
      refine ⟨left, hleft, fun later hlater => ?_⟩
      obtain ⟨seconds, hseconds, hallowed⟩ :=
        h.retry before request after hsplit _ hanswer rfl
      obtain rfl := Option.some.inj hseconds
      have hnothing : ∀ r ∈ ([] : List Request), r.key ≠ request.key := by simp
      exact (allowed_later hget hfull hopen hnothing later).1 (hallowed [] hnothing later hlater)
    · rw [← governs_iff, ← hpolicy request hnone]
      exact h.policy request hmem hnone
  · rintro ⟨hcalls, hsegmented⟩
    have hbefore : ∀ before request after, requests = before ++ request :: after →
        before.Pairwise (fun a b => a.now.seconds ≤ b.now.seconds) ∧
          ∀ r ∈ before, r.now.seconds ≤ request.now.seconds := by
      intro before request after hsplit
      rw [hsplit, List.pairwise_append] at hclock
      exact ⟨hclock.1, fun r hr => hclock.2.2 r hr request List.mem_cons_self⟩
    have hon : limiter.KeepsTime requests := fun before request after hsplit =>
      (hcalls before request after hsplit).1
    refine ⟨fun before request after hsplit => ?_, fun key limits => ?_,
      fun before request after hsplit answer hanswer => ?_,
      fun before request after _ => others_change_nothing,
      fun before request after hsplit answer hanswer hdenied => ?_, fun request hmem hnone => ?_⟩
    · exact answers_of_waitsOut (hcalls before request after hsplit).2
    · obtain ⟨ws, h⟩ : ∃ ws, Tracked limiter requests (bucketOf key limits) ws :=
        tracked hclock hon _
      exact ⟨ws, h.split, windows_not_full h⟩
    · obtain ⟨hordered, hlast⟩ := hbefore before request after hsplit
      obtain ⟨ws, h⟩ := tracked hordered (hsplit ▸ hon).init (limiter.bucket request)
      exact remaining_exact h (hon before request after hsplit) hlast hanswer
    · exact retry_of_waitsOut (hcalls before request after hsplit).2 hanswer hdenied
    · rw [hpolicy request hnone, governs_iff]
      exact hsegmented request hmem hnone

section Samples

def sampleLimiter : RateLimiter where
  limits := ⟨1, 2, by decide, by decide⟩
  routePolicies := [("/v1/webhooks", ⟨5, 60, by decide, by decide⟩)]
  keys := by decide

def sampleRequest (now : ℚ) (hnow : toDouble now = .finite now) (route : String) : Request :=
  ⟨⟨now, hnow⟩, ⟨"tenant", "user", route⟩, none⟩

def minuteLimiter : RateLimiter where
  limits := ⟨1, 60, by decide, by decide⟩
  routePolicies := []
  keys := by decide

/-- The double nearest to a thousandth. -/
def earlyReading : ℚ := 1152921504606847 / 1152921504606846976

/-- The double nearest to sixty and a thousandth. -/
def lateReading : ℚ := 8444390038808035 / 140737488355328

/-- A mission is created, created again too early and again in time, and then a webhook. -/
def sampleRun : List Request :=
  [sampleRequest 0 (by decide +kernel) "/v1/missions",
    sampleRequest 1 (by decide +kernel) "/v1/missions",
    sampleRequest 2 (by decide +kernel) "/v1/missions",
    sampleRequest 3 (by decide +kernel) "/v1/webhooks/new"]

/-- What holds of every call of a run holds of its first call and of the calls after it. -/
theorem forall_split_cons {P : List Request → Request → Prop} {first : Request}
    {rest : List Request} (hfirst : P [] first)
    (hrest : ∀ before request after, rest = before ++ request :: after →
      P (first :: before) request) :
    ∀ before request after, first :: rest = before ++ request :: after → P before request := by
  intro before request after hsplit
  cases before with
  | nil =>
    obtain ⟨rfl, -⟩ := List.cons.inj hsplit
    exact hfirst
  | cons r before =>
    obtain ⟨rfl, htail⟩ := List.cons.inj hsplit
    exact hrest before request after htail

/-- A call that finds no entry, or one whose window has ended by then or ends when it was told. -/
theorem conditions_of_get {limiter : RateLimiter} {buckets : Buckets} {request : Request}
    (h : ∀ count start, buckets.get (limiter.bucket request) = some (count, start) →
      ((limiter.limitsOf request).ended start request.now = true ↔
        start.seconds + (limiter.limitsOf request).windowSeconds ≤ request.now.seconds) ∧
      ((limiter.limitsOf request).ended start request.now = true ∨ ∃ left later,
        (limiter.limitsOf request).left start request.now = some left ∧
        request.now.plus (max 1 (truncate left) : ℤ) = .finite later ∧
        atLeast (toDouble (later - start.seconds)) (limiter.limitsOf request).windowSeconds =
          true)) :
    limiter.OnTime buckets request ∧ limiter.WaitsOut buckets request := by
  refine ⟨fun count start hget => (h count start hget).1, fun count start hget _ hopen => ?_⟩
  rcases (h count start hget).2 with hend | ⟨left, later, hleft, hreads, hend⟩
  · rw [hopen] at hend
    cases hend
  · refine ⟨left, hleft, fun reading hreading => ?_⟩
    rw [hreads] at hreading
    rw [RoutePolicy.ended, Reading.since, ← JsonNumber.finite.inj hreading]
    exact hend

theorem sampleRun_calls : ∀ before request after, sampleRun = before ++ request :: after →
    sampleLimiter.OnTime (sampleLimiter.run before).buckets request ∧
      sampleLimiter.WaitsOut (sampleLimiter.run before).buckets request := by
  refine forall_split_cons (conditions_of_get fun count start hget => ?_)
    (forall_split_cons (conditions_of_get fun count start hget => ?_)
      (forall_split_cons (conditions_of_get fun count start hget => ?_)
        (forall_split_cons (conditions_of_get fun count start hget => ?_) (by simp))))
  · cases hget
  · obtain ⟨rfl, rfl⟩ := Prod.mk.inj (Option.some.inj (Eq.trans (show some
      (1, (⟨0, by decide +kernel⟩ : Reading)) = _ by decide +kernel) hget))
    exact ⟨by decide +kernel, .inr ⟨1, 2, by decide +kernel⟩⟩
  · obtain ⟨rfl, rfl⟩ := Prod.mk.inj (Option.some.inj (Eq.trans (show some
      (1, (⟨0, by decide +kernel⟩ : Reading)) = _ by decide +kernel) hget))
    exact ⟨by decide +kernel, .inl (by decide +kernel)⟩
  · have hnone : (sampleLimiter.run (sampleRun.take 3)).buckets.get
        (sampleLimiter.bucket (sampleRequest 3 (by decide +kernel) "/v1/webhooks/new")) = none := by
      decide +kernel
    exact absurd (hnone.symm.trans hget) (by simp)

/-- The run has a denial, a window that is reset and a route below a prefix. -/
theorem lawful_sampleRun : sampleLimiter.Lawful sampleRun := by
  refine (lawful_iff sampleLimiter sampleRun (by decide +kernel)).2
    ⟨sampleRun_calls, fun request hmem _ p hp hstart hlongest => .inl ?_⟩
  obtain rfl := List.mem_singleton.1 hp
  simp only [sampleRun, List.mem_cons, List.not_mem_nil, or_false] at hmem
  rcases hmem with rfl | rfl | rfl | rfl
  · exact absurd hstart (by decide +kernel)
  · exact absurd hstart (by decide +kernel)
  · exact absurd hstart (by decide +kernel)
  · decide +kernel

/-- A second and a half before the end of the window one second is announced; a route is held to the
policy of another one that begins its last segment; and a difference is rounded up to a minute. -/
theorem law_broken :
    ¬sampleLimiter.Lawful [sampleRequest 0 (by decide +kernel) "/v1/missions",
        sampleRequest (1 / 2) (by decide +kernel) "/v1/missions"] ∧
      ¬sampleLimiter.Lawful [sampleRequest 0 (by decide +kernel) "/v1/webhooks2"] ∧
      ¬minuteLimiter.Lawful [sampleRequest earlyReading (by decide +kernel) "/v1/missions",
        sampleRequest lateReading (by decide +kernel) "/v1/missions"] := by
  refine ⟨fun h => ?_, fun h => ?_, fun h => ?_⟩
  · obtain ⟨seconds, hseconds, hallowed⟩ := h.retry
      [sampleRequest 0 (by decide +kernel) "/v1/missions"]
      (sampleRequest (1 / 2) (by decide +kernel) "/v1/missions") [] rfl ⟨false, 0, some 1⟩
      (by decide +kernel) rfl
    obtain rfl := Option.some.inj hseconds
    exact absurd (hallowed [] (by simp) ⟨3 / 2, by decide +kernel⟩ (by decide +kernel))
      (by decide +kernel)
  · rcases h.policy _ List.mem_cons_self rfl with ⟨p, hp, hboundary, -⟩ | ⟨hlimits, -⟩
    · obtain rfl := List.mem_singleton.1 hp
      exact absurd hboundary (by decide +kernel)
    · exact absurd hlimits (by decide +kernel)
  · have hlate := h.keepsTime (by decide +kernel)
      [sampleRequest earlyReading (by decide +kernel) "/v1/missions"]
      (sampleRequest lateReading (by decide +kernel) "/v1/missions") [] rfl 1
      ⟨earlyReading, by decide +kernel⟩ (by decide +kernel)
    exact absurd hlate (by decide +kernel)

end Samples

end Ajenda.RateLimit
