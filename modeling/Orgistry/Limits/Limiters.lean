import Orgistry.FixedWindow.Admission
import Orgistry.Model.RateLimit
import Mathlib.Tactic.Linarith

/-!
# The limiters agree

A counter of Redis with its expiry and a window of the in-memory limiter hold the same
numbers, from the hit that begins the window until the instant at which it ends.  Both
limiters therefore decide every call alike, and either admits at most two windows' worth
in an interval as long as a window.
-/

namespace Orgistry.Model

variable {now later : ℤ} {redis redis' : Redis} {windows : LimitWindows} {call : ConsumeCall}
  {calls : List ConsumeCall} {key other : String} {limit windowSeconds count : ℤ}

namespace Redis

/-- The store in which `key` holds `counter`. -/
def set (redis : Redis) (key : String) (counter : Counter) : Redis :=
  { redis with counters := Function.update redis.counters key (some counter) }

theorem counters_readAt (redis : Redis) (now : ℤ) (key : String) :
    (redis.readAt now).counters key = (redis.counters key).filter fun counter =>
      counter.expiresAt.all fun instant => decide (now < instant) := rfl

theorem counters_set_self (redis : Redis) (key : String) (counter : Counter) :
    (redis.set key counter).counters key = some counter :=
  Function.update_self ..

theorem counters_set_of_ne (h : other ≠ key) (redis : Redis) (counter : Counter) :
    (redis.set key counter).counters other = redis.counters other :=
  Function.update_of_ne h ..

theorem counters_readAt_readAt (h : now ≤ later) (redis : Redis) (key : String) :
    ((redis.readAt now).readAt later).counters key = (redis.readAt later).counters key := by
  simp only [counters_readAt, Option.filter_filter]
  congr 1
  funext counter
  cases counter.expiresAt with
  | none => rfl
  | some instant =>
      simp only [Option.all_some, ← Bool.decide_and, decide_eq_decide]
      omega

/-- The first hit: the key is set and expires with its window. -/
theorem run_consume_of_none (hkey : redis.counters key = none) (hwindow : 0 < windowSeconds) :
    (consume key limit windowSeconds).run redis =
      (decideLimit 1 limit,
        redis.set key ⟨1, some (redis.clock + windowSeconds * 1000)⟩) := by
  have hincr : redis.incr key = some (1, redis.set key ⟨1, none⟩) := by
    rw [incr, hkey]
    rfl
  rw [consume, LimiterCall.run, hincr]
  dsimp only
  rw [if_pos rfl, LimiterCall.run, expire, counters_set_self]
  dsimp only
  rw [if_neg (not_le.mpr hwindow), LimiterCall.run, set, set, Function.update_idem]

/-- A later hit.  An increment out of the range of the counters is an error, and the call
is unavailable. -/
theorem run_consume_of_some {expiresAt : Option ℤ}
    (hkey : redis.counters key = some ⟨count, expiresAt⟩) (hcount : 0 < count)
    (hdecided : ((consume key limit windowSeconds).run redis).1 ≠ .unavailable) :
    (consume key limit windowSeconds).run redis =
      (decideLimit (count + 1) limit, redis.set key ⟨count + 1, expiresAt⟩) := by
  have hlater : count + 1 ≠ 1 := by omega
  rw [consume, LimiterCall.run, incr, hkey] at hdecided ⊢
  dsimp only [Option.getD_some] at hdecided ⊢
  by_cases hrange : count < 9223372036854775807
  · rw [if_pos hrange]
    dsimp only
    rw [if_neg hlater]
    rfl
  · rw [if_neg hrange] at hdecided
    exact absurd rfl hdecided

end Redis

/-- The first hit, or the first after the window has ended. -/
theorem consume_inMemory_of_ended
    (hended : ∀ window, windows call.key = some window → window.resetAtMs ≤ call.now) :
    createInMemoryRateLimiter.consume windows call =
      (decideLimit 1 call.limit, Function.update windows call.key
        (some ⟨1, call.now + call.windowSeconds * 1000⟩)) := by
  rw [createInMemoryRateLimiter]
  dsimp only
  cases hkey : windows call.key with
  | none => rfl
  | some window => exact if_pos (hended window hkey)

theorem consume_inMemory_of_running {window : LimitWindow}
    (hkey : windows call.key = some window) (hrunning : call.now < window.resetAtMs) :
    createInMemoryRateLimiter.consume windows call =
      (decideLimit (window.count + 1) call.limit, Function.update windows call.key
        (some { window with count := window.count + 1 })) := by
  rw [createInMemoryRateLimiter]
  dsimp only
  rw [hkey]
  exact if_neg (not_le.mpr hrunning)

/-- At the instant `now`, both stores hold the same counts with the same ends. -/
structure SameWindows (now : ℤ) (redis : Redis) (windows : LimitWindows) : Prop where
  counters : ∀ key, (redis.readAt now).counters key =
    ((windows key).filter fun window => decide (now < window.resetAtMs)).map fun window =>
      ⟨window.count, some window.resetAtMs⟩
  positive : ∀ key window, windows key = some window → 0 < window.count

theorem sameWindows_empty (now clock : ℤ) : SameWindows now (Redis.empty clock) fun _ => none where
  counters _ := rfl
  positive _ _ h := by cases h

namespace SameWindows

/-- Windows that agree go on agreeing while time passes. -/
theorem mono (h : SameWindows now redis windows) (hlater : now ≤ later) :
    SameWindows later redis windows where
  counters key := by
    rw [← Redis.counters_readAt_readAt hlater, Redis.counters_readAt, h.counters key]
    cases windows key with
    | none => rfl
    | some window =>
        simp only [Option.filter_some, decide_eq_true_eq]
        by_cases hreset : later < window.resetAtMs
        · rw [if_pos hreset, if_pos (hlater.trans_lt hreset)]
          simp [hreset]
        · rw [if_neg hreset]
          split
          · simp [hreset]
          · rfl
  positive := h.positive

/-- The same window, begun or counted on in both stores. -/
theorem set (h : SameWindows now redis windows) (key : String) (window : LimitWindow)
    (hcount : 0 < window.count) :
    SameWindows now ((redis.readAt now).set key ⟨window.count, some window.resetAtMs⟩)
      (Function.update windows key (some window)) where
  counters other := by
    by_cases hkey : other = key
    · subst hkey
      rw [Redis.counters_readAt, Redis.counters_set_self, Function.update_self]
      simp only [Option.filter_some, Option.all_some, decide_eq_true_eq]
      split <;> rfl
    · rw [Redis.counters_readAt, Redis.counters_set_of_ne hkey, Function.update_of_ne hkey,
        ← Redis.counters_readAt, Redis.counters_readAt_readAt le_rfl, h.counters]
  positive other found hfound := by
    by_cases hkey : other = key
    · subst hkey
      rw [Function.update_self] at hfound
      cases hfound
      exact hcount
    · rw [Function.update_of_ne hkey] at hfound
      exact h.positive other found hfound

/-- Both limiters decide a call alike and go on with the same windows. -/
theorem consume (h : SameWindows call.now redis windows) (hwindow : 0 < call.windowSeconds)
    (hdecided : (createRedisRateLimiter.consume redis call).1 ≠ .unavailable) :
    (createInMemoryRateLimiter.consume windows call).1 =
        (createRedisRateLimiter.consume redis call).1 ∧
      SameWindows call.now (createRedisRateLimiter.consume redis call).2
        (createInMemoryRateLimiter.consume windows call).2 := by
  have hcounters := h.counters call.key
  by_cases hrunning : ∃ window, windows call.key = some window ∧ call.now < window.resetAtMs
  · obtain ⟨window, hkey, hreset⟩ := hrunning
    rw [hkey, Option.filter_some, if_pos (decide_eq_true hreset), Option.map_some] at hcounters
    have hpositive := h.positive _ _ hkey
    have hredis : createRedisRateLimiter.consume redis call =
        (decideLimit (window.count + 1) call.limit,
          (redis.readAt call.now).set call.key ⟨window.count + 1, some window.resetAtMs⟩) :=
      Redis.run_consume_of_some hcounters hpositive hdecided
    rw [hredis, consume_inMemory_of_running hkey hreset]
    exact ⟨rfl, h.set call.key ⟨window.count + 1, _⟩ (by dsimp only; omega)⟩
  · have hended : ∀ window, windows call.key = some window → window.resetAtMs ≤ call.now :=
      fun window hkey => not_lt.mp fun hreset => hrunning ⟨window, hkey, hreset⟩
    have hnone : (redis.readAt call.now).counters call.key = none := by
      rw [hcounters]
      cases hkey : windows call.key with
      | none => rfl
      | some window =>
          rw [Option.filter_some,
            if_neg (by simpa only [decide_eq_true_eq] using not_lt.mpr (hended window hkey))]
          rfl
    have hredis : createRedisRateLimiter.consume redis call =
        (decideLimit 1 call.limit, (redis.readAt call.now).set call.key
          ⟨1, some (call.now + call.windowSeconds * 1000)⟩) :=
      Redis.run_consume_of_none hnone hwindow
    rw [hredis, consume_inMemory_of_ended hended]
    exact ⟨rfl, h.set call.key ⟨1, _⟩ one_pos⟩

end SameWindows

/-- By induction on the calls: both limiters decide alike and stay alike. -/
theorem decisions_eq (hsame : SameWindows now redis windows) (hnow : ∀ call ∈ calls, now ≤ call.now)
    (hsorted : calls.Pairwise (·.now ≤ ·.now)) (hwindows : ∀ call ∈ calls, 0 < call.windowSeconds)
    (hdecided : .unavailable ∉ createRedisRateLimiter.decisions redis calls) :
    createInMemoryRateLimiter.decisions windows calls =
      createRedisRateLimiter.decisions redis calls := by
  induction calls generalizing now redis windows with
  | nil => rfl
  | cons call calls ih =>
      obtain ⟨hlater, hsorted⟩ := List.pairwise_cons.mp hsorted
      obtain ⟨hwindow, hwindows⟩ := List.forall_mem_cons.mp hwindows
      rw [RateLimiter.decisions, List.mem_cons, not_or] at hdecided
      have hstep := (hsame.mono (hnow call (List.mem_cons_self ..))).consume hwindow
        (Ne.symm hdecided.1)
      rw [RateLimiter.decisions, RateLimiter.decisions, hstep.1,
        ih hstep.2 hlater hsorted hwindows hdecided.2]

/-- The window of the library that a window of the limiter is. -/
def LimitWindow.toWindow (window : LimitWindow) : FixedWindow.Window ℤ :=
  ⟨window.count, window.resetAtMs⟩

/-- The instants of the calls for `key`. -/
def hitsOf (key : String) (calls : List ConsumeCall) : List ℤ :=
  (calls.filter (·.key = key)).map (·.now)

/-- A call is a hit of its key's window. -/
theorem consume_inMemory_hit (windows : LimitWindows) (call : ConsumeCall) :
    ∃ window, createInMemoryRateLimiter.consume windows call =
        (decideLimit window.count call.limit, Function.update windows call.key (some window)) ∧
      window.toWindow = FixedWindow.hit (call.windowSeconds * 1000) call.now
        ((windows call.key).map LimitWindow.toWindow) := by
  cases hkey : windows call.key with
  | none =>
      refine ⟨⟨1, call.now + call.windowSeconds * 1000⟩, ?_, rfl⟩
      exact consume_inMemory_of_ended fun window hwindow => by
        rw [hkey] at hwindow
        cases hwindow
  | some window =>
      by_cases hreset : window.resetAtMs ≤ call.now
      · refine ⟨⟨1, call.now + call.windowSeconds * 1000⟩, ?_, (if_pos hreset).symm⟩
        exact consume_inMemory_of_ended fun _ hwindow => by
          rw [hkey] at hwindow
          cases hwindow
          exact hreset
      · refine ⟨{ window with count := window.count + 1 }, ?_, (if_neg hreset).symm⟩
        exact consume_inMemory_of_running hkey (not_le.mp hreset)

theorem decideLimit_eq_allowed : decideLimit count limit = .allowed ↔ count ≤ limit := by
  rw [decideLimit]
  split <;> simp [*]

theorem hitsOf_cons_self (hkey : call.key = key) (calls : List ConsumeCall) :
    hitsOf key (call :: calls) = call.now :: hitsOf key calls := by
  rw [hitsOf, List.filter_cons, if_pos (decide_eq_true hkey)]
  rfl

theorem hitsOf_cons_of_ne (hkey : call.key ≠ key) (calls : List ConsumeCall) :
    hitsOf key (call :: calls) = hitsOf key calls := by
  rw [hitsOf, List.filter_cons_of_neg (by simpa only [decide_eq_true_eq] using hkey)]
  rfl

theorem admissions_cons {σ : Type} (limiter : RateLimiter σ) (key : String) (start stop : ℤ)
    (state : σ) (call : ConsumeCall) (calls : List ConsumeCall) :
    limiter.admissions key start stop state (call :: calls) =
      (if call.key = key ∧ start ≤ call.now ∧ call.now < stop ∧
          (limiter.consume state call).1 = .allowed then 1 else 0) +
        limiter.admissions key start stop (limiter.consume state call).2 calls := by
  rw [RateLimiter.admissions, RateLimiter.decisions, List.zip_cons_cons, List.countP_cons, add_comm]
  simp only [decide_eq_true_eq]
  rfl

/-- What the limiter admits is what a fixed window admits. -/
theorem admissions_inMemory (start stop : ℤ)
    (hcalls : ∀ call ∈ calls, call.key = key →
      call.limit = limit ∧ call.windowSeconds = windowSeconds) :
    createInMemoryRateLimiter.admissions key start stop windows calls =
      FixedWindow.admitted (windowSeconds * 1000) start stop limit
        ((windows key).map LimitWindow.toWindow) (hitsOf key calls) := by
  induction calls generalizing windows with
  | nil => rfl
  | cons call calls ih =>
      obtain ⟨hcall, hcalls⟩ := List.forall_mem_cons.mp hcalls
      obtain ⟨window, hconsume, hwindow⟩ := consume_inMemory_hit windows call
      rw [admissions_cons, ih hcalls, hconsume]
      dsimp only
      by_cases hkey : call.key = key
      · subst hkey
        obtain ⟨rfl, rfl⟩ := hcall rfl
        rw [hitsOf_cons_self rfl, FixedWindow.admitted, ← hwindow, Function.update_self]
        simp only [decideLimit_eq_allowed, true_and]
        rfl
      · rw [hitsOf_cons_of_ne hkey, Function.update_of_ne (Ne.symm hkey),
          if_neg fun hin => hkey hin.1, zero_add]

theorem hitsOf_pairwise (hsorted : calls.Pairwise (·.now ≤ ·.now)) (key : String) :
    (hitsOf key calls).Pairwise (· ≤ ·) :=
  List.pairwise_map.mpr (hsorted.filter _)

theorem admissions_inMemory_le (start : ℤ) (hwindow : 0 < windowSeconds)
    (hsorted : calls.Pairwise (·.now ≤ ·.now))
    (hcalls : ∀ call ∈ calls, call.key = key →
      call.limit = limit ∧ call.windowSeconds = windowSeconds) :
    createInMemoryRateLimiter.admissions key start (start + windowSeconds * 1000)
      (fun _ => none) calls ≤ 2 * limit.toNat := by
  rw [admissions_inMemory start _ hcalls]
  exact FixedWindow.admitted_le (by omega) (hitsOf_pairwise hsorted key)

/-- Without a failure of Redis, both limiters give the same decision at each call, and
either admits at most twice the limit in an interval one window long. -/
theorem inMemory_agrees_with_redis (clock : ℤ) (calls : List ConsumeCall)
    (hsorted : calls.Pairwise (·.now ≤ ·.now)) (hwindows : ∀ call ∈ calls, 0 < call.windowSeconds)
    (hdecided : .unavailable ∉ createRedisRateLimiter.decisions (Redis.empty clock) calls) :
    createInMemoryRateLimiter.decisions (fun _ => none) calls =
        createRedisRateLimiter.decisions (Redis.empty clock) calls ∧
      ∀ (key : String) (limit windowSeconds start : ℤ), 0 < windowSeconds →
        (∀ call ∈ calls, call.key = key →
          call.limit = limit ∧ call.windowSeconds = windowSeconds) →
        createInMemoryRateLimiter.admissions key start (start + windowSeconds * 1000)
            (fun _ => none) calls ≤ 2 * limit.toNat ∧
          createRedisRateLimiter.admissions key start (start + windowSeconds * 1000)
            (Redis.empty clock) calls ≤ 2 * limit.toNat := by
  have hagree : createInMemoryRateLimiter.decisions (fun _ => none) calls =
      createRedisRateLimiter.decisions (Redis.empty clock) calls := by
    cases calls with
    | nil => rfl
    | cons call calls =>
        refine decisions_eq (sameWindows_empty call.now clock) ?_ hsorted hwindows hdecided
        exact List.forall_mem_cons.mpr ⟨le_rfl, (List.pairwise_cons.mp hsorted).1⟩
  refine ⟨hagree, fun key limit windowSeconds start hwindow hcalls => ?_⟩
  have hbound := admissions_inMemory_le start hwindow hsorted hcalls
  refine ⟨hbound, ?_⟩
  rw [RateLimiter.admissions, hagree] at hbound
  exact hbound

/-- Calls within one window, at its end and under another key. -/
theorem inMemory_agrees_with_redis_at_reset :
    let calls : List ConsumeCall :=
      [⟨0, "login:ip", 1, 60⟩, ⟨59999, "login:ip", 1, 60⟩, ⟨60000, "login:ip", 1, 60⟩,
        ⟨60000, "register:ip", 2, 30⟩]
    createInMemoryRateLimiter.decisions (fun _ => none) calls =
        createRedisRateLimiter.decisions (Redis.empty 0) calls ∧
      createRedisRateLimiter.admissions "login:ip" 1 (1 + 60 * 1000) (Redis.empty 0) calls ≤ 2 := by
  have h := inMemory_agrees_with_redis 0
    [⟨0, "login:ip", 1, 60⟩, ⟨59999, "login:ip", 1, 60⟩, ⟨60000, "login:ip", 1, 60⟩,
      ⟨60000, "register:ip", 2, 30⟩] (by decide) (by decide) (by decide +kernel)
  exact ⟨h.1, (h.2 "login:ip" 1 60 1 (by decide) (by decide +kernel)).2⟩

end Orgistry.Model
