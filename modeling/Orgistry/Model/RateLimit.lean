import Mathlib.Data.List.Basic
import Mathlib.Data.Int.Order.Basic
import Mathlib.Logic.Function.Basic

/-!
# The rate limiters

`createRedisRateLimiter` of `rate-limit.ts` on the part of Redis that it uses:
counters under string keys, `INCR`, `EXPIRE` and the passing of time.  Any
number of `consume` calls are in progress at once, and a command may fail at any
point, whether or not the server has carried it out.

Under `RateLimiter`, calls are made one after another and each at an instant of its
own; there `createInMemoryRateLimiter` stands beside the Redis limiter.
-/

namespace Orgistry.Model

inductive RateLimitDecision
  | allowed
  | limited
  | unavailable
  deriving DecidableEq

/-- A stored count, and the instant in milliseconds at which its key expires. -/
structure Counter where
  count : ℤ
  expiresAt : Option ℤ
  deriving DecidableEq

/-- The counter is past its expiry. -/
def Counter.expired (counter : Counter) (clock : ℤ) : Bool :=
  match counter.expiresAt with
  | none => false
  | some instant => decide (instant < clock)

structure Redis where
  counters : String → Option Counter
  clock : ℤ

namespace Redis

/-- `INCR`: the count after the increment, or an error when it leaves the range
of 64-bit integers.  It keeps the time to live. -/
def incr (redis : Redis) (key : String) : Option (ℤ × Redis) :=
  let counter := (redis.counters key).getD ⟨0, none⟩
  if counter.count < 9223372036854775807 then
    some (counter.count + 1,
      { redis with
        counters := Function.update redis.counters key
          (some { counter with count := counter.count + 1 }) })
  else none

/-- `EXPIRE`: nothing happens to a key that is not there, and an instant that
has passed deletes the key. -/
def expire (redis : Redis) (key : String) (seconds : ℤ) : Redis :=
  match redis.counters key with
  | none => redis
  | some counter =>
      { redis with
        counters := Function.update redis.counters key
          (if seconds ≤ 0 then none
          else some { counter with expiresAt := some (redis.clock + seconds * 1000) }) }

/-- Time passes, and expired keys are gone. -/
def advance (redis : Redis) (millis : ℕ) : Redis where
  counters key := (redis.counters key).filter fun counter =>
    !counter.expired (redis.clock + millis)
  clock := redis.clock + millis

end Redis

/-- A client of the limiter at its next command; an error of the command goes to
the `catch` block. -/
inductive LimiterCall
  | incr (key : String) (reply : ℤ → LimiterCall) (caught : LimiterCall)
  | expire (key : String) (seconds : ℤ) (reply caught : LimiterCall)
  | decided (decision : RateLimitDecision)

/-- The limiter's answer to the post-increment count. -/
def decideLimit (count limit : ℤ) : RateLimitDecision :=
  if count ≤ limit then .allowed else .limited

/-- `consume` of `createRedisRateLimiter`. -/
def consume (key : String) (limit windowSeconds : ℤ) : LimiterCall :=
  .incr key
    (fun count =>
      if count = 1 then
        .expire key windowSeconds (.decided (decideLimit count limit)) (.decided .unavailable)
      else .decided (decideLimit count limit))
    (.decided .unavailable)

/-- The store, and all calls ever made. -/
structure LimiterState where
  redis : Redis
  calls : List LimiterCall

inductive LimiterAction
  | consume (key : String) (limit windowSeconds : ℤ)
  /-- The next command of call `i` is carried out and answered. -/
  | answer (i : ℕ)
  /-- The next command of call `i` fails; `applied` says whether the server has
  carried it out all the same. -/
  | fail (i : ℕ) (applied : Bool)
  | tick (millis : ℕ)

namespace LimiterState

/-- Call `i` has come to `call`. -/
def proceed (s : LimiterState) (i : ℕ) (redis : Redis) (call : LimiterCall) : LimiterState :=
  ⟨redis, s.calls.set i call⟩

def step (s : LimiterState) : LimiterAction → Option LimiterState
  | .consume key limit windowSeconds =>
      some ⟨s.redis, s.calls ++ [Model.consume key limit windowSeconds]⟩
  | .answer i =>
      match s.calls[i]? with
      | some (.incr key reply caught) =>
          match s.redis.incr key with
          | some (count, redis) => some (s.proceed i redis (reply count))
          | none => some (s.proceed i s.redis caught)
      | some (.expire key seconds reply _) =>
          some (s.proceed i (s.redis.expire key seconds) reply)
      | _ => none
  | .fail i applied =>
      match s.calls[i]? with
      | some (.incr key _ caught) =>
          if applied then
            match s.redis.incr key with
            | some (_, redis) => some (s.proceed i redis caught)
            | none => none
          else some (s.proceed i s.redis caught)
      | some (.expire key seconds _ caught) =>
          some (s.proceed i (if applied then s.redis.expire key seconds else s.redis) caught)
      | _ => none
  | .tick millis => some ⟨s.redis.advance millis, s.calls⟩

/-- The states that `s` reaches by steps that are all `ok`. -/
inductive Reaches (ok : LimiterState → LimiterAction → Prop) (s : LimiterState) :
    LimiterState → Prop
  | refl : Reaches ok s s
  | step {s' s'' : LimiterState} {a : LimiterAction} :
      Reaches ok s s' → s'.step a = some s'' → ok s' a → Reaches ok s s''

end LimiterState

/-- A call of `consume` at the instant `now`, in milliseconds. -/
structure ConsumeCall where
  now : ℤ
  key : String
  limit : ℤ
  windowSeconds : ℤ

/-- A limiter whose store is in a state of `σ`. -/
structure RateLimiter (σ : Type) where
  consume : σ → ConsumeCall → RateLimitDecision × σ

/-- The decisions of the calls, in their order. -/
def RateLimiter.decisions {σ : Type} (limiter : RateLimiter σ) :
    σ → List ConsumeCall → List RateLimitDecision
  | _, [] => []
  | state, call :: calls =>
      (limiter.consume state call).1 :: limiter.decisions (limiter.consume state call).2 calls

/-- The calls for `key` from `start` on and before `stop` that are allowed. -/
def RateLimiter.admissions {σ : Type} (limiter : RateLimiter σ) (key : String) (start stop : ℤ)
    (state : σ) (calls : List ConsumeCall) : ℕ :=
  (calls.zip (limiter.decisions state calls)).countP fun (call, decision) =>
    call.key = key ∧ start ≤ call.now ∧ call.now < stop ∧ decision = .allowed

namespace Redis

/-- The store at the instant `now`: a key is gone from the instant its time to live has
elapsed. -/
def readAt (redis : Redis) (now : ℤ) : Redis where
  counters key := (redis.counters key).filter fun counter =>
    counter.expiresAt.all fun instant => decide (now < instant)
  clock := now

/-- A store without keys. -/
def empty (clock : ℤ) : Redis := ⟨fun _ => none, clock⟩

end Redis

/-- The call whose commands are all answered, at one instant. -/
def LimiterCall.run : LimiterCall → Redis → RateLimitDecision × Redis
  | .incr key reply caught, redis =>
      match redis.incr key with
      | some (count, redis) => (reply count).run redis
      | none => caught.run redis
  | .expire key seconds reply _, redis => reply.run (redis.expire key seconds)
  | .decided decision, redis => (decision, redis)

/-- `createRedisRateLimiter`. -/
def createRedisRateLimiter : RateLimiter Redis where
  consume redis call := (consume call.key call.limit call.windowSeconds).run (redis.readAt call.now)

structure LimitWindow where
  count : ℤ
  resetAtMs : ℤ
  deriving DecidableEq

/-- The `windows` of `createInMemoryRateLimiter`. -/
abbrev LimitWindows := String → Option LimitWindow

/-- `createInMemoryRateLimiter`. -/
def createInMemoryRateLimiter : RateLimiter LimitWindows where
  consume windows call :=
    let fresh : LimitWindow := ⟨1, call.now + call.windowSeconds * 1000⟩
    match windows call.key with
    | none => (decideLimit 1 call.limit, Function.update windows call.key (some fresh))
    | some existing =>
        if existing.resetAtMs ≤ call.now then
          (decideLimit 1 call.limit, Function.update windows call.key (some fresh))
        else
          (decideLimit (existing.count + 1) call.limit,
            Function.update windows call.key
              (some { existing with count := existing.count + 1 }))

end Orgistry.Model
