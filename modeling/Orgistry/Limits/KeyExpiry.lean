import Orgistry.Model.RateLimit
import Mathlib.Tactic.Common

/-!
# Limiter keys and their expiry

The counter and its expiry are two commands.  Every positive counter expires as
long as no failure comes between them, and the first failure that does leaves a
key behind that never expires.
-/

namespace Orgistry.Model

namespace Redis

variable {redis redis' : Redis} {key : String} {count : ℤ}

theorem incr_eq_some (h : redis.incr key = some (count, redis')) :
    count = ((redis.counters key).getD ⟨0, none⟩).count + 1 ∧
      redis'.counters = Function.update redis.counters key
        (some ⟨count, ((redis.counters key).getD ⟨0, none⟩).expiresAt⟩) := by
  simp only [incr] at h
  split at h
  · cases h
    exact ⟨rfl, rfl⟩
  · cases h

/-- A count of one on positive counters means that the key was not there. -/
theorem counters_of_first_hit (hpositive : ∀ counter, redis.counters key = some counter →
    0 < counter.count) (h : redis.incr key = some (1, redis')) : redis.counters key = none := by
  cases hkey : redis.counters key with
  | none => rfl
  | some counter =>
      have hcount := (incr_eq_some h).1
      have hpos := hpositive counter hkey
      simp only [hkey, Option.getD_some] at hcount
      omega

/-- A later hit keeps the time to live that the key has. -/
theorem counters_of_later_hit (h : redis.incr key = some (count, redis')) (hcount : count ≠ 1) :
    ∃ expiresAt, redis'.counters = Function.update redis.counters key (some ⟨count, expiresAt⟩) ∧
      ∃ before, redis.counters key = some ⟨before, expiresAt⟩ := by
  obtain ⟨hnext, hcounters⟩ := incr_eq_some h
  cases hkey : redis.counters key with
  | none =>
      simp only [hkey, Option.getD_none] at hnext
      omega
  | some counter =>
      refine ⟨counter.expiresAt, ?_, counter.count, rfl⟩
      rw [hcounters, hkey]
      rfl

/-- Whatever the number of seconds, the key expires or is gone. -/
theorem counters_expire (redis : Redis) (key : String) (seconds : ℤ) :
    ∃ answer, (redis.expire key seconds).counters = Function.update redis.counters key answer ∧
      ∀ counter, answer = some counter → counter.expiresAt ≠ none ∧
        ∃ before, redis.counters key = some before ∧ counter.count = before.count := by
  unfold expire
  split
  · next hkey => exact ⟨none, by rw [Function.update_eq_self_iff.mpr hkey.symm], by simp⟩
  · next before hkey =>
      refine ⟨_, rfl, ?_⟩
      split
      · simp
      · rintro counter ⟨⟩
        exact ⟨by simp, before, hkey, rfl⟩

theorem counters_advance {millis : ℕ} {counter : Counter}
    (h : (redis.advance millis).counters key = some counter) :
    redis.counters key = some counter :=
  (Option.filter_eq_some_iff.mp h).1

/-- Time cannot remove a key without an expiry. -/
theorem counters_advance_of_persistent {millis : ℕ} {counter : Counter}
    (h : redis.counters key = some counter) (hpersistent : counter.expiresAt = none) :
    (redis.advance millis).counters key = some counter := by
  refine Option.filter_eq_some_iff.mpr ⟨h, ?_⟩
  simp [Counter.expired, hpersistent]

end Redis

namespace LimiterState

/-- Call `i` is about to set the expiry of the key. -/
def AboutToExpire (s : LimiterState) (i : ℕ) (key : String) : Prop :=
  ∃ seconds reply caught, s.calls[i]? = some (.expire key seconds reply caught)

/-- Every positive counter expires, or the call that started it is about to set
its expiry. -/
def KeysExpire (s : LimiterState) : Prop :=
  ∀ ⦃key : String⦄ ⦃counter : Counter⦄, s.redis.counters key = some counter →
    0 < counter.count → counter.expiresAt ≠ none ∨ ∃ i, s.AboutToExpire i key

/-- The failing command is neither a first hit that the server has counted nor
an expiry that the server has not set. -/
def SparesFirstHits (s : LimiterState) : LimiterAction → Prop
  | .fail i applied =>
      match s.calls[i]? with
      | some (.incr key _ _) => applied → ∀ redis, s.redis.incr key ≠ some (1, redis)
      | some (.expire _ _ _ _) => applied
      | _ => True
  | _ => True

/-- A store that only limiters have written to, and no calls yet. -/
structure Idle (s : LimiterState) : Prop where
  expiring : ∀ ⦃key counter⦄, s.redis.counters key = some counter →
    0 < counter.count ∧ counter.expiresAt ≠ none
  calls : s.calls = []

/-- A call of `consume`, at one of its commands. -/
inductive FromConsume : LimiterCall → Prop
  | start (key : String) (limit windowSeconds : ℤ) :
      FromConsume (consume key limit windowSeconds)
  | expiry (key : String) (windowSeconds : ℤ) (decision : RateLimitDecision) :
      FromConsume (.expire key windowSeconds (.decided decision) (.decided .unavailable))
  | decided (decision : RateLimitDecision) : FromConsume (.decided decision)

/-- All calls are calls of `consume`. -/
def Serving (s : LimiterState) : Prop :=
  ∀ ⦃i : ℕ⦄ ⦃call : LimiterCall⦄, s.calls[i]? = some call → FromConsume call

/-- The invariant: a counter without an expiry belongs to exactly one call,
which is about to set it. -/
structure Tended (s : LimiterState) : Prop where
  positive : ∀ ⦃key counter⦄, s.redis.counters key = some counter → 0 < counter.count
  serving : s.Serving
  unset : ∀ ⦃i key⦄, s.AboutToExpire i key →
    ∃ counter, s.redis.counters key = some counter ∧ counter.expiresAt = none
  alone : ∀ ⦃i j key⦄, s.AboutToExpire i key → s.AboutToExpire j key → i = j
  expire : s.KeysExpire

/-- A key with a count that nobody will ever give an expiry. -/
structure Stuck (s : LimiterState) (key : String) : Prop where
  persistent : ∃ counter, s.redis.counters key = some counter ∧ 0 < counter.count ∧
    counter.expiresAt = none
  abandoned : ∀ i, ¬s.AboutToExpire i key

variable {s s' : LimiterState} {i j : ℕ} {key key' : String} {redis : Redis}

theorem aboutToExpire_proceed {call : LimiterCall} :
    (s.proceed i redis call).AboutToExpire j key ↔
      (j = i ∧ i < s.calls.length ∧ ∃ seconds reply caught,
        call = .expire key seconds reply caught) ∨ (j ≠ i ∧ s.AboutToExpire j key) := by
  simp only [AboutToExpire, proceed, List.getElem?_set]
  by_cases hij : j = i
  · subst hij
    by_cases hlength : j < s.calls.length <;> simp [hlength]
  · simp [hij, Ne.symm hij]

theorem aboutToExpire_decided {decision : RateLimitDecision} :
    (s.proceed i redis (.decided decision)).AboutToExpire j key ↔
      j ≠ i ∧ s.AboutToExpire j key := by
  simp [aboutToExpire_proceed]

theorem AboutToExpire.key_eq (h : s.AboutToExpire i key) (h' : s.AboutToExpire i key') :
    key = key' := by
  obtain ⟨seconds, reply, caught, hcall⟩ := h
  obtain ⟨seconds', reply', caught', hcall'⟩ := h'
  rw [hcall] at hcall'
  cases hcall'
  rfl

theorem not_aboutToExpire_of_incr {reply : ℤ → LimiterCall} {caught : LimiterCall}
    (hcall : s.calls[i]? = some (.incr key' reply caught)) : ¬s.AboutToExpire i key := by
  rintro ⟨seconds, reply', caught', hexpire⟩
  rw [hcall] at hexpire
  cases hexpire

theorem Idle.tended (h : s.Idle) : s.Tended := by
  have hcalls : ∀ i : ℕ, s.calls[i]? = none := by simp [h.calls]
  have hnone : ∀ i key, ¬s.AboutToExpire i key := by
    rintro i key ⟨seconds, reply, caught, hcall⟩
    rw [hcalls] at hcall
    cases hcall
  constructor
  · exact fun key counter hkey => (h.expiring hkey).1
  · intro i call hcall
    rw [hcalls] at hcall
    cases hcall
  · exact fun i key hi => absurd hi (hnone i key)
  · exact fun i j key hi => absurd hi (hnone i key)
  · exact fun key counter hkey _ => .inl (h.expiring hkey).2

theorem Serving.proceed (h : s.Serving) {call : LimiterCall} (hcall : FromConsume call) :
    (s.proceed i redis call).Serving := by
  intro j other hother
  simp only [LimiterState.proceed, List.getElem?_set] at hother
  split at hother
  · split at hother
    · cases hother
      exact hcall
    · cases hother
  · exact h hother

theorem Serving.consume (h : s.Serving) (key : String) (limit windowSeconds : ℤ) :
    (⟨s.redis, s.calls ++ [Model.consume key limit windowSeconds]⟩ : LimiterState).Serving := by
  intro i call hcall
  change (s.calls ++ _)[i]? = some call at hcall
  rw [List.getElem?_append] at hcall
  split at hcall
  · exact h hcall
  · rw [List.getElem?_singleton] at hcall
    split at hcall
    · cases hcall
      exact .start key limit windowSeconds
    · cases hcall

theorem aboutToExpire_consume {limit windowSeconds : ℤ} :
    (⟨s.redis, s.calls ++ [Model.consume key' limit windowSeconds]⟩ :
      LimiterState).AboutToExpire i key ↔ s.AboutToExpire i key := by
  simp only [AboutToExpire, List.getElem?_append]
  split
  · rfl
  · next hlength =>
      rw [List.getElem?_eq_none (Nat.le_of_not_lt hlength), List.getElem?_singleton]
      split <;> simp [Model.consume]

/-- Call `i` ends.  Every counter without an expiry belongs to another call. -/
theorem Tended.decide (h : s.Tended) (decision : RateLimitDecision)
    (hpositive : ∀ ⦃key counter⦄, redis.counters key = some counter → 0 < counter.count)
    (hunset : ∀ ⦃j key⦄, j ≠ i → s.AboutToExpire j key →
      ∃ counter, redis.counters key = some counter ∧ counter.expiresAt = none)
    (hexpire : ∀ ⦃key counter⦄, redis.counters key = some counter →
      counter.expiresAt ≠ none ∨ ∃ j, j ≠ i ∧ s.AboutToExpire j key) :
    (s.proceed i redis (.decided decision)).Tended where
  positive := hpositive
  serving := h.serving.proceed (.decided decision)
  unset j key hj := by
    obtain ⟨hne, hj⟩ := aboutToExpire_decided.mp hj
    exact hunset hne hj
  alone j k key hj hk := h.alone (aboutToExpire_decided.mp hj).2 (aboutToExpire_decided.mp hk).2
  expire key counter hkey _ :=
    (hexpire hkey).imp_right fun ⟨j, hj⟩ => ⟨j, aboutToExpire_decided.mpr hj⟩

/-- A command that the server has not carried out changes no counter. -/
theorem Tended.unchanged (h : s.Tended) {reply : ℤ → LimiterCall} {caught : LimiterCall}
    (hcall : s.calls[i]? = some (.incr key reply caught)) (decision : RateLimitDecision) :
    (s.proceed i s.redis (.decided decision)).Tended := by
  refine h.decide decision h.positive (fun j key _ hj => h.unset hj) fun key counter hkey => ?_
  refine (h.expire hkey (h.positive hkey)).imp_right fun ⟨j, hj⟩ => ⟨j, ?_, hj⟩
  rintro rfl
  exact not_aboutToExpire_of_incr hcall hj

/-- A hit on a key that is there. -/
theorem Tended.laterHit (h : s.Tended) {reply : ℤ → LimiterCall} {caught : LimiterCall}
    (hcall : s.calls[i]? = some (.incr key reply caught)) {count : ℤ}
    (hincr : s.redis.incr key = some (count, redis)) (hcount : count ≠ 1)
    (decision : RateLimitDecision) : (s.proceed i redis (.decided decision)).Tended := by
  obtain ⟨expiresAt, hcounters, before, hbefore⟩ := Redis.counters_of_later_hit hincr hcount
  have hpos : 0 < count := by
    have hnext := (Redis.incr_eq_some hincr).1
    have hold := h.positive hbefore
    rw [hbefore] at hnext
    simp only [Option.getD_some] at hnext hold
    omega
  -- a key has an expiry after the hit when it had one before
  have hlookup : ∀ key', ∃ f : ℤ → ℤ, redis.counters key' =
      (s.redis.counters key').map fun counter => ⟨f counter.count, counter.expiresAt⟩ := by
    intro key'
    rw [hcounters]
    by_cases hkey : key' = key
    · subst hkey
      exact ⟨fun _ => count, by simp [hbefore]⟩
    · exact ⟨id, by simp [hkey]⟩
  refine h.decide decision ?_ ?_ ?_
  · intro key' counter hkey
    rw [hcounters, Function.update_apply] at hkey
    split at hkey
    · cases hkey
      exact hpos
    · exact h.positive hkey
  · intro j key' _ hj
    obtain ⟨counter, hkey, hnone⟩ := h.unset hj
    obtain ⟨f, hf⟩ := hlookup key'
    exact ⟨⟨f counter.count, counter.expiresAt⟩, by rw [hf, hkey, Option.map_some], hnone⟩
  · intro key' counter hkey
    obtain ⟨f, hf⟩ := hlookup key'
    rw [hf, Option.map_eq_some_iff] at hkey
    obtain ⟨old, hold, rfl⟩ := hkey
    refine (h.expire hold (h.positive hold)).imp_right fun ⟨j, hj⟩ => ⟨j, ?_, hj⟩
    rintro rfl
    exact not_aboutToExpire_of_incr hcall hj

/-- The first hit of a window goes on to set the expiry. -/
theorem Tended.firstHit (h : s.Tended) {reply : ℤ → LimiterCall} {caught : LimiterCall}
    (hcall : s.calls[i]? = some (.incr key reply caught))
    (hincr : s.redis.incr key = some (1, redis)) (windowSeconds : ℤ)
    (decision : RateLimitDecision) :
    (s.proceed i redis
      (.expire key windowSeconds (.decided decision) (.decided .unavailable))).Tended := by
  have habsent := Redis.counters_of_first_hit (fun _ hkey => h.positive hkey) hincr
  have hcounters : redis.counters = Function.update s.redis.counters key (some ⟨1, none⟩) := by
    rw [(Redis.incr_eq_some hincr).2, habsent]
    rfl
  have hnobody : ∀ j, ¬s.AboutToExpire j key := by
    intro j hj
    obtain ⟨counter, hkey, -⟩ := h.unset hj
    rw [habsent] at hkey
    cases hkey
  have hlength : i < s.calls.length := (List.getElem?_eq_some_iff.mp hcall).1
  have habout : ∀ {j key'}, (s.proceed i redis (.expire key windowSeconds (.decided decision)
      (.decided .unavailable))).AboutToExpire j key' ↔
        (j = i ∧ key' = key) ∨ (j ≠ i ∧ s.AboutToExpire j key') := by
    intro j key'
    simp [aboutToExpire_proceed, hlength, eq_comm]
  constructor
  · intro key' counter hkey
    change redis.counters key' = some counter at hkey
    rw [hcounters, Function.update_apply] at hkey
    split at hkey
    · cases hkey
      exact Int.one_pos
    · exact h.positive hkey
  · exact h.serving.proceed (.expiry key windowSeconds decision)
  · intro j key' hj
    change ∃ counter, redis.counters key' = some counter ∧ _
    rw [hcounters]
    rcases habout.mp hj with ⟨-, rfl⟩ | ⟨-, hother⟩
    · exact ⟨_, Function.update_self _ _ _, rfl⟩
    · have hne : key' ≠ key := by
        rintro rfl
        exact hnobody j hother
      rw [Function.update_of_ne hne]
      exact h.unset hother
  · intro j k key' hj hk
    rcases habout.mp hj with ⟨rfl, rfl⟩ | ⟨-, hj'⟩
    · rcases habout.mp hk with ⟨rfl, -⟩ | ⟨-, hk'⟩
      · rfl
      · exact absurd hk' (hnobody k)
    · rcases habout.mp hk with ⟨rfl, rfl⟩ | ⟨-, hk'⟩
      · exact absurd hj' (hnobody j)
      · exact h.alone hj' hk'
  · intro key' counter hkey _
    change redis.counters key' = some counter at hkey
    rw [hcounters, Function.update_apply] at hkey
    split at hkey
    · next heq => exact .inr ⟨i, habout.mpr (.inl ⟨rfl, heq⟩)⟩
    · refine (h.expire hkey (h.positive hkey)).imp_right fun ⟨j, hj⟩ => ⟨j, habout.mpr ?_⟩
      refine .inr ⟨?_, hj⟩
      rintro rfl
      exact not_aboutToExpire_of_incr hcall hj

/-- The expiry is set. -/
theorem Tended.expirySet (h : s.Tended) {seconds : ℤ} {reply caught : LimiterCall}
    (hcall : s.calls[i]? = some (.expire key seconds reply caught))
    (decision : RateLimitDecision) :
    (s.proceed i (s.redis.expire key seconds) (.decided decision)).Tended := by
  obtain ⟨answer, hcounters, hanswer⟩ := Redis.counters_expire s.redis key seconds
  have hmine : s.AboutToExpire i key := ⟨seconds, reply, caught, hcall⟩
  refine h.decide decision ?_ ?_ ?_
  · intro key' counter hkey
    rw [hcounters, Function.update_apply] at hkey
    split at hkey
    · obtain ⟨-, before, hbefore, hcount⟩ := hanswer counter hkey
      rw [hcount]
      exact h.positive hbefore
    · exact h.positive hkey
  · intro j key' hne hj
    have hother : key' ≠ key := by
      rintro rfl
      exact hne (h.alone hj hmine)
    rw [hcounters, Function.update_of_ne hother]
    exact h.unset hj
  · intro key' counter hkey
    rw [hcounters, Function.update_apply] at hkey
    split at hkey
    · exact .inl (hanswer counter hkey).1
    · next hother =>
        refine (h.expire hkey (h.positive hkey)).imp_right fun ⟨j, hj⟩ => ⟨j, ?_, hj⟩
        rintro rfl
        exact hother (hj.key_eq hmine)

/-- Time passes. -/
theorem Tended.tick (h : s.Tended) (millis : ℕ) :
    (⟨s.redis.advance millis, s.calls⟩ : LimiterState).Tended where
  positive key counter hkey := h.positive (Redis.counters_advance hkey)
  serving := h.serving
  unset i key hi := by
    obtain ⟨counter, hkey, hnone⟩ := h.unset hi
    exact ⟨counter, Redis.counters_advance_of_persistent hkey hnone, hnone⟩
  alone := h.alone
  expire key counter hkey hpos := h.expire (Redis.counters_advance hkey) hpos

/-- A client calls the limiter. -/
theorem Tended.consume (h : s.Tended) (key : String) (limit windowSeconds : ℤ) :
    (⟨s.redis, s.calls ++ [Model.consume key limit windowSeconds]⟩ : LimiterState).Tended := by
  constructor
  · exact h.positive
  · exact h.serving.consume key limit windowSeconds
  · exact fun i key' hi => h.unset (aboutToExpire_consume.mp hi)
  · exact fun i j key' hi hj =>
      h.alone (aboutToExpire_consume.mp hi) (aboutToExpire_consume.mp hj)
  · intro key' counter hkey hpos
    exact (h.expire hkey hpos).imp_right fun ⟨i, hi⟩ => ⟨i, aboutToExpire_consume.mpr hi⟩

/-- One step whose failures spare first hits keeps the invariant. -/
theorem Tended.step (h : s.Tended) {a : LimiterAction} (hstep : s.step a = some s')
    (hspares : s.SparesFirstHits a) : s'.Tended := by
  cases a with
  | consume key limit windowSeconds =>
      cases hstep
      exact h.consume key limit windowSeconds
  | tick millis =>
      cases hstep
      exact h.tick millis
  | answer i =>
      cases hcall : s.calls[i]? with
      | none => simp [LimiterState.step, hcall] at hstep
      | some call =>
          simp only [LimiterState.step, hcall] at hstep
          cases h.serving hcall with
          | start key limit windowSeconds =>
              simp only [Model.consume] at hstep
              cases hincr : s.redis.incr key with
              | none =>
                  simp only [hincr] at hstep
                  cases hstep
                  exact h.unchanged hcall _
              | some result =>
                  obtain ⟨count, redis⟩ := result
                  simp only [hincr] at hstep
                  cases hstep
                  by_cases hcount : count = 1
                  · subst hcount
                    rw [if_pos rfl]
                    exact h.firstHit hcall hincr _ _
                  · rw [if_neg hcount]
                    exact h.laterHit hcall hincr hcount _
          | expiry key windowSeconds decision =>
              cases hstep
              exact h.expirySet hcall _
          | decided decision => cases hstep
  | fail i applied =>
      cases hcall : s.calls[i]? with
      | none => simp [LimiterState.step, hcall] at hstep
      | some call =>
          simp only [LimiterState.step, SparesFirstHits, hcall] at hstep hspares
          cases h.serving hcall with
          | start key limit windowSeconds =>
              simp only [Model.consume] at hstep hspares
              split at hstep
              · next happlied =>
                  split at hstep
                  · next count redis hincr =>
                      cases hstep
                      refine h.laterHit hcall hincr ?_ _
                      rintro rfl
                      exact hspares happlied redis hincr
                  · cases hstep
              · cases hstep
                exact h.unchanged hcall _
          | expiry key windowSeconds decision =>
              dsimp only at hspares
              cases hstep
              rw [if_pos hspares]
              exact h.expirySet hcall _
          | decided decision => cases hstep

/-- Every run whose failures spare first hits keeps the invariant. -/
theorem Idle.tended_of_reaches {s₀ : LimiterState} (h₀ : s₀.Idle)
    (h : Reaches SparesFirstHits s₀ s) : s.Tended := by
  induction h with
  | refl => exact h₀.tended
  | step _ hstep hspares ih => exact ih.step hstep hspares

/-! ## The failures that do not spare a first hit -/

/-- A failure between the first hit and the expiry leaves the key behind. -/
theorem Tended.stuck (h : s.Tended) {a : LimiterAction} (hstep : s.step a = some s')
    (hspares : ¬s.SparesFirstHits a) : ∃ key, s'.Stuck key := by
  cases a with
  | consume key limit windowSeconds => exact absurd trivial hspares
  | tick millis => exact absurd trivial hspares
  | answer i => exact absurd trivial hspares
  | fail i applied =>
      cases hcall : s.calls[i]? with
      | none => simp [LimiterState.step, hcall] at hstep
      | some call =>
          simp only [LimiterState.step, SparesFirstHits, hcall] at hstep hspares
          cases h.serving hcall with
          | start key limit windowSeconds =>
              simp only [Model.consume] at hstep hspares
              push Not at hspares
              obtain ⟨happlied, redis, hincr⟩ := hspares
              simp only [happlied, if_true, hincr] at hstep
              cases hstep
              have habsent := Redis.counters_of_first_hit (fun _ hkey => h.positive hkey) hincr
              refine ⟨key, ⟨⟨1, none⟩, ?_, Int.one_pos, rfl⟩, fun j hj => ?_⟩
              · change redis.counters key = _
                rw [(Redis.incr_eq_some hincr).2, habsent]
                exact Function.update_self _ _ _
              · obtain ⟨counter, hkey, -⟩ := h.unset (aboutToExpire_decided.mp hj).2
                rw [habsent] at hkey
                cases hkey
          | expiry key windowSeconds decision =>
              dsimp only at hspares
              cases hstep
              rw [if_neg hspares]
              have hmine : s.AboutToExpire i key := ⟨_, _, _, hcall⟩
              obtain ⟨counter, hkey, hnone⟩ := h.unset hmine
              refine ⟨key, ⟨counter, hkey, h.positive hkey, hnone⟩, fun j hj => ?_⟩
              obtain ⟨hne, hj⟩ := aboutToExpire_decided.mp hj
              exact hne (h.alone hj hmine)
          | decided decision => cases hstep

/-- The calls of `consume` stay calls of `consume`. -/
theorem Serving.step (h : s.Serving) {a : LimiterAction} (hstep : s.step a = some s') :
    s'.Serving := by
  cases a with
  | consume key limit windowSeconds =>
      cases hstep
      exact h.consume key limit windowSeconds
  | tick millis =>
      cases hstep
      exact h
  | answer i =>
      cases hcall : s.calls[i]? with
      | none => simp [LimiterState.step, hcall] at hstep
      | some call =>
          simp only [LimiterState.step, hcall] at hstep
          cases h hcall with
          | start key limit windowSeconds =>
              simp only [Model.consume] at hstep
              split at hstep
              · cases hstep
                split
                · exact h.proceed (.expiry key windowSeconds _)
                · exact h.proceed (.decided _)
              · cases hstep
                exact h.proceed (.decided _)
          | expiry key windowSeconds decision =>
              cases hstep
              exact h.proceed (.decided _)
          | decided decision => cases hstep
  | fail i applied =>
      cases hcall : s.calls[i]? with
      | none => simp [LimiterState.step, hcall] at hstep
      | some call =>
          simp only [LimiterState.step, hcall] at hstep
          cases h hcall with
          | start key limit windowSeconds =>
              simp only [Model.consume] at hstep
              split at hstep
              · split at hstep
                · cases hstep
                  exact h.proceed (.decided _)
                · cases hstep
              · cases hstep
                exact h.proceed (.decided _)
          | expiry key windowSeconds decision =>
              cases hstep
              exact h.proceed (.decided _)
          | decided decision => cases hstep

/-- A later hit on a stuck key counts on, and nothing else touches the key. -/
theorem Stuck.hit (h : s.Stuck key) {count : ℤ}
    (hincr : s.redis.incr key' = some (count, redis)) :
    (key' = key → count ≠ 1) ∧
      ∃ counter, redis.counters key = some counter ∧ 0 < counter.count ∧
        counter.expiresAt = none := by
  obtain ⟨counter, hkey, hpos, hnone⟩ := h.persistent
  obtain ⟨hcount, hcounters⟩ := Redis.incr_eq_some hincr
  by_cases hsame : key' = key
  · subst hsame
    rw [hkey, Option.getD_some] at hcount hcounters
    have hnext : 1 < count := by omega
    refine ⟨fun _ => ne_of_gt hnext, ⟨count, counter.expiresAt⟩, ?_,
      Int.lt_trans Int.one_pos hnext, hnone⟩
    rw [hcounters]
    exact Function.update_self _ _ _
  · refine ⟨fun heq => absurd heq hsame, counter, ?_, hpos, hnone⟩
    rw [hcounters, Function.update_of_ne (Ne.symm hsame)]
    exact hkey

/-- A stuck key stays stuck, whatever succeeds or fails later. -/
theorem Stuck.step (h : s.Stuck key) (hserving : s.Serving) {a : LimiterAction}
    (hstep : s.step a = some s') : s'.Stuck key := by
  -- a call that ends takes nothing away and sets no expiry
  have hdecided : ∀ {i : ℕ} {redis : Redis} {decision : RateLimitDecision},
      (∃ counter, redis.counters key = some counter ∧ 0 < counter.count ∧
        counter.expiresAt = none) → (s.proceed i redis (.decided decision)).Stuck key :=
    fun hpersistent => ⟨hpersistent, fun j hj => h.abandoned j (aboutToExpire_decided.mp hj).2⟩
  have hexpire : ∀ {i : ℕ} {key' : String} {seconds : ℤ} {reply caught : LimiterCall},
      s.calls[i]? = some (.expire key' seconds reply caught) →
        (s.redis.expire key' seconds).counters key = s.redis.counters key := by
    intro i key' seconds reply caught hcall
    obtain ⟨answer, hcounters, -⟩ := Redis.counters_expire s.redis key' seconds
    have hne : key ≠ key' := by
      rintro rfl
      exact h.abandoned i ⟨seconds, reply, caught, hcall⟩
    rw [hcounters, Function.update_of_ne hne]
  cases a with
  | consume key' limit windowSeconds =>
      cases hstep
      exact ⟨h.persistent, fun i hi => h.abandoned i (aboutToExpire_consume.mp hi)⟩
  | tick millis =>
      cases hstep
      obtain ⟨counter, hkey, hpos, hnone⟩ := h.persistent
      exact ⟨⟨counter, Redis.counters_advance_of_persistent hkey hnone, hpos, hnone⟩, h.abandoned⟩
  | answer i =>
      cases hcall : s.calls[i]? with
      | none => simp [LimiterState.step, hcall] at hstep
      | some call =>
          simp only [LimiterState.step, hcall] at hstep
          cases hserving hcall with
          | start key' limit windowSeconds =>
              simp only [Model.consume] at hstep
              split at hstep
              · next count redis hincr =>
                  obtain ⟨hlater, hpersistent⟩ := h.hit hincr
                  cases hstep
                  split
                  · next hfirst =>
                      refine ⟨hpersistent, fun j hj => ?_⟩
                      rcases aboutToExpire_proceed.mp hj with ⟨-, -, _, _, _, heq⟩ | ⟨-, hj⟩
                      · cases heq
                        exact hlater rfl hfirst
                      · exact h.abandoned j hj
                  · exact hdecided hpersistent
              · cases hstep
                exact hdecided h.persistent
          | expiry key' windowSeconds decision =>
              cases hstep
              exact hdecided (by rw [hexpire hcall]; exact h.persistent)
          | decided decision => cases hstep
  | fail i applied =>
      cases hcall : s.calls[i]? with
      | none => simp [LimiterState.step, hcall] at hstep
      | some call =>
          simp only [LimiterState.step, hcall] at hstep
          cases hserving hcall with
          | start key' limit windowSeconds =>
              simp only [Model.consume] at hstep
              split at hstep
              · split at hstep
                · next count redis hincr =>
                    cases hstep
                    exact hdecided (h.hit hincr).2
                · cases hstep
              · cases hstep
                exact hdecided h.persistent
          | expiry key' windowSeconds decision =>
              cases hstep
              refine hdecided ?_
              split
              · rw [hexpire hcall]
                exact h.persistent
              · exact h.persistent
          | decided decision => cases hstep

theorem Stuck.reaches (h : s.Stuck key) (hserving : s.Serving)
    (hreaches : Reaches (fun _ _ => True) s s') : s'.Stuck key := by
  have hboth : s'.Stuck key ∧ s'.Serving := by
    induction hreaches with
    | refl => exact ⟨h, hserving⟩
    | step _ hstep _ ih => exact ⟨ih.1.step ih.2 hstep, ih.2.step hstep⟩
  exact hboth.1

/-- Every positive counter expires in a run whose failures spare first hits, and
the first failure that does not leaves a key that never expires again. -/
theorem keys_expire_of_spared_first_hits {s₀ : LimiterState} (h₀ : s₀.Idle) :
    (∀ s, Reaches SparesFirstHits s₀ s → s.KeysExpire) ∧
      ∀ s a s', Reaches SparesFirstHits s₀ s → s.step a = some s' → ¬s.SparesFirstHits a →
        ∃ key, ∀ s'', Reaches (fun _ _ => True) s' s'' → s''.Stuck key := by
  constructor
  · exact fun s hs => (h₀.tended_of_reaches hs).expire
  · intro s a s' hs hstep hspares
    have htended := h₀.tended_of_reaches hs
    obtain ⟨key, hstuck⟩ := htended.stuck hstep hspares
    exact ⟨key, fun s'' hs'' => hstuck.reaches (htended.serving.step hstep) hs''⟩

end LimiterState

/-- No keys and no calls. -/
def emptyLimiter : LimiterState := ⟨⟨fun _ => none, 0⟩, []⟩

theorem emptyLimiter_idle : emptyLimiter.Idle where
  expiring key counter hkey := by cases hkey
  calls := rfl

/-- The reply to the second hit is lost; the window expires all the same. -/
theorem window_expires : ∃ s : LimiterState,
    LimiterState.Reaches LimiterState.SparesFirstHits emptyLimiter s ∧ s.KeysExpire ∧
      s.redis.counters "login" = some ⟨2, some 60000⟩ := by
  have hfirst : LimiterState.Reaches LimiterState.SparesFirstHits emptyLimiter _ :=
    ((LimiterState.Reaches.refl.step (a := .consume "login" 1 60) rfl trivial).step
      (a := .answer 0) rfl trivial).step (a := .answer 0) rfl trivial
  have hsecond := (hfirst.step (a := .consume "login" 1 60) rfl trivial).step
    (a := .fail 1 true) rfl fun _ redis hincr => by
      cases (Redis.incr_eq_some hincr).1
  exact ⟨_, hsecond, (LimiterState.keys_expire_of_spared_first_hits emptyLimiter_idle).1 _ hsecond,
    rfl⟩

/-- The expiry of the first hit fails, and the key stays for ever. -/
theorem lost_expiry_sticks : ¬∀ s : LimiterState,
    LimiterState.Reaches (fun _ _ => True) emptyLimiter s → s.KeysExpire := by
  intro hall
  have hcounted : LimiterState.Reaches (fun _ _ => True) emptyLimiter
      ⟨⟨Function.update (fun _ => none) "login" (some ⟨1, none⟩), 0⟩,
        [.decided .unavailable]⟩ :=
    ((LimiterState.Reaches.refl.step (a := .consume "login" 1 60) rfl trivial).step
      (a := .answer 0) rfl trivial).step (a := .fail 0 false) rfl trivial
  have hexpire := @hall _ hcounted "login" ⟨1, none⟩ rfl Int.one_pos
  rcases hexpire with hexpires | ⟨i, hi⟩
  · exact hexpires rfl
  · obtain ⟨_, _, _, hcall⟩ := hi
    cases List.mem_singleton.mp (List.mem_of_getElem? hcall)

end Orgistry.Model
