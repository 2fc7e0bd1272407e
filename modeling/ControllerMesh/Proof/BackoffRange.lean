import ControllerMesh.Spec.Backoff

/-!
# The arithmetic of a backoff

`failed` computes the delay as a `float64`, compares it with `math.MaxInt64`, which is
2^63 there, and converts it. With numbers that are not negative the delay is the base
delay doubled with each further failure, in nanoseconds, up to the maximum
(`backoffNanoseconds_eq`), except where the comparison lets something through that is
no `int64` (`AtLimit`): 2^63 itself, and 0 times infinity.

* `load_failedAll`: the entry after any number of failures in a row;
* `backoff_inRange_iff`: all of these calls stay in range, and wait no less than the
  calls before them, if and only if no count of failures is at the limit.
-/

namespace CtrlMesh.TrafficHandler

open Framework

open Traffic (ExponentialBackoff)

/-- The numbers of a backoff are `int32` values that are not negative. -/
structure Int32Backoff (spec : ExponentialBackoff) : Prop where
  nonneg : NonnegBackoff spec
  base_le : spec.baseDelayInMillisecond ≤ 2 ^ 31 - 1
  max_le : spec.maxDelayInMillisecond ≤ 2 ^ 31 - 1
  times_le : spec.continuouslyFailureTimes ≤ 2 ^ 31 - 1

/-- The failures that are counted after `n` of them. -/
def failureCount (n : Nat) : Int := min n (2 ^ 31 - 1)

/-- `delta` of `failed`, when it counts the `n`-th failure. -/
def failureDelta (spec : ExponentialBackoff) (n : Nat) : Int :=
  failureCount n - spec.continuouslyFailureTimes

/-- The backoff is computed, and it is 2^63 or not a number. -/
def AtLimit (spec : ExponentialBackoff) (delta : Int) : Prop :=
  0 < delta ∧ (spec.baseDelayInMillisecond * 2 ^ (delta - 1).toNat = 2 ^ 63 ∨
    spec.baseDelayInMillisecond = 0 ∧ 1024 ≤ delta - 1)

instance (spec : ExponentialBackoff) (delta : Int) : Decidable (AtLimit spec delta) :=
  inferInstanceAs (Decidable (_ ∧ _))

theorem failureCount_mono {m n : Nat} (h : m ≤ n) : failureCount m ≤ failureCount n := by
  unfold failureCount
  omega

theorem failureDelta_mono {spec : ExponentialBackoff} {m n : Nat} (h : m ≤ n) :
    failureDelta spec m ≤ failureDelta spec n :=
  Int.sub_le_sub_right (failureCount_mono h) _

namespace RateExponentialBackoff

variable {spec : ExponentialBackoff} {delta : Int}

theorem exceedsMaxInt64_some_iff {x : Int} : exceedsMaxInt64 (some x) = true ↔ 2 ^ 63 < x := by
  simp [exceedsMaxInt64]

theorem backoffFloat_eq_some (hlimit : ¬AtLimit spec delta) (hpos : 0 < delta) :
    backoffFloat spec delta = some (spec.baseDelayInMillisecond * 2 ^ (delta - 1).toNat) := by
  unfold backoffFloat
  rw [if_neg]
  exact fun h => hlimit ⟨hpos, .inr h⟩

/-- What `failed` adds is in nanoseconds, and only the maximum is converted. -/
theorem backoffNanoseconds_eq (hspec : Int32Backoff spec) (hpos : 0 < delta)
    (hlimit : ¬AtLimit spec delta) :
    backoffNanoseconds spec delta =
      min (spec.baseDelayInMillisecond * 2 ^ (delta - 1).toNat)
        (spec.maxDelayInMillisecond * 10 ^ 6) := by
  have hnonneg : 0 ≤ spec.baseDelayInMillisecond * 2 ^ (delta - 1).toNat :=
    mul_nonneg hspec.nonneg.1 (by positivity)
  have hne : spec.baseDelayInMillisecond * 2 ^ (delta - 1).toNat ≠ 2 ^ 63 :=
    fun h => hlimit ⟨hpos, .inl h⟩
  have hmax := hspec.max_le
  unfold backoffNanoseconds
  rw [backoffFloat_eq_some hlimit hpos]
  simp only [exceedsMaxInt64_some_iff, durationOfFloat]
  generalize spec.baseDelayInMillisecond * 2 ^ (delta - 1).toNat = backoff at hne hnonneg ⊢
  by_cases hbig : 2 ^ 63 < backoff
  · rw [if_pos hbig]
    omega
  · have hrange : -2 ^ 63 ≤ backoff ∧ backoff < 2 ^ 63 := by omega
    rw [if_neg hbig]
    simp only [if_pos hrange]
    split <;> omega

theorem backoffNanoseconds_nonneg (hspec : Int32Backoff spec) (hpos : 0 < delta)
    (hlimit : ¬AtLimit spec delta) : 0 ≤ backoffNanoseconds spec delta := by
  have hbase := hspec.nonneg.1
  have hmax := hspec.nonneg.2.1
  rw [backoffNanoseconds_eq hspec hpos hlimit]
  exact le_min (by positivity) (by positivity)

theorem backoffNanoseconds_le (hspec : Int32Backoff spec) (hpos : 0 < delta)
    (hlimit : ¬AtLimit spec delta) :
    backoffNanoseconds spec delta ≤ spec.maxDelayInMillisecond * 10 ^ 6 := by
  rw [backoffNanoseconds_eq hspec hpos hlimit]
  exact min_le_right _ _

theorem backoffNanoseconds_mono (hspec : Int32Backoff spec) {delta' : Int} (hpos : 0 < delta)
    (hle : delta ≤ delta') (hlimit : ¬AtLimit spec delta) (hlimit' : ¬AtLimit spec delta') :
    backoffNanoseconds spec delta ≤ backoffNanoseconds spec delta' := by
  have hbase := hspec.nonneg.1
  have hexp : (delta - 1).toNat ≤ (delta' - 1).toNat := by omega
  have hpow : (2 : Int) ^ (delta - 1).toNat ≤ 2 ^ (delta' - 1).toNat :=
    pow_le_pow_right₀ (by decide) hexp
  rw [backoffNanoseconds_eq hspec hpos hlimit,
    backoffNanoseconds_eq hspec (hpos.trans_le hle) hlimit']
  exact min_le_min (mul_le_mul_of_nonneg_left hpow hbase) le_rfl

/-! ## Failures in a row -/

variable {eb : RateExponentialBackoff} {item : FullRequestInfo}

/-- The state after calls of `failed` at these times. -/
def failedAll (eb : RateExponentialBackoff) (item : FullRequestInfo) (times : List Seconds) :
    RateExponentialBackoff :=
  times.foldl (fun eb now => eb.failed now item) eb

theorem failedAll_concat (times : List Seconds) (now : Seconds) :
    eb.failedAll item (times ++ [now]) = (eb.failedAll item times).failed now item := by
  simp [failedAll]

theorem load_store {ef : Failure} : (eb.store item ef).load item = some ef := by
  simp [load, store]

theorem spec_failed (now : Seconds) : (eb.failed now item).spec = eb.spec := by
  simp only [failed, store]
  split_ifs <;> rfl

theorem spec_failedAll (times : List Seconds) : (eb.failedAll item times).spec = eb.spec := by
  induction times using List.reverseRecOn with
  | nil => rfl
  | append_singleton times now ih => rw [failedAll_concat, spec_failed, ih]

/-- The entry that the `n`-th failure in a row leaves. -/
def entryAfter (spec : ExponentialBackoff) (n : Nat) (now : Seconds) : Failure where
  failureTimes := failureCount n
  nextTime :=
    if failureDelta spec n ≤ 0 then none
    else some (now + (backoffNanoseconds spec (failureDelta spec n) : Seconds) / 10 ^ 9)

/-- One more failure after `n`: the count stops at the greatest `int32`, and the
difference does not overflow. -/
theorem load_failed (hspec : Int32Backoff eb.spec) {n : Nat}
    (hcount : ((eb.load item).getD ⟨0, none⟩).failureTimes = failureCount n)
    (hnext : failureDelta eb.spec n ≤ 0 → ((eb.load item).getD ⟨0, none⟩).nextTime = none)
    (now : Seconds) : (eb.failed now item).load item = some (entryAfter eb.spec (n + 1) now) := by
  have htimes := hspec.times_le
  have hnonneg := hspec.nonneg.2.2
  unfold failed
  generalize (eb.load item).getD ⟨0, none⟩ = ef at hcount hnext
  obtain ⟨failureTimes, nextTime⟩ := ef
  have hef : (if failureTimes < 2 ^ 31 - 1 then (⟨failureTimes + 1, nextTime⟩ : Failure)
      else ⟨failureTimes, nextTime⟩) = ⟨failureCount (n + 1), nextTime⟩ := by
    simp only [failureCount] at hcount ⊢
    split_ifs <;> simp only [Failure.mk.injEq, and_true] <;> omega
  have hdelta : (failureCount (n + 1) - eb.spec.continuouslyFailureTimes).bmod (2 ^ 32) =
      failureDelta eb.spec (n + 1) := by
    unfold failureDelta failureCount
    rw [Int.bmod_def]
    omega
  dsimp only at hef ⊢
  rw [hef]
  dsimp only
  rw [hdelta]
  unfold entryAfter
  by_cases hle : failureDelta eb.spec (n + 1) ≤ 0
  · have hprev := hnext ((failureDelta_mono (Nat.le_succ n)).trans hle)
    dsimp only at hprev
    simp only [if_pos hle, load_store, hprev]
  · simp only [if_neg hle, load_store]

theorem load_failedAll (hspec : Int32Backoff eb.spec) (hfresh : eb.load item = none)
    (times : List Seconds) (now : Seconds) :
    (eb.failedAll item (times ++ [now])).load item =
      some (entryAfter eb.spec (times.length + 1) now) := by
  induction times using List.reverseRecOn generalizing now with
  | nil =>
    rw [failedAll_concat]
    refine load_failed hspec (n := 0) ?_ ?_ now
    · show ((eb.load item).getD ⟨0, none⟩).failureTimes = failureCount 0
      simp [hfresh, failureCount]
    · show _ → ((eb.load item).getD ⟨0, none⟩).nextTime = none
      simp [hfresh]
  | append_singleton times last ih =>
    have hsame : (eb.failedAll item (times ++ [last])).spec = eb.spec := spec_failedAll _
    rw [failedAll_concat, List.length_append, List.length_singleton, ← hsame]
    refine load_failed (hsame.symm ▸ hspec) ?_ ?_ now
    · rw [ih, Option.getD_some, entryAfter]
    · intro hle
      rw [hsame] at hle
      rw [ih, Option.getD_some, entryAfter]
      dsimp only
      rw [if_pos hle]

/-! ## The range of a backoff -/

/-- What the next call of `failed` converts to a `time.Duration`, if it gets there. -/
def converted (eb : RateExponentialBackoff) (item : FullRequestInfo) : Option (Option Int) :=
  let failureTimes := ((eb.load item).getD ⟨0, none⟩).failureTimes
  let failureTimes := if failureTimes < 2 ^ 31 - 1 then failureTimes + 1 else failureTimes
  let delta := (failureTimes - eb.spec.continuouslyFailureTimes).bmod (2 ^ 32)
  if delta ≤ 0 then none
  else if exceedsMaxInt64 (backoffFloat eb.spec delta) then none
  else some (backoffFloat eb.spec delta)

/-- The time at which the wait for an item ends. -/
def nextTime (eb : RateExponentialBackoff) (item : FullRequestInfo) : Option Seconds :=
  (eb.load item).bind (·.nextTime)

/-- Calls of `failed` at these times convert representable numbers only; they ask for a
wait from nothing to the maximum delay, and a later one for no shorter wait than an
earlier one. -/
structure InRange (eb : RateExponentialBackoff) (item : FullRequestInfo) (times : List Seconds) :
    Prop where
  converts (before : List Seconds) (now : Seconds) (hcalls : before ++ [now] <+: times) :
    ∀ x, (eb.failedAll item before).converted item = some x →
      ∃ backoff, x = some backoff ∧ backoff < 2 ^ 63
  bounded (before : List Seconds) (now : Seconds) (hcalls : before ++ [now] <+: times) :
    ∀ next, (eb.failedAll item (before ++ [now])).nextTime item = some next →
      0 ≤ next - now ∧ next - now ≤ (eb.spec.maxDelayInMillisecond : Seconds) / 10 ^ 3
  monotone (before between : List Seconds) (now now' : Seconds)
    (hcalls : before ++ [now] ++ between ++ [now'] <+: times) :
    ∀ next, (eb.failedAll item (before ++ [now])).nextTime item = some next →
      ∃ next', (eb.failedAll item (before ++ [now] ++ between ++ [now'])).nextTime item =
          some next' ∧ next - now ≤ next' - now'

theorem converted_eq (hspec : Int32Backoff eb.spec) (hfresh : eb.load item = none)
    (times : List Seconds) :
    (eb.failedAll item times).converted item =
      if failureDelta eb.spec (times.length + 1) ≤ 0 then none
      else if exceedsMaxInt64 (backoffFloat eb.spec (failureDelta eb.spec (times.length + 1))) then none
      else some (backoffFloat eb.spec (failureDelta eb.spec (times.length + 1))) := by
  have htimes := hspec.times_le
  have hnonneg := hspec.nonneg.2.2
  have hcount : (((eb.failedAll item times).load item).getD ⟨0, none⟩).failureTimes =
      failureCount times.length := by
    induction times using List.reverseRecOn with
    | nil => simp [failedAll, hfresh, failureCount]
    | append_singleton times now _ =>
      rw [load_failedAll hspec hfresh, Option.getD_some, entryAfter, List.length_append,
        List.length_singleton]
  have hdelta : ((if failureCount times.length < 2 ^ 31 - 1 then failureCount times.length + 1
      else failureCount times.length) - eb.spec.continuouslyFailureTimes).bmod (2 ^ 32) =
      failureDelta eb.spec (times.length + 1) := by
    unfold failureDelta failureCount
    rw [Int.bmod_def]
    split <;> omega
  unfold converted
  rw [hcount, spec_failedAll]
  dsimp only
  rw [hdelta]

theorem nextTime_failedAll (hspec : Int32Backoff eb.spec) (hfresh : eb.load item = none)
    (times : List Seconds) (now next : Seconds) :
    (eb.failedAll item (times ++ [now])).nextTime item = some next ↔
      0 < failureDelta eb.spec (times.length + 1) ∧
        next - now =
          (backoffNanoseconds eb.spec (failureDelta eb.spec (times.length + 1)) : Seconds) / 10 ^ 9 := by
  rw [nextTime, load_failedAll hspec hfresh, Option.bind_some, entryAfter]
  by_cases hpos : 0 < failureDelta eb.spec (times.length + 1)
  · simp only [if_neg (not_le.mpr hpos), Option.some.injEq, hpos, true_and]
    constructor
    · rintro rfl
      ring
    · intro h
      rw [← h]
      ring
  · simp [not_lt.mp hpos, hpos]

/-- At the limit the comparison lets the backoff through to the conversion. -/
theorem converted_of_atLimit (hspec : Int32Backoff eb.spec) (hfresh : eb.load item = none)
    (times : List Seconds) (hlimit : AtLimit eb.spec (failureDelta eb.spec (times.length + 1))) :
    ∃ x, (eb.failedAll item times).converted item = some x ∧
      ∀ backoff, x = some backoff → backoff = 2 ^ 63 := by
  obtain ⟨hpos, hcase⟩ := hlimit
  rw [converted_eq hspec hfresh, if_neg (not_le.mpr hpos)]
  by_cases hnan : eb.spec.baseDelayInMillisecond = 0 ∧
      1024 ≤ failureDelta eb.spec (times.length + 1) - 1
  · rw [backoffFloat, if_pos hnan]
    exact ⟨none, rfl, fun _ h => absurd h (by simp)⟩
  · have heq := hcase.resolve_right hnan
    rw [backoffFloat, if_neg hnan, heq]
    exact ⟨some (2 ^ 63), rfl, fun _ h => (Option.some.inj h).symm⟩

/-- What is converted elsewhere is representable. -/
theorem converted_lt (hspec : Int32Backoff eb.spec) (hfresh : eb.load item = none)
    {times : List Seconds} (hlimit : ¬AtLimit eb.spec (failureDelta eb.spec (times.length + 1)))
    {x : Option Int} (hx : (eb.failedAll item times).converted item = some x) :
    ∃ backoff, x = some backoff ∧ backoff < 2 ^ 63 := by
  rw [converted_eq hspec hfresh] at hx
  split_ifs at hx with hpos hbig
  have heq := backoffFloat_eq_some hlimit (not_le.mp hpos)
  rw [heq] at hx hbig
  refine ⟨_, (Option.some.inj hx).symm, ?_⟩
  refine lt_of_le_of_ne (by simpa [exceedsMaxInt64_some_iff] using hbig) fun h => ?_
  exact hlimit ⟨not_le.mp hpos, .inl h⟩

theorem wait_bounded (hspec : Int32Backoff eb.spec) (hfresh : eb.load item = none)
    {times : List Seconds} {now next : Seconds}
    (hlimit : ¬AtLimit eb.spec (failureDelta eb.spec (times.length + 1)))
    (hnext : (eb.failedAll item (times ++ [now])).nextTime item = some next) :
    0 ≤ next - now ∧ next - now ≤ (eb.spec.maxDelayInMillisecond : Seconds) / 10 ^ 3 := by
  obtain ⟨hpos, hwait⟩ := (nextTime_failedAll hspec hfresh _ _ _).mp hnext
  have hzero := backoffNanoseconds_nonneg hspec hpos hlimit
  have hmax := backoffNanoseconds_le hspec hpos hlimit
  rw [hwait]
  refine ⟨div_nonneg (Int.cast_nonneg hzero) (by positivity), ?_⟩
  have hcast : ((backoffNanoseconds eb.spec (failureDelta eb.spec (times.length + 1)) : Int) : ℚ) ≤
      eb.spec.maxDelayInMillisecond * 10 ^ 6 := by exact_mod_cast hmax
  linarith

/-- A later call waits, and no shorter. -/
theorem wait_mono (hspec : Int32Backoff eb.spec) (hfresh : eb.load item = none)
    {times times' : List Seconds} {now now' next : Seconds} (hle : times.length ≤ times'.length)
    (hlimit : ¬AtLimit eb.spec (failureDelta eb.spec (times.length + 1)))
    (hlimit' : ¬AtLimit eb.spec (failureDelta eb.spec (times'.length + 1)))
    (hnext : (eb.failedAll item (times ++ [now])).nextTime item = some next) :
    ∃ next', (eb.failedAll item (times' ++ [now'])).nextTime item = some next' ∧
      next - now ≤ next' - now' := by
  obtain ⟨hpos, hwait⟩ := (nextTime_failedAll hspec hfresh _ _ _).mp hnext
  have hdelta : failureDelta eb.spec (times.length + 1) ≤ failureDelta eb.spec (times'.length + 1) :=
    failureDelta_mono (by omega)
  have hmono := backoffNanoseconds_mono hspec hpos hdelta hlimit hlimit'
  have hcast : ((backoffNanoseconds eb.spec (failureDelta eb.spec (times.length + 1)) : Int) : ℚ) ≤
      backoffNanoseconds eb.spec (failureDelta eb.spec (times'.length + 1)) := by exact_mod_cast hmono
  refine ⟨now' +
    (backoffNanoseconds eb.spec (failureDelta eb.spec (times'.length + 1)) : Seconds) / 10 ^ 9, ?_, ?_⟩
  · rw [nextTime_failedAll hspec hfresh]
    exact ⟨hpos.trans_le hdelta, by ring⟩
  · rw [hwait]
    linarith

end RateExponentialBackoff

open RateExponentialBackoff

/-- All calls of `failed` in a row for one item are in range if and only if no count of
failures is at the limit. -/
theorem backoff_inRange_iff {eb : RateExponentialBackoff} (hspec : Int32Backoff eb.spec)
    {item : FullRequestInfo} (hfresh : eb.load item = none) (times : List Seconds) :
    eb.InRange item times ↔
      ∀ n < times.length, ¬AtLimit eb.spec (failureDelta eb.spec (n + 1)) := by
  constructor
  · intro hrange n hn hlimit
    have hcalls : times.take n ++ [times[n]] <+: times := by
      rw [List.take_append_getElem hn]
      exact List.take_prefix _ _
    have hlength : (times.take n).length = n := List.length_take_of_le hn.le
    obtain ⟨x, hx, hvalue⟩ := converted_of_atLimit hspec hfresh (times.take n)
      (by rw [hlength]; exact hlimit)
    obtain ⟨backoff, hsome, hlt⟩ := hrange.converts _ _ hcalls x hx
    exact absurd (hvalue backoff hsome) hlt.ne
  · intro hlimit
    have hcall (before : List Seconds) (now : Seconds) (hcalls : before ++ [now] <+: times) :
        ¬AtLimit eb.spec (failureDelta eb.spec (before.length + 1)) := by
      refine hlimit _ ?_
      simpa using hcalls.length_le
    refine ⟨fun before now hcalls x hx => ?_, fun before now hcalls next hnext => ?_,
      fun before between now now' hcalls next hnext => ?_⟩
    · exact converted_lt hspec hfresh (hcall before now hcalls) hx
    · exact wait_bounded hspec hfresh (hcall before now hcalls) hnext
    · have hfirst := hcall before now (List.IsPrefix.trans ⟨between ++ [now'], by simp⟩ hcalls)
      exact wait_mono hspec hfresh (by simp) hfirst (hcall _ _ hcalls) hnext

/-- A backoff without entries. -/
def sampleBackoffOf (base max times : Int) : RateExponentialBackoff := ⟨⟨base, max, times⟩, []⟩

def sampleItem : FullRequestInfo where
  isResourceRequest := true
  path := "/api/v1/pods"
  verb := "list"
  apiGroup := ""
  namespaceName := ""
  resource := "pods"
  subresource := ""
  apiPrefix := "api"
  apiVersion := "v1"
  name := ""
  parts := ["pods"]

theorem int32Backoff_sampleBackoffOf : Int32Backoff (sampleBackoffOf 100 5000 3).spec :=
  ⟨⟨by decide, by decide, by decide⟩, by decide, by decide, by decide⟩

/-- Six failures, a second after each other. -/
theorem inRange_sampleBackoffOf :
    (sampleBackoffOf 100 5000 3).InRange sampleItem [0, 1, 2, 3, 4, 5] :=
  (backoff_inRange_iff int32Backoff_sampleBackoffOf rfl _).mpr (by decide)

/-- A base delay of 2^30 milliseconds: the 34th failure in a row gives a backoff of 2^63,
which is converted, and lets the wait end three hundred years ago. -/
theorem not_inRange_sampleBackoffOf :
    Int32Backoff (sampleBackoffOf (2 ^ 30) (2 ^ 31 - 1) 0).spec ∧
      ((sampleBackoffOf (2 ^ 30) (2 ^ 31 - 1) 0).failedAll sampleItem (.replicate 34 0)).nextTime
          sampleItem = some (-2 ^ 63 / 10 ^ 9) ∧
        ¬(sampleBackoffOf (2 ^ 30) (2 ^ 31 - 1) 0).InRange sampleItem (.replicate 34 0) := by
  have hnext : ((sampleBackoffOf (2 ^ 30) (2 ^ 31 - 1) 0).failedAll sampleItem
      (.replicate 33 0 ++ [0])).nextTime sampleItem = some (-2 ^ 63 / 10 ^ 9) := by decide +kernel
  refine ⟨⟨⟨by decide, by decide, by decide⟩, by decide, by decide, by decide⟩, hnext, fun h => ?_⟩
  have hbound := (h.bounded (.replicate 33 0) 0 (List.prefix_refl _) _ hnext).1
  norm_num at hbound

end CtrlMesh.TrafficHandler
