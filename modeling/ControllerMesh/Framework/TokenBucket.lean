import Mathlib

/-!
# Token buckets

`rate.Limiter` of `golang.org/x/time/rate`: a bucket of at most `burst` tokens
that is filled at `limit` tokens per second. `Reserve` takes a token even if there
is none, and says how long to wait for it.

Numbers of tokens and durations are rational here: floating-point numbers and
nanoseconds are not rounded. Division by a limit of zero gives zero.

* `level`: the tokens at a time, and `SameFrom`: buckets that have the same
  tokens at all later times;
* `SameFrom.reserve`: reservations do not tell such buckets apart;
* `sameFrom_reserve_iff`: when a reservation costs nothing.
-/

namespace CtrlMesh.Framework

/-- Related options are both missing or both there. -/
theorem rel_cases {α β : Type} {r : α → β → Prop} {a : Option α} {b : Option β}
    (h : Option.Rel r a b) : (a = none ∧ b = none) ∨ ∃ x y, a = some x ∧ b = some y ∧ r x y := by
  cases h with
  | none => exact .inl ⟨rfl, rfl⟩
  | some hr => exact .inr ⟨_, _, rfl, rfl, hr⟩

/-- A time or a duration in seconds. -/
abbrev Seconds := ℚ

/-- `rate.Limiter`. The time of the last update is `none` for the zero time. -/
structure Limiter where
  limit : ℚ
  burst : ℤ
  tokens : ℚ
  last : Option Seconds
  tokens_le : tokens ≤ max (burst : ℚ) 0
  deriving DecidableEq

namespace Limiter

theorem new_tokens_le (burst : ℤ) : (0 : ℚ) ≤ max (burst : ℚ) 0 := le_max_right _ _

/-- `NewLimiter`. -/
def new (limit : ℚ) (burst : ℤ) : Limiter :=
  ⟨limit, burst, 0, none, new_tokens_le burst⟩

/-- `durationFromTokens`. -/
def durationFromTokens (limit tokens : ℚ) : Seconds := tokens / limit

/-- `tokensFromDuration`. -/
def tokensFromDuration (limit : ℚ) (d : Seconds) : ℚ := d * limit

/-- The time that `advance` counts. It is long for a bucket that was never
updated, so that it is cut to the maximum. -/
def elapsed (lim : Limiter) (now : Seconds) : Seconds :=
  let maxElapsed := durationFromTokens lim.limit (lim.burst - lim.tokens)
  match lim.last with
  | none => maxElapsed
  | some last =>
    let last := if now < last then now else last
    if maxElapsed < now - last then maxElapsed else now - last

/-- The tokens that `advance` returns. -/
def level (lim : Limiter) (now : Seconds) : ℚ :=
  let tokens := lim.tokens + tokensFromDuration lim.limit (lim.elapsed now)
  if (lim.burst : ℚ) < tokens then lim.burst else tokens

theorem level_le (lim : Limiter) (now : Seconds) : lim.level now ≤ lim.burst := by
  unfold level
  dsimp only
  split
  · exact le_refl _
  · rename_i h
    exact not_lt.mp h

theorem take_tokens_le (lim : Limiter) (now : Seconds) :
    lim.level now - 1 ≤ max (lim.burst : ℚ) 0 := by
  have h := lim.level_le now
  have hmax := le_max_left (lim.burst : ℚ) 0
  linarith

/-- The bucket after a token has been taken. -/
def take (lim : Limiter) (now : Seconds) : Limiter :=
  ⟨lim.limit, lim.burst, lim.level now - 1, some now, lim.take_tokens_le now⟩

/-- How long to wait for a token. -/
def waitDuration (lim : Limiter) (now : Seconds) : Seconds :=
  let tokens := lim.level now - 1
  if tokens < 0 then durationFromTokens lim.limit (-tokens) else 0

/-- `InfDuration`: 2⁶³ - 1 nanoseconds. -/
def infDuration : Seconds := (2 ^ 63 - 1) / 10 ^ 9

/-- `Reserve().Delay()`: the delay, and the bucket after it. No wait is longer than
the maximum that `Reserve` asks for, so a token is refused only if the bucket has
no room for one; then the bucket stays as it is. Waits are exact here, while
`rate.Limiter` truncates them to whole nanoseconds, so that one below a nanosecond is
none. -/
def reserve (lim : Limiter) (now : Seconds) : Seconds × Limiter :=
  if 1 ≤ lim.burst then
    (if lim.waitDuration now < 0 then 0 else lim.waitDuration now, lim.take now)
  else (infDuration, lim)

/-! ## Buckets with the same tokens -/

/-- The same tokens at all times from `now` on. -/
structure SameFrom (now : Seconds) (l l' : Limiter) : Prop where
  limit : l.limit = l'.limit
  burst : l.burst = l'.burst
  level : ∀ t, now ≤ t → l.level t = l'.level t

namespace SameFrom

variable {now t : Seconds} {l l' : Limiter}

theorem refl (now : Seconds) (l : Limiter) : SameFrom now l l := ⟨rfl, rfl, fun _ _ => rfl⟩

theorem trans {l'' : Limiter} (h : SameFrom now l l') (h' : SameFrom now l' l'') :
    SameFrom now l l'' :=
  ⟨h.limit.trans h'.limit, h.burst.trans h'.burst, fun t ht =>
    (h.level t ht).trans (h'.level t ht)⟩

theorem mono (h : SameFrom now l l') (ht : now ≤ t) : SameFrom t l l' :=
  ⟨h.limit, h.burst, fun t' ht' => h.level t' (ht.trans ht')⟩

theorem take (h : SameFrom now l l') (ht : now ≤ t) : l.take t = l'.take t := by
  unfold Limiter.take
  congr 1
  · exact h.limit
  · exact h.burst
  · rw [h.level t ht]

/-- A reservation does not tell the buckets apart. -/
theorem reserve (h : SameFrom now l l') (ht : now ≤ t) :
    (l.reserve t).1 = (l'.reserve t).1 ∧ SameFrom t (l.reserve t).2 (l'.reserve t).2 := by
  unfold Limiter.reserve
  by_cases hl : 1 ≤ l.burst
  · have hl' : 1 ≤ l'.burst := h.burst ▸ hl
    rw [if_pos hl, if_pos hl']
    dsimp only
    constructor
    · have hwait : l.waitDuration t = l'.waitDuration t := by
        unfold waitDuration
        rw [h.level t ht, h.limit]
      rw [hwait]
    · rw [h.take ht]
      exact refl t _
  · have hl' : ¬ 1 ≤ l'.burst := h.burst ▸ hl
    rw [if_neg hl, if_neg hl']
    exact ⟨rfl, h.mono ht⟩

end SameFrom

/-- The same tokens in buckets that may be missing. -/
def SameTokens (now : Seconds) : Option Limiter → Option Limiter → Prop :=
  Option.Rel (SameFrom now)

namespace SameTokens

variable {now t : Seconds} {b b' b'' : Option Limiter}

theorem refl (now : Seconds) (b : Option Limiter) : SameTokens now b b := by
  cases b with
  | none => exact .none
  | some l => exact .some (.refl now l)

theorem trans (h : SameTokens now b b') (h' : SameTokens now b' b'') : SameTokens now b b'' := by
  cases h with
  | none => exact h'
  | some h =>
    cases h' with
    | some h' => exact .some (h.trans h')

theorem mono (h : SameTokens now b b') (ht : now ≤ t) : SameTokens t b b' := by
  cases h with
  | none => exact .none
  | some h => exact .some (h.mono ht)

end SameTokens

/-! ## What a reservation costs -/

/-- A reservation takes a token that has to be filled up again. -/
def Charges (lim : Limiter) : Prop := 1 ≤ lim.burst ∧ 0 ≤ lim.limit

instance (lim : Limiter) : Decidable lim.Charges := inferInstanceAs (Decidable (_ ∧ _))

/-- A bucket with a negative limit is always full. -/
theorem level_of_neg {lim : Limiter} {now : Seconds} (hlimit : lim.limit < 0)
    (hburst : 1 ≤ lim.burst) (hlast : ∀ t, lim.last = some t → t ≤ now) :
    lim.level now = lim.burst := by
  have hle : lim.tokens ≤ lim.burst := by
    have hpos : (0 : ℚ) ≤ lim.burst := by exact_mod_cast (by omega : (0 : ℤ) ≤ lim.burst)
    exact lim.tokens_le.trans (max_eq_left hpos).le
  have hmax : durationFromTokens lim.limit (lim.burst - lim.tokens) ≤ 0 :=
    div_nonpos_of_nonneg_of_nonpos (by linarith) hlimit.le
  have helapsed : lim.elapsed now = durationFromTokens lim.limit (lim.burst - lim.tokens) := by
    unfold elapsed
    cases hl : lim.last with
    | none => rfl
    | some last =>
      have hnow := hlast last hl
      dsimp only
      rw [if_neg (not_lt.mpr hnow)]
      split
      · rfl
      · rename_i h
        linarith
  have htokens : lim.tokens + tokensFromDuration lim.limit (lim.elapsed now) = lim.burst := by
    rw [helapsed, tokensFromDuration, durationFromTokens, div_mul_cancel₀ _ hlimit.ne]
    ring
  unfold level
  rw [htokens]
  exact ite_self _

/-- The tokens right after one has been taken. -/
theorem level_take {lim : Limiter} {now : Seconds} (hlimit : 0 ≤ lim.limit) :
    (lim.take now).level now = lim.level now - 1 := by
  have hle := lim.level_le now
  have hmax : 0 ≤ durationFromTokens lim.limit (lim.burst - (lim.level now - 1)) :=
    div_nonneg (by linarith) hlimit
  have helapsed : (lim.take now).elapsed now = 0 := by
    simp only [elapsed, take, lt_irrefl, if_false, sub_self]
    rw [if_neg (not_lt.mpr hmax)]
  unfold level
  rw [helapsed]
  simp only [tokensFromDuration, zero_mul, add_zero]
  rw [if_neg]
  · rfl
  · show ¬ (lim.burst : ℚ) < lim.level now - 1
    linarith

/-- A reservation costs nothing if and only if there is no room for a token, or
the limit is negative. -/
theorem sameFrom_reserve_iff {lim : Limiter} {now : Seconds}
    (hlast : ∀ t, lim.last = some t → t ≤ now) :
    SameFrom now (lim.reserve now).2 lim ↔ ¬ lim.Charges := by
  unfold reserve
  by_cases hburst : 1 ≤ lim.burst
  · rw [if_pos hburst]
    by_cases hlimit : 0 ≤ lim.limit
    · -- a token is missing
      refine iff_of_false (fun h => ?_) (not_not.mpr ⟨hburst, hlimit⟩)
      have hlevel := h.level now le_rfl
      rw [level_take hlimit] at hlevel
      linarith
    · refine iff_of_true ⟨rfl, rfl, fun t ht => ?_⟩ (fun h => hlimit h.2)
      have hneg := not_le.mp hlimit
      rw [level_of_neg hneg hburst fun t' ht' => (hlast t' ht').trans ht]
      refine level_of_neg hneg hburst fun t' ht' => ?_
      cases ht'
      exact ht
  · rw [if_neg hburst]
    exact iff_of_true (.refl now lim) fun h => hburst h.1

end Limiter

end CtrlMesh.Framework
