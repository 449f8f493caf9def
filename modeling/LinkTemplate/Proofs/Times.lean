import LinkTemplate.Log.Timestamp
import Mathlib.Algebra.Group.Nat.Defs

/-!
# Times that can be written

The time of a record is a double-precision number of seconds, from which its microseconds are
recovered. Two roundings lie between: to the nearest double and back to a whole number. In the span
of the calendar a double has at least thirteen binary places behind the point, so that the two move
a time by 62 microseconds at most (`recovered_near`). A time that is a year away from the ends of
the calendar therefore stays in it and has a timestamp.

Main results: `nearest_near`, `recovered_near`, `exists_stamp`.
-/

namespace LinkTemplate

namespace Binary64

/-! ## The nearest double -/

theorem exponentFor_le (num den : Nat) :
    exponentFor num den ≤ max (-1074) ((num.log2 : Int) - den.log2 - 53) + 1 := by
  unfold exponentFor
  dsimp only
  split <;> omega

theorem inUnits_neg (num den : Nat) {k : Nat} (hk : 0 < k) :
    inUnits num den (-k) = (num * 2 ^ k, den) := by
  rw [inUnits, if_pos (by omega), Int.natAbs_neg, Int.natAbs_natCast]
  rfl

/-- **The nearest double lies within half a unit**, here where it has places behind the point. -/
theorem nearest_near (negative : Bool) {num den places : Nat} (hden : 0 < den)
    (hplaces : 0 < places) (h : exponentFor num den ≤ -(places + 1)) :
    ∃ significand k : Nat, places ≤ k ∧
      nearest negative num den = finite negative significand (-k) ∧
      2 * (den * significand) ≤ 2 * (num * 2 ^ k) + den ∧
      2 * (num * 2 ^ k) ≤ 2 * (den * significand) + den := by
  obtain ⟨k, hk⟩ : ∃ k : Nat, exponentFor num den = -((k + 1 : Nat) : Int) :=
    ⟨(exponentFor num den).natAbs - 1, by omega⟩
  have hnear := roundHalfEven_near (num * 2 ^ (k + 1)) hden
  have hpow : num * 2 ^ (k + 1) = 2 * (num * 2 ^ k) := by rw [Nat.pow_succ]; ac_rfl
  have htwice : Nat.pow 2 53 = 2 * Nat.pow 2 52 := by decide
  have hexponent : -((k + 1 : Nat) : Int) + 1 = -k := by omega
  unfold nearest
  simp only [hk, inUnits_neg num den (Nat.succ_pos k), htwice, hexponent]
  generalize Nat.pow 2 52 = half
  -- A significand that is rounded up to the next power of two moves the exponent by one.
  split
  next hcarry =>
    refine ⟨half, k, by omega, if_neg (by omega), ?_⟩
    rw [hcarry, hpow] at hnear
    have hdouble : den * (2 * half) = 2 * (den * half) := by ac_rfl
    omega
  next => exact ⟨_, k + 1, by omega, if_neg (by omega), hnear⟩

end Binary64

namespace Log.Timestamp

open Binary64

/-! ## What is recovered -/

theorem exponentFor_seconds {n : Nat} (h : n < 2 ^ 58) : exponentFor n 1000000 ≤ -14 := by
  have hlog : n.log2 < 58 := by
    rcases Nat.eq_zero_or_pos n with rfl | hpos
    · decide
    · exact (Nat.log2_lt (Nat.pos_iff_ne_zero.1 hpos)).2 h
  have hmillion : Nat.log2 1000000 = 19 := by decide
  have hle := exponentFor_le n 1000000
  rw [hmillion] at hle
  omega

theorem recovered_of_nearest {micros : Int} {negative : Bool} {significand k : Nat} (hk : 0 < k)
    (h : nearest (micros < 0) micros.natAbs 1000000 = finite negative significand (-k)) :
    recovered micros =
      if negative then -(roundHalfEven (significand * 1000000) (2 ^ k) : Int)
      else roundHalfEven (significand * 1000000) (2 ^ k) := by
  have hexponent : -(k : Int) < 0 := by omega
  unfold recovered
  generalize nearest (micros < 0) micros.natAbs 1000000 = seconds at h ⊢
  subst h
  simp only [if_pos hexponent, Int.natAbs_neg, Int.natAbs_natCast]
  rfl

/-- **The two roundings move a time by 62 microseconds at most.** -/
theorem recovered_near {micros : Int} (h : micros.natAbs < 2 ^ 58) :
    micros - 62 ≤ recovered micros ∧ recovered micros ≤ micros + 62 := by
  obtain ⟨significand, k, hk, hnearest, hle, hge⟩ :=
    nearest_near (decide (micros < 0)) (show 0 < 1000000 by decide) (show 0 < 13 by decide)
      (exponentFor_seconds h)
  have hround := roundHalfEven_near (significand * 1000000) (Nat.two_pow_pos k)
  rw [recovered_of_nearest (Nat.lt_of_lt_of_le (by decide) hk) hnearest]
  generalize roundHalfEven (significand * 1000000) (2 ^ k) = size at hround ⊢
  have hpow : 2 ^ 13 ≤ 2 ^ k := Nat.pow_le_pow_right (by decide) hk
  -- Both faults, in units of the last place: one is half of a million, the other half of `2 ^ k`.
  have hsize : 2 ^ k * size ≤ 2 ^ k * (micros.natAbs + 62) := by
    rw [Nat.mul_add, Nat.mul_comm _ micros.natAbs]
    omega
  have hnatAbs : 2 ^ k * micros.natAbs ≤ 2 ^ k * (size + 62) := by
    rw [Nat.mul_add, Nat.mul_comm _ micros.natAbs]
    omega
  have hsize := Nat.le_of_mul_le_mul_left hsize (Nat.two_pow_pos k)
  have hnatAbs := Nat.le_of_mul_le_mul_left hnatAbs (Nat.two_pow_pos k)
  split
  next hneg =>
    have hneg := of_decide_eq_true hneg
    omega
  next hpos =>
    have hpos := of_decide_eq_false (Bool.eq_false_iff.2 hpos)
    omega

/-! ## Dates of days -/

/-- The days from 1 March of the year 1 to 28 February of the year 9999 are in the calendar. -/
theorem year_dateOfDay {day : Int} (hfirst : -719103 ≤ day) (hlast : day ≤ 2932590) :
    1 ≤ (dateOfDay day).year ∧ (dateOfDay day).year ≤ 9999 := by
  simp only [dateOfDay, Int.fdiv_eq_ediv_of_nonneg _ (show (0 : Int) ≤ 146097 by decide),
    Int.fmod_eq_emod_of_nonneg _ (show (0 : Int) ≤ 146097 by decide)]
  omega

/-- The times of the years 2 to 9998. -/
def IsInCalendar (micros : Int) : Prop :=
  -62104060800000000 ≤ micros ∧ micros < 253370764800000000

/-- **A time in the calendar has a timestamp.** -/
theorem exists_stamp {micros : Int} (h : IsInCalendar micros) :
    ∃ stamp, ofMicros micros = .ok stamp := by
  obtain ⟨hfirst, hlast⟩ := h
  have hnatAbs : micros.natAbs < 2 ^ 58 := by omega
  obtain ⟨hle, hge⟩ := recovered_near hnatAbs
  have hday : -719103 ≤ ((recovered micros).fdiv 1000).fdiv 86400000 ∧
      ((recovered micros).fdiv 1000).fdiv 86400000 ≤ 2932590 := by
    rw [Int.fdiv_eq_ediv_of_nonneg _ (by decide), Int.fdiv_eq_ediv_of_nonneg _ (by decide)]
    omega
  obtain ⟨hone, hmax⟩ := year_dateOfDay hday.1 hday.2
  rw [ofMicros]
  exact ⟨_, if_neg (by omega)⟩

end Log.Timestamp

end LinkTemplate
