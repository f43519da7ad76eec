import Mathlib.Data.Int.Log
import Mathlib.Data.Nat.Cast.Field
import Mathlib.Data.Rat.Floor
import Mathlib.Tactic.FieldSimp
import Mathlib.Tactic.Linarith
import Mathlib.Tactic.NormNum
import Mathlib.Tactic.Positivity

/-!
# Rounding to double precision

The double nearest to a rational: 53 significant bits, a tie going to the even
neighbour, and below `2 ^ (-1022)` the fixed spacing of the subnormal numbers.
There is no largest exponent: below `2 ^ 1024` the values are those of the
hardware, above it the hardware has infinities.
-/

namespace Binary64

/-- The integer nearest to a rational, a tie going to the even one. -/
def roundHalfEven (x : ℚ) : ℤ :=
  let low := ⌊x⌋
  if x - low < 1 / 2 ∨ x - low = 1 / 2 ∧ low % 2 = 0 then low else low + 1

/-- The exponent of the spacing of the doubles around `x`. -/
def ulpExponent (x : ℚ) : ℤ :=
  max (Int.log 2 |x| - 52) (-1074)

def round (x : ℚ) : ℚ :=
  roundHalfEven (x / 2 ^ ulpExponent x) * 2 ^ ulpExponent x

/-! ## The rounding error -/

@[simp] theorem roundHalfEven_intCast (n : ℤ) : roundHalfEven n = n := by
  simp [roundHalfEven]

theorem roundHalfEven_nonneg {x : ℚ} (hx : 0 ≤ x) : 0 ≤ roundHalfEven x := by
  have hfloor : 0 ≤ ⌊x⌋ := Int.floor_nonneg.mpr hx
  unfold roundHalfEven
  dsimp only
  split <;> omega

theorem abs_roundHalfEven_sub_le (x : ℚ) : |(roundHalfEven x : ℚ) - x| ≤ 1 / 2 := by
  have hlow := Int.floor_le x
  have hhigh := Int.lt_floor_add_one x
  unfold roundHalfEven
  dsimp only
  split
  next hnear =>
    have hbound : x - ⌊x⌋ ≤ 1 / 2 := by
      rcases hnear with hlt | ⟨heq, _⟩
      · exact hlt.le
      · exact heq.le
    rw [abs_le]
    constructor <;> linarith
  next hfar =>
    have hbound : 1 / 2 ≤ x - ⌊x⌋ := by
      by_contra hlt
      exact hfar (.inl (not_le.mp hlt))
    rw [abs_le]
    push_cast
    constructor <;> linarith

theorem two_zpow_pos (e : ℤ) : (0 : ℚ) < 2 ^ e :=
  zpow_pos two_pos e

theorem round_nonneg {x : ℚ} (hx : 0 ≤ x) : 0 ≤ round x := by
  have hunit := two_zpow_pos (ulpExponent x)
  have hquotient : 0 ≤ x / 2 ^ ulpExponent x := div_nonneg hx hunit.le
  have hrounded : (0 : ℚ) ≤ roundHalfEven (x / 2 ^ ulpExponent x) := by
    exact_mod_cast roundHalfEven_nonneg hquotient
  exact mul_nonneg hrounded hunit.le

theorem abs_round_sub_le_ulp (x : ℚ) :
    |round x - x| ≤ 2 ^ ulpExponent x / 2 := by
  have hunit := two_zpow_pos (ulpExponent x)
  have herror := abs_roundHalfEven_sub_le (x / 2 ^ ulpExponent x)
  have hscaled : round x - x =
      (roundHalfEven (x / 2 ^ ulpExponent x) - x / 2 ^ ulpExponent x) *
        2 ^ ulpExponent x := by
    unfold round
    field_simp
  rw [hscaled, abs_mul, abs_of_pos hunit]
  calc _ ≤ 1 / 2 * 2 ^ ulpExponent x := mul_le_mul_of_nonneg_right herror hunit.le
    _ = 2 ^ ulpExponent x / 2 := by ring

/-- The relative error is at most `2 ^ (-53)`, except among the subnormals. -/
theorem abs_round_sub_le {x : ℚ} (hx : 0 < x) :
    |round x - x| ≤ max x (2 ^ (-1022 : ℤ)) / 2 ^ 53 := by
  have hlog : (2 : ℚ) ^ Int.log 2 |x| ≤ |x| := by
    exact_mod_cast Int.zpow_log_le_self (b := 2) (by norm_num) (abs_pos.mpr hx.ne')
  rw [abs_of_pos hx] at hlog
  refine (abs_round_sub_le_ulp x).trans ?_
  unfold ulpExponent
  rw [abs_of_pos hx]
  rcases le_total (Int.log 2 x - 52) (-1074) with hsub | hnormal
  · rw [max_eq_right hsub]
    have hsplit : (2 : ℚ) ^ (-1074 : ℤ) / 2 = 2 ^ (-1022 : ℤ) / 2 ^ 53 := by
      rw [show (-1074 : ℤ) = -1022 - 52 by norm_num, zpow_sub₀ two_ne_zero]
      norm_num [div_div]
    rw [hsplit]
    gcongr
    exact le_max_right _ _
  · rw [max_eq_left hnormal]
    have hsplit : (2 : ℚ) ^ (Int.log 2 x - 52) / 2 = 2 ^ Int.log 2 x / 2 ^ 53 := by
      rw [zpow_sub₀ two_ne_zero]
      norm_num [div_div]
    rw [hsplit]
    gcongr
    exact hlog.trans (le_max_left _ _)

theorem sub_le_round {x : ℚ} (hx : 1 ≤ x) : x - x / 2 ^ 53 ≤ round x := by
  have hsubnormal : (2 : ℚ) ^ (-1022 : ℤ) ≤ x :=
    (zpow_le_one_of_nonpos₀ one_le_two (by norm_num)).trans hx
  have herror := abs_round_sub_le (zero_lt_one.trans_le hx)
  rw [max_eq_left hsubnormal] at herror
  linarith [(abs_le.mp herror).1]

/-! ## Integers and their quotients -/

/-- A multiple of the spacing around it is its own rounding. -/
theorem round_eq_self {x : ℚ} {n : ℤ} (hx : x = n * 2 ^ ulpExponent x) :
    round x = x := by
  have hquotient : x / 2 ^ ulpExponent x = n :=
    (div_eq_iff (two_zpow_pos _).ne').mpr hx
  rw [round, hquotient, roundHalfEven_intCast]
  exact hx.symm

theorem round_mul_two_zpow_of_lt {m e : ℤ} (hm : |m| < 2 ^ 53) (he : -1074 ≤ e) :
    round (m * 2 ^ e) = m * 2 ^ e := by
  rcases eq_or_ne m 0 with rfl | hzero
  · simp [round, roundHalfEven]
  · have hunit := two_zpow_pos e
    have habs : |(m : ℚ) * 2 ^ e| = |(m : ℚ)| * 2 ^ e := by
      rw [abs_mul, abs_of_pos hunit]
    have hpos : (0 : ℚ) < |(m : ℚ) * 2 ^ e| := by
      rw [habs]
      exact mul_pos (abs_pos.mpr (Int.cast_ne_zero.mpr hzero)) hunit
    have hlt : |(m : ℚ) * 2 ^ e| < ((2 : ℕ) : ℚ) ^ (53 + e) := by
      have hmQ : |(m : ℚ)| < 2 ^ 53 := by exact_mod_cast hm
      rw [habs, Nat.cast_ofNat, zpow_add₀ two_ne_zero]
      exact mul_lt_mul_of_pos_right hmQ hunit
    have hlog : Int.log 2 |(m : ℚ) * 2 ^ e| < 53 + e :=
      (Int.lt_zpow_iff_log_lt (by norm_num) hpos).mp hlt
    have hexp : ulpExponent (m * 2 ^ e) ≤ e := by
      unfold ulpExponent
      omega
    obtain ⟨k, hk⟩ := Int.le.dest hexp
    refine round_eq_self (n := m * 2 ^ k) ?_
    push_cast
    rw [mul_assoc, ← zpow_natCast, ← zpow_add₀ two_ne_zero, add_comm (k : ℤ), hk]

/-- Up to 53 bits, times a power of two, are a double. -/
theorem round_mul_two_zpow {m e : ℤ} (hm : |m| ≤ 2 ^ 53) (he : -1074 ≤ e) :
    round (m * 2 ^ e) = m * 2 ^ e := by
  rcases hm.lt_or_eq with hlt | heq
  · exact round_mul_two_zpow_of_lt hlt he
  · obtain ⟨half, rfl⟩ : ∃ half, m = half * 2 := by
      rcases (abs_eq (by positivity)).mp heq with rfl | rfl
      · exact ⟨2 ^ 52, by norm_num⟩
      · exact ⟨-2 ^ 52, by norm_num⟩
    have hhalf : |half| < 2 ^ 53 := by
      rw [abs_mul, abs_two] at heq
      omega
    have hshift : ((half * 2 : ℤ) : ℚ) * 2 ^ e = half * 2 ^ (e + 1) := by
      rw [zpow_add₀ two_ne_zero]
      push_cast
      ring
    rw [hshift]
    exact round_mul_two_zpow_of_lt hhalf (by omega)

theorem abs_roundHalfEven_le {x : ℚ} (hx : |x| < 2 ^ 53) : |roundHalfEven x| ≤ 2 ^ 53 := by
  obtain ⟨hlow, hhigh⟩ := abs_lt.mp hx
  have hfloor : -2 ^ 53 ≤ ⌊x⌋ := Int.le_floor.mpr (by exact_mod_cast hlow.le)
  have hlt : ⌊x⌋ < 2 ^ 53 := Int.floor_lt.mpr (by exact_mod_cast hhigh)
  unfold roundHalfEven
  dsimp only
  rw [abs_le]
  split <;> omega

theorem round_round (x : ℚ) : round (round x) = round x := by
  rcases eq_or_ne x 0 with rfl | hzero
  · simp [round, roundHalfEven]
  · have hunit := two_zpow_pos (ulpExponent x)
    have hsmall : |x / 2 ^ ulpExponent x| < 2 ^ 53 := by
      have hlog : |x| < ((2 : ℕ) : ℚ) ^ (Int.log 2 |x| + 1) :=
        Int.lt_zpow_succ_log_self (by norm_num) |x|
      have hexp : Int.log 2 |x| + 1 ≤ 53 + ulpExponent x := by
        unfold ulpExponent
        omega
      rw [abs_div, abs_of_pos hunit, div_lt_iff₀ hunit]
      calc |x| < 2 ^ (Int.log 2 |x| + 1) := by exact_mod_cast hlog
        _ ≤ 2 ^ (53 + ulpExponent x) := zpow_le_zpow_right₀ one_le_two hexp
        _ = 2 ^ 53 * 2 ^ ulpExponent x := by
            rw [zpow_add₀ two_ne_zero]
            norm_num
    exact round_mul_two_zpow (abs_roundHalfEven_le hsmall) (le_max_right _ _)

theorem round_intCast {n : ℤ} (hn : |n| < 2 ^ 53) : round (n : ℚ) = n := by
  have hround := round_mul_two_zpow hn.le (show -1074 ≤ (0 : ℤ) by decide)
  rwa [zpow_zero, mul_one] at hround

theorem round_natCast {n : ℕ} (hn : n < 2 ^ 53) : round (n : ℚ) = n := by
  have habs : |(n : ℤ)| < 2 ^ 53 := by
    rw [abs_of_nonneg (Int.natCast_nonneg n)]
    exact_mod_cast hn
  exact_mod_cast round_intCast habs

/-- The quotient of a number below `2 ^ 53` is rounded by less than the
distance of two quotients. -/
theorem abs_round_div_sub_lt {n m : ℕ} (hpos : 0 < n) (hn : n < 2 ^ 53)
    (hm : 0 < m) (hbound : m < 2 ^ 200) :
    |round ((n : ℚ) / m) - n / m| < 1 / m := by
  have hmQ : (0 : ℚ) < m := by exact_mod_cast hm
  have hnQ : (0 : ℚ) < n := by exact_mod_cast hpos
  have hnlt : (n : ℚ) < 2 ^ 53 := by exact_mod_cast hn
  refine (abs_round_sub_le (div_pos hnQ hmQ)).trans_lt ?_
  rw [div_lt_div_iff₀ (by positivity) hmQ, max_mul_of_nonneg _ _ hmQ.le, max_lt_iff]
  constructor
  · rw [div_mul_cancel₀ _ hmQ.ne', one_mul]
    exact hnlt
  · have hmlt : (m : ℚ) < 2 ^ (200 : ℤ) := by exact_mod_cast hbound
    calc (2 : ℚ) ^ (-1022 : ℤ) * m
        < 2 ^ (-1022 : ℤ) * 2 ^ (200 : ℤ) :=
          mul_lt_mul_of_pos_left hmlt (two_zpow_pos _)
      _ = 2 ^ (-822 : ℤ) := by
          rw [← zpow_add₀ two_ne_zero]
          norm_num
      _ ≤ 2 ^ (53 : ℤ) := zpow_le_zpow_right₀ one_le_two (by norm_num)
      _ = 1 * 2 ^ 53 := by norm_num

theorem round_div_of_dvd {n m : ℕ} (hn : n < 2 ^ 53) (hdvd : m ∣ n) :
    round ((n : ℚ) / m) = (n / m : ℕ) := by
  rw [← Nat.cast_div_charZero hdvd]
  exact round_natCast ((Nat.div_le_self n m).trans_lt hn)

/-- A quotient which is no integer keeps `1 / m` away from the integers. -/
theorem div_strictly_between {n m : ℕ} (hm : 0 < m) (hdvd : ¬ m ∣ n) :
    ((n / m : ℕ) : ℚ) + 1 / m ≤ n / m ∧
      (n : ℚ) / m + 1 / m ≤ ((n / m : ℕ) : ℚ) + 1 := by
  have hmQ : (0 : ℚ) < m := by exact_mod_cast hm
  have hrest : 0 < n % m := Nat.pos_of_ne_zero fun hzero =>
    hdvd (Nat.dvd_of_mod_eq_zero hzero)
  have hless : n % m < m := Nat.mod_lt n hm
  have hdivision : m * (n / m) + n % m = n := Nat.div_add_mod n m
  constructor
  · rw [le_div_iff₀ hmQ, add_mul, div_mul_cancel₀ _ hmQ.ne']
    have hnat : n / m * m + 1 ≤ n := by linarith [mul_comm m (n / m)]
    exact_mod_cast hnat
  · rw [← add_div, div_le_iff₀ hmQ, add_mul, one_mul]
    have hnat : n + 1 ≤ n / m * m + m := by linarith [mul_comm m (n / m)]
    exact_mod_cast hnat

theorem round_div_strictly_between {n m : ℕ} (hn : n < 2 ^ 53) (hm : 0 < m)
    (hbound : m < 2 ^ 200) (hdvd : ¬ m ∣ n) :
    ((n / m : ℕ) : ℚ) < round ((n : ℚ) / m) ∧
      round ((n : ℚ) / m) < ((n / m : ℕ) : ℚ) + 1 := by
  have hpos : 0 < n := Nat.pos_of_ne_zero fun hzero => hdvd (hzero ▸ dvd_zero m)
  have hexact := div_strictly_between hm hdvd
  have herror := abs_lt.mp (abs_round_div_sub_lt hpos hn hm hbound)
  constructor <;> linarith [herror.1, herror.2, hexact.1, hexact.2]

/-- Below `2 ^ 53` the rounded quotient has the integer part of the exact one. -/
theorem floor_round_div {n m : ℕ} (hn : n < 2 ^ 53) (hm : 0 < m) :
    ⌊round ((n : ℚ) / m)⌋ = (n / m : ℕ) := by
  by_cases hdvd : m ∣ n
  · rw [round_div_of_dvd hn hdvd, Int.floor_natCast]
  rcases lt_or_ge m (2 ^ 200) with hbound | hhuge
  · have hbetween := round_div_strictly_between hn hm hbound hdvd
    exact Int.floor_eq_iff.mpr ⟨by exact_mod_cast hbetween.1.le,
      by exact_mod_cast hbetween.2⟩
  · have hlarge : 2 * n < m := by
      calc 2 * n < 2 * 2 ^ 53 := (Nat.mul_lt_mul_left two_pos).mpr hn
        _ = 2 ^ 54 := by norm_num
        _ ≤ 2 ^ 200 := Nat.pow_le_pow_right two_pos (by norm_num)
        _ ≤ m := hhuge
    have hmQ : (0 : ℚ) < m := by exact_mod_cast hm
    have hhalf : (n : ℚ) / m ≤ 1 / 2 := by
      rw [div_le_div_iff₀ hmQ two_pos]
      have hnat : n * 2 ≤ 1 * m := by omega
      exact_mod_cast hnat
    have hsmall : round ((n : ℚ) / m) < 1 := by
      rcases Nat.eq_zero_or_pos n with rfl | hpos
      · simp [round, roundHalfEven]
      have hnQ : (0 : ℚ) < n := by exact_mod_cast hpos
      have herror := abs_round_sub_le (div_pos hnQ hmQ)
      have htiny : (2 : ℚ) ^ (-1022 : ℤ) ≤ 1 / 2 := by
        rw [one_div, ← zpow_neg_one]
        exact zpow_le_zpow_right₀ one_le_two (by norm_num)
      have hmax : max ((n : ℚ) / m) (2 ^ (-1022 : ℤ)) / 2 ^ 53 < 1 / 2 := by
        rw [div_lt_iff₀ (by positivity)]
        exact (max_le hhalf htiny).trans_lt (by norm_num)
      linarith [(abs_le.mp herror).2]
    rw [Nat.div_eq_of_lt (by omega)]
    exact Int.floor_eq_iff.mpr ⟨by exact_mod_cast round_nonneg (by positivity),
      by simpa using hsmall⟩

theorem ceil_round_div {n m : ℕ} (hn : n < 2 ^ 53) (hm : 0 < m)
    (hbound : m < 2 ^ 200) : ⌈round ((n : ℚ) / m)⌉ = ⌈(n : ℚ) / m⌉ := by
  by_cases hdvd : m ∣ n
  · rw [round_div_of_dvd hn hdvd, Nat.cast_div_charZero hdvd]
  · have hmQ : (0 : ℚ) < m := by exact_mod_cast hm
    have hbetween := round_div_strictly_between hn hm hbound hdvd
    have hquotient := div_strictly_between hm hdvd
    have hgap : (0 : ℚ) < 1 / m := by positivity
    have hrounded : ⌈round ((n : ℚ) / m)⌉ = ((n / m : ℕ) : ℤ) + 1 := by
      rw [Int.ceil_eq_iff]
      simp only [Int.cast_add, Int.cast_natCast, Int.cast_one]
      exact ⟨by linarith [hbetween.1], hbetween.2.le⟩
    have hexact : ⌈(n : ℚ) / m⌉ = ((n / m : ℕ) : ℤ) + 1 := by
      rw [Int.ceil_eq_iff]
      simp only [Int.cast_add, Int.cast_natCast, Int.cast_one]
      exact ⟨by linarith [hquotient.1], by linarith [hquotient.2]⟩
    rw [hrounded, hexact]

end Binary64
