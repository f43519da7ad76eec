import Mathlib.Data.Nat.Digits.Lemmas
import Pm2Manager.Binary64
import Pm2Manager.JsonText

/-!
# Decimal texts of doubles

The text of a double is the one with the fewest digits which is read as this
double, and among those the closest; the point and the exponent stand where
ECMAScript puts them.  A text of the JSON number grammar is read as the double
nearest to its exact value.
-/

namespace NumberText

open JsonText (Text isNumberUnit)

/-- A finite double: a sign and a magnitude. -/
structure Number where
  negative : Bool
  magnitude : ℚ
  nonneg : 0 ≤ magnitude
  rounded : Binary64.round magnitude = magnitude
deriving DecidableEq

namespace Number

def zero : Number where
  negative := false
  magnitude := 0
  nonneg := le_refl 0
  rounded := by simp [Binary64.round, Binary64.roundHalfEven]

def negativeZero : Number where
  negative := true
  magnitude := 0
  nonneg := le_refl 0
  rounded := by simp [Binary64.round, Binary64.roundHalfEven]

def value (x : Number) : ℚ :=
  if x.negative then -x.magnitude else x.magnitude

/-- The double nearest to a natural number. -/
def ofNat (n : ℕ) : Number where
  negative := false
  magnitude := Binary64.round n
  nonneg := Binary64.round_nonneg (Nat.cast_nonneg n)
  rounded := Binary64.round_round n

/-- The double nearest to an integer; never `-0`. -/
def ofInt (n : ℤ) : Number where
  negative := decide (n < 0)
  magnitude := Binary64.round n.natAbs
  nonneg := Binary64.round_nonneg (Nat.cast_nonneg n.natAbs)
  rounded := Binary64.round_round n.natAbs

theorem value_ofNat {n : ℕ} (hn : n < 2 ^ 53) : (ofNat n).value = n :=
  Binary64.round_natCast hn

end Number

/-! ## Decimals -/

def isDigit (u : UInt16) : Bool :=
  48 ≤ u && u ≤ 57

/-- Most significant digit first; none for zero. -/
def digits (n : ℕ) : Text :=
  (Nat.digits 10 n).reverse.map fun d => UInt16.ofNat (48 + d)

def readDigits (text : Text) : ℕ :=
  text.foldl (fun n u => n * 10 + (u.toNat - 48)) 0

/-- The parts of a JSON number.  `fraction` is empty where there is no point;
an exponent has a sign, `true` for minus, and digits. -/
structure Decimal where
  negative : Bool
  whole : Text
  fraction : Text
  exponent : Option (Bool × Text)

namespace Decimal

def exponentText : Option (Bool × Text) → Text
  | none => []
  | some (minus, power) => 101 :: (if minus then 45 else 43) :: power

def text (d : Decimal) : Text :=
  (if d.negative then [45] else []) ++ d.whole ++
    (if d.fraction = [] then [] else 46 :: d.fraction) ++ exponentText d.exponent

def power : Option (Bool × Text) → ℤ
  | none => 0
  | some (minus, power) => if minus then -readDigits power else readDigits power

def magnitude (d : Decimal) : ℚ :=
  readDigits (d.whole ++ d.fraction) * 10 ^ (power d.exponent - d.fraction.length)

structure WellFormed (d : Decimal) : Prop where
  whole_ne_nil : d.whole ≠ []
  whole_digits : ∀ u ∈ d.whole, isDigit u = true
  leading_zero : d.whole.head? = some 48 → d.whole.length = 1
  fraction_digits : ∀ u ∈ d.fraction, isDigit u = true
  exponent_ne_nil : ∀ e ∈ d.exponent, e.2 ≠ []
  exponent_digits : ∀ e ∈ d.exponent, ∀ u ∈ e.2, isDigit u = true

end Decimal

def parseFraction : Text → Option (Text × Text)
  | [] => some ([], [])
  | c :: rest =>
    if c = 46 then
      if rest.takeWhile isDigit = [] then none
      else some (rest.takeWhile isDigit, rest.dropWhile isDigit)
    else some ([], c :: rest)

def parsePower (minus : Bool) (power : Text) : Option (Option (Bool × Text)) :=
  if power ≠ [] ∧ power.all isDigit then some (some (minus, power)) else none

def parseExponent : Text → Option (Option (Bool × Text))
  | [] => some none
  | c :: rest =>
    if c = 101 ∨ c = 69 then
      match rest with
      | [] => none
      | sign :: power =>
        if sign = 45 then parsePower true power
        else if sign = 43 then parsePower false power
        else parsePower false (sign :: power)
    else none

def parseMagnitude (negative : Bool) (text : Text) : Option Decimal := do
  let whole := text.takeWhile isDigit
  if whole = [] ∨ whole.head? = some 48 ∧ whole.length ≠ 1 then none
  else
    let (fraction, rest) ← parseFraction (text.dropWhile isDigit)
    let exponent ← parseExponent rest
    some { negative, whole, fraction, exponent }

/-- The number grammar of JSON. -/
def parseDecimal (text : Text) : Option Decimal :=
  if text.head? = some 45 then parseMagnitude true text.tail
  else parseMagnitude false text

namespace Decimal

theorem magnitude_nonneg (d : Decimal) : 0 ≤ d.magnitude :=
  mul_nonneg (Nat.cast_nonneg _) (zpow_nonneg (by norm_num) _)

/-- The double for which a decimal stands. -/
def number (d : Decimal) : Number where
  negative := d.negative
  magnitude := Binary64.round d.magnitude
  nonneg := Binary64.round_nonneg d.magnitude_nonneg
  rounded := Binary64.round_round d.magnitude

end Decimal

def parse (text : Text) : Option Number :=
  (parseDecimal text).map Decimal.number

/-! ## The shortest digits -/

/-- Of the two numbers of `k` digits around the double `x`, the one which is
read as `x`, and the closer one if both are. -/
def candidate (x : ℚ) (k : ℕ) : Option (ℕ × ℤ) :=
  let e := Int.log 10 x + 1 - k
  let scaled := x / 10 ^ e
  let low := ⌊scaled⌋₊
  let high := ⌈scaled⌉₊
  let reads (s : ℕ) : Bool := Binary64.round (s * 10 ^ e) = x
  if reads low && (!reads high || scaled - low < high - scaled ||
      scaled - low = high - scaled && low % 2 = 0) then some (low, e)
  else if reads high then
    if high = 10 ^ k then some (10 ^ (k - 1), e + 1) else some (high, e)
  else none

/-- From this number of digits on the decimal is exact. -/
def digitBound (x : ℚ) : ℕ :=
  (Int.log 10 x + 1).toNat + 1075

/-- The digits `s` and the exponent of `s * 10 ^ e`. -/
def shortest (x : ℚ) : Option (ℕ × ℤ) :=
  (List.range (digitBound x)).findSome? fun k => candidate x (k + 1)

/-- Where the point and the exponent stand: `n` digits before the point. -/
def layout (negative : Bool) (s : ℕ) (e : ℤ) : Decimal :=
  let k := (digits s).length
  let n := k + e
  if k ≤ n ∧ n ≤ 21 then
    { negative
      whole := digits s ++ List.replicate (n - k).toNat 48
      fraction := []
      exponent := none }
  else if 0 < n ∧ n ≤ 21 then
    { negative
      whole := (digits s).take n.toNat
      fraction := (digits s).drop n.toNat
      exponent := none }
  else if -6 < n ∧ n ≤ 0 then
    { negative
      whole := [48]
      fraction := List.replicate (-n).toNat 48 ++ digits s
      exponent := none }
  else
    { negative
      whole := (digits s).take 1
      fraction := (digits s).drop 1
      exponent := some (n - 1 < 0, digits (n - 1).natAbs) }

/-- The text of a double; a zero has no sign in it. -/
def text (x : Number) : Text :=
  if x.magnitude = 0 then [48]
  else match shortest x.magnitude with
    | some (s, e) => (layout x.negative s e).text
    | none => []

/-- A zero loses its sign. -/
def reread (x : Number) : Number :=
  if x.magnitude = 0 then .zero else x

/-! ## The digits are read as the double -/

theorem ten_pow_mul_zpow (k : ℕ) (e : ℤ) :
    ((10 ^ k : ℕ) : ℚ) * 10 ^ (e + 1) = ((10 ^ (k + 1) : ℕ) : ℚ) * 10 ^ e := by
  rw [zpow_add₀ (by norm_num), pow_succ]
  push_cast
  ring

theorem candidate_reads {x : ℚ} {k s : ℕ} {e : ℤ}
    (hcandidate : candidate x (k + 1) = some (s, e)) :
    Binary64.round (s * 10 ^ e) = x := by
  unfold candidate at hcandidate
  dsimp only at hcandidate
  split_ifs at hcandidate with hlow hhigh hpower
  · cases hcandidate
    rw [Bool.and_eq_true] at hlow
    exact of_decide_eq_true hlow.1
  · cases hcandidate
    rw [Nat.add_sub_cancel, ten_pow_mul_zpow, ← hpower]
    exact of_decide_eq_true hhigh
  · cases hcandidate
    exact of_decide_eq_true hhigh

theorem shortest_reads {x : ℚ} {s : ℕ} {e : ℤ} (hshortest : shortest x = some (s, e)) :
    Binary64.round (s * 10 ^ e) = x := by
  obtain ⟨k, _, hcandidate⟩ := List.exists_of_findSome?_eq_some hshortest
  exact candidate_reads hcandidate

/-- A double has 1074 bits after the point at most, so that many decimals. -/
theorem exists_scaled_eq {x : ℚ} (hx : 0 ≤ x) (hround : Binary64.round x = x) {e : ℤ}
    (he : e ≤ -1074) : ∃ n : ℕ, x / 10 ^ e = n := by
  have hulp : -1074 ≤ Binary64.ulpExponent x := le_max_right _ _
  obtain ⟨twos, htwos⟩ := Int.le.dest (show 0 ≤ Binary64.ulpExponent x - e by omega)
  obtain ⟨fives, hfives⟩ := Int.le.dest (show 0 ≤ -e by omega)
  have hscaled : x / 10 ^ e =
      (Binary64.roundHalfEven (x / 2 ^ Binary64.ulpExponent x) * 2 ^ twos * 5 ^ fives : ℤ) := by
    conv_lhs => rw [← hround]
    rw [zero_add] at htwos hfives
    rw [Binary64.round, div_eq_mul_inv, ← zpow_neg,
      show (10 : ℚ) = 2 * 5 by norm_num, mul_zpow]
    push_cast
    rw [← zpow_natCast 2 twos, ← zpow_natCast 5 fives, htwos, hfives,
      show Binary64.ulpExponent x - e = Binary64.ulpExponent x + -e by ring,
      zpow_add₀ two_ne_zero]
    ring
  have hnonneg : 0 ≤ x / 10 ^ e := div_nonneg hx (zpow_nonneg (by norm_num) e)
  rw [hscaled] at hnonneg
  obtain ⟨n, hn⟩ := Int.eq_ofNat_of_zero_le (Int.cast_nonneg_iff.mp hnonneg)
  exact ⟨n, by rw [hscaled, hn, Int.cast_natCast]⟩

theorem candidate_isSome {x : ℚ} {k : ℕ} {n : ℕ} (hround : Binary64.round x = x)
    (hexact : x / 10 ^ (Int.log 10 x + 1 - k) = n) : (candidate x k).isSome = true := by
  have hreads : Binary64.round ((n : ℚ) * 10 ^ (Int.log 10 x + 1 - k)) = x := by
    rw [← hexact, div_mul_cancel₀ x (zpow_ne_zero _ (by norm_num)), hround]
  unfold candidate
  dsimp only
  rw [hexact, Nat.ceil_natCast, Nat.floor_natCast]
  split_ifs with hlow hhigh
  · rfl
  · rfl
  · rfl
  · exact absurd (decide_eq_true hreads) hhigh

theorem exists_shortest {x : ℚ} (hx : 0 ≤ x) (hround : Binary64.round x = x) :
    ∃ s e, shortest x = some (s, e) := by
  obtain ⟨n, hn⟩ := exists_scaled_eq hx hround
    (show Int.log 10 x + 1 - (digitBound x : ℤ) ≤ -1074 by
      unfold digitBound
      omega)
  have hsome : (shortest x).isSome = true := by
    rw [shortest, List.findSome?_isSome_iff]
    refine ⟨digitBound x - 1, List.mem_range.mpr ?_, ?_⟩
    · unfold digitBound
      omega
    · rw [show digitBound x - 1 + 1 = digitBound x by unfold digitBound; omega]
      exact candidate_isSome hround hn
  obtain ⟨⟨s, e⟩, heq⟩ := Option.isSome_iff_exists.mp hsome
  exact ⟨s, e, heq⟩

/-! ## Digits -/

theorem toNat_digitUnit {d : ℕ} (hd : d < 10) : (UInt16.ofNat (48 + d)).toNat = 48 + d :=
  UInt16.toNat_ofNat_of_lt (by simp only [UInt16.size]; omega)

theorem isDigit_digitUnit {d : ℕ} (hd : d < 10) : isDigit (UInt16.ofNat (48 + d)) = true := by
  revert d
  decide

theorem isDigit_digits (n : ℕ) : ∀ u ∈ digits n, isDigit u = true := by
  intro u hu
  obtain ⟨d, hd, rfl⟩ := List.mem_map.mp hu
  exact isDigit_digitUnit (Nat.digits_lt_base (by decide) (List.mem_reverse.mp hd))

theorem digits_cons {n : ℕ} (hn : n ≠ 0) :
    ∃ c rest, digits n = c :: rest ∧ c ≠ 48 := by
  have hne : Nat.digits 10 n ≠ [] := Nat.digits_ne_nil_iff_ne_zero.mpr hn
  have hlast := Nat.getLast_digit_ne_zero 10 hn
  have hlt : (Nat.digits 10 n).getLast hne < 10 :=
    Nat.digits_lt_base (by decide) (List.getLast_mem hne)
  refine ⟨UInt16.ofNat (48 + (Nat.digits 10 n).getLast hne),
    (Nat.digits 10 n).dropLast.reverse.map fun d => UInt16.ofNat (48 + d), ?_, ?_⟩
  · unfold digits
    conv_lhs => rw [← List.dropLast_append_getLast hne]
    rw [List.reverse_append, List.reverse_singleton, List.map_append]
    rfl
  · intro hzero
    have hvalue := congrArg UInt16.toNat hzero
    rw [toNat_digitUnit hlt] at hvalue
    change 48 + _ = 48 at hvalue
    omega

theorem foldl_digits (init : ℕ) (text : Text) :
    text.foldl (fun n u => n * 10 + (u.toNat - 48)) init =
      init * 10 ^ text.length + readDigits text := by
  induction text generalizing init with
  | nil => simp [readDigits]
  | cons u rest ih =>
      have hfirst : readDigits (u :: rest) =
          (0 * 10 + (u.toNat - 48)) * 10 ^ rest.length + readDigits rest := ih _
      rw [List.foldl_cons, ih, hfirst, List.length_cons, pow_succ]
      ring

theorem readDigits_append (front back : Text) :
    readDigits (front ++ back) = readDigits front * 10 ^ back.length + readDigits back := by
  rw [readDigits, List.foldl_append, foldl_digits]
  rfl

theorem readDigits_singleton {d : ℕ} (hd : d < 10) :
    readDigits [UInt16.ofNat (48 + d)] = d := by
  rw [readDigits, List.foldl_cons, List.foldl_nil, toNat_digitUnit hd]
  omega

theorem readDigits_digits (n : ℕ) : readDigits (digits n) = n := by
  have hlist : ∀ list : List ℕ, (∀ d ∈ list, d < 10) →
      readDigits (list.reverse.map fun d => UInt16.ofNat (48 + d)) =
        Nat.ofDigits 10 list := by
    intro list
    induction list with
    | nil => exact fun _ => rfl
    | cons d rest ih =>
        intro hlt
        rw [List.reverse_cons, List.map_append, readDigits_append,
          ih fun other hother => hlt other (List.mem_cons_of_mem d hother),
          List.map_singleton, readDigits_singleton (hlt d List.mem_cons_self),
          Nat.ofDigits_cons, List.length_singleton]
        push_cast
        ring
  rw [digits, hlist _ fun d hd => Nat.digits_lt_base (by decide) hd, Nat.ofDigits_digits]

theorem readDigits_zeros (n : ℕ) : readDigits (List.replicate n 48) = 0 := by
  induction n with
  | zero => rfl
  | succ n ih =>
      rw [List.replicate_succ', readDigits_append, ih]
      rfl

/-! ## The layout is a decimal of the same magnitude -/

theorem layout_wellFormed (negative : Bool) {s : ℕ} (hs : s ≠ 0) (e : ℤ) :
    (layout negative s e).WellFormed := by
  obtain ⟨c, rest, heq, hc⟩ := digits_cons hs
  have hdigits : ∀ u ∈ digits s, isDigit u = true := isDigit_digits s
  have hzeros : ∀ n : ℕ, ∀ u ∈ List.replicate n (48 : UInt16), isDigit u = true := by
    intro n u hu
    rw [List.eq_of_mem_replicate hu]
    rfl
  unfold layout
  dsimp only
  split_ifs with hinteger hpoint hsmall
  · exact {
      whole_ne_nil := by simp [heq]
      whole_digits := by
        intro u hu
        rcases List.mem_append.mp hu with hdigit | hzero
        · exact hdigits u hdigit
        · exact hzeros _ u hzero
      leading_zero := by simp [heq, hc]
      fraction_digits := by simp
      exponent_ne_nil := by simp
      exponent_digits := by simp }
  · obtain ⟨n, hn⟩ := Nat.exists_eq_succ_of_ne_zero
      (show (((digits s).length : ℤ) + e).toNat ≠ 0 by omega)
    rw [hn]
    exact {
      whole_ne_nil := by simp [heq]
      whole_digits := fun u hu => hdigits u (List.mem_of_mem_take hu)
      leading_zero := by simp [heq, hc]
      fraction_digits := fun u hu => hdigits u (List.mem_of_mem_drop hu)
      exponent_ne_nil := by simp
      exponent_digits := by simp }
  · exact {
      whole_ne_nil := by simp
      whole_digits := by simp [isDigit]
      leading_zero := by simp
      fraction_digits := by
        intro u hu
        rcases List.mem_append.mp hu with hzero | hdigit
        · exact hzeros _ u hzero
        · exact hdigits u hdigit
      exponent_ne_nil := by simp
      exponent_digits := by simp }
  · have hpower : (((digits s).length : ℤ) + e - 1).natAbs ≠ 0 := by
      have hlength : 0 < (digits s).length := by simp [heq]
      omega
    obtain ⟨d, more, hmore, _⟩ := digits_cons hpower
    exact {
      whole_ne_nil := by simp [heq]
      whole_digits := fun u hu => hdigits u (List.mem_of_mem_take hu)
      leading_zero := by simp [heq]
      fraction_digits := fun u hu => hdigits u (List.mem_of_mem_drop hu)
      exponent_ne_nil := by simp [hmore]
      exponent_digits := by
        intro exponent hexponent
        obtain rfl := Option.some.inj hexponent
        exact isDigit_digits _ }

theorem power_digits (n : ℤ) :
    Decimal.power (some (decide (n < 0), digits n.natAbs)) = n := by
  by_cases hn : n < 0
  · simp [Decimal.power, hn, readDigits_digits, abs_of_neg hn]
  · simp [Decimal.power, hn, readDigits_digits, abs_of_nonneg (not_lt.mp hn)]

theorem layout_magnitude (negative : Bool) {s : ℕ} (hs : s ≠ 0) (e : ℤ) :
    (layout negative s e).magnitude = s * 10 ^ e := by
  have hlength : 0 < (digits s).length := by
    obtain ⟨c, rest, heq, _⟩ := digits_cons hs
    simp [heq]
  unfold layout
  dsimp only
  split_ifs with hinteger hpoint hsmall
  · obtain ⟨n, rfl⟩ := Int.eq_ofNat_of_zero_le (show 0 ≤ e by omega)
    simp [Decimal.magnitude, Decimal.power, readDigits_append, readDigits_digits,
      readDigits_zeros]
  · have hfraction : (((digits s).drop (((digits s).length : ℤ) + e).toNat).length : ℤ) =
        -e := by
      rw [List.length_drop]
      omega
    rw [Decimal.magnitude, List.take_append_drop, readDigits_digits, hfraction,
      Decimal.power, zero_sub, neg_neg]
  · have hfraction : ((List.replicate (-(((digits s).length : ℤ) + e)).toNat (48 : UInt16) ++
        digits s).length : ℤ) = -e := by
      rw [List.length_append, List.length_replicate]
      omega
    rw [Decimal.magnitude, hfraction, Decimal.power, zero_sub, neg_neg, readDigits_append,
      readDigits_append, readDigits_zeros, readDigits_digits]
    simp [readDigits]
  · have hfraction : (((digits s).drop 1).length : ℤ) = (digits s).length - 1 := by
      rw [List.length_drop]
      omega
    rw [Decimal.magnitude, List.take_append_drop, readDigits_digits, hfraction, power_digits]
    congr 2
    ring

/-! ## Texts of decimals are read back -/

namespace Decimal

variable {d : Decimal}

theorem exponentText_head (exponent : Option (Bool × Text)) :
    ∀ u, (exponentText exponent).head? = some u → u = 101 := by
  intro u hu
  cases exponent with
  | none => cases hu
  | some e => exact (Option.some.inj hu).symm

theorem parsePower_eq {minus : Bool} {power : Text} (hne : power ≠ [])
    (hdigits : ∀ u ∈ power, isDigit u = true) :
    parsePower minus power = some (some (minus, power)) :=
  if_pos ⟨hne, List.all_eq_true.mpr hdigits⟩

theorem WellFormed.parseExponent_eq (hd : d.WellFormed) :
    parseExponent (exponentText d.exponent) = some d.exponent := by
  cases hexponent : d.exponent with
  | none => rfl
  | some e =>
      obtain ⟨minus, power⟩ := e
      have hpower := hd.exponent_ne_nil _ hexponent
      have hdigits := hd.exponent_digits _ hexponent
      cases minus with
      | true => exact parsePower_eq hpower hdigits
      | false => exact parsePower_eq hpower hdigits

theorem WellFormed.parseFraction_eq (hd : d.WellFormed) :
    parseFraction ((if d.fraction = [] then [] else 46 :: d.fraction) ++
      exponentText d.exponent) = some (d.fraction, exponentText d.exponent) := by
  have hhead := exponentText_head d.exponent
  split_ifs with hempty
  · rw [hempty, List.nil_append]
    cases hexponent : exponentText d.exponent with
    | nil => rfl
    | cons c rest =>
        obtain rfl := hhead c (by rw [hexponent]; rfl)
        rfl
  · obtain ⟨htake, hdrop⟩ := JsonText.span_append hd.fraction_digits fun u hu => by
      rw [hhead u hu]
      rfl
    rw [List.cons_append, parseFraction, if_pos rfl, htake, hdrop, if_neg hempty]

theorem WellFormed.parseMagnitude_eq (hd : d.WellFormed) (negative : Bool) :
    parseMagnitude negative (d.whole ++ ((if d.fraction = [] then [] else 46 :: d.fraction) ++
      exponentText d.exponent)) = some { d with negative } := by
  have hrest : ∀ u, ((if d.fraction = [] then [] else 46 :: d.fraction) ++
      exponentText d.exponent).head? = some u → isDigit u = false := by
    intro u hu
    split_ifs at hu
    · rw [exponentText_head d.exponent u hu]
      rfl
    · rw [← Option.some.inj hu]
      rfl
  obtain ⟨htake, hdrop⟩ := JsonText.span_append hd.whole_digits hrest
  have hgrammar : ¬(d.whole = [] ∨ d.whole.head? = some 48 ∧ d.whole.length ≠ 1) := by
    rintro (hempty | ⟨hzero, hlong⟩)
    · exact hd.whole_ne_nil hempty
    · exact hlong (hd.leading_zero hzero)
  unfold parseMagnitude
  dsimp only
  rw [htake, hdrop, if_neg hgrammar, hd.parseFraction_eq]
  simp only [Option.bind_eq_bind, Option.bind_some, hd.parseExponent_eq]

theorem WellFormed.head_ne_minus (hd : d.WellFormed) (back : Text) :
    (d.whole ++ back).head? ≠ some 45 := by
  obtain ⟨c, rest, heq⟩ := List.exists_cons_of_ne_nil hd.whole_ne_nil
  rw [heq, List.cons_append, List.head?_cons]
  rintro hminus
  obtain rfl := Option.some.inj hminus
  exact absurd (hd.whole_digits 45 (heq ▸ List.mem_cons_self)) (by decide)

theorem WellFormed.parseDecimal_text (hd : d.WellFormed) : parseDecimal d.text = some d := by
  have hmagnitude := hd.parseMagnitude_eq d.negative
  have hhead := hd.head_ne_minus ((if d.fraction = [] then [] else 46 :: d.fraction) ++
    exponentText d.exponent)
  rw [text, List.append_assoc, List.append_assoc]
  generalize d.whole ++ ((if d.fraction = [] then [] else 46 :: d.fraction) ++
    exponentText d.exponent) = unsigned at hmagnitude hhead
  by_cases hnegative : d.negative = true
  · rw [if_pos hnegative, List.singleton_append, parseDecimal,
      if_pos (show (45 :: unsigned).head? = some 45 from rfl), List.tail_cons, ← hnegative]
    exact hmagnitude
  · rw [if_neg hnegative, List.nil_append, parseDecimal, if_neg hhead,
      ← Bool.eq_false_iff.mpr hnegative]
    exact hmagnitude

theorem isNumberUnit_of_isDigit {u : UInt16} (hu : isDigit u = true) :
    isNumberUnit u = true ∧ u ≠ 69 := by
  constructor
  · unfold isDigit at hu
    simp [isNumberUnit, hu]
  · rintro rfl
    cases hu

/-- Exponents are written with a small letter. -/
theorem WellFormed.text_units (hd : d.WellFormed) :
    ∀ u ∈ d.text, isNumberUnit u = true ∧ u ≠ 69 := by
  intro u hu
  simp only [text, List.mem_append] at hu
  rcases hu with ((hsign | hwhole) | hfraction) | hexponent
  · split_ifs at hsign
    · rw [List.mem_singleton.mp hsign]
      decide
    · cases hsign
  · exact isNumberUnit_of_isDigit (hd.whole_digits u hwhole)
  · split_ifs at hfraction
    · cases hfraction
    · rcases List.mem_cons.mp hfraction with rfl | hdigit
      · decide
      · exact isNumberUnit_of_isDigit (hd.fraction_digits u hdigit)
  · cases heq : d.exponent with
    | none =>
        rw [heq] at hexponent
        cases hexponent
    | some e =>
        rw [heq] at hexponent
        rcases List.mem_cons.mp hexponent with rfl | hpower
        · decide
        · rcases List.mem_cons.mp hpower with rfl | hdigit
          · split <;> decide
          · exact isNumberUnit_of_isDigit (hd.exponent_digits e heq u hdigit)

theorem WellFormed.text_ne_nil (hd : d.WellFormed) : d.text ≠ [] := by
  intro hnil
  simp only [text, List.append_eq_nil_iff] at hnil
  exact hd.whole_ne_nil hnil.1.1.2

end Decimal

/-! ## Doubles are read back -/

/-- The text of a double which is no zero is that of a decimal which is rounded
to it. -/
theorem exists_decimal {x : Number} (hx : x.magnitude ≠ 0) :
    ∃ d : Decimal, d.WellFormed ∧ text x = d.text ∧ d.number = x := by
  obtain ⟨s, e, hshortest⟩ := exists_shortest x.nonneg x.rounded
  have hround := shortest_reads hshortest
  have hs : s ≠ 0 := by
    rintro rfl
    apply hx
    rw [← hround]
    simp [Binary64.round, Binary64.roundHalfEven]
  have hnegative : (layout x.negative s e).negative = x.negative := by
    unfold layout
    dsimp only
    split_ifs <;> rfl
  refine ⟨layout x.negative s e, layout_wellFormed _ hs e, ?_, ?_⟩
  · rw [text, if_neg hx, hshortest]
  · have hmagnitude := layout_magnitude x.negative hs e
    cases x
    simp only [Decimal.number, Number.mk.injEq]
    exact ⟨hnegative, by rw [hmagnitude, hround]⟩

theorem parse_text (x : Number) : parse (text x) = some (reread x) := by
  by_cases hx : x.magnitude = 0
  · rw [text, if_pos hx, reread, if_pos hx]
    simp [parse, parseDecimal, parseMagnitude, parseFraction, parseExponent, isDigit,
      Decimal.number, Decimal.magnitude, Decimal.power, readDigits, Number.zero,
      Binary64.round, Binary64.roundHalfEven]
  · obtain ⟨d, hd, htext, hnumber⟩ := exists_decimal hx
    rw [htext, parse, hd.parseDecimal_text, Option.map_some, hnumber, reread, if_neg hx]

theorem text_units (x : Number) : ∀ u ∈ text x, isNumberUnit u = true ∧ u ≠ 69 := by
  by_cases hx : x.magnitude = 0
  · rw [text, if_pos hx]
    exact JsonText.forall_units (by decide)
  · obtain ⟨d, hd, htext, _⟩ := exists_decimal hx
    rw [htext]
    exact hd.text_units

theorem text_ne_nil (x : Number) : text x ≠ [] := by
  by_cases hx : x.magnitude = 0
  · rw [text, if_pos hx]
    exact List.cons_ne_nil _ _
  · obtain ⟨d, hd, htext, _⟩ := exists_decimal hx
    rw [htext]
    exact hd.text_ne_nil

theorem text_reread (x : Number) : text (reread x) = text x := by
  unfold reread
  split_ifs with hx
  · rw [text, if_pos (show Number.zero.magnitude = 0 from rfl), text, if_pos hx]
  · rfl

theorem reread_eq_iff (x : Number) : reread x = x ↔ x ≠ .negativeZero := by
  unfold reread
  split_ifs with hzero
  · obtain ⟨negative, magnitude, _, _⟩ := x
    subst hzero
    cases negative with
    | true => simp [Number.zero, Number.negativeZero]
    | false => simp [Number.zero, Number.negativeZero]
  · refine iff_of_true rfl ?_
    rintro rfl
    exact hzero rfl

theorem reread_of_pos {x : Number} (hpositive : 0 < x.value) : reread x = x := by
  rw [reread_eq_iff]
  rintro rfl
  simp [Number.value, Number.negativeZero] at hpositive

theorem reread_ofNat (n : ℕ) : reread (.ofNat n) = .ofNat n := by
  rw [reread_eq_iff]
  intro heq
  cases congrArg Number.negative heq

theorem reread_ofInt (n : ℤ) : reread (.ofInt n) = .ofInt n := by
  rw [reread_eq_iff]
  intro heq
  have hnegative : n < 0 := of_decide_eq_true (congrArg Number.negative heq)
  have hmagnitude : Binary64.round n.natAbs = 0 := congrArg Number.magnitude heq
  have hone : (1 : ℚ) ≤ n.natAbs := by exact_mod_cast (show 1 ≤ n.natAbs by omega)
  have hround := Binary64.sub_le_round hone
  rw [hmagnitude] at hround
  linarith

/-- The numbers of `JSON.stringify` and `JSON.parse`. -/
def format : JsonText.NumberFormat Number where
  text := text
  parse := parse
  reread := reread
  text_ne_nil := text_ne_nil
  text_units := fun value u hu => (text_units value u hu).1
  parse_text := parse_text
  text_reread := text_reread

end NumberText
