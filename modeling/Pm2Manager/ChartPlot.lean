import Mathlib.Algebra.Order.Field.Basic
import Mathlib.Data.Rat.Floor
import Mathlib.Tactic.FieldSimp
import Mathlib.Tactic.NormNum
import Mathlib.Tactic.Ring
import Pm2Manager.BinarySearch

/-!
# The chart model

The horizontal half of the model which `computeChart` keeps on a canvas: the
data which are drawn, the width of the plot, and the scales between times and
pixels.  Positions and times are exact.
-/

namespace Pm2Manager

/-- A coordinate of a point as it comes; `none` is not a finite number. -/
structure RawPoint where
  x : Option ℚ
  y : Option ℚ

structure ChartPoint where
  x : ℚ
  y : ℚ
deriving DecidableEq, Repr

/-- A point is drawn if it is there and both its coordinates are finite. -/
def RawPoint.drawn : Option RawPoint → Option ChartPoint
  | some { x := some x, y := some y } => some { x, y }
  | _ => none

def padL : ℚ := 46

def padR : ℚ := 14

/-- `cssW`; a width of zero counts as none. -/
def cssWidth (clientWidth parentWidth : ℕ) : ℚ :=
  if clientWidth ≠ 0 then clientWidth
  else if parentWidth ≠ 0 then parentWidth
  else 320

/-- `zooms` tells whether the options of the chart have `onZoom`. -/
structure Chart where
  data : List ChartPoint
  plotW : ℚ
  plotW_pos : 0 < plotW
  zooms : Bool

def computeChart (clientWidth parentWidth : ℕ) (points : List (Option RawPoint))
    (zooms : Bool) : Chart where
  data := points.filterMap RawPoint.drawn
  plotW := max 1 (cssWidth clientWidth parentWidth - padL - padR)
  plotW_pos := lt_max_of_lt_left one_pos
  zooms := zooms

structure Plot extends Chart where
  nonempty : data ≠ []

/-- `if (!c.isEmpty)`. -/
def Chart.plot? (chart : Chart) : Option Plot :=
  if hne : chart.data = [] then none
  else some { chart with nonempty := hne }

namespace Plot

def xMin (plot : Plot) : ℚ :=
  (plot.data.head plot.nonempty).x

def xMax (plot : Plot) : ℚ :=
  (plot.data.getLast plot.nonempty).x

def xSpan (plot : Plot) : ℚ :=
  if plot.xMax - plot.xMin ≠ 0 then plot.xMax - plot.xMin else 1

def xAt (plot : Plot) (px : ℚ) : ℚ :=
  plot.xMin + (px - padL) / plot.plotW * plot.xSpan

/-- `c.data[i].x < xv`; there is no such point past the last one. -/
def isBefore (plot : Plot) (xv : ℚ) (i : ℕ) : Option Bool :=
  plot.data[i]?.map fun point => decide (point.x < xv)

def nearestIndex (plot : Plot) (px : ℚ) : Option ℕ :=
  let xv := plot.xAt px
  let last := plot.data.length - 1
  if xv ≤ plot.xMin then some 0
  else if plot.xMax ≤ xv then some last
  else
    (BinarySearch.search (plot.isBefore xv) 0 last).bind fun lo =>
      if 0 < lo then do
        let left ← plot.data[lo - 1]?
        let right ← plot.data[lo]?
        if |left.x - xv| ≤ |right.x - xv| then some (lo - 1) else some lo
      else
        some lo

def Ascending (plot : Plot) : Prop :=
  plot.data.Pairwise fun a b => a.x ≤ b.x

/-- No point is nearer to `xv` than the one at `i`, and of two neighbours which
are equally near it is the earlier one. -/
structure IsNearest (plot : Plot) (xv : ℚ) (i : ℕ) : Prop where
  nearest : ∃ point, plot.data[i]? = some point ∧
    ∀ (j : ℕ) other, plot.data[j]? = some other → |point.x - xv| ≤ |other.x - xv|
  earlier : ∀ (j : ℕ) left right, plot.data[j]? = some left → plot.data[j + 1]? = some right →
    left.x < right.x → |left.x - xv| = |right.x - xv| → i = j

variable {plot : Plot} {xv px : ℚ} {i j k : ℕ} {point left right : ChartPoint}

/-! ## Places -/

theorem length_pos (plot : Plot) : 0 < plot.data.length :=
  List.length_pos_iff.mpr plot.nonempty

theorem getElem?_zero (plot : Plot) :
    ∃ point, plot.data[0]? = some point ∧ point.x = plot.xMin := by
  refine ⟨plot.data.head plot.nonempty, ?_, rfl⟩
  rw [← List.head?_eq_getElem?, List.head?_eq_some_head]

theorem getElem?_last (plot : Plot) :
    ∃ point, plot.data[plot.data.length - 1]? = some point ∧ point.x = plot.xMax := by
  refine ⟨plot.data.getLast plot.nonempty, ?_, rfl⟩
  rw [← List.getLast?_eq_getElem?, List.getLast?_eq_some_getLast]

theorem Ascending.le (hascending : plot.Ascending) (hij : i ≤ j)
    (hleft : plot.data[i]? = some left) (hright : plot.data[j]? = some right) :
    left.x ≤ right.x := by
  obtain ⟨hi, rfl⟩ := List.getElem?_eq_some_iff.mp hleft
  obtain ⟨hj, rfl⟩ := List.getElem?_eq_some_iff.mp hright
  rcases hij.eq_or_lt with rfl | hless
  · exact le_rfl
  · exact List.pairwise_iff_getElem.mp hascending i j hi hj hless

/-- With up to `2 ^ 30` points the middle of two indices is also what a shift
of a signed word gives. -/
theorem shift_eq_middle {lo hi : ℕ} (hlo : lo ≤ hi) (hhi : hi < plot.data.length)
    (hlength : plot.data.length ≤ 2 ^ 30) :
    ((BitVec.ofNat 32 (lo + hi)).sshiftRight 1).toInt = ((lo + hi) / 2 : ℕ) := by
  have hsmall : (BitVec.ofNat 32 (lo + hi)).toInt = (lo + hi : ℕ) := by
    rw [BitVec.toInt_ofNat', Int.bmod_eq_of_le] <;> omega
  rw [BitVec.toInt_sshiftRight, hsmall, Int.shiftRight_eq_div_pow]
  norm_num

/-! ## The nearest point -/

/-- What lies before `xv` comes first, and what does not comes after it. -/
structure Splits (plot : Plot) (xv : ℚ) (k : ℕ) : Prop where
  pos : 0 < k
  lt_length : k < plot.data.length
  before : ∀ (i : ℕ) point, plot.data[i]? = some point → (point.x < xv ↔ i < k)

theorem exists_splits (hascending : plot.Ascending) (hmin : plot.xMin < xv)
    (hmax : xv < plot.xMax) : ∃ k, plot.Splits xv k := by
  have hexists : ∃ k : ℕ, ∃ point, plot.data[k]? = some point ∧ xv ≤ point.x := by
    obtain ⟨point, hpoint, hx⟩ := plot.getElem?_last
    exact ⟨_, point, hpoint, hx ▸ hmax.le⟩
  classical
  obtain ⟨right, hright, hbeyond⟩ := Nat.find_spec hexists
  refine ⟨Nat.find hexists, ?_, ?_, ?_⟩
  · rw [Nat.pos_iff_ne_zero]
    intro hzero
    obtain ⟨first, hfirst, hx⟩ := plot.getElem?_zero
    rw [hzero, hfirst, Option.some.injEq] at hright
    rw [← hright, hx] at hbeyond
    exact absurd hmin (not_lt.mpr hbeyond)
  · exact (List.getElem?_eq_some_iff.mp hright).1
  · intro i point hpoint
    constructor
    · intro hless
      by_contra hle
      have hx := hascending.le (not_lt.mp hle) hright hpoint
      exact absurd hless (not_lt.mpr (hbeyond.trans hx))
    · intro hless
      by_contra hle
      exact Nat.find_min hexists hless ⟨point, hpoint, not_lt.mp hle⟩

theorem Splits.search_eq (hsplits : plot.Splits xv k) :
    BinarySearch.search (plot.isBefore xv) 0 (plot.data.length - 1) = some k := by
  have hlast : k ≤ plot.data.length - 1 := Nat.le_sub_one_of_lt hsplits.lt_length
  apply BinarySearch.search_eq (Nat.zero_le k) hlast
  intro i _ hi
  have hlength : i < plot.data.length := by
    omega
  have hpoint := List.getElem?_eq_getElem hlength
  rw [isBefore, hpoint, Option.map_some, Option.some.injEq, decide_eq_decide]
  exact hsplits.before i _ hpoint

/-- Of two neighbours which are equally near, one is before and one behind. -/
theorem between_of_equally_near (hless : left.x < right.x)
    (hnear : |left.x - xv| = |right.x - xv|) : left.x < xv ∧ xv < right.x := by
  rcases abs_eq_abs.mp hnear with hsame | hopposite
  · exact absurd (sub_left_inj.mp hsame) hless.ne
  · constructor <;> linarith

theorem Splits.earlier_eq (hsplits : plot.Splits xv k) (hleft : plot.data[j]? = some left)
    (hright : plot.data[j + 1]? = some right) (hbetween : left.x < xv ∧ xv < right.x) :
    k = j + 1 := by
  have hbefore := (hsplits.before j left hleft).mp hbetween.1
  have hbehind := (hsplits.before (j + 1) right hright).not.mp (not_lt.mpr hbetween.2.le)
  omega

theorem isNearest_first (hascending : plot.Ascending) (hmin : xv ≤ plot.xMin) :
    plot.IsNearest xv 0 := by
  obtain ⟨first, hfirst, hx⟩ := plot.getElem?_zero
  have hfrom : ∀ (j : ℕ) other, plot.data[j]? = some other → xv ≤ other.x := by
    intro j other hother
    rw [← hx] at hmin
    exact hmin.trans (hascending.le (Nat.zero_le j) hfirst hother)
  constructor
  · refine ⟨first, hfirst, fun j other hother => ?_⟩
    have horder := hascending.le (Nat.zero_le j) hfirst hother
    rw [abs_of_nonneg (sub_nonneg.mpr (hfrom 0 first hfirst)),
      abs_of_nonneg (sub_nonneg.mpr (hfrom j other hother))]
    exact sub_le_sub_right horder xv
  · intro j left right hleft _ hless hnear
    have hbefore := (between_of_equally_near hless hnear).1
    exact absurd hbefore (not_lt.mpr (hfrom j left hleft))

theorem isNearest_last (hascending : plot.Ascending) (hmax : plot.xMax ≤ xv) :
    plot.IsNearest xv (plot.data.length - 1) := by
  obtain ⟨last, hlast, hx⟩ := plot.getElem?_last
  have hplace : ∀ (j : ℕ) other, plot.data[j]? = some other → j ≤ plot.data.length - 1 := by
    intro j other hother
    exact Nat.le_sub_one_of_lt (List.getElem?_eq_some_iff.mp hother).1
  have huntil : ∀ (j : ℕ) other, plot.data[j]? = some other → other.x ≤ xv := by
    intro j other hother
    rw [← hx] at hmax
    exact (hascending.le (hplace j other hother) hother hlast).trans hmax
  constructor
  · refine ⟨last, hlast, fun j other hother => ?_⟩
    have horder := hascending.le (hplace j other hother) hother hlast
    rw [abs_of_nonpos (sub_nonpos.mpr (huntil _ last hlast)),
      abs_of_nonpos (sub_nonpos.mpr (huntil j other hother))]
    exact neg_le_neg (sub_le_sub_right horder xv)
  · intro j left right _ hright hless hnear
    have hbehind := (between_of_equally_near hless hnear).2
    exact absurd hbehind (not_lt.mpr (huntil (j + 1) right hright))

/-- Between them, the two points next to `xv` are the nearest ones. -/
theorem Splits.isNearest (hsplits : plot.Splits xv k) (hascending : plot.Ascending)
    (hleft : plot.data[k - 1]? = some left) (hright : plot.data[k]? = some right) :
    (|left.x - xv| ≤ |right.x - xv| → plot.IsNearest xv (k - 1)) ∧
      (|right.x - xv| < |left.x - xv| → plot.IsNearest xv k) := by
  have hpos := hsplits.pos
  have hbefore := (hsplits.before (k - 1) left hleft).mpr (Nat.sub_lt hpos one_pos)
  have hbehind := not_lt.mp ((hsplits.before k right hright).not.mpr (lt_irrefl k))
  -- on either side the distance grows away from `xv`
  have hfar : ∀ (j : ℕ) other, plot.data[j]? = some other →
      |left.x - xv| ≤ |other.x - xv| ∨ |right.x - xv| ≤ |other.x - xv| := by
    intro j other hother
    rcases lt_or_ge j k with hless | hge
    · have horder := hascending.le (Nat.le_sub_one_of_lt hless) hother hleft
      have hother := (hsplits.before j other hother).mpr hless
      left
      rw [abs_of_neg (sub_neg.mpr hbefore), abs_of_neg (sub_neg.mpr hother)]
      exact neg_le_neg (sub_le_sub_right horder xv)
    · have horder := hascending.le hge hright hother
      right
      rw [abs_of_nonneg (sub_nonneg.mpr hbehind),
        abs_of_nonneg (sub_nonneg.mpr (hbehind.trans horder))]
      exact sub_le_sub_right horder xv
  constructor
  · intro hnear
    constructor
    · refine ⟨left, hleft, fun j other hother => ?_⟩
      rcases hfar j other hother with hle | hle
      · exact hle
      · exact hnear.trans hle
    · intro j left' right' hleft' hright' hless hsame
      have hk := hsplits.earlier_eq hleft' hright' (between_of_equally_near hless hsame)
      omega
  · intro hnear
    constructor
    · refine ⟨right, hright, fun j other hother => ?_⟩
      rcases hfar j other hother with hle | hle
      · exact hnear.le.trans hle
      · exact hle
    · intro j left' right' hleft' hright' hless hsame
      have hk := hsplits.earlier_eq hleft' hright' (between_of_equally_near hless hsame)
      subst hk
      rw [hright, Option.some.injEq] at hright'
      rw [Nat.add_sub_cancel, hleft', Option.some.injEq] at hleft
      rw [hleft, ← hright'] at hsame
      exact absurd hsame hnear.ne'

/-- The search ends with the index of a point which is nearest to the pixel,
and with the earlier one of two. -/
theorem nearest_index (plot : Plot) (hascending : plot.Ascending) (px : ℚ) :
    ∃ i, plot.nearestIndex px = some i ∧ i < plot.data.length ∧
      plot.IsNearest (plot.xAt px) i := by
  have hlength := plot.length_pos
  by_cases hmin : plot.xAt px ≤ plot.xMin
  · refine ⟨0, ?_, hlength, isNearest_first hascending hmin⟩
    simp only [nearestIndex, if_pos hmin]
  · by_cases hmax : plot.xMax ≤ plot.xAt px
    · refine ⟨plot.data.length - 1, ?_, Nat.sub_lt hlength one_pos,
        isNearest_last hascending hmax⟩
      simp only [nearestIndex, if_neg hmin, if_pos hmax]
    · obtain ⟨k, hsplits⟩ := exists_splits hascending (not_le.mp hmin) (not_le.mp hmax)
      have hpos := hsplits.pos
      have hk := hsplits.lt_length
      have hprevious : k - 1 < plot.data.length := (Nat.sub_le k 1).trans_lt hk
      have hleft := List.getElem?_eq_getElem hprevious
      have hright := List.getElem?_eq_getElem hk
      have hnearest := hsplits.isNearest hascending hleft hright
      simp only [nearestIndex, if_neg hmin, if_neg hmax, hsplits.search_eq,
        Option.bind_some, if_pos hpos, hleft, hright, Option.bind_eq_bind]
      split
      next hnear => exact ⟨k - 1, rfl, hprevious, hnearest.1 hnear⟩
      next hnear => exact ⟨k, rfl, hk, hnearest.2 (not_le.mp hnear)⟩

/-- Four points, the middle ones at one time, on a plot of a hundred pixels. -/
def samplePlot : Plot where
  data := [⟨0, 1⟩, ⟨40, 2⟩, ⟨40, 3⟩, ⟨100, 4⟩]
  plotW := 100
  plotW_pos := by norm_num
  zooms := true
  nonempty := by simp

theorem nearest_index_sample :
    ∃ i, samplePlot.nearestIndex 116 = some i ∧ i < samplePlot.data.length ∧
      samplePlot.IsNearest (samplePlot.xAt 116) i :=
  nearest_index samplePlot (by norm_num [Ascending, samplePlot]) 116

end Plot

end Pm2Manager
