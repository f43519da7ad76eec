import Mathlib.Data.Int.Log
import Mathlib.Data.List.Induction
import Mathlib.Tactic.Linarith
import Pm2Manager.ChartPlot

/-!
# The vertical scale of a chart

The rest of `computeChart`: the round number above the highest point, and the
places at which points are drawn.  No caller gives bounds of its own, so the
scale begins at zero.
-/

namespace Pm2Manager

def padT : ℚ := 12

def padB : ℚ := 24

/-- `cssH`. -/
def cssHeight (clientHeight : ℕ) : ℚ :=
  if clientHeight ≠ 0 then clientHeight else 160

/-- A chart which is not empty, on a canvas with a height. -/
structure SizedPlot extends Plot where
  plotH : ℚ
  plotH_pos : 0 < plotH

def Plot.sized (plot : Plot) (clientHeight : ℕ) : SizedPlot :=
  { plot with
    plotH := max 1 (cssHeight clientHeight - padT - padB)
    plotH_pos := lt_max_of_lt_left one_pos }

def niceStep (n : ℚ) : ℚ :=
  if n ≤ 1 then 1 else if n ≤ 2 then 2 else if n ≤ 5 then 5 else 10

def niceCeil (v : ℚ) : ℚ :=
  if v ≤ 0 then 1
  else
    let pow : ℚ := 10 ^ Int.log 10 v
    niceStep (v / pow) * pow

/-- The loop over the data. -/
def peak (data : List ChartPoint) : ℚ :=
  data.foldl (fun yMax p => if yMax < p.y then p.y else yMax) 0

namespace SizedPlot

def yMax (plot : SizedPlot) : ℚ :=
  let nice := niceCeil (peak plot.data * (11 / 10))
  if nice ≠ 0 then nice else 1

def yMin (_ : SizedPlot) : ℚ := 0

def ySpan (plot : SizedPlot) : ℚ :=
  if plot.yMax - plot.yMin ≠ 0 then plot.yMax - plot.yMin else 1

def sx (plot : SizedPlot) (x : ℚ) : ℚ :=
  padL + (x - plot.xMin) / plot.xSpan * plot.plotW

def sy (plot : SizedPlot) (y : ℚ) : ℚ :=
  padT + (1 - (y - plot.yMin) / plot.ySpan) * plot.plotH

/-- The labels of the grid lines and their places. -/
def yLabels (plot : SizedPlot) : List (ℚ × ℚ) :=
  (List.range 5).map fun r : ℕ =>
    let yv := plot.yMin + plot.ySpan * r / 4
    (yv, plot.sy yv)

/-- The labels below the plot and their places; `plotW` has decided on `cols`. -/
def xLabels (plot : SizedPlot) : List (ℚ × ℚ) :=
  let cols : ℕ := max 2 (min 7 ⌊plot.plotW / 90⌋₊)
  (List.range (cols + 1)).map fun k : ℕ =>
    let frac : ℚ := k / cols
    (plot.xMin + plot.xSpan * frac, padL + plot.plotW * frac)

end SizedPlot

variable {v n : ℚ} {data : List ChartPoint} {p : ChartPoint} {plot : SizedPlot}

/-! ## Round numbers -/

theorem le_niceStep (hn : n ≤ 10) : n ≤ niceStep n := by
  unfold niceStep
  split_ifs <;> linarith

theorem niceStep_lt (hn : 1 ≤ n) : niceStep n < 5 / 2 * n := by
  unfold niceStep
  split_ifs <;> linarith

theorem niceCeil_bounds (hv : 0 < v) : v ≤ niceCeil v ∧ niceCeil v < 5 / 2 * v := by
  have hbase : (1 : ℕ) < 10 := by norm_num
  have hlow : ((10 : ℕ) : ℚ) ^ Int.log 10 v ≤ v := Int.zpow_log_le_self hbase hv
  have hhigh : v < ((10 : ℕ) : ℚ) ^ (Int.log 10 v + 1) := Int.lt_zpow_succ_log_self hbase v
  have hpow : (0 : ℚ) < 10 ^ Int.log 10 v := zpow_pos (by norm_num) _
  rw [Nat.cast_ofNat] at hlow hhigh
  rw [zpow_add_one₀ (by norm_num : (10 : ℚ) ≠ 0)] at hhigh
  have hone : 1 ≤ v / 10 ^ Int.log 10 v := (one_le_div hpow).mpr hlow
  have hten : v / 10 ^ Int.log 10 v ≤ 10 := by
    rw [div_le_iff₀ hpow]
    linarith
  rw [niceCeil, if_neg (not_le.mpr hv)]
  constructor
  · calc v = v / 10 ^ Int.log 10 v * 10 ^ Int.log 10 v := (div_mul_cancel₀ v hpow.ne').symm
      _ ≤ niceStep (v / 10 ^ Int.log 10 v) * 10 ^ Int.log 10 v :=
          mul_le_mul_of_nonneg_right (le_niceStep hten) hpow.le
  · calc niceStep (v / 10 ^ Int.log 10 v) * 10 ^ Int.log 10 v
        < 5 / 2 * (v / 10 ^ Int.log 10 v) * 10 ^ Int.log 10 v :=
          mul_lt_mul_of_pos_right (niceStep_lt hone) hpow
      _ = 5 / 2 * v := by
          rw [mul_assoc, div_mul_cancel₀ v hpow.ne']

/-! ## The highest point -/

theorem peak_append (data : List ChartPoint) (p : ChartPoint) :
    peak (data ++ [p]) = if peak data < p.y then p.y else peak data := by
  rw [peak, List.foldl_append]
  rfl

theorem peak_nonneg (data : List ChartPoint) : 0 ≤ peak data := by
  induction data using List.reverseRecOn with
  | nil => exact le_rfl
  | append_singleton data p ih =>
      rw [peak_append]
      split
      next hless => exact ih.trans hless.le
      next => exact ih

theorem le_peak (hp : p ∈ data) : p.y ≤ peak data := by
  induction data using List.reverseRecOn with
  | nil => cases hp
  | append_singleton data q ih =>
      rw [peak_append]
      rcases List.mem_append.mp hp with hold | hlast
      · split
        next hless => exact (ih hold).trans hless.le
        next => exact ih hold
      · obtain rfl := List.mem_singleton.mp hlast
        split
        · exact le_rfl
        next hle => exact not_lt.mp hle

theorem exists_peak (hpeak : 0 < peak data) : ∃ p ∈ data, p.y = peak data := by
  induction data using List.reverseRecOn with
  | nil => exact absurd hpeak (lt_irrefl 0)
  | append_singleton data q ih =>
      rw [peak_append] at hpeak ⊢
      split at hpeak
      next hless =>
        rw [if_pos hless]
        exact ⟨q, by simp, rfl⟩
      next hle =>
        rw [if_neg hle]
        obtain ⟨p, hp, hy⟩ := ih hpeak
        exact ⟨p, List.mem_append_left _ hp, hy⟩

/-! ## The scales -/

theorem niceCeil_pos (v : ℚ) : 0 < niceCeil v := by
  rcases le_or_gt v 0 with hv | hv
  · rw [niceCeil, if_pos hv]
    exact one_pos
  · exact hv.trans_le (niceCeil_bounds hv).1

namespace SizedPlot

theorem yMax_eq (plot : SizedPlot) : plot.yMax = niceCeil (peak plot.data * (11 / 10)) :=
  if_pos (niceCeil_pos _).ne'

theorem yMax_pos (plot : SizedPlot) : 0 < plot.yMax := by
  rw [yMax_eq]
  exact niceCeil_pos _

theorem ySpan_eq (plot : SizedPlot) : plot.ySpan = plot.yMax := by
  have hmax := plot.yMax_pos
  simp [ySpan, yMin, hmax.ne']

theorem sy_eq (plot : SizedPlot) (y : ℚ) :
    plot.sy y = padT + (1 - y / plot.yMax) * plot.plotH := by
  rw [sy, ySpan_eq, yMin, sub_zero]

/-- The scale leaves room above the highest point, but not much. -/
theorem peak_bounds (plot : SizedPlot) :
    peak plot.data * (11 / 10) ≤ plot.yMax ∧
      (0 < peak plot.data → plot.yMax < 11 / 4 * peak plot.data) := by
  rcases (peak_nonneg plot.data).eq_or_lt with hzero | hpos
  · rw [← hzero]
    exact ⟨by linarith [plot.yMax_pos], fun hpos => absurd hpos (lt_irrefl 0)⟩
  · have hbounds := niceCeil_bounds (v := peak plot.data * (11 / 10)) (by linarith)
    rw [yMax_eq]
    exact ⟨hbounds.1, fun _ => by linarith [hbounds.2]⟩

theorem sy_lt_sy {y z : ℚ} (hless : y < z) : plot.sy z < plot.sy y := by
  rw [sy_eq, sy_eq]
  have hdiv : y / plot.yMax < z / plot.yMax := div_lt_div_of_pos_right hless plot.yMax_pos
  have hscaled := mul_lt_mul_of_pos_right (sub_lt_sub_left hdiv 1) plot.plotH_pos
  linarith

theorem sy_le_sy {y z : ℚ} (hle : y ≤ z) : plot.sy z ≤ plot.sy y := by
  rcases hle.eq_or_lt with rfl | hless
  · exact le_rfl
  · exact (sy_lt_sy hless).le

theorem sy_zero (plot : SizedPlot) : plot.sy 0 = padT + plot.plotH := by
  rw [sy_eq, zero_div, sub_zero, one_mul]

theorem sy_yMax (plot : SizedPlot) : plot.sy plot.yMax = padT := by
  rw [sy_eq, div_self plot.yMax_pos.ne', sub_self, zero_mul, add_zero]

theorem xSpan_pos (hascending : plot.Ascending) : 0 < plot.xSpan := by
  obtain ⟨first, hfirst, hmin⟩ := plot.toPlot.getElem?_zero
  obtain ⟨last, hlast, hmax⟩ := plot.toPlot.getElem?_last
  have hle : plot.xMin ≤ plot.xMax := by
    rw [← hmin, ← hmax]
    exact hascending.le (Nat.zero_le _) hfirst hlast
  unfold Plot.xSpan
  split
  next hne => exact lt_of_le_of_ne (sub_nonneg.mpr hle) (Ne.symm hne)
  next => exact one_pos

theorem xAt_add (plot : SizedPlot) (frac : ℚ) :
    plot.xAt (padL + frac * plot.plotW) = plot.xMin + frac * plot.xSpan := by
  rw [Plot.xAt, add_sub_cancel_left, mul_div_cancel_right₀ _ plot.plotW_pos.ne']

/-- The place of a time is where the time is read off. -/
theorem xAt_sx (hascending : plot.Ascending) (x : ℚ) : plot.xAt (plot.sx x) = x := by
  have hspan := (xSpan_pos hascending).ne'
  rw [sx, xAt_add, div_mul_cancel₀ _ hspan]
  ring

theorem sx_bounds (hascending : plot.Ascending) (hp : p ∈ plot.data) :
    padL ≤ plot.sx p.x ∧ plot.sx p.x ≤ padL + plot.plotW := by
  obtain ⟨i, hi⟩ := List.mem_iff_getElem?.mp hp
  obtain ⟨first, hfirst, hmin⟩ := plot.toPlot.getElem?_zero
  obtain ⟨last, hlast, hmax⟩ := plot.toPlot.getElem?_last
  have hplace : i ≤ plot.data.length - 1 :=
    Nat.le_sub_one_of_lt (List.getElem?_eq_some_iff.mp hi).1
  have hlow : plot.xMin ≤ p.x := hmin ▸ hascending.le (Nat.zero_le i) hfirst hi
  have hhigh : p.x ≤ plot.xMax := hmax ▸ hascending.le hplace hi hlast
  have hspan := xSpan_pos hascending
  have hfrom : 0 ≤ (p.x - plot.xMin) / plot.xSpan :=
    div_nonneg (sub_nonneg.mpr hlow) hspan.le
  have huntil : (p.x - plot.xMin) / plot.xSpan ≤ 1 := by
    rw [div_le_one hspan]
    unfold Plot.xSpan
    split
    · linarith
    next hzero => linarith [not_not.mp hzero]
  have hplot := plot.plotW_pos.le
  rw [sx]
  exact ⟨le_add_of_nonneg_right (mul_nonneg hfrom hplot),
    add_le_add_right (mul_le_of_le_one_left hplot huntil) padL⟩

/-- A point is drawn in the plot unless it is negative. -/
theorem sy_bounds (hp : p ∈ plot.data) :
    padT ≤ plot.sy p.y ∧ (plot.sy p.y ≤ padT + plot.plotH ↔ 0 ≤ p.y) := by
  have hpeak : p.y ≤ plot.yMax := by
    linarith [le_peak hp, peak_nonneg plot.data, plot.peak_bounds.1]
  refine ⟨?_, ?_⟩
  · rw [← plot.sy_yMax]
    exact sy_le_sy hpeak
  · rw [← plot.sy_zero]
    exact ⟨fun hle => not_lt.mp fun hless => absurd (sy_lt_sy hless) (not_lt.mpr hle),
      sy_le_sy⟩

theorem peak_place (hpeak : 0 < peak plot.data) :
    1 / 11 * plot.plotH ≤ plot.sy (peak plot.data) - padT ∧
      plot.sy (peak plot.data) - padT < 7 / 11 * plot.plotH := by
  obtain ⟨hroom, hnear⟩ := plot.peak_bounds
  have hhigh : peak plot.data / plot.yMax ≤ 10 / 11 := by
    rw [div_le_iff₀ plot.yMax_pos]
    linarith
  have hlow : 4 / 11 < peak plot.data / plot.yMax := by
    rw [lt_div_iff₀ plot.yMax_pos]
    linarith [hnear hpeak]
  rw [sy_eq, add_sub_cancel_left]
  constructor
  · exact mul_le_mul_of_nonneg_right (by linarith) plot.plotH_pos.le
  · exact mul_lt_mul_of_pos_right (by linarith) plot.plotH_pos

theorem yLabels_bounds {label : ℚ × ℚ} (hlabel : label ∈ plot.yLabels) :
    label.2 = plot.sy label.1 ∧ padT ≤ label.2 ∧ label.2 ≤ padT + plot.plotH := by
  obtain ⟨r, hr, rfl⟩ := List.mem_map.mp hlabel
  have hr : (r : ℚ) ≤ 4 := by exact_mod_cast Nat.lt_succ_iff.mp (List.mem_range.mp hr)
  have hmax := plot.yMax_pos
  refine ⟨rfl, ?_, ?_⟩
  · rw [← plot.sy_yMax]
    refine sy_le_sy ?_
    rw [yMin, ySpan_eq, zero_add, div_le_iff₀ (by norm_num)]
    exact mul_le_mul_of_nonneg_left hr hmax.le
  · rw [← plot.sy_zero]
    refine sy_le_sy ?_
    rw [yMin, ySpan_eq, zero_add]
    exact div_nonneg (mul_nonneg hmax.le (Nat.cast_nonneg r)) (by norm_num)

/-- The points of a chart in time are drawn within the plot unless they are
negative, higher ones above lower ones and later ones to the right; the highest
takes between four and ten elevenths of the height; and what is read off at a
point and at a label is theirs. -/
theorem chart_shows_data (hascending : plot.Ascending) :
    (∀ p ∈ plot.data, (padL ≤ plot.sx p.x ∧ plot.sx p.x ≤ padL + plot.plotW) ∧
        padT ≤ plot.sy p.y ∧ (plot.sy p.y ≤ padT + plot.plotH ↔ 0 ≤ p.y) ∧
        plot.xAt (plot.sx p.x) = p.x) ∧
      (∀ p ∈ plot.data, ∀ q ∈ plot.data, (p.x < q.x → plot.sx p.x < plot.sx q.x) ∧
        (p.y < q.y → plot.sy q.y < plot.sy p.y)) ∧
      ((∃ p ∈ plot.data, 0 < p.y) → ∃ top ∈ plot.data,
        (∀ p ∈ plot.data, plot.sy top.y ≤ plot.sy p.y) ∧
        1 / 11 * plot.plotH ≤ plot.sy top.y - padT ∧
        plot.sy top.y - padT < 7 / 11 * plot.plotH) ∧
      (∀ label ∈ plot.xLabels, plot.xAt label.2 = label.1) ∧
      ∀ label ∈ plot.yLabels, label.2 = plot.sy label.1 ∧ padT ≤ label.2 ∧
        label.2 ≤ padT + plot.plotH := by
  have hspan := xSpan_pos hascending
  refine ⟨fun p hp => ⟨sx_bounds hascending hp, (sy_bounds hp).1, (sy_bounds hp).2,
    xAt_sx hascending p.x⟩, fun p _ q _ => ⟨fun hless => ?_, sy_lt_sy⟩, ?_, ?_,
    fun label hlabel => yLabels_bounds hlabel⟩
  · have hfrac := div_lt_div_of_pos_right (sub_lt_sub_right hless plot.xMin) hspan
    have hplace := mul_lt_mul_of_pos_right hfrac plot.plotW_pos
    rw [sx, sx]
    linarith
  · rintro ⟨p, hp, hpos⟩
    have hpeak : 0 < peak plot.data := hpos.trans_le (le_peak hp)
    obtain ⟨top, htop, hy⟩ := exists_peak hpeak
    rw [← hy] at hpeak
    refine ⟨top, htop, fun q hq => sy_le_sy (hy ▸ le_peak hq), ?_⟩
    rw [hy]
    exact peak_place (hy ▸ hpeak)
  · intro label hlabel
    obtain ⟨k, _, rfl⟩ := List.mem_map.mp hlabel
    simp only [mul_comm plot.plotW, mul_comm plot.xSpan]
    exact xAt_add plot _

theorem chart_shows_data_sample :
    ∃ top ∈ (Plot.samplePlot.sized 136).data,
      (∀ p ∈ (Plot.samplePlot.sized 136).data,
        (Plot.samplePlot.sized 136).sy top.y ≤ (Plot.samplePlot.sized 136).sy p.y) ∧
      1 / 11 * (Plot.samplePlot.sized 136).plotH ≤
        (Plot.samplePlot.sized 136).sy top.y - padT ∧
      (Plot.samplePlot.sized 136).sy top.y - padT <
        7 / 11 * (Plot.samplePlot.sized 136).plotH := by
  have hascending : (Plot.samplePlot.sized 136).Ascending := by
    norm_num [Plot.Ascending, Plot.samplePlot, Plot.sized]
  refine (chart_shows_data hascending).2.2.1 ⟨⟨0, 1⟩, ?_, one_pos⟩
  simp [Plot.samplePlot, Plot.sized]

end SizedPlot

end Pm2Manager
