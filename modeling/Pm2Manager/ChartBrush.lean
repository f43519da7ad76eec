import Pm2Manager.ChartPlot
import Pm2Manager.Machine

/-!
# Zooming with the brush

A drag over a chart draws a brush and ends with a call of `onZoom`.  The brush
is drawn with clamped positions on the model of its time; the window is
computed from the positions themselves on the model at the end of the drag.
-/

namespace Pm2Manager

def mathRound (x : ℚ) : ℤ :=
  ⌊x + 1 / 2⌋

structure ZoomWindow where
  fromMs : ℤ
  toMs : ℤ
deriving DecidableEq, Repr

/-- What `drawBrush` has drawn from, and the model it has drawn on. -/
structure Brush where
  plot : Plot
  x0 : ℚ
  x1 : ℚ

namespace Brush

def left (brush : Brush) : ℚ :=
  max padL (min brush.x0 brush.x1)

def right (brush : Brush) : ℚ :=
  min (padL + brush.plot.plotW) (max brush.x0 brush.x1)

end Brush

/-- `startX` and `movedX` while `dragging` is set; they are not read
otherwise. -/
structure Drag where
  startX : ℚ
  movedX : ℚ

/-- `canvas._chart`, the variables of `ensureInteractions`, and the brush which
has been drawn last. -/
structure ChartCanvas where
  chart : Option Chart
  drag : Option Drag
  brush : Option Brush

inductive CanvasAction
  | drawLineChart (clientWidth parentWidth : ℕ) (points : List (Option RawPoint))
      (zooms : Bool)
  | mousedown (x : ℚ)
  | mousemove (x : ℚ)
  | mouseup

namespace ChartCanvas

def initial : ChartCanvas where
  chart := none
  drag := none
  brush := none

/-- The model of a chart which is not empty and has `onZoom`. -/
def zoomPlot (canvas : ChartCanvas) : Option Plot :=
  canvas.chart.bind fun chart => if chart.zooms then chart.plot? else none

def mousedown (canvas : ChartCanvas) (x : ℚ) : ChartCanvas :=
  match canvas.zoomPlot with
  | none => canvas
  | some plot =>
      if x < padL ∨ padL + plot.plotW < x then canvas
      else { canvas with drag := some { startX := x, movedX := x } }

/-- Without a drag the mouse moves the crosshair only. -/
def mousemove (canvas : ChartCanvas) (x : ℚ) : ChartCanvas :=
  match canvas.zoomPlot, canvas.drag with
  | some plot, some drag =>
      { canvas with
        drag := some { startX := drag.startX, movedX := x }
        brush := some { plot, x0 := drag.startX, x1 := x } }
  | _, _ => canvas

/-- The call of `onZoom` when the button is released.  On an empty chart there
is no `xAt`, and the handler throws. -/
def zoomCall (canvas : ChartCanvas) : Option ZoomWindow :=
  match canvas.drag, canvas.zoomPlot with
  | some drag, some plot =>
      if 8 < |drag.movedX - drag.startX| then
        some {
          fromMs := mathRound (plot.xAt (min drag.startX drag.movedX))
          toMs := mathRound (plot.xAt (max drag.startX drag.movedX)) }
      else
        none
  | _, _ => none

def step (canvas : ChartCanvas) : CanvasAction → Option ChartCanvas
  | .drawLineChart clientWidth parentWidth points zooms =>
      some { canvas with
        chart := some (computeChart clientWidth parentWidth points zooms) }
  | .mousedown x => some (canvas.mousedown x)
  | .mousemove x => some (canvas.mousemove x)
  | .mouseup => some { canvas with drag := none }

end ChartCanvas

def canvasMachine : Machine ChartCanvas CanvasAction where
  step := ChartCanvas.step

/-- The window is the time which the brush has highlighted. -/
structure Brush.Shows (brush : Brush) (window : ZoomWindow) : Prop where
  fromMs : window.fromMs = mathRound (brush.plot.xAt brush.left)
  toMs : window.toMs = mathRound (brush.plot.xAt brush.right)
  minimum : brush.plot.xMin ≤ brush.plot.xAt brush.left
  ordered : brush.plot.xAt brush.left ≤ brush.plot.xAt brush.right
  maximum : brush.plot.xAt brush.right ≤ brush.plot.xMax

def ZoomsToBrush (canvas : ChartCanvas) (action : CanvasAction) (_ : ChartCanvas) :
    Prop :=
  ∀ window, action = .mouseup → canvas.zoomCall = some window →
    ∃ brush, canvas.brush = some brush ∧ brush.Shows window

/-- Both plots have the same pixels for the same times. -/
def Plot.SameScale (plot other : Plot) : Prop :=
  plot.xMin = other.xMin ∧ plot.xMax = other.xMax ∧ plot.plotW = other.plotW

def Plot.Inside (plot : Plot) (x : ℚ) : Prop :=
  padL ≤ x ∧ x ≤ padL + plot.plotW

instance (plot other : Plot) : Decidable (plot.SameScale other) :=
  inferInstanceAs (Decidable (_ ∧ _))

instance (plot : Plot) (x : ℚ) : Decidable (plot.Inside x) :=
  inferInstanceAs (Decidable (_ ∧ _))

/-- The button is released over the plot, the scale being that of the last
brush and not that of a single instant. -/
def ReleasedOverPlot (canvas : ChartCanvas) : CanvasAction → Prop
  | .mouseup => ∀ drag ∈ canvas.drag, ∀ plot ∈ canvas.zoomPlot, ∀ brush ∈ canvas.brush,
      8 < |drag.movedX - drag.startX| →
        plot.SameScale brush.plot ∧ plot.Inside drag.startX ∧
          plot.Inside drag.movedX ∧ plot.xMin < plot.xMax
  | _ => True

instance (canvas : ChartCanvas) (action : CanvasAction) :
    Decidable (ReleasedOverPlot canvas action) :=
  match action with
  | .mouseup => inferInstanceAs (Decidable (∀ drag ∈ canvas.drag, _))
  | .drawLineChart _ _ _ _ | .mousedown _ | .mousemove _ => isTrue trivial

namespace Plot

variable {plot other : Plot} {px left right : ℚ}

/-! ## Scales -/

theorem SameScale.xAt_eq (hsame : plot.SameScale other) (px : ℚ) :
    plot.xAt px = other.xAt px := by
  obtain ⟨hmin, hmax, hwidth⟩ := hsame
  simp only [xAt, xSpan, hmin, hmax, hwidth]

theorem SameScale.inside (hsame : plot.SameScale other) (hinside : plot.Inside px) :
    other.Inside px := by
  obtain ⟨_, _, hwidth⟩ := hsame
  rw [Inside, ← hwidth]
  exact hinside

theorem xSpan_of_lt (hspan : plot.xMin < plot.xMax) :
    plot.xSpan = plot.xMax - plot.xMin := by
  rw [xSpan, if_pos (sub_ne_zero.mpr hspan.ne')]

theorem xAt_mono (hspan : plot.xMin < plot.xMax) (hle : left ≤ right) :
    plot.xAt left ≤ plot.xAt right := by
  have hpos : 0 ≤ plot.xSpan := by
    rw [xSpan_of_lt hspan]
    exact sub_nonneg.mpr hspan.le
  have hfraction : (left - padL) / plot.plotW ≤ (right - padL) / plot.plotW :=
    div_le_div_of_nonneg_right (sub_le_sub_right hle padL) plot.plotW_pos.le
  exact add_le_add_right (mul_le_mul_of_nonneg_right hfraction hpos) plot.xMin

theorem xAt_inj (hspan : plot.xMin < plot.xMax) (hsame : plot.xAt left = plot.xAt right) :
    left = right := by
  have hpos : plot.xSpan ≠ 0 := by
    rw [xSpan_of_lt hspan]
    exact sub_ne_zero.mpr hspan.ne'
  have hproduct := mul_right_cancel₀ hpos (add_left_cancel hsame)
  rw [div_left_inj' plot.plotW_pos.ne'] at hproduct
  exact sub_left_inj.mp hproduct

theorem xAt_left (plot : Plot) : plot.xAt padL = plot.xMin := by
  simp [xAt]

theorem xAt_right (hspan : plot.xMin < plot.xMax) :
    plot.xAt (padL + plot.plotW) = plot.xMax := by
  have hwidth := plot.plotW_pos.ne'
  rw [xAt, add_sub_cancel_left, div_self hwidth, one_mul, xSpan_of_lt hspan,
    add_sub_cancel]

end Plot

namespace ChartCanvas

variable {canvas next : ChartCanvas} {action : CanvasAction} {drag : Drag}
variable {plot : Plot} {window : ZoomWindow} {word : List CanvasAction}

/-! ## The last brush -/

/-- Once the mouse has moved in a drag, the last brush is from its first to its
last position. -/
def BrushFollows (canvas : ChartCanvas) : Prop :=
  ∀ drag, canvas.drag = some drag → drag.movedX ≠ drag.startX →
    ∃ brush, canvas.brush = some brush ∧ brush.x0 = drag.startX ∧
      brush.x1 = drag.movedX

theorem brushFollows_initial : initial.BrushFollows := by
  intro drag hdrag
  cases hdrag

theorem brushFollows_preserved :
    canvasMachine.Preserves Machine.anyAction BrushFollows := by
  intro canvas action next hfollows _ hstep
  simp only [canvasMachine, step] at hstep
  cases action with
  | drawLineChart clientWidth parentWidth points zooms =>
      obtain rfl := Option.some.inj hstep
      exact hfollows
  | mousedown x =>
      obtain rfl := Option.some.inj hstep
      unfold mousedown
      split
      · exact hfollows
      · split
        · exact hfollows
        · -- a drag begins where it is
          intro drag hdrag hmoved
          obtain rfl := Option.some.inj hdrag
          exact absurd rfl hmoved
  | mousemove x =>
      obtain rfl := Option.some.inj hstep
      unfold mousemove
      split
      · intro drag hdrag _
        obtain rfl := Option.some.inj hdrag
        exact ⟨_, rfl, rfl, rfl⟩
      · exact hfollows
  | mouseup =>
      obtain rfl := Option.some.inj hstep
      intro drag hdrag
      cases hdrag

theorem zoomCall_eq (hcall : canvas.zoomCall = some window) :
    ∃ drag plot, canvas.drag = some drag ∧ canvas.zoomPlot = some plot ∧
      8 < |drag.movedX - drag.startX| ∧
      window.fromMs = mathRound (plot.xAt (min drag.startX drag.movedX)) ∧
      window.toMs = mathRound (plot.xAt (max drag.startX drag.movedX)) := by
  unfold zoomCall at hcall
  split at hcall
  next drag plot hdrag hplot =>
    split at hcall
    next hfar =>
      obtain rfl := Option.some.inj hcall
      exact ⟨drag, plot, hdrag, hplot, hfar, rfl, rfl⟩
    · cases hcall
  · cases hcall

/-- A brush within the plot is not clamped. -/
theorem shows_of_inside {brush : Brush} (hspan : brush.plot.xMin < brush.plot.xMax)
    (hstart : brush.plot.Inside brush.x0) (hend : brush.plot.Inside brush.x1)
    (hfrom : window.fromMs = mathRound (brush.plot.xAt (min brush.x0 brush.x1)))
    (hto : window.toMs = mathRound (brush.plot.xAt (max brush.x0 brush.x1))) :
    brush.Shows window := by
  have hmin := le_min hstart.1 hend.1
  have hmax := max_le hstart.2 hend.2
  have hleft : brush.left = min brush.x0 brush.x1 := max_eq_right hmin
  have hright : brush.right = max brush.x0 brush.x1 := min_eq_right hmax
  constructor
  · rw [hleft, hfrom]
  · rw [hright, hto]
  · rw [hleft, ← brush.plot.xAt_left]
    exact Plot.xAt_mono hspan hmin
  · rw [hleft, hright]
    exact Plot.xAt_mono hspan min_le_max
  · rw [hright, ← Plot.xAt_right hspan]
    exact Plot.xAt_mono hspan hmax

/-- While the chart under the brush is shown, the positions of a drag have the
times of the brush exactly if they are within the plot. -/
theorem times_eq_iff_inside {brush : Brush} (hspan : brush.plot.xMin < brush.plot.xMax) :
    (brush.plot.xAt (min brush.x0 brush.x1) = brush.plot.xAt brush.left ∧
        brush.plot.xAt (max brush.x0 brush.x1) = brush.plot.xAt brush.right) ↔
      brush.plot.Inside brush.x0 ∧ brush.plot.Inside brush.x1 := by
  constructor
  · rintro ⟨hfirst, hlast⟩
    have hmin := max_eq_right_iff.mp (Plot.xAt_inj hspan hfirst).symm
    have hmax := min_eq_right_iff.mp (Plot.xAt_inj hspan hlast).symm
    exact ⟨⟨(le_min_iff.mp hmin).1, (max_le_iff.mp hmax).1⟩,
      ⟨(le_min_iff.mp hmin).2, (max_le_iff.mp hmax).2⟩⟩
  · rintro ⟨hstart, hend⟩
    have hleft : brush.left = min brush.x0 brush.x1 :=
      max_eq_right (le_min hstart.1 hend.1)
    have hright : brush.right = max brush.x0 brush.x1 :=
      min_eq_right (max_le hstart.2 hend.2)
    rw [hleft, hright]
    exact ⟨rfl, rfl⟩

/-- In every run in which the button is released over the plot, on the scale
of the last brush, each zoom is to what this brush has shown. -/
theorem zooms_to_brush (hreleased : canvasMachine.Admits ReleasedOverPlot initial word) :
    canvasMachine.Steps ZoomsToBrush initial word := by
  refine Machine.steps_of_admits brushFollows_preserved.of_any ?_ brushFollows_initial
    hreleased
  rintro canvas action next hfollows hover _ window rfl hcall
  obtain ⟨drag, plot, hdrag, hplot, hfar, hfrom, hto⟩ := zoomCall_eq hcall
  have hmoved : drag.movedX ≠ drag.startX := by
    intro hsame
    rw [hsame, sub_self, abs_zero] at hfar
    norm_num at hfar
  obtain ⟨brush, hbrush, hx0, hx1⟩ := hfollows drag hdrag hmoved
  obtain ⟨hsame, hstart, hend, hspan⟩ := hover drag hdrag plot hplot brush hbrush hfar
  refine ⟨brush, hbrush, shows_of_inside ?_ ?_ ?_ ?_ ?_⟩
  · rw [← hsame.1, ← hsame.2.1]
    exact hspan
  · rw [hx0]
    exact hsame.inside hstart
  · rw [hx1]
    exact hsame.inside hend
  · rw [hx0, hx1, ← hsame.xAt_eq]
    exact hfrom
  · rw [hx0, hx1, ← hsame.xAt_eq]
    exact hto

end ChartCanvas

open ChartCanvas

def rawPoint (x y : ℚ) : Option RawPoint :=
  some { x := some x, y := some y }

/-- A plot of a hundred pixels over a thousand seconds. -/
def sampleDraw : CanvasAction :=
  .drawLineChart 160 0 [rawPoint 0 1, none, rawPoint 400000 3, rawPoint 1000000 2] true

def sampleZoom : List CanvasAction :=
  [sampleDraw, .mousedown 56, .mousemove 70, .mousemove 96, sampleDraw, .mouseup]

theorem zooms_to_brush_sample :
    canvasMachine.Steps ZoomsToBrush initial sampleZoom := by
  have hchecks : canvasMachine.checks
      (fun canvas action => decide (ReleasedOverPlot canvas action)) initial
      sampleZoom = true := by
    decide +kernel
  refine zooms_to_brush ?_
  exact Machine.admits_of_checks brushFollows_preserved
    (fun _ _ _ hcheck => of_decide_eq_true hcheck) brushFollows_initial hchecks

/-- The end of the drag is over the canvas to the right of the plot. -/
def sampleOvershoot : List CanvasAction :=
  [sampleDraw, .mousedown 56, .mousemove 156]

theorem overshoot_zooms_past_brush :
    ∃ word, ¬ canvasMachine.Steps ZoomsToBrush initial word := by
  refine ⟨sampleOvershoot ++ [.mouseup], fun hsteps => ?_⟩
  obtain ⟨canvas, hexec, htest⟩ := Machine.exists_of_exec_map canvasMachine initial
    sampleOvershoot (fun canvas =>
      decide (canvas.zoomCall = some { fromMs := 100000, toMs := 1100000 }) &&
        canvas.brush.all fun brush =>
          decide (mathRound (brush.plot.xAt brush.right) = 1000000)) (by decide +kernel)
  rw [Bool.and_eq_true, decide_eq_true_eq] at htest
  obtain ⟨hcall, hright⟩ := htest
  obtain ⟨brush, hbrush, hshows⟩ := hsteps sampleOvershoot .mouseup [] canvas _ rfl hexec
    rfl _ rfl hcall
  rw [hbrush, Option.all_some, decide_eq_true_eq] at hright
  have hto := hshows.toMs
  rw [hright] at hto
  norm_num at hto

end Pm2Manager
