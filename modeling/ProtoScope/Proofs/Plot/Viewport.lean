/-
The window of times put in order, in exact arithmetic.

Whatever the branches of the code do, the window that comes out is the requested one, widened
around its center to the least width and cut to the width of the data, and then shifted by as
little as it takes to lie inside the bounds.
-/
import ProtoScope.Plot.Viewport
import ProtoScope.Proofs.Plot.Measurement

namespace ProtoScope.Plot

open WaveScalar WaveArith

@[simp] theorem stdMax_rat (a b : ℚ) : stdMax a b = max a b := by
  unfold stdMax
  rw [lt_rat]
  rcases lt_or_ge a b with h | h
  · rw [if_pos (decide_eq_true h), max_eq_right h.le]
  · rw [if_neg (by simpa using h), max_eq_left h]

@[simp] theorem stdMin_rat (a b : ℚ) : stdMin a b = min a b := by
  unfold stdMin
  rw [lt_rat]
  rcases lt_or_ge b a with h | h
  · rw [if_pos (decide_eq_true h), min_eq_right h.le]
  · rw [if_neg (by simpa using h), min_eq_left h]

/-! ### A window of a width around a center -/

/-- Where a window of the width begins that lies inside the bounds, as near to the center as
it can. -/
def placed (low high center width : ℚ) : ℚ := max low (min (center - width / 2) (high - width))

section

variable {low high center width : ℚ}

theorem le_placed : low ≤ placed low high center width := le_max_left _ _

theorem placed_le (h : width ≤ high - low) : placed low high center width + width ≤ high := by
  have hle : placed low high center width ≤ high - width :=
    max_le (by linarith) (min_le_right _ _)
  linarith

theorem placed_inside (hlow : low ≤ center - width / 2) (hhigh : center + width / 2 ≤ high) :
    placed low high center width = center - width / 2 := by
  unfold placed
  rw [min_eq_left (by linarith), max_eq_right hlow]

theorem placed_before (hlow : center - width / 2 ≤ low) : placed low high center width = low :=
  max_eq_left ((min_le_left _ _).trans hlow)

theorem placed_after (hfits : width ≤ high - low) (hhigh : high ≤ center + width / 2) :
    placed low high center width = high - width := by
  unfold placed
  rw [min_eq_right (by linarith), max_eq_right (by linarith)]

theorem placed_whole (hwhole : width = high - low) : placed low high center width = low := by
  refine max_eq_left ((min_le_right _ _).trans ?_)
  linarith

end

/-! ### What the code computes -/

variable {viewport : WaveViewport ℚ} {bounds : WaveDataBounds ℚ} {minTimeWidth : ℚ}

/-- The least width a window may have, data permitting. -/
def leastWidth (bounds : WaveDataBounds ℚ) (minTimeWidth : ℚ) : ℚ :=
  max minTimeWidth (max bounds.minStep kMathEpsilon)

/-- The width that is asked for: that of the window, turned round if need be. -/
def WaveViewport.requested (viewport : WaveViewport ℚ) : ℚ := |viewport.maxTime - viewport.minTime|

/-- The width of the window that comes out. -/
def givenWidth (viewport : WaveViewport ℚ) (bounds : WaveDataBounds ℚ) (minTimeWidth : ℚ) : ℚ :=
  min (bounds.maxTime - bounds.minTime)
    (max viewport.requested (leastWidth bounds minTimeWidth))

theorem clampTimeRange_eq (hvalid : bounds.valid = true) {width center : ℚ}
    (hdata : bounds.dataWidth = bounds.maxTime - bounds.minTime) :
    clampTimeRange (center - width / 2) (center - width / 2 + width) bounds =
      (placed bounds.minTime bounds.maxTime center
          (min (bounds.maxTime - bounds.minTime) width),
        placed bounds.minTime bounds.maxTime center
          (min (bounds.maxTime - bounds.minTime) width) +
          min (bounds.maxTime - bounds.minTime) width) := by
  unfold clampTimeRange
  rw [if_pos hvalid]
  dsimp only
  rw [hdata, sub_rat, add_sub_cancel_left, le_rat]
  rcases le_or_gt (bounds.maxTime - bounds.minTime) width with hwide | hnarrow
  · rw [if_pos (decide_eq_true hwide), min_eq_left hwide, placed_whole rfl]
    exact congrArg _ (by ring)
  · rw [if_neg (fun h => absurd (of_decide_eq_true h) (not_le.mpr hnarrow)),
      min_eq_right hnarrow.le]
    simp only [lt_rat, decide_eq_true_eq, add_rat, sub_rat]
    rcases lt_or_ge (center - width / 2) bounds.minTime with hlow | hlow
    · rw [if_pos hlow, placed_before hlow.le, if_neg]
      dsimp only
      linarith
    · rw [if_neg (not_lt.mpr hlow)]
      rcases lt_or_ge bounds.maxTime (center - width / 2 + width) with hhigh | hhigh
      · rw [if_pos hhigh, placed_after hnarrow.le (by linarith)]
        exact congrArg _ (by ring)
      · rw [if_neg (not_lt.mpr hhigh), placed_inside hlow (by linarith)]

theorem clampPositiveWidth_rat (width minWidth : ℚ) :
    clampPositiveWidth width minWidth = max width (max minWidth kMathEpsilon) := by
  unfold clampPositiveWidth
  rw [stdMax_rat, stdMax_rat]

/-- The two times in order. -/
theorem times_ordered (a b : ℚ) : (if lt b a then (b, a) else (a, b)) = (min a b, max a b) := by
  rw [lt_rat]
  rcases lt_or_ge b a with h | h
  · rw [if_pos (decide_eq_true h), min_eq_right h.le, max_eq_left h.le]
  · rw [if_neg (by simpa using h), min_eq_left h, max_eq_right h]

/-- A window that has to be as wide as the data is put at their begin. -/
theorem stdClamp_whole (value low : ℚ) : stdClamp value low low = low := by
  unfold stdClamp
  rw [lt_rat, lt_rat]
  rcases lt_trichotomy value low with h | rfl | h
  · rw [if_pos (decide_eq_true h)]
  · rw [if_neg (by simp), if_neg (by simp)]
  · rw [if_neg (by simpa using h.le), if_pos (decide_eq_true h)]

/-- **The requested window is placed inside the bounds.** -/
theorem normalizeOverviewViewport_eq (hvalid : bounds.valid = true)
    (hwide : kMathEpsilon ≤ bounds.maxTime - bounds.minTime) :
    normalizeOverviewViewport viewport bounds minTimeWidth =
      { viewport with
        minTime := placed bounds.minTime bounds.maxTime
          ((viewport.minTime + viewport.maxTime) / 2) (givenWidth viewport bounds minTimeWidth)
        maxTime := placed bounds.minTime bounds.maxTime
          ((viewport.minTime + viewport.maxTime) / 2) (givenWidth viewport bounds minTimeWidth) +
            givenWidth viewport bounds minTimeWidth } := by
  have hdata : bounds.dataWidth = bounds.maxTime - bounds.minTime := by
    unfold WaveDataBounds.dataWidth
    rw [stdMax_rat, sub_rat, max_eq_left hwide]
  have hleast : clampPositiveWidth minTimeWidth bounds.minStep = leastWidth bounds minTimeWidth :=
    clampPositiveWidth_rat _ _
  have heps : kMathEpsilon ≤ leastWidth bounds minTimeWidth :=
    (le_max_right _ _).trans (le_max_right _ _)
  have hwidth : clampPositiveWidth
      (max viewport.minTime viewport.maxTime - min viewport.minTime viewport.maxTime)
      (leastWidth bounds minTimeWidth) =
        max viewport.requested (leastWidth bounds minTimeWidth) := by
    rw [clampPositiveWidth_rat, max_eq_left heps, max_sub_min_eq_abs]
    rfl
  have hmin : min (bounds.maxTime - bounds.minTime)
      (max viewport.requested (leastWidth bounds minTimeWidth)) =
        givenWidth viewport bounds minTimeWidth := rfl
  unfold normalizeOverviewViewport
  dsimp only
  rw [times_ordered]
  simp only [isFinite_rat, if_true, add_rat, sub_rat, half_rat, min_add_max]
  rw [hleast, hwidth, clampTimeRange_eq hvalid hdata, hvalid, Bool.and_true, lt_rat,
    add_sub_cancel_left, hmin]
  rcases lt_or_ge (givenWidth viewport bounds minTimeWidth) (leastWidth bounds minTimeWidth) with
    hnarrow | henough
  · -- only data narrower than the least width leave the window too narrow
    have hgiven : givenWidth viewport bounds minTimeWidth = bounds.maxTime - bounds.minTime := by
      refine min_eq_left ?_
      by_contra hlt
      rw [givenWidth, min_eq_right (not_le.mp hlt).le] at hnarrow
      exact absurd (le_max_right _ _) (not_le.mpr hnarrow)
    rw [if_pos (decide_eq_true hnarrow), hdata, stdMin_rat,
      min_eq_right (hgiven ▸ hnarrow.le : bounds.maxTime - bounds.minTime ≤ _),
      show bounds.maxTime - (bounds.maxTime - bounds.minTime) = bounds.minTime by ring,
      stdClamp_whole, hgiven, placed_whole rfl]
  · rw [if_neg (by simpa using henough)]

/-! ### Normalising and moving -/

/-- The window lies inside the bounds and has the width it should have. -/
structure WaveViewport.Normal (viewport : WaveViewport ℚ) (bounds : WaveDataBounds ℚ)
    (minTimeWidth requested : ℚ) : Prop where
  inside : bounds.minTime ≤ viewport.minTime ∧ viewport.maxTime ≤ bounds.maxTime
  width : viewport.maxTime - viewport.minTime =
    min (bounds.maxTime - bounds.minTime) (max requested (leastWidth bounds minTimeWidth))

theorem normalize_normal (viewport : WaveViewport ℚ) (minTimeWidth : ℚ)
    (hvalid : bounds.valid = true)
    (hwide : kMathEpsilon ≤ bounds.maxTime - bounds.minTime) :
    (normalizeOverviewViewport viewport bounds minTimeWidth).Normal bounds minTimeWidth
      viewport.requested := by
  rw [normalizeOverviewViewport_eq hvalid hwide]
  exact ⟨⟨le_placed, placed_le (min_le_left _ _)⟩, add_sub_cancel_left _ _⟩

/-- A normal window does not stand the wrong way round, so its width is the one it asks for. -/
theorem WaveViewport.Normal.requested_eq {requested : ℚ}
    (hwide : kMathEpsilon ≤ bounds.maxTime - bounds.minTime)
    (h : viewport.Normal bounds minTimeWidth requested) :
    viewport.requested = viewport.maxTime - viewport.minTime := by
  refine abs_of_nonneg ?_
  rw [h.width]
  have heps : (0 : ℚ) ≤ kMathEpsilon := kMathEpsilon_pos.le
  exact le_min (heps.trans hwide)
    (heps.trans ((le_max_right _ _).trans ((le_max_right _ _).trans (le_max_right _ _))))

/-- A normal window asks for what it is given, wherever it stands. -/
theorem WaveViewport.Normal.given_eq {requested : ℚ}
    (hwide : kMathEpsilon ≤ bounds.maxTime - bounds.minTime)
    (h : viewport.Normal bounds minTimeWidth requested) :
    givenWidth viewport bounds minTimeWidth = viewport.maxTime - viewport.minTime := by
  unfold givenWidth
  rw [h.requested_eq hwide, h.width]
  rcases le_total (bounds.maxTime - bounds.minTime)
    (max requested (leastWidth bounds minTimeWidth)) with hle | hle
  · rw [min_eq_left hle, min_eq_left (le_max_left _ _)]
  · rw [min_eq_right hle, max_eq_left (le_max_right _ _), min_eq_right hle]

theorem normalize_of_normal {requested : ℚ} (hvalid : bounds.valid = true)
    (hwide : kMathEpsilon ≤ bounds.maxTime - bounds.minTime)
    (h : viewport.Normal bounds minTimeWidth requested) :
    normalizeOverviewViewport viewport bounds minTimeWidth = viewport := by
  rw [normalizeOverviewViewport_eq hvalid hwide, h.given_eq hwide,
    placed_inside (by linarith [h.inside.1]) (by linarith [h.inside.2])]
  have hmin : (viewport.minTime + viewport.maxTime) / 2 -
      (viewport.maxTime - viewport.minTime) / 2 = viewport.minTime := by ring
  rw [hmin, add_sub_cancel]

/-- Moving places a window of the same width around the moved center. -/
theorem moveViewportByDelta_eq {requested : ℚ} (delta : ℚ) (hvalid : bounds.valid = true)
    (hwide : kMathEpsilon ≤ bounds.maxTime - bounds.minTime)
    (h : viewport.Normal bounds minTimeWidth requested) :
    moveViewportByDelta viewport delta bounds minTimeWidth =
      { viewport with
        minTime := placed bounds.minTime bounds.maxTime
          ((viewport.minTime + viewport.maxTime) / 2 + delta) (viewport.maxTime - viewport.minTime)
        maxTime := placed bounds.minTime bounds.maxTime
          ((viewport.minTime + viewport.maxTime) / 2 + delta)
            (viewport.maxTime - viewport.minTime) + (viewport.maxTime - viewport.minTime) } := by
  have hrequested : ({ viewport with
      minTime := viewport.minTime + delta
      maxTime := viewport.maxTime + delta } : WaveViewport ℚ).requested = viewport.requested :=
    congrArg abs (add_sub_add_right_eq_sub _ _ _)
  have hgiven : givenWidth { viewport with
      minTime := viewport.minTime + delta
      maxTime := viewport.maxTime + delta } bounds minTimeWidth =
        viewport.maxTime - viewport.minTime := by
    rw [← h.given_eq hwide]
    unfold givenWidth
    rw [hrequested]
  have hcenter : (viewport.minTime + delta + (viewport.maxTime + delta)) / 2 =
      (viewport.minTime + viewport.maxTime) / 2 + delta := by ring
  unfold moveViewportByDelta
  simp only [isFinite_rat, if_true, add_rat]
  rw [normalizeOverviewViewport_eq hvalid hwide, hgiven]
  dsimp only
  rw [hcenter]

/-- **The window that comes out lies inside the bounds, with the requested width where the least
width and the data permit; a window in order stays as it is and moves as far as the bounds
permit.** -/
theorem overview_viewport (viewport : WaveViewport ℚ) (bounds : WaveDataBounds ℚ)
    (minTimeWidth : ℚ) (hvalid : bounds.valid = true)
    (hwide : kMathEpsilon ≤ bounds.maxTime - bounds.minTime) :
    (normalizeOverviewViewport viewport bounds minTimeWidth).Normal bounds minTimeWidth
      viewport.requested ∧
    normalizeOverviewViewport (normalizeOverviewViewport viewport bounds minTimeWidth) bounds
      minTimeWidth = normalizeOverviewViewport viewport bounds minTimeWidth ∧
    (viewport.Normal bounds minTimeWidth viewport.requested →
      normalizeOverviewViewport viewport bounds minTimeWidth = viewport ∧
      ∀ delta, ∃ moved, moveViewportByDelta viewport delta bounds minTimeWidth = moved ∧
        moved.maxTime - moved.minTime = viewport.maxTime - viewport.minTime ∧
        (bounds.minTime ≤ viewport.minTime + delta → viewport.maxTime + delta ≤ bounds.maxTime →
          moved = { viewport with
            minTime := viewport.minTime + delta
            maxTime := viewport.maxTime + delta }) ∧
        (viewport.minTime + delta < bounds.minTime → moved.minTime = bounds.minTime) ∧
        (bounds.maxTime < viewport.maxTime + delta → moved.maxTime = bounds.maxTime)) := by
  have hnormal := normalize_normal viewport minTimeWidth hvalid hwide
  refine ⟨hnormal, normalize_of_normal hvalid hwide hnormal, fun h =>
    ⟨normalize_of_normal hvalid hwide h, fun delta => ⟨_, rfl, ?_⟩⟩⟩
  have hfits : viewport.maxTime - viewport.minTime ≤ bounds.maxTime - bounds.minTime := by
    linarith [h.inside.1, h.inside.2]
  have hmin : (viewport.minTime + viewport.maxTime) / 2 + delta -
      (viewport.maxTime - viewport.minTime) / 2 = viewport.minTime + delta := by ring
  have hmax : (viewport.minTime + viewport.maxTime) / 2 + delta +
      (viewport.maxTime - viewport.minTime) / 2 = viewport.maxTime + delta := by ring
  rw [moveViewportByDelta_eq delta hvalid hwide h]
  refine ⟨add_sub_cancel_left _ _, fun hlow hhigh => ?_, fun hlow => ?_, fun hhigh => ?_⟩
  · rw [placed_inside (by rwa [hmin]) (by rwa [hmax]), hmin]
    congr 1
    ring
  · exact placed_before (by rw [hmin]; exact hlow.le)
  · dsimp only
    rw [placed_after hfits (by rw [hmax]; exact hhigh.le), sub_add_cancel]

theorem kMathEpsilon_rat : (kMathEpsilon : ℚ) = 1 / 10 ^ 12 := by
  have hconstant : (kMathEpsilon : ℚ) = 1 / ((10 ^ 12 : ℕ) : ℚ) := rfl
  rw [hconstant, Nat.cast_pow]
  rfl

/-- A window dragged past the begin of the data stays at the begin. -/
theorem overview_viewport_dragged :
    (moveViewportByDelta ⟨4, 6, -1, 1⟩ (-9) ⟨0, 10, 1, true⟩ 1 : WaveViewport ℚ).minTime = 0 := by
  have hwide : (kMathEpsilon : ℚ) ≤ 10 - 0 := by
    rw [kMathEpsilon_rat]
    norm_num
  have hnormal : (⟨4, 6, -1, 1⟩ : WaveViewport ℚ).Normal ⟨0, 10, 1, true⟩ 1
      (WaveViewport.requested ⟨4, 6, -1, 1⟩) := by
    refine ⟨⟨by norm_num, by norm_num⟩, ?_⟩
    unfold WaveViewport.requested leastWidth
    rw [kMathEpsilon_rat]
    norm_num
  obtain ⟨_, rfl, -, -, hbegin, -⟩ :=
    ((overview_viewport ⟨4, 6, -1, 1⟩ ⟨0, 10, 1, true⟩ 1 rfl hwide).2.2 hnormal).2 (-9)
  exact hbegin (by norm_num)

/-- Where neither a width nor a step is asked for, the window is still not empty. -/
theorem empty_window_widened :
    ¬ ∀ (viewport : WaveViewport ℚ) (bounds : WaveDataBounds ℚ) (minTimeWidth : ℚ),
      bounds.valid = true → kMathEpsilon ≤ bounds.maxTime - bounds.minTime →
        (normalizeOverviewViewport viewport bounds minTimeWidth).maxTime -
            (normalizeOverviewViewport viewport bounds minTimeWidth).minTime =
          min (bounds.maxTime - bounds.minTime)
            (max viewport.requested (max minTimeWidth bounds.minStep)) := by
  intro h
  have hwide : (kMathEpsilon : ℚ) ≤ 1 - 0 := by
    rw [kMathEpsilon_rat]
    norm_num
  have hempty := h ⟨0, 0, 0, 0⟩ ⟨0, 1, 0, true⟩ 0 rfl hwide
  rw [(normalize_normal _ _ rfl hwide).width] at hempty
  unfold WaveViewport.requested leastWidth at hempty
  rw [kMathEpsilon_rat] at hempty
  norm_num at hempty

end ProtoScope.Plot
