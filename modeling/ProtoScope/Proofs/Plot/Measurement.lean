/-
Edges, widths, and rise and fall times of a window.

A step of the signal goes up through a level, down through it, or not at all.  A step that
begins on the middle is no fall, and one that ends on it from above is one, so edges and changes
between high and low are counted alike only up to such steps.  The steps across the middle are
neither high nor low, and are what is missing from the two widths.  Upside down every step
crosses the mirrored level in the other direction at the same time.
-/
import ProtoScope.Plot.Measurement
import ProtoScope.Proofs.Plot.DisplayQueries

namespace ProtoScope.Plot

open WaveScalar WaveArith SignalStep

@[simp] theorem mul_rat (a b : ℚ) : mul a b = a * b := rfl

@[simp] theorem div_rat (a b : ℚ) : div a b = a / b := rfl

@[simp] theorem ofSize_rat (n : ℕ) : (ofSize n : ℚ) = n := rfl

/-! ### The steps of a signal -/

namespace SignalStep

variable {step : SignalStep ℚ} {level c : ℚ} {rising : Bool}

/-- The step of the signal turned upside down. -/
def mirror (c : ℚ) (step : SignalStep ℚ) : SignalStep ℚ :=
  { step with previous := c - step.previous, current := c - step.current }

theorem width_rat : step.width = step.currentTime - step.previousTime := rfl

theorem crosses_rising : step.crosses true level = true ↔
    step.previous < level ∧ level ≤ step.current := by
  simp [crosses]

theorem crosses_falling : step.crosses false level = true ↔
    level < step.previous ∧ step.current ≤ level := by
  simp [crosses]

theorem mirror_width : (step.mirror c).width = step.width := rfl

theorem mirror_skipped : (step.mirror c).skipped = step.skipped := by
  have hchange : |(c - step.current) - (c - step.previous)| = |step.current - step.previous| := by
    rw [show c - step.current - (c - step.previous) = -(step.current - step.previous) by ring,
      abs_neg]
  unfold skipped
  rw [fabs_rat, fabs_rat, mirror_width]
  show (_ || le |(c - step.current) - (c - step.previous)| _) = _
  rw [hchange]
  rfl

/-- The mirrored step crosses the mirrored level in the other direction. -/
theorem mirror_crosses (step : SignalStep ℚ) (c level : ℚ) (rising : Bool) :
    (step.mirror c).crosses (!rising) (c - level) = step.crosses rising level := by
  rw [Bool.eq_iff_iff]
  cases rising with
  | true =>
    rw [Bool.not_true, crosses_falling, crosses_rising]
    show c - level < c - step.previous ∧ c - step.current ≤ c - level ↔ _
    constructor
    · rintro ⟨h, h'⟩
      exact ⟨by linarith, by linarith⟩
    · rintro ⟨h, h'⟩
      exact ⟨by linarith, by linarith⟩
  | false =>
    rw [Bool.not_false, crosses_rising, crosses_falling]
    show c - step.previous < c - level ∧ c - level ≤ c - step.current ↔ _
    constructor
    · rintro ⟨h, h'⟩
      exact ⟨by linarith, by linarith⟩
    · rintro ⟨h, h'⟩
      exact ⟨by linarith, by linarith⟩

/-- And at the same time. -/
theorem mirror_crossingTime :
    (step.mirror c).crossingTime (c - level) = step.crossingTime level := by
  have hratio : (c - level - (c - step.previous)) * step.width /
      (c - step.current - (c - step.previous)) =
      (level - step.previous) * step.width / (step.current - step.previous) := by
    rw [show c - level - (c - step.previous) = -(level - step.previous) by ring,
      show c - step.current - (c - step.previous) = -(step.current - step.previous) by ring,
      neg_mul, neg_div_neg_eq]
  exact congrArg (step.previousTime + ·) hratio

/-- A crossing lies in the time of the step. -/
theorem crossingTime_within (hwidth : 0 ≤ step.width) (h : step.crosses rising level = true) :
    step.previousTime ≤ step.crossingTime level ∧ step.crossingTime level ≤ step.currentTime := by
  have htime : step.crossingTime level = step.previousTime +
      (level - step.previous) * step.width / (step.current - step.previous) := rfl
  have hratio : 0 ≤ (level - step.previous) / (step.current - step.previous) ∧
      (level - step.previous) / (step.current - step.previous) ≤ 1 := by
    cases rising with
    | true =>
      obtain ⟨hbefore, hafter⟩ := crosses_rising.mp h
      have hup : 0 < step.current - step.previous := by linarith
      exact ⟨div_nonneg (by linarith) hup.le, (div_le_one hup).mpr (by linarith)⟩
    | false =>
      obtain ⟨hbefore, hafter⟩ := crosses_falling.mp h
      have hdown : step.current - step.previous < 0 := by linarith
      exact ⟨div_nonneg_of_nonpos (by linarith) hdown.le,
        (div_le_one_of_neg hdown).mpr (by linarith)⟩
  rw [width_rat] at hwidth
  rw [htime, mul_div_right_comm, width_rat]
  constructor
  · have := mul_nonneg hratio.1 hwidth
    linarith
  · have := mul_le_mul_of_nonneg_right hratio.2 hwidth
    linarith

/-- In one step the level that comes later is crossed later. -/
theorem crossingTime_ordered {startLevel endLevel : ℚ} (hwidth : 0 ≤ step.width)
    (hlevels : if rising then startLevel ≤ endLevel else endLevel ≤ startLevel)
    (h : step.crosses rising startLevel = true) :
    step.crossingTime startLevel ≤ step.crossingTime endLevel := by
  have htime : ∀ level, step.crossingTime level = step.previousTime +
      (level - step.previous) / (step.current - step.previous) * step.width := by
    intro level
    rw [← mul_div_right_comm]
    rfl
  have hratio : (startLevel - step.previous) / (step.current - step.previous) ≤
      (endLevel - step.previous) / (step.current - step.previous) := by
    cases rising with
    | true =>
      obtain ⟨hbefore, hafter⟩ := crosses_rising.mp h
      simp only [if_true] at hlevels
      exact div_le_div_of_nonneg_right (by linarith) (by linarith)
    | false =>
      obtain ⟨hbefore, hafter⟩ := crosses_falling.mp h
      simp only [Bool.false_eq_true, if_false] at hlevels
      exact div_le_div_of_nonpos_of_le (by linarith) (by linarith)
  rw [htime, htime]
  have := mul_le_mul_of_nonneg_right hratio hwidth
  linarith

end SignalStep

section Steps

variable {startLevel endLevel c : ℚ} {rising : Bool} {steps : List (SignalStep ℚ)}

theorem crossingLoop_mirror (c : ℚ) (rising : Bool) (startTime : Option ℚ) :
    crossingLoop (c - startLevel) (c - endLevel) (!rising) startTime
        (steps.map (mirror c)) =
      crossingLoop startLevel endLevel rising startTime steps := by
  induction steps generalizing startTime with
  | nil => rfl
  | cons step steps ih =>
    rw [List.map_cons]
    unfold crossingLoop
    rw [mirror_skipped, mirror_crosses, mirror_crosses,
      mirror_crossingTime, mirror_crossingTime]
    simp only [ih]

/-- The steps follow one another and none goes back in time. -/
structure InTime (steps : List (SignalStep ℚ)) : Prop where
  width : ∀ step ∈ steps, 0 ≤ step.width
  follow : steps.Pairwise fun first second => first.currentTime ≤ second.previousTime

theorem InTime.tail {step : SignalStep ℚ} (h : InTime (step :: steps)) : InTime steps :=
  ⟨fun other hother => h.width other (List.mem_cons_of_mem _ hother),
    (List.pairwise_cons.mp h.follow).2⟩

/-- A crossing that starts before all steps ends after it started. -/
theorem crossingLoop_nonneg (h : InTime steps)
    (hlevels : if rising then startLevel ≤ endLevel else endLevel ≤ startLevel)
    {startTime : Option ℚ} (hstart : ∀ start ∈ startTime, ∀ step ∈ steps, start ≤ step.previousTime) :
    ∀ t ∈ crossingLoop startLevel endLevel rising startTime steps, 0 ≤ t := by
  induction steps generalizing startTime with
  | nil =>
    intro t ht
    cases ht
  | cons step steps ih =>
    have hwidth := h.width step List.mem_cons_self
    have hfollow := (List.pairwise_cons.mp h.follow).1
    have hrest : ∀ start ∈ startTime, ∀ other ∈ steps, start ≤ other.previousTime :=
      fun start hmem other hother => hstart start hmem other (List.mem_cons_of_mem _ hother)
    intro t ht
    unfold crossingLoop at ht
    split at ht
    · exact ih h.tail hrest t ht
    by_cases hstarts : startTime.isNone = true ∧ step.crosses rising startLevel = true
    · -- the crossing starts in this step
      rw [if_pos (by rw [hstarts.1, hstarts.2]; rfl)] at ht
      dsimp only at ht
      split at ht
      · rw [← Option.mem_some_iff.mp ht, sub_rat]
        have := crossingTime_ordered hwidth hlevels hstarts.2
        linarith
      · refine ih h.tail (fun start hmem other hother => ?_) t ht
        rw [← Option.mem_some_iff.mp hmem]
        exact (crossingTime_within hwidth hstarts.2).2.trans (hfollow other hother)
    · rw [if_neg (by rw [Bool.and_eq_true]; exact hstarts)] at ht
      cases startTime with
      | none => exact ih h.tail hrest t ht
      | some start =>
        dsimp only at ht
        split at ht
        · rename_i hends
          rw [← Option.mem_some_iff.mp ht, sub_rat]
          have hbefore := hstart start rfl step List.mem_cons_self
          have := (crossingTime_within hwidth hends).1
          linarith
        · exact ih h.tail hrest t ht

/-! ### Edges and widths -/

namespace SignalStep

/-- At or above the middle. -/
def highAt (threshold value : ℚ) : Bool := decide (threshold ≤ value)

def isEdge (threshold : ℚ) (step : SignalStep ℚ) : Bool :=
  step.crosses true threshold || step.crosses false threshold

def changes (threshold : ℚ) (step : SignalStep ℚ) : Bool :=
  highAt threshold step.previous != highAt threshold step.current

/-- Down from the middle itself. -/
def leavesDown (threshold : ℚ) (step : SignalStep ℚ) : Bool :=
  decide (step.previous = threshold ∧ step.current < threshold)

/-- Down to the middle and no further. -/
def comesDown (threshold : ℚ) (step : SignalStep ℚ) : Bool :=
  decide (threshold < step.previous ∧ step.current = threshold)

def highWidth (threshold : ℚ) (step : SignalStep ℚ) : ℚ :=
  if highAt threshold step.previous && highAt threshold step.current then step.width else 0

def lowWidth (threshold : ℚ) (step : SignalStep ℚ) : ℚ :=
  if !highAt threshold step.previous && !highAt threshold step.current then step.width else 0

def changeWidth (threshold : ℚ) (step : SignalStep ℚ) : ℚ :=
  if changes threshold step then step.width else 0

theorem isEdge_add (threshold : ℚ) (step : SignalStep ℚ) :
    (if isEdge threshold step then 1 else 0) + (if leavesDown threshold step then 1 else 0) =
      (if changes threshold step then 1 else 0) + if comesDown threshold step then 1 else 0 := by
  have hedge : isEdge threshold step = true ↔
      (step.previous < threshold ∧ threshold ≤ step.current) ∨
        (threshold < step.previous ∧ step.current ≤ threshold) := by
    unfold isEdge
    rw [Bool.or_eq_true, crosses_rising, crosses_falling]
  have hchanges : changes threshold step = true ↔
      (step.previous < threshold ∧ threshold ≤ step.current) ∨
        (threshold ≤ step.previous ∧ step.current < threshold) := by
    unfold changes highAt
    rcases lt_or_ge step.previous threshold with h | h
    · rcases lt_or_ge step.current threshold with h' | h'
      · simp [h, h', not_le.mpr h, not_le.mpr h']
      · simp [h, h', not_le.mpr h, not_lt.mpr h']
    · rcases lt_or_ge step.current threshold with h' | h'
      · simp [h, h', not_lt.mpr h, not_le.mpr h']
      · simp [h, h', not_lt.mpr h, not_lt.mpr h']
  simp only [hedge, hchanges, leavesDown, comesDown, decide_eq_true_eq]
  rcases lt_trichotomy step.previous threshold with h | h | h
  · have hprevious := not_lt.mpr h.le
    have hne := h.ne
    have hnle := not_le.mpr h
    simp [h, hprevious, hne, hnle]
  · rcases lt_or_ge step.current threshold with h' | h'
    · simp [h, h']
    · simp [h, not_lt.mpr h']
  · rcases lt_trichotomy step.current threshold with h' | h' | h'
    · simp [h, h', not_lt.mpr h.le, h.ne', h.le, h'.le, h'.ne]
    · simp [h, h', not_lt.mpr h.le, h.ne']
    · simp [h, not_lt.mpr h.le, h.ne', not_lt.mpr h'.le, not_le.mpr h', h'.ne']

theorem widths_add (threshold : ℚ) (step : SignalStep ℚ) :
    highWidth threshold step + lowWidth threshold step + changeWidth threshold step =
      step.width := by
  unfold highWidth lowWidth changeWidth changes
  cases highAt threshold step.previous with
  | true =>
    cases highAt threshold step.current with
    | true => simp
    | false => simp
  | false =>
    cases highAt threshold step.current with
    | true => simp
    | false => simp

/-- What the step adds, where it does not go back in time. -/
theorem widths_step {step : SignalStep ℚ} (hwidth : 0 ≤ step.width) (threshold : ℚ)
    (widths : EdgeWidths ℚ) :
    widths.step threshold step =
      ⟨widths.edgeCount + if isEdge threshold step then 1 else 0,
        widths.highWidth + highWidth threshold step,
        widths.lowWidth + lowWidth threshold step⟩ := by
  have hzero : le step.width zero = decide (step.width = 0) := by
    rw [le_rat, zero_rat, decide_eq_decide]
    exact ⟨fun h => le_antisymm h hwidth, fun h => h.le⟩
  unfold EdgeWidths.step
  dsimp only
  rw [show (step.crosses true threshold || step.crosses false threshold) =
    isEdge threshold step from rfl, hzero]
  have hhigh : (le threshold step.previous && le threshold step.current) =
      (highAt threshold step.previous && highAt threshold step.current) := rfl
  have hlow : (lt step.previous threshold && lt step.current threshold) =
      (!highAt threshold step.previous && !highAt threshold step.current) := by
    unfold highAt
    rw [lt_rat, lt_rat, ← decide_not, ← decide_not]
    simp only [not_le]
  rw [hhigh, hlow]
  unfold highWidth lowWidth
  cases isEdge threshold step <;> cases highAt threshold step.previous <;>
    cases highAt threshold step.current <;> by_cases h : step.width = 0 <;> simp [h]

end SignalStep

open SignalStep

/-- The loop counts the edges and adds up the widths. -/
theorem edgeWidths_foldl (h : InTime steps) (threshold : ℚ) (widths : EdgeWidths ℚ) :
    steps.foldl (EdgeWidths.step threshold) widths =
      ⟨widths.edgeCount + steps.countP (isEdge threshold),
        widths.highWidth + (steps.map (highWidth threshold)).sum,
        widths.lowWidth + (steps.map (lowWidth threshold)).sum⟩ := by
  induction steps generalizing widths with
  | nil => simp
  | cons step steps ih =>
    rw [List.foldl_cons, ih h.tail, widths_step (h.width step List.mem_cons_self),
      List.countP_cons, List.map_cons, List.map_cons, List.sum_cons, List.sum_cons]
    rw [EdgeWidths.mk.injEq]
    refine ⟨?_, ?_, ?_⟩
    · dsimp only
      omega
    · exact add_assoc _ _ _
    · exact add_assoc _ _ _

/-- **Edges and changes between high and low are counted alike, up to the steps that begin or end
on the middle.** -/
theorem countP_isEdge (threshold : ℚ) (steps : List (SignalStep ℚ)) :
    steps.countP (isEdge threshold) + steps.countP (leavesDown threshold) =
      steps.countP (SignalStep.changes threshold) + steps.countP (comesDown threshold) := by
  induction steps with
  | nil => rfl
  | cons step steps ih =>
    have hstep := isEdge_add threshold step
    simp only [List.countP_cons]
    omega

theorem sum_widths (threshold : ℚ) (steps : List (SignalStep ℚ)) :
    (steps.map (highWidth threshold)).sum + (steps.map (lowWidth threshold)).sum +
        (steps.map (changeWidth threshold)).sum = (steps.map width).sum := by
  induction steps with
  | nil => simp
  | cons step steps ih =>
    have hstep := widths_add threshold step
    simp only [List.map_cons, List.sum_cons]
    linarith

end Steps

/-! ### The samples of a window -/

open SignalStep

section Window

variable {times values : List ℚ}

theorem foldl_least (best : ℚ) (values : List ℚ) :
    let least := values.foldl (fun best value => if lt value best then value else best) best
    (least = best ∨ least ∈ values) ∧ least ≤ best ∧ ∀ v ∈ values, least ≤ v := by
  induction values generalizing best with
  | nil => exact ⟨Or.inl rfl, le_refl _, fun v hv => (by cases hv)⟩
  | cons value values ih =>
    intro least
    obtain ⟨hmem, hle, hall⟩ := ih (if lt value best then value else best)
    have hstep : (if lt value best then value else best) = min value best := by
      rw [lt_rat]
      by_cases h : value < best
      · rw [if_pos (decide_eq_true h), min_eq_left h.le]
      · rw [if_neg (by simpa using h), min_eq_right (not_lt.mp h)]
    have hleast : least = values.foldl (fun best value => if lt value best then value else best)
        (min value best) := by
      rw [← hstep]
      rfl
    rw [hstep] at hmem hle hall
    rw [← hleast] at hmem hle hall
    refine ⟨?_, hle.trans (min_le_right _ _), fun v hv => ?_⟩
    · rcases hmem with heq | hmem
      · rcases min_choice value best with h | h
        · exact Or.inr (by rw [heq, h]; exact List.mem_cons_self)
        · exact Or.inl (heq.trans h)
      · exact Or.inr (List.mem_cons_of_mem _ hmem)
    · rcases List.mem_cons.mp hv with rfl | hv
      · exact hle.trans (min_le_left _ _)
      · exact hall v hv

theorem minElement_isLeast (h : values ≠ []) : IsLeast {v | v ∈ values} (minElement values) := by
  cases values with
  | nil => exact absurd rfl h
  | cons first values =>
    obtain ⟨hmem, hle, hall⟩ := foldl_least first values
    refine ⟨?_, fun v hv => ?_⟩
    · rcases hmem with heq | hmem
      · rw [show minElement (first :: values) = first from heq]
        exact List.mem_cons_self
      · exact List.mem_cons_of_mem _ hmem
    · rcases List.mem_cons.mp hv with rfl | hv
      · exact hle
      · exact hall v hv

/-- The greatest value is the least one upside down. -/
theorem maxElement_eq (values : List ℚ) :
    maxElement values = -minElement (values.map fun v => -v) := by
  cases values with
  | nil => exact neg_zero.symm
  | cons first values =>
    unfold maxElement minElement
    rw [List.map_cons, List.tail_cons, List.headD_cons, List.tail_cons, List.headD_cons,
      List.foldl_map]
    induction values generalizing first with
    | nil => exact (neg_neg first).symm
    | cons value values ih =>
      rw [List.foldl_cons, List.foldl_cons, ih, lt_rat, lt_rat]
      congr 2
      by_cases h : first < value
      · rw [if_pos (decide_eq_true h), if_pos (decide_eq_true (neg_lt_neg h))]
      · rw [if_neg (by simpa using h), if_neg (by simpa using h)]

theorem maxElement_isGreatest (h : values ≠ []) :
    IsGreatest {v | v ∈ values} (maxElement values) := by
  have hnonempty : values.map (fun v => -v) ≠ [] := fun hnil => h (List.map_eq_nil_iff.mp hnil)
  obtain ⟨hmem, hall⟩ := minElement_isLeast hnonempty
  rw [maxElement_eq]
  obtain ⟨v, hv, heq⟩ := List.mem_map.mp hmem
  refine ⟨?_, fun w hw => ?_⟩
  · rw [← heq, neg_neg]
    exact hv
  · have hle : minElement (values.map fun v => -v) ≤ -w := hall (List.mem_map.mpr ⟨w, hw, rfl⟩)
    linarith

/-- The times do not decrease. -/
theorem getD_le_of_pairwise (htimes : times.Pairwise (· ≤ ·)) {i j : ℕ} (hij : i ≤ j)
    (hj : j < times.length) : times.getD i 0 ≤ times.getD j 0 := by
  rw [List.getD_eq_getElem times 0 (hij.trans_lt hj), List.getD_eq_getElem times 0 hj]
  rcases Nat.eq_or_lt_of_le hij with rfl | hlt
  · exact le_refl _
  · exact List.pairwise_iff_getElem.mp htimes i j _ hj hlt

theorem signalSteps_inTime (htimes : times.Pairwise (· ≤ ·)) (hlength : values.length = times.length) :
    InTime (signalSteps times values) := by
  unfold signalSteps
  refine ⟨fun step hstep => ?_, ?_⟩
  · obtain ⟨i, hi, rfl⟩ := List.mem_map.mp hstep
    rw [List.mem_range'_1] at hi
    rw [width_rat]
    exact sub_nonneg.mpr (getD_le_of_pairwise htimes (Nat.sub_le i 1) (by omega))
  · rw [List.pairwise_map]
    refine List.Pairwise.imp_of_mem (fun {i j} _ hj hij => ?_) List.pairwise_lt_range'
    rw [List.mem_range'_1] at hj
    exact getD_le_of_pairwise htimes (Nat.le_sub_one_of_lt hij) (by omega)

/-- The widths of the steps make up the duration. -/
theorem sum_signalSteps (times values : List ℚ) :
    ((signalSteps times values).map width).sum =
      times.getD (values.length - 1) 0 - times.getD 0 0 := by
  unfold signalSteps
  rw [List.map_map]
  generalize values.length - 1 = n
  induction n with
  | zero => simp
  | succ n ih =>
    rw [List.range'_concat, List.map_append, List.sum_append, ih, List.map_singleton,
      List.sum_singleton]
    show _ + (times.getD (1 + 1 * n) 0 - times.getD (1 + 1 * n - 1) 0) = _
    rw [Nat.one_mul, Nat.add_comm 1 n, Nat.add_sub_cancel]
    ring

/-- The values of the steps are the pairs of adjacent values. -/
theorem signalSteps_values (times values : List ℚ) :
    (signalSteps times values).map (fun step => (step.previous, step.current)) =
      values.zip values.tail := by
  unfold signalSteps
  rw [List.map_map]
  refine List.ext_getElem ?_ fun i hi hi' => ?_
  · rw [List.length_map, List.length_range', List.length_zip, List.length_tail,
      Nat.min_eq_right (Nat.sub_le _ _)]
  · rw [List.length_zip, List.length_tail] at hi'
    have hsucc : i + 1 < values.length := by omega
    rw [List.getElem_map, List.getElem_range', List.getElem_zip,
      List.getElem_tail, Nat.one_mul, Nat.add_comm 1 i]
    show (values.getD (i + 1 - 1) 0, values.getD (i + 1) 0) = _
    rw [Nat.add_sub_cancel, List.getD_eq_getElem values 0 (Nat.lt_of_succ_lt hsucc),
      List.getD_eq_getElem values 0 hsucc]

/-- Turned upside down, the steps are the mirrored steps. -/
theorem signalSteps_mirror (c : ℚ) (times values : List ℚ) :
    signalSteps times (values.map fun v => c - v) =
      (signalSteps times values).map (mirror c) := by
  unfold signalSteps
  rw [List.map_map, List.length_map]
  refine List.map_congr_left fun i hi => ?_
  rw [List.mem_range'_1] at hi
  have hvalue : ∀ j < values.length, (values.map fun v => c - v).getD j 0 =
      c - values.getD j 0 := by
    intro j hj
    rw [List.getD_eq_getElem _ 0 (by rw [List.length_map]; exact hj), List.getElem_map,
      List.getD_eq_getElem _ 0 hj]
  show mk (times.getD (i - 1) 0) ((values.map fun v => c - v).getD (i - 1) 0)
    (times.getD i 0) ((values.map fun v => c - v).getD i 0) =
      mk (times.getD (i - 1) 0) (c - values.getD (i - 1) 0) (times.getD i 0)
        (c - values.getD i 0)
  rw [hvalue (i - 1) (by omega), hvalue i (by omega)]

/-! ### The readout -/

/-- What the readout says about a signal that is wide enough to have a middle. -/
structure Timed (times values : List ℚ) (readout : MeasurementReadout ℚ) : Prop where
  edges : readout.edgeCount =
    (signalSteps times values).countP (isEdge ((readout.minValue + readout.maxValue) / 2))
  high : readout.highWidth =
    ((signalSteps times values).map
      (highWidth ((readout.minValue + readout.maxValue) / 2))).sum
  low : readout.lowWidth =
    ((signalSteps times values).map (lowWidth ((readout.minValue + readout.maxValue) / 2))).sum
  rise : readout.riseTime = firstCrossingDuration times values
    (readout.minValue + (readout.maxValue - readout.minValue) * (10 / 100))
    (readout.minValue + (readout.maxValue - readout.minValue) * (90 / 100)) true
  fall : readout.fallTime = firstCrossingDuration times values
    (readout.minValue + (readout.maxValue - readout.minValue) * (90 / 100))
    (readout.minValue + (readout.maxValue - readout.minValue) * (10 / 100)) false
  duty : readout.dutyCycle =
    if kMathEpsilon < readout.duration then some (readout.highWidth / readout.duration * 100)
    else none

/-- What the readout says about any signal. -/
structure Measured (times values : List ℚ) (readout : MeasurementReadout ℚ) : Prop where
  least : readout.minValue = minElement values
  greatest : readout.maxValue = maxElement values
  duration_eq : readout.duration = times.getD (values.length - 1) 0 - times.getD 0 0
  peak : readout.peakToPeak = readout.maxValue - readout.minValue
  timed : kMathEpsilon < readout.maxValue - readout.minValue → Timed times values readout

theorem two_le_length (hvalues : values ≠ [])
    (hwide : kMathEpsilon < maxElement values - minElement values) : 2 ≤ values.length := by
  match values, hvalues with
  | [value], _ =>
    have hsame : maxElement [value] - minElement [value] = 0 := sub_self value
    rw [hsame] at hwide
    exact absurd hwide (not_lt.mpr kMathEpsilon_pos.le)
  | _ :: _ :: _, _ =>
    exact Nat.le_add_left 2 _

/-- **The readout of a window, with a reference or without one.** -/
theorem makeMeasurementReadout_measured (sqrt : ℚ → ℚ) (channelIndex : ℕ)
    (hvalues : values ≠ []) (htimes : times.Pairwise (· ≤ ·))
    (hlength : values.length = times.length) (reference : Option (List ℚ)) :
    Measured times values (makeMeasurementReadout sqrt channelIndex times values reference) := by
  have hspread : Measured times values
      (measureTiming times values (measureSpread sqrt channelIndex times values)) := by
    have hfirst : times.headD 0 = times.getD 0 0 := by
      cases times with
      | nil => rfl
      | cons first times => rfl
    have hduration : (measureSpread sqrt channelIndex times values).duration =
        times.getD (values.length - 1) 0 - times.getD 0 0 := by
      rw [← hfirst]
      rfl
    unfold measureTiming
    by_cases hwide : kMathEpsilon < maxElement values - minElement values
    · have hlt : lt kMathEpsilon (measureSpread sqrt channelIndex times values).peakToPeak = true :=
        decide_eq_true hwide
      rw [if_pos (by rw [hlt, Bool.and_true]; exact decide_eq_true (two_le_length hvalues hwide))]
      dsimp only
      rw [edgeWidths_foldl (signalSteps_inTime htimes hlength)]
      have hmiddle : half (add (measureSpread sqrt channelIndex times values).minValue
          (measureSpread sqrt channelIndex times values).maxValue) =
          ((measureSpread sqrt channelIndex times values).minValue +
            (measureSpread sqrt channelIndex times values).maxValue) / 2 := half_rat _
      rw [hmiddle]
      refine ⟨rfl, rfl, hduration, rfl, fun _ => ⟨?_, ?_, ?_, ?_, ?_, ?_⟩⟩
      · exact Nat.zero_add _
      · exact zero_add _
      · exact zero_add _
      · rfl
      · rfl
      · dsimp only
        rw [lt_rat]
        by_cases hlong : kMathEpsilon < (measureSpread sqrt channelIndex times values).duration
        · rw [if_pos (decide_eq_true hlong), if_pos hlong]
          rfl
        · rw [if_neg (by simpa using hlong), if_neg hlong]
    · have hlt : lt kMathEpsilon (measureSpread sqrt channelIndex times values).peakToPeak = false :=
        decide_eq_false hwide
      rw [if_neg (by rw [hlt, Bool.and_false]; exact Bool.false_ne_true)]
      exact ⟨rfl, rfl, hduration, rfl, fun h => absurd h hwide⟩
  unfold makeMeasurementReadout
  rw [if_neg]
  · dsimp only
    cases reference with
    | none => exact hspread
    | some reference =>
      dsimp only
      split
      · obtain ⟨hmin, hmax, hduration, hpeak, htimed⟩ := hspread
        refine ⟨hmin, hmax, hduration, hpeak, fun hwide => ?_⟩
        obtain ⟨hedges, hhigh, hlow, hrise, hfall, hduty⟩ := htimed hwide
        exact ⟨hedges, hhigh, hlow, hrise, hfall, hduty⟩
      · exact hspread
  · rw [Bool.or_eq_true, decide_eq_true_eq, List.isEmpty_iff, hlength]
    rintro (hnil | hless)
    · exact hvalues hnil
    · exact absurd hless (lt_irrefl _)

end Window

/-! ### The laws -/

/-- The pairs of adjacent values of a window. -/
def adjacentValues (samples : List (WaveSample ℚ)) : List (ℚ × ℚ) :=
  (samples.map (·.value)).zip (samples.map (·.value)).tail

/-- The time the signal takes across a level. -/
def acrossWidth (samples : List (WaveSample ℚ)) (level : ℚ) : ℚ :=
  ((signalSteps (samples.map (·.time)) (samples.map (·.value))).map (changeWidth level)).sum

/-- What holds of the timing of a window, and of the readout of the window upside down. -/
structure TimingLaws (samples : List (WaveSample ℚ)) (readout mirrored : MeasurementReadout ℚ) :
    Prop where
  least : IsLeast {v | v ∈ samples.map (·.value)} readout.minValue
  greatest : IsGreatest {v | v ∈ samples.map (·.value)} readout.maxValue
  /-- edges are changes between high and low, but for the pairs that begin or end on the middle -/
  edges : let middle := (readout.minValue + readout.maxValue) / 2
    readout.edgeCount +
        (adjacentValues samples).countP (fun pair => decide (pair.1 = middle ∧ pair.2 < middle)) =
      (adjacentValues samples).countP
          (fun pair => decide (middle ≤ pair.1) != decide (middle ≤ pair.2)) +
        (adjacentValues samples).countP (fun pair => decide (middle < pair.1 ∧ pair.2 = middle))
  widths : readout.highWidth + readout.lowWidth +
    acrossWidth samples ((readout.minValue + readout.maxValue) / 2) = readout.duration
  widths_le : readout.highWidth + readout.lowWidth ≤ readout.duration
  rise : ∀ t ∈ readout.riseTime, 0 ≤ t
  fall : ∀ t ∈ readout.fallTime, 0 ≤ t
  mirror_times : mirrored.riseTime = readout.fallTime ∧ mirrored.fallTime = readout.riseTime
  /-- where no sample is on the middle -/
  mirror : (∀ sample ∈ samples, sample.value ≠ (readout.minValue + readout.maxValue) / 2) →
    readout.edgeCount = (adjacentValues samples).countP
        (fun pair => decide ((readout.minValue + readout.maxValue) / 2 ≤ pair.1) !=
          decide ((readout.minValue + readout.maxValue) / 2 ≤ pair.2)) ∧
      mirrored.edgeCount = readout.edgeCount ∧ mirrored.highWidth = readout.lowWidth ∧
      mirrored.lowWidth = readout.highWidth ∧
      mirrored.dutyCycle = readout.dutyCycle.map fun duty => 100 - duty -
        acrossWidth samples ((readout.minValue + readout.maxValue) / 2) / readout.duration * 100

section Laws

variable {times values : List ℚ} {readout mirrored : MeasurementReadout ℚ}

/-- The values of a step are values of the window. -/
theorem mem_values_of_step {step : SignalStep ℚ} (h : step ∈ signalSteps times values) :
    step.previous ∈ values ∧ step.current ∈ values := by
  unfold signalSteps at h
  obtain ⟨i, hi, rfl⟩ := List.mem_map.mp h
  rw [List.mem_range'_1] at hi
  have hmem : ∀ j < values.length, values.getD j 0 ∈ values := by
    intro j hj
    rw [List.getD_eq_getElem values 0 hj]
    exact List.getElem_mem hj
  exact ⟨hmem (i - 1) (by omega), hmem i (by omega)⟩

theorem countP_adjacent (times : List ℚ) (p : ℚ × ℚ → Bool) :
    (values.zip values.tail).countP p =
      (signalSteps times values).countP fun step => p (step.previous, step.current) := by
  rw [← signalSteps_values times values, List.countP_map]
  rfl

/-- Upside down the extremes change places and stay where they are. -/
theorem mirror_extremes (hvalues : values ≠ []) :
    let c := minElement values + maxElement values
    minElement (values.map fun v => c - v) = minElement values ∧
      maxElement (values.map fun v => c - v) = maxElement values := by
  intro c
  obtain ⟨hleast, hleastAll⟩ := minElement_isLeast hvalues
  obtain ⟨hgreatest, hgreatestAll⟩ := maxElement_isGreatest hvalues
  have hnonempty : values.map (fun v => c - v) ≠ [] := fun hnil =>
    hvalues (List.map_eq_nil_iff.mp hnil)
  constructor
  · refine (minElement_isLeast hnonempty).unique ⟨List.mem_map.mpr ⟨_, hgreatest, ?_⟩, ?_⟩
    · exact add_sub_cancel_right _ _
    · intro w hw
      obtain ⟨v, hv, rfl⟩ := List.mem_map.mp hw
      have : v ≤ maxElement values := hgreatestAll hv
      show minElement values ≤ minElement values + maxElement values - v
      linarith
  · refine (maxElement_isGreatest hnonempty).unique ⟨List.mem_map.mpr ⟨_, hleast, ?_⟩, ?_⟩
    · exact add_sub_cancel_left _ _
    · intro w hw
      obtain ⟨v, hv, rfl⟩ := List.mem_map.mp hw
      have : minElement values ≤ v := hleastAll hv
      show minElement values + maxElement values - v ≤ maxElement values
      linarith

theorem isEdge_mirror {c level : ℚ} (hlevel : c - level = level) (step : SignalStep ℚ) :
    isEdge level (step.mirror c) = isEdge level step := by
  have hup : (step.mirror c).crosses true level = step.crosses false level := by
    have h := mirror_crosses step c level false
    rwa [hlevel] at h
  have hdown : (step.mirror c).crosses false level = step.crosses true level := by
    have h := mirror_crosses step c level true
    rwa [hlevel] at h
  unfold isEdge
  rw [hup, hdown, Bool.or_comm]

theorem highAt_mirror {c level v : ℚ} (hlevel : c - level = level) (hv : v ≠ level) :
    highAt level (c - v) = !highAt level v := by
  unfold highAt
  rw [← decide_not, decide_eq_decide, not_le]
  constructor
  · intro h
    exact lt_of_le_of_ne (by linarith) hv
  · intro h
    linarith

/-- Off the middle what was low is high upside down. -/
theorem width_mirror {c level : ℚ} (hlevel : c - level = level) {step : SignalStep ℚ}
    (hprevious : step.previous ≠ level) (hcurrent : step.current ≠ level) :
    highWidth level (step.mirror c) = lowWidth level step ∧
      lowWidth level (step.mirror c) = highWidth level step := by
  unfold highWidth lowWidth
  show (if highAt level (c - step.previous) && highAt level (c - step.current) then step.width
      else 0) = _ ∧ (if !highAt level (c - step.previous) && !highAt level (c - step.current) then
      step.width else 0) = _
  rw [highAt_mirror hlevel hprevious, highAt_mirror hlevel hcurrent, Bool.not_not, Bool.not_not]
  exact ⟨rfl, rfl⟩

/-- The shares of the duration add up to all of it. -/
theorem duty_mirror {high low across duration : ℚ} (hsum : high + low + across = duration)
    (hduration : 0 < duration) :
    low / duration * 100 = 100 - high / duration * 100 - across / duration * 100 := by
  have hlow : low = duration - high - across := by linarith
  rw [hlow]
  field_simp

/-- Rise and fall times are not negative. -/
theorem firstCrossing_nonneg (htimes : times.Pairwise (· ≤ ·))
    (hlength : values.length = times.length) {startLevel endLevel : ℚ} {rising : Bool}
    (hlevels : if rising then startLevel ≤ endLevel else endLevel ≤ startLevel) :
    ∀ t ∈ firstCrossingDuration times values startLevel endLevel rising, 0 ≤ t :=
  crossingLoop_nonneg (signalSteps_inTime htimes hlength) hlevels fun _ hstart => (by cases hstart)

end Laws

/-- **The timing of a window.**  Its edges are the changes between high and low, but for the pairs
that begin or end on the middle; what the two widths leave of the duration is the time across the
middle; rise and fall times are not negative; and upside down, off the middle, the edges stay, rise
and fall and high and low change places, and the duty cycles and the share of the time across the
middle make up a hundred. -/
theorem timing_laws (sqrt : ℚ → ℚ) (channelIndex : ℕ) (samples : List (WaveSample ℚ))
    (reference mirroredReference : Option (List ℚ))
    (htimes : samples.Pairwise fun a b => a.time ≤ b.time) :
    let times := samples.map (·.time)
    let values := samples.map (·.value)
    let readout := makeMeasurementReadout sqrt channelIndex times values reference
    let mirrored := makeMeasurementReadout sqrt channelIndex times
      (values.map fun v => readout.minValue + readout.maxValue - v) mirroredReference
    0 < readout.duration → kMathEpsilon < readout.peakToPeak →
      TimingLaws samples readout mirrored := by
  intro times values readout mirrored hduration hpeak
  have hvalues : values ≠ [] := by
    intro hnil
    have hempty : readout = emptyReadout := by
      show makeMeasurementReadout sqrt channelIndex times values reference = _
      unfold makeMeasurementReadout
      rw [hnil]
      rfl
    rw [hempty] at hduration
    exact absurd hduration (lt_irrefl _)
  have hascend : times.Pairwise (· ≤ ·) := List.pairwise_map.mpr htimes
  have hlength : values.length = times.length := by
    show (samples.map _).length = (samples.map _).length
    rw [List.length_map, List.length_map]
  have h := makeMeasurementReadout_measured sqrt channelIndex hvalues hascend hlength reference
  have hwide : kMathEpsilon < readout.maxValue - readout.minValue := by
    rw [← h.peak]
    exact hpeak
  have ht := h.timed hwide
  have hspan : 0 ≤ readout.maxValue - readout.minValue := (kMathEpsilon_pos.trans hwide).le
  -- the window upside down
  have hmirrorValues : (values.map fun v => readout.minValue + readout.maxValue - v) ≠ [] :=
    fun hnil => hvalues (List.map_eq_nil_iff.mp hnil)
  have hmirrorLength : (values.map fun v => readout.minValue + readout.maxValue - v).length =
      times.length := by
    rw [List.length_map, hlength]
  have h' := makeMeasurementReadout_measured sqrt channelIndex hmirrorValues hascend hmirrorLength
    mirroredReference
  have hextremes := mirror_extremes hvalues
  rw [← h.least, ← h.greatest] at hextremes
  have hmin : mirrored.minValue = readout.minValue := h'.least.trans hextremes.1
  have hmax : mirrored.maxValue = readout.maxValue := h'.greatest.trans hextremes.2
  have ht' := h'.timed (show kMathEpsilon < mirrored.maxValue - mirrored.minValue by
    rw [hmin, hmax]
    exact hwide)
  have hsteps := signalSteps_mirror (readout.minValue + readout.maxValue) times values
  have hdurations : mirrored.duration = readout.duration := by
    rw [h'.duration_eq, h.duration_eq, List.length_map]
  have hmiddle : readout.minValue + readout.maxValue - (readout.minValue + readout.maxValue) / 2 =
      (readout.minValue + readout.maxValue) / 2 := by ring
  have hwidths : readout.highWidth + readout.lowWidth +
      acrossWidth samples ((readout.minValue + readout.maxValue) / 2) = readout.duration := by
    rw [ht.high, ht.low, h.duration_eq, ← sum_signalSteps times values]
    exact sum_widths _ _
  have hacross : 0 ≤ acrossWidth samples ((readout.minValue + readout.maxValue) / 2) := by
    refine List.sum_nonneg fun width hwidth => ?_
    obtain ⟨step, hstep, rfl⟩ := List.mem_map.mp hwidth
    unfold changeWidth
    split
    · exact (signalSteps_inTime hascend hlength).width step hstep
    · exact le_refl _
  have hedges := countP_isEdge ((readout.minValue + readout.maxValue) / 2)
    (signalSteps times values)
  refine ⟨?_, ?_, ?_, hwidths, ?_, ?_, ?_, ?_, fun hoff => ?_⟩
  · rw [h.least]
    exact minElement_isLeast hvalues
  · rw [h.greatest]
    exact maxElement_isGreatest hvalues
  · intro middle
    unfold adjacentValues
    rw [countP_adjacent times, countP_adjacent times, countP_adjacent times, ht.edges]
    exact hedges
  · rw [← hwidths]
    linarith
  · rw [ht.rise]
    refine firstCrossing_nonneg hascend hlength ?_
    simp only [if_true]
    linarith
  · rw [ht.fall]
    refine firstCrossing_nonneg hascend hlength ?_
    simp only [Bool.false_eq_true, if_false]
    linarith
  · have hlow : readout.minValue + readout.maxValue -
        (readout.minValue + (readout.maxValue - readout.minValue) * (10 / 100)) =
        readout.minValue + (readout.maxValue - readout.minValue) * (90 / 100) := by ring
    have hhigh : readout.minValue + readout.maxValue -
        (readout.minValue + (readout.maxValue - readout.minValue) * (90 / 100)) =
        readout.minValue + (readout.maxValue - readout.minValue) * (10 / 100) := by ring
    rw [ht'.rise, ht'.fall, ht.rise, ht.fall, hmin, hmax]
    unfold firstCrossingDuration
    rw [hsteps]
    constructor
    · rw [← crossingLoop_mirror (readout.minValue + readout.maxValue) false, hlow,
        hhigh]
      rfl
    · rw [← crossingLoop_mirror (readout.minValue + readout.maxValue) true, hlow,
        hhigh]
      rfl
  · have hstep : ∀ step ∈ signalSteps times values,
        step.previous ≠ (readout.minValue + readout.maxValue) / 2 ∧
          step.current ≠ (readout.minValue + readout.maxValue) / 2 := by
      intro step hmem
      obtain ⟨hprevious, hcurrent⟩ := mem_values_of_step hmem
      obtain ⟨first, hfirst, hvalue⟩ := List.mem_map.mp hprevious
      obtain ⟨second, hsecond, hvalue'⟩ := List.mem_map.mp hcurrent
      rw [← hvalue, ← hvalue']
      exact ⟨hoff first hfirst, hoff second hsecond⟩
    have hlowSwap : mirrored.highWidth = readout.lowWidth := by
      rw [ht'.high, ht.low, hsteps, List.map_map, hmin, hmax]
      refine congrArg List.sum (List.map_congr_left fun step hmem => ?_)
      exact (width_mirror hmiddle (hstep step hmem).1 (hstep step hmem).2).1
    have hhighSwap : mirrored.lowWidth = readout.highWidth := by
      rw [ht'.low, ht.high, hsteps, List.map_map, hmin, hmax]
      refine congrArg List.sum (List.map_congr_left fun step hmem => ?_)
      exact (width_mirror hmiddle (hstep step hmem).1 (hstep step hmem).2).2
    refine ⟨?_, ?_, hlowSwap, hhighSwap, ?_⟩
    · have hleaves : (signalSteps times values).countP
          (leavesDown ((readout.minValue + readout.maxValue) / 2)) = 0 := by
        rw [List.countP_eq_zero]
        intro step hmem hleave
        exact (hstep step hmem).1 (of_decide_eq_true hleave).1
      have hcomes : (signalSteps times values).countP
          (comesDown ((readout.minValue + readout.maxValue) / 2)) = 0 := by
        rw [List.countP_eq_zero]
        intro step hmem hcome
        exact (hstep step hmem).2 (of_decide_eq_true hcome).2
      rw [hleaves, hcomes, Nat.add_zero, Nat.add_zero] at hedges
      unfold adjacentValues
      rw [countP_adjacent times, ht.edges]
      exact hedges
    · rw [ht'.edges, ht.edges, hsteps, List.countP_map, hmin, hmax]
      exact congrArg (List.countP · (signalSteps times values)) (funext (isEdge_mirror hmiddle))
    · rw [ht'.duty, ht.duty, hdurations, hlowSwap]
      by_cases hlong : kMathEpsilon < readout.duration
      · rw [if_pos hlong, if_pos hlong, Option.map_some]
        exact congrArg some (duty_mirror hwidths hduration)
      · rw [if_neg hlong, if_neg hlong]
        rfl

theorem timing_laws_pulse :
    let readout : MeasurementReadout ℚ := makeMeasurementReadout id 0 [0, 1, 2] [0, 1, 0] none
    TimingLaws [⟨0, 0⟩, ⟨1, 1⟩, ⟨2, 0⟩] readout
      (makeMeasurementReadout id 0 [0, 1, 2]
        ([0, 1, 0].map fun v => readout.minValue + readout.maxValue - v) none) :=
  timing_laws id 0 [⟨0, 0⟩, ⟨1, 1⟩, ⟨2, 0⟩] none none (by decide +kernel) (by decide +kernel)
    (by decide +kernel)

/-- The readout of values one step apart in time, without a reference. -/
def unitReadout (values : List ℚ) : MeasurementReadout ℚ :=
  makeMeasurementReadout id 0 ((List.range values.length).map fun i => (i : ℚ)) values none

/-- A touch of the middle from above is counted as an edge although the signal stays high; and a
single step up has a duty cycle of zero, and so has the step down. -/
theorem touch_is_counted :
    ((unitReadout [0, 1, 1 / 2, 1]).edgeCount = 2 ∧
        (adjacentValues [⟨0, 0⟩, ⟨1, 1⟩, ⟨2, 1 / 2⟩, ⟨3, 1⟩]).countP
          (fun pair => decide (1 / 2 ≤ pair.1) != decide (1 / 2 ≤ pair.2)) = 1) ∧
      (unitReadout [0, 1]).dutyCycle = some 0 ∧ (unitReadout [1, 0]).dutyCycle = some 0 ∧
      (unitReadout [1, 0]).dutyCycle ≠ (unitReadout [0, 1]).dutyCycle.map fun duty => 100 - duty := by
  decide +kernel

end ProtoScope.Plot
