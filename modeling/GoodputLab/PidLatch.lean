import GoodputLab.Base.Runs
import GoodputLab.Pid
/-!
# PidLatch — when the anti-windup latches

The integrator is held while the sum of the three terms saturates, so without a derivative term its own term stays
inside the clamp (`next_inWindow`, `integral_term_bounded`) and an error of the other sign takes the output off its limit
at once.  With one, a falling error cancels a large integral term, the integrator accumulates past the clamp, and the
output stays at its limit while the error points the other way (`latched_run`).  `unlatched_iff` says which gains latch
on no run.
-/
namespace GoodputLab
namespace PidController

/-! ## One step of positive duration -/

def clamp (c : PidController) (u : ℚ) : ℚ := max c.outMin (min c.outMax u)

def next (c : PidController) (error dt : ℚ) : PidController :=
  { c with
    integral := if c.outMin ≤ c.unclamped error dt ∧ c.unclamped error dt ≤ c.outMax then c.integral + error * dt
      else c.integral
    prevError := some error }

theorem update_eq (c : PidController) (error dt : ℚ) (hdt : 0 < dt) :
    c.update error dt = .ok (c.clamp (c.unclamped error dt), c.next error dt) := by
  have hlt := c.outLt
  unfold update clamp next
  rw [if_neg (not_le.2 hdt)]
  simp only
  by_cases hmax : c.outMax < c.unclamped error dt
  · have hno : ¬ (c.outMin ≤ c.unclamped error dt ∧ c.unclamped error dt ≤ c.outMax) := fun h => by linarith [h.2]
    rw [if_pos hmax, if_neg hno, min_eq_left hmax.le, max_eq_right hlt.le]
  · rw [if_neg hmax, min_eq_right (not_lt.1 hmax)]
    by_cases hmin : c.unclamped error dt < c.outMin
    · have hno : ¬ (c.outMin ≤ c.unclamped error dt ∧ c.unclamped error dt ≤ c.outMax) := fun h => by linarith [h.1]
      rw [if_pos hmin, if_neg hno, max_eq_left hmin.le]
    · rw [if_neg hmin, if_pos ⟨not_lt.1 hmin, not_lt.1 hmax⟩, max_eq_right (not_lt.1 hmin)]

theorem clamp_lt (c : PidController) {u : ℚ} (h : u < c.outMax) : c.clamp u < c.outMax :=
  max_lt c.outLt (lt_of_le_of_lt (min_le_right _ _) h)

theorem lt_clamp (c : PidController) {u : ℚ} (h : c.outMin < u) : c.outMin < c.clamp u :=
  lt_max_of_lt_right (lt_min c.outLt h)

theorem clamp_of_le (c : PidController) {u : ℚ} (h : c.outMax ≤ u) : c.clamp u = c.outMax := by
  rw [clamp, min_eq_left h, max_eq_right c.outLt.le]

/-! ## Runs -/

/-- One call with an error and a duration; a call that raises changes nothing. -/
def step (c : PidController) (x : ℚ × ℚ) : PidController :=
  match c.update x.1 x.2 with
  | .ok (_, c') => c'
  | .error _    => c

theorem step_eq (c : PidController) (x : ℚ × ℚ) (hdt : 0 < x.2) : c.step x = c.next x.1 x.2 := by
  rw [step, update_eq c x.1 x.2 hdt]

/-- The second output of two consecutive updates with one error and duration. -/
def twice (c : PidController) (error dt : ℚ) : Except String ℚ := do
  let (_, c) ← c.update error dt
  let (u, _) ← c.update error dt
  return u

theorem twice_eq (c : PidController) (error dt : ℚ) (hdt : 0 < dt) :
    c.twice error dt =
      .ok (c.clamp (c.gains.kp * error + c.gains.ki * ((c.next error dt).integral + error * dt))) := by
  have hflat : (c.next error dt).unclamped error dt =
      c.gains.kp * error + c.gains.ki * ((c.next error dt).integral + error * dt) := by
    simp [unclamped, next]
  unfold twice
  rw [update_eq c error dt hdt]
  simp only [bind, Except.bind]
  rw [update_eq (c.next error dt) error dt hdt, hflat]
  rfl

/-- Two equal updates against the limit take the output off it. -/
def Unlatched (c : PidController) : Prop :=
  ∀ error dt, 0 < dt →
    (error < 0 → ∃ u, c.twice error dt = .ok u ∧ u < c.outMax) ∧
    (0 < error → ∃ u, c.twice error dt = .ok u ∧ c.outMin < u)

/-! ## No derivative term, or no integral term -/

/-- The integral term alone is inside the clamp. -/
def InWindow (c : PidController) : Prop := c.outMin ≤ c.gains.ki * c.integral ∧ c.gains.ki * c.integral ≤ c.outMax

theorem next_inWindow (c : PidController) (error dt : ℚ) (hdt : 0 < dt) (hkp : 0 ≤ c.gains.kp)
    (hkd : c.gains.kd = 0) (h : c.InWindow) : (c.next error dt).InWindow := by
  have hu : c.unclamped error dt = c.gains.kp * error + c.gains.ki * (c.integral + error * dt) := by
    unfold unclamped
    cases c.prevError <;> simp [hkd]
  by_cases hlin : c.outMin ≤ c.unclamped error dt ∧ c.unclamped error dt ≤ c.outMax
  · have hki := c.gains.kiGe
    have hnext : (c.next error dt).integral = c.integral + error * dt := if_pos hlin
    unfold InWindow
    rw [hnext]
    rw [hu] at hlin
    obtain ⟨hlo, hhi⟩ := h
    show c.outMin ≤ c.gains.ki * (c.integral + error * dt) ∧ c.gains.ki * (c.integral + error * dt) ≤ c.outMax
    rcases le_total 0 error with he | he
    · have hstep : 0 ≤ c.gains.ki * (error * dt) := mul_nonneg hki (mul_nonneg he hdt.le)
      have hprop : 0 ≤ c.gains.kp * error := mul_nonneg hkp he
      constructor <;> linarith [hlin.2]
    · have hstep : c.gains.ki * (error * dt) ≤ 0 :=
        mul_nonpos_of_nonneg_of_nonpos hki (mul_nonpos_of_nonpos_of_nonneg he hdt.le)
      have hprop : c.gains.kp * error ≤ 0 := mul_nonpos_of_nonneg_of_nonpos hkp he
      constructor <;> linarith [hlin.1]
  · have hnext : (c.next error dt).integral = c.integral := if_neg hlin
    unfold InWindow
    rw [hnext]
    exact h

theorem run_config (c : PidController) (ops : List (ℚ × ℚ)) (hops : ∀ x ∈ ops, 0 < x.2) :
    (Runs.run step c.reset ops).gains = c.gains ∧ (Runs.run step c.reset ops).outMin = c.outMin ∧
      (Runs.run step c.reset ops).outMax = c.outMax :=
  Runs.run_invariant (fun x : PidController => x.gains = c.gains ∧ x.outMin = c.outMin ∧ x.outMax = c.outMax) ops _
    (fun x op hop hx => by rw [step_eq x op (hops op hop)]; exact hx) ⟨rfl, rfl, rfl⟩

/-- **Without a derivative term the integral term of a run stays inside the clamp.** -/
theorem run_inWindow (c : PidController) (hkp : 0 ≤ c.gains.kp) (hkd : c.gains.kd = 0) (hmin : c.outMin ≤ 0)
    (hmax : 0 ≤ c.outMax) (ops : List (ℚ × ℚ)) (hops : ∀ x ∈ ops, 0 < x.2) :
    (Runs.run step c.reset ops).InWindow := by
  have hrun : (Runs.run step c.reset ops).InWindow ∧ (Runs.run step c.reset ops).gains = c.gains := by
    refine Runs.run_invariant (fun x : PidController => x.InWindow ∧ x.gains = c.gains) ops _
      (fun x op hop hx => ?_) ⟨?_, rfl⟩
    · rw [step_eq x op (hops op hop)]
      obtain ⟨hin, hgains⟩ := hx
      exact ⟨next_inWindow x op.1 op.2 (hops op hop) (by rw [hgains]; exact hkp) (by rw [hgains]; exact hkd) hin,
        hgains⟩
    · unfold InWindow reset
      simp only [mul_zero]
      exact ⟨hmin, hmax⟩
  exact hrun.1

/-- **The integrator of a PI controller is bounded by the clamp**, though no step clamps it. -/
theorem integral_term_bounded (c : PidController) (hkp : 0 ≤ c.gains.kp) (hkd : c.gains.kd = 0) (hmin : c.outMin ≤ 0)
    (hmax : 0 ≤ c.outMax) (ops : List (ℚ × ℚ)) (hops : ∀ x ∈ ops, 0 < x.2) :
    c.outMin ≤ c.gains.ki * (Runs.run step c.reset ops).integral ∧
      c.gains.ki * (Runs.run step c.reset ops).integral ≤ c.outMax := by
  have hin := run_inWindow c hkp hkd hmin hmax ops hops
  obtain ⟨hgains, hlo, hhi⟩ := run_config c ops hops
  rwa [InWindow, hgains, hlo, hhi] at hin

theorem neg_one_lt : (-1 : ℚ) < 1 := by decide +kernel

theorem deployed_ki : (0 : ℚ) ≤ 1 / 100 := by decide +kernel

theorem deployed_kd : (0 : ℚ) ≤ 0 := le_refl 0

/-- The controller of the live autoscaler. -/
def deployedPid : PidController := fresh ⟨8 / 100, 1 / 100, 0, deployed_ki, deployed_kd⟩ (-1) 1 neg_one_lt

theorem deployed_integral_bounded :
    -1 ≤ 1 / 100 * (Runs.run step deployedPid.reset [(10, 1), (-50, 2), (3, 1 / 2)]).integral ∧
      1 / 100 * (Runs.run step deployedPid.reset [(10, 1), (-50, 2), (3, 1 / 2)]).integral ≤ 1 :=
  integral_term_bounded deployedPid (by decide +kernel) rfl (by decide +kernel) (by decide +kernel)
    [(10, 1), (-50, 2), (3, 1 / 2)] (by decide +kernel)

theorem unlatched_of_window (c : PidController) (hkp : 0 ≤ c.gains.kp) (hmin : c.outMin < 0) (hmax : 0 < c.outMax)
    (h : c.gains.ki = 0 ∨ ∀ error dt, 0 < dt → (c.next error dt).InWindow) : c.Unlatched := by
  intro error dt hdt
  have hki := c.gains.kiGe
  rw [twice_eq c error dt hdt]
  constructor
  · intro he
    have hprop : c.gains.kp * error ≤ 0 := mul_nonpos_of_nonneg_of_nonpos hkp he.le
    refine ⟨_, rfl, clamp_lt c ?_⟩
    rcases h with hki0 | hwin
    · rw [hki0, zero_mul, add_zero]
      exact lt_of_le_of_lt hprop hmax
    · have hhi : c.gains.ki * (c.next error dt).integral ≤ c.outMax := (hwin error dt hdt).2
      rcases eq_or_lt_of_le hki with hki0 | hpos
      · rw [← hki0, zero_mul, add_zero]
        exact lt_of_le_of_lt hprop hmax
      · have hstep : c.gains.ki * (error * dt) < 0 := mul_neg_of_pos_of_neg hpos (mul_neg_of_neg_of_pos he hdt)
        linarith
  · intro he
    have hprop : 0 ≤ c.gains.kp * error := mul_nonneg hkp he.le
    refine ⟨_, rfl, lt_clamp c ?_⟩
    rcases h with hki0 | hwin
    · rw [hki0, zero_mul, add_zero]
      exact lt_of_lt_of_le hmin hprop
    · have hlo : c.outMin ≤ c.gains.ki * (c.next error dt).integral := (hwin error dt hdt).1
      rcases eq_or_lt_of_le hki with hki0 | hpos
      · rw [← hki0, zero_mul, add_zero]
        exact lt_of_lt_of_le hmin hprop
      · have hstep : 0 < c.gains.ki * (error * dt) := mul_pos hpos (mul_pos he hdt)
        linarith

/-! ## Both terms -/

/-- An error whose integral term alone is far past the upper limit. -/
def windError (c : PidController) : ℚ := (c.outMax + c.gains.kp) / c.gains.ki + 3

/-- A first error so large that falling to `windError` cancels all three terms. -/
def kickError (c : PidController) : ℚ := c.windError * (c.gains.kp + c.gains.ki + c.gains.kd) / c.gains.kd

theorem ki_windError (c : PidController) (hki : 0 < c.gains.ki) :
    c.gains.ki * c.windError = c.outMax + c.gains.kp + 3 * c.gains.ki := by
  unfold windError
  rw [mul_add, mul_div_cancel₀ _ hki.ne']
  ring

theorem kd_kickError (c : PidController) (hkd : 0 < c.gains.kd) :
    c.gains.kd * c.kickError = c.windError * (c.gains.kp + c.gains.ki + c.gains.kd) := by
  unfold kickError
  rw [mul_div_cancel₀ _ hkd.ne']

/-- The first update saturates and the second does not: the integral is then `windError`. -/
theorem wound_integral (c : PidController) (hkp : 0 ≤ c.gains.kp) (hmin : c.outMin < 0) (hmax : 0 < c.outMax)
    (hki : 0 < c.gains.ki) (hkd : 0 < c.gains.kd) :
    ((c.reset.next c.kickError 1).next c.windError 1).integral = c.windError := by
  have hwind := ki_windError c hki
  have hkick := kd_kickError c hkd
  have hpos : 0 < c.windError := by
    refine pos_of_mul_pos_right ?_ hki.le
    rw [hwind]
    linarith
  have hlarge : c.windError ≤ c.kickError := by
    refine le_of_mul_le_mul_left ?_ hkd
    rw [hkick]
    nlinarith [mul_nonneg hpos.le (add_nonneg hkp hki.le)]
  have hfirst : (c.reset.next c.kickError 1).integral = 0 := by
    refine if_neg (fun h => ?_)
    have hu : c.reset.unclamped c.kickError 1 = c.gains.kp * c.kickError + c.gains.ki * c.kickError := by
      simp [unclamped, reset]
    have hover := h.2
    rw [hu] at hover
    have hkpk : 0 ≤ c.gains.kp * c.kickError := mul_nonneg hkp (hpos.le.trans hlarge)
    have hkik : c.gains.ki * c.windError ≤ c.gains.ki * c.kickError := mul_le_mul_of_nonneg_left hlarge hki.le
    have hcap : c.reset.outMax = c.outMax := rfl
    linarith
  have hsecond : (c.reset.next c.kickError 1).unclamped c.windError 1 = 0 := by
    have hu : (c.reset.next c.kickError 1).unclamped c.windError 1 =
        c.gains.kp * c.windError + c.gains.ki * ((c.reset.next c.kickError 1).integral + c.windError * 1) +
          c.gains.kd * (c.windError - c.kickError) / 1 := rfl
    rw [hu, hfirst, div_one, mul_sub, hkick]
    ring
  have hlinear : (c.reset.next c.kickError 1).outMin ≤ (c.reset.next c.kickError 1).unclamped c.windError 1 ∧
      (c.reset.next c.kickError 1).unclamped c.windError 1 ≤ (c.reset.next c.kickError 1).outMax := by
    rw [hsecond]
    exact ⟨hmin.le, hmax.le⟩
  have hnext : ((c.reset.next c.kickError 1).next c.windError 1).integral =
      (c.reset.next c.kickError 1).integral + c.windError * 1 := if_pos hlinear
  rw [hnext, hfirst]
  ring

/-- **With an integral and a derivative term some run latches**: after it, two updates with error −1 leave the output at
its upper limit. -/
theorem latched_run (c : PidController) (hkp : 0 ≤ c.gains.kp) (hmin : c.outMin < 0) (hmax : 0 < c.outMax)
    (hki : 0 < c.gains.ki) (hkd : 0 < c.gains.kd) :
    ¬ (Runs.run step c.reset [(c.kickError, 1), (c.windError, 1)]).Unlatched := by
  have hrun : Runs.run step c.reset [(c.kickError, 1), (c.windError, 1)] =
      (c.reset.next c.kickError 1).next c.windError 1 := by
    rw [Runs.run_cons, Runs.run_cons, Runs.run_nil, step_eq _ _ one_pos, step_eq _ _ one_pos]
  have hwound := wound_integral c hkp hmin hmax hki hkd
  have hwind := ki_windError c hki
  rw [hrun]
  set w := (c.reset.next c.kickError 1).next c.windError 1 with hw
  intro hun
  obtain ⟨u, hu, hlt⟩ := (hun (-1) 1 one_pos).1 (by norm_num)
  rw [twice_eq w (-1) 1 one_pos] at hu
  obtain rfl := Except.ok.inj hu
  have hheld : c.windError - 1 ≤ (w.next (-1) 1).integral := by
    unfold next
    simp only
    split
    · rw [hwound]
      linarith
    · rw [hwound]
      linarith
  have hover : w.outMax ≤ w.gains.kp * (-1) + w.gains.ki * ((w.next (-1) 1).integral + -1 * 1) := by
    have hgains : w.gains = c.gains := rfl
    have hcap : w.outMax = c.outMax := rfl
    rw [hgains, hcap]
    nlinarith [mul_le_mul_of_nonneg_left hheld hki.le]
  rw [clamp_of_le w hover] at hlt
  exact lt_irrefl _ hlt

/-- **The anti-windup latches on no run exactly when the integral or the derivative gain is zero.** -/
theorem unlatched_iff (c : PidController) (hkp : 0 ≤ c.gains.kp) (hmin : c.outMin < 0) (hmax : 0 < c.outMax) :
    (∀ ops : List (ℚ × ℚ), (∀ x ∈ ops, 0 < x.2) → (Runs.run step c.reset ops).Unlatched) ↔
      c.gains.ki = 0 ∨ c.gains.kd = 0 := by
  constructor
  · intro h
    by_contra hnot
    rw [not_or] at hnot
    have hki := lt_of_le_of_ne c.gains.kiGe (Ne.symm hnot.1)
    have hkd := lt_of_le_of_ne c.gains.kdGe (Ne.symm hnot.2)
    exact latched_run c hkp hmin hmax hki hkd (h _ (by simp))
  · intro hgains ops hops
    obtain ⟨hg, hlo, hhi⟩ := run_config c ops hops
    refine unlatched_of_window _ (by rw [hg]; exact hkp) (by rw [hlo]; exact hmin) (by rw [hhi]; exact hmax) ?_
    rw [hg]
    refine hgains.imp id (fun hkd error dt hdt => ?_)
    have hin := run_inWindow c hkp hkd hmin.le hmax.le ops hops
    exact next_inWindow _ error dt hdt (by rw [hg]; exact hkp) (by rw [hg]; exact hkd) hin

/-- An integral and a derivative gain, clamped to ±1. -/
def integralDerivative : PidController := fresh ⟨0, 1, 9, by decide +kernel, by decide +kernel⟩ (-1) 1 neg_one_lt

theorem latches_after_two_updates :
    let c := integralDerivative
    (0 ≤ c.gains.kp ∧ c.outMin < 0 ∧ 0 < c.outMax) ∧
    (Runs.run step c.reset [(10, 1), (9, 1)]).twice (-1) 1 = .ok c.outMax ∧
    ¬ (Runs.run step c.reset [(10, 1), (9, 1)]).Unlatched := by
  have htwice : (Runs.run step integralDerivative.reset [(10, 1), (9, 1)]).twice (-1) 1 =
      .ok integralDerivative.outMax := by
    decide +kernel
  refine ⟨by decide +kernel, htwice, fun hun => ?_⟩
  obtain ⟨u, hu, hlt⟩ := (hun (-1) 1 one_pos).1 (by norm_num)
  rw [htwice] at hu
  obtain rfl := Except.ok.inj hu
  have hcap := (run_config integralDerivative [(10, 1), (9, 1)] (by simp)).2.2
  rw [hcap] at hlt
  exact lt_irrefl _ hlt

theorem integralDerivative_latches :
    (∀ ops : List (ℚ × ℚ), (∀ x ∈ ops, 0 < x.2) →
      (Runs.run step integralDerivative.reset ops).Unlatched) ↔
    integralDerivative.gains.ki = 0 ∨ integralDerivative.gains.kd = 0 :=
  unlatched_iff integralDerivative (by decide +kernel) (by decide +kernel) (by decide +kernel)

end PidController
end GoodputLab
