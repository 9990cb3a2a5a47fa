import Mathlib
/-!
# Pid — the discrete-time controller (`control/pid.py`)

`update` is one step: the three terms, the clamp, and an integrator that accumulates in the linear region only.  Floats
are exact rationals.
-/
namespace GoodputLab

structure PidGains where
  kp   : ℚ
  ki   : ℚ
  kd   : ℚ
  kiGe : 0 ≤ ki
  kdGe : 0 ≤ kd

structure PidController where
  gains     : PidGains
  outMin    : ℚ
  outMax    : ℚ
  integral  : ℚ
  prevError : Option ℚ
  outLt     : outMin < outMax

namespace PidController

def fresh (gains : PidGains) (outMin outMax : ℚ) (h : outMin < outMax) : PidController :=
  ⟨gains, outMin, outMax, 0, none, h⟩

def reset (c : PidController) : PidController := { c with integral := 0, prevError := none }

def unclamped (c : PidController) (error dt : ℚ) : ℚ :=
  let kp := c.gains.kp * error
  let ki := c.gains.ki * (c.integral + error * dt)
  let kd := match c.prevError with
    | none      => 0
    | some prev => c.gains.kd * (error - prev) / dt
  kp + ki + kd

/-- One step: the clamped output and the controller after it; the integrator is held while the output saturates. -/
def update (c : PidController) (error dt : ℚ) : Except String (ℚ × PidController) :=
  if dt ≤ 0 then .error "dt must be > 0"
  else
    let u := c.unclamped error dt
    if c.outMax < u then .ok (c.outMax, { c with prevError := some error })
    else if u < c.outMin then .ok (c.outMin, { c with prevError := some error })
    else .ok (u, { c with integral := c.integral + error * dt, prevError := some error })

/-- **One step, whatever the gains and the history**: it returns when `dt` is positive, inside the clamp, and keeps the
controller's configuration. -/
theorem update_spec (c : PidController) (error dt : ℚ) (hdt : 0 < dt) :
    ∃ u c', c.update error dt = .ok (u, c') ∧ c.outMin ≤ u ∧ u ≤ c.outMax ∧
      c'.gains = c.gains ∧ c'.outMin = c.outMin ∧ c'.outMax = c.outMax := by
  unfold update
  rw [if_neg (not_le.2 hdt)]
  simp only
  split
  · exact ⟨_, _, rfl, le_of_lt c.outLt, le_refl _, rfl, rfl, rfl⟩
  · rename_i hmax
    split
    · exact ⟨_, _, rfl, le_refl _, le_of_lt c.outLt, rfl, rfl, rfl⟩
    · rename_i hmin
      exact ⟨_, _, rfl, not_lt.1 hmin, not_lt.1 hmax, rfl, rfl, rfl⟩

end PidController
end GoodputLab
