import GoodputLab.ArrivalWindows
import GoodputLab.Base.DutyCycle
/-!
# ArrivalExpected — the expected arrivals of an ON/OFF trace (`core/trace.py`)

`Trace.expectedArrivals` spreads the rate over the whole duration by the duty cycle.  The process draws in its ON windows
only (`OnOffArrival.onWindows`), and each cycle opens with one, so the formula is right just when the duration is a whole
number of cycles (`expectedArrivals_iff`).
-/
namespace GoodputLab

open MeasureTheory

namespace OnOffArrival

/-- The instants in which the process is ON, within a duration. -/
def onWindows (p : OnOffArrival) (durationS : ℚ) : Set ℝ :=
  ⋃ k : ℕ, Set.Ico (k * (p.cycle : ℝ)) (k * (p.cycle : ℝ) + p.onDur) ∩ Set.Icc 0 (durationS : ℝ)

theorem sum_onLengths (p : OnOffArrival) (durationS : ℚ) : (p.onLengths durationS).sum =
    ∑ k ∈ Finset.range ⌈durationS / p.cycle⌉₊, min p.onDur (durationS - k * p.cycle) := rfl

/-- **The windows that are sampled have the length of the ON windows.** -/
theorem volume_onWindows (p : OnOffArrival) (durationS : ℚ) :
    volume (p.onWindows durationS) = ENNReal.ofReal (((p.onLengths durationS).sum : ℚ) : ℝ) := by
  have hcycle : (0 : ℝ) < p.cycle := by exact_mod_cast p.cycle_pos
  have hon : (0 : ℝ) ≤ p.onDur := by exact_mod_cast p.onPos.le
  have hshort : (p.onDur : ℝ) ≤ p.cycle := by exact_mod_cast p.onDur_lt_cycle.le
  have hceil : ⌈(durationS : ℝ) / p.cycle⌉₊ = ⌈durationS / p.cycle⌉₊ := by
    apply eq_of_forall_ge_iff
    intro n
    rw [Nat.ceil_le, Nat.ceil_le]
    exact_mod_cast Iff.rfl
  have hvolume := DutyCycle.volume_windows (d := (durationS : ℝ)) hcycle hon hshort
  rw [hceil] at hvolume
  rw [sum_onLengths]
  push_cast
  exact hvolume

theorem onLengths_sum_nonneg (p : OnOffArrival) (durationS : ℚ) : 0 ≤ (p.onLengths durationS).sum := by
  rw [sum_onLengths]
  apply Finset.sum_nonneg
  intro k hk
  exact (p.onLength_pos ((p.lt_ceil_iff durationS k).1 (Finset.mem_range.1 hk))).le

end OnOffArrival

theorem Trace.expectedArrivals_onOff (t : Trace) (h : t.arrival.process = .onOff) : t.expectedArrivals =
    t.arrival.ratePerSec * ((t.arrival.onOff h).onDur / (t.arrival.onOff h).cycle) * t.durationS := by
  unfold Trace.expectedArrivals
  split
  · rename_i hp
    rw [h] at hp
    cases hp
  · rfl

/-- **The formula is the rate over the ON windows just on whole cycles.** -/
theorem expectedArrivals_iff (t : Trace) (h : t.arrival.process = .onOff) :
    (t.expectedArrivals : ℝ) =
        t.arrival.ratePerSec * (volume ((t.arrival.onOff h).onWindows t.durationS)).toReal ↔
      ∃ n : ℕ, t.durationS = n * (t.arrival.onOff h).cycle := by
  have hrate := t.arrival.ratePos
  have hdur := t.durationPos
  rw [t.expectedArrivals_onOff h]
  generalize t.arrival.onOff h = p
  rw [p.volume_onWindows, ENNReal.toReal_ofReal (by exact_mod_cast p.onLengths_sum_nonneg _)]
  have hcast : ((t.arrival.ratePerSec * (p.onDur / p.cycle) * t.durationS : ℚ) : ℝ) =
      t.arrival.ratePerSec * (((p.onLengths t.durationS).sum : ℚ) : ℝ) ↔
        t.arrival.ratePerSec * (p.onDur / p.cycle * t.durationS) =
          t.arrival.ratePerSec * (p.onLengths t.durationS).sum := by
    rw [mul_assoc]
    exact_mod_cast Iff.rfl
  rw [hcast, mul_right_inj' hrate.ne', p.sum_onLengths]
  exact DutyCycle.share_iff p.cycle_pos p.onPos p.onDur_lt_cycle hdur.le

/-! ## A quarter duty cycle -/

theorem twenty_pos : (0 : ℚ) < 20 := by norm_num

theorem ten_pos : (0 : ℚ) < 10 := by norm_num

theorem one_checked : (some (1 : ℚ)).all (fun x => decide (0 < x)) = true := by decide

theorem three_checked : (some (3 : ℚ)).all (fun x => decide (0 < x)) = true := by decide

/-- Twenty a second, one second ON and three seconds OFF, for ten seconds. -/
def quarterDuty : Trace where
  workload := .rag
  seed := 1
  durationS := 10
  arrival :=
    { process := .onOff, ratePerSec := 20, seed := 1, onDurationS := some 1, offDurationS := some 3,
      ratePos := twenty_pos, onPos := one_checked, offPos := three_checked, onOffPair := fun _ => ⟨rfl, rfl⟩ }
  requests := []
  durationPos := ten_pos

theorem quarterDuty_iff :
    (quarterDuty.expectedArrivals : ℝ) =
        quarterDuty.arrival.ratePerSec *
          (volume ((quarterDuty.arrival.onOff rfl).onWindows quarterDuty.durationS)).toReal ↔
      ∃ n : ℕ, quarterDuty.durationS = n * (quarterDuty.arrival.onOff rfl).cycle :=
  expectedArrivals_iff quarterDuty rfl

/-- **Fifty arrivals are expected and sixty are sent**: the third window opens within the ten seconds, and is whole. -/
theorem quarterDuty_short :
    quarterDuty.expectedArrivals = 50 ∧
      (volume ((quarterDuty.arrival.onOff rfl).onWindows quarterDuty.durationS)).toReal = 3 ∧
      (quarterDuty.expectedArrivals : ℝ) ≠ quarterDuty.arrival.ratePerSec *
        (volume ((quarterDuty.arrival.onOff rfl).onWindows quarterDuty.durationS)).toReal := by
  have hexpected : quarterDuty.expectedArrivals = 50 := by decide +kernel
  have hsum : ((quarterDuty.arrival.onOff rfl).onLengths quarterDuty.durationS).sum = 3 := by decide +kernel
  have hvolume : (volume ((quarterDuty.arrival.onOff rfl).onWindows quarterDuty.durationS)).toReal = 3 := by
    rw [OnOffArrival.volume_onWindows, hsum]
    norm_num
  refine ⟨hexpected, hvolume, ?_⟩
  rw [hexpected, hvolume]
  norm_num [quarterDuty]

end GoodputLab
