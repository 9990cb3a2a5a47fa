import GoodputLab.ArrivalWindows
/-!
# ArrivalSchedule — every trace has one schedule (`loadgen/arrival.py`)

The loop of an ON phase ends when the waiting times pass the end of the phase, so with waiting times that pass every
instant the process returns (`sample_returns`), and it returns the same whatever fuel is left (`sample_mono`): the
scheduler of a trace is built, and there is one (`exists_builds`, `builds_unique`).
-/
namespace GoodputLab

open Renewal (elapsed elapsed_succ)

/-- The waiting times of a process: from any of them on they pass every instant. -/
structure WaitingTimes where
  draws  : Nat → ℚ
  passes : ∀ (pos : Nat) (t : ℚ), ∃ k, t ≤ elapsed draws pos k

namespace OnOffArrival

variable {draws : Nat → ℚ}

theorem phase_mono {onEnd : ℚ} : ∀ {fuel fuel' pos : Nat} {t : ℚ} {r : List ℚ × Nat}, fuel ≤ fuel' →
    phase draws onEnd fuel pos t = some r → phase draws onEnd fuel' pos t = some r
  | 0, _, _, _, _, _, h => by cases h
  | fuel + 1, 0, _, _, _, hle, _ => absurd hle (Nat.not_succ_le_zero fuel)
  | fuel + 1, fuel' + 1, pos, t, r, hle, h => by
    rw [phase] at h ⊢
    by_cases ht : t < onEnd
    · rw [if_pos ht] at h ⊢
      simp only at h ⊢
      cases hnext : phase draws onEnd fuel (pos + 1) (t + draws pos) with
      | none =>
        rw [hnext] at h
        cases h
      | some r' =>
        rw [phase_mono (Nat.le_of_succ_le_succ hle) hnext]
        rw [hnext] at h
        exact h
    · rw [if_neg ht] at h ⊢
      exact h

/-- A phase returns once its draws pass its end. -/
theorem phase_returns {onEnd : ℚ} : ∀ {k pos : Nat} {t : ℚ}, onEnd ≤ t + elapsed draws pos k →
    ∃ r, phase draws onEnd (k + 1) pos t = some r
  | 0, pos, t, h => by
    rw [Renewal.elapsed_zero, add_zero] at h
    exact ⟨_, phase_of_not_lt draws (not_lt.2 h) 0 pos⟩
  | k + 1, pos, t, h => by
    by_cases ht : t < onEnd
    · rw [elapsed_succ, ← add_assoc] at h
      obtain ⟨r, hr⟩ := phase_returns h
      rw [phase, if_pos ht]
      simp only [hr]
      exact ⟨_, rfl⟩
    · exact ⟨_, phase_of_not_lt draws ht (k + 1) pos⟩

theorem cycles_mono (p : OnOffArrival) {durationS : ℚ} {fuel fuel' : Nat} (hle : fuel ≤ fuel') :
    ∀ {allowed cycleIdx pos : Nat} {t : ℚ} {offs : List ℚ},
      p.cycles draws durationS fuel allowed cycleIdx pos t = some offs →
      p.cycles draws durationS fuel' allowed cycleIdx pos t = some offs
  | 0, _, _, _, _, h => h
  | allowed + 1, cycleIdx, pos, t, offs, h => by
    rw [cycles] at h ⊢
    by_cases ht : t < durationS
    · rw [if_pos ht] at h ⊢
      simp only at h ⊢
      cases hphase : phase draws (p.onEnd durationS (cycleIdx * p.cycle)) fuel pos (cycleIdx * p.cycle) with
      | none =>
        rw [hphase] at h
        cases h
      | some r =>
        rw [phase_mono hle hphase]
        rw [hphase] at h
        simp only at h ⊢
        cases hrest : p.cycles draws durationS fuel allowed (cycleIdx + 1) r.2 (cycleIdx * p.cycle + p.cycle) with
        | none =>
          rw [hrest] at h
          cases h
        | some rest =>
          rw [p.cycles_mono hle hrest]
          rw [hrest] at h
          exact h
    · rw [if_neg ht] at h ⊢
      exact h

theorem cycles_returns (p : OnOffArrival) (w : WaitingTimes) (durationS : ℚ) : ∀ (allowed cycleIdx pos : Nat) (t : ℚ),
    ∃ fuel offs, p.cycles w.draws durationS fuel allowed cycleIdx pos t = some offs
  | 0, _, _, _ => ⟨0, [], rfl⟩
  | allowed + 1, cycleIdx, pos, t => by
    by_cases ht : t < durationS
    · obtain ⟨k, hk⟩ := w.passes pos (p.onEnd durationS (cycleIdx * p.cycle) - cycleIdx * p.cycle)
      obtain ⟨r, hr⟩ := phase_returns (sub_le_iff_le_add'.1 hk)
      obtain ⟨fuel, rest, hrest⟩ := p.cycles_returns w durationS allowed (cycleIdx + 1) r.2 (cycleIdx * p.cycle + p.cycle)
      refine ⟨max (k + 1) fuel, r.1 ++ rest, ?_⟩
      rw [cycles, if_pos ht]
      simp only [phase_mono (le_max_left (k + 1) fuel) hr, p.cycles_mono (le_max_right (k + 1) fuel) hrest]
    · exact ⟨0, [], by rw [cycles, if_neg ht]⟩

/-- **More fuel changes nothing.** -/
theorem sample_mono (p : OnOffArrival) {durationS : ℚ} {fuel fuel' : Nat} {offs : List ℚ} (hle : fuel ≤ fuel')
    (h : p.sample draws fuel durationS = some offs) : p.sample draws fuel' durationS = some offs := by
  unfold sample at h ⊢
  split
  · rename_i hdur
    rwa [if_pos hdur] at h
  · rename_i hdur
    rw [if_neg hdur] at h
    exact p.cycles_mono hle h

/-- **The process returns.** -/
theorem sample_returns (p : OnOffArrival) (w : WaitingTimes) (durationS : ℚ) :
    ∃ fuel offs, p.sample w.draws fuel durationS = some offs := by
  unfold sample
  split
  · exact ⟨0, [], rfl⟩
  · exact p.cycles_returns w durationS _ 0 0 0

end OnOffArrival

namespace OpenLoopScheduler

/-- The scheduler that the constructor builds, whatever its loops take. -/
def Builds (draws : Nat → ℚ) (trace : Trace) (s : OpenLoopScheduler) : Prop := ∃ fuel, make? draws fuel trace = some s

/-- **Every trace has a scheduler.** -/
theorem exists_builds (w : WaitingTimes) (trace : Trace) : ∃ s, Builds w.draws trace s := by
  have hoffsets : ∃ fuel offsets, sampleOffsets w.draws fuel trace = some offsets := by
    cases hproc : trace.arrival.process with
    | poisson => exact ⟨0, _, sampleOffsets_poisson hproc w.draws 0⟩
    | onOff =>
      simp only [sampleOffsets_onOff hproc]
      exact (trace.arrival.onOff hproc).sample_returns w trace.durationS
  obtain ⟨fuel, offsets, hoffsets⟩ := hoffsets
  exact ⟨⟨trace, offsets⟩, fuel, by rw [make?, hoffsets, Option.map_some]⟩

theorem make?_mono {draws : Nat → ℚ} {trace : Trace} {s : OpenLoopScheduler} {fuel fuel' : Nat} (hle : fuel ≤ fuel')
    (h : make? draws fuel trace = some s) : make? draws fuel' trace = some s := by
  obtain ⟨offsets, hoffsets, rfl⟩ := Option.map_eq_some_iff.1 h
  have hmore : sampleOffsets draws fuel' trace = some offsets := by
    cases hproc : trace.arrival.process with
    | poisson =>
      rw [sampleOffsets_poisson hproc] at hoffsets ⊢
      exact hoffsets
    | onOff =>
      rw [sampleOffsets_onOff hproc] at hoffsets ⊢
      exact OnOffArrival.sample_mono _ hle hoffsets
  rw [make?, hmore, Option.map_some]

/-- **And one only.** -/
theorem builds_unique {draws : Nat → ℚ} {trace : Trace} {s s' : OpenLoopScheduler} (h : Builds draws trace s)
    (h' : Builds draws trace s') : s = s' := by
  obtain ⟨fuel, hs⟩ := h
  obtain ⟨fuel', hs'⟩ := h'
  have hmax := make?_mono (le_max_left fuel fuel') hs
  rw [make?_mono (le_max_right fuel fuel') hs'] at hmax
  exact (Option.some.inj hmax).symm

theorem builds_trace {draws : Nat → ℚ} {trace : Trace} {s : OpenLoopScheduler} (h : Builds draws trace s) :
    s.trace = trace := by
  obtain ⟨fuel, hs⟩ := h
  obtain ⟨offsets, -, rfl⟩ := Option.map_eq_some_iff.1 hs
  rfl

end OpenLoopScheduler
end GoodputLab
