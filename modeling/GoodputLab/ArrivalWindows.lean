import GoodputLab.Arrival
import GoodputLab.Base.Renewal
/-!
# ArrivalWindows — what the ON/OFF process samples

The process returns the arrivals of its ON windows, one after the other: `sample_iff` says so as an equation, and the rest
is read off it.  The arrivals increase and lie in the windows, every window that starts in time is sampled to its end, and
the safety stop is dead code (`sample_wellPlaced`).  A shorter run returns what a longer one returns before its end
(`sample_truncates`).
-/
namespace GoodputLab

open Renewal (elapsed Takes Fills arrivals elapsed_succ elapsed_nonneg)

namespace OnOffArrival

/-! ## One phase -/

theorem phase_of_not_lt (draws : Nat → ℚ) {onEnd t : ℚ} (h : ¬ t < onEnd) (fuel pos : Nat) :
    phase draws onEnd (fuel + 1) pos t = some ([], pos) := by
  simp [phase, h]

/-- A phase that ends returns the arrivals of its window. -/
theorem phase_takes (draws : Nat → ℚ) (onEnd : ℚ) : ∀ (fuel pos : Nat) (t : ℚ) (r : List ℚ × Nat), t < onEnd →
    phase draws onEnd fuel pos t = some r →
      ∃ n, Takes draws (onEnd - t) pos n ∧ r = (arrivals draws t pos n, pos + n + 1)
  | 0, _, _, _, _, h => by cases h
  | fuel + 1, pos, t, r, ht, h => by
    rw [phase, if_pos ht] at h
    simp only at h
    cases hnext : phase draws onEnd fuel (pos + 1) (t + draws pos) with
    | none =>
      rw [hnext] at h
      cases h
    | some r' =>
      rw [hnext] at h
      cases h
      by_cases hin : t + draws pos < onEnd
      · obtain ⟨n, ⟨hlt, hle⟩, rfl⟩ := phase_takes draws onEnd fuel (pos + 1) _ r' hin hnext
        rw [if_pos hin]
        refine ⟨n + 1, ⟨?_, ?_⟩, ?_⟩
        · rw [elapsed_succ]
          linarith
        · rw [elapsed_succ]
          linarith
        · rw [arrivals, show pos + 1 + n + 1 = pos + (n + 1) + 1 by omega]
      · have hdone : r' = ([], pos + 1) := by
          cases fuel with
          | zero => cases hnext
          | succ fuel =>
            rw [phase_of_not_lt draws hin] at hnext
            exact (Option.some.inj hnext).symm
        rw [if_neg hin, hdone]
        refine ⟨0, ⟨?_, ?_⟩, rfl⟩
        · rw [Renewal.elapsed_zero]
          linarith
        · rw [elapsed_succ, Renewal.elapsed_zero]
          linarith

theorem phase_of_takes {draws : Nat → ℚ} (hpos : ∀ i, 0 < draws i) (onEnd : ℚ) : ∀ (n pos : Nat) (t : ℚ),
    Takes draws (onEnd - t) pos n → ∀ fuel, n + 2 ≤ fuel →
      phase draws onEnd fuel pos t = some (arrivals draws t pos n, pos + n + 1) := by
  intro n
  induction n with
  | zero =>
    rintro pos t ⟨hlt, hle⟩ fuel hfuel
    obtain ⟨fuel, rfl⟩ := Nat.exists_eq_add_of_le' hfuel
    rw [Renewal.elapsed_zero] at hlt
    rw [elapsed_succ, Renewal.elapsed_zero] at hle
    have hin : t < onEnd := by linarith
    have hout : ¬ (t + draws pos < onEnd) := by linarith
    rw [show fuel + (0 + 2) = (fuel + 1) + 1 from rfl, phase, if_pos hin]
    simp only [phase_of_not_lt draws hout, if_neg hout, Nat.add_zero]
    rfl
  | succ n ih =>
    rintro pos t ⟨hlt, hle⟩ fuel hfuel
    obtain ⟨fuel, rfl⟩ := Nat.exists_eq_add_of_le' hfuel
    rw [elapsed_succ] at hlt hle
    have hnonneg := elapsed_nonneg hpos (pos + 1) n
    have hdraw := hpos pos
    have hin : t < onEnd := by linarith
    have hnext : t + draws pos < onEnd := by linarith
    have hrest := ih (pos + 1) (t + draws pos) ⟨by linarith, by linarith⟩ (fuel + n + 2) (by omega)
    rw [show fuel + (n + 1 + 2) = (fuel + n + 2) + 1 by omega, phase, if_pos hin]
    simp only [hrest, if_pos hnext]
    rw [arrivals, show pos + 1 + n + 1 = pos + (n + 1) + 1 by omega]

/-! ## The windows of a duration -/

/-- How long the ON phase of a cycle is, within the duration. -/
def onLength (p : OnOffArrival) (durationS : ℚ) (cycleIdx : Nat) : ℚ := min p.onDur (durationS - cycleIdx * p.cycle)

def onLengths (p : OnOffArrival) (durationS : ℚ) : List ℚ :=
  (List.range ⌈durationS / p.cycle⌉₊).map (p.onLength durationS)

theorem onEnd_sub (p : OnOffArrival) (durationS : ℚ) (cycleIdx : Nat) :
    p.onEnd durationS (cycleIdx * p.cycle) - cycleIdx * p.cycle = p.onLength durationS cycleIdx := by
  unfold onEnd onLength
  split
  · rename_i h
    rw [min_eq_right (by linarith)]
  · rename_i h
    rw [min_eq_left (by linarith)]
    ring

theorem onLength_pos (p : OnOffArrival) {durationS : ℚ} {cycleIdx : Nat} (h : cycleIdx * p.cycle < durationS) :
    0 < p.onLength durationS cycleIdx :=
  lt_min p.onPos (by linarith)

theorem lt_ceil_iff (p : OnOffArrival) (durationS : ℚ) (cycleIdx : Nat) :
    cycleIdx < ⌈durationS / p.cycle⌉₊ ↔ cycleIdx * p.cycle < durationS := by
  rw [Nat.lt_ceil, lt_div_iff₀ p.cycle_pos]

theorem ceil_le_nCycles (p : OnOffArrival) (durationS : ℚ) : ⌈durationS / p.cycle⌉₊ ≤ p.nCycles durationS := by
  rw [nCycles, Int.floor_toNat]
  exact Nat.ceil_le_floor_add_one _

/-- The phases from a cycle on. -/
def onLengthsFrom (p : OnOffArrival) (durationS : ℚ) (cycleIdx : Nat) : List ℚ :=
  (List.range' cycleIdx (⌈durationS / p.cycle⌉₊ - cycleIdx)).map (p.onLength durationS)

theorem onLengthsFrom_zero (p : OnOffArrival) (durationS : ℚ) : p.onLengthsFrom durationS 0 = p.onLengths durationS := by
  rw [onLengthsFrom, onLengths, Nat.sub_zero, List.range_eq_range']

theorem onLengthsFrom_of_lt (p : OnOffArrival) {durationS : ℚ} {cycleIdx : Nat} (h : cycleIdx * p.cycle < durationS) :
    p.onLengthsFrom durationS cycleIdx = p.onLength durationS cycleIdx :: p.onLengthsFrom durationS (cycleIdx + 1) := by
  have hlt := (p.lt_ceil_iff durationS cycleIdx).2 h
  obtain ⟨k, hk⟩ := Nat.exists_eq_add_of_lt hlt
  rw [onLengthsFrom, onLengthsFrom, hk, show cycleIdx + k + 1 - cycleIdx = k + 1 by omega,
    show cycleIdx + k + 1 - (cycleIdx + 1) = k by omega, List.range'_succ, List.map_cons]

theorem onLengthsFrom_of_not_lt (p : OnOffArrival) {durationS : ℚ} {cycleIdx : Nat}
    (h : ¬ cycleIdx * p.cycle < durationS) : p.onLengthsFrom durationS cycleIdx = [] := by
  have hle : ⌈durationS / p.cycle⌉₊ ≤ cycleIdx := not_lt.1 (fun hlt => h ((p.lt_ceil_iff durationS cycleIdx).1 hlt))
  rw [onLengthsFrom, Nat.sub_eq_zero_of_le hle]
  rfl

theorem succ_mul_cycle (p : OnOffArrival) (cycleIdx : Nat) :
    ((cycleIdx + 1 : Nat) : ℚ) * p.cycle = cycleIdx * p.cycle + p.cycle := by
  push_cast
  ring

/-- The arrivals of the windows from a cycle on, so many of each; the first window opens with draw `pos`. -/
def windowsFrom (p : OnOffArrival) (draws : Nat → ℚ) : Nat → Nat → List Nat → List ℚ
  | _, _, []                   => []
  | cycleIdx, pos, n :: counts =>
    arrivals draws (cycleIdx * p.cycle) pos n ++ p.windowsFrom draws (cycleIdx + 1) (pos + n + 1) counts

theorem length_windowsFrom (p : OnOffArrival) (draws : Nat → ℚ) : ∀ (counts : List Nat) (cycleIdx pos : Nat),
    (p.windowsFrom draws cycleIdx pos counts).length = counts.sum
  | [], _, _ => rfl
  | n :: counts, cycleIdx, pos => by simp [windowsFrom, length_windowsFrom p draws counts]

theorem cycles_fills (p : OnOffArrival) (draws : Nat → ℚ) (durationS : ℚ) (fuel : Nat) :
    ∀ (allowed cycleIdx pos : Nat) (offs : List ℚ), ⌈durationS / p.cycle⌉₊ ≤ cycleIdx + allowed →
      p.cycles draws durationS fuel allowed cycleIdx pos (cycleIdx * p.cycle) = some offs →
        ∃ counts, Fills draws (p.onLengthsFrom durationS cycleIdx) pos counts ∧
          offs = p.windowsFrom draws cycleIdx pos counts
  | 0, cycleIdx, pos, offs, hall, h => by
    cases h
    rw [onLengthsFrom, Nat.sub_eq_zero_of_le (Nat.add_zero cycleIdx ▸ hall)]
    exact ⟨[], rfl, rfl⟩
  | allowed + 1, cycleIdx, pos, offs, hall, h => by
    rw [cycles] at h
    split at h
    · rename_i hlt
      simp only at h
      cases hphase : phase draws (p.onEnd durationS (cycleIdx * p.cycle)) fuel pos (cycleIdx * p.cycle) with
      | none =>
        rw [hphase] at h
        cases h
      | some r =>
        have hopen := p.onLength_pos hlt
        rw [← p.onEnd_sub durationS cycleIdx] at hopen
        obtain ⟨n, htakes, rfl⟩ := phase_takes draws _ fuel pos _ r (by linarith) hphase
        simp only [hphase, ← p.succ_mul_cycle] at h
        cases hrest : p.cycles draws durationS fuel allowed (cycleIdx + 1) (pos + n + 1)
            (((cycleIdx + 1 : Nat) : ℚ) * p.cycle) with
        | none =>
          rw [hrest] at h
          cases h
        | some rest =>
          rw [hrest] at h
          cases h
          obtain ⟨counts, hcounts, rfl⟩ := cycles_fills p draws durationS fuel allowed (cycleIdx + 1) _ rest
            (by omega) hrest
          rw [p.onLengthsFrom_of_lt hlt]
          rw [p.onEnd_sub] at htakes
          exact ⟨n :: counts, ⟨n, counts, rfl, htakes, hcounts⟩, rfl⟩
    · rename_i hnot
      cases h
      rw [p.onLengthsFrom_of_not_lt hnot]
      exact ⟨[], rfl, rfl⟩

theorem cycles_of_fills (p : OnOffArrival) {draws : Nat → ℚ} (hpos : ∀ i, 0 < draws i) (durationS : ℚ) :
    ∀ (allowed cycleIdx pos : Nat) (counts : List Nat), ⌈durationS / p.cycle⌉₊ ≤ cycleIdx + allowed →
      Fills draws (p.onLengthsFrom durationS cycleIdx) pos counts →
        ∃ enough, ∀ fuel, enough ≤ fuel →
          p.cycles draws durationS fuel allowed cycleIdx pos (cycleIdx * p.cycle) =
            some (p.windowsFrom draws cycleIdx pos counts)
  | 0, cycleIdx, pos, counts, hall, h => by
    rw [onLengthsFrom, Nat.sub_eq_zero_of_le (Nat.add_zero cycleIdx ▸ hall)] at h
    obtain rfl : counts = [] := h
    exact ⟨0, fun fuel _ => rfl⟩
  | allowed + 1, cycleIdx, pos, counts, hall, h => by
    by_cases hlt : cycleIdx * p.cycle < durationS
    · rw [p.onLengthsFrom_of_lt hlt] at h
      obtain ⟨n, rest, rfl, htakes, hrest⟩ := h
      rw [← p.onEnd_sub] at htakes
      obtain ⟨enough, henough⟩ := cycles_of_fills p hpos durationS allowed (cycleIdx + 1) (pos + n + 1) rest
        (by omega) hrest
      refine ⟨max enough (n + 2), fun fuel hfuel => ?_⟩
      have hphase := phase_of_takes hpos _ n pos _ htakes fuel (le_trans (le_max_right _ _) hfuel)
      have hlater := henough fuel (le_trans (le_max_left _ _) hfuel)
      rw [cycles, if_pos hlt]
      simp only [hphase, ← p.succ_mul_cycle, hlater]
      rfl
    · rw [p.onLengthsFrom_of_not_lt hlt] at h
      obtain rfl : counts = [] := h
      exact ⟨0, fun fuel _ => by rw [cycles, if_neg hlt]; rfl⟩

/-! ## Samples -/

section Sample

variable (p : OnOffArrival) {draws : Nat → ℚ} {durationS : ℚ}

theorem sample_eq_cycles (hdur : 0 < durationS) (fuel : Nat) : p.sample draws fuel durationS =
    p.cycles draws durationS fuel (p.nCycles durationS + 2) 0 0 ((0 : Nat) * p.cycle) := by
  rw [Nat.cast_zero, zero_mul]
  exact if_neg (not_le.2 hdur)

theorem allowed_covers (durationS : ℚ) : ⌈durationS / p.cycle⌉₊ ≤ 0 + (p.nCycles durationS + 2) := by
  have := p.ceil_le_nCycles durationS
  omega

/-- **A sample is the arrivals of the windows.** -/
theorem sample_fills (hdur : 0 < durationS) {fuel : Nat} {offs : List ℚ} (h : p.sample draws fuel durationS = some offs) :
    ∃ counts, Fills draws (p.onLengths durationS) 0 counts ∧ offs = p.windowsFrom draws 0 0 counts := by
  rw [p.sample_eq_cycles hdur] at h
  rw [← p.onLengthsFrom_zero]
  exact p.cycles_fills draws durationS fuel _ 0 0 offs (p.allowed_covers durationS) h

/-- Once every window ends, the process returns. -/
theorem sample_of_fills (hpos : ∀ i, 0 < draws i) (hdur : 0 < durationS) {counts : List Nat}
    (h : Fills draws (p.onLengths durationS) 0 counts) :
    ∃ enough, ∀ fuel, enough ≤ fuel → p.sample draws fuel durationS = some (p.windowsFrom draws 0 0 counts) := by
  rw [← p.onLengthsFrom_zero] at h
  obtain ⟨enough, henough⟩ := p.cycles_of_fills hpos durationS _ 0 0 counts (p.allowed_covers durationS) h
  exact ⟨enough, fun fuel hfuel => (p.sample_eq_cycles hdur fuel).trans (henough fuel hfuel)⟩

/-- **The process returns just the arrivals of its windows**, when they all end. -/
theorem sample_iff (hpos : ∀ i, 0 < draws i) (hdur : 0 < durationS) (offs : List ℚ) :
    (∃ fuel, p.sample draws fuel durationS = some offs) ↔
      ∃ counts, Fills draws (p.onLengths durationS) 0 counts ∧ offs = p.windowsFrom draws 0 0 counts := by
  constructor
  · rintro ⟨fuel, h⟩
    exact p.sample_fills hdur h
  · rintro ⟨counts, hfills, rfl⟩
    obtain ⟨enough, henough⟩ := p.sample_of_fills hpos hdur hfills
    exact ⟨enough, henough enough (le_refl _)⟩

/-- **The ON/OFF process samples as many arrivals as its phases hold.** -/
theorem sample_length_iff (hpos : ∀ i, 0 < draws i) (hdur : 0 < durationS) (n : Nat) :
    (∃ fuel offs, p.sample draws fuel durationS = some offs ∧ offs.length = n) ↔
      ∃ counts, Fills draws (p.onLengths durationS) 0 counts ∧ counts.sum = n := by
  constructor
  · rintro ⟨fuel, offs, h, rfl⟩
    obtain ⟨counts, hfills, rfl⟩ := (p.sample_iff hpos hdur offs).1 ⟨fuel, h⟩
    exact ⟨counts, hfills, (p.length_windowsFrom draws counts 0 0).symm⟩
  · rintro ⟨counts, hfills, rfl⟩
    obtain ⟨fuel, h⟩ := (p.sample_iff hpos hdur _).2 ⟨counts, hfills, rfl⟩
    exact ⟨fuel, _, h, p.length_windowsFrom draws counts 0 0⟩

end Sample

/-! ## Where the arrivals lie -/

theorem onDur_lt_cycle (p : OnOffArrival) : p.onDur < p.cycle := lt_add_of_pos_right _ p.offPos

theorem mul_cycle_le (p : OnOffArrival) {j k : Nat} (h : j ≤ k) : j * p.cycle ≤ k * p.cycle := by
  apply mul_le_mul_of_nonneg_right _ p.cycle_pos.le
  exact_mod_cast h

section Placed

variable (p : OnOffArrival) {draws : Nat → ℚ} {durationS : ℚ}

/-- The windows that are filled, taken apart. -/
theorem fills_cons {cycleIdx pos n : Nat} {counts : List Nat}
    (h : Fills draws (p.onLengthsFrom durationS cycleIdx) pos (n :: counts)) :
    cycleIdx * p.cycle < durationS ∧ Takes draws (p.onLength durationS cycleIdx) pos n ∧
      Fills draws (p.onLengthsFrom durationS (cycleIdx + 1)) (pos + n + 1) counts := by
  by_cases hlt : cycleIdx * p.cycle < durationS
  · rw [p.onLengthsFrom_of_lt hlt] at h
    obtain ⟨n', counts', heq, htakes, hrest⟩ := h
    cases heq
    exact ⟨hlt, htakes, hrest⟩
  · rw [p.onLengthsFrom_of_not_lt hlt] at h
    cases h

theorem fills_nil {cycleIdx pos : Nat} (h : Fills draws (p.onLengthsFrom durationS cycleIdx) pos []) :
    durationS ≤ cycleIdx * p.cycle := by
  by_contra hlt
  rw [p.onLengthsFrom_of_lt (not_le.1 hlt)] at h
  obtain ⟨n, counts, heq, -⟩ := h
  cases heq

variable (hpos : ∀ i, 0 < draws i)

include hpos

theorem mem_window {cycleIdx pos n : Nat} {t : ℚ} (htakes : Takes draws (p.onLength durationS cycleIdx) pos n)
    (ht : t ∈ arrivals draws (cycleIdx * p.cycle) pos n) :
    cycleIdx * p.cycle < t ∧ t < min (cycleIdx * p.cycle + p.onDur) durationS := by
  have hle := Renewal.le_of_mem_arrivals hpos ht
  obtain ⟨hon, hdur⟩ := lt_min_iff.1 htakes.1
  refine ⟨Renewal.lt_of_mem_arrivals hpos ht, lt_min ?_ ?_⟩ <;> linarith

/-- **Every arrival lies in a window.** -/
theorem mem_windowsFrom : ∀ {counts : List Nat} {cycleIdx pos : Nat} {t : ℚ},
    Fills draws (p.onLengthsFrom durationS cycleIdx) pos counts → t ∈ p.windowsFrom draws cycleIdx pos counts →
      ∃ k, cycleIdx ≤ k ∧ k * p.cycle < t ∧ t < min (k * p.cycle + p.onDur) durationS
  | [], _, _, _, _, ht => by cases ht
  | n :: counts, cycleIdx, pos, t, h, ht => by
    obtain ⟨-, htakes, hrest⟩ := p.fills_cons h
    rcases List.mem_append.1 ht with ht | ht
    · exact ⟨cycleIdx, le_refl _, p.mem_window hpos htakes ht⟩
    · obtain ⟨k, hk, hbounds⟩ := mem_windowsFrom hrest ht
      exact ⟨k, Nat.le_of_succ_le hk, hbounds⟩

/-- The arrivals of the later windows come after this cycle. -/
theorem cycle_lt_of_later {counts : List Nat} {cycleIdx pos : Nat} {t : ℚ}
    (h : Fills draws (p.onLengthsFrom durationS (cycleIdx + 1)) pos counts)
    (ht : t ∈ p.windowsFrom draws (cycleIdx + 1) pos counts) : cycleIdx * p.cycle + p.cycle < t := by
  obtain ⟨k, hk, hlt, -⟩ := p.mem_windowsFrom hpos h ht
  rw [← p.succ_mul_cycle]
  exact (p.mul_cycle_le hk).trans_lt hlt

theorem windowsFrom_increasing : ∀ (counts : List Nat) (cycleIdx pos : Nat),
    Fills draws (p.onLengthsFrom durationS cycleIdx) pos counts →
      (p.windowsFrom draws cycleIdx pos counts).Pairwise (· < ·)
  | [], _, _, _ => List.Pairwise.nil
  | n :: counts, cycleIdx, pos, h => by
    obtain ⟨-, htakes, hrest⟩ := p.fills_cons h
    apply List.pairwise_append.2
    refine ⟨Renewal.arrivals_increasing hpos n pos _, windowsFrom_increasing counts _ _ hrest, fun t ht u hu => ?_⟩
    have hin := (lt_min_iff.1 (p.mem_window hpos htakes ht).2).1
    have hlater := p.cycle_lt_of_later hpos hrest hu
    have := p.onDur_lt_cycle
    linarith

/-- The arrivals of one cycle. -/
def ofCycle (offs : List ℚ) (cycleIdx : Nat) : List ℚ :=
  offs.filter (fun t => decide (cycleIdx * p.cycle < t ∧ t < cycleIdx * p.cycle + p.cycle))

/-- **The arrivals of a cycle are those its window takes.** -/
theorem ofCycle_windowsFrom : ∀ (counts : List Nat) {cycleIdx pos k : Nat},
    Fills draws (p.onLengthsFrom durationS cycleIdx) pos counts → cycleIdx ≤ k → k * p.cycle < durationS →
      ∃ q n, Takes draws (p.onLength durationS k) q n ∧
        p.ofCycle (p.windowsFrom draws cycleIdx pos counts) k = arrivals draws (k * p.cycle) q n
  | [], cycleIdx, pos, k, h, hk, hlt => by
    have := p.fills_nil h
    have := p.mul_cycle_le hk
    exfalso
    linarith
  | n :: counts, cycleIdx, pos, k, h, hk, hlt => by
    obtain ⟨-, htakes, hrest⟩ := p.fills_cons h
    have hcycle := p.onDur_lt_cycle
    unfold ofCycle windowsFrom
    rw [List.filter_append]
    rcases hk.eq_or_lt with rfl | hk
    · refine ⟨pos, n, htakes, ?_⟩
      have hown : (arrivals draws (cycleIdx * p.cycle) pos n).filter
          (fun t => decide (cycleIdx * p.cycle < t ∧ t < cycleIdx * p.cycle + p.cycle)) =
            arrivals draws (cycleIdx * p.cycle) pos n := by
        apply List.filter_eq_self.2
        intro t ht
        obtain ⟨hlo, hhi⟩ := p.mem_window hpos htakes ht
        have := (lt_min_iff.1 hhi).1
        exact decide_eq_true ⟨hlo, by linarith⟩
      have hlater : (p.windowsFrom draws (cycleIdx + 1) (pos + n + 1) counts).filter
          (fun t => decide (cycleIdx * p.cycle < t ∧ t < cycleIdx * p.cycle + p.cycle)) = [] := by
        apply List.filter_eq_nil_iff.2
        intro t ht
        have := p.cycle_lt_of_later hpos hrest ht
        simp [this.le]
      rw [hown, hlater, List.append_nil]
    · obtain ⟨q, m, htakes', heq⟩ := ofCycle_windowsFrom counts hrest hk hlt
      have hearlier : (arrivals draws (cycleIdx * p.cycle) pos n).filter
          (fun t => decide (k * p.cycle < t ∧ t < k * p.cycle + p.cycle)) = [] := by
        apply List.filter_eq_nil_iff.2
        intro t ht
        have hin := (lt_min_iff.1 (p.mem_window hpos htakes ht).2).1
        have hstart := p.mul_cycle_le (Nat.succ_le_of_lt hk)
        rw [Nat.succ_eq_add_one, p.succ_mul_cycle] at hstart
        have hle : t ≤ k * p.cycle := by linarith
        simp [hle]
      refine ⟨q, m, htakes', ?_⟩
      rw [hearlier, List.nil_append]
      exact heq

theorem windowsFrom_eq_nil {cycleIdx pos : Nat} {counts : List Nat} {cut : ℚ}
    (h : Fills draws (p.onLengthsFrom durationS cycleIdx) pos counts) (hcut : cut ≤ cycleIdx * p.cycle) :
    (p.windowsFrom draws cycleIdx pos counts).filter (fun t => decide (t < cut)) = [] := by
  apply List.filter_eq_nil_iff.2
  intro t ht
  obtain ⟨k, hk, hlt, -⟩ := p.mem_windowsFrom hpos h ht
  have hle : cut ≤ t := hcut.trans ((p.mul_cycle_le hk).trans hlt.le)
  simp [hle]

end Placed

/-- The safety stop: the loop of `cycles`, answering whether its `break` is taken. -/
def safetyStop (p : OnOffArrival) (draws : Nat → ℚ) (durationS : ℚ) (fuel : Nat) : Nat → Nat → Nat → ℚ → Bool
  | 0, _, _, _                    => true
  | allowed + 1, cycleIdx, pos, t =>
    if t < durationS then
      match phase draws (p.onEnd durationS (cycleIdx * p.cycle)) fuel pos (cycleIdx * p.cycle) with
      | none   => false
      | some r => p.safetyStop draws durationS fuel allowed (cycleIdx + 1) r.2 (cycleIdx * p.cycle + p.cycle)
    else false

/-- A loop that may still make more cycles than there are windows ends by its condition. -/
theorem safetyStop_false (p : OnOffArrival) (draws : Nat → ℚ) (durationS : ℚ) (fuel : Nat) :
    ∀ (allowed cycleIdx pos : Nat), cycleIdx ≤ ⌈durationS / p.cycle⌉₊ → ⌈durationS / p.cycle⌉₊ < cycleIdx + allowed →
      p.safetyStop draws durationS fuel allowed cycleIdx pos (cycleIdx * p.cycle) = false
  | 0, _, _, hle, hlt => absurd hlt (not_lt.2 hle)
  | allowed + 1, cycleIdx, pos, hle, hlt => by
    rw [safetyStop]
    split
    · rename_i hin
      split
      · rfl
      · rw [← p.succ_mul_cycle]
        apply safetyStop_false p draws durationS fuel allowed
        · exact Nat.succ_le_of_lt ((p.lt_ceil_iff durationS cycleIdx).2 hin)
        · omega
    · rfl

theorem sample_stops (p : OnOffArrival) (draws : Nat → ℚ) (durationS : ℚ) (fuel : Nat) :
    p.safetyStop draws durationS fuel (p.nCycles durationS + 2) 0 0 0 = false := by
  have hfalse := p.safetyStop_false draws durationS fuel (p.nCycles durationS + 2) 0 0 (Nat.zero_le _) (by
    have := p.ceil_le_nCycles durationS
    omega)
  rwa [Nat.cast_zero, zero_mul] at hfalse

/-- Arrivals increase, each within an ON window and before the end of the duration, and every window that opens before
the end has all of its arrivals, up to the draw that passes its end. -/
structure WellPlaced (p : OnOffArrival) (draws : Nat → ℚ) (durationS : ℚ) (offs : List ℚ) : Prop where
  increasing : offs.Pairwise (· < ·)
  placed     : ∀ t ∈ offs, ∃ k : Nat, k * p.cycle < t ∧ t < min (k * p.cycle + p.onDur) durationS
  sampled    : ∀ k : Nat, k * p.cycle < durationS →
    ∃ q n, Takes draws (p.onLength durationS k) q n ∧ p.ofCycle offs k = arrivals draws (k * p.cycle) q n

theorem windows_wellPlaced (p : OnOffArrival) {draws : Nat → ℚ} (hpos : ∀ i, 0 < draws i) {durationS : ℚ}
    {counts : List Nat} (h : Fills draws (p.onLengths durationS) 0 counts) :
    p.WellPlaced draws durationS (p.windowsFrom draws 0 0 counts) := by
  rw [← p.onLengthsFrom_zero] at h
  refine ⟨p.windowsFrom_increasing hpos counts 0 0 h, fun t ht => ?_, fun k hk => ?_⟩
  · obtain ⟨k, -, hbounds⟩ := p.mem_windowsFrom hpos h ht
    exact ⟨k, hbounds⟩
  · exact p.ofCycle_windowsFrom hpos counts h (Nat.zero_le k) hk

/-- **The arrivals are well placed and complete**, whenever each ON phase ends; the safety stop is never taken. -/
theorem sample_wellPlaced (p : OnOffArrival) (draws : Nat → ℚ) (hpos : ∀ i, 0 < draws i) (durationS : ℚ)
    (hdur : 0 < durationS) (hends : ∃ counts, Fills draws (p.onLengths durationS) 0 counts) :
    (∃ enough, ∀ fuel, enough ≤ fuel → ∃ offs, p.sample draws fuel durationS = some offs) ∧
      (∀ fuel offs, p.sample draws fuel durationS = some offs → p.WellPlaced draws durationS offs) ∧
      ∀ fuel, p.safetyStop draws durationS fuel (p.nCycles durationS + 2) 0 0 0 = false := by
  refine ⟨?_, fun fuel offs h => ?_, p.sample_stops draws durationS⟩
  · obtain ⟨counts, hfills⟩ := hends
    obtain ⟨enough, henough⟩ := p.sample_of_fills hpos hdur hfills
    exact ⟨enough, fun fuel hfuel => ⟨_, henough fuel hfuel⟩⟩
  · obtain ⟨counts, hfills, rfl⟩ := p.sample_fills hdur h
    exact p.windows_wellPlaced hpos hfills

/-- One second ON, three seconds OFF. -/
def shortBursts : OnOffArrival where
  onDur  := 1
  offDur := 3
  onPos  := zero_lt_one
  offPos := zero_lt_three

/-- Half a second between arrivals: the window cut short at the end of the duration has none. -/
theorem shortBursts_fills : Fills (fun _ => 1 / 2) (shortBursts.onLengths (9 / 2)) 0 [1, 0] := by
  have hlengths : shortBursts.onLengths (9 / 2) = [1, 1 / 2] := by decide +kernel
  rw [hlengths]
  refine ⟨1, [0], rfl, ?_, 0, [], rfl, ?_, rfl⟩ <;> norm_num [Takes, elapsed]

theorem nine_halves_pos : (0 : ℚ) < 9 / 2 := by norm_num

theorem shortBursts_wellPlaced :
    (∃ enough, ∀ fuel, enough ≤ fuel → ∃ offs, shortBursts.sample (fun _ => 1 / 2) fuel (9 / 2) = some offs) ∧
      (∀ fuel offs, shortBursts.sample (fun _ => 1 / 2) fuel (9 / 2) = some offs →
        shortBursts.WellPlaced (fun _ => 1 / 2) (9 / 2) offs) ∧
      ∀ fuel, shortBursts.safetyStop (fun _ => 1 / 2) (9 / 2) fuel (shortBursts.nCycles (9 / 2) + 2) 0 0 0 = false :=
  sample_wellPlaced shortBursts (fun _ => 1 / 2) (fun _ => one_half_pos) (9 / 2) nine_halves_pos ⟨_, shortBursts_fills⟩

/-! ## Shorter runs -/

theorem onLength_mono (p : OnOffArrival) {d₁ d₂ : ℚ} (hle : d₁ ≤ d₂) (cycleIdx : Nat) :
    p.onLength d₁ cycleIdx ≤ p.onLength d₂ cycleIdx :=
  min_le_min_left p.onDur (sub_le_sub_right hle _)

/-- **The windows of a shorter duration hold the first arrivals of the longer one's.** -/
theorem windows_truncate (p : OnOffArrival) {draws : Nat → ℚ} (hpos : ∀ i, 0 < draws i) {d₁ d₂ : ℚ} (hle : d₁ ≤ d₂) :
    ∀ (counts : List Nat) (cycleIdx pos : Nat), Fills draws (p.onLengthsFrom d₂ cycleIdx) pos counts →
      ∃ counts', Fills draws (p.onLengthsFrom d₁ cycleIdx) pos counts' ∧
        p.windowsFrom draws cycleIdx pos counts' =
          (p.windowsFrom draws cycleIdx pos counts).filter (fun t => decide (t < d₁))
  | [], cycleIdx, pos, h => by
    rw [p.onLengthsFrom_of_not_lt (not_lt.2 (hle.trans (p.fills_nil h)))]
    exact ⟨[], rfl, rfl⟩
  | n :: counts, cycleIdx, pos, h => by
    by_cases hopen : cycleIdx * p.cycle < d₁
    · obtain ⟨-, htakes, hrest⟩ := p.fills_cons h
      rw [p.onLengthsFrom_of_lt hopen]
      have hnext := p.succ_mul_cycle cycleIdx
      have hon := p.onDur_lt_cycle
      rw [windowsFrom, List.filter_append]
      by_cases hcut : d₁ < cycleIdx * p.cycle + p.onDur
      · -- the shorter duration ends inside this window
        have hlength : p.onLength d₁ cycleIdx = d₁ - cycleIdx * p.cycle := min_eq_right (by linarith)
        obtain ⟨m, hmn, hm⟩ := Renewal.exists_takes (p.onLength_pos hopen)
          ((p.onLength_mono hle cycleIdx).trans htakes.2)
        obtain ⟨htaken, hpassed⟩ := hm
        rw [hlength] at htaken hpassed
        have hown : (arrivals draws (cycleIdx * p.cycle) pos n).filter (fun t => decide (t < d₁)) =
            arrivals draws (cycleIdx * p.cycle) pos m :=
          Renewal.filter_arrivals hpos hmn (by linarith) (by linarith)
        have hclosed : ¬ ((cycleIdx + 1 : Nat) : ℚ) * p.cycle < d₁ := not_lt.2 (by linarith)
        refine ⟨[m], ⟨m, [], rfl, hlength ▸ ⟨htaken, hpassed⟩, ?_⟩, ?_⟩
        · rw [p.onLengthsFrom_of_not_lt hclosed]
          rfl
        · rw [hown, p.windowsFrom_eq_nil hpos hrest (not_lt.1 hclosed)]
          rfl
      · -- this window is whole in both
        have hwhole : p.onLength d₁ cycleIdx = p.onLength d₂ cycleIdx := by
          rw [onLength, onLength, min_eq_left (by linarith), min_eq_left (by linarith)]
        have hown : (arrivals draws (cycleIdx * p.cycle) pos n).filter (fun t => decide (t < d₁)) =
            arrivals draws (cycleIdx * p.cycle) pos n := by
          apply List.filter_eq_self.2
          intro t ht
          have := (lt_min_iff.1 (p.mem_window hpos htakes ht).2).1
          exact decide_eq_true (by linarith)
        obtain ⟨counts', hfills, heq⟩ := windows_truncate p hpos hle counts (cycleIdx + 1) (pos + n + 1) hrest
        refine ⟨n :: counts', ⟨n, counts', rfl, hwhole ▸ htakes, hfills⟩, ?_⟩
        rw [windowsFrom, hown, heq]
    · rw [p.onLengthsFrom_of_not_lt hopen, p.windowsFrom_eq_nil hpos h (not_lt.1 hopen)]
      exact ⟨[], rfl, rfl⟩

/-- **A shorter run returns what the longer one returns before its end.** -/
theorem sample_truncates (p : OnOffArrival) (draws : Nat → ℚ) (hpos : ∀ i, 0 < draws i) (d₁ d₂ : ℚ) (hdur : 0 < d₁)
    (hle : d₁ ≤ d₂) (fuel : Nat) (offs : List ℚ) (h : p.sample draws fuel d₂ = some offs) :
    (∃ enough, ∀ fuel', enough ≤ fuel' → p.sample draws fuel' d₁ = some (offs.filter (fun t => decide (t < d₁)))) ∧
      ∀ fuel' offs', p.sample draws fuel' d₁ = some offs' → offs' = offs.filter (fun t => decide (t < d₁)) := by
  obtain ⟨counts, hfills, rfl⟩ := p.sample_fills (hdur.trans_le hle) h
  rw [← p.onLengthsFrom_zero] at hfills
  obtain ⟨counts₁, hfills₁, heq⟩ := p.windows_truncate hpos hle counts 0 0 hfills
  rw [p.onLengthsFrom_zero] at hfills₁
  rw [← heq]
  refine ⟨p.sample_of_fills hpos hdur hfills₁, fun fuel' offs' h' => ?_⟩
  obtain ⟨counts₂, hfills₂, rfl⟩ := p.sample_fills hdur h'
  rw [Renewal.fills_unique hpos hfills₂ hfills₁]

theorem one_le_nine_halves : (1 : ℚ) ≤ 9 / 2 := by norm_num

theorem shortBursts_truncates : ∃ fuel offs, shortBursts.sample (fun _ => 1 / 2) fuel (9 / 2) = some offs ∧
    ((∃ enough, ∀ fuel', enough ≤ fuel' →
      shortBursts.sample (fun _ => 1 / 2) fuel' 1 = some (offs.filter (fun t => decide (t < 1)))) ∧
    ∀ fuel' offs', shortBursts.sample (fun _ => 1 / 2) fuel' 1 = some offs' →
      offs' = offs.filter (fun t => decide (t < 1))) := by
  obtain ⟨enough, henough⟩ := shortBursts.sample_of_fills (fun _ => one_half_pos) nine_halves_pos shortBursts_fills
  have h := henough enough (le_refl _)
  exact ⟨enough, _, h, sample_truncates shortBursts (fun _ => 1 / 2) (fun _ => one_half_pos) 1 (9 / 2) zero_lt_one
    one_le_nine_halves enough _ h⟩

end OnOffArrival
end GoodputLab
