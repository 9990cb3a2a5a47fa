import GoodputLab.AgenticPrompts
import GoodputLab.ArrivalWindows
import GoodputLab.ChatBudget
/-!
# ArrivalBudget — whether a cell fires its whole budget

The Poisson process samples one arrival for each request.  The ON/OFF process samples a duration and takes what its ON
phases hold (`OnOffArrival.sample_length_iff`), whatever the number of requests.  So a chat or a rag cell always fires its
budget, and an agentic cell exactly when its phases hold that many arrivals (`fires_budget_iff`).
-/
namespace GoodputLab

open Renewal (elapsed Takes Fills)

/-! ## The trace of a cell -/

/-- What the trace of a cell has of the cell: a request for each of its budget, its rate, its duration and its seed. -/
structure OfCell (spec : CellSpec) (t : Trace) : Prop where
  requests : t.requests.length = spec.nWarmup + spec.nMeasure
  duration : t.durationS = cellDurationS spec
  seed     : t.arrival.seed = spec.seed
  rate     : t.arrival.ratePerSec = spec.rateRps
  poisson  : spec.mix ≠ .agentic → t.arrival.process = .poisson
  onOff    : spec.mix = .agentic →
    t.arrival.process = .onOff ∧ t.arrival.onDurationS = some (3 / 2) ∧ t.arrival.offDurationS = some (3 / 10)

/-- **A built trace is the cell's.** -/
theorem buildTrace_ofCell {source : Int → Nat → Nat → Nat} {spec : CellSpec} {t : Trace}
    (h : buildTrace source spec = some t) : OfCell spec t := by
  unfold buildTrace at h
  obtain ⟨⟨t', d'⟩, hgen, rfl⟩ := Option.map_eq_some_iff.1 h
  cases hmix : spec.mix with
  | chat =>
    rw [hmix] at hgen
    obtain ⟨requests, d₁, hreq, hgen⟩ := Gen.bind_inv hgen
    obtain ⟨-, rfl, hdur, hproc, hrate, hseed, -⟩ := finishTrace_eq hgen
    have hlen := (returns_requestsFrom (fun _ => Gen.returns_any _) _ _ _ _ _ hreq).1
    exact ⟨hlen, hdur, hseed, hrate, fun _ => hproc,
      fun he => absurd (hmix.symm.trans he) (by decide)⟩
  | rag =>
    rw [hmix] at hgen
    obtain ⟨corpus, d₀, -, hgen⟩ := Gen.bind_inv hgen
    obtain ⟨requests, d₁, hreq, hgen⟩ := Gen.bind_inv hgen
    obtain ⟨-, rfl, hdur, hproc, hrate, hseed, -⟩ := finishTrace_eq hgen
    have hlen := (returns_requestsFrom (fun _ => Gen.returns_any _) _ _ _ _ _ hreq).1
    exact ⟨hlen, hdur, hseed, hrate, fun _ => hproc,
      fun he => absurd (hmix.symm.trans he) (by decide)⟩
  | agentic =>
    rw [hmix] at hgen
    obtain ⟨requests, d₁, hreq, hgen⟩ := Gen.bind_inv hgen
    obtain ⟨-, rfl, hdur, hproc, hrate, hseed, hon, hoff⟩ := finishTrace_eq hgen
    have hlen := (returns_agenticRequests _ _ _ _ _ _ _ hreq).1
    exact ⟨hlen, hdur, hseed, hrate, fun hne => absurd hmix hne, fun _ => ⟨hproc, hon, hoff⟩⟩

/-! ## The budget -/

/-- The bursts of an agentic cell: a second and a half on, three tenths off. -/
def agenticBursts : OnOffArrival where
  onDur := 3 / 2
  offDur := 3 / 10
  onPos := by norm_num
  offPos := by norm_num

theorem onOff_eq {arrival : ArrivalConfig} (h : arrival.process = .onOff) {p : OnOffArrival}
    (hon : arrival.onDurationS = some p.onDur) (hoff : arrival.offDurationS = some p.offDur) : arrival.onOff h = p := by
  have honDur : (arrival.onOff h).onDur = p.onDur := Option.get_of_eq_some _ hon
  have hoffDur : (arrival.onOff h).offDur = p.offDur := Option.get_of_eq_some _ hoff
  cases p
  cases hq : arrival.onOff h
  rw [hq] at honDur hoffDur
  simp only at honDur hoffDur
  subst honDur hoffDur
  rfl

theorem sampleOffsets_agentic {spec : CellSpec} {t : Trace} (hcell : OfCell spec t) (hmix : spec.mix = .agentic)
    (draws : Nat → ℚ) (fuel : Nat) :
    OpenLoopScheduler.sampleOffsets draws fuel t = agenticBursts.sample draws fuel (cellDurationS spec) := by
  obtain ⟨hproc, hon, hoff⟩ := hcell.onOff hmix
  rw [OpenLoopScheduler.sampleOffsets_onOff hproc, onOff_eq (p := agenticBursts) hproc hon hoff, hcell.duration]

/-- The scheduler of a trace, once its sampling ends, yields this many requests. -/
def Yields (draws : Nat → ℚ) (t : Trace) (n : Nat) : Prop :=
  ∃ fuel s, OpenLoopScheduler.make? draws fuel t = some s ∧ ∀ t0Ns, (s.items t0Ns).length = n

theorem yields_iff (draws : Nat → ℚ) (t : Trace) (n : Nat) :
    Yields draws t n ↔
      ∃ fuel offsets, OpenLoopScheduler.sampleOffsets draws fuel t = some offsets ∧
        min offsets.length t.requests.length = n := by
  constructor
  · rintro ⟨fuel, s, hs, hlen⟩
    obtain ⟨offsets, hoff, rfl⟩ := Option.map_eq_some_iff.1 hs
    exact ⟨fuel, offsets, hoff, (OpenLoopScheduler.length_items _ 0).symm.trans (hlen 0)⟩
  · rintro ⟨fuel, offsets, hoff, hlen⟩
    refine ⟨fuel, ⟨t, offsets⟩, by rw [OpenLoopScheduler.make?, hoff]; rfl, fun t0Ns => ?_⟩
    rw [OpenLoopScheduler.length_items]
    exact hlen

/-- **An agentic cell yields what its bursts hold**, up to its budget. -/
theorem agentic_yields_iff {spec : CellSpec} {t : Trace} (hcell : OfCell spec t) (hmix : spec.mix = .agentic)
    {draws : Nat → ℚ} (hpos : ∀ i, 0 < draws i) (n : Nat) :
    Yields draws t n ↔ ∃ counts, Fills draws (agenticBursts.onLengths (cellDurationS spec)) 0 counts ∧
      min counts.sum (spec.nWarmup + spec.nMeasure) = n := by
  have hdur : 0 < cellDurationS spec := hcell.duration ▸ t.durationPos
  rw [yields_iff, hcell.requests]
  simp only [sampleOffsets_agentic hcell hmix]
  constructor
  · rintro ⟨fuel, offsets, hoffsets, hmin⟩
    obtain ⟨counts, hfills, hsum⟩ := (agenticBursts.sample_length_iff hpos hdur _).1 ⟨fuel, offsets, hoffsets, rfl⟩
    exact ⟨counts, hfills, hsum ▸ hmin⟩
  · rintro ⟨counts, hfills, hmin⟩
    obtain ⟨fuel, offsets, hoffsets, hlen⟩ := (agenticBursts.sample_length_iff hpos hdur _).2 ⟨counts, hfills, rfl⟩
    exact ⟨fuel, offsets, hoffsets, hlen ▸ hmin⟩

/-- **A cell fires its budget exactly when it is not agentic, or its bursts hold that many arrivals.** -/
theorem fires_budget_iff (source : Int → Nat → Nat → Nat) (spec : CellSpec) (t : Trace)
    (ht : buildTrace source spec = some t) (draws : Nat → ℚ) (hpos : ∀ i, 0 < draws i) :
    Yields draws t (spec.nWarmup + spec.nMeasure) ↔
      (spec.mix = .agentic → ∃ counts, Fills draws (agenticBursts.onLengths (cellDurationS spec)) 0 counts ∧
        spec.nWarmup + spec.nMeasure ≤ counts.sum) := by
  have hcell := buildTrace_ofCell ht
  by_cases hmix : spec.mix = .agentic
  · rw [agentic_yields_iff hcell hmix hpos]
    simp only [min_eq_right_iff, hmix, forall_const]
  · rw [yields_iff, hcell.requests]
    refine iff_of_true ⟨0, _, OpenLoopScheduler.sampleOffsets_poisson (hcell.poisson hmix) draws 0, ?_⟩ (fun h => absurd h hmix)
    rw [PoissonArrival.sample, PoissonArrival.length_sampleFrom, Trace.nRequests, hcell.requests, min_self]

/-! ## A burst too short -/

theorem two_measured : 1 ≤ 2 := by decide

/-- The agentic cell of two requests, one a second. -/
def twoStepCell : CellSpec where
  topology := .colocated
  model := .qwen3_1_7b
  rateRps := 1
  mix := .agentic
  nWarmup := 0
  nMeasure := 2
  seed := deriveSeed .colocated .qwen3_1_7b 1 .agentic
  rateBounds := oneRps_bounds
  measureGe := two_measured

theorem twoStepCell_built : ∃ t, buildTrace (fun _ _ _ => 0) twoStepCell = some t :=
  Option.isSome_iff_exists.1 (by decide +kernel)

theorem quick_draws_fire :
    ∃ t, buildTrace (fun _ _ _ => 0) twoStepCell = some t ∧
      (Yields (fun _ => 1 / 2) t (twoStepCell.nWarmup + twoStepCell.nMeasure) ↔
        (twoStepCell.mix = .agentic → ∃ counts,
          Fills (fun _ => 1 / 2) (agenticBursts.onLengths (cellDurationS twoStepCell)) 0 counts ∧
            twoStepCell.nWarmup + twoStepCell.nMeasure ≤ counts.sum)) := by
  obtain ⟨t, ht⟩ := twoStepCell_built
  exact ⟨t, ht, fires_budget_iff (fun _ _ _ => 0) twoStepCell t ht (fun _ => 1 / 2) (fun _ => one_half_pos)⟩

theorem elapsed_one (p n : Nat) : elapsed (fun _ => (1 : ℚ)) p n = n := by
  rw [elapsed, Finset.sum_const, Finset.card_range, nsmul_one]

/-- **Draws of the mean fire half the budget**: the first burst holds one arrival, and the second, cut short by the end
of the duration, holds none. -/
theorem mean_draws_fire_half :
    ∃ t, buildTrace (fun _ _ _ => 0) twoStepCell = some t ∧ t.requests.length = 2 ∧ Yields (fun _ => 1) t 1 ∧
      ¬ Yields (fun _ => 1) t (twoStepCell.nWarmup + twoStepCell.nMeasure) := by
  obtain ⟨t, ht⟩ := twoStepCell_built
  have hcell := buildTrace_ofCell ht
  have hlengths : agenticBursts.onLengths (cellDurationS twoStepCell) = [3 / 2, 1 / 5] := by decide +kernel
  refine ⟨t, ht, hcell.requests, ?_, ?_⟩
  · rw [agentic_yields_iff hcell rfl (fun _ => zero_lt_one), hlengths]
    refine ⟨[1, 0], ⟨1, [0], rfl, ?_, 0, [], rfl, ?_, rfl⟩, rfl⟩
    · simp only [Takes, elapsed_one]
      norm_num
    · simp only [Takes, elapsed_one]
      norm_num
  · rw [agentic_yields_iff hcell rfl (fun _ => zero_lt_one), hlengths]
    rintro ⟨counts, ⟨n, rest, rfl, hfirst, k, rest', rfl, hsecond, rfl⟩, hmin⟩
    have hn : (n : ℚ) < 2 := by
      have := hfirst.1
      rw [elapsed_one] at this
      linarith
    have hk : (k : ℚ) < 1 := by
      have := hsecond.1
      rw [elapsed_one] at this
      linarith
    have hn' : n < 2 := by exact_mod_cast hn
    have hk' : k < 1 := by exact_mod_cast hk
    have hle : 2 ≤ [n, k].sum := min_eq_right_iff.1 hmin
    simp only [List.sum_cons, List.sum_nil] at hle
    omega

end GoodputLab
