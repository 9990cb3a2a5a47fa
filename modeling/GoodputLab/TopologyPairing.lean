import GoodputLab.ArrivalBudget
import GoodputLab.Base.RollingHash
import GoodputLab.CellReuse
/-!
# TopologyPairing — whether topologies are compared on one workload

The default seed of a cell hashes its topology with its model, rate and mix, and no two topologies have one seed at a
point (`deriveSeed_topology`).  So two cells of a matrix at one point have the same workload under every random generator
only when their topologies are the same (`same_workload_iff`).
-/
namespace GoodputLab
namespace BenchMatrix

open Renewal (Takes Fills)

/-! ## Seeds -/

theorem deriveSeed_eq_hash (t : Topology) (m : Model) (r : Nat) (x : Mix) :
    deriveSeed t m r x =
      RollingHash.hashFrom (2 ^ 32) 131 (RollingHash.hashFrom (2 ^ 32) 131 0 (t.value.map Char.toNat))
      ((['|'] ++ m.value ++ ['|'] ++ Text.ofNat r ++ ['|'] ++ x.value).map Char.toNat) := by
  have hstep : ∀ (h : Nat) (ch : Char), (h * 131 + ch.toNat) &&& 0xFFFFFFFF = RollingHash.step (2 ^ 32) 131 h ch.toNat :=
    fun h ch => Nat.and_two_pow_sub_one_eq_mod _ 32
  unfold deriveSeed
  simp only [hstep]
  rw [← RollingHash.hashFrom_append, ← List.map_append, RollingHash.hashFrom, List.foldl_map]
  simp only [List.append_assoc]

/-- **At one point no two topologies have one seed.** -/
theorem deriveSeed_topology {t t' : Topology} {m : Model} {r : Nat} {x : Mix}
    (h : deriveSeed t m r x = deriveSeed t' m r x) : t = t' := by
  have hpow : 0 < 2 ^ 32 := by decide
  rw [deriveSeed_eq_hash, deriveSeed_eq_hash] at h
  have hprefix := RollingHash.hashFrom_injOn hpow (by decide) _ _ _ (RollingHash.hashFrom_lt hpow _ 0 hpow)
    (RollingHash.hashFrom_lt hpow _ 0 hpow) h
  clear h
  revert hprefix
  cases t <;> cases t' <;> decide

/-! ## Workloads -/

/-- What a cell sends and when: the requests of its trace and the arrival offsets of its schedule. -/
def workload (source : Int → Nat → Nat → Nat) (exps : Exponentials) (fuel : Nat) (spec : CellSpec) :
    Option (List RequestSpec × List ℚ) := do
  let t ← buildTrace source spec
  let offsets ← OpenLoopScheduler.sampleOffsets (exps t.arrival.seed t.arrival.ratePerSec) fuel t
  pure (t.requests, offsets)

theorem workload_eq_some {source : Int → Nat → Nat → Nat} {exps : Exponentials} {fuel : Nat} {spec : CellSpec}
    {w : List RequestSpec × List ℚ} (h : workload source exps fuel spec = some w) :
    ∃ t, buildTrace source spec = some t ∧ t.requests = w.1 ∧
      OpenLoopScheduler.sampleOffsets (exps t.arrival.seed t.arrival.ratePerSec) fuel t = some w.2 := by
  obtain ⟨t, ht, h⟩ := Option.bind_eq_some_iff.1 h
  obtain ⟨offsets, hoff, h⟩ := Option.bind_eq_some_iff.1 h
  cases h
  exact ⟨t, ht, rfl, hoff⟩

/-! ## Two generators that schedule nothing alike -/

/-- Every draw is longer than a burst. -/
def slow (_ : Nat) : ℚ := 2

/-- The first draw is within any burst. -/
def quick (n : Nat) : ℚ := if n = 0 then 1 / 4 else 2

theorem slow_pos (n : Nat) : 0 < slow n := two_pos

theorem quick_pos (n : Nat) : 0 < quick n := by
  unfold quick
  split
  · norm_num
  · norm_num

theorem slow_fills : ∀ (lengths : List ℚ) (p : Nat), (∀ l ∈ lengths, 0 < l ∧ l ≤ 2) →
    Fills slow lengths p (List.replicate lengths.length 0)
  | [], _, _ => rfl
  | l :: lengths, p, h => by
    obtain ⟨hpos, hle⟩ := h l List.mem_cons_self
    refine ⟨0, List.replicate lengths.length 0, rfl, ⟨hpos, ?_⟩,
      slow_fills lengths (p + 0 + 1) (fun x hx => h x (List.mem_cons_of_mem _ hx))⟩
    rw [Renewal.elapsed_succ, Renewal.elapsed_zero, add_zero]
    exact hle

theorem onLengths_le {durationS : ℚ} : ∀ l ∈ agenticBursts.onLengths durationS, 0 < l ∧ l ≤ 2 := by
  intro l hl
  obtain ⟨cycleIdx, hidx, rfl⟩ := List.mem_map.1 hl
  have hlt := (agenticBursts.lt_ceil_iff durationS cycleIdx).1 (List.mem_range.1 hidx)
  have hburst : agenticBursts.onDur ≤ 2 := show (3 / 2 : ℚ) ≤ 2 by norm_num
  exact ⟨agenticBursts.onLength_pos hlt, le_trans (min_le_left _ _) hburst⟩

/-- The first burst of a duration of a second or more takes the first quick arrival. -/
theorem quick_fills {durationS : ℚ} (hdur : 1 ≤ durationS) {counts : List Nat}
    (h : Fills quick (agenticBursts.onLengths durationS) 0 counts) : 0 < counts.sum := by
  have hstart : ((0 : Nat) : ℚ) * agenticBursts.cycle < durationS := by
    rw [Nat.cast_zero, zero_mul]
    linarith
  rw [← agenticBursts.onLengthsFrom_zero, agenticBursts.onLengthsFrom_of_lt hstart] at h
  obtain ⟨n, rest, rfl, ⟨-, hle⟩, -⟩ := h
  have hfirst : 1 ≤ agenticBursts.onLength durationS 0 := by
    refine le_min (show (1 : ℚ) ≤ 3 / 2 by norm_num) ?_
    rw [Nat.cast_zero, zero_mul, sub_zero]
    exact hdur
  rw [List.sum_cons]
  rcases Nat.eq_zero_or_pos n with rfl | hn
  · rw [Renewal.elapsed_succ, Renewal.elapsed_zero, add_zero] at hle
    have hquick : quick 0 = 1 / 4 := rfl
    rw [hquick] at hle
    linarith
  · omega

/-- **Slow and quick draws give two schedules**, for two traces of one mix. -/
theorem offsets_apart {spec spec' : CellSpec} {t t' : Trace} (hcell : OfCell spec t) (hcell' : OfCell spec' t')
    (hmix : spec.mix = spec'.mix) :
    ∃ fuel offsets, OpenLoopScheduler.sampleOffsets slow fuel t = some offsets ∧
      OpenLoopScheduler.sampleOffsets quick fuel t' ≠ some offsets := by
  by_cases hag : spec.mix = .agentic
  · have hag' : spec'.mix = .agentic := hmix ▸ hag
    have hdur : 0 < cellDurationS spec := hcell.duration ▸ t.durationPos
    have hdur' : 1 ≤ cellDurationS spec' := le_max_left _ _
    obtain ⟨fuel, offsets, hoffsets, hlen⟩ := (agenticBursts.sample_length_iff slow_pos hdur 0).2
      ⟨_, slow_fills _ 0 onLengths_le, List.sum_replicate_nat.trans (Nat.mul_zero _)⟩
    refine ⟨fuel, offsets, (sampleOffsets_agentic hcell hag slow fuel).trans hoffsets, fun h => ?_⟩
    rw [sampleOffsets_agentic hcell' hag'] at h
    obtain ⟨counts, hfills, hsum⟩ := (agenticBursts.sample_length_iff quick_pos (by linarith) offsets.length).1
      ⟨fuel, offsets, h, rfl⟩
    have hpos := quick_fills hdur' hfills
    omega
  · have hpos := spec.total_pos
    have hpos' := spec'.total_pos
    refine ⟨0, _, OpenLoopScheduler.sampleOffsets_poisson (hcell.poisson hag) slow 0, fun h => ?_⟩
    rw [OpenLoopScheduler.sampleOffsets_poisson (hcell'.poisson (hmix ▸ hag)), Trace.nRequests, Trace.nRequests, hcell.requests,
      hcell'.requests] at h
    obtain ⟨n, hn⟩ := Nat.exists_eq_succ_of_ne_zero hpos.ne'
    obtain ⟨n', hn'⟩ := Nat.exists_eq_succ_of_ne_zero hpos'.ne'
    rw [hn, hn'] at h
    have hhead := (List.cons.inj (Option.some.inj h)).1
    have hne : (0 : ℚ) + quick 0 ≠ 0 + slow 0 := by decide +kernel
    exact hne hhead

/-! ## Two topologies -/

/-- Slow draws, but quick ones from one seed. -/
def quickFrom (seed : Int) : Exponentials := fun s _ => if s = seed then quick else slow

theorem workload_apart {c c' : CellSpec} (hseed : c.seed ≠ c'.seed) (hmix : c.mix = c'.mix)
    {source : Int → Nat → Nat → Nat} (hbuilt : buildTrace source c ≠ none) :
    ∃ exps fuel, workload source exps fuel c ≠ workload source exps fuel c' := by
  obtain ⟨t, ht⟩ := Option.ne_none_iff_exists'.1 hbuilt
  have hcell := buildTrace_ofCell ht
  have hslow : quickFrom c'.seed t.arrival.seed t.arrival.ratePerSec = slow := by
    rw [hcell.seed]
    exact if_neg (fun he => hseed (Int.ofNat.inj he))
  cases hother : buildTrace source c' with
  | none =>
    obtain ⟨fuel, offsets, hoffsets, -⟩ := offsets_apart hcell hcell rfl
    refine ⟨quickFrom c'.seed, fuel, fun h => ?_⟩
    rw [workload, ht, workload, hother] at h
    simp only [Option.bind_eq_bind, Option.bind_some, hslow, hoffsets] at h
    cases h
  | some t' =>
    have hcell' := buildTrace_ofCell hother
    have hquick : quickFrom c'.seed t'.arrival.seed t'.arrival.ratePerSec = quick := by
      rw [hcell'.seed]
      exact if_pos rfl
    obtain ⟨fuel, offsets, hoffsets, hne⟩ := offsets_apart hcell hcell' hmix
    refine ⟨quickFrom c'.seed, fuel, fun h => ?_⟩
    have hsome : workload source (quickFrom c'.seed) fuel c = some (t.requests, offsets) := by
      rw [workload, ht]
      simp only [Option.bind_eq_bind, Option.bind_some, hslow, hoffsets]
      rfl
    obtain ⟨t'', ht'', -, hoffsets'⟩ := workload_eq_some (h.symm.trans hsome)
    obtain rfl : t' = t'' := Option.some.inj (hother.symm.trans ht'')
    rw [hquick] at hoffsets'
    exact hne hoffsets'

/-- **Two cells at one point have one workload, whatever the generators, exactly when their topologies are the same**, or
when no generator ever builds a trace of either. -/
theorem same_workload_iff (m : MatrixSpec) (cs : List CellSpec) (hm : m.cells = some cs) (c c' : CellSpec) (hc : c ∈ cs)
    (hc' : c' ∈ cs) (hmodel : c.model = c'.model) (hrate : c.rateRps = c'.rateRps) (hmix : c.mix = c'.mix) :
    (∀ source exps fuel, workload source exps fuel c = workload source exps fuel c') ↔
      c.topology = c'.topology ∨ ∀ source, buildTrace source c = none ∧ buildTrace source c' = none := by
  constructor
  · intro h
    by_cases htopology : c.topology = c'.topology
    · exact Or.inl htopology
    · have hseed : c.seed ≠ c'.seed := by
        rw [(seed_eq hm hc).2.2, (seed_eq hm hc').2.2, hmodel, hrate, hmix]
        exact fun he => htopology (deriveSeed_topology he)
      refine Or.inr (fun source => ⟨?_, ?_⟩)
      · by_contra hbuilt
        obtain ⟨exps, fuel, hne⟩ := workload_apart hseed hmix hbuilt
        exact hne (h source exps fuel)
      · by_contra hbuilt
        obtain ⟨exps, fuel, hne⟩ := workload_apart hseed.symm hmix.symm hbuilt
        exact hne (h source exps fuel).symm
  · rintro (htopology | hnever) source exps fuel
    · have hid : c.cellId = c'.cellId := by
        unfold CellSpec.cellId
        rw [htopology, hmodel, hrate, hmix]
      rw [eq_of_cellId hm hc hc' hid]
    · rw [workload, workload, (hnever source).1, (hnever source).2]

/-! ## The baseline and the chunked cell -/

theorem baseline_and_chunked :
    (∀ source exps fuel, workload source exps fuel chatCell = workload source exps fuel chunkedCell) ↔
      chatCell.topology = chunkedCell.topology ∨
        ∀ source, buildTrace source chatCell = none ∧ buildTrace source chunkedCell = none :=
  same_workload_iff pairMatrix [chatCell, chunkedCell] pairMatrix_cells chatCell chunkedCell List.mem_cons_self
    (List.mem_cons_of_mem _ List.mem_cons_self) rfl rfl rfl

/-- The first draws of `random.Random` at the seeds of the two cells: turns, prompt tokens, output tokens. -/
def firstDraws (seed : Int) (pos width : Nat) : Nat :=
  if seed = 2157103804 then [1, 1395, 366].getD pos 0 % width
  else if seed = 3896114494 then [2, 261, 442].getD pos 0 % width
  else 0

theorem firstDraws_prompt {c : CellSpec} (hmix : c.mix = .chat) (hone : c.nWarmup + c.nMeasure = 1) {p : Nat}
    (hdrawn : drawn ⟨firstDraws c.seed, 0⟩ 1 (500, 2000) = p) :
    ∃ t, buildTrace firstDraws c = some t ∧ t.requests.map (fun r => r.promptTokens) = [p] := by
  obtain ⟨t, r, ht, hreq, hp, -⟩ := buildTrace_chat_single firstDraws c hmix hone
  refine ⟨t, ht, ?_⟩
  rw [hreq, List.map_singleton, Int.ofNat.inj (hp.trans hdrawn)]

/-- **The baseline's only prompt has 1895 tokens, the chunked cell's 761.** -/
theorem chunked_sends_other_requests :
    pairMatrix.cells = some [chatCell, chunkedCell] ∧
      (∃ t, buildTrace firstDraws chatCell = some t ∧ t.requests.map (fun r => r.promptTokens) = [1895]) ∧
      (∃ t, buildTrace firstDraws chunkedCell = some t ∧ t.requests.map (fun r => r.promptTokens) = [761]) ∧
      ¬ ∀ source exps fuel, workload source exps fuel chatCell = workload source exps fuel chunkedCell := by
  obtain ⟨t, ht, hprompt⟩ := firstDraws_prompt (c := chatCell) (p := 1895) rfl rfl (by decide +kernel)
  obtain ⟨t', ht', hprompt'⟩ := firstDraws_prompt (c := chunkedCell) (p := 761) rfl rfl (by decide +kernel)
  refine ⟨pairMatrix_cells, ⟨t, ht, hprompt⟩, ⟨t', ht', hprompt'⟩, fun h => ?_⟩
  have hsome : workload firstDraws (fun _ _ => slow) 0 chatCell =
      some (t.requests, PoissonArrival.sample slow t.nRequests) := by
    rw [workload, ht]
    simp only [Option.bind_eq_bind, Option.bind_some, OpenLoopScheduler.sampleOffsets_poisson ((buildTrace_ofCell ht).poisson (by decide))]
    rfl
  obtain ⟨t₂, ht₂, hsame, -⟩ := workload_eq_some ((h firstDraws (fun _ _ => slow) 0).symm.trans hsome)
  obtain rfl : t' = t₂ := Option.some.inj (ht'.symm.trans ht₂)
  rw [hsame, hprompt] at hprompt'
  cases hprompt'

end BenchMatrix
end GoodputLab
