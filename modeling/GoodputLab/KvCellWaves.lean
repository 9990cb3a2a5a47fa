import GoodputLab.KvStaggerCell
/-!
# KvCellWaves — which wide-wave batches are measured

A cell's batch is prefilled in waves some engine steps apart.  The decode window is long enough for every spacing at which
some step has the whole batch alive, but the step budget allows eight steps and one for each wave over the decode tokens:
the cell is measured exactly when the last wave starts within that (`wide_waves_measured_iff`), and refused otherwise.
-/
namespace GoodputLab

open KvSweep (runCell)

/-! ## Waves -/

/-- A batch in `chunks` waves, none empty, `spacing` steps apart; `waves` has the wave of each prompt. -/
structure WavePlan where
  waves     : List Nat
  chunks    : Nat
  spacing   : Nat
  tokens    : Nat
  seqLen    : Int
  blockSize : Int
  total     : Int
  chunksPos : 0 < chunks
  nonempty  : ∀ w < chunks, w ∈ waves
  below     : ∀ w ∈ waves, w < chunks
  spaced    : 1 ≤ spacing
  overlap   : (chunks - 1) * spacing + 2 ≤ tokens
  seqPos    : 0 < seqLen
  blockPos  : 0 < blockSize
  totalPos  : 0 < total

/-- Wave `w` has its first token on step `1 + w * spacing`. -/
def WavePlan.stagger (plan : WavePlan) : Stagger where
  starts := plan.waves.map (fun w => w * plan.spacing)
  last := (plan.chunks - 1) * plan.spacing
  tokens := plan.tokens
  seqLen := plan.seqLen
  blockSize := plan.blockSize
  total := plan.total
  firstMem := List.mem_map.2 ⟨0, plan.nonempty 0 plan.chunksPos, Nat.zero_mul _⟩
  lastMem := List.mem_map.2 ⟨plan.chunks - 1, plan.nonempty _ (Nat.sub_lt plan.chunksPos Nat.one_pos), rfl⟩
  leLast := by
    intro x hx
    obtain ⟨w, hw, rfl⟩ := List.mem_map.1 hx
    exact Nat.mul_le_mul_right _ (Nat.le_sub_one_of_lt (plan.below w hw))
  overlap := plan.overlap
  seqPos := plan.seqPos
  blockPos := plan.blockPos
  totalPos := plan.totalPos

/-- Step `k` is the last one with the whole batch alive. -/
def Stagger.LastAlive (p : Stagger) (k : Nat) : Prop := p.AllAlive k ∧ ∀ j, p.AllAlive j → j ≤ k

theorem Stagger.lastAlive_iff (p : Stagger) (k : Nat) : p.LastAlive k ↔ k = p.tokens - 1 := by
  have hoverlap := p.overlap
  unfold LastAlive
  constructor
  · rintro ⟨hk, hlast⟩
    rw [p.allAlive_iff] at hk
    have hle := hlast (p.tokens - 1) ((p.allAlive_iff _).2 (by omega))
    omega
  · rintro rfl
    refine ⟨(p.allAlive_iff _).2 (by omega), fun j hj => ?_⟩
    rw [p.allAlive_iff] at hj
    omega

variable {σ : Type}

/-- The cell is measured, and its token count is the batch's at the last step with the whole batch alive. -/
def Measured (d : EngineDriver σ) (ctx : SweepContext) (p : Stagger) (batchSize nSamples : Int) (prompts : List Text)
    (s : σ) : Prop :=
  ∃ cell s', runCell d ctx p.seqLen batchSize nSamples prompts s = (.ok cell, s') ∧
    ∃ k, p.LastAlive k ∧ cell.totalTokens = p.live k

/-- **A wide-wave cell is measured exactly when the budget reaches its last wave.** -/
theorem wide_waves_measured_iff (d : EngineDriver σ) (plan : WavePlan) (engine : Serves d plan.stagger)
    (ctx : SweepContext) (batchSize nSamples : Int) (prompts : List Text) (seen : List Text) (s : σ)
    (hfits : plan.stagger.Fits ctx plan.seqLen batchSize)
    (hchunks : prefillChunks batchSize plan.seqLen ctx.maxNumBatchedTokens = .ok plan.chunks) (hn : 1 ≤ nSamples)
    (hprompts : (prompts.length : Int) = batchSize) (hidle : engine.idle seen s)
    (hnew : ∀ i k, cellRequestId ctx.campaignId plan.seqLen batchSize i k ∉ seen) :
    Measured d ctx plan.stagger batchSize nSamples prompts s ↔
      (plan.chunks - 1) * plan.spacing ≤ plan.chunks + 8 := by
  have hlast : plan.stagger.last = (plan.chunks - 1) * plan.spacing := rfl
  rw [← hlast]
  constructor
  · rintro ⟨cell, s', hcell, -⟩
    by_contra hover
    obtain ⟨e, s'', he⟩ := Stagger.runCell_outOfSteps engine hfits hn hprompts hchunks (by omega) hidle hnew
    rw [show plan.stagger.seqLen = plan.seqLen from rfl, he] at hcell
    cases hcell
  · intro hbudget
    obtain ⟨cell, s', hcell, hfields, -⟩ :=
      Stagger.runCell_staggered engine hfits hn hprompts hchunks (by omega) hidle hnew
    refine ⟨cell, s', hcell, plan.stagger.tokens - 1, (plan.stagger.lastAlive_iff _).2 rfl, ?_⟩
    rw [hfields]
    rfl

/-! ## An engine for every schedule -/

/-- The ids of earlier batches, the batch, and its steps. -/
structure StaggerState where
  seen  : List Text
  batch : List Text
  steps : Nat

/-- The engine that does what the schedule says and nothing else. -/
def Stagger.engine (p : Stagger) : EngineDriver StaggerState where
  numGpuBlocks := fun s => (.ok (some p.total), s)
  numFreeBlocks := fun s => (.ok (p.total - p.held s.steps), s)
  addRequest := fun r s =>
    if r.requestId ∈ s.seen ++ s.batch then (.error (.driver "duplicate request id"), s)
    else (.ok (), { s with batch := s.batch ++ [r.requestId] })
  step := fun s => (.ok (p.outputs s.batch (s.steps + 1)), { s with steps := s.steps + 1 })
  getNumUnfinishedRequests := fun s => (.ok (p.starts.countP (fun start => decide (s.steps < start + p.tokens))), s)
  endSample := fun s => (.ok (), ⟨s.seen ++ s.batch, [], 0⟩)

def Stagger.serves (p : Stagger) : Serves p.engine p where
  idle := fun seen s => s = ⟨seen, [], 0⟩
  queued := fun seen rids s => s = ⟨seen, rids, 0⟩
  serving := fun seen rids k s => s = ⟨seen, rids, k⟩
  numBlocks := by
    rintro seen s rfl
    exact ⟨_, _, rfl, rfl, rfl⟩
  add := by
    rintro seen rids s rid prompt rfl - hnew
    exact ⟨_, _, if_neg hnew, rfl⟩
  start := by
    rintro seen rids s rfl -
    rfl
  free := by
    rintro seen rids k s rfl
    exact ⟨_, _, rfl, rfl, rfl⟩
  step := by
    rintro seen rids k s rfl -
    exact ⟨_, _, rfl, List.Perm.refl _, rfl⟩
  unfinished := by
    rintro seen rids k s rfl
    exact ⟨_, _, rfl, rfl⟩
  finish := by
    rintro seen rids k s rfl -
    exact ⟨_, _, rfl, rfl⟩

theorem blockSize_pos : (0 : Int) < 16 := by decide

/-- Two waves of one request each. -/
def twoWaves (spacing : Nat) (h : 1 ≤ spacing ∧ spacing ≤ 28) : WavePlan where
  waves := [0, 1]
  chunks := 2
  spacing := spacing
  tokens := 30
  seqLen := 64
  blockSize := 16
  total := 4096
  chunksPos := Nat.zero_lt_two
  nonempty := by decide
  below := by decide
  spaced := h.1
  overlap := by omega
  seqPos := by decide
  blockPos := blockSize_pos
  totalPos := by decide

/-- A campaign whose engine prefills 64 tokens a chunk. -/
def smallChunks : SweepContext where
  campaignId := "c".toList
  modelId := "m".toList
  gpu := "g".toList
  vllmVersion := "v".toList
  theoryBpt := 12288
  baselineBytes := 1000000
  blockSize := 16
  decodeTokens := 4
  method := "test".toList
  maxNumBatchedTokens := 64

theorem twoWaves_fits (spacing : Nat) (h : 1 ≤ spacing ∧ spacing ≤ 28) :
    (twoWaves spacing h).stagger.Fits smallChunks 64 2 :=
  ⟨rfl, rfl, rfl, rfl, by decide, by decide⟩

theorem six_steps_apart_measured :
    Measured (twoWaves 6 (by decide)).stagger.engine smallChunks (twoWaves 6 (by decide)).stagger 2 1
      ["x".toList, "x".toList] ⟨[], [], 0⟩ ↔ (2 - 1) * 6 ≤ 2 + 8 :=
  wide_waves_measured_iff (twoWaves 6 (by decide)).stagger.engine (twoWaves 6 (by decide))
    (twoWaves 6 (by decide)).stagger.serves smallChunks 2 1 ["x".toList, "x".toList] [] ⟨[], [], 0⟩
    (twoWaves_fits 6 (by decide)) rfl (by decide) rfl rfl (fun _ _ h => by cases h)

def errorOf {ε α : Type} : Except ε α → Option ε
  | .error e => some e
  | .ok _    => none

theorem eleven_steps_apart_refused :
    (2 - 1) * 11 ≤ 30 - 2 ∧
    errorOf (runCell (twoWaves 11 (by decide)).stagger.engine smallChunks 64 2 1 ["x".toList, "x".toList]
      ⟨[], [], 0⟩).1 =
      some (.sample (.stepBudget 40 [("c-s64-b2-n0-r0".toList, true), ("c-s64-b2-n0-r1".toList, false)])) ∧
    ¬ Measured (twoWaves 11 (by decide)).stagger.engine smallChunks (twoWaves 11 (by decide)).stagger 2 1
      ["x".toList, "x".toList] ⟨[], [], 0⟩ := by
  have hrefused : errorOf (runCell (twoWaves 11 (by decide)).stagger.engine smallChunks 64 2 1
      ["x".toList, "x".toList] ⟨[], [], 0⟩).1 =
      some (.sample (.stepBudget 40 [("c-s64-b2-n0-r0".toList, true), ("c-s64-b2-n0-r1".toList, false)])) := by
    decide +kernel
  refine ⟨by decide, hrefused, ?_⟩
  rintro ⟨cell, s', hcell, -⟩
  rw [show (twoWaves 11 (by decide)).stagger.seqLen = 64 from rfl] at hcell
  rw [hcell] at hrefused
  cases hrefused

end GoodputLab
