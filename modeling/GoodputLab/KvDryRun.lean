import GoodputLab.FakeEngine
import GoodputLab.KvFit
/-!
# KvDryRun — the rung-0 dry run (`bench/kv_scaling/measure.py`)

`runDryRunCampaign` measures a grid of cells on one fake engine, whose pool is sized to the grid, fits the bytes per token
and refuses the campaign when the gate or the knee search does.
-/
namespace GoodputLab

open KvSweep (runCell)

inductive DryRunError
  | tooFewCells (seqLens batchSizes : List Int)
  | zeroDivision
  | engine (e : FakeError)
  | cell (e : CellError)
  | fit (e : FitError)
  | fields (refused : List String)
deriving DecidableEq

structure KvScalingCampaign where
  campaignId          : Text
  modelRevision       : Text
  cells               : List KvScalingCell
  theoryBytesPerToken : Int
  regression          : RegressionFit
  knee                : KneePoint
  cellsNonempty       : 1 ≤ cells.length
  theoryPos           : 0 < theoryBytesPerToken

def KvScalingCampaign.make? (campaignId modelRevision : Text) (cells : List KvScalingCell) (theory : Int)
    (regression : RegressionFit) (knee : KneePoint) : Except DryRunError KvScalingCampaign :=
  if h : 1 ≤ cells.length ∧ 0 < theory then
    .ok ⟨campaignId, modelRevision, cells, theory, regression, knee, h.1, h.2⟩
  else .error (.fields (refusedOf [("cells", decide (1 ≤ cells.length)), ("theory_bytes_per_token", decide (0 < theory))]))

/-- The arguments of the dry run; `none` and the empty list stand for the default grid. -/
structure DryRunArgs where
  campaignId         : Text
  seqLens            : Option (List Int)
  batchSizes         : Option (List Int)
  nSamples           : Int
  theoryBpt          : Int
  blockSize          : Int
  decodeTokens       : Int
  totalBlocks        : Int
  fixedOverheadBytes : Int

def orDefault (default : List Int) : Option (List Int) → List Int
  | none          => default
  | some []       => default
  | some (n :: l) => n :: l

/-- The chunk budget a `SweepContext` is given when none is set. -/
def defaultMaxNumBatchedTokens : Int := 8192

namespace DryRunArgs

variable (a : DryRunArgs)

def seqs : List Int := orDefault [512, 2048, 8192] a.seqLens

def batches : List Int := orDefault [1, 4, 16] a.batchSizes

/-- The cells in the order they are run. -/
def grid : List (Int × Int) := a.seqs ×ˢ a.batches

/-- The most blocks a cell of the grid holds. -/
def needed : Int :=
  ((a.grid.map (fun p => p.2 * ⌈((p.1 + cellDecodeTokens a.decodeTokens : Int) : ℚ) / a.blockSize⌉)).max?).getD 0

def poolBlocks : Int := max a.totalBlocks (a.needed + 64)

def engine? : Except FakeError FakeEngine := FakeEngine.make? a.poolBlocks a.blockSize a.fixedOverheadBytes none

def context : SweepContext where
  campaignId := a.campaignId
  modelId := "dry-run/fake-block-manager".toList
  gpu := "none (fake)".toList
  vllmVersion := "fake-0".toList
  theoryBpt := a.theoryBpt
  baselineBytes := a.fixedOverheadBytes
  blockSize := a.blockSize
  decodeTokens := a.decodeTokens
  method := "fake block-manager dry run (rung 0), manual step loop, max_tokens=".toList ++ Text.ofInt a.decodeTokens ++
    ", ignore_eos=True, block_size=".toList ++ Text.ofInt a.blockSize
  maxNumBatchedTokens := defaultMaxNumBatchedTokens

end DryRunArgs

variable {σ : Type}

def dryRunCells (d : EngineDriver σ) (a : DryRunArgs) : List (Int × Int) → Act CellError σ (List KvScalingCell)
  | []     => pure []
  | p :: g => do
    let prompts := List.replicate p.2.toNat ("fake-prompt-".toList ++ Text.ofInt p.1)
    let cell ← runCell d a.context p.1 p.2 a.nSamples prompts
    let cells ← dryRunCells d a g
    pure (cell :: cells)

def dryRunFit (cells : List KvScalingCell) : Except FitError RegressionFit :=
  fitBytesPerToken (cells.map (fun c => (c.totalTokens : ℚ))) (cells.map (fun c => c.p50Bytes))

def minSeqLen (a : DryRunArgs) : Int := (a.seqs.min?).getD 0

/-- The campaign the dry run writes. -/
def runDryRunCampaign (a : DryRunArgs) : Except DryRunError KvScalingCampaign :=
  if a.seqs.length * a.batches.length < 2 then .error (.tooFewCells a.seqs a.batches)
  else if a.blockSize = 0 then .error .zeroDivision
  else do
    let e ← a.engine?.mapError .engine
    let cells ← (dryRunCells e.driver a a.grid .fresh).1.mapError .cell
    let regression ← (dryRunFit cells).mapError .fit
    (checkDryRunGate regression a.theoryBpt a.blockSize (minSeqLen a)).mapError .fit
    let knee ← (findKnee cells a.fixedOverheadBytes).mapError .fit
    KvScalingCampaign.make? a.campaignId "fake".toList cells a.theoryBpt regression knee

end GoodputLab
