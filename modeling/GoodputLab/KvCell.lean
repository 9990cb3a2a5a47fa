import GoodputLab.KvMeasure
/-!
# KvCell — one cell of the KV-cache sweep (`bench/kv_scaling/measure.py`, `bench/kv_scaling/schema.py`)

A cell is one (sequence length, batch size) point.  `runCell` samples it a number of times on one engine, refuses it if
the live token count changed from one sample to another, and builds a `KvScalingCell`, whose constructor checks its fields.
-/
namespace GoodputLab

/-! ## The record -/

/-- The fields a schema refuses, in order. -/
def refusedOf (fields : List (String × Bool)) : List String := fields.filterMap (fun p => if p.2 then none else some p.1)

structure CellFields where
  modelId               : Text
  gpu                   : Text
  vllmVersion           : Text
  seqLen                : Int
  batchSize             : Int
  nSamples              : Int
  kvBytesUsedSamples    : List Int
  kvBytesPrefillSamples : Option (List Int)
  totalTokens           : Int
  baselineBytes         : Int
  method                : Text
deriving DecidableEq

inductive CellError
  | nSamples (got : Int)
  | prompts (batchSize : Int) (got : Nat)
  | zeroDivision
  | liveCountChanged (counts : List Int)
  | fields (refused : List String)
  | decodeSamples (nSamples : Int) (got : Nat)
  | prefillSamples (nSamples : Int) (got : Nat)
  | sample (e : SampleError)
deriving DecidableEq

namespace CellFields

def refused (f : CellFields) : List String :=
  refusedOf [("seq_len", decide (0 < f.seqLen)), ("batch_size", decide (0 < f.batchSize)),
    ("n_samples", decide (0 < f.nSamples)), ("kv_bytes_used_samples", decide (1 ≤ f.kvBytesUsedSamples.length)),
    ("total_tokens", decide (0 < f.totalTokens)), ("baseline_bytes", decide (0 ≤ f.baselineBytes))]

def check (f : CellFields) : Except CellError Unit :=
  if f.refused ≠ [] then .error (.fields f.refused)
  else if (f.kvBytesUsedSamples.length : Int) ≠ f.nSamples then
    .error (.decodeSamples f.nSamples f.kvBytesUsedSamples.length)
  else match f.kvBytesPrefillSamples with
    | some l => if (l.length : Int) ≠ f.nSamples then .error (.prefillSamples f.nSamples l.length) else .ok ()
    | none   => .ok ()

end CellFields

structure KvScalingCell extends CellFields where
  checked : toCellFields.check = .ok ()

def KvScalingCell.make? (f : CellFields) : Except CellError KvScalingCell :=
  match h : f.check with
  | .ok ()   => .ok ⟨f, h⟩
  | .error e => .error e

theorem KvScalingCell.make?_ok {f : CellFields} (h : f.check = .ok ()) : KvScalingCell.make? f = .ok ⟨f, h⟩ := by
  unfold KvScalingCell.make?
  split
  · rfl
  · rename_i e he
    rw [h] at he
    cases he

theorem KvScalingCell.bounds (c : KvScalingCell) : 0 < c.seqLen ∧ 0 < c.batchSize ∧ 0 < c.nSamples ∧
    1 ≤ c.kvBytesUsedSamples.length ∧ 0 < c.totalTokens ∧ 0 ≤ c.baselineBytes := by
  have hok := c.checked
  unfold CellFields.check at hok
  split at hok
  · cases hok
  · rename_i hrefused
    rw [not_not] at hrefused
    unfold CellFields.refused refusedOf at hrefused
    have hall := List.filterMap_eq_nil_iff.1 hrefused
    simpa using hall

theorem KvScalingCell.length_samples (c : KvScalingCell) : (c.kvBytesUsedSamples.length : Int) = c.nSamples := by
  have hok := c.checked
  unfold CellFields.check at hok
  split at hok
  · cases hok
  · split at hok
    · cases hok
    · rename_i hlength
      exact not_not.1 hlength

/-- `_percentile`: linear interpolation over an ascending list. -/
def kvPercentile (sortedValues : List ℚ) (q : ℚ) : ℚ :=
  let n := sortedValues.length
  if n = 1 then sortedValues.getD 0 0
  else
    let rank := q * ((n : ℚ) - 1)
    let lo := rank.floor.toNat
    let hi := min (lo + 1) (n - 1)
    let frac := rank - lo
    sortedValues.getD lo 0 + frac * (sortedValues.getD hi 0 - sortedValues.getD lo 0)

def KvScalingCell.p50Bytes (c : KvScalingCell) : ℚ :=
  kvPercentile ((c.kvBytesUsedSamples.map (fun s : Int => (s : ℚ))).mergeSort (fun x y => decide (x ≤ y))) (1 / 2)

def KvScalingCell.p95Bytes (c : KvScalingCell) : ℚ :=
  kvPercentile ((c.kvBytesUsedSamples.map (fun s : Int => (s : ℚ))).mergeSort (fun x y => decide (x ≤ y))) (95 / 100)

def KvScalingCell.measuredBytesPerToken (c : KvScalingCell) : ℚ := c.p50Bytes / c.totalTokens

/-! ## The cell's samples -/

/-- `SweepContext`. -/
structure SweepContext where
  campaignId          : Text
  modelId             : Text
  gpu                 : Text
  vllmVersion         : Text
  theoryBpt           : Int
  baselineBytes       : Int
  blockSize           : Int
  decodeTokens        : Int
  method              : Text
  maxNumBatchedTokens : Int

/-- Minus the floor of the negated quotient, as the source has it. -/
def prefillChunks (batchSize seqLen maxNumBatchedTokens : Int) : Except CellError Int :=
  if maxNumBatchedTokens = 0 then .error .zeroDivision
  else .ok (-Int.fdiv (-batchSize * seqLen) maxNumBatchedTokens)

def measuredWaveSpacingSteps : Int := 5

def decodeWindowMargin : Int := 6

def extendedDecodeTokens : Int := measuredWaveSpacingSteps * decodeWindowMargin

def cellDecodeTokens (decodeTokens : Int) : Int := max decodeTokens extendedDecodeTokens

def cellRequestId (campaignId : Text) (seqLen batchSize : Int) (i k : Nat) : Text :=
  campaignId ++ "-s".toList ++ Text.ofInt seqLen ++ "-b".toList ++ Text.ofInt batchSize ++ "-n".toList ++ Text.ofNat i ++
    "-r".toList ++ Text.ofNat k

def cellRequestIds (ctx : SweepContext) (seqLen batchSize : Int) (i : Nat) : List Text :=
  (List.range batchSize.toNat).map (cellRequestId ctx.campaignId seqLen batchSize i)

/-- The arguments of sample `i`. -/
def cellArgs (ctx : SweepContext) (seqLen batchSize : Int) (prompts : List Text) (chunks : Int) (i : Nat) :
    SampleArgs where
  requestIds := cellRequestIds ctx seqLen batchSize i
  prompts := prompts
  promptLens := List.replicate batchSize.toNat seqLen
  decodeTokens := cellDecodeTokens ctx.decodeTokens
  ignoreEos := true
  prefillChunks := chunks
  theoryBpt := ctx.theoryBpt
  blockSize := ctx.blockSize

variable {σ : Type}

/-- The samples left, from the one numbered `i`. -/
def runSamples (d : EngineDriver σ) (args : Nat → SampleArgs) : Nat → Nat → Act CellError σ (List SampleReadings)
  | 0, _     => pure []
  | n + 1, i => do
    let reading ← Act.mapError .sample (sampleDecodeWindow d (args i))
    let readings ← runSamples d args n (i + 1)
    pure (reading :: readings)

namespace KvSweep

def runCell (d : EngineDriver σ) (ctx : SweepContext) (seqLen batchSize nSamples : Int) (prompts : List Text) :
    Act CellError σ KvScalingCell := do
  Act.guard (decide (nSamples ≤ 0)) (.nSamples nSamples)
  Act.guard (decide ((prompts.length : Int) ≠ batchSize)) (.prompts batchSize prompts.length)
  let chunks ← Act.lift (prefillChunks batchSize seqLen ctx.maxNumBatchedTokens)
  let readings ← runSamples d (cellArgs ctx seqLen batchSize prompts chunks) nSamples.toNat 0
  let liveCounts := readings.map (fun r => r.liveTokensDecode)
  Act.guard (liveCounts.any (fun c => decide (c ≠ liveCounts.headD 0))) (.liveCountChanged liveCounts)
  Act.lift (KvScalingCell.make? ⟨ctx.modelId, ctx.gpu, ctx.vllmVersion, seqLen, batchSize, nSamples,
    readings.map (fun r => r.kvBytesDecode), some (readings.map (fun r => r.kvBytesPrefill)), liveCounts.headD 0,
    ctx.baselineBytes, ctx.method⟩)

end KvSweep

end GoodputLab
