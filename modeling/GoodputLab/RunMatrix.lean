import GoodputLab.MatrixPending
import GoodputLab.Preflight
/-!
# RunMatrix — the sweep runner (`scripts/run_matrix.py`, `bench/matrix_aggregator.py`)

The gates refuse a run before any request; a run that passes them sweeps the matrix, summarises the directory and exits
with a code.  The aggregator skips what does not parse and raises on a file whose name is not its result's.
-/
namespace GoodputLab

open BenchMatrix (Sweep stem pendingCellSpecs runAll runPending nCompleted nFailed)

/-! ## The configuration (`bench/schema/matrix_config.py`) -/

structure MatrixSweepConfig where
  topologies  : Option (List Topology)
  models      : Option (List Model)
  ratesRps    : Option (List Int)
  mixes       : Option (List Mix)
  nWarmup     : Nat
  nMeasure    : Nat
  smoke       : Bool
  maxModelLen : Option Int
  ratesPos    : ∀ rates ∈ ratesRps, ∀ r ∈ rates, 0 < r
  measureGe   : 1 ≤ nMeasure
  modelLenGe  : ∀ l ∈ maxModelLen, 1 ≤ l

namespace MatrixSweepConfig

def topologyOf? (name : Text) : Option Topology := Topology.all.find? (fun t => decide (t.value = name))

/-- A copy restricted to the named topologies; `none` when a name is none of the configuration's. -/
def restrictTopologies (cfg : MatrixSweepConfig) (names : List Text) : Option MatrixSweepConfig := do
  let wanted ← names.mapM topologyOf?
  let allowed := cfg.topologies.getD Topology.all
  if wanted.all (fun t => allowed.contains t) then pure { cfg with topologies := some wanted } else none

def toMatrixSpec (cfg : MatrixSweepConfig) : MatrixSpec where
  topologies := cfg.topologies.getD Topology.all
  models := cfg.models.getD Model.all
  ratesRps := cfg.ratesRps.getD [1, 2, 4, 8, 16, 32]
  mixes := cfg.mixes.getD Mix.all
  nWarmup := cfg.nWarmup
  nMeasure := cfg.nMeasure

end MatrixSweepConfig

/-! ## The summary -/

/-- The texts of the two files the runner writes beside the cells; neither is a cell result. -/
structure Sidecars {C : Type} (codec : CellCodec C) where
  preflight    : C
  summary      : List CellResult → C
  preflightNot : codec.parse preflight = none
  summaryNot   : ∀ results, codec.parse (summary results) = none

namespace RunMatrix

variable {C : Type}

def preflightPath : Text := "preflight.json".toList

def summaryPath : Text := "summary.json".toList

def summaryTmpPath : Text := "summary.json.tmp".toList

def jsonFiles (dir : Dir C) : List (Text × C) :=
  (dir.items.filter (fun f => f.1.endsWith jsonSuffix)).insertionSort (fun f g => f.1 ≤ g.1)

def loadResults (codec : CellCodec C) : List (Text × C) → Option (List CellResult)
  | []      => some []
  | f :: fs =>
    match codec.parse f.2 with
    | none   => loadResults codec fs
    | some r => if r.cellId ≠ stem f.1 then none else (loadResults codec fs).map (fun rs => r :: rs)

/-- The results of a directory; `none` is the `ValueError`. -/
def aggregate (codec : CellCodec C) (dir : Dir C) : Option (List CellResult) :=
  if (jsonFiles dir).isEmpty then none
  else
    match loadResults codec (jsonFiles dir) with
    | none         => none
    | some results =>
      if results.isEmpty then none else some (results.insertionSort (fun r q => r.cellId ≤ q.cellId))

def writeSummary {codec : CellCodec C} (sidecars : Sidecars codec) (dir : Dir C) : Option (Dir C) :=
  (aggregate codec dir).map (fun results =>
    ((dir.set summaryTmpPath (sidecars.summary results)).erase summaryTmpPath).set summaryPath (sidecars.summary results))

/-! ## The run -/

structure Args where
  runAll        : Bool
  approveCost   : Bool
  keepGoing     : Bool
  allowOverflow : Bool
  topologies    : Option Text

structure Environ where
  vllmBaseUrl : Text
  approve     : Text

/-- `--topologies`: the names between the commas, the blank ones left out; an empty option is no option. -/
def restricted (cfg : MatrixSweepConfig) (args : Args) : Option MatrixSweepConfig :=
  match args.topologies with
  | none      => some cfg
  | some text =>
    if text = [] then some cfg
    else cfg.restrictTopologies (((text.splitOn ',').map Text.strip).filter (fun name => !name.isEmpty))

def spendApproved (approveFlag : Bool) (env : Environ) : Bool :=
  approveFlag || decide (env.approve.strip.map Char.toLower = "yes".toList)

/-- The cells the run is about to visit. -/
def planned (codec : CellCodec C) (dir : Dir C) (m : MatrixSpec) (args : Args) : Option (List CellSpec) :=
  if args.runAll then m.cells else pendingCellSpecs codec dir m

/-- The code of the gate that refuses the run, `none` inside when all pass; `none` when a trace cannot be built. -/
def refusal (source : Int → Nat → Nat → Nat) (cfg : MatrixSweepConfig) (args : Args) (env : Environ)
    (pending : List CellSpec) : Option (Option Nat) := do
  let promptPf ← buildPromptPreflight source pending cfg.maxModelLen
  if !promptPf.ok && !args.allowOverflow then pure (some 6)
  else if !pending.isEmpty && !cfg.smoke && !spendApproved args.approveCost env then pure (some 5)
  else pure none

/-- The sweep over the directory that the preflight has been recorded in. -/
def sweep (b : Bench C) (sidecars : Sidecars b.codec) (dir : Dir C) (m : MatrixSpec) (args : Args) : Option (Sweep C) :=
  if args.runAll then runAll b (dir.set preflightPath sidecars.preflight) m (!args.keepGoing)
  else runPending b (dir.set preflightPath sidecars.preflight) m (!args.keepGoing)

/-- The exit code of a sweep, and the sweep with the directory it leaves. -/
def finish (b : Bench C) (sidecars : Sidecars b.codec) (s : Sweep C) : Nat × Sweep C :=
  if nCompleted s = 0 then (3, s)
  else
    match writeSummary sidecars s.dir with
    | none     => (4, s)
    | some dir => (if nFailed s = 0 then 0 else 1, { s with dir := dir })

/-- `main`, the configuration loaded: the exit code, and what the run did; `none` is an exception. -/
def main (b : Bench C) (sidecars : Sidecars b.codec) (cfg : MatrixSweepConfig) (args : Args) (env : Environ)
    (dir : Dir C) : Option (Nat × Sweep C) :=
  match restricted cfg args with
  | none     => some (2, ⟨dir, []⟩)
  | some cfg =>
    if env.vllmBaseUrl = [] then some (2, ⟨dir, []⟩)
    else do
      let pending ← planned b.codec dir cfg.toMatrixSpec args
      let refused ← refusal b.source cfg args env pending
      match refused with
      | some code => pure (code, ⟨dir, []⟩)
      | none      =>
        let s ← sweep b sidecars dir cfg.toMatrixSpec args
        pure (finish b sidecars s)

end RunMatrix
end GoodputLab
