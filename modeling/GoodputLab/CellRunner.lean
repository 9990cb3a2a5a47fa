import GoodputLab.Base.OrdDict
import GoodputLab.CellSchema
import GoodputLab.Pool
import GoodputLab.Workloads
/-!
# CellRunner — execute one cell (`bench/cell_runner.py`)

A cell is its trace, replayed and measured.  What the outside world does is in `Bench`: the random source, what each
replay returns or raises, and the JSON codec of a result file.  A result directory maps file names to contents.
-/
namespace GoodputLab

/-! ## Metrics -/

structure CellMetrics where
  meanTtftMs  : ℚ
  p95TtftMs   : ℚ
  meanItlMs   : ℚ
  successRate : ℚ

def meanOrZero (values : List ℚ) : ℚ := if values.isEmpty then 0 else values.sum / values.length

def percentile (values : List ℚ) (pct : ℚ) : ℚ :=
  match values with
  | []  => 0
  | [v] => v
  | _   =>
    let s := values.insertionSort (· ≤ ·)
    let k : ℚ := (s.length - 1 : Int) * pct
    let f := (truncate k).toNat
    let c := min (f + 1) (s.length - 1)
    if f = c then s.getD f 0 else s.getD f 0 + (s.getD c 0 - s.getD f 0) * (k - f)

def itlValues : List Nat → List ℚ
  | a :: b :: ts => ((b : ℚ) - a) / 1000000 :: itlValues (b :: ts)
  | _            => []

/-- A share of a list, 0 of the empty list. -/
def rateOf {α : Type} (p : α → Bool) (l : List α) : ℚ := if l.isEmpty then 0 else (l.filter p).length / l.length

theorem rateOf_bounds {α : Type} (p : α → Bool) (l : List α) : 0 ≤ rateOf p l ∧ rateOf p l ≤ 1 := by
  unfold rateOf
  cases l with
  | nil => simp
  | cons a l =>
    have hpos : (0 : ℚ) < ((a :: l).length : ℚ) := by exact_mod_cast Nat.succ_pos l.length
    have hle : (((a :: l).filter p).length : ℚ) ≤ ((a :: l).length : ℚ) := by
      exact_mod_cast List.length_filter_le p (a :: l)
    exact ⟨div_nonneg (Nat.cast_nonneg _) (le_of_lt hpos), (div_le_one hpos).2 hle⟩

def aggregateMetrics (telemetries : List RequestTelemetry) : CellMetrics :=
  let successes := telemetries.filter (fun t => t.statusCode = 200)
  let ttftValues := successes.filterMap (fun t => t.ttftMs)
  let itl := successes.flatMap (fun t => itlValues t.perTokenTsNs)
  ⟨meanOrZero ttftValues, percentile ttftValues (95 / 100), meanOrZero itl,
    rateOf (fun t => t.statusCode = 200) telemetries⟩

/-! ## Trace building -/

theorem CellSpec.total_pos (spec : CellSpec) : 0 < spec.nWarmup + spec.nMeasure := by
  have := spec.measureGe
  omega

def cellDurationS (spec : CellSpec) : ℚ :=
  max 1 (((spec.nWarmup + spec.nMeasure : Nat) : ℚ) / max (spec.rateRps : ℚ) (1 / 1000000))

def chatCellConfig (spec : CellSpec) : ChatWorkloadConfig where
  nRequests := spec.nWarmup + spec.nMeasure
  seed := spec.seed
  ratePerSec := spec.rateRps
  durationS := cellDurationS spec
  nRequestsPos := spec.total_pos

def ragCellConfig (spec : CellSpec) : RagWorkloadConfig where
  nRequests := spec.nWarmup + spec.nMeasure
  seed := spec.seed
  ratePerSec := spec.rateRps
  durationS := cellDurationS spec
  nRequestsPos := spec.total_pos

def agenticCellConfig (spec : CellSpec) : AgenticWorkloadConfig where
  nRequests := spec.nWarmup + spec.nMeasure
  seed := spec.seed
  ratePerSec := spec.rateRps
  durationS := cellDurationS spec
  nRequestsPos := spec.total_pos

def mixToWorkload : Mix → WorkloadType
  | .chat    => .chat
  | .rag     => .rag
  | .agentic => .agentic

def buildTrace (source : Int → Nat → Nat → Nat) (spec : CellSpec) : Option Trace :=
  let draws : Draws := ⟨source spec.seed, 0⟩
  let trace := match spec.mix with
    | .chat    => chatGenerate (chatCellConfig spec) draws
    | .rag     => ragGenerate (ragCellConfig spec) draws
    | .agentic => agenticGenerate (agenticCellConfig spec) draws
  trace.map (fun r => { r.1 with workload := mixToWorkload spec.mix })

/-! ## The result directory -/

structure CellCodec (C : Type) where
  parse     : C → Option CellResult
  dump      : CellResult → C
  roundTrip : ∀ r, parse (dump r) = some r

abbrev Dir (C : Type) := OrdDict Text C

def jsonSuffix : Text := ".json".toList

def cellPath (cellId : Text) : Text := cellId ++ jsonSuffix

/-- The temporary name `write` goes through: `with_suffix(".json.tmp")`. -/
def tmpPath (cellId : Text) : Text := cellId ++ ".json.tmp".toList

namespace JsonCellSink

variable {C : Type}

def «exists» (dir : Dir C) (cellId : Text) : Bool := dir.contains (cellPath cellId)

def load (codec : CellCodec C) (dir : Dir C) (cellId : Text) : Option CellResult :=
  (dir.get? (cellPath cellId)).bind codec.parse

def write (codec : CellCodec C) (dir : Dir C) (result : CellResult) : Dir C :=
  ((dir.set (tmpPath result.cellId) (codec.dump result)).erase (tmpPath result.cellId)).set (cellPath result.cellId)
    (codec.dump result)

end JsonCellSink

/-! ## Running a cell -/

structure Measurement where
  telemetries : List RequestTelemetry
  thermal     : ThermalReading
  startedAt   : Int
  durationS   : ℚ
  durationGe  : 0 ≤ durationS

/-- The world a bench runs in: the random source, what the replay of a trace at the `n`-th cell visited returns or
raises, and the codec of the result files. -/
structure Bench (C : Type) where
  source : Int → Nat → Nat → Nat
  replay : Nat → Trace → Except String Measurement
  codec  : CellCodec C

namespace CellRunner

variable {C : Type}

def cacheHitRate (spec : CellSpec) (telemetries : List RequestTelemetry) : ℚ :=
  if spec.topology = .disaggTier then rateOf (fun t => t.routedPool = some Pool.tier.value) telemetries else 0

theorem cacheHitRate_bounds (spec : CellSpec) (telemetries : List RequestTelemetry) :
    0 ≤ cacheHitRate spec telemetries ∧ cacheHitRate spec telemetries ≤ 1 := by
  unfold cacheHitRate
  split
  · exact rateOf_bounds _ _
  · exact ⟨le_refl _, zero_le_one⟩

def cellResult (spec : CellSpec) (m : Measurement) : CellResult :=
  let metrics := aggregateMetrics m.telemetries
  { cellId := spec.cellId, topology := spec.topology, model := spec.model, rateRps := spec.rateRps, mix := spec.mix,
    nWarmup := spec.nWarmup, nMeasure := spec.nMeasure, seed := spec.seed, meanTtftMs := metrics.meanTtftMs,
    p95TtftMs := metrics.p95TtftMs, meanItlMs := metrics.meanItlMs, successRate := metrics.successRate,
    cacheHitRate := cacheHitRate spec m.telemetries, reconcilePasses := 99 / 100 ≤ metrics.successRate,
    thermal := m.thermal, startedAt := m.startedAt, durationS := m.durationS, notes := [],
    successBounds := rateOf_bounds _ _, cacheHitBounds := cacheHitRate_bounds _ _, durationGe := m.durationGe }

def execute (b : Bench C) (n : Nat) (dir : Dir C) (spec : CellSpec) : Except String CellResult × Dir C :=
  match buildTrace b.source spec with
  | none       => (.error "trace generation raised", dir)
  | some trace =>
    match b.replay n trace with
    | .error e => (.error e, dir)
    | .ok m    => (.ok (cellResult spec m), JsonCellSink.write b.codec dir (cellResult spec m))

/-- What `run_cell` did: returned the result on disk, or executed the cell. -/
inductive CellRun
  | loaded (result : CellResult)
  | executed (outcome : Except String CellResult)

def CellRun.outcome : CellRun → Except String CellResult
  | .loaded r   => .ok r
  | .executed o => o

/-- Skip the cell if a valid JSON exists; a corrupt one is executed again. -/
def runCell (b : Bench C) (n : Nat) (dir : Dir C) (spec : CellSpec) : CellRun × Dir C :=
  if JsonCellSink.exists dir spec.cellId then
    match JsonCellSink.load b.codec dir spec.cellId with
    | some r => (.loaded r, dir)
    | none   => (.executed (execute b n dir spec).1, (execute b n dir spec).2)
  else (.executed (execute b n dir spec).1, (execute b n dir spec).2)

end CellRunner
end GoodputLab
