import GoodputLab.Base.Text
/-!
# CellSchema — the cell JSON contract (`bench/schema/cell_schema.py`)

A cell is one (topology, model, rate, mix) point.  Its seed defaults to a 32-bit hash of the point; its identifier names
its result file.
-/
namespace GoodputLab

inductive Topology
  | colocated | chunked | disagg | disaggTier
deriving DecidableEq, Repr

def Topology.value : Topology → Text
  | .colocated  => "colocated".toList
  | .chunked    => "chunked".toList
  | .disagg     => "disagg".toList
  | .disaggTier => "disagg_tier".toList

inductive Model
  | qwen3_1_7b | qwen2_5_7b | qwen3_30b
deriving DecidableEq, Repr

def Model.value : Model → Text
  | .qwen3_1_7b => "qwen3-1.7b".toList
  | .qwen2_5_7b => "qwen2.5-7b".toList
  | .qwen3_30b  => "qwen3-30b".toList

inductive Mix
  | chat | rag | agentic
deriving DecidableEq, Repr

def Mix.value : Mix → Text
  | .chat    => "chat".toList
  | .rag     => "rag".toList
  | .agentic => "agentic".toList

def Topology.all : List Topology := [.colocated, .chunked, .disagg, .disaggTier]

def Model.all : List Model := [.qwen3_1_7b, .qwen2_5_7b, .qwen3_30b]

def Mix.all : List Mix := [.chat, .rag, .agentic]

def deriveSeed (topology : Topology) (model : Model) (rateRps : Nat) (mix : Mix) : Nat :=
  let s := topology.value ++ ['|'] ++ model.value ++ ['|'] ++ Text.ofNat rateRps ++ ['|'] ++ mix.value
  s.foldl (fun h ch => (h * 131 + ch.toNat) &&& 0xFFFFFFFF) 0

structure CellSpec where
  topology   : Topology
  model      : Model
  rateRps    : Nat
  mix        : Mix
  nWarmup    : Nat
  nMeasure   : Nat
  seed       : Nat
  rateBounds : 1 ≤ rateRps ∧ rateRps ≤ 64
  measureGe  : 1 ≤ nMeasure
deriving DecidableEq

theorem oneRps_bounds : 1 ≤ 1 ∧ 1 ≤ 64 := by decide

theorem thirty_measured : 1 ≤ 30 := by decide

/-- The constructor: bounds checked, and a seed of 0 replaced by the derived one. -/
def CellSpec.make? (topology : Topology) (model : Model) (rateRps : Int) (mix : Mix) (nWarmup nMeasure : Int)
    (seed : Nat) : Option CellSpec :=
  if h : (1 ≤ rateRps ∧ rateRps ≤ 64) ∧ 0 ≤ nWarmup ∧ 1 ≤ nMeasure then
    some ⟨topology, model, rateRps.toNat, mix, nWarmup.toNat, nMeasure.toNat,
      if seed = 0 then deriveSeed topology model rateRps.toNat mix else seed, by omega, by omega⟩
  else none

def CellSpec.cellId (spec : CellSpec) : Text :=
  spec.topology.value ++ "__".toList ++ spec.model.value ++ "__rate-".toList ++ Text.ofNat spec.rateRps ++
    "__".toList ++ spec.mix.value

/-- The warning threshold is a field like the others, which a reading may set. -/
structure ThermalReading where
  gpuTempC     : Nat
  gpuUtilPct   : Nat
  gpuMemUsedMb : Nat
  thermalWarnC : Int := 80
  tempLe       : gpuTempC ≤ 120
  utilLe       : gpuUtilPct ≤ 100
deriving DecidableEq

def ThermalReading.isOverheating (t : ThermalReading) : Bool := decide (t.thermalWarnC < t.gpuTempC)

/-- One measured cell; `startedAt` is the instant in microseconds. -/
structure CellResult where
  cellId          : Text
  topology        : Topology
  model           : Model
  rateRps         : Int
  mix             : Mix
  nWarmup         : Int
  nMeasure        : Int
  seed            : Int
  meanTtftMs      : ℚ
  p95TtftMs       : ℚ
  meanItlMs       : ℚ
  successRate     : ℚ
  cacheHitRate    : ℚ
  reconcilePasses : Bool
  thermal         : ThermalReading
  startedAt       : Int
  durationS       : ℚ
  notes           : List Text
  successBounds   : 0 ≤ successRate ∧ successRate ≤ 1
  cacheHitBounds  : 0 ≤ cacheHitRate ∧ cacheHitRate ≤ 1
  durationGe      : 0 ≤ durationS
deriving DecidableEq

def CellResult.hasThermalWarning (r : CellResult) : Bool := r.thermal.isOverheating

end GoodputLab
