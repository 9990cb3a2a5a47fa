import GoodputLab.Base.OrdDict
import GoodputLab.Base.Rounding
import GoodputLab.Pid
import GoodputLab.Pool
/-!
# Autoscaler — one PID per pool, drain and dwell gates (`control/autoscaler.py`)

A tick walks the topology in its order: each pool's PID output becomes an integer delta, which the replica bounds
clamp, the drain gate and the dwell gate may suppress, and which is then recorded as the pool's last flip.  Controllers
are held by reference, so two pools may share one.
-/
namespace GoodputLab

def thrashWindowS : ℚ := 240

structure PoolTopology where
  pool             : Pool
  replicas         : Int
  targetQueueDepth : Int
  replicasGe       : 0 ≤ replicas
  targetGe         : 0 ≤ targetQueueDepth

inductive ScaleReason
  | noController | drainWait | dwellWait | queueHigh | queueLow | stable
deriving DecidableEq, Repr

structure AutoscalerDecision where
  pool    : Pool
  delta   : Int
  reason  : ScaleReason
  drained : Bool
deriving DecidableEq

structure AutoscalerConfig where
  minReplicas : Int
  maxReplicas : Int
  stepSize    : Int
  minDwellS   : ℚ
  minGe       : 0 ≤ minReplicas
  maxGe       : minReplicas ≤ maxReplicas
  stepGe      : 1 ≤ stepSize
  dwellGe     : 0 ≤ minDwellS

/-- The autoscaler: its configuration, each pool's controller as a reference into `pids`, the time of each pool's last
flip and, when a metrics registry is wired, the thrash count. -/
structure PoolAutoscaler where
  config      : AutoscalerConfig
  controllers : OrdDict Pool Nat
  pids        : Nat → PidController
  lastFlipTs  : OrdDict Pool ℚ
  thrash      : Option Nat

structure TickArgs where
  now         : ℚ
  topology    : OrdDict Pool PoolTopology
  queueDepths : OrdDict Pool Int
  inFlight    : OrdDict Pool Nat
  dt          : ℚ

def TickArgs.inFlightOf (t : TickArgs) (pool : Pool) : Nat := (t.inFlight.get? pool).getD 0

namespace PoolAutoscaler

def fresh (config : AutoscalerConfig) (controllers : OrdDict Pool Nat) (pids : Nat → PidController) (metrics : Bool) :
    PoolAutoscaler :=
  ⟨config, controllers, pids, .empty, if metrics then some 0 else none⟩

def mapOutput (c : PidController) (raw : ℚ) (step : Int) : Int :=
  let span := c.outMax - c.outMin
  if span ≤ 0 then 0
  else
    let normalized := (raw - c.outMin) / span * 2 - 1
    roundHalfEven (normalized * step)

def clampDelta (config : AutoscalerConfig) (replicas delta : Int) : Int :=
  let wouldBe := replicas + delta
  let delta := if config.maxReplicas < wouldBe then config.maxReplicas - replicas else delta
  if wouldBe < config.minReplicas then config.minReplicas - replicas else delta

def flippedWithin (a : PoolAutoscaler) (window : ℚ) (pool : Pool) (now : ℚ) : Bool :=
  match a.lastFlipTs.get? pool with
  | none      => false
  | some last => now - last < window

def recordFlip (a : PoolAutoscaler) (pool : Pool) (now : ℚ) : PoolAutoscaler :=
  { a with
    thrash := a.thrash.map (fun n => if a.flippedWithin thrashWindowS pool now then n + 1 else n)
    lastFlipTs := a.lastFlipTs.set pool now }

def tickPool (t : TickArgs) (a : PoolAutoscaler) (pool : Pool) (topo : PoolTopology) :
    Except String (AutoscalerDecision × PoolAutoscaler) :=
  match a.controllers.get? pool with
  | none     => .ok (⟨pool, 0, .noController, false⟩, a)
  | some ref =>
    let depth := (t.queueDepths.get? pool).getD 0
    let error : ℚ := (depth - topo.targetQueueDepth : Int)
    match (a.pids ref).update error t.dt with
    | .error e      => .error e
    | .ok (raw, c) =>
      let a := { a with pids := Function.update a.pids ref c }
      let delta := clampDelta a.config topo.replicas (mapOutput c raw a.config.stepSize)
      if delta < 0 ∧ 0 < t.inFlightOf pool then .ok (⟨pool, 0, .drainWait, false⟩, a)
      else if delta ≠ 0 ∧ 0 < a.config.minDwellS ∧ a.flippedWithin a.config.minDwellS pool t.now = true then
        .ok (⟨pool, 0, .dwellWait, false⟩, a)
      else
        let reason := if 0 < delta then .queueHigh else if delta < 0 then .queueLow else .stable
        .ok (⟨pool, delta, reason, delta < 0⟩, if delta ≠ 0 then a.recordFlip pool t.now else a)

def tickPools (t : TickArgs) : List (Pool × PoolTopology) → PoolAutoscaler →
    Except String (List AutoscalerDecision × PoolAutoscaler)
  | [], a                  => .ok ([], a)
  | (pool, topo) :: rest, a => do
    let (d, a) ← tickPool t a pool topo
    let (ds, a) ← tickPools t rest a
    pure (d :: ds, a)

def tick (a : PoolAutoscaler) (t : TickArgs) : Except String (List AutoscalerDecision × PoolAutoscaler) :=
  tickPools t t.topology.items a

end PoolAutoscaler
end GoodputLab
