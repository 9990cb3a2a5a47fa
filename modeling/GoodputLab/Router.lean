import GoodputLab.Base.OrdDict
import GoodputLab.Base.LeastBy
import GoodputLab.Base.Runs
import GoodputLab.Pool
import GoodputLab.Trace
/-!
# Router — the SLO-aware cache-aware router (`control/router.py`)

`route` chooses the lowest-depth admissible pool, looks the prompt's prefix up under that pool's salt, and returns the
cached pool while it still admits the request.  The hash is a parameter (`sha256Hex`), and so is the arithmetic of the
admission percentages (`FloatArith`).
-/
namespace GoodputLab

open FloatArith

/-- Admission control: the percentage of its capacity a pool's queue must stay under, and whether interactive requests
pass a saturated pool. -/
structure AdmissionPolicy (F : Type) [FloatArith F] where
  headroomPct       : F
  interactiveBypass : Bool
  headroomGe        : le (ofNat 0) headroomPct = true
  headroomLe        : le headroomPct (ofNat 100) = true

inductive RouteReason
  | noPoolsRegistered | cacheHit | allPoolsFull | loadBalance
deriving DecidableEq, Repr

structure PoolDecision where
  pool       : Pool
  admitted   : Bool
  reason     : RouteReason
  prefixHash : Option Text
deriving DecidableEq

/-- The cache key: the first 16 hexadecimal digits of the hash of the salt and the prompt's first 256 characters. -/
def prefixKey (sha256Hex : List UInt8 → Text) (spec : RequestSpec) (salt : List UInt8) (prefixChars : Nat := 256) :
    Text :=
  (sha256Hex (salt ++ Text.utf8 (spec.promptText.take prefixChars))).take 16

/-- The router: its configuration, the prefix cache (oldest entry first), the pool registry and, when a metrics
registry is wired, the count of cold lookups. -/
structure Router (F : Type) [FloatArith F] where
  policy      : AdmissionPolicy F
  cacheMax    : Int
  saltForPool : Pool → List UInt8
  prefixCache : OrdDict Text Pool
  pools       : OrdDict Pool PoolState
  noHistory   : Option Nat

namespace Router

variable {F : Type} [FloatArith F]

def fresh (policy : AdmissionPolicy F) (cacheMax : Int) (saltForPool : Pool → List UInt8) (metrics : Bool) :
    Router F :=
  ⟨policy, cacheMax, saltForPool, .empty, .empty, if metrics then some 0 else none⟩

/-! ## The pool registry -/

def registerPool (r : Router F) (state : PoolState) : Router F := { r with pools := r.pools.set state.pool state }

def updateDepth (r : Router F) (pool : Pool) (depth : Int) : Router F :=
  { r with pools := r.pools.modify pool (fun s => { s with queueDepth := (max 0 depth).toNat }) }

/-! ## Routing -/

def admissible (r : Router F) (spec : RequestSpec) (state : PoolState) : Bool :=
  if !state.healthy then false
  else if lt (state.headroomUsedPct F) r.policy.headroomPct then true
  else decide (spec.sloClass = .interactive) && r.policy.interactiveBypass

/-- The order pools are tried in: by depth, then by name. -/
def depthKey (p : Pool × PoolState) : ℕ ×ₗ Text := toLex (p.2.queueDepth, p.2.pool.value)

def selectAdmissible (r : Router F) (spec : RequestSpec) : Option Pool :=
  let eligible := r.pools.items.filter (fun p => p.2.healthy)
  if eligible.isEmpty then none
  else
    let tier := if spec.workload = .rag then
        leastBy (fun p => p.2.queueDepth) (fun p => r.admissible spec p.2) (eligible.filter (fun p => p.1 = .tier))
      else none
    match tier with
    | some p => some p.1
    | none   => (leastBy depthKey (fun p => r.admissible spec p.2) eligible).map Prod.fst

/-- The key a request is looked up under: the chosen pool's salt, a provisional one when no pool admits it. -/
def lookupKey (sha256Hex : List UInt8 → Text) (r : Router F) (spec : RequestSpec) : Text :=
  match r.selectAdmissible spec with
  | some p => prefixKey sha256Hex spec (r.saltForPool p)
  | none   => prefixKey sha256Hex spec (r.saltForPool .colocated)

/-- No cached pool took the request: count a cold lookup, then record and return the chosen pool, if there is one. -/
def loadBalance (r : Router F) (key : Text) (chosen : Option Pool) : PoolDecision × Router F :=
  let r := { r with noHistory := r.noHistory.map (· + 1) }
  match chosen with
  | none   => (⟨.colocated, false, .allPoolsFull, some key⟩, r)
  | some p =>
    let cache := r.prefixCache.set key p
    let cache := if r.cacheMax < cache.size then cache.popFirst else cache
    (⟨p, true, .loadBalance, some key⟩, { r with prefixCache := cache })

def route (sha256Hex : List UInt8 → Text) (r : Router F) (spec : RequestSpec) : PoolDecision × Router F :=
  if r.pools.items.isEmpty then (⟨.colocated, false, .noPoolsRegistered, none⟩, r)
  else
    let chosen := r.selectAdmissible spec
    let key := r.lookupKey sha256Hex spec
    match r.prefixCache.get? key with
    | none        => r.loadBalance key chosen
    | some cached =>
      let r := { r with prefixCache := r.prefixCache.moveToEnd key }
      match r.pools.get? cached with
      | some state =>
        if state.healthy && r.admissible spec state then (⟨cached, true, .cacheHit, some key⟩, r)
        else r.loadBalance key chosen
      | none => r.loadBalance key chosen

/-! ## Runs -/

inductive Op
  | registerPool (state : PoolState)
  | updateDepth (pool : Pool) (depth : Int)
  | route (spec : RequestSpec)

def step (sha256Hex : List UInt8 → Text) (r : Router F) : Op → Router F
  | .registerPool state     => r.registerPool state
  | .updateDepth pool depth => r.updateDepth pool depth
  | .route spec             => (r.route sha256Hex spec).2

def after (sha256Hex : List UInt8 → Text) (r : Router F) (ops : List Op) : Router F :=
  Runs.run (step sha256Hex) r ops

end Router
end GoodputLab
