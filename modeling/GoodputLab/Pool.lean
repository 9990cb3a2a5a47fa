import GoodputLab.Base.Text
/-!
# Pool — the inference pools and their live state (`control/pool.py`)
-/
namespace GoodputLab

/-- The float arithmetic the router's percentages are computed in: `int / int`, `*` and the comparisons.  Nothing is
assumed of it, so what is proved of the router holds in rounded doubles as in exact rationals. -/
class FloatArith (F : Type) where
  ofNat   : Nat → F
  trueDiv : Nat → Nat → F
  mul     : F → F → F
  le      : F → F → Bool
  lt      : F → F → Bool

instance : FloatArith ℚ where
  ofNat n := n
  trueDiv a b := a / b
  mul := (· * ·)
  le a b := a ≤ b
  lt a b := a < b

inductive Pool
  | prefill | decode | colocated | tier
deriving DecidableEq, Repr

def Pool.value : Pool → Text
  | .prefill   => "prefill".toList
  | .decode    => "decode".toList
  | .colocated => "colocated".toList
  | .tier      => "tier".toList

structure PoolState where
  pool        : Pool
  queueDepth  : Nat
  capacity    : Nat
  healthy     : Bool
  capacityPos : 0 < capacity
deriving DecidableEq

def PoolState.headroomUsedPct (F : Type) [FloatArith F] (s : PoolState) : F :=
  if s.capacity ≤ 0 then FloatArith.ofNat 100
  else FloatArith.mul (FloatArith.trueDiv s.queueDepth s.capacity) (FloatArith.ofNat 100)

end GoodputLab
