import GoodputLab.Base.OrdDict
import GoodputLab.Base.Runs
import GoodputLab.Base.Text
/-!
# Lmcache — the mock KV tier (`kv/lmcache_client.py`)

An LRU store of sizes by prefix hash with its counters.  A lookup of a stored hash promotes it and then draws whether the
caller sees the hit; the draws are an arbitrary stream.  Floats are exact rationals.
-/
namespace GoodputLab

structure KvStats where
  tier          : Text
  hitRate       : ℚ
  hits          : Int
  misses        : Int
  capacityBytes : Int
  usedBytes     : Int
  evictionCount : Int
  hitRateGe     : 0 ≤ hitRate
  hitRateLe     : hitRate ≤ 1
  countsGe      : 0 ≤ hits ∧ 0 ≤ misses ∧ 0 ≤ capacityBytes ∧ 0 ≤ usedBytes ∧ 0 ≤ evictionCount

def KvStats.make? (tier : Text) (hitRate : ℚ) (hits misses capacityBytes usedBytes evictionCount : Int) :
    Option KvStats :=
  if h : (0 ≤ hitRate ∧ hitRate ≤ 1) ∧
      0 ≤ hits ∧ 0 ≤ misses ∧ 0 ≤ capacityBytes ∧ 0 ≤ usedBytes ∧ 0 ≤ evictionCount then
    some ⟨tier, hitRate, hits, misses, capacityBytes, usedBytes, evictionCount, h.1.1, h.1.2, h.2⟩
  else none

structure MockLmcacheClient where
  capacity  : Int
  hitProb   : ℚ
  random    : Nat → ℚ
  drawn     : Nat
  entries   : OrdDict Text Int
  hits      : Nat
  misses    : Nat
  evictions : Nat
  usedBytes : Int
  tierName  : Text

namespace MockLmcacheClient

def fresh (capacity : Int) (hitProbability : ℚ) (random : Nat → ℚ) : MockLmcacheClient :=
  ⟨capacity, hitProbability, random, 0, OrdDict.empty, 0, 0, 0, 0, "mock-lmcache".toList⟩

def lookup (c : MockLmcacheClient) (prefixHash : Text) : Bool × MockLmcacheClient :=
  if c.entries.contains prefixHash then
    let draw := c.random c.drawn
    let c := { c with entries := c.entries.moveToEnd prefixHash, drawn := c.drawn + 1 }
    if draw < c.hitProb then (true, { c with hits := c.hits + 1 }) else (false, { c with misses := c.misses + 1 })
  else (false, { c with misses := c.misses + 1 })

def stats (c : MockLmcacheClient) : Option KvStats :=
  let total := c.hits + c.misses
  let rate : ℚ := if 0 < total then c.hits / total else 0
  KvStats.make? c.tierName rate c.hits c.misses (c.capacity * 4096) c.usedBytes c.evictions

def evict (c : MockLmcacheClient) (prefixHash : Text) : MockLmcacheClient :=
  match c.entries.get? prefixHash with
  | none      => c
  | some size => { c with entries := c.entries.erase prefixHash, usedBytes := c.usedBytes - size }

/-- The `while` loop of `store`: the oldest entry goes while the store is full, and an empty store raises.  Every turn but
the last takes an entry, so one turn more than there are entries is enough. -/
def makeRoom : Nat → MockLmcacheClient → Except String MockLmcacheClient
  | 0, c     => .ok c
  | n + 1, c =>
    if c.capacity ≤ c.entries.size then
      match c.entries.items with
      | []                => .error "KeyError: 'dictionary is empty'"
      | (_, oldSize) :: _ =>
        makeRoom n { c with
          entries   := c.entries.popFirst
          usedBytes := c.usedBytes - oldSize
          evictions := c.evictions + 1 }
    else .ok c

def store (c : MockLmcacheClient) (prefixHash : Text) (sizeBytes : Int) : Except String MockLmcacheClient :=
  if c.entries.contains prefixHash then .ok { c with entries := c.entries.moveToEnd prefixHash }
  else
    match makeRoom (c.entries.size + 1) c with
    | .error e => .error e
    | .ok c    => .ok { c with entries := c.entries.set prefixHash sizeBytes, usedBytes := c.usedBytes + sizeBytes }

inductive Op
  | store (prefixHash : Text) (sizeBytes : Int)
  | lookup (prefixHash : Text)
  | evict (prefixHash : Text)

/-- One call; a call that raises changes nothing here. -/
def apply (c : MockLmcacheClient) : Op → Except String MockLmcacheClient
  | .store k size => c.store k size
  | .lookup k     => .ok (c.lookup k).2
  | .evict k      => .ok (c.evict k)

def step (c : MockLmcacheClient) (op : Op) : MockLmcacheClient :=
  match c.apply op with
  | .ok c'   => c'
  | .error _ => c

end MockLmcacheClient
end GoodputLab
