import GoodputLab.Base.Recency
import GoodputLab.RouterCache
/-!
# RouterLru — the prefix cache is a least-recently-used list

A routing call touches its lookup key when it is admitted or the key is cached already.  Whichever way the call goes, a
hit, a hit on a pool that is not open, a miss or a rejection, the cached keys take that touch as a least-recently-used
list does (`route_keys`), so over a run they are the keys touched last (`lru_over_runs`), each mapped to the pool of the
last load-balance decision since the key was inserted.
-/
namespace GoodputLab
namespace Router

open FloatArith

variable {F : Type} [FloatArith F]

/-! ## The calls of a run -/

/-- A routing call: whether a pool is registered, the lookup key, whether it has an entry, and the decision. -/
structure Call where
  anyPool  : Bool
  key      : Text
  cached   : Bool
  decision : PoolDecision

def call (sha256Hex : List UInt8 → Text) (r : Router F) : Op → List Call
  | .registerPool _  => []
  | .updateDepth _ _ => []
  | .route spec      =>
    [⟨!r.pools.items.isEmpty, r.lookupKey sha256Hex spec, r.prefixCache.contains (r.lookupKey sha256Hex spec),
      (r.route sha256Hex spec).1⟩]

def calls (sha256Hex : List UInt8 → Text) (r : Router F) (ops : List Op) : List Call :=
  Runs.log (step sha256Hex) (call sha256Hex) r ops

def Call.touches (c : Call) : Bool := c.decision.admitted || c.cached

def touchedKeys (cs : List Call) : List Text := (cs.filter Call.touches).map Call.key

/-- The call makes an entry for the key where there was none. -/
def Call.Inserts (c : Call) (key : Text) : Prop :=
  c.key = key ∧ c.cached = false ∧ c.decision.reason = .loadBalance

/-- The calls from the last insertion of the key on. -/
def SinceInserted (cs : List Call) (key : Text) (since : List Call) : Prop :=
  ∃ before c later, cs = before ++ since ∧ since = c :: later ∧ c.Inserts key ∧ ∀ d ∈ later, ¬ d.Inserts key

/-- The pool of the last load-balance decision made with the key. -/
def lastBalanced (cs : List Call) (key : Text) : Option Pool :=
  (cs.reverse.find? (fun c => decide (c.decision.reason = .loadBalance ∧ c.key = key))).map (fun c => c.decision.pool)

theorem lastBalanced_snoc (cs : List Call) (c : Call) (key : Text) :
    lastBalanced (cs ++ [c]) key =
      if c.decision.reason = .loadBalance ∧ c.key = key then some c.decision.pool else lastBalanced cs key := by
  unfold lastBalanced
  rw [List.reverse_append, List.reverse_singleton, List.singleton_append, List.find?_cons]
  by_cases h : c.decision.reason = .loadBalance ∧ c.key = key <;> simp [h]

theorem SinceInserted.snoc {cs since : List Call} {key : Text} (h : SinceInserted cs key since) {c : Call}
    (hc : ¬ c.Inserts key) : SinceInserted (cs ++ [c]) key (since ++ [c]) := by
  obtain ⟨before, d, later, rfl, rfl, hd, hlater⟩ := h
  refine ⟨before, d, later ++ [c], by rw [List.append_assoc], rfl, hd, fun e he => ?_⟩
  rcases List.mem_append.1 he with he | he
  · exact hlater e he
  · rw [List.mem_singleton.1 he]
    exact hc

/-! ## The order of the cached keys -/

theorem contains_iff_mem_keys (cache : OrdDict Text Pool) (key : Text) : cache.contains key = true ↔ key ∈ cache.keys := by
  rw [OrdDict.contains_iff, OrdDict.mem_keys]

/-- Recording a pool under a key of a cache that is not over its size. -/
theorem keys_record (cache : OrdDict Text Pool) (key : Text) (p : Pool) {n : Nat} (hsize : cache.keys.length ≤ n) :
    (if (n : Int) < (cache.set key p).size then (cache.set key p).popFirst else cache.set key p).keys =
      if key ∈ cache.keys then cache.keys else (cache.keys ++ [key]).rtake n := by
  have hset := OrdDict.keys_set cache key p
  rw [OrdDict.size_eq_length_keys]
  by_cases hk : key ∈ cache.keys
  · rw [if_pos hk] at hset ⊢
    rw [if_neg (by rw [hset]; omega), hset]
  · rw [if_neg hk] at hset ⊢
    have hlen : (cache.set key p).keys.length = cache.keys.length + 1 := by
      rw [hset, List.length_append, List.length_singleton]
    by_cases hfull : cache.keys.length = n
    · rw [if_pos (by omega), OrdDict.keys_popFirst, ← hset, List.rtake, hlen, hfull, Nat.add_sub_cancel_left,
        List.drop_one]
    · rw [if_neg (by omega), ← hset, Recency.rtake_of_le (by omega)]

theorem keys_touched (r : Router F) (key : Text) :
    (r.touched key).prefixCache.keys =
      if key ∈ r.prefixCache.keys then r.prefixCache.keys.filter (fun j => j ≠ key) ++ [key] else r.prefixCache.keys := by
  by_cases hk : key ∈ r.prefixCache.keys
  · rw [if_pos hk]
    exact OrdDict.keys_moveToEnd hk
  · rw [if_neg hk, touched, OrdDict.moveToEnd, (OrdDict.get?_eq_none _ _).2 hk]

/-- What the cache of a run is like: no larger than its size, and empty while no pool is registered. -/
structure Sized (n : Nat) (r : Router F) : Prop where
  cacheMax   : r.cacheMax = n
  size       : r.prefixCache.keys.length ≤ n
  unrecorded : r.pools.items = [] → r.prefixCache.keys = []

/-- **A call's touch on the cached keys is that of a least-recently-used list.** -/
theorem route_keys (sha256Hex : List UInt8 → Text) {n : Nat} {r : Router F} (hr : Sized n r) (spec : RequestSpec) :
    (r.route sha256Hex spec).2.prefixCache.keys =
      if (r.route sha256Hex spec).1.admitted || r.prefixCache.contains (r.lookupKey sha256Hex spec) then
        Recency.touch n r.prefixCache.keys (r.lookupKey sha256Hex spec)
      else r.prefixCache.keys := by
  rcases route_eq sha256Hex r spec with ⟨hemp, hd⟩ | ⟨q, t, hc, -, hd⟩ | ⟨-, hd⟩
  · have hnone : ¬ r.prefixCache.contains (r.lookupKey sha256Hex spec) = true := by
      rw [contains_iff_mem_keys, hr.unrecorded hemp]
      exact List.not_mem_nil
    rw [hd]
    simp [hnone]
  · have hk : r.lookupKey sha256Hex spec ∈ r.prefixCache.keys := (OrdDict.mem_keys _ _).2 ⟨q, hc⟩
    rw [hd, keys_touched, if_pos hk, Recency.touch, if_pos hk]
    simp
  · rw [hd]
    generalize r.lookupKey sha256Hex spec = key
    cases r.selectAdmissible spec with
    | none =>
      -- rejected: only a key that is there moves
      show (r.touched key).prefixCache.keys = _
      rw [keys_touched, Recency.touch]
      by_cases hk : key ∈ r.prefixCache.keys
      · simp [hk, (contains_iff_mem_keys _ _).2 hk]
      · have hno : ¬ r.prefixCache.contains key = true := fun h => hk ((contains_iff_mem_keys _ _).1 h)
        simp [hk, hno, loadBalance]
    | some p =>
      have htouched := keys_touched r key
      have hsize : (r.touched key).prefixCache.keys.length ≤ n := by
        rw [htouched]
        split
        · rename_i hk
          have hnodup : r.prefixCache.keys.Nodup := r.prefixCache.nodup
          rw [Recency.length_renewed hnodup hk]
          exact hr.size
        · exact hr.size
      have hrecord : ((r.touched key).loadBalance key (some p)).2.prefixCache.keys =
          if key ∈ (r.touched key).prefixCache.keys then (r.touched key).prefixCache.keys
          else ((r.touched key).prefixCache.keys ++ [key]).rtake n := by
        rw [← keys_record (r.touched key).prefixCache key p hsize, ← hr.cacheMax]
        rfl
      rw [hrecord, htouched, Recency.touch]
      by_cases hk : key ∈ r.prefixCache.keys <;> simp [hk, loadBalance]

/-! ## Runs -/

theorem cacheMax_step (sha256Hex : List UInt8 → Text) (r : Router F) (op : Op) :
    (step sha256Hex r op).cacheMax = r.cacheMax := by
  cases op with
  | registerPool state => rfl
  | updateDepth pool depth => rfl
  | route spec =>
    show (r.route sha256Hex spec).2.cacheMax = _
    rcases route_eq sha256Hex r spec with ⟨-, hd⟩ | ⟨q, t, -, -, hd⟩ | ⟨-, hd⟩
    · rw [hd]
    · rw [hd]
      rfl
    · rw [hd]
      cases r.selectAdmissible spec <;> rfl

/-- A pool that is registered stays so. -/
theorem pools_ne_nil_step (sha256Hex : List UInt8 → Text) (r : Router F) (op : Op) (h : r.pools.items ≠ []) :
    (step sha256Hex r op).pools.items ≠ [] := by
  cases op with
  | registerPool state =>
    have hkey : state.pool ∈ (r.pools.set state.pool state).keys :=
      (OrdDict.mem_keys _ _).2 ⟨state, OrdDict.get?_set_self _ _ _⟩
    intro hnil
    rw [OrdDict.keys, show (r.pools.set state.pool state).items = [] from hnil] at hkey
    cases hkey
  | updateDepth pool depth => exact fun hnil => h (List.map_eq_nil_iff.1 hnil)
  | route spec =>
    show (r.route sha256Hex spec).2.pools.items ≠ []
    rw [(route_config sha256Hex r spec).1]
    exact h

/-- What a router's cache is after the calls: the keys touched last, each with the pool recorded since its insertion. -/
structure IsLru (n : Nat) (r : Router F) (cs : List Call) : Prop where
  cacheMax   : r.cacheMax = n
  unrecorded : r.pools.items = [] → r.prefixCache.keys = []
  keys       : r.prefixCache.keys = Recency.recent n (touchedKeys cs)
  recorded   : ∀ key p, r.prefixCache.get? key = some p →
    ∃ since, SinceInserted cs key since ∧ lastBalanced since key = some p

theorem IsLru.sized {n : Nat} {r : Router F} {cs : List Call} (h : IsLru n r cs) : Sized n r :=
  ⟨h.cacheMax, by rw [h.keys]; exact Recency.length_recent_le n _, h.unrecorded⟩

theorem touchedKeys_snoc (cs : List Call) (c : Call) :
    touchedKeys (cs ++ [c]) = if c.touches then touchedKeys cs ++ [c.key] else touchedKeys cs := by
  rw [touchedKeys, List.filter_append, List.map_append]
  cases hc : c.touches <;> simp [hc, touchedKeys]

/-- A load-balance decision carries the lookup key. -/
theorem balanced_key (sha256Hex : List UInt8 → Text) (r : Router F) (spec : RequestSpec)
    (h : (r.route sha256Hex spec).1.reason = .loadBalance) :
    (r.route sha256Hex spec).1.prefixHash = some (r.lookupKey sha256Hex spec) := by
  rcases route_eq sha256Hex r spec with ⟨-, hd⟩ | ⟨q, t, -, -, hd⟩ | ⟨-, hd⟩
  · rw [hd] at h
    cases h
  · rw [hd] at h
    cases h
  · rw [hd] at h ⊢
    cases hsel : r.selectAdmissible spec with
    | none =>
      rw [hsel] at h
      cases h
    | some p => rfl

theorem recorded_call (sha256Hex : List UInt8 → Text) {n : Nat} {r : Router F} {cs : List Call} (h : IsLru n r cs)
    (spec : RequestSpec) (key : Text) (p : Pool) (hget : (r.route sha256Hex spec).2.prefixCache.get? key = some p) :
    ∃ since, SinceInserted (cs ++ r.call sha256Hex (.route spec)) key since ∧ lastBalanced since key = some p := by
  have hhash := balanced_key sha256Hex r spec
  rcases route_cache sha256Hex r spec key p hget with ⟨hd, -⟩ | ⟨hold, hkeep⟩
  · -- recorded by this call
    have hkey : r.lookupKey sha256Hex spec = key := by
      rw [hd] at hhash
      exact (Option.some.inj (hhash rfl)).symm
    rw [call, hkey, hd]
    cases hc : r.prefixCache.get? key with
    | none =>
      have hmiss : r.prefixCache.contains key = false := by rw [OrdDict.contains, hc]; rfl
      refine ⟨[⟨_, key, _, _⟩], ⟨cs, _, [], rfl, rfl, ⟨rfl, hmiss, rfl⟩, fun d hdmem => by cases hdmem⟩, ?_⟩
      simp [lastBalanced]
    | some q =>
      obtain ⟨since, hsince, -⟩ := h.recorded key q hc
      have hhit : r.prefixCache.contains key = true := by rw [OrdDict.contains, hc]; rfl
      refine ⟨_, hsince.snoc (fun hins => ?_), ?_⟩
      · rw [hhit] at hins
        cases hins.2.1
      · rw [lastBalanced_snoc, if_pos ⟨rfl, rfl⟩]
  · -- kept from before
    obtain ⟨since, hsince, hlast⟩ := h.recorded key p hold
    have hother : ¬ ((r.route sha256Hex spec).1.reason = .loadBalance ∧ r.lookupKey sha256Hex spec = key) := fun hr =>
      hkeep ⟨hr.1, hr.2 ▸ hhash hr.1⟩
    refine ⟨_, hsince.snoc (fun hins => hother ⟨hins.2.2, hins.1⟩), ?_⟩
    rw [lastBalanced_snoc, if_neg hother, hlast]

/-- An operation that is no routing call moves nothing of the cache. -/
theorem IsLru.kept {n : Nat} {r t : Router F} {cs : List Call} (h : IsLru n r cs) (hmax : t.cacheMax = r.cacheMax)
    (hcache : t.prefixCache = r.prefixCache) (hpools : t.pools.items = [] → r.pools.items = []) : IsLru n t (cs ++ []) := by
  rw [List.append_nil]
  refine ⟨hmax.trans h.cacheMax, fun hnil => ?_, ?_, ?_⟩
  · rw [hcache]
    exact h.unrecorded (hpools hnil)
  · rw [hcache]
    exact h.keys
  · rw [hcache]
    exact h.recorded

theorem isLru_step (sha256Hex : List UInt8 → Text) {n : Nat} {r : Router F} {cs : List Call} (h : IsLru n r cs) (op : Op) :
    IsLru n (step sha256Hex r op) (cs ++ r.call sha256Hex op) := by
  have hpools : (step sha256Hex r op).pools.items = [] → r.pools.items = [] := fun hnil =>
    by_contra fun hne => pools_ne_nil_step sha256Hex r op hne hnil
  cases op with
  | registerPool state => exact h.kept (cacheMax_step sha256Hex r _) rfl hpools
  | updateDepth pool depth => exact h.kept (cacheMax_step sha256Hex r _) rfl hpools
  | route spec =>
    refine ⟨(cacheMax_step sha256Hex r _).trans h.cacheMax, fun hnil => ?_, ?_, recorded_call sha256Hex h spec⟩
    · show (r.route sha256Hex spec).2.prefixCache.keys = []
      rw [route_unregistered sha256Hex (hpools hnil) spec]
      exact h.unrecorded (hpools hnil)
    · show (r.route sha256Hex spec).2.prefixCache.keys = _
      rw [route_keys sha256Hex h.sized spec, call, touchedKeys_snoc, h.keys]
      unfold Call.touches
      split
      · rw [Recency.recent_concat]
      · rfl

theorem isLru_fresh (policy : AdmissionPolicy F) (n : Nat) (salt : Pool → List UInt8) (metrics : Bool) :
    IsLru n (fresh policy n salt metrics) [] := by
  refine ⟨rfl, fun _ => rfl, ?_, fun key p h => ?_⟩
  · show [] = (List.dedup []).rtake n
    rw [List.dedup_nil, List.rtake_nil]
  · rw [fresh, OrdDict.get?_empty] at h
    cases h

/-- **The prefix cache over whole runs.**  After any calls to a fresh router with a cache of `n` entries, the cached keys,
oldest first, are the `n` keys touched last in the order of their last touches, and each is mapped to the pool of the last
load-balance decision made with it since it was inserted. -/
theorem lru_over_runs (sha256Hex : List UInt8 → Text) (policy : AdmissionPolicy F) (n : Nat) (salt : Pool → List UInt8)
    (metrics : Bool) (ops : List Op) :
    let r := (fresh policy n salt metrics).after sha256Hex ops
    let cs := (fresh policy n salt metrics).calls sha256Hex ops
    r.prefixCache.keys = Recency.recent n (touchedKeys cs) ∧
      ∀ key p, r.prefixCache.get? key = some p →
        ∃ since, SinceInserted cs key since ∧ lastBalanced since key = some p := by
  have h := Runs.run_log_invariant (call sha256Hex) (IsLru n)
    (fun _ _ op hs => isLru_step sha256Hex hs op) ops _ [] (isLru_fresh policy n salt metrics)
  exact ⟨h.keys, h.recorded⟩

end Router
end GoodputLab
