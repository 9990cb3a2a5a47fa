import GoodputLab.RouterCache
/-!
# RouterOrder — the order pools were registered in does not show

Two routers are alike when they differ in nothing but the order of their registries.  The registry is read by lookups and
through the two sorts of `_select_admissible`, whose keys tell the registered pools apart, so alike routers choose the same
pool (`Alike.selectAdmissible`), make the same decisions and stay alike (`alike_step`): two orders of one set of
registrations are not told apart by any run that follows (`registration_order_irrelevant`).
-/
namespace GoodputLab
namespace Router

open FloatArith

variable {F : Type} [FloatArith F]

/-- Every registered state is registered for its own pool. -/
def OwnPools (r : Router F) : Prop := ∀ p s, r.pools.get? p = some s → s.pool = p

/-- The routers differ in the order of their registries only. -/
structure Alike (r t : Router F) : Prop where
  policy      : r.policy = t.policy
  cacheMax    : r.cacheMax = t.cacheMax
  saltForPool : r.saltForPool = t.saltForPool
  prefixCache : r.prefixCache = t.prefixCache
  noHistory   : r.noHistory = t.noHistory
  pools       : ∀ p, r.pools.get? p = t.pools.get? p
  ownPools    : r.OwnPools

/-! ## The choice -/

theorem depthKey_inj {r : Router F} (hown : r.OwnPools) {a b : Pool × PoolState} (ha : a ∈ r.pools.items)
    (hb : b ∈ r.pools.items) (h : depthKey a = depthKey b) : a = b := by
  have hga := (OrdDict.mem_items r.pools a.1 a.2).1 ha
  have hgb := (OrdDict.mem_items r.pools b.1 b.2).1 hb
  have hvalue : a.2.pool.value = b.2.pool.value := congrArg (fun k => (ofLex k).2) h
  have hpool : a.1 = b.1 := by rw [← hown _ _ hga, ← hown _ _ hgb, value_injective hvalue]
  rw [hpool, hgb] at hga
  exact Prod.ext hpool (Option.some.inj hga).symm

theorem tier_inj {r : Router F} {a b : Pool × PoolState} (ha : a ∈ r.pools.items) (hb : b ∈ r.pools.items)
    (hta : a.1 = .tier) (htb : b.1 = .tier) : a = b := by
  have hga := (OrdDict.mem_items r.pools a.1 a.2).1 ha
  have hgb := (OrdDict.mem_items r.pools b.1 b.2).1 hb
  have hpool : a.1 = b.1 := hta.trans htb.symm
  rw [hpool, hgb] at hga
  exact Prod.ext hpool (Option.some.inj hga).symm

theorem Alike.admissible {r t : Router F} (h : Alike r t) (spec : RequestSpec) (s : PoolState) :
    r.admissible spec s = t.admissible spec s := by
  unfold Router.admissible
  rw [h.policy]

/-- **Alike routers choose the same pool.** -/
theorem Alike.selectAdmissible {r t : Router F} (h : Alike r t) (spec : RequestSpec) :
    r.selectAdmissible spec = t.selectAdmissible spec := by
  have hitems : (r.pools.items.filter (fun p => p.2.healthy)).Perm (t.pools.items.filter (fun p => p.2.healthy)) :=
    (OrdDict.items_perm_of_get? h.pools).filter _
  have hpasses : (fun p : Pool × PoolState => r.admissible spec p.2) = fun p => t.admissible spec p.2 :=
    funext fun p => h.admissible spec p.2
  have hempty : (r.pools.items.filter (fun p => p.2.healthy)).isEmpty =
      (t.pools.items.filter (fun p => p.2.healthy)).isEmpty := by
    rw [Bool.eq_iff_iff, List.isEmpty_iff, List.isEmpty_iff]
    exact ⟨fun hnil => (hnil ▸ hitems).nil_eq.symm, fun hnil => (hnil ▸ hitems).eq_nil⟩
  have htier := leastBy_perm (fun p : Pool × PoolState => p.2.queueDepth) (fun p => t.admissible spec p.2)
    (hitems.filter (fun p => decide (p.1 = .tier))) (fun a ha b hb _ => by
      obtain ⟨ha, hta⟩ := List.mem_filter.1 ha
      obtain ⟨hb, htb⟩ := List.mem_filter.1 hb
      exact tier_inj (List.mem_filter.1 ha).1 (List.mem_filter.1 hb).1 (of_decide_eq_true hta) (of_decide_eq_true htb))
  have hdepth := leastBy_perm depthKey (fun p => t.admissible spec p.2) hitems (fun a ha b hb hkey =>
    depthKey_inj h.ownPools (List.mem_filter.1 ha).1 (List.mem_filter.1 hb).1 hkey)
  unfold Router.selectAdmissible
  simp only [hempty, hpasses, htier, hdepth]

/-! ## One call -/

theorem Alike.lookupKey {r t : Router F} (h : Alike r t) (sha256Hex : List UInt8 → Text) (spec : RequestSpec) :
    r.lookupKey sha256Hex spec = t.lookupKey sha256Hex spec := by
  unfold Router.lookupKey
  rw [h.selectAdmissible, h.saltForPool]

theorem Alike.isOpen {r t : Router F} (h : Alike r t) (spec : RequestSpec) (p : Pool) (s : PoolState) :
    r.IsOpen spec p s ↔ t.IsOpen spec p s := by
  unfold IsOpen
  rw [h.pools, h.policy]

theorem Alike.noOpenEntry {r t : Router F} (h : Alike r t) (sha256Hex : List UInt8 → Text) (spec : RequestSpec) :
    r.NoOpenEntry sha256Hex spec ↔ t.NoOpenEntry sha256Hex spec := by
  unfold NoOpenEntry
  rw [h.prefixCache, h.lookupKey]
  exact forall_congr' fun q => forall_congr' fun s => imp_congr_right fun _ => not_congr (h.isOpen spec q s)

theorem Alike.touched {r t : Router F} (h : Alike r t) (key : Text) : Alike (r.touched key) (t.touched key) :=
  ⟨h.policy, h.cacheMax, h.saltForPool, congrArg (fun c : OrdDict Text Pool => c.moveToEnd key) h.prefixCache, h.noHistory,
    h.pools, h.ownPools⟩

theorem Alike.loadBalance {r t : Router F} (h : Alike r t) (key : Text) (chosen : Option Pool) :
    (r.loadBalance key chosen).1 = (t.loadBalance key chosen).1 ∧
      Alike (r.loadBalance key chosen).2 (t.loadBalance key chosen).2 := by
  have hcount : r.noHistory.map (· + 1) = t.noHistory.map (· + 1) := by rw [h.noHistory]
  cases chosen with
  | none => exact ⟨rfl, h.policy, h.cacheMax, h.saltForPool, h.prefixCache, hcount, h.pools, h.ownPools⟩
  | some p =>
    refine ⟨rfl, h.policy, h.cacheMax, h.saltForPool, ?_, hcount, h.pools, h.ownPools⟩
    simp only [Router.loadBalance, h.prefixCache, h.cacheMax]

/-- **Alike routers decide alike** and stay alike. -/
theorem Alike.route {r t : Router F} (h : Alike r t) (sha256Hex : List UInt8 → Text) (spec : RequestSpec) :
    (r.route sha256Hex spec).1 = (t.route sha256Hex spec).1 ∧
      Alike (r.route sha256Hex spec).2 (t.route sha256Hex spec).2 := by
  have hkey := h.lookupKey sha256Hex spec
  have hperm := OrdDict.items_perm_of_get? h.pools
  cases hemp : r.pools.items.isEmpty with
  | true =>
    have hr : r.pools.items = [] := List.isEmpty_iff.1 hemp
    have ht : t.pools.items = [] := (hr ▸ hperm).nil_eq.symm
    rw [route_unregistered sha256Hex hr spec, route_unregistered sha256Hex ht spec]
    exact ⟨rfl, h⟩
  | false =>
    have ht : t.pools.items.isEmpty = false := by
      rw [List.isEmpty_eq_false_iff] at hemp ⊢
      exact fun hnil => hemp (hnil ▸ hperm).eq_nil
    by_cases hno : r.NoOpenEntry sha256Hex spec
    · rw [route_miss sha256Hex r spec hemp hno, route_miss sha256Hex t spec ht ((h.noOpenEntry sha256Hex spec).1 hno),
        hkey, h.selectAdmissible]
      exact (h.touched _).loadBalance _ _
    · simp only [NoOpenEntry, not_forall, not_not] at hno
      obtain ⟨q, s, hc, ho⟩ := hno
      have hc' : t.prefixCache.get? (t.lookupKey sha256Hex spec) = some q := by rw [← h.prefixCache, ← hkey, hc]
      rw [route_hit sha256Hex r spec q s hc ho, route_hit sha256Hex t spec q s hc' ((h.isOpen spec q s).1 ho), hkey]
      exact ⟨rfl, h.touched _⟩

/-! ## Runs -/

def decision (sha256Hex : List UInt8 → Text) (r : Router F) : Op → List PoolDecision
  | .registerPool _  => []
  | .updateDepth _ _ => []
  | .route spec      => [(r.route sha256Hex spec).1]

def decisions (sha256Hex : List UInt8 → Text) (r : Router F) (ops : List Op) : List PoolDecision :=
  Runs.log (step sha256Hex) (decision sha256Hex) r ops

theorem ownPools_register {r : Router F} (h : r.OwnPools) (state : PoolState) : (r.registerPool state).OwnPools := by
  intro p s hget
  rw [registerPool, OrdDict.get?_set] at hget
  split at hget
  · rename_i hp
    rw [← Option.some.inj hget, hp]
  · exact h p s hget

theorem ownPools_update {r : Router F} (h : r.OwnPools) (pool : Pool) (depth : Int) :
    (r.updateDepth pool depth).OwnPools := by
  intro p s hget
  rw [updateDepth, OrdDict.get?_modify] at hget
  split at hget
  · obtain ⟨s', hs', rfl⟩ := Option.map_eq_some_iff.1 hget
    exact h p s' hs'
  · exact h p s hget

theorem alike_step (sha256Hex : List UInt8 → Text) {r t : Router F} (h : Alike r t) (op : Op) :
    decision sha256Hex r op = decision sha256Hex t op ∧ Alike (step sha256Hex r op) (step sha256Hex t op) := by
  cases op with
  | registerPool state =>
    refine ⟨rfl, h.policy, h.cacheMax, h.saltForPool, h.prefixCache, h.noHistory, fun p => ?_,
      ownPools_register h.ownPools state⟩
    rw [step_pools, step_pools, h.pools]
  | updateDepth pool depth =>
    refine ⟨rfl, h.policy, h.cacheMax, h.saltForPool, h.prefixCache, h.noHistory, fun p => ?_,
      ownPools_update h.ownPools pool depth⟩
    rw [step_pools, step_pools, h.pools]
  | route spec =>
    obtain ⟨hdecision, halike⟩ := h.route sha256Hex spec
    exact ⟨congrArg (fun d => [d]) hdecision, halike⟩

/-! ## Registration -/

/-- A fresh router with the pools registered in the order of the list. -/
def withPools (sha256Hex : List UInt8 → Text) (policy : AdmissionPolicy F) (cacheMax : Int) (salt : Pool → List UInt8)
    (metrics : Bool) (states : List PoolState) : Router F :=
  (fresh policy cacheMax salt metrics).after sha256Hex (states.map .registerPool)

/-- **Registering pools once each registers these states.** -/
theorem registered_states (p : Pool) (s : PoolState) : ∀ (states : List PoolState) (old : Option PoolState),
    (states.map PoolState.pool).Nodup →
      ((states.map Op.registerPool).foldl (poolAfter p) old = some s ↔
        (s ∈ states ∧ s.pool = p) ∨ (old = some s ∧ ∀ x ∈ states, x.pool ≠ p))
  | [], old, _ => by simp
  | x :: states, old, hnodup => by
    rw [List.map_cons, List.nodup_cons] at hnodup
    rw [List.map_cons, List.foldl_cons, registered_states p s states _ hnodup.2, poolAfter]
    have hlater : ∀ y ∈ states, y.pool ≠ x.pool := fun y hy he => hnodup.1 (List.mem_map.2 ⟨y, hy, he⟩)
    by_cases hp : p = x.pool
    · subst hp
      rw [if_pos rfl]
      constructor
      · rintro (⟨hmem, hpool⟩ | ⟨hx, -⟩)
        · exact Or.inl ⟨List.mem_cons_of_mem _ hmem, hpool⟩
        · rw [← Option.some.inj hx]
          exact Or.inl ⟨List.mem_cons_self, rfl⟩
      · rintro (⟨hmem, hpool⟩ | ⟨-, hno⟩)
        · rcases List.mem_cons.1 hmem with rfl | hmem
          · exact Or.inr ⟨rfl, hlater⟩
          · exact absurd hpool (hlater s hmem)
        · exact absurd rfl (hno x List.mem_cons_self)
    · rw [if_neg hp]
      constructor
      · rintro (⟨hmem, hpool⟩ | ⟨hold, hno⟩)
        · exact Or.inl ⟨List.mem_cons_of_mem _ hmem, hpool⟩
        · refine Or.inr ⟨hold, fun y hy => ?_⟩
          rcases List.mem_cons.1 hy with rfl | hy
          · exact fun he => hp he.symm
          · exact hno y hy
      · rintro (⟨hmem, hpool⟩ | ⟨hold, hno⟩)
        · rcases List.mem_cons.1 hmem with rfl | hmem
          · exact absurd hpool.symm hp
          · exact Or.inl ⟨hmem, hpool⟩
        · exact Or.inr ⟨hold, fun y hy => hno y (List.mem_cons_of_mem _ hy)⟩

theorem withPools_get? (sha256Hex : List UInt8 → Text) (policy : AdmissionPolicy F) (cacheMax : Int)
    (salt : Pool → List UInt8) (metrics : Bool) {states : List PoolState} (hnodup : (states.map PoolState.pool).Nodup)
    (p : Pool) (s : PoolState) :
    (withPools sha256Hex policy cacheMax salt metrics states).pools.get? p = some s ↔ s ∈ states ∧ s.pool = p := by
  rw [withPools, pools_after, registered, registered_states p s states none hnodup]
  simp

/-- Registering moves nothing but the registry. -/
theorem withPools_config (sha256Hex : List UInt8 → Text) (policy : AdmissionPolicy F) (cacheMax : Int)
    (salt : Pool → List UInt8) (metrics : Bool) (states : List PoolState) :
    let r := withPools sha256Hex policy cacheMax salt metrics states
    r.policy = policy ∧ r.cacheMax = cacheMax ∧ r.saltForPool = salt ∧ r.prefixCache = .empty ∧
      r.noHistory = (if metrics then some 0 else none) ∧ r.OwnPools := by
  refine Runs.run_invariant (fun r : Router F => r.policy = policy ∧ r.cacheMax = cacheMax ∧ r.saltForPool = salt ∧
    r.prefixCache = .empty ∧ r.noHistory = (if metrics then some 0 else none) ∧ r.OwnPools) _ _ (fun r op hop h => ?_)
    ⟨rfl, rfl, rfl, rfl, rfl, fun p s hget => by cases hget⟩
  obtain ⟨state, -, rfl⟩ := List.mem_map.1 hop
  obtain ⟨hpolicy, hmax, hsalt, hcache, hcount, hown⟩ := h
  exact ⟨hpolicy, hmax, hsalt, hcache, hcount, ownPools_register hown state⟩

/-- **Registration order does not matter.**  Two fresh routers of one configuration, given the same states for distinct
pools in two orders, make the same decisions in every common run, and end with the same cache. -/
theorem registration_order_irrelevant (sha256Hex : List UInt8 → Text) (policy : AdmissionPolicy F) (cacheMax : Int)
    (salt : Pool → List UInt8) (metrics : Bool) (states states' : List PoolState) (hperm : states.Perm states')
    (hdistinct : (states.map PoolState.pool).Nodup) (ops : List Op) :
    let r := withPools sha256Hex policy cacheMax salt metrics states
    let t := withPools sha256Hex policy cacheMax salt metrics states'
    decisions sha256Hex r ops = decisions sha256Hex t ops ∧
      (r.after sha256Hex ops).prefixCache = (t.after sha256Hex ops).prefixCache := by
  intro r t
  have hdistinct' : (states'.map PoolState.pool).Nodup := (hperm.map _).nodup_iff.1 hdistinct
  obtain ⟨hpolicy, hmax, hsalt, hcache, hcount, hown⟩ := withPools_config sha256Hex policy cacheMax salt metrics states
  obtain ⟨hpolicy', hmax', hsalt', hcache', hcount', -⟩ :=
    withPools_config sha256Hex policy cacheMax salt metrics states'
  have halike : Alike r t := by
    refine ⟨hpolicy.trans hpolicy'.symm, hmax.trans hmax'.symm, hsalt.trans hsalt'.symm, hcache.trans hcache'.symm,
      hcount.trans hcount'.symm, fun p => OrdDict.get?_congr (fun s => ?_), hown⟩
    rw [withPools_get? sha256Hex policy cacheMax salt metrics hdistinct,
      withPools_get? sha256Hex policy cacheMax salt metrics hdistinct', hperm.mem_iff]
  obtain ⟨hlog, hend⟩ := Runs.log_eq_of_inStep Alike (fun _ _ op h => alike_step sha256Hex h op) ops r t halike
  exact ⟨hlog, hend.prefixCache⟩

def prefillPool : PoolState := ⟨.prefill, 3, 64, true, slots_pos⟩

def decodePool : PoolState := ⟨.decode, 3, 64, true, slots_pos⟩

/-- Two pools of one depth, registered in two orders. -/
theorem tie_in_two_orders :
    let r := withPools helloHash defaultPolicy 1024 (fun _ => []) false [prefillPool, decodePool]
    let t := withPools helloHash defaultPolicy 1024 (fun _ => []) false [decodePool, prefillPool]
    decisions helloHash r [.route helloBatch] = decisions helloHash t [.route helloBatch] ∧
      (r.after helloHash [.route helloBatch]).prefixCache = (t.after helloHash [.route helloBatch]).prefixCache :=
  registration_order_irrelevant helloHash defaultPolicy 1024 (fun _ => []) false [prefillPool, decodePool]
    [decodePool, prefillPool] (List.Perm.swap _ _ []) (by decide) [.route helloBatch]

end Router
end GoodputLab
