import GoodputLab.Router
/-!
# RouterAdmit — what a router admits, and to which pool

The registry a run leaves is its registrations and depth updates and nothing else (`pools_after`): routing moves the
prefix cache only.  `route` answers the pools open to a request: it admits exactly when one is open, and to one that is
open (`route_answers`), whichever of the cache, the tier preference and the depth order the pool came from.  A request
that is not RAG is offered the least deep of the open pools (`selectAdmissible_least`), but a cached pool is kept while
it stays open, however deep the others are not (`route_least_iff`).
-/
namespace GoodputLab
namespace Router

open FloatArith

variable {F : Type} [FloatArith F]

/-! ## The registry over a run -/

/-- What one call does to the state registered for `p`. -/
def poolAfter (p : Pool) (old : Option PoolState) : Op → Option PoolState
  | .registerPool state     => if p = state.pool then some state else old
  | .updateDepth pool depth => if p = pool then old.map (fun s => { s with queueDepth := (max 0 depth).toNat }) else old
  | .route _                => old

def registered (ops : List Op) (p : Pool) : Option PoolState := ops.foldl (poolAfter p) none

theorem loadBalance_config (r : Router F) (key : Text) (chosen : Option Pool) :
    (r.loadBalance key chosen).2.pools = r.pools ∧ (r.loadBalance key chosen).2.policy = r.policy ∧
      (r.loadBalance key chosen).2.saltForPool = r.saltForPool := by
  cases chosen <;> exact ⟨rfl, rfl, rfl⟩

/-- **Routing moves the cache and the cold-lookup count only.** -/
theorem route_config (sha256Hex : List UInt8 → Text) (r : Router F) (spec : RequestSpec) :
    (r.route sha256Hex spec).2.pools = r.pools ∧ (r.route sha256Hex spec).2.policy = r.policy ∧
      (r.route sha256Hex spec).2.saltForPool = r.saltForPool := by
  unfold route
  simp only
  split
  · exact ⟨rfl, rfl, rfl⟩
  split
  · exact loadBalance_config r _ _
  split
  · split
    · exact ⟨rfl, rfl, rfl⟩
    · exact loadBalance_config _ _ _
  · exact loadBalance_config _ _ _

theorem step_pools (sha256Hex : List UInt8 → Text) (p : Pool) (r : Router F) (op : Op) :
    (step sha256Hex r op).pools.get? p = poolAfter p (r.pools.get? p) op := by
  cases op with
  | registerPool state => exact OrdDict.get?_set r.pools state.pool state p
  | updateDepth pool depth => exact OrdDict.get?_modify r.pools pool _ p
  | route spec =>
    show ((r.route sha256Hex spec).2).pools.get? p = r.pools.get? p
    rw [(route_config sha256Hex r spec).1]

theorem step_policy (sha256Hex : List UInt8 → Text) (r : Router F) (op : Op) :
    (step sha256Hex r op).policy = r.policy := by
  cases op with
  | registerPool state => rfl
  | updateDepth pool depth => rfl
  | route spec => exact (route_config sha256Hex r spec).2.1

/-- **The registry of a run is what its registrations and depth updates made it.** -/
theorem pools_after (sha256Hex : List UInt8 → Text) (policy : AdmissionPolicy F) (cacheMax : Int)
    (salt : Pool → List UInt8) (metrics : Bool) (ops : List Op) (p : Pool) :
    ((fresh policy cacheMax salt metrics).after sha256Hex ops).pools.get? p = registered ops p :=
  Runs.run_observe (fun r : Router F => r.pools.get? p) (step_pools sha256Hex p) ops _

theorem policy_after (sha256Hex : List UInt8 → Text) (r : Router F) (ops : List Op) :
    (r.after sha256Hex ops).policy = r.policy :=
  Runs.run_invariant (fun x : Router F => x.policy = r.policy) ops r
    (fun s op _ h => (step_policy sha256Hex s op).trans h) rfl

/-! ## The pools open to a request -/

/-- What the policy asks of a pool's state: its queue under the headroom, or a bypass for an interactive request. -/
def Passes (policy : AdmissionPolicy F) (spec : RequestSpec) (s : PoolState) : Prop :=
  lt (mul (trueDiv s.queueDepth s.capacity) (ofNat 100)) policy.headroomPct = true ∨
    (spec.sloClass = .interactive ∧ policy.interactiveBypass = true)

/-- `s` is registered for `p`, healthy, and passes the policy for the request. -/
def IsOpen (r : Router F) (spec : RequestSpec) (p : Pool) (s : PoolState) : Prop :=
  r.pools.get? p = some s ∧ s.healthy = true ∧ Passes r.policy spec s

theorem headroomUsedPct_eq (s : PoolState) :
    s.headroomUsedPct F = mul (trueDiv s.queueDepth s.capacity) (ofNat 100) :=
  if_neg (Nat.not_le.2 s.capacityPos)

theorem admissible_iff (r : Router F) (spec : RequestSpec) (s : PoolState) :
    r.admissible spec s = true ↔ s.healthy = true ∧ Passes r.policy spec s := by
  unfold admissible Passes
  rw [headroomUsedPct_eq]
  cases s.healthy with
  | false => simp
  | true =>
    by_cases hl : lt (mul (trueDiv s.queueDepth s.capacity) (ofNat 100)) r.policy.headroomPct = true
    · simp [hl]
    · simp [hl]

theorem value_injective : Function.Injective Pool.value := by
  intro p q h
  cases p <;> cases q <;> first | rfl | exact absurd h (by decide)

theorem mem_eligible (r : Router F) (q : Pool × PoolState) :
    q ∈ r.pools.items.filter (fun p => p.2.healthy) ↔ r.pools.get? q.1 = some q.2 ∧ q.2.healthy = true := by
  rw [List.mem_filter, ← OrdDict.mem_items]

theorem selectAdmissible_open (r : Router F) (spec : RequestSpec) (p : Pool) (h : r.selectAdmissible spec = some p) :
    ∃ s, r.IsOpen spec p s := by
  have key : ∀ q : Pool × PoolState, q ∈ r.pools.items.filter (fun p => p.2.healthy) →
      r.admissible spec q.2 = true → ∃ s, r.IsOpen spec q.1 s := fun q hq ha =>
    ⟨q.2, ((mem_eligible r q).1 hq).1, (admissible_iff r spec q.2).1 ha⟩
  have passes : ∀ {ι : Type} [LinearOrder ι] {rank : Pool × PoolState → ι} {l : List (Pool × PoolState)} {q},
      leastBy rank (fun x => r.admissible spec x.2) l = some q → r.admissible spec q.2 = true := fun hq =>
    leastBy_passes (p := fun x : Pool × PoolState => r.admissible spec x.2) hq
  unfold selectAdmissible at h
  simp only at h
  split at h
  · cases h
  · split at h
    · rename_i q hq
      cases h
      split at hq
      · exact key q (List.mem_filter.1 (leastBy_mem hq)).1 (passes hq)
      · cases hq
    · obtain ⟨q, hq, rfl⟩ := Option.map_eq_some_iff.1 h
      exact key q (leastBy_mem hq) (passes hq)

theorem selectAdmissible_none (r : Router F) (spec : RequestSpec) (h : r.selectAdmissible spec = none)
    (p : Pool) (s : PoolState) : ¬ r.IsOpen spec p s := by
  rintro ⟨hget, hh, hp⟩
  have hmem := (mem_eligible r (p, s)).2 ⟨hget, hh⟩
  unfold selectAdmissible at h
  simp only at h
  split at h
  · rename_i he
    rw [List.isEmpty_iff.1 he] at hmem
    cases hmem
  · split at h
    · cases h
    · have hno := leastBy_eq_none.1 (Option.map_eq_none_iff.1 h) (p, s) hmem
      have hadm := (admissible_iff r spec s).2 ⟨hh, hp⟩
      simp only at hno
      rw [hno] at hadm
      cases hadm

theorem selectAdmissible_depthKey (r : Router F) (spec : RequestSpec) (hr : spec.workload ≠ .rag) (p : Pool)
    (h : r.selectAdmissible spec = some p) (s : PoolState) (hs : r.pools.get? p = some s) (q : Pool) (t : PoolState)
    (ht : r.IsOpen spec q t) : depthKey (p, s) ≤ depthKey (q, t) := by
  unfold selectAdmissible at h
  simp only [if_neg hr] at h
  split at h
  · cases h
  · obtain ⟨x, hx, rfl⟩ := Option.map_eq_some_iff.1 h
    have hxs : r.pools.get? x.1 = some x.2 := ((mem_eligible r x).1 (leastBy_mem hx)).1
    obtain rfl : x.2 = s := by
      rw [hxs] at hs
      exact Option.some.inj hs
    exact leastBy_le hx (q, t) ((mem_eligible r (q, t)).2 ⟨ht.1, ht.2.1⟩) ((admissible_iff r spec t).2 ht.2)

/-- **A request that is not RAG is offered the least deep open pool.** -/
theorem selectAdmissible_least (r : Router F) (spec : RequestSpec) (hr : spec.workload ≠ .rag) (p : Pool)
    (h : r.selectAdmissible spec = some p) (s : PoolState) (hs : r.pools.get? p = some s) (q : Pool) (t : PoolState)
    (ht : r.IsOpen spec q t) : s.queueDepth ≤ t.queueDepth := by
  rcases (Prod.Lex.le_iff).1 (selectAdmissible_depthKey r spec hr p h s hs q t ht) with hlt | ⟨heq, -⟩
  · exact Nat.le_of_lt hlt
  · exact Nat.le_of_eq heq

/-! ## The verdict -/

def touched (r : Router F) (key : Text) : Router F := { r with prefixCache := r.prefixCache.moveToEnd key }

/-- The entry cached under the request's key, if there is one, names a pool that is not open. -/
def NoOpenEntry (sha256Hex : List UInt8 → Text) (r : Router F) (spec : RequestSpec) : Prop :=
  ∀ q t, r.prefixCache.get? (r.lookupKey sha256Hex spec) = some q → ¬ r.IsOpen spec q t

theorem route_unregistered (sha256Hex : List UInt8 → Text) {r : Router F} (h : r.pools.items = []) (spec : RequestSpec) :
    r.route sha256Hex spec = (⟨.colocated, false, .noPoolsRegistered, none⟩, r) := by
  simp [route, h]

theorem route_hit (sha256Hex : List UInt8 → Text) (r : Router F) (spec : RequestSpec) (q : Pool) (t : PoolState)
    (hc : r.prefixCache.get? (r.lookupKey sha256Hex spec) = some q) (ho : r.IsOpen spec q t) :
    r.route sha256Hex spec =
      (⟨q, true, .cacheHit, some (r.lookupKey sha256Hex spec)⟩, r.touched (r.lookupKey sha256Hex spec)) := by
  have hne : r.pools.items.isEmpty = false := by
    rw [List.isEmpty_eq_false_iff]
    exact List.ne_nil_of_mem ((OrdDict.mem_items _ _ _).2 ho.1)
  have ha : (r.touched (r.lookupKey sha256Hex spec)).admissible spec t = true := (admissible_iff r spec t).2 ho.2
  unfold route
  simp only [hne, hc, ho.1, ho.2.1, Bool.false_eq_true, if_false, Bool.true_and]
  exact if_pos ha

theorem route_miss (sha256Hex : List UInt8 → Text) (r : Router F) (spec : RequestSpec)
    (hne : r.pools.items.isEmpty = false) (hno : r.NoOpenEntry sha256Hex spec) :
    r.route sha256Hex spec =
      (r.touched (r.lookupKey sha256Hex spec)).loadBalance (r.lookupKey sha256Hex spec) (r.selectAdmissible spec) := by
  have htouch : r.prefixCache.get? (r.lookupKey sha256Hex spec) = none → r.touched (r.lookupKey sha256Hex spec) = r :=
    fun h => by simp [touched, OrdDict.moveToEnd, h]
  unfold route
  simp only [hne, Bool.false_eq_true, if_false]
  cases hc : r.prefixCache.get? (r.lookupKey sha256Hex spec) with
  | none => rw [htouch hc]
  | some q =>
    simp only
    cases hg : r.pools.get? q with
    | none => rfl
    | some t =>
      simp only
      refine if_neg (fun h => ?_)
      rw [Bool.and_eq_true] at h
      exact hno q t hc ⟨hg, h.1, ((admissible_iff r spec t).1 h.2).2⟩

/-- What a call of `route` does: reject with no pool registered, keep a cached pool that is open, or balance the load
with no open cached one. -/
theorem route_eq (sha256Hex : List UInt8 → Text) (r : Router F) (spec : RequestSpec) :
    (r.pools.items = [] ∧ r.route sha256Hex spec = (⟨.colocated, false, .noPoolsRegistered, none⟩, r)) ∨
    (∃ q t, r.prefixCache.get? (r.lookupKey sha256Hex spec) = some q ∧ r.IsOpen spec q t ∧
      r.route sha256Hex spec =
        (⟨q, true, .cacheHit, some (r.lookupKey sha256Hex spec)⟩, r.touched (r.lookupKey sha256Hex spec))) ∨
    (r.NoOpenEntry sha256Hex spec ∧ r.route sha256Hex spec =
      (r.touched (r.lookupKey sha256Hex spec)).loadBalance (r.lookupKey sha256Hex spec) (r.selectAdmissible spec)) := by
  cases hemp : r.pools.items.isEmpty with
  | true => exact Or.inl ⟨List.isEmpty_iff.1 hemp, route_unregistered sha256Hex (List.isEmpty_iff.1 hemp) spec⟩
  | false =>
    by_cases hno : r.NoOpenEntry sha256Hex spec
    · exact Or.inr (Or.inr ⟨hno, route_miss sha256Hex r spec hemp hno⟩)
    · simp only [NoOpenEntry, not_forall, not_not] at hno
      obtain ⟨q, t, hc, ho⟩ := hno
      exact Or.inr (Or.inl ⟨q, t, hc, ho, route_hit sha256Hex r spec q t hc ho⟩)

/-- What `route` can answer: nothing is open and it rejects, a cached pool that is open, or the chosen pool with no
open cached one. -/
theorem route_cases (sha256Hex : List UInt8 → Text) (r : Router F) (spec : RequestSpec) :
    (r.selectAdmissible spec = none ∧ (r.route sha256Hex spec).1.admitted = false) ∨
    (∃ q t, r.prefixCache.get? (r.lookupKey sha256Hex spec) = some q ∧ r.IsOpen spec q t ∧
      (r.route sha256Hex spec).1 = ⟨q, true, .cacheHit, some (r.lookupKey sha256Hex spec)⟩) ∨
    (∃ p, r.selectAdmissible spec = some p ∧ r.NoOpenEntry sha256Hex spec ∧
      (r.route sha256Hex spec).1 = ⟨p, true, .loadBalance, some (r.lookupKey sha256Hex spec)⟩) := by
  rcases route_eq sha256Hex r spec with ⟨hemp, hd⟩ | ⟨q, t, hc, ho, hd⟩ | ⟨hno, hd⟩
  · refine Or.inl ⟨?_, by rw [hd]⟩
    simp [selectAdmissible, hemp]
  · exact Or.inr (Or.inl ⟨q, t, hc, ho, by rw [hd]⟩)
  · cases hsel : r.selectAdmissible spec with
    | none =>
      rw [hsel] at hd
      exact Or.inl ⟨rfl, by rw [hd]; rfl⟩
    | some p =>
      rw [hsel] at hd
      exact Or.inr (Or.inr ⟨p, rfl, hno, by rw [hd]; rfl⟩)

/-- **A request is admitted exactly when a pool is open to it, and to a pool that is open.** -/
theorem route_answers (sha256Hex : List UInt8 → Text) (r : Router F) (spec : RequestSpec) :
    ((r.route sha256Hex spec).1.admitted = true ↔ ∃ p s, r.IsOpen spec p s) ∧
      ((r.route sha256Hex spec).1.admitted = true → ∃ s, r.IsOpen spec (r.route sha256Hex spec).1.pool s) := by
  rcases route_cases sha256Hex r spec with ⟨hnone, hrej⟩ | ⟨q, t, -, hopen, hd⟩ | ⟨p, hsel, -, hd⟩
  · have hclosed : ¬ ∃ p s, r.IsOpen spec p s := fun ⟨p, s, ho⟩ => selectAdmissible_none r spec hnone p s ho
    simp [hrej, hclosed]
  · rw [hd]
    exact ⟨⟨fun _ => ⟨q, t, hopen⟩, fun _ => rfl⟩, fun _ => ⟨t, hopen⟩⟩
  · rw [hd]
    obtain ⟨s, ho⟩ := selectAdmissible_open r spec p hsel
    exact ⟨⟨fun _ => ⟨p, s, ho⟩, fun _ => rfl⟩, fun _ => ⟨s, ho⟩⟩

/-- **Admission over whole runs.**  After any calls to a fresh router, a request is admitted exactly when some
registered pool is healthy and passes the policy for it, and the pool returned is itself one of those. -/
theorem admission_over_runs (sha256Hex : List UInt8 → Text) (policy : AdmissionPolicy F) (cacheMax : Int)
    (salt : Pool → List UInt8) (metrics : Bool) (ops : List Op) (spec : RequestSpec) :
    let decision := (((fresh policy cacheMax salt metrics).after sha256Hex ops).route sha256Hex spec).1
    (decision.admitted = true ↔
      ∃ p s, registered ops p = some s ∧ s.healthy = true ∧ Passes policy spec s) ∧
    (decision.admitted = true →
      ∃ s, registered ops decision.pool = some s ∧ s.healthy = true ∧ Passes policy spec s) := by
  have h := route_answers sha256Hex ((fresh policy cacheMax salt metrics).after sha256Hex ops) spec
  simp only [IsOpen, pools_after, policy_after] at h
  exact h

/-! ## Batch requests and the least deep pool -/

/-- The entry cached under the request's key names an open pool that is deeper than another open pool. -/
def Outdated (sha256Hex : List UInt8 → Text) (r : Router F) (spec : RequestSpec) : Prop :=
  ∃ q t, r.prefixCache.get? (r.lookupKey sha256Hex spec) = some q ∧ r.IsOpen spec q t ∧
    ∃ p s, r.IsOpen spec p s ∧ s.queueDepth < t.queueDepth

/-- The decision, when it admits, is for a pool of least depth among the open ones. -/
def LeastLoaded (r : Router F) (spec : RequestSpec) (d : PoolDecision) : Prop :=
  d.admitted = true → ∀ s, r.pools.get? d.pool = some s → ∀ p t, r.IsOpen spec p t → s.queueDepth ≤ t.queueDepth

/-- **The decision for a request that is not RAG is the least loaded pool exactly when its cache entry is not
outdated.** -/
theorem route_least_iff (sha256Hex : List UInt8 → Text) (r : Router F) (spec : RequestSpec)
    (hr : spec.workload ≠ .rag) :
    r.LeastLoaded spec (r.route sha256Hex spec).1 ↔ ¬ r.Outdated sha256Hex spec := by
  constructor
  · rintro hleast ⟨q, t, hc, hq, p, s, hp, hlt⟩
    rcases route_cases sha256Hex r spec with ⟨hnone, -⟩ | ⟨q', t', hc', hopen, hd⟩ | ⟨p', -, hno, -⟩
    · exact selectAdmissible_none r spec hnone q t hq
    · rw [hc] at hc'
      obtain rfl := Option.some.inj hc'
      rw [hd] at hleast
      have := hleast rfl t hq.1 p s hp
      omega
    · exact hno q t hc hq
  · intro hout hadm s hs p t hp
    rcases route_cases sha256Hex r spec with ⟨-, hrej⟩ | ⟨q, t', hc, hopen, hd⟩ | ⟨p', hsel, -, hd⟩
    · rw [hrej] at hadm
      cases hadm
    · rw [hd] at hs
      rw [hopen.1] at hs
      obtain rfl := Option.some.inj hs
      exact Nat.le_of_not_lt (fun hlt => hout ⟨q, t', hc, hopen, p, t, hp, hlt⟩)
    · rw [hd] at hs
      exact selectAdmissible_least r spec hr p' hsel s hs p t hp

/-- **Over whole runs**: after any calls to a fresh router, a request that is not RAG, batch or interactive, is sent to
a pool of least depth among the open ones exactly when its cache entry is not outdated. -/
theorem least_loaded_over_runs (sha256Hex : List UInt8 → Text) (policy : AdmissionPolicy F) (cacheMax : Int)
    (salt : Pool → List UInt8) (metrics : Bool) (ops : List Op) (spec : RequestSpec) (hr : spec.workload ≠ .rag) :
    let r := (fresh policy cacheMax salt metrics).after sha256Hex ops
    r.LeastLoaded spec (r.route sha256Hex spec).1 ↔ ¬ r.Outdated sha256Hex spec :=
  route_least_iff sha256Hex _ spec hr

/-- The SHA-256 of the prompt `hello`, which is all the runs below hash. -/
def helloHash : List UInt8 → Text :=
  fun _ => "2cf24dba5fb0a30e26e83b2ac5b9e29e1b161e5c1fa7425e73043362938b9824".toList

def helloBatch : RequestSpec :=
  ⟨"r1".toList, .batch, .chat, 1, 1, "hello".toList, by decide, by decide, by decide⟩

/-- Two pools under the default policy, one batch request routed, and the prefill queue grown to 10 since. -/
def grownSince : Router ℚ :=
  (fresh ⟨80, true, by decide +kernel, by decide +kernel⟩ 1024 (fun _ => []) false).after helloHash
    [.registerPool ⟨.prefill, 0, 64, true, by decide⟩, .registerPool ⟨.decode, 1, 64, true, by decide⟩,
      .route helloBatch, .updateDepth .prefill 10]

theorem batch_kept_on_deeper_pool :
    helloBatch.sloClass = .batch ∧ helloBatch.workload ≠ .rag ∧
      ¬ grownSince.LeastLoaded helloBatch (grownSince.route helloHash helloBatch).1 := by
  refine ⟨rfl, by decide, fun hleast => ?_⟩
  have hadm : (grownSince.route helloHash helloBatch).1.admitted = true := by decide +kernel
  have hdeep : grownSince.pools.get? (grownSince.route helloHash helloBatch).1.pool =
      some ⟨.prefill, 10, 64, true, by decide⟩ := by decide +kernel
  have hopen : grownSince.IsOpen helloBatch .decode ⟨.decode, 1, 64, true, by decide⟩ :=
    ⟨by decide +kernel, rfl, Or.inl (by decide +kernel)⟩
  have := hleast hadm _ hdeep _ _ hopen
  revert this
  decide

theorem least_loaded_before_growth :
    let r := (fresh (F := ℚ) ⟨80, true, by decide +kernel, by decide +kernel⟩ 1024 (fun _ => []) false).after helloHash
      [.registerPool ⟨.prefill, 0, 64, true, by decide⟩, .registerPool ⟨.decode, 1, 64, true, by decide⟩,
        .route helloBatch]
    r.prefixCache.get? (r.lookupKey helloHash helloBatch) = some .prefill ∧
      (r.LeastLoaded helloBatch (r.route helloHash helloBatch).1 ↔ ¬ r.Outdated helloHash helloBatch) :=
  ⟨by decide +kernel, least_loaded_over_runs helloHash _ 1024 (fun _ => []) false _ helloBatch (by decide)⟩

end Router
end GoodputLab
