import GoodputLab.RouterLru
/-!
# RouterCold — what the cold-lookup counter counts

The counter moves at every call that no cached pool takes: at the lookups that find no entry, and at those that find one
whose pool is not open (`route_noHistory`).  It counts the cold lookups of a run exactly when the run has none of the
second kind (`cold_lookups_iff`).
-/
namespace GoodputLab
namespace Router

open FloatArith

variable {F : Type} [FloatArith F]

/-- A pool is registered and the lookup key has no entry. -/
def Call.cold (c : Call) : Bool := c.anyPool && !c.cached

/-- The lookup finds an entry the call does not use. -/
def Call.unused (c : Call) : Bool := c.cached && decide (c.decision.reason ≠ .cacheHit)

def coldLookups (cs : List Call) : Nat := cs.countP Call.cold

/-- The entry cached under the request's key names a pool that is not open. -/
def Stale (sha256Hex : List UInt8 → Text) (r : Router F) (spec : RequestSpec) : Prop :=
  ∃ q, r.prefixCache.get? (r.lookupKey sha256Hex spec) = some q ∧ ∀ t, ¬ r.IsOpen spec q t

/-- No pool is registered before the first entry is made. -/
def Unrecorded (r : Router F) : Prop := r.pools.items = [] → r.prefixCache.keys = []

theorem loadBalance_noHistory (r : Router F) (key : Text) (chosen : Option Pool) :
    (r.loadBalance key chosen).2.noHistory = r.noHistory.map (· + 1) := by
  cases chosen <;> rfl

theorem loadBalance_reason (r : Router F) (key : Text) (chosen : Option Pool) :
    (r.loadBalance key chosen).1.reason ≠ .cacheHit := by
  cases chosen <;> exact fun h => by cases h

/-- **A call counts when its lookup is cold, and when it does not use the entry found.** -/
theorem route_noHistory (sha256Hex : List UInt8 → Text) {r : Router F} (hr : r.Unrecorded) (spec : RequestSpec) :
    (step sha256Hex r (.route spec)).noHistory =
      r.noHistory.map (· + ((r.call sha256Hex (.route spec)).countP Call.cold +
        (r.call sha256Hex (.route spec)).countP Call.unused)) := by
  show (r.route sha256Hex spec).2.noHistory = _
  rcases route_eq sha256Hex r spec with ⟨hemp, hd⟩ | ⟨q, t, hc, ho, hd⟩ | ⟨-, hd⟩
  · have hnone : r.prefixCache.contains (r.lookupKey sha256Hex spec) = false := by
      rw [← Bool.not_eq_true, contains_iff_mem_keys, hr hemp]
      exact List.not_mem_nil
    simp [call, hd, hemp, Call.cold, Call.unused, hnone]
  · have hhit : r.prefixCache.contains (r.lookupKey sha256Hex spec) = true := by
      rw [OrdDict.contains, hc]
      rfl
    simp [call, hd, Call.cold, Call.unused, hhit, touched]
  · have hne : r.pools.items.isEmpty = false := by
      rw [List.isEmpty_eq_false_iff]
      intro hemp
      have hreason := congrArg (fun d => d.1.reason) ((route_unregistered sha256Hex hemp spec).symm.trans hd)
      cases hsel : r.selectAdmissible spec <;> rw [hsel] at hreason <;> cases hreason
    have hreason := loadBalance_reason (r.touched (r.lookupKey sha256Hex spec)) (r.lookupKey sha256Hex spec)
      (r.selectAdmissible spec)
    have hcount := loadBalance_noHistory (r.touched (r.lookupKey sha256Hex spec)) (r.lookupKey sha256Hex spec)
      (r.selectAdmissible spec)
    rw [call, hd, hcount, hne]
    cases hc : r.prefixCache.contains (r.lookupKey sha256Hex spec) with
    | true =>
      have hunused : (!decide (((r.touched (r.lookupKey sha256Hex spec)).loadBalance (r.lookupKey sha256Hex spec)
          (r.selectAdmissible spec)).1.reason = .cacheHit)) = true := by simpa using hreason
      simp only [Call.cold, Call.unused, List.countP_singleton, ne_eq, decide_not, hunused, Bool.not_true,
        Bool.and_false, Bool.and_self, if_true, Bool.false_eq_true, if_false, Nat.zero_add]
      rfl
    | false => simp [Call.cold, Call.unused, touched]

theorem unrecorded_step (sha256Hex : List UInt8 → Text) {r : Router F} (hr : r.Unrecorded) (op : Op) :
    (step sha256Hex r op).Unrecorded := by
  intro hnil
  have hemp : r.pools.items = [] := by_contra fun hne => pools_ne_nil_step sha256Hex r op hne hnil
  cases op with
  | registerPool state => exact hr hemp
  | updateDepth pool depth => exact hr hemp
  | route spec =>
    show (r.route sha256Hex spec).2.prefixCache.keys = []
    rw [route_unregistered sha256Hex hemp spec]
    exact hr hemp

theorem unused_iff_stale (sha256Hex : List UInt8 → Text) (r : Router F) (spec : RequestSpec) :
    (∃ c ∈ r.call sha256Hex (.route spec), c.unused = true) ↔ r.Stale sha256Hex spec := by
  constructor
  · rintro ⟨c, hc, hun⟩
    rw [List.mem_singleton.1 hc, Call.unused, Bool.and_eq_true, decide_eq_true_eq] at hun
    obtain ⟨q, hq⟩ := (OrdDict.contains_iff _ _).1 hun.1
    refine ⟨q, hq, fun t ho => hun.2 ?_⟩
    show (r.route sha256Hex spec).1.reason = _
    rw [route_hit sha256Hex r spec q t hq ho]
  · rintro ⟨q, hq, hno⟩
    refine ⟨_, List.mem_singleton_self _, ?_⟩
    have hcached : r.prefixCache.contains (r.lookupKey sha256Hex spec) = true := (OrdDict.contains_iff _ _).2 ⟨q, hq⟩
    have hreason : (r.route sha256Hex spec).1.reason ≠ .cacheHit := by
      rcases route_eq sha256Hex r spec with ⟨-, hd⟩ | ⟨q', t, hc, ho, -⟩ | ⟨-, hd⟩
      · rw [hd]
        exact fun h => by cases h
      · rw [hq] at hc
        cases hc
        exact absurd ho (hno t)
      · rw [hd]
        exact loadBalance_reason _ _ _
    rw [Call.unused, hcached, Bool.true_and]
    exact decide_eq_true hreason

/-! ## Runs -/

structure Counted (r : Router F) (cs : List Call) : Prop where
  unrecorded : r.Unrecorded
  count      : r.noHistory = some (coldLookups cs + cs.countP Call.unused)

theorem counted_step (sha256Hex : List UInt8 → Text) {r : Router F} {cs : List Call} (h : Counted r cs) (op : Op) :
    Counted (step sha256Hex r op) (cs ++ r.call sha256Hex op) := by
  refine ⟨unrecorded_step sha256Hex h.unrecorded op, ?_⟩
  cases op with
  | registerPool state =>
    rw [call, List.append_nil]
    exact h.count
  | updateDepth pool depth =>
    rw [call, List.append_nil]
    exact h.count
  | route spec =>
    rw [route_noHistory sha256Hex h.unrecorded, h.count, coldLookups, coldLookups, List.countP_append, List.countP_append,
      Option.map_some]
    congr 1
    omega

/-- **The counter over whole runs**: the cold lookups, and the lookups whose entry was not used. -/
theorem counted_after (sha256Hex : List UInt8 → Text) (policy : AdmissionPolicy F) (cacheMax : Int)
    (salt : Pool → List UInt8) (ops : List Op) :
    Counted ((fresh policy cacheMax salt true).after sha256Hex ops) ((fresh policy cacheMax salt true).calls sha256Hex ops) :=
  Runs.run_log_invariant (call sha256Hex) Counted (fun _ _ op h => counted_step sha256Hex h op) ops _ []
    ⟨fun _ => rfl, rfl⟩

/-- **The counter counts the cold lookups of a run exactly when every entry a call of the run finds names an open pool.** -/
theorem cold_lookups_iff (sha256Hex : List UInt8 → Text) (policy : AdmissionPolicy F) (cacheMax : Int)
    (salt : Pool → List UInt8) (ops : List Op) :
    let r := fresh policy cacheMax salt true
    (r.after sha256Hex ops).noHistory = some (coldLookups (r.calls sha256Hex ops)) ↔
      ∀ p spec q, ops = p ++ .route spec :: q → ¬ (r.after sha256Hex p).Stale sha256Hex spec := by
  intro r
  have hnone : (r.calls sha256Hex ops).countP Call.unused = 0 ↔
      ∀ p spec q, ops = p ++ .route spec :: q → ¬ (r.after sha256Hex p).Stale sha256Hex spec := by
    rw [List.countP_eq_zero]
    constructor
    · intro h p spec q hops hstale
      obtain ⟨c, hc, hun⟩ := (unused_iff_stale sha256Hex _ spec).2 hstale
      exact h c (Runs.mem_log.2 ⟨p, .route spec, q, hops, hc⟩) hun
    · intro h c hc hun
      obtain ⟨p, op, q, hops, hmem⟩ := Runs.mem_log.1 hc
      cases op with
      | registerPool state => cases hmem
      | updateDepth pool depth => cases hmem
      | route spec => exact h p spec q hops ((unused_iff_stale sha256Hex _ spec).1 ⟨c, hmem, hun⟩)
  rw [(counted_after sha256Hex policy cacheMax salt ops).count, ← hnone, Option.some.injEq]
  exact Nat.add_eq_left

/-- A request cached on a pool that is full when the request comes again. -/
def fullSince : List Op :=
  [.registerPool ⟨.prefill, 0, 64, true, slots_pos⟩, .route helloBatch, .updateDepth .prefill 64, .route helloBatch]

/-- **A lookup that finds the entry of a full pool is counted as cold.** -/
theorem full_pool_counts_as_cold :
    let r := fresh defaultPolicy 1024 (fun _ => []) true
    (r.after helloHash fullSince).noHistory = some 2 ∧ coldLookups (r.calls helloHash fullSince) = 1 := by
  decide +kernel

end Router
end GoodputLab
