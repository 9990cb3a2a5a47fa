import GoodputLab.RouterAdmit
/-!
# RouterCache — where a cached prefix came from

`visits` is the log of a run's routing calls: the request, the salt it was looked up under and the decision.  Every
entry of the cache was recorded, under its own pool's salt, by the last load-balanced visit with its key
(`recorded_after`).  The lookup is made under the salt of the pool chosen first, so a prefix sticks to the pool that
served it when the two salts are one (`sticky_over_runs`), and a RAG request goes to an open tier unless the tier's
namespace holds an entry for another open pool (`tier_over_runs`).
-/
namespace GoodputLab
namespace Router

open FloatArith

variable {F : Type} [FloatArith F]

/-! ## The log of a run -/

structure Visit where
  spec     : RequestSpec
  salt     : List UInt8
  decision : PoolDecision
deriving DecidableEq

/-- All of a prompt that its key reads. -/
def promptPrefix (spec : RequestSpec) : Text := spec.promptText.take 256

def lookupSalt (r : Router F) (spec : RequestSpec) : List UInt8 :=
  r.saltForPool ((r.selectAdmissible spec).getD .colocated)

theorem lookupKey_eq (sha256Hex : List UInt8 → Text) (r : Router F) (spec : RequestSpec) :
    r.lookupKey sha256Hex spec = prefixKey sha256Hex spec (r.lookupSalt spec) := by
  unfold lookupKey lookupSalt
  cases r.selectAdmissible spec <;> rfl

def visit (sha256Hex : List UInt8 → Text) (r : Router F) : Op → List Visit
  | .registerPool _  => []
  | .updateDepth _ _ => []
  | .route spec      => [⟨spec, r.lookupSalt spec, (r.route sha256Hex spec).1⟩]

def visits (sha256Hex : List UInt8 → Text) : Router F → List Op → List Visit
  | _, []        => []
  | r, op :: ops => r.visit sha256Hex op ++ visits sha256Hex (step sha256Hex r op) ops

theorem visits_append (sha256Hex : List UInt8 → Text) (q : List Op) : ∀ (r : Router F) (p : List Op),
    r.visits sha256Hex (p ++ q) = r.visits sha256Hex p ++ (r.after sha256Hex p).visits sha256Hex q
  | r, [] => rfl
  | r, op :: p => by
    rw [List.cons_append, visits, visits, visits_append sha256Hex q _ p, List.append_assoc]
    rfl

/-- The visit that recorded what is cached under `key`: the last one load-balanced with it. -/
def recordOf (vs : List Visit) (key : Text) : Option Visit :=
  vs.reverse.find? (fun v => decide (v.decision.reason = .loadBalance ∧ v.decision.prefixHash = some key))

/-- The most recent admitted visit with the request's prefix. -/
def lastAdmitted (vs : List Visit) (spec : RequestSpec) : Option Visit :=
  vs.reverse.find? (fun v => decide (v.decision.admitted = true ∧ promptPrefix v.spec = promptPrefix spec))

theorem recordOf_snoc (vs : List Visit) (v : Visit) (key : Text) :
    recordOf (vs ++ [v]) key =
      if v.decision.reason = .loadBalance ∧ v.decision.prefixHash = some key then some v else recordOf vs key := by
  unfold recordOf
  rw [List.reverse_append, List.reverse_singleton, List.singleton_append, List.find?_cons]
  by_cases h : v.decision.reason = .loadBalance ∧ v.decision.prefixHash = some key <;> simp [h]

theorem recordOf_mem {vs : List Visit} {key : Text} {v : Visit} (h : recordOf vs key = some v) :
    v ∈ vs ∧ v.decision.reason = .loadBalance ∧ v.decision.prefixHash = some key :=
  ⟨List.mem_reverse.1 (List.mem_of_find?_eq_some h), by simpa using List.find?_some h⟩

theorem lastAdmitted_mem {vs : List Visit} {spec : RequestSpec} {v : Visit} (h : lastAdmitted vs spec = some v) :
    v ∈ vs ∧ v.decision.admitted = true ∧ promptPrefix v.spec = promptPrefix spec :=
  ⟨List.mem_reverse.1 (List.mem_of_find?_eq_some h), by simpa using List.find?_some h⟩

/-! ## The entries of the cache -/

/-- Every entry names the pool its record was sent to, under that pool's salt. -/
def Recorded (r : Router F) (vs : List Visit) : Prop :=
  ∀ key p, r.prefixCache.get? key = some p →
    ∃ v, recordOf vs key = some v ∧ v.decision.pool = p ∧ v.salt = r.saltForPool p

/-- Every key is that of the request under the salt it was looked up with. -/
def Keyed (sha256Hex : List UInt8 → Text) (vs : List Visit) : Prop :=
  ∀ v ∈ vs, ∀ key, v.decision.prefixHash = some key → key = prefixKey sha256Hex v.spec v.salt

theorem loadBalance_cache (r : Router F) (key : Text) (chosen : Option Pool) (k : Text) (p : Pool)
    (h : (r.loadBalance key chosen).2.prefixCache.get? k = some p) :
    ((r.loadBalance key chosen).1 = ⟨p, true, .loadBalance, some k⟩ ∧ chosen = some p) ∨
    (r.prefixCache.get? k = some p ∧ ¬ ((r.loadBalance key chosen).1.reason = .loadBalance ∧
      (r.loadBalance key chosen).1.prefixHash = some k)) := by
  cases chosen with
  | none => exact Or.inr ⟨h, fun hr => by cases hr.1⟩
  | some b =>
    have hset : (r.prefixCache.set key b).get? k = some p := by
      simp only [loadBalance] at h
      split at h
      · exact OrdDict.get?_popFirst _ k p h
      · exact h
    rw [OrdDict.get?_set] at hset
    split at hset
    · rename_i hk
      obtain rfl := Option.some.inj hset
      exact Or.inl ⟨by rw [hk]; rfl, rfl⟩
    · rename_i hk
      refine Or.inr ⟨hset, fun hr => hk ?_⟩
      exact (Option.some.inj hr.2).symm

/-- **What routing leaves in the cache**: what it recorded, or what was there and it did not record over. -/
theorem route_cache (sha256Hex : List UInt8 → Text) (r : Router F) (spec : RequestSpec) (k : Text) (p : Pool)
    (h : (r.route sha256Hex spec).2.prefixCache.get? k = some p) :
    ((r.route sha256Hex spec).1 = ⟨p, true, .loadBalance, some k⟩ ∧ r.selectAdmissible spec = some p) ∨
    (r.prefixCache.get? k = some p ∧ ¬ ((r.route sha256Hex spec).1.reason = .loadBalance ∧
      (r.route sha256Hex spec).1.prefixHash = some k)) := by
  rcases route_eq sha256Hex r spec with ⟨-, hd⟩ | ⟨q, t, -, -, hd⟩ | ⟨-, hd⟩
  · rw [hd] at h ⊢
    exact Or.inr ⟨h, fun hr => by cases hr.1⟩
  · rw [hd] at h ⊢
    rw [touched, OrdDict.get?_moveToEnd] at h
    exact Or.inr ⟨h, fun hr => by cases hr.1⟩
  · rw [hd] at h ⊢
    rcases loadBalance_cache _ _ _ k p h with hnew | ⟨hold, hkeep⟩
    · exact Or.inl hnew
    · rw [touched, OrdDict.get?_moveToEnd] at hold
      exact Or.inr ⟨hold, hkeep⟩

theorem route_prefixHash (sha256Hex : List UInt8 → Text) (r : Router F) (spec : RequestSpec) (key : Text)
    (h : (r.route sha256Hex spec).1.prefixHash = some key) : key = r.lookupKey sha256Hex spec := by
  rcases route_eq sha256Hex r spec with ⟨-, hd⟩ | ⟨q, t, -, -, hd⟩ | ⟨-, hd⟩
  · rw [hd] at h
    cases h
  · rw [hd] at h
    exact (Option.some.inj h).symm
  · rw [hd] at h
    cases hsel : r.selectAdmissible spec <;> rw [hsel] at h <;> exact (Option.some.inj h).symm

theorem recorded_step (sha256Hex : List UInt8 → Text) (r : Router F) (vs : List Visit) (op : Op)
    (h : r.Recorded vs) : (step sha256Hex r op).Recorded (vs ++ r.visit sha256Hex op) := by
  cases op with
  | registerPool state =>
    rw [visit, List.append_nil]
    exact h
  | updateDepth pool depth =>
    rw [visit, List.append_nil]
    exact h
  | route spec =>
    intro key p hget
    have hsalt : (step sha256Hex r (.route spec)).saltForPool = r.saltForPool := (route_config sha256Hex r spec).2.2
    rw [hsalt, visit, recordOf_snoc]
    rcases route_cache sha256Hex r spec key p hget with ⟨hd, hsel⟩ | ⟨hold, hkeep⟩
    · refine ⟨_, if_pos ?_, ?_, ?_⟩
      · rw [hd]
        exact ⟨rfl, rfl⟩
      · rw [hd]
      · rw [lookupSalt, hsel]
        rfl
    · rw [if_neg hkeep]
      exact h key p hold

/-- **Every cache entry of a run was recorded under its own pool's salt.** -/
theorem recorded_after (sha256Hex : List UInt8 → Text) : ∀ (ops : List Op) (r : Router F) (vs : List Visit),
    r.Recorded vs → (r.after sha256Hex ops).Recorded (vs ++ r.visits sha256Hex ops)
  | [], r, vs, h => by
    rw [visits, List.append_nil]
    exact h
  | op :: ops, r, vs, h => by
    have hrest := recorded_after sha256Hex ops _ _ (recorded_step sha256Hex r vs op h)
    rwa [List.append_assoc] at hrest

theorem keyed_visits (sha256Hex : List UInt8 → Text) : ∀ (ops : List Op) (r : Router F),
    Keyed sha256Hex (r.visits sha256Hex ops)
  | [], r, v, hv => by cases hv
  | op :: ops, r, v, hv => by
    rcases List.mem_append.1 hv with hv | hv
    · cases op with
      | registerPool state => cases hv
      | updateDepth pool depth => cases hv
      | route spec =>
        obtain rfl := List.mem_singleton.1 hv
        intro key hkey
        rw [route_prefixHash sha256Hex r spec key hkey, lookupKey_eq]
    · exact keyed_visits sha256Hex ops _ v hv

theorem saltForPool_after (sha256Hex : List UInt8 → Text) (r : Router F) (ops : List Op) :
    (r.after sha256Hex ops).saltForPool = r.saltForPool :=
  Runs.run_invariant (fun x : Router F => x.saltForPool = r.saltForPool) ops r
    (fun s op _ h => by
      cases op with
      | registerPool state => exact h
      | updateDepth pool depth => exact h
      | route spec => exact (route_config sha256Hex s spec).2.2.trans h) rfl

theorem recorded_fresh (policy : AdmissionPolicy F) (cacheMax : Int) (salt : Pool → List UInt8) (metrics : Bool) :
    (fresh policy cacheMax salt metrics).Recorded [] :=
  fun key p h => by rw [fresh, OrdDict.get?_empty] at h; cases h

/-! ## Stickiness -/

/-- No two different salted prompts of the log share a key. -/
def KeysApart (vs : List Visit) : Prop :=
  ∀ v ∈ vs, ∀ w ∈ vs, ∀ key, v.decision.prefixHash = some key → w.decision.prefixHash = some key →
    v.salt = w.salt ∧ promptPrefix v.spec = promptPrefix w.spec

/-- The request is sent to `p` for a cache hit. -/
def SticksTo (sha256Hex : List UInt8 → Text) (r : Router F) (spec : RequestSpec) (p : Pool) : Prop :=
  (r.route sha256Hex spec).1.pool = p ∧ (r.route sha256Hex spec).1.admitted = true ∧
    (r.route sha256Hex spec).1.reason = .cacheHit

theorem exists_selected {r : Router F} {spec : RequestSpec} {p : Pool} {s : PoolState} (h : r.IsOpen spec p s) :
    ∃ b, r.selectAdmissible spec = some b := by
  cases hsel : r.selectAdmissible spec with
  | none => exact absurd h (selectAdmissible_none r spec hsel p s)
  | some b => exact ⟨b, rfl⟩

theorem sticksTo_iff_lookup (sha256Hex : List UInt8 → Text) (r : Router F) (spec : RequestSpec) (p : Pool)
    (s : PoolState) (h : r.IsOpen spec p s) :
    r.SticksTo sha256Hex spec p ↔ r.prefixCache.get? (r.lookupKey sha256Hex spec) = some p := by
  constructor
  · rintro ⟨hpool, -, hreason⟩
    rcases route_cases sha256Hex r spec with ⟨hnone, -⟩ | ⟨q, t, hc, -, hd⟩ | ⟨b, -, -, hd⟩
    · exact absurd h (selectAdmissible_none r spec hnone p s)
    · rw [hd] at hpool
      rw [hc, ← hpool]
    · rw [hd] at hreason
      cases hreason
  · intro hc
    unfold SticksTo
    rw [route_hit sha256Hex r spec p s hc h]
    exact ⟨rfl, rfl, rfl⟩

/-- The salt of the pool chosen before the lookup decides where the lookup is made. -/
theorem lookup_under_selected (sha256Hex : List UInt8 → Text) (r : Router F) (spec : RequestSpec) (p : Pool)
    (hsel : ∃ b, r.selectAdmissible spec = some b) :
    r.prefixCache.get? (r.lookupKey sha256Hex spec) = some p ↔
      ∃ b, r.selectAdmissible spec = some b ∧
        r.prefixCache.get? (prefixKey sha256Hex spec (r.saltForPool b)) = some p := by
  obtain ⟨b, hb⟩ := hsel
  rw [lookupKey_eq, lookupSalt, hb]
  constructor
  · exact fun h => ⟨b, rfl, h⟩
  · rintro ⟨b', hb', h⟩
    obtain rfl := Option.some.inj hb'
    exact h

theorem prefixKey_congr (sha256Hex : List UInt8 → Text) {s t : RequestSpec} (salt : List UInt8)
    (h : promptPrefix s = promptPrefix t) : prefixKey sha256Hex s salt = prefixKey sha256Hex t salt := by
  unfold promptPrefix at h
  rw [prefixKey, prefixKey, h]

/-- **When no two salted prompts share a key, a prefix whose entry is still there is found again exactly under the salt
of the pool that served it.** -/
theorem found_iff_salt (sha256Hex : List UInt8 → Text) (r : Router F) (vs : List Visit) (spec : RequestSpec)
    (hrec : r.Recorded vs) (hkeyed : Keyed sha256Hex vs) (hne : r.pools.items ≠ [])
    (hapart : KeysApart (vs ++ r.visit sha256Hex (.route spec))) (v : Visit) (p : Pool) (key : Text)
    (hlast : lastAdmitted vs spec = some v) (hkey : v.decision.prefixHash = some key)
    (hentry : r.prefixCache.get? key = some p) :
    r.prefixCache.get? (r.lookupKey sha256Hex spec) = some p ↔ r.lookupSalt spec = r.saltForPool p := by
  obtain ⟨hv, -, hprefix⟩ := lastAdmitted_mem hlast
  have hsame : key = prefixKey sha256Hex spec (r.saltForPool p) := by
    obtain ⟨w, hw, -, hsalt⟩ := hrec key p hentry
    obtain ⟨hwmem, -, hwkey⟩ := recordOf_mem hw
    have happ := hapart v (List.mem_append_left _ hv) w (List.mem_append_left _ hwmem) key hkey hwkey
    rw [hkeyed v hv key hkey, happ.1, hsalt]
    exact prefixKey_congr sha256Hex _ hprefix
  constructor
  · intro hfound
    obtain ⟨w, hw, -, hsalt⟩ := hrec _ p hfound
    obtain ⟨hwmem, -, hwkey⟩ := recordOf_mem hw
    have hhere : (r.route sha256Hex spec).1.prefixHash = some (r.lookupKey sha256Hex spec) := by
      rcases route_eq sha256Hex r spec with ⟨hemp, -⟩ | ⟨q, t, -, -, hd⟩ | ⟨-, hd⟩
      · exact absurd hemp hne
      · rw [hd]
      · rw [hd]
        cases r.selectAdmissible spec <;> rfl
    have happ := hapart ⟨spec, r.lookupSalt spec, (r.route sha256Hex spec).1⟩
      (List.mem_append_right _ List.mem_cons_self) w (List.mem_append_left _ hwmem) _ hhere hwkey
    exact happ.1.trans hsalt
  · intro hsalt
    rw [lookupKey_eq, hsalt, ← hsame]
    exact hentry

/-- **Stickiness over whole runs.**  Let `v` be the most recent admitted request with the prefix, its cache entry still
be there and its pool be open to the request.  Then `route` answers that pool for a cache hit exactly when the cache
names it under the salt of the pool chosen before the lookup; while no two salted prompts of the run share a key,
exactly when the two pools have one salt. -/
theorem sticky_over_runs (sha256Hex : List UInt8 → Text) (policy : AdmissionPolicy F) (cacheMax : Int)
    (salt : Pool → List UInt8) (metrics : Bool) (ops : List Op) (spec : RequestSpec) (v : Visit) (key : Text)
    (s : PoolState)
    (hlast : lastAdmitted ((fresh policy cacheMax salt metrics).visits sha256Hex ops) spec = some v)
    (hkey : v.decision.prefixHash = some key)
    (hentry : ((fresh policy cacheMax salt metrics).after sha256Hex ops).prefixCache.get? key = some v.decision.pool)
    (hopen : registered ops v.decision.pool = some s ∧ s.healthy = true ∧ Passes policy spec s) :
    let r := (fresh policy cacheMax salt metrics).after sha256Hex ops
    (r.SticksTo sha256Hex spec v.decision.pool ↔ ∃ b, r.selectAdmissible spec = some b ∧
      r.prefixCache.get? (prefixKey sha256Hex spec (salt b)) = some v.decision.pool) ∧
    (KeysApart ((fresh policy cacheMax salt metrics).visits sha256Hex (ops ++ [.route spec])) →
      (r.SticksTo sha256Hex spec v.decision.pool ↔
        ∃ b, r.selectAdmissible spec = some b ∧ salt b = salt v.decision.pool)) := by
  intro r
  have hsalt : r.saltForPool = salt := saltForPool_after sha256Hex _ ops
  have ho : r.IsOpen spec v.decision.pool s := by
    unfold IsOpen
    rw [pools_after, policy_after]
    exact hopen
  have hsel := exists_selected ho
  have hrec : r.Recorded ((fresh policy cacheMax salt metrics).visits sha256Hex ops) :=
    recorded_after sha256Hex ops _ [] (recorded_fresh policy cacheMax salt metrics)
  have hne : r.pools.items ≠ [] := List.ne_nil_of_mem ((OrdDict.mem_items _ _ _).2 ho.1)
  constructor
  · rw [sticksTo_iff_lookup sha256Hex r spec _ s ho, lookup_under_selected sha256Hex r spec _ hsel, hsalt]
  · intro hapart
    rw [visits_append] at hapart
    have hfound := found_iff_salt sha256Hex r _ spec hrec (keyed_visits sha256Hex ops _) hne
      (by simpa [visits] using hapart) v _ key hlast hkey hentry
    rw [sticksTo_iff_lookup sha256Hex r spec _ s ho, hfound, lookupSalt, hsalt]
    obtain ⟨b, hb⟩ := hsel
    rw [hb]
    simp

theorem headroom_ge : FloatArith.le (FloatArith.ofNat 0) (80 : ℚ) = true := by decide +kernel

theorem headroom_le : FloatArith.le (80 : ℚ) (FloatArith.ofNat 100) = true := by decide +kernel

/-- The policy a router gets when it is given none. -/
def defaultPolicy : AdmissionPolicy ℚ := ⟨80, true, headroom_ge, headroom_le⟩

def poolSalt (p : Pool) : List UInt8 := Text.utf8 ("salt-".toList ++ p.value)

/-- The SHA-256 of `salt-prefillhello` and of `salt-decodehello`, which are all the runs below hash. -/
def saltedHash (b : List UInt8) : Text :=
  if b = poolSalt .prefill ++ Text.utf8 "hello".toList then
    "8ffbac7b44d8c0447f31503dfed4bd082acea9579dca7a629e9fffd89cdac20f".toList
  else "436a682c4c19c96ebed7f2746039281f91cade9706ea9144cd571c4df3b7d3a9".toList

def helloInteractive : RequestSpec := { helloBatch with sloClass := .interactive }

theorem slots_pos : 0 < 64 := by decide

/-- A request served by the prefill pool, which is deeper than the decode pool since. -/
def servedThenDeeper : List Op :=
  [.registerPool ⟨.prefill, 0, 64, true, slots_pos⟩, .registerPool ⟨.decode, 5, 64, true, slots_pos⟩,
    .route helloInteractive, .updateDepth .prefill 10]

/-- The visit that served it. -/
def servedByPrefill : Visit :=
  ⟨helloInteractive, poolSalt .prefill,
    ⟨.prefill, true, .loadBalance, some (prefixKey saltedHash helloInteractive (poolSalt .prefill))⟩⟩

/-- **A prefix leaves the pool that served it** once that is no longer the least deep: the lookup is made in the namespace
of the pool chosen first. -/
theorem prefix_leaves_its_pool :
    let fresh := fresh defaultPolicy 1024 poolSalt false
    let r := fresh.after saltedHash servedThenDeeper
    helloInteractive.sloClass = .interactive ∧ helloInteractive.workload ≠ .rag ∧
    lastAdmitted (fresh.visits saltedHash servedThenDeeper) helloInteractive = some servedByPrefill ∧
    r.prefixCache.get? (prefixKey saltedHash helloInteractive (poolSalt .prefill)) = some .prefill ∧
    r.IsOpen helloInteractive .prefill ⟨.prefill, 10, 64, true, by decide⟩ ∧
    (r.route saltedHash helloInteractive).1.pool = .decode ∧ ¬ r.SticksTo saltedHash helloInteractive .prefill := by
  have hpool : ((((fresh defaultPolicy 1024 poolSalt false).after saltedHash
      servedThenDeeper).route saltedHash helloInteractive).1).pool = .decode := by
    decide +kernel
  refine ⟨rfl, by decide, by decide +kernel, by decide +kernel,
    ⟨by decide +kernel, rfl, Or.inl (by decide +kernel)⟩, hpool, fun hstick => ?_⟩
  have hmoved := hstick.1.symm.trans hpool
  cases hmoved

/-- The visit of the same request after it. -/
def movedToDecode : Visit :=
  ⟨helloInteractive, poolSalt .decode,
    ⟨.decode, true, .loadBalance, some (prefixKey saltedHash helloInteractive (poolSalt .decode))⟩⟩

theorem servedThenDeeper_apart : KeysApart ((fresh defaultPolicy 1024 poolSalt false).visits saltedHash
    (servedThenDeeper ++ [.route helloInteractive])) := by
  have hvisits : (fresh defaultPolicy 1024 poolSalt false).visits saltedHash
      (servedThenDeeper ++ [.route helloInteractive]) = [servedByPrefill, movedToDecode] := by decide +kernel
  have hne : servedByPrefill.decision.prefixHash ≠ movedToDecode.decision.prefixHash := by decide +kernel
  rw [hvisits]
  intro v hv w hw key hkv hkw
  have hsame := hkv.trans hkw.symm
  simp only [List.mem_cons, List.not_mem_nil, or_false] at hv hw
  rcases hv with rfl | rfl <;> rcases hw with rfl | rfl
  · exact ⟨rfl, rfl⟩
  · exact absurd hsame hne
  · exact absurd hsame.symm hne
  · exact ⟨rfl, rfl⟩

theorem sticky_served_then_deeper :
    let r := (fresh defaultPolicy 1024 poolSalt false).after saltedHash
      servedThenDeeper
    (r.SticksTo saltedHash helloInteractive .prefill ↔ ∃ b, r.selectAdmissible helloInteractive = some b ∧
      r.prefixCache.get? (prefixKey saltedHash helloInteractive (poolSalt b)) = some .prefill) ∧
    (r.SticksTo saltedHash helloInteractive .prefill ↔
      ∃ b, r.selectAdmissible helloInteractive = some b ∧ poolSalt b = poolSalt .prefill) := by
  have hsticky := sticky_over_runs saltedHash defaultPolicy 1024 poolSalt false servedThenDeeper helloInteractive
    servedByPrefill (prefixKey saltedHash helloInteractive (poolSalt .prefill)) ⟨.prefill, 10, 64, true, by decide⟩
    (by decide +kernel) rfl (by decide +kernel) ⟨by decide +kernel, rfl, Or.inl (by decide +kernel)⟩
  exact ⟨hsticky.1, hsticky.2 servedThenDeeper_apart⟩

/-! ## RAG requests and the tier -/

theorem selectAdmissible_tier (r : Router F) (spec : RequestSpec) (hr : spec.workload = .rag) (t : PoolState)
    (h : r.IsOpen spec .tier t) : r.selectAdmissible spec = some .tier := by
  have hmem := (mem_eligible r (.tier, t)).2 ⟨h.1, h.2.1⟩
  have hne : (r.pools.items.filter (fun p => p.2.healthy)).isEmpty = false := by
    rw [List.isEmpty_eq_false_iff]
    exact List.ne_nil_of_mem hmem
  have htier : (Pool.tier, t) ∈
      (r.pools.items.filter (fun p => p.2.healthy)).filter (fun p => decide (p.1 = .tier)) :=
    List.mem_filter.2 ⟨hmem, by simp⟩
  unfold selectAdmissible
  simp only [hne, hr, Bool.false_eq_true, if_false, if_true]
  cases hleast : leastBy (fun p => p.2.queueDepth) (fun p => r.admissible spec p.2)
      ((r.pools.items.filter (fun p => p.2.healthy)).filter (fun p => decide (p.1 = .tier))) with
  | none =>
    have hno := leastBy_eq_none.1 hleast _ htier
    have hadm := (admissible_iff r spec t).2 h.2
    simp only at hno
    rw [hno] at hadm
    cases hadm
  | some q =>
    have hq := (List.mem_filter.1 (leastBy_mem hleast)).2
    simp only [decide_eq_true_eq] at hq
    simp [hq]

def GoesToTier (sha256Hex : List UInt8 → Text) (r : Router F) (spec : RequestSpec) : Prop :=
  (r.route sha256Hex spec).1.admitted = true ∧ (r.route sha256Hex spec).1.pool = .tier

/-- The entry under the request's key in the tier's namespace names another pool, which is open. -/
def TierShadowed (sha256Hex : List UInt8 → Text) (r : Router F) (spec : RequestSpec) : Prop :=
  ∃ q t, q ≠ .tier ∧ r.prefixCache.get? (prefixKey sha256Hex spec (r.saltForPool .tier)) = some q ∧ r.IsOpen spec q t

theorem goesToTier_iff (sha256Hex : List UInt8 → Text) (r : Router F) (spec : RequestSpec)
    (hr : spec.workload = .rag) (s : PoolState) (h : r.IsOpen spec .tier s) :
    r.GoesToTier sha256Hex spec ↔ ¬ r.TierShadowed sha256Hex spec := by
  have hsel := selectAdmissible_tier r spec hr s h
  have hkey : r.lookupKey sha256Hex spec = prefixKey sha256Hex spec (r.saltForPool .tier) := by
    rw [lookupKey_eq, lookupSalt, hsel]
    rfl
  constructor
  · rintro ⟨-, hpool⟩ ⟨q, t, hne, hc, ho⟩
    rw [← hkey] at hc
    rw [route_hit sha256Hex r spec q t hc ho] at hpool
    exact hne hpool
  · intro hno
    rcases route_cases sha256Hex r spec with ⟨hnone, -⟩ | ⟨q, t, hc, ho, hd⟩ | ⟨b, hb, -, hd⟩
    · exact absurd h (selectAdmissible_none r spec hnone _ s)
    · rw [hkey] at hc
      have hq : q = .tier := by
        by_contra hne
        exact hno ⟨q, t, hne, hc, ho⟩
      unfold GoesToTier
      rw [hd]
      exact ⟨rfl, hq⟩
    · rw [hsel] at hb
      unfold GoesToTier
      rw [hd]
      exact ⟨rfl, (Option.some.inj hb).symm⟩

/-- **RAG over whole runs**: while the tier is open to a RAG request, the request goes to it exactly when no entry of
the tier's namespace shadows it. -/
theorem tier_over_runs (sha256Hex : List UInt8 → Text) (policy : AdmissionPolicy F) (cacheMax : Int)
    (salt : Pool → List UInt8) (metrics : Bool) (ops : List Op) (spec : RequestSpec) (hr : spec.workload = .rag)
    (s : PoolState) (hopen : registered ops .tier = some s ∧ s.healthy = true ∧ Passes policy spec s) :
    let r := (fresh policy cacheMax salt metrics).after sha256Hex ops
    r.GoesToTier sha256Hex spec ↔ ¬ r.TierShadowed sha256Hex spec := by
  refine goesToTier_iff sha256Hex _ spec hr s ?_
  unfold IsOpen
  rw [pools_after, policy_after]
  exact hopen

def helloRag : RequestSpec := { helloInteractive with workload := .rag }

/-- A RAG request routed before the tier is registered. -/
def ragBeforeTier : List Op :=
  [.registerPool ⟨.decode, 0, 64, true, slots_pos⟩, .route helloRag, .registerPool ⟨.tier, 0, 64, true, slots_pos⟩]

theorem rag_kept_off_tier :
    let r := (fresh defaultPolicy 1024 (fun _ => []) false).after helloHash
      ragBeforeTier
    helloRag.workload = .rag ∧ r.IsOpen helloRag .tier ⟨.tier, 0, 64, true, by decide⟩ ∧
      (r.route helloHash helloRag).1.pool = .decode ∧ ¬ r.GoesToTier helloHash helloRag := by
  have hpool : ((((fresh defaultPolicy 1024 (fun _ => []) false).after
      helloHash ragBeforeTier).route helloHash helloRag).1).pool = .decode := by
    decide +kernel
  refine ⟨rfl, ⟨by decide +kernel, rfl, Or.inl (by decide +kernel)⟩, hpool, fun htier => ?_⟩
  have hmoved := htier.2.symm.trans hpool
  cases hmoved

theorem tier_after_registering :
    let r := (fresh defaultPolicy 1024 (fun _ => []) false).after helloHash
      ragBeforeTier
    r.GoesToTier helloHash helloRag ↔ ¬ r.TierShadowed helloHash helloRag :=
  tier_over_runs helloHash _ 1024 (fun _ => []) false ragBeforeTier helloRag rfl ⟨.tier, 0, 64, true, by decide⟩
    ⟨by decide +kernel, rfl, Or.inl (by decide +kernel)⟩

end Router
end GoodputLab
