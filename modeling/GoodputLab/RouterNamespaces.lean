import GoodputLab.RouterCache
/-!
# RouterNamespaces — whether pools share cache entries

A key hashes the salt and the prompt with nothing between them.  While the hashed strings of a run keep their keys
apart, a cache hit matches an entry of the pool that was looked up exactly when no salt followed by a prompt can be
read as another pool's salt followed by another prompt (`namespaces_disjoint_iff`); distinct salts are not enough
(`prefix_salts_share_entries`).
-/
namespace GoodputLab
namespace Router

open FloatArith

variable {F : Type} [FloatArith F]

/-- The bytes a visit's key is the hash of. -/
def Visit.hashed (v : Visit) : List UInt8 := v.salt ++ Text.utf8 (promptPrefix v.spec)

/-- The truncated hash is injective on what the log hashed. -/
def NoCollision (vs : List Visit) : Prop :=
  ∀ v ∈ vs, ∀ w ∈ vs, ∀ key, v.decision.prefixHash = some key → w.decision.prefixHash = some key → v.hashed = w.hashed

/-- If the request hits the cache, the entry was recorded by a request with the same prefix, sent to the pool under
whose salt the lookup is made. -/
def OwnEntry (sha256Hex : List UInt8 → Text) (r : Router F) (vs : List Visit) (spec : RequestSpec) : Prop :=
  (r.route sha256Hex spec).1.reason = .cacheHit →
    ∃ p v, r.selectAdmissible spec = some p ∧ recordOf vs (r.lookupKey sha256Hex spec) = some v ∧
      v.decision.pool = p ∧ promptPrefix v.spec = promptPrefix spec

/-- No salt followed by a prompt reads as another pool's salt followed by a prompt. -/
def Unambiguous (salt : Pool → List UInt8) : Prop :=
  ∀ p q (a b : Text), a.length ≤ 256 → b.length ≤ 256 → salt p ++ Text.utf8 a = salt q ++ Text.utf8 b → p = q

theorem promptPrefix_length (spec : RequestSpec) : (promptPrefix spec).length ≤ 256 :=
  List.length_take_le 256 _

/-! ## Unambiguous salts keep the namespaces apart -/

theorem cacheHit_entry (sha256Hex : List UInt8 → Text) (r : Router F) (spec : RequestSpec)
    (h : (r.route sha256Hex spec).1.reason = .cacheHit) :
    ∃ q t, r.prefixCache.get? (r.lookupKey sha256Hex spec) = some q ∧ r.IsOpen spec q t ∧
      (r.route sha256Hex spec).1.prefixHash = some (r.lookupKey sha256Hex spec) := by
  rcases route_eq sha256Hex r spec with ⟨-, hd⟩ | ⟨q, t, hc, ho, hd⟩ | ⟨-, hd⟩
  · rw [hd] at h
    cases h
  · exact ⟨q, t, hc, ho, by rw [hd]⟩
  · rw [hd] at h
    cases hsel : r.selectAdmissible spec <;> rw [hsel] at h <;> cases h

theorem ownEntry_of_unambiguous (sha256Hex : List UInt8 → Text) (r : Router F) (vs : List Visit) (spec : RequestSpec)
    (hsalt : Unambiguous r.saltForPool) (hrec : r.Recorded vs)
    (hno : NoCollision (vs ++ r.visit sha256Hex (.route spec))) : r.OwnEntry sha256Hex vs spec := by
  intro hhit
  obtain ⟨q, t, hc, ho, hhash⟩ := cacheHit_entry sha256Hex r spec hhit
  obtain ⟨p, hp⟩ := exists_selected ho
  obtain ⟨v, hv, hpool, hvsalt⟩ := hrec _ q hc
  obtain ⟨hmem, -, hkey⟩ := recordOf_mem hv
  have hsame := hno v (List.mem_append_left _ hmem) ⟨spec, r.lookupSalt spec, (r.route sha256Hex spec).1⟩
    (List.mem_append_right _ List.mem_cons_self) _ hkey hhash
  unfold Visit.hashed at hsame
  rw [hvsalt, lookupSalt, hp, Option.getD_some] at hsame
  obtain rfl := hsalt q p _ _ (promptPrefix_length _) (promptPrefix_length _) hsame
  exact ⟨q, v, hp, hv, hpool, Text.utf8_injective (List.append_cancel_left hsame)⟩

/-! ## A cache that never holds an entry -/

theorem loadBalance_cacheMax (r : Router F) (key : Text) (chosen : Option Pool) :
    (r.loadBalance key chosen).2.cacheMax = r.cacheMax := by
  cases chosen <;> rfl

theorem loadBalance_empty (r : Router F) (key : Text) (chosen : Option Pool) (hempty : r.prefixCache.items = [])
    (h : r.cacheMax < 1 ∨ chosen = none) : (r.loadBalance key chosen).2.prefixCache.items = [] := by
  cases chosen with
  | none => exact hempty
  | some p =>
    have hset : (r.prefixCache.set key p).items = [(key, p)] := by
      show OrdDict.setItems key p r.prefixCache.items = [(key, p)]
      rw [hempty]
      rfl
    have hsmall : r.cacheMax < ((r.prefixCache.set key p).size : Int) := by
      rw [OrdDict.size, hset]
      rcases h with h | h
      · exact h
      · cases h
    simp only [loadBalance, hsmall, if_true]
    show (r.prefixCache.set key p).items.tail = []
    rw [hset]
    rfl

theorem get?_of_empty {r : Router F} (h : r.prefixCache.items = []) (key : Text) : r.prefixCache.get? key = none := by
  unfold OrdDict.get?
  rw [h]
  rfl

theorem touched_of_empty {r : Router F} (h : r.prefixCache.items = []) (key : Text) : r.touched key = r := by
  simp [touched, OrdDict.moveToEnd, get?_of_empty h]

theorem step_empty (sha256Hex : List UInt8 → Text) (r : Router F) (op : Op) (hempty : r.prefixCache.items = [])
    (h : r.cacheMax < 1 ∨ ∀ spec s, ¬ Passes r.policy spec s) :
    (step sha256Hex r op).prefixCache.items = [] ∧ (step sha256Hex r op).cacheMax = r.cacheMax := by
  cases op with
  | registerPool state => exact ⟨hempty, rfl⟩
  | updateDepth pool depth => exact ⟨hempty, rfl⟩
  | route spec =>
    have hsel : r.cacheMax < 1 ∨ r.selectAdmissible spec = none := by
      refine h.imp id (fun hclosed => ?_)
      cases hs : r.selectAdmissible spec with
      | none => rfl
      | some p =>
        obtain ⟨s, ho⟩ := selectAdmissible_open r spec p hs
        exact absurd ho.2.2 (hclosed spec s)
    simp only [step]
    rcases route_eq sha256Hex r spec with ⟨-, hd⟩ | ⟨q, t, hc, -, -⟩ | ⟨-, hd⟩
    · rw [hd]
      exact ⟨hempty, rfl⟩
    · rw [get?_of_empty hempty] at hc
      cases hc
    · rw [hd, touched_of_empty hempty]
      exact ⟨loadBalance_empty r _ _ hempty hsel, loadBalance_cacheMax r _ _⟩

/-- **A router with no room, or whose policy passes nothing, never has a cache entry.** -/
theorem after_empty (sha256Hex : List UInt8 → Text) (policy : AdmissionPolicy F) (cacheMax : Int)
    (salt : Pool → List UInt8) (metrics : Bool) (ops : List Op)
    (h : cacheMax < 1 ∨ ∀ spec s, ¬ Passes policy spec s) :
    ((fresh policy cacheMax salt metrics).after sha256Hex ops).prefixCache.items = [] := by
  have hrun : let r := (fresh policy cacheMax salt metrics).after sha256Hex ops
      r.prefixCache.items = [] ∧ r.cacheMax = cacheMax ∧ r.policy = policy := by
    refine Runs.run_invariant
      (fun r : Router F => r.prefixCache.items = [] ∧ r.cacheMax = cacheMax ∧ r.policy = policy) ops _
      (fun r op _ hr => ?_) ⟨rfl, rfl, rfl⟩
    obtain ⟨hempty, hmax, hpolicy⟩ := hr
    have hstep := step_empty sha256Hex r op hempty (by rw [hmax, hpolicy]; exact h)
    exact ⟨hstep.1, hstep.2.trans hmax, (step_policy sha256Hex r op).trans hpolicy⟩
  exact hrun.1

/-! ## Ambiguous salts share an entry -/

/-- A chat request for the text, of the class of `spec`. -/
def asking (spec : RequestSpec) (text : Text) : RequestSpec := { spec with workload := .chat, promptText := text }

/-- The state `s` as a healthy one of the pool. -/
def stateOf (s : PoolState) (p : Pool) : PoolState := { s with pool := p, healthy := true }

/-- A request for `a` while `p` alone is registered, then `q` is registered with the state of `p`. -/
def recordThenRegister (spec : RequestSpec) (s : PoolState) (p q : Pool) (a : Text) : List Op :=
  [.registerPool (stateOf s p), .route (asking spec a), .registerPool (stateOf s q)]

theorem promptPrefix_asking (spec : RequestSpec) {a : Text} (h : a.length ≤ 256) :
    promptPrefix (asking spec a) = a :=
  List.take_of_length_le h

section Shared

variable (sha256Hex : List UInt8 → Text) (policy : AdmissionPolicy F) (cacheMax : Int) (salt : Pool → List UInt8)
  (spec : RequestSpec) (s : PoolState) (p q : Pool) (a b : Text)

/-- The router with `p` alone registered. -/
def aloneWith : Router F := (fresh policy cacheMax salt false).registerPool (stateOf s p)

theorem alone_selects (hpass : Passes policy spec s) :
    (aloneWith policy cacheMax salt s p).selectAdmissible (asking spec a) = some p := by
  have hopen : (aloneWith policy cacheMax salt s p).IsOpen (asking spec a) p (stateOf s p) :=
    ⟨OrdDict.get?_set_self _ _ _, rfl, hpass⟩
  obtain ⟨x, hx⟩ := exists_selected hopen
  obtain ⟨t, ht, -⟩ := selectAdmissible_open _ _ x hx
  have hget : (aloneWith policy cacheMax salt s p).pools.get? x = if x = p then some (stateOf s p) else none :=
    OrdDict.get?_set _ _ _ _
  rw [hget] at ht
  split at ht
  · rename_i hxp
    rw [hx, hxp]
  · cases ht

theorem alone_records (hmax : 1 ≤ cacheMax) (hpass : Passes policy spec s) :
    ((aloneWith policy cacheMax salt s p).route sha256Hex (asking spec a)).2.prefixCache.get?
      (prefixKey sha256Hex (asking spec a) (salt p)) = some p := by
  have hsel := alone_selects policy cacheMax salt spec s p a hpass
  have hempty : (aloneWith policy cacheMax salt s p).prefixCache.items = [] := rfl
  have hkey : (aloneWith policy cacheMax salt s p).lookupKey sha256Hex (asking spec a) =
      prefixKey sha256Hex (asking spec a) (salt p) := by
    rw [lookupKey_eq, lookupSalt, hsel]
    rfl
  rcases route_eq sha256Hex (aloneWith policy cacheMax salt s p) (asking spec a) with
    ⟨hnone, -⟩ | ⟨x, t, hc, -, -⟩ | ⟨-, hd⟩
  · cases hnone
  · rw [get?_of_empty hempty] at hc
    cases hc
  · rw [hd, touched_of_empty hempty, hsel, hkey]
    have hroom : ¬ cacheMax < 1 := by omega
    simp [loadBalance, aloneWith, registerPool, fresh, OrdDict.set, OrdDict.setItems, OrdDict.empty, OrdDict.size,
      OrdDict.get?, hroom]

/-- The router with both registered, in that order. -/
theorem both_pools (x : Pool) :
    ((fresh policy cacheMax salt false).after sha256Hex (recordThenRegister spec s p q a)).pools.get? x =
      if x = q then some (stateOf s q) else if x = p then some (stateOf s p) else none :=
  pools_after sha256Hex policy cacheMax salt false _ x

theorem both_open {x : Pool} (hx : x = p ∨ x = q) (hpass : Passes policy spec s) :
    ((fresh policy cacheMax salt false).after sha256Hex (recordThenRegister spec s p q a)).IsOpen
      (asking spec b) x (stateOf s x) := by
  refine ⟨?_, rfl, by rw [policy_after]; exact hpass⟩
  rw [both_pools]
  by_cases hxq : x = q
  · rw [if_pos hxq, hxq]
  · have hxp := hx.resolve_right hxq
    rw [if_neg hxq, if_pos hxp, hxp]

theorem both_selects (hlt : q.value < p.value) (hpass : Passes policy spec s) :
    (((fresh policy cacheMax salt false).after sha256Hex (recordThenRegister spec s p q a)).selectAdmissible
      (asking spec b)) = some q := by
  have hopen := both_open sha256Hex policy cacheMax salt spec s p q a b (Or.inr rfl) hpass
  obtain ⟨x, hx⟩ := exists_selected hopen
  obtain ⟨t, ht, -⟩ := selectAdmissible_open _ _ x hx
  have hchat : (asking spec b).workload ≠ .rag := WorkloadType.noConfusion
  have hle := selectAdmissible_depthKey _ (asking spec b) hchat x hx t ht q (stateOf s q) hopen
  rw [both_pools] at ht
  split at ht
  · rename_i hxq
    rw [hx, hxq]
  · split at ht
    · obtain rfl := Option.some.inj ht
      rcases Prod.Lex.le_iff.1 hle with hdepth | ⟨-, hname⟩
      · exact absurd hdepth (lt_irrefl _)
      · exact absurd hname (not_le.2 hlt)
    · cases ht

theorem both_salt (hlt : q.value < p.value) (hpass : Passes policy spec s) :
    ((fresh policy cacheMax salt false).after sha256Hex (recordThenRegister spec s p q a)).lookupSalt
      (asking spec b) = salt q := by
  rw [lookupSalt, both_selects sha256Hex policy cacheMax salt spec s p q a b hlt hpass, saltForPool_after]
  rfl

/-- Both requests hash one string. -/
theorem both_hashed (hlt : q.value < p.value) (hpass : Passes policy spec s)
    (ha : a.length ≤ 256) (hb : b.length ≤ 256) (hsame : salt p ++ Text.utf8 a = salt q ++ Text.utf8 b) :
    ∀ v ∈ (fresh policy cacheMax salt false).visits sha256Hex
      (recordThenRegister spec s p q a ++ [.route (asking spec b)]), v.hashed = salt p ++ Text.utf8 a := by
  intro v hv
  rw [visits_append] at hv
  rcases List.mem_append.1 hv with hv | hv
  · obtain rfl := List.mem_singleton.1 hv
    have hsaltA : (aloneWith policy cacheMax salt s p).lookupSalt (asking spec a) = salt p := by
      rw [lookupSalt, alone_selects policy cacheMax salt spec s p a hpass]
      rfl
    show (aloneWith policy cacheMax salt s p).lookupSalt (asking spec a) ++ _ = _
    rw [hsaltA, promptPrefix_asking spec ha]
  · obtain rfl := List.mem_singleton.1 hv
    show ((fresh policy cacheMax salt false).after sha256Hex (recordThenRegister spec s p q a)).lookupSalt
      (asking spec b) ++ _ = _
    rw [both_salt sha256Hex policy cacheMax salt spec s p q a b hlt hpass, promptPrefix_asking spec hb, hsame]

/-- **Two salts that run into one string share an entry**: the request for `b`, looked up for `q`, hits the entry the
request for `a` recorded for `p`, and the truncated hash had one string to hash. -/
theorem shared_entry (hlt : q.value < p.value) (hpass : Passes policy spec s) (hmax : 1 ≤ cacheMax)
    (ha : a.length ≤ 256) (hb : b.length ≤ 256) (hsame : salt p ++ Text.utf8 a = salt q ++ Text.utf8 b) :
    NoCollision ((fresh policy cacheMax salt false).visits sha256Hex
      (recordThenRegister spec s p q a ++ [.route (asking spec b)])) ∧
    ¬ ((fresh policy cacheMax salt false).after sha256Hex (recordThenRegister spec s p q a)).OwnEntry sha256Hex
      ((fresh policy cacheMax salt false).visits sha256Hex (recordThenRegister spec s p q a)) (asking spec b) := by
  set r := (fresh policy cacheMax salt false).after sha256Hex (recordThenRegister spec s p q a) with hr
  have hselB : r.selectAdmissible (asking spec b) = some q :=
    both_selects sha256Hex policy cacheMax salt spec s p q a b hlt hpass
  have hsaltB : r.lookupSalt (asking spec b) = salt q :=
    both_salt sha256Hex policy cacheMax salt spec s p q a b hlt hpass
  have hkey : r.lookupKey sha256Hex (asking spec b) = prefixKey sha256Hex (asking spec a) (salt p) := by
    have hA : (asking spec a).promptText.take 256 = a := promptPrefix_asking spec ha
    have hB : (asking spec b).promptText.take 256 = b := promptPrefix_asking spec hb
    rw [lookupKey_eq, hsaltB, prefixKey, prefixKey, hA, hB, hsame]
  have hentry : r.prefixCache.get? (r.lookupKey sha256Hex (asking spec b)) = some p := by
    rw [hkey]
    exact alone_records sha256Hex policy cacheMax salt spec s p a hmax hpass
  constructor
  · have hall := both_hashed sha256Hex policy cacheMax salt spec s p q a b hlt hpass ha hb hsame
    intro v hv w hw _ _ _
    rw [hall v hv, hall w hw]
  · intro hown
    have hopen : r.IsOpen (asking spec b) p (stateOf s p) :=
      both_open sha256Hex policy cacheMax salt spec s p q a b (Or.inl rfl) hpass
    obtain ⟨x, v, hx, hv, hpool, -⟩ := hown (by rw [route_hit sha256Hex r _ p _ hentry hopen])
    have hrec : r.Recorded ((fresh policy cacheMax salt false).visits sha256Hex (recordThenRegister spec s p q a)) :=
      recorded_after sha256Hex _ _ [] (recorded_fresh policy cacheMax salt false)
    obtain ⟨w, hw, hwpool, -⟩ := hrec _ p hentry
    obtain rfl := Option.some.inj (hv.symm.trans hw)
    obtain rfl := Option.some.inj (hx.symm.trans hselB)
    rw [← hpool, hwpool] at hlt
    exact lt_irrefl _ hlt

end Shared

/-- **Pool namespaces over every run.**  Whatever the truncated hash keeps apart, every cache hit matches an entry of
the pool that was looked up, recorded by a request with the same prefix, exactly when the salts are unambiguous in front
of a prompt (or the router never caches: no room, or a policy that passes nothing). -/
theorem namespaces_disjoint_iff (sha256Hex : List UInt8 → Text) (policy : AdmissionPolicy F) (cacheMax : Int)
    (salt : Pool → List UInt8) :
    (∀ (metrics : Bool) (ops : List Op) (spec : RequestSpec),
      NoCollision ((fresh policy cacheMax salt metrics).visits sha256Hex (ops ++ [.route spec])) →
      ((fresh policy cacheMax salt metrics).after sha256Hex ops).OwnEntry sha256Hex
        ((fresh policy cacheMax salt metrics).visits sha256Hex ops) spec) ↔
    cacheMax < 1 ∨ (∀ spec s, ¬ Passes policy spec s) ∨ Unambiguous salt := by
  constructor
  · intro h
    by_contra hnot
    simp only [not_or, not_forall, not_not, not_lt, Unambiguous] at hnot
    obtain ⟨hmax, ⟨spec, s, hpass⟩, p, q, a, b, ha, hb, hsame, hne⟩ := hnot
    rcases lt_or_gt_of_ne (value_injective.ne hne) with hlt | hlt
    · have hshared := shared_entry sha256Hex policy cacheMax salt spec s q p b a hlt hpass hmax hb ha hsame.symm
      exact hshared.2 (h false _ _ hshared.1)
    · have hshared := shared_entry sha256Hex policy cacheMax salt spec s p q a b hlt hpass hmax ha hb hsame
      exact hshared.2 (h false _ _ hshared.1)
  · intro hcond metrics ops spec hno hhit
    by_cases hempty : cacheMax < 1 ∨ ∀ spec s, ¬ Passes policy spec s
    · obtain ⟨q, t, hc, -, -⟩ := cacheHit_entry sha256Hex _ spec hhit
      rw [get?_of_empty (after_empty sha256Hex policy cacheMax salt metrics ops hempty)] at hc
      cases hc
    · have hsalt : Unambiguous salt := by tauto
      rw [visits_append] at hno
      refine ownEntry_of_unambiguous sha256Hex _ _ spec ?_
        (recorded_after sha256Hex ops _ [] (recorded_fresh policy cacheMax salt metrics)) (by simpa [visits] using hno)
        hhit
      rw [saltForPool_after]
      exact hsalt

/-- Distinct salts, one of them another's beginning. -/
def prefixSalt : Pool → List UInt8
  | .prefill   => [97]
  | .decode    => [97, 98]
  | .colocated => [99]
  | .tier      => [100]

/-- The SHA-256 of `abx`, which is all the run below hashes. -/
def abxHash : List UInt8 → Text :=
  fun _ => "b2bdab4230154046ad0b7dfa830a9260caa5bd6ae230e582a2244ab4bf0b4ca5".toList

def prefillThenDecode : List Op :=
  recordThenRegister helloInteractive ⟨.prefill, 0, 64, true, slots_pos⟩ .prefill .decode "bx".toList

theorem prefix_salts_share_entries :
    let fresh := fresh defaultPolicy 1024 prefixSalt false
    let r := fresh.after abxHash prefillThenDecode
    Function.Injective prefixSalt ∧
    NoCollision (fresh.visits abxHash (prefillThenDecode ++ [.route (asking helloInteractive "x".toList)])) ∧
    r.selectAdmissible (asking helloInteractive "x".toList) = some .decode ∧
    (r.route abxHash (asking helloInteractive "x".toList)).1.pool = .prefill ∧
    (r.route abxHash (asking helloInteractive "x".toList)).1.reason = .cacheHit ∧
    ¬ r.OwnEntry abxHash (fresh.visits abxHash prefillThenDecode) (asking helloInteractive "x".toList) := by
  have hshared := shared_entry abxHash defaultPolicy 1024 prefixSalt helloInteractive
    ⟨.prefill, 0, 64, true, by decide⟩ .prefill .decode "bx".toList "x".toList (by decide +kernel)
    (Or.inl (by decide +kernel)) (by decide) (by decide) (by decide) (by decide +kernel)
  have hinj : Function.Injective prefixSalt := by
    intro p q h
    cases p <;> cases q <;> first | rfl | exact absurd h (by decide)
  exact ⟨hinj, hshared.1, by decide +kernel, by decide +kernel, by decide +kernel, hshared.2⟩

end Router
end GoodputLab
