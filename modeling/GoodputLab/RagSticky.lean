import GoodputLab.RouterOrder
import GoodputLab.SynthTextLength
import GoodputLab.WorkloadRuns
/-!
# RagSticky — a RAG trace sticks to one pool

Every prompt of a RAG trace begins with the shared prefix, which holds at least one document and so is longer than the
256 characters a cache key reads (`returns_ragGenerate`).  Requests with one prefix, class and workload are looked up
under one key while the pools stand, so the first is balanced to a pool and every later one hits it
(`akin_requests_stick`, `rag_trace_sticks`).
-/
namespace GoodputLab

open Gen (Always Returns always_pure always_bind returns_bind returns_ofOption returns_any)
open Router (promptPrefix)

/-! ## The trace -/

theorem always_ragCorpus (cfg : RagWorkloadConfig) : ∀ n,
    Always (ragCorpus cfg n) (fun docs => docs.length = n ∧ ∀ doc ∈ docs, 299 ≤ doc.length)
  | 0 => always_pure ⟨rfl, fun doc h => by cases h⟩
  | n + 1 => by
    have hsize : Always (Gen.randint cfg.docTokensRange.1 cfg.docTokensRange.2) (fun size => 100 ≤ size) :=
      (Gen.always_randint cfg.docRangeOk.2).weaken (fun size hs => cfg.docRangeOk.1.trans hs.1)
    unfold ragCorpus
    refine always_bind hsize (fun size hs => ?_)
    refine always_bind (always_synthDocument size) (fun doc hdoc => ?_)
    refine always_bind (always_ragCorpus cfg n) (fun docs hdocs => always_pure ⟨?_, fun x hx => ?_⟩)
    · rw [List.length_cons, hdocs.1]
    · rcases List.mem_cons.1 hx with rfl | hx
      · exact hdoc hs
      · exact hdocs.2 x hx

/-- At least one document is included. -/
theorem include_pos (x : Int) : ∃ n, (max 1 x).toNat = n + 1 := ⟨(max 1 x).toNat - 1, by omega⟩

theorem ragSharedPrefix_length (cfg : RagWorkloadConfig) {corpus : List Text} (hne : corpus ≠ [])
    (hlong : ∀ doc ∈ corpus, 299 ≤ doc.length) : 256 ≤ (ragSharedPrefix cfg corpus).length := by
  obtain ⟨doc, docs, rfl⟩ := List.exists_cons_of_ne_nil hne
  obtain ⟨n, hn⟩ := include_pos (roundHalfEven (cfg.includeFraction * (doc :: docs).length))
  have hdocs := (Text.prefix_join "\n\n---\n\n".toList doc (docs.take n)).length_le
  have hdoc := hlong doc List.mem_cons_self
  unfold ragSharedPrefix
  simp only [hn]
  rw [List.take_succ_cons, List.length_append, List.length_append]
  exact (show 256 ≤ 299 by decide).trans (hdoc.trans (hdocs.trans ((Nat.le_add_left _ _).trans (Nat.le_add_right _ _))))

/-- The request begins with the prefix, and has the trace's workload and class. -/
structure Shares (cfg : RagWorkloadConfig) (sharedPrefix : Text) (r : RequestSpec) : Prop where
  promptText : sharedPrefix <+: r.promptText
  workload   : r.workload = .rag
  sloClass   : r.sloClass = cfg.sloClass

theorem returns_ragRequest (cfg : RagWorkloadConfig) (sharedPrefix : Text) (i : Nat) :
    Returns (ragRequest cfg sharedPrefix i) (Shares cfg sharedPrefix) := by
  unfold ragRequest
  refine returns_bind (returns_any _) (fun querySize _ => ?_)
  refine returns_bind (returns_any _) (fun query _ => ?_)
  refine returns_bind (returns_any _) (fun targetOutput _ => ?_)
  refine returns_ofOption (fun r hr => ?_)
  obtain ⟨-, hslo, hworkload, -, -, htext⟩ := RequestSpec.make?_eq hr
  refine ⟨?_, hworkload, hslo⟩
  rw [htext, List.append_assoc]
  exact List.prefix_append _ _

/-- **A RAG trace**: as many requests as configured, all beginning with one prefix of 256 characters or more. -/
theorem returns_ragGenerate (cfg : RagWorkloadConfig) :
    Returns (ragGenerate cfg) (fun t => t.requests.length = cfg.nRequests ∧
      ∃ sharedPrefix : Text, 256 ≤ sharedPrefix.length ∧ ∀ r ∈ t.requests, Shares cfg sharedPrefix r) := by
  refine returns_bind (always_ragCorpus cfg _).returns (fun corpus hcorpus => ?_)
  have hne : corpus ≠ [] := by
    intro hnil
    have hlen := hcorpus.1
    rw [hnil, List.length_nil] at hlen
    have := cfg.corpusOk
    omega
  refine returns_bind (returns_requestsFrom (returns_ragRequest cfg _) _ _) (fun requests hrequests => ?_)
  intro d t d' ht
  obtain ⟨-, rfl, -⟩ := finishTrace_eq ht
  exact ⟨hrequests.1, _, ragSharedPrefix_length cfg hne hcorpus.2, hrequests.2⟩

namespace Router

open FloatArith

variable {F : Type} [FloatArith F]

/-! ## Requests the router cannot tell apart -/

structure Akin (q r : RequestSpec) : Prop where
  sloClass     : q.sloClass = r.sloClass
  workload     : q.workload = r.workload
  promptPrefix : promptPrefix q = promptPrefix r

theorem Akin.admissible {q r : RequestSpec} (h : Akin q r) (t : Router F) (s : PoolState) :
    t.admissible q s = t.admissible r s := by
  unfold Router.admissible
  rw [h.sloClass]

theorem Akin.lookupKey {q r : RequestSpec} (h : Akin q r) (sha256Hex : List UInt8 → Text) (t : Router F) :
    t.lookupKey sha256Hex q = t.lookupKey sha256Hex r := by
  have hsel : t.selectAdmissible q = t.selectAdmissible r := by
    unfold selectAdmissible
    simp only [h.workload, h.admissible]
  unfold Router.lookupKey
  simp only [hsel, prefixKey_congr sha256Hex _ h.promptPrefix]

theorem Akin.isOpen {q r : RequestSpec} (h : Akin q r) (t : Router F) (p : Pool) (s : PoolState) :
    t.IsOpen q p s ↔ t.IsOpen r p s := by
  unfold IsOpen Passes
  rw [h.sloClass]

/-- **While their entry stands, requests akin to one another hit it.** -/
theorem akin_requests_hit (sha256Hex : List UInt8 → Text) {spec : RequestSpec} {p : Pool} {s : PoolState} {key : Text} :
    ∀ (reqs : List RequestSpec) (r : Router F), (∀ q ∈ reqs, Akin q spec) → r.lookupKey sha256Hex spec = key →
      r.prefixCache.get? key = some p → r.IsOpen spec p s →
      decisions sha256Hex r (reqs.map .route) = List.replicate reqs.length ⟨p, true, .cacheHit, some key⟩
  | [], _, _, _, _, _ => rfl
  | q :: reqs, r, hakin, hkey, hget, hopen => by
    have hq := hakin q List.mem_cons_self
    have hkeyq : r.lookupKey sha256Hex q = key := (hq.lookupKey sha256Hex r).trans hkey
    have hroute := route_hit sha256Hex r q p s (hkeyq ▸ hget) ((hq.isOpen r p s).2 hopen)
    have hstep : step sha256Hex r (.route q) = r.touched key := by
      show (r.route sha256Hex q).2 = _
      rw [hroute, hkeyq]
    have hrest := akin_requests_hit sha256Hex reqs (r.touched key) (fun x hx => hakin x (List.mem_cons_of_mem _ hx)) hkey
      ((OrdDict.get?_moveToEnd r.prefixCache key key).trans hget) hopen
    rw [List.map_cons, decisions, Runs.log, hstep, decision, hroute, hkeyq, List.length_cons, List.replicate_succ]
    exact congrArg (List.cons _) hrest

/-- **The first of some requests akin to one another is balanced to a pool, and the others hit it.** -/
theorem akin_requests_stick (sha256Hex : List UInt8 → Text) {r : Router F} (hcache : r.prefixCache = .empty)
    (hmax : 1 ≤ r.cacheMax) {spec : RequestSpec} {reqs : List RequestSpec} (hakin : ∀ q ∈ reqs, Akin q spec)
    (hopen : ∃ p s, r.IsOpen spec p s) :
    ∃ p key, decisions sha256Hex r ((spec :: reqs).map .route) =
      ⟨p, true, .loadBalance, some key⟩ :: List.replicate reqs.length ⟨p, true, .cacheHit, some key⟩ := by
  obtain ⟨p₀, s₀, ho⟩ := hopen
  obtain ⟨p, hsel⟩ := exists_selected ho
  obtain ⟨s, hps⟩ := selectAdmissible_open r spec p hsel
  have hne : r.pools.items.isEmpty = false := by
    rw [List.isEmpty_eq_false_iff]
    exact List.ne_nil_of_mem ((OrdDict.mem_items _ _ _).2 ho.1)
  have hmiss : r.NoOpenEntry sha256Hex spec := fun q t hget => by
    rw [hcache, OrdDict.get?_empty] at hget
    cases hget
  have hroute := route_miss sha256Hex r spec hne hmiss
  rw [hsel] at hroute
  generalize hkey : r.lookupKey sha256Hex spec = key at hroute
  refine ⟨p, key, ?_⟩
  have hdecision : (r.route sha256Hex spec).1 = ⟨p, true, .loadBalance, some key⟩ := by rw [hroute]; rfl
  have hcached : (step sha256Hex r (.route spec)).prefixCache = OrdDict.empty.set key p := by
    show (r.route sha256Hex spec).2.prefixCache = _
    rw [hroute]
    simp only [loadBalance, touched, hcache]
    exact if_neg (not_lt.2 hmax)
  have hpools := (route_config sha256Hex r spec).1
  have hpolicy := (route_config sha256Hex r spec).2.1
  have hsalt := (route_config sha256Hex r spec).2.2
  have hkey' : (step sha256Hex r (.route spec)).lookupKey sha256Hex spec = key := by
    show (r.route sha256Hex spec).2.lookupKey sha256Hex spec = key
    rw [← hkey]
    unfold lookupKey selectAdmissible admissible
    rw [hpools, hpolicy, hsalt]
  have hopen' : (step sha256Hex r (.route spec)).IsOpen spec p s := by
    show (r.route sha256Hex spec).2.IsOpen spec p s
    unfold IsOpen
    rw [hpools, hpolicy]
    exact hps
  have hrest := akin_requests_hit sha256Hex reqs _ hakin hkey' (by rw [hcached, OrdDict.get?_set_self]) hopen'
  rw [List.map_cons, decisions, Runs.log, decision, hdecision]
  exact congrArg (List.cons _) hrest

end Router

/-! ## The trace through a router -/

/-- **A RAG trace sticks to one pool.**  The requests of a generated trace have the same first 256 characters, and so one
key under every salt; and a fresh router with room in its cache and a pool open to the trace balances its first request
to a pool and answers every later one with a hit on that pool. -/
theorem rag_trace_sticks (cfg : RagWorkloadConfig) (d d' : Draws) (t : Trace) (h : ragGenerate cfg d = some (t, d')) :
    (∀ q ∈ t.requests, ∀ r ∈ t.requests, (promptPrefix q).length = 256 ∧ promptPrefix q = promptPrefix r ∧
      ∀ sha256Hex salt, prefixKey sha256Hex q salt = prefixKey sha256Hex r salt) ∧
    ∀ {F : Type} [FloatArith F] (sha256Hex : List UInt8 → Text) (policy : AdmissionPolicy F) (cacheMax : Int)
      (salt : Pool → List UInt8) (metrics : Bool) (states : List PoolState), 1 ≤ cacheMax →
      (∃ r ∈ t.requests, ∃ p s,
        (Router.withPools sha256Hex policy cacheMax salt metrics states).IsOpen r p s) →
      ∃ p key, Router.decisions sha256Hex (Router.withPools sha256Hex policy cacheMax salt metrics states)
          (t.requests.map .route) =
        ⟨p, true, .loadBalance, some key⟩ :: List.replicate (cfg.nRequests - 1) ⟨p, true, .cacheHit, some key⟩ := by
  obtain ⟨hlen, sharedPrefix, hlong, hshares⟩ := returns_ragGenerate cfg d t d' h
  have hbegins : ∀ q ∈ t.requests, promptPrefix q = sharedPrefix.take 256 := by
    intro q hq
    obtain ⟨rest, hrest⟩ := (hshares q hq).promptText
    rw [promptPrefix, ← hrest, List.take_append_of_le_length hlong]
  have hakin : ∀ q ∈ t.requests, ∀ r ∈ t.requests, Router.Akin q r := fun q hq r hr =>
    ⟨(hshares q hq).sloClass.trans (hshares r hr).sloClass.symm,
      (hshares q hq).workload.trans (hshares r hr).workload.symm, (hbegins q hq).trans (hbegins r hr).symm⟩
  refine ⟨fun q hq r hr => ⟨?_, (hakin q hq r hr).promptPrefix, fun sha256Hex salt =>
    Router.prefixKey_congr sha256Hex salt (hakin q hq r hr).promptPrefix⟩, ?_⟩
  · rw [hbegins q hq, List.length_take]
    exact min_eq_left hlong
  · intro F _ sha256Hex policy cacheMax salt metrics states hmax hopen
    obtain ⟨-, hcacheMax, -, hcache, -, -⟩ := Router.withPools_config sha256Hex policy cacheMax salt metrics states
    obtain ⟨x, hx, p, s, hps⟩ := hopen
    obtain ⟨first, later, hreq⟩ := List.exists_cons_of_ne_nil (List.ne_nil_of_mem hx)
    rw [hreq] at hlen hakin hx ⊢
    have hfirst := (hakin first List.mem_cons_self x hx).isOpen
      (Router.withPools sha256Hex policy cacheMax salt metrics states) p s
    obtain ⟨q, key, hlog⟩ := Router.akin_requests_stick sha256Hex hcache (by rw [hcacheMax]; exact hmax)
      (fun q hq => hakin q (List.mem_cons_of_mem _ hq) first List.mem_cons_self) ⟨p, s, hfirst.2 hps⟩
    refine ⟨q, key, ?_⟩
    rw [hlog, ← hlen, List.length_cons, Nat.add_sub_cancel]

theorem two_requests : 0 < 2 := by decide

theorem whole_corpus : (0 : ℚ) < 1 ∧ (1 : ℚ) ≤ 1 := by decide +kernel

theorem one_document : 1 ≤ 1 := by decide

theorem hundred_tokens : (100 : Int) ≤ 100 ∧ (100 : Int) ≤ 100 := by decide

/-- Two requests over one document of a hundred tokens. -/
def smallRag : RagWorkloadConfig where
  nRequests := 2
  nCorpusDocs := 1
  docTokensRange := (100, 100)
  includeFraction := 1
  queryTokensRange := (1, 1)
  outputTokensRange := (1, 1)
  nRequestsPos := two_requests
  includeOk := whole_corpus
  corpusOk := one_document
  docRangeOk := hundred_tokens

theorem small_trace_sticks : ∃ t d', ragGenerate smallRag ⟨fun _ _ => 0, 0⟩ = some (t, d') ∧
    ∃ p key, Router.decisions Router.helloHash (Router.withPools Router.helloHash Router.defaultPolicy 1 (fun _ => []) false
        [Router.prefillPool, Router.decodePool]) (t.requests.map .route) =
      ⟨p, true, .loadBalance, some key⟩ :: List.replicate 1 ⟨p, true, .cacheHit, some key⟩ := by
  have hgenerates : (ragGenerate smallRag ⟨fun _ _ => 0, 0⟩).isSome = true := by decide +kernel
  obtain ⟨⟨t, d'⟩, ht⟩ := Option.isSome_iff_exists.1 hgenerates
  obtain ⟨hlen, -⟩ := returns_ragGenerate smallRag _ t d' ht
  have hne : t.requests ≠ [] := fun hnil => by
    rw [hnil] at hlen
    cases hlen
  obtain ⟨r, hr⟩ := List.exists_mem_of_ne_nil _ hne
  have hopen : (Router.withPools Router.helloHash Router.defaultPolicy 1 (fun _ => []) false
      [Router.prefillPool, Router.decodePool]).IsOpen r .prefill Router.prefillPool :=
    ⟨by decide +kernel, rfl, Or.inl (by decide +kernel)⟩
  exact ⟨t, d', ht, (rag_trace_sticks smallRag _ d' t ht).2 Router.helloHash Router.defaultPolicy 1 (fun _ => []) false
    [Router.prefillPool, Router.decodePool] le_rfl ⟨r, hr, .prefill, Router.prefillPool, hopen⟩⟩

end GoodputLab
