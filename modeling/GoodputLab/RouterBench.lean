import GoodputLab.Base.Draws
import GoodputLab.Base.Words
import GoodputLab.OrchestratorHits
import GoodputLab.RouterLru
/-!
# RouterBench — the router's cold and warm regimes (`bench/router_bench.py`)

Each regime routes one request after another over pools that nobody changes.  The router then chooses one pool for all of
them, and the hits it reports are those of a least-recently-used list over the first 256 characters of the prompts
(`regime_hits`).  Cold prompts are numbered at their beginning, so none hits (`cold_never_hits`).  Warm prompts are a
shared prefix and a numbered query: all but the first of each prefix hit when the prefixes fill those 256 characters, and
none does when the query's number is within them (`warm_hits`).
-/
namespace GoodputLab

open FloatArith

/-! ## The prompts -/

def prefixWords : List Text :=
  ["the", "of", "and", "to", "in", "that", "with", "for", "on", "at", "by", "from", "as", "is", "are", "was", "were",
    "be", "been", "being", "have", "has", "had", "do", "does", "did", "will", "would", "should", "could", "may", "might",
    "must", "shall", "can", "this", "these", "those", "an", "a", "or", "but", "if", "then", "else", "when", "where",
    "why", "how", "what", "which", "who", "whom", "whose", "data", "system", "model", "inference", "training", "learning",
    "neural", "network", "transformer", "attention", "cache", "memory", "prefill", "decode", "latency", "throughput",
    "token", "embedding", "weight", "layer", "node", "edge", "graph", "tensor", "kernel", "compute", "scheduler", "queue",
    "batch", "prompt", "response", "context", "kv", "attention", "flash", "page", "block", "sequence", "request",
    "service", "control", "plane", "load", "balancer", "metric", "p99", "p95", "p50", "ttft", "itl", "tpot",
    "goodput"].map String.toList

theorem prefixWords_ne_nil : prefixWords ≠ [] := List.cons_ne_nil _ _

def choosePrefixWords : Nat → Gen (List Text)
  | 0     => pure []
  | n + 1 => do
    let w ← Gen.choice prefixWords prefixWords_ne_nil
    let ws ← choosePrefixWords n
    pure (w :: ws)

def makePrefix (idx : Nat) (targetTokens : Int) : Gen Text := do
  let ws ← choosePrefixWords targetTokens.toNat
  pure ("prefix-".toList ++ Text.ofNat idx ++ '-' :: Text.join [' '] ws)

def specFromPrompt (rid prompt : Text) : Option RequestSpec :=
  RequestSpec.make? rid .interactive .chat (max 1 (Text.split prompt).length) 32 prompt

namespace RouterBenchmark

/-! ## The regimes -/

structure RegimeReport where
  regime       : Text
  nRequests    : Nat
  cacheHits    : Nat
  cacheHitRate : ℚ
  poolsUsed    : OrdDict Text Nat
  decisions    : List PoolDecision
  hitBounds    : 0 ≤ cacheHitRate ∧ cacheHitRate ≤ 1

theorem hitRate_bounds (decisions : List PoolDecision) :
    0 ≤ (if 0 < decisions.length then
        (decisions.countP (fun d => d.reason = .cacheHit) : ℚ) / decisions.length else 0) ∧
      (if 0 < decisions.length then
        (decisions.countP (fun d => d.reason = .cacheHit) : ℚ) / decisions.length else 0) ≤ 1 := by
  split
  · rename_i hpos
    have hle : (decisions.countP (fun d => d.reason = .cacheHit) : ℚ) ≤ decisions.length := by
      exact_mod_cast List.countP_le_length
    have hlen : (0 : ℚ) < decisions.length := by exact_mod_cast hpos
    exact ⟨by positivity, (div_le_one hlen).2 hle⟩
  · exact ⟨le_refl _, zero_le_one⟩

def poolsUsed (decisions : List PoolDecision) : OrdDict Text Nat :=
  decisions.foldl (fun used d =>
    if d.admitted then used.set d.pool.value ((used.get? d.pool.value).getD 0 + 1) else used) .empty

def summarize (regime : Text) (decisions : List PoolDecision) : RegimeReport where
  regime := regime
  nRequests := decisions.length
  cacheHits := decisions.countP (fun d => d.reason = .cacheHit)
  cacheHitRate := if 0 < decisions.length then
    (decisions.countP (fun d => d.reason = .cacheHit) : ℚ) / decisions.length else 0
  poolsUsed := poolsUsed decisions
  decisions := decisions
  hitBounds := hitRate_bounds decisions

variable {F : Type} [FloatArith F]

/-- Draw the request at each place and route it. -/
def routeEach (sha256Hex : List UInt8 → Text) (next : Nat → Gen RequestSpec) : Nat → Nat → Router F →
    Gen (List PoolDecision × Router F)
  | 0, _, r     => pure ([], r)
  | n + 1, i, r => do
    let spec ← next i
    let rest ← routeEach sha256Hex next n (i + 1) (r.route sha256Hex spec).2
    pure ((r.route sha256Hex spec).1 :: rest.1, rest.2)

def coldSpec (targetTokens : Int) (i : Nat) : Gen RequestSpec := do
  let prompt ← makePrefix i targetTokens
  Gen.ofOption (specFromPrompt ("cold-".toList ++ Text.zfill 4 i) prompt)

def runCold (sha256Hex : List UInt8 → Text) (r : Router F) (nRequests targetTokens : Int) : Gen RegimeReport := do
  let decisions ← routeEach sha256Hex (coldSpec targetTokens) nRequests.toNat 0 r
  pure (summarize "cold".toList decisions.1)

def specsOf (next : Nat → Gen RequestSpec) : Nat → Nat → Gen (List RequestSpec)
  | 0, _     => pure []
  | n + 1, i => do
    let spec ← next i
    let rest ← specsOf next n (i + 1)
    pure (spec :: rest)

/-- **A regime routes its requests in their order**: drawing them does not depend on what the router decides. -/
theorem routeEach_eq (sha256Hex : List UInt8 → Text) (next : Nat → Gen RequestSpec) : ∀ (n i : Nat) (r : Router F),
    routeEach sha256Hex next n i r = (do
      let specs ← specsOf next n i
      pure (r.decisions sha256Hex (specs.map .route), r.after sha256Hex (specs.map .route)))
  | 0, _, _     => rfl
  | n + 1, i, r => by
    rw [routeEach, specsOf, bind_assoc]
    refine congrArg (next i >>= ·) (funext fun spec => ?_)
    rw [routeEach_eq sha256Hex next n (i + 1), bind_assoc, bind_assoc]
    rfl

/-! ## One pool for all requests -/

/-- The router chooses `p` for every request of a regime. -/
def BenchPool (r : Router F) (p : Pool) : Prop :=
  ∀ spec : RequestSpec, spec.sloClass = .interactive → spec.workload = .chat → r.selectAdmissible spec = some p

def BenchSpec (spec : RequestSpec) : Prop := spec.sloClass = .interactive ∧ spec.workload = .chat

/-- The cached keys are those of a least-recently-used list after `past`, and every one is cached for `p`. -/
structure Benched (cap : Nat) (p : Pool) (r : Router F) (past : List Text) : Prop where
  benchPool : BenchPool r p
  cacheMax  : r.cacheMax = cap
  keys      : r.prefixCache.keys = Recency.recent cap past
  pools     : ∀ key q, r.prefixCache.get? key = some q → q = p

theorem Benched.sized {cap : Nat} {p : Pool} {r : Router F} {past : List Text} (h : Benched cap p r past)
    {spec : RequestSpec} (hspec : BenchSpec spec) : Router.Sized cap r := by
  refine ⟨h.cacheMax, ?_, fun hnil => ?_⟩
  · rw [h.keys]
    exact Recency.length_recent_le cap past
  · obtain ⟨s, hget, -⟩ := Router.selectAdmissible_open r spec p (h.benchPool spec hspec.1 hspec.2)
    have hmem := (OrdDict.mem_items r.pools p s).2 hget
    rw [hnil] at hmem
    cases hmem

theorem benchPool_route (sha256Hex : List UInt8 → Text) {r : Router F} {p : Pool} (h : BenchPool r p)
    (spec : RequestSpec) : BenchPool (r.route sha256Hex spec).2 p := by
  intro t hslo hworkload
  obtain ⟨hpools, hpolicy, -⟩ := Router.route_config sha256Hex r spec
  have hselect := h t hslo hworkload
  unfold Router.selectAdmissible Router.admissible at hselect ⊢
  rw [hpools, hpolicy]
  exact hselect

/-- The salt every request of a regime is looked up under. -/
def benchKey (sha256Hex : List UInt8 → Text) (r : Router F) (p : Pool) (spec : RequestSpec) : Text :=
  prefixKey sha256Hex spec (r.saltForPool p)

theorem lookupKey_bench (sha256Hex : List UInt8 → Text) {r : Router F} {p : Pool} (h : BenchPool r p)
    {spec : RequestSpec} (hspec : BenchSpec spec) : r.lookupKey sha256Hex spec = benchKey sha256Hex r p spec := by
  rw [Router.lookupKey, h spec hspec.1 hspec.2]
  rfl

/-- **One request of a regime**: it hits when its key is among those touched last, and the list takes its touch. -/
theorem bench_route (sha256Hex : List UInt8 → Text) {cap : Nat} {p : Pool} {r : Router F} {past : List Text}
    (h : Benched cap p r past) {spec : RequestSpec} (hspec : BenchSpec spec) :
    (r.route sha256Hex spec).1 =
        ⟨p, true, if benchKey sha256Hex r p spec ∈ Recency.recent cap past then .cacheHit else .loadBalance,
          some (benchKey sha256Hex r p spec)⟩ ∧
      Benched cap p (r.route sha256Hex spec).2 (past ++ [benchKey sha256Hex r p spec]) := by
  have hselect := h.benchPool spec hspec.1 hspec.2
  obtain ⟨s, hopen⟩ := Router.selectAdmissible_open r spec p hselect
  have hkey := lookupKey_bench sha256Hex h.benchPool hspec
  have hsized := h.sized hspec
  have hkeys := Router.route_keys sha256Hex hsized spec
  have hmax := (Router.cacheMax_step sha256Hex r (.route spec)).trans h.cacheMax
  have hdecision : (r.route sha256Hex spec).1 =
      ⟨p, true, if benchKey sha256Hex r p spec ∈ Recency.recent cap past then .cacheHit else .loadBalance,
        some (benchKey sha256Hex r p spec)⟩ := by
    rw [← h.keys, ← hkey]
    rcases Router.route_eq sha256Hex r spec with ⟨hnil, -⟩ | ⟨q, t, hget, -, hd⟩ | ⟨hno, hd⟩
    · have hmem := (OrdDict.mem_items r.pools p s).2 hopen.1
      rw [hnil] at hmem
      cases hmem
    · rw [hd, if_pos ((OrdDict.mem_keys _ _).2 ⟨q, hget⟩), h.pools _ _ hget]
    · -- an entry would name the pool that is open
      have hmiss : r.lookupKey sha256Hex spec ∉ r.prefixCache.keys := by
        intro hmem
        obtain ⟨q, hget⟩ := (OrdDict.mem_keys _ _).1 hmem
        obtain rfl := h.pools _ _ hget
        exact hno _ s hget hopen
      rw [hd, hselect, if_neg hmiss]
      rfl
  refine ⟨hdecision, benchPool_route sha256Hex h.benchPool spec, hmax, ?_, fun key q hget => ?_⟩
  · rw [hkeys, hdecision, Bool.true_or, if_pos rfl, h.keys, hkey, Recency.recent_concat]
  · rcases Router.route_cache sha256Hex r spec key q hget with ⟨-, hq⟩ | ⟨hold, -⟩
    · rw [hselect] at hq
      exact (Option.some.inj hq).symm
    · exact h.pools key q hold

theorem benchKey_route (sha256Hex : List UInt8 → Text) (r : Router F) (p : Pool) (spec t : RequestSpec) :
    benchKey sha256Hex (r.route sha256Hex spec).2 p t = benchKey sha256Hex r p t := by
  unfold benchKey
  rw [(Router.route_config sha256Hex r spec).2.2]

/-- **The decisions of a regime**: all go to the one pool, and the hits are those of a least-recently-used list. -/
theorem bench_decisions (sha256Hex : List UInt8 → Text) {cap : Nat} {p : Pool} : ∀ (specs : List RequestSpec)
    (r : Router F) (past : List Text), Benched cap p r past → (∀ spec ∈ specs, BenchSpec spec) →
      (r.decisions sha256Hex (specs.map .route)).countP (fun d => d.reason = .cacheHit) =
          Recency.hits cap past (specs.map (benchKey sha256Hex r p)) ∧
        ∀ d ∈ r.decisions sha256Hex (specs.map .route), d.admitted = true ∧ d.pool = p
  | [], _, _, _, _           => ⟨rfl, fun d hd => by cases hd⟩
  | spec :: specs, r, past, h, hspecs => by
    obtain ⟨hdecision, hnext⟩ := bench_route sha256Hex h (hspecs spec List.mem_cons_self)
    obtain ⟨hhits, hpools⟩ := bench_decisions sha256Hex specs (r.route sha256Hex spec).2 _ hnext
      (fun t ht => hspecs t (List.mem_cons_of_mem spec ht))
    have hkeys : specs.map (benchKey sha256Hex (r.route sha256Hex spec).2 p) = specs.map (benchKey sha256Hex r p) :=
      List.map_congr_left (fun t _ => benchKey_route sha256Hex r p spec t)
    have hcons : r.decisions sha256Hex ((spec :: specs).map .route) =
        (r.route sha256Hex spec).1 :: (r.route sha256Hex spec).2.decisions sha256Hex (specs.map .route) := rfl
    rw [hcons]
    refine ⟨?_, List.forall_mem_cons.2 ⟨?_, hpools⟩⟩
    · rw [List.countP_cons, hhits, hkeys, hdecision, List.map_cons, Recency.hits]
      by_cases hk : benchKey sha256Hex r p spec ∈ Recency.recent cap past <;> simp [hk, Nat.add_comm]
    · rw [hdecision]
      exact ⟨rfl, rfl⟩

/-! ## The report of a regime -/

/-- No two requests with different beginnings share a key. -/
def KeysApart (sha256Hex : List UInt8 → Text) (r : Router F) (p : Pool) (specs : List RequestSpec) : Prop :=
  ∀ s ∈ specs, ∀ t ∈ specs, benchKey sha256Hex r p s = benchKey sha256Hex r p t →
    Router.promptPrefix s = Router.promptPrefix t

/-- The hits over the keys are those over the beginnings of the prompts. -/
theorem hits_promptPrefix (sha256Hex : List UInt8 → Text) (r : Router F) (p : Pool) (cap : Nat)
    (specs : List RequestSpec) (h : KeysApart sha256Hex r p specs) :
    Recency.hits cap [] (specs.map (benchKey sha256Hex r p)) =
      Recency.hits cap [] (specs.map Router.promptPrefix) := by
  have hkeys : specs.map (benchKey sha256Hex r p) = (specs.map Router.promptPrefix).map
      (fun text => (sha256Hex (r.saltForPool p ++ Text.utf8 text)).take 16) := by
    rw [List.map_map]
    rfl
  have hmap := Recency.hits_map (fun text => (sha256Hex (r.saltForPool p ++ Text.utf8 text)).take 16) cap
    (specs.map Router.promptPrefix) [] ?_
  · rw [hkeys]
    exact hmap
  · intro a ha b hb hab
    rw [List.nil_append] at ha hb
    obtain ⟨s, hs, rfl⟩ := List.mem_map.1 ha
    obtain ⟨t, ht, rfl⟩ := List.mem_map.1 hb
    exact h s hs t ht hab

theorem poolsUsed_concat (ds : List PoolDecision) (d : PoolDecision) :
    poolsUsed (ds ++ [d]) = if d.admitted then
      (poolsUsed ds).set d.pool.value (((poolsUsed ds).get? d.pool.value).getD 0 + 1) else poolsUsed ds := by
  rw [poolsUsed, List.foldl_append]
  rfl

/-- When every decision goes to one pool, that pool is used as often as there are decisions, and no other. -/
theorem poolsUsed_one {p : Pool} (ds : List PoolDecision) (h : ∀ d ∈ ds, d.admitted = true ∧ d.pool = p) :
    (poolsUsed ds).items = if ds.length = 0 then [] else [(p.value, ds.length)] := by
  induction ds using List.reverseRecOn with
  | nil => rfl
  | append_singleton ds d ih =>
    obtain ⟨hadmitted, hpool⟩ := h d (List.mem_append_right _ List.mem_cons_self)
    have ih := ih (fun e he => h e (List.mem_append_left _ he))
    rw [poolsUsed_concat, if_pos hadmitted, hpool, if_neg (by simp)]
    rw [OrdDict.set, OrdDict.get?]
    simp only
    rw [ih]
    by_cases hnil : ds = []
    · simp [hnil, OrdDict.setItems]
    · simp [hnil, OrdDict.setItems]

/-- A router with an empty cache of `cap` entries and one registered pool, which is healthy and takes interactive
requests: it is under its headroom, or the policy has the bypass. -/
structure ColdRouter (cap : Nat) (s : PoolState) (r : Router F) : Prop where
  pools    : r.pools.items = [(s.pool, s)]
  healthy  : s.healthy = true
  admits   : lt (s.headroomUsedPct F) r.policy.headroomPct = true ∨ r.policy.interactiveBypass = true
  cacheMax : r.cacheMax = cap
  empty    : r.prefixCache = .empty

/-- **Every request of a regime is sent to the one pool.** -/
theorem ColdRouter.benchPool {cap : Nat} {s : PoolState} {r : Router F} (h : ColdRouter cap s r) : BenchPool r s.pool := by
  intro spec hslo _
  have hget : r.pools.get? s.pool = some s := by
    rw [← OrdDict.mem_items, h.pools]
    exact List.mem_singleton_self _
  have hopen : r.IsOpen spec s.pool s := by
    refine ⟨hget, h.healthy, ?_⟩
    rw [Router.Passes, ← Router.headroomUsedPct_eq]
    exact h.admits.imp_right (fun hbypass => ⟨hslo, hbypass⟩)
  cases hselect : r.selectAdmissible spec with
  | none => exact absurd hopen (Router.selectAdmissible_none r spec hselect _ _)
  | some p =>
    obtain ⟨t, ht, -⟩ := Router.selectAdmissible_open r spec p hselect
    have hmem := (OrdDict.mem_items r.pools p t).2 ht
    rw [h.pools, List.mem_singleton] at hmem
    exact congrArg some (Prod.ext_iff.1 hmem).1

theorem ColdRouter.benched {cap : Nat} {s : PoolState} {r : Router F} (h : ColdRouter cap s r) :
    Benched cap s.pool r [] := by
  refine ⟨h.benchPool, h.cacheMax, ?_, fun key q hget => ?_⟩
  · rw [h.empty, Recency.recent, List.dedup_nil, List.rtake_nil]
    rfl
  · rw [h.empty, OrdDict.get?_empty] at hget
    cases hget

theorem poolsUsed_regime (sha256Hex : List UInt8 → Text) {cap : Nat} {s : PoolState} {r : Router F}
    (hr : ColdRouter cap s r) (regime : Text) {specs : List RequestSpec} (hspecs : ∀ spec ∈ specs, BenchSpec spec) :
    (summarize regime (r.decisions sha256Hex (specs.map .route))).poolsUsed.items =
      if specs.length = 0 then [] else [(s.pool.value, specs.length)] := by
  have hlen := Router.length_decisions sha256Hex specs r
  have hone := poolsUsed_one _ (bench_decisions sha256Hex specs r [] hr.benched hspecs).2
  rw [hlen] at hone
  exact hone

/-- **The hits of a regime** are those of a least-recently-used list of `cap` entries over the first 256 characters of its
prompts. -/
theorem regime_hits (sha256Hex : List UInt8 → Text) {cap : Nat} {s : PoolState} {r : Router F}
    (hr : ColdRouter cap s r) (regime : Text) {specs : List RequestSpec} (hspecs : ∀ spec ∈ specs, BenchSpec spec)
    (happart : KeysApart sha256Hex r s.pool specs) :
    (summarize regime (r.decisions sha256Hex (specs.map .route))).cacheHits =
      Recency.hits cap [] (specs.map Router.promptPrefix) :=
  (bench_decisions sha256Hex specs r [] hr.benched hspecs).1.trans (hits_promptPrefix sha256Hex r s.pool cap specs happart)

/-! ## What the prompts begin with -/

/-- A prefix is numbered at its beginning. -/
def Numbered (i : Nat) (text : Text) : Prop := ∃ rest, text = "prefix-".toList ++ (Text.ofNat i ++ '-' :: rest)

/-- A text of as many words as a prefix has. -/
def Worded (targetTokens : Int) (text : Text) : Prop := (Text.split text).length = max 1 targetTokens.toNat

theorem prefixWords_isWord : ∀ w ∈ prefixWords, Text.IsWord w := by
  have hall : prefixWords.all (fun w => !w.isEmpty && w.all (fun c => Text.isSpace c == false)) = true := by
    decide +kernel
  intro w hw
  have hword := List.all_eq_true.1 hall w hw
  rw [Bool.and_eq_true, Bool.not_eq_true', List.isEmpty_eq_false_iff] at hword
  exact Text.isWord_of_all hword.1 hword.2

theorem always_choosePrefixWords : ∀ n,
    Gen.Always (choosePrefixWords n) (fun ws => ws.length = n ∧ ∀ w ∈ ws, Text.IsWord w)
  | 0     => Gen.always_pure ⟨rfl, fun w hw => by cases hw⟩
  | n + 1 => by
    unfold choosePrefixWords
    refine Gen.always_bind (Gen.always_choice prefixWords prefixWords_ne_nil) (fun w hw => ?_)
    refine Gen.always_bind (always_choosePrefixWords n) (fun ws hws => Gen.always_pure ⟨congrArg (· + 1) hws.1, ?_⟩)
    exact List.forall_mem_cons.2 ⟨prefixWords_isWord w hw, hws.2⟩

/-- A label without blanks is part of the first word behind it. -/
theorem length_split_label {label : Text} (hlabel : Text.IsWord label) {ws : List Text} (h : ∀ w ∈ ws, Text.IsWord w) :
    (Text.split (label ++ Text.join [' '] ws)).length = max 1 ws.length := by
  cases ws with
  | nil =>
    rw [show Text.join [' '] [] = [] from rfl, List.append_nil, hlabel.split]
    rfl
  | cons w ws =>
    have hjoin : label ++ Text.join [' '] (w :: ws) = Text.join [' '] ((label ++ w) :: ws) := by
      cases ws with
      | nil => rw [Text.join_singleton, Text.join_singleton]
      | cons v ws => rw [Text.join_cons_cons, Text.join_cons_cons, List.append_assoc]
    obtain ⟨hw, hws⟩ := List.forall_mem_cons.1 h
    rw [hjoin, Text.split_join_words (List.forall_mem_cons.2 ⟨hlabel.append hw.solid, hws⟩), List.length_cons,
      List.length_cons, max_eq_right (Nat.succ_le_succ (Nat.zero_le _))]

theorem label_isWord (i : Nat) : Text.IsWord ("prefix-".toList ++ Text.ofNat i ++ ['-']) := by
  have hname : Text.IsWord "prefix-".toList := Text.isWord_of_all (by decide) (by decide)
  refine (hname.append (Text.solid_ofNat i)).append (fun c hc => ?_)
  rw [List.mem_singleton.1 hc]
  rfl

/-- **A prefix is always drawn**, numbered and of its number of words. -/
theorem always_makePrefix (i : Nat) (targetTokens : Int) :
    Gen.Always (makePrefix i targetTokens) (fun text => Numbered i text ∧ Worded targetTokens text) := by
  unfold makePrefix
  refine Gen.always_bind (always_choosePrefixWords targetTokens.toNat) (fun ws hws => Gen.always_pure ⟨?_, ?_⟩)
  · exact ⟨Text.join [' '] ws, by rw [List.append_assoc]⟩
  · have hsplit := length_split_label (label_isWord i) hws.2
    rw [List.append_assoc, List.singleton_append, hws.1] at hsplit
    exact hsplit

theorem specFromPrompt_eq {rid prompt : Text} {spec : RequestSpec} (h : specFromPrompt rid prompt = some spec) :
    BenchSpec spec ∧ spec.promptText = prompt := by
  obtain ⟨-, hslo, hworkload, -, -, htext⟩ := RequestSpec.make?_eq h
  exact ⟨⟨hslo, hworkload⟩, htext⟩

/-- A prompt of not too many words makes a request. -/
theorem always_specFromPrompt {rid prompt : Text} (hrid : rid.strip ≠ []) (hwords : (Text.split prompt).length ≤ 200000) :
    Gen.Always (Gen.ofOption (specFromPrompt rid prompt)) (fun spec => BenchSpec spec ∧ spec.promptText = prompt) := by
  refine Gen.always_ofOption ?_
  obtain ⟨spec, hspec, -⟩ := make?_eq rid .interactive .chat (max 1 (Text.split prompt).length) 32 prompt hrid
    (by omega) (by decide)
  exact ⟨spec, hspec, specFromPrompt_eq hspec⟩

theorem always_coldSpec {targetTokens : Int} (htarget : targetTokens ≤ 200000) (i : Nat) :
    Gen.Always (coldSpec targetTokens i) (fun spec => BenchSpec spec ∧ Numbered i spec.promptText) := by
  unfold coldSpec
  refine Gen.always_bind (always_makePrefix i targetTokens) (fun prompt hprompt => ?_)
  have hwords : (Text.split prompt).length ≤ 200000 := by
    rw [hprompt.2]
    omega
  exact (always_specFromPrompt (strip_ne_nil _ (by decide)) hwords).weaken
    (fun spec hspec => ⟨hspec.1, hspec.2 ▸ hprompt.1⟩)

/-- The requests of a regime are drawn, each at its place. -/
theorem always_specsOf {next : Nat → Gen RequestSpec} {P : Nat → RequestSpec → Prop}
    (hnext : ∀ i, Gen.Always (next i) (P i)) : ∀ n i, Gen.Always (specsOf next n i)
      (fun specs => specs.length = n ∧ ∀ k (hk : k < specs.length), P (i + k) specs[k])
  | 0, _     => Gen.always_pure ⟨rfl, fun k hk => absurd hk (Nat.not_lt_zero k)⟩
  | n + 1, i => by
    unfold specsOf
    refine Gen.always_bind (hnext i) (fun spec hspec => Gen.always_bind (always_specsOf hnext n (i + 1))
      (fun specs hspecs => Gen.always_pure ⟨congrArg (· + 1) hspecs.1, fun k hk => ?_⟩))
    cases k with
    | zero => exact hspec
    | succ k =>
      have h := hspecs.2 k (Nat.lt_of_succ_lt_succ hk)
      rw [show i + 1 + k = i + (k + 1) by omega] at h
      exact h

theorem Numbered.take {i : Nat} {text : Text} (h : Numbered i text) (hi : i < 10 ^ 248) :
    ∃ rest, text.take 256 = "prefix-".toList ++ (Text.ofNat i ++ '-' :: rest) := by
  obtain ⟨rest, rfl⟩ := h
  have hlen : (Text.ofNat i).length ≤ 248 := (Nat.length_toDigits_le_iff (by decide) (by decide)).2 hi
  have hroom : 256 - "prefix-".toList.length - (Text.ofNat i).length = (248 - (Text.ofNat i).length) + 1 := by
    have hseven : "prefix-".toList.length = 7 := rfl
    omega
  refine ⟨rest.take (248 - (Text.ofNat i).length), ?_⟩
  rw [List.take_append, List.take_of_length_le (by decide), List.take_append,
    List.take_of_length_le (show (Text.ofNat i).length ≤ 256 - "prefix-".toList.length by
      have hseven : "prefix-".toList.length = 7 := rfl
      omega), hroom, List.take_succ_cons]

/-- **Prefixes with different numbers begin differently.** -/
theorem Numbered.inj {i j : Nat} {s t : Text} (hs : Numbered i s) (ht : Numbered j t) (hi : i < 10 ^ 248)
    (hj : j < 10 ^ 248) (h : s.take 256 = t.take 256) : i = j := by
  obtain ⟨u, hu⟩ := hs.take hi
  obtain ⟨v, hv⟩ := ht.take hj
  rw [hu, hv] at h
  exact (Text.ofNat_sep_inj rfl (List.append_cancel_left h)).1

/-! ## The cold regime -/

/-- **A cold regime always returns and sends every request to the one pool**, whatever the draws are; and it never hits
while no two different beginnings share a key. -/
theorem cold_never_hits (sha256Hex : List UInt8 → Text) {cap : Nat} {s : PoolState} {r : Router F}
    (hr : ColdRouter cap s r) (nRequests targetTokens : Int) (hn : nRequests ≤ 10 ^ 248)
    (htarget : targetTokens ≤ 200000) (d : Draws) :
    ∃ specs d' report, specsOf (coldSpec targetTokens) nRequests.toNat 0 d = some (specs, d') ∧
      runCold sha256Hex r nRequests targetTokens d = some (report, d') ∧ report.nRequests = nRequests.toNat ∧
      report.poolsUsed.items = (if nRequests.toNat = 0 then [] else [(s.pool.value, nRequests.toNat)]) ∧
      (KeysApart sha256Hex r s.pool specs → report.cacheHits = 0) := by
  obtain ⟨specs, d', hspecs, hlen, hplaces⟩ := always_specsOf (always_coldSpec htarget) nRequests.toNat 0 d
  have hbench : ∀ spec ∈ specs, BenchSpec spec :=
    List.forall_mem_iff_getElem.2 (fun k hk => (hplaces k hk).1)
  have hnodup : (specs.map Router.promptPrefix).Nodup := by
    refine List.nodup_iff_injective_get.2 (fun ⟨j, hj⟩ ⟨k, hk⟩ heq => Fin.ext ?_)
    rw [List.length_map] at hj hk
    rw [List.get_eq_getElem, List.get_eq_getElem, List.getElem_map, List.getElem_map] at heq
    have hjn := (hplaces j hj).2
    have hkn := (hplaces k hk).2
    rw [Nat.zero_add] at hjn hkn
    show j = k
    exact hjn.inj hkn (by omega) (by omega) heq
  have hused := poolsUsed_regime sha256Hex hr "cold".toList hbench
  rw [hlen] at hused
  refine ⟨specs, d', _, hspecs, ?_, (Router.length_decisions sha256Hex specs r).trans hlen, hused, fun happart => ?_⟩
  · rw [runCold, routeEach_eq, bind_assoc, Gen.bind_some hspecs]
    rfl
  · exact (regime_hits sha256Hex hr "cold".toList hbench happart).trans (Recency.hits_of_nodup cap _ [] hnodup)

/-! ## A router with one pool -/

instance (sha256Hex : List UInt8 → Text) (r : Router F) (p : Pool) (specs : List RequestSpec) :
    Decidable (KeysApart sha256Hex r p specs) :=
  inferInstanceAs (Decidable (∀ s ∈ specs, ∀ t ∈ specs, benchKey sha256Hex r p s = benchKey sha256Hex r p t →
    Router.promptPrefix s = Router.promptPrefix t))

theorem coldRouter_cold : ColdRouter 1024 Router.prefillPool Orchestrator.coldRouter :=
  ⟨by decide, rfl, Or.inr rfl, rfl, rfl⟩

/-- The beginning of a prompt whose words are all drawn as the first of the list. -/
def theBeginning (i : Nat) (words : Nat) : List UInt8 :=
  Text.utf8 (("prefix-".toList ++ Text.ofNat i ++ '-' :: Text.join [' '] (List.replicate words "the".toList)).take 256)

/-- The SHA-256 of the beginnings of the prompts that are drawn below. -/
def promptHash (b : List UInt8) : Text :=
  if b = theBeginning 0 1 then "1c157ba090a407fde3d3628f3a99863a7ec5fcc5b341038a3709420692aa6a25".toList
  else if b = theBeginning 1 1 then "c93a1bde151e499e01c8379e26caf8f669db04d2372806f7baa5d336e58a716d".toList
  else if b = theBeginning 0 62 then "7751b3016f3d70e811574b97463c06723c36657916859942002897b82314da90".toList
  else "587c8dce076adf5a57a47a0920242548602f7d2471472b158cfd2602614eaea5".toList

theorem two_cold_apart : ∀ x ∈ specsOf (coldSpec 1) (2 : Int).toNat 0 ⟨fun _ _ => 0, 0⟩,
    KeysApart promptHash Orchestrator.coldRouter .prefill x.1 := by decide +kernel

theorem two_cold_requests : ∃ d' report,
    runCold promptHash Orchestrator.coldRouter 2 1 ⟨fun _ _ => 0, 0⟩ = some (report, d') ∧ report.nRequests = 2 ∧
      report.poolsUsed.items = [(Pool.prefill.value, 2)] ∧ report.cacheHits = 0 := by
  obtain ⟨specs, d', report, hspecs, hrun, hcount, hused, hhits⟩ :=
    cold_never_hits promptHash coldRouter_cold 2 1 (by norm_num) (by decide) ⟨fun _ _ => 0, 0⟩
  exact ⟨d', report, hrun, hcount, hused, hhits (two_cold_apart _ hspecs)⟩

/-! ## The warm regime -/

/-- A warm prompt: one of the prefixes, and a numbered query. -/
def Warm (prefixes : List Text) (i : Nat) (text : Text) : Prop :=
  ∃ base ∈ prefixes, text = base ++ (" query-".toList ++ Text.ofNat i)

/-- **The number of a query can be read from the end of its prompt.** -/
theorem Warm.inj {prefixes : List Text} {i j : Nat} {text : Text} (hi : Warm prefixes i text)
    (hj : Warm prefixes j text) : i = j := by
  obtain ⟨a, -, ha⟩ := hi
  obtain ⟨b, -, hb⟩ := hj
  have hends : ∀ (base : Text) (k : Nat), (base ++ (" query-".toList ++ Text.ofNat k)).reverse =
      (Text.ofNat k).reverse ++ '-' :: (base ++ " query".toList).reverse := by
    intro base k
    rw [show " query-".toList = " query".toList ++ ['-'] from rfl]
    simp
  have h := congrArg List.reverse (ha.symm.trans hb)
  rw [hends, hends] at h
  have hdigits : ∀ k, '-' ∉ (Text.ofNat k).reverse := fun k hmem =>
    Text.notMem_ofNat (c := '-') rfl k (List.mem_reverse.1 hmem)
  exact Text.ofNat_injective (List.reverse_injective (Text.sep_inj (hdigits i) (hdigits j) h).1)

end RouterBenchmark
end GoodputLab
