import GoodputLab.AgenticPrompts
import GoodputLab.ChatPrompt
import GoodputLab.RagPrompts
/-!
# WorkloadsComplete — which workload configurations always generate

`__post_init__` checks some of what generation needs.  The rest is the bounds of `RequestSpec`, `ArrivalConfig` and
`Trace`, ranges that are not empty, and room for the longest prompt; the streams of the highest and of the lowest draws
show that no less will do (`chat_complete_iff`, `rag_complete_iff`, `agentic_complete_iff`).
-/
namespace GoodputLab

open Gen (Always ReturnsOn always_pure always_bind always_ofOption returnsOn_bind returnsOn_ofOption)

variable {source : Nat → Nat → Nat}

/-! ## Chat -/

structure ChatAt (Q R : Int → Prop) (i : Nat) (r : RequestSpec) : Prop where
  requestId    : r.requestId = "chat-".toList ++ Text.zfill 5 i
  promptTokens : Q r.promptTokens
  outputTokens : R r.outputTokens

theorem returnsOn_chatRequest (cfg : ChatWorkloadConfig) {Q R : Int → Prop}
    (hprompt : ReturnsOn source (Gen.randint cfg.promptTokensRange.1 cfg.promptTokensRange.2) Q)
    (hout : ReturnsOn source (Gen.randint cfg.outputTokensRange.1 cfg.outputTokensRange.2) R) (i : Nat) :
    ReturnsOn source (chatRequest cfg i) (ChatAt Q R i) := by
  unfold chatRequest
  refine returnsOn_bind (Gen.returnsOn_randint _ _) (fun nTurns _ => ?_)
  refine returnsOn_bind hprompt (fun targetPrompt hq => ?_)
  refine returnsOn_bind hout (fun targetOutput hr => ?_)
  refine returnsOn_bind (returnsOn_chatTurns _ _) (fun turns _ => returnsOn_ofOption (fun r hmade => ?_))
  obtain ⟨hid, -, -, htokens, houtput, -⟩ := RequestSpec.make?_eq hmade
  exact ⟨hid, htokens ▸ hq, houtput ▸ hr⟩

theorem returnsOn_chatGenerate (cfg : ChatWorkloadConfig) {Q R : Int → Prop}
    (hprompt : ReturnsOn source (Gen.randint cfg.promptTokensRange.1 cfg.promptTokensRange.2) Q)
    (hout : ReturnsOn source (Gen.randint cfg.outputTokensRange.1 cfg.outputTokensRange.2) R) :
    ReturnsOn source (chatGenerate cfg) (fun t => (t.requests.length = cfg.nRequests ∧
      ∀ k (hk : k < t.requests.length), ChatAt Q R k t.requests[k]) ∧ 0 < cfg.ratePerSec ∧ 0 < cfg.durationS) := by
  refine returnsOn_bind (returnsOn_requests (returnsOn_chatRequest cfg hprompt hout) _) (fun requests hreq => ?_)
  refine returnsOn_finishTrace.weaken (fun t ht => ?_)
  obtain ⟨rfl, hpos⟩ := ht
  exact ⟨hreq, hpos⟩

def ChatWorkloadConfig.Generates (cfg : ChatWorkloadConfig) : Prop :=
  cfg.InBounds ∧ 0 < cfg.ratePerSec ∧ 0 < cfg.durationS

theorem chat_complete_iff (cfg : ChatWorkloadConfig) :
    Always (chatGenerate cfg) (Complete cfg.nRequests) ↔ cfg.Generates := by
  constructor
  · intro h
    obtain ⟨t, d', ht, -⟩ := h ⟨Gen.highest, 0⟩
    have hrun := returnsOn_chatGenerate cfg (Gen.returnsOn_highest _ _) (Gen.returnsOn_highest _ _)
    obtain ⟨-, ⟨hlen, hplaces⟩, hpos⟩ := hrun ⟨Gen.highest, 0⟩ t d' rfl ht
    have hk : 0 < t.requests.length := hlen ▸ cfg.nRequestsPos
    have hfirst := hplaces 0 hk
    refine ⟨⟨?_, ?_⟩, hpos⟩
    · rw [← hfirst.promptTokens.2]
      exact_mod_cast t.requests[0].promptBounds.2
    · rw [← hfirst.outputTokens.2]
      exact_mod_cast t.requests[0].outputBounds.2
  · rintro ⟨hb, hrate, hdur⟩
    have hplaces := (always_chatGenerate cfg hb hrate hdur).and_returnsOn (fun _ =>
      returnsOn_chatGenerate cfg (Gen.returnsOn_bounds _ _) (Gen.returnsOn_bounds _ _))
    refine hplaces.weaken (fun t ht => ?_)
    exact complete_of_numbered ht.1.1 (fun k hk => (ht.2.1.2 k hk).requestId)

/-! ## RAG -/

/-- Ranges that are not empty, output sizes within bounds, and room for the longest documents and query. -/
structure RagWorkloadConfig.Generates (cfg : RagWorkloadConfig) : Prop where
  queries  : cfg.queryTokensRange.1 ≤ cfg.queryTokensRange.2
  outputs  : 1 ≤ cfg.outputTokensRange.1 ∧ cfg.outputTokensRange.1 ≤ cfg.outputTokensRange.2 ∧
    cfg.outputTokensRange.2 ≤ 16000
  room     : 3 + synthTokenCount cfg.systemPrompt + ragIncludedCount cfg * (cfg.docTokensRange.2.toNat + 1) +
    queryTokens cfg.queryTokensRange.2 ≤ 200000
  rate     : 0 < cfg.ratePerSec
  duration : 0 < cfg.durationS

theorem returnsOn_ragGenerate (cfg : RagWorkloadConfig) {D Q R : Int → Prop}
    (hdoc : ReturnsOn source (Gen.randint cfg.docTokensRange.1 cfg.docTokensRange.2) D)
    (hquery : ReturnsOn source (Gen.randint cfg.queryTokensRange.1 cfg.queryTokensRange.2) Q)
    (hout : ReturnsOn source (Gen.randint cfg.outputTokensRange.1 cfg.outputTokensRange.2) R) :
    ReturnsOn source (ragGenerate cfg) (fun t => (∃ docs : List Text, docs.length = ragIncludedCount cfg ∧
      (∀ doc ∈ docs, ∃ v, D v ∧ synthTokenCount doc = v.toNat) ∧ t.requests.length = cfg.nRequests ∧
      ∀ k (hk : k < t.requests.length), RagAt cfg Q R docs k t.requests[k]) ∧ 0 < cfg.ratePerSec ∧ 0 < cfg.durationS) := by
  refine returnsOn_bind (returnsOn_ragCorpus cfg hdoc _) (fun corpus hcorpus => ?_)
  refine returnsOn_bind (returnsOn_requests (returnsOn_ragRequest cfg hquery hout hcorpus.1) _) (fun requests hreq => ?_)
  refine returnsOn_finishTrace.weaken (fun t ht => ?_)
  obtain ⟨rfl, hpos⟩ := ht
  exact ⟨⟨_, length_ragIncluded cfg hcorpus.1, fun doc hdoc => hcorpus.2 doc (List.mem_of_mem_take hdoc), hreq⟩, hpos⟩

theorem always_ragRequest (cfg : RagWorkloadConfig) (hg : cfg.Generates) {corpus : List Text}
    (hlen : corpus.length = cfg.nCorpusDocs)
    (hsizes : ∀ doc ∈ corpus, synthTokenCount doc ≤ cfg.docTokensRange.2.toNat) (i : Nat) :
    Always (ragRequest cfg (ragSharedPrefix cfg corpus) i) (fun _ => True) := by
  have hdocs : ((ragIncluded cfg corpus).map (fun doc => synthTokenCount doc + 1)).sum ≤
      ragIncludedCount cfg * (cfg.docTokensRange.2.toNat + 1) := by
    have hle := List.sum_le_card_nsmul ((ragIncluded cfg corpus).map (fun doc => synthTokenCount doc + 1))
      (cfg.docTokensRange.2.toNat + 1) (fun x hx => ?_)
    · rwa [List.length_map, length_ragIncluded cfg hlen, smul_eq_mul] at hle
    · obtain ⟨doc, hdoc, rfl⟩ := List.mem_map.1 hx
      exact Nat.succ_le_succ (hsizes doc (List.mem_of_mem_take hdoc))
  have hroom := hg.room
  obtain ⟨hlow, horder, hhigh⟩ := hg.outputs
  unfold ragRequest
  refine always_bind (Gen.always_randint hg.queries) (fun querySize hsize => ?_)
  have hquery := (always_synthQuery querySize).and_returnsOn (fun _ => returnsOn_synthQuery querySize)
  refine always_bind hquery (fun query hcount => ?_)
  refine always_bind (Gen.always_randint horder) (fun targetOutput hout => always_ofOption ?_)
  have hmono := queryTokens_mono hsize.2
  have htokens := ragPrompt_count cfg hlen query
  rw [hcount.2] at htokens
  obtain ⟨r, hr, -⟩ := make?_eq ("rag-".toList ++ Text.zfill 5 i) cfg.sloClass .rag
    (synthTokenCount (ragSharedPrefix cfg corpus ++ query ++ "\n\nAssistant:".toList)) targetOutput
    (ragSharedPrefix cfg corpus ++ query ++ "\n\nAssistant:".toList) (strip_ne_nil _ (by decide))
    ⟨by omega, by omega⟩ ⟨by omega, by omega⟩
  exact ⟨r, hr, trivial⟩

theorem always_ragGenerate (cfg : RagWorkloadConfig) (hg : cfg.Generates) :
    Always (ragGenerate cfg) (fun _ => True) := by
  have hcorpus := (always_ragCorpus cfg cfg.nCorpusDocs).and_returnsOn
    (fun _ => returnsOn_ragCorpus cfg (Gen.returnsOn_bounds _ _) cfg.nCorpusDocs)
  refine always_bind hcorpus (fun corpus hdocs => ?_)
  obtain ⟨-, hlen, hsizes⟩ := hdocs
  have hrequest := always_ragRequest cfg hg hlen (fun doc hdoc => by
    obtain ⟨v, hv, hcount⟩ := hsizes doc hdoc
    omega)
  refine always_bind (always_requestsFrom hrequest cfg.nRequests 0) (fun requests _ => ?_)
  exact (always_finishTrace hg.rate hg.duration rfl rfl (fun h => by cases h)).weaken (fun _ _ => trivial)

theorem rag_complete_iff (cfg : RagWorkloadConfig) :
    Always (ragGenerate cfg) (Complete cfg.nRequests) ↔ cfg.Generates := by
  constructor
  · intro h
    obtain ⟨t, d', ht, -⟩ := h ⟨Gen.highest, 0⟩
    obtain ⟨s, e', hs, -⟩ := h ⟨Gen.lowest, 0⟩
    have hhigh := returnsOn_ragGenerate cfg (Gen.returnsOn_highest _ _) (Gen.returnsOn_highest _ _)
      (Gen.returnsOn_highest _ _)
    have hlow := returnsOn_ragGenerate cfg (Gen.returnsOn_lowest _ _) (Gen.returnsOn_lowest _ _)
      (Gen.returnsOn_lowest _ _)
    obtain ⟨-, ⟨docs, hdocs, hsizes, hlen, hplaces⟩, hrate, hdur⟩ := hhigh ⟨Gen.highest, 0⟩ t d' rfl ht
    obtain ⟨-, ⟨docs', -, -, hlen', hplaces'⟩, -⟩ := hlow ⟨Gen.lowest, 0⟩ s e' rfl hs
    have hk : 0 < t.requests.length := hlen ▸ cfg.nRequestsPos
    have hk' : 0 < s.requests.length := hlen' ▸ cfg.nRequestsPos
    have hfirst := hplaces 0 hk
    have hleast := (hplaces' 0 hk').outputTokens.2
    obtain ⟨v, ⟨hqueries, rfl⟩, htokens⟩ := hfirst.promptTokens
    have hsum : (docs.map (fun doc => synthTokenCount doc + 1)).sum =
        ragIncludedCount cfg * (cfg.docTokensRange.2.toNat + 1) := by
      rw [List.sum_eq_card_nsmul _ (cfg.docTokensRange.2.toNat + 1), List.length_map, hdocs, smul_eq_mul]
      intro x hx
      obtain ⟨doc, hdoc, rfl⟩ := List.mem_map.1 hx
      obtain ⟨v, ⟨-, rfl⟩, hcount⟩ := hsizes doc hdoc
      rw [hcount]
    have hbound := t.requests[0].promptBounds.2
    have hout := t.requests[0].outputBounds.2
    have hout' := s.requests[0].outputBounds.1
    obtain ⟨horder, htop⟩ := hfirst.outputTokens
    exact ⟨hqueries, ⟨by omega, horder, by omega⟩, by omega, hrate, hdur⟩
  · intro hg
    have hplaces := (always_ragGenerate cfg hg).and_returnsOn (fun _ => returnsOn_ragGenerate cfg
      (Gen.returnsOn_bounds _ _) (Gen.returnsOn_bounds _ _) (Gen.returnsOn_bounds _ _))
    refine hplaces.weaken (fun t ht => ?_)
    obtain ⟨-, ⟨docs, -, -, hlen, hnumbered⟩, -⟩ := ht
    exact complete_of_numbered hlen (fun k hk => (hnumbered k hk).requestId)

/-! ## Agentic -/

/-- Ranges that are not empty, output sizes within bounds, and room for the longest history. -/
structure AgenticWorkloadConfig.Generates (cfg : AgenticWorkloadConfig) : Prop where
  observations : cfg.observationTokensRange.1 ≤ cfg.observationTokensRange.2
  outputs      : 1 ≤ cfg.outputTokensRange.1 ∧ cfg.outputTokensRange.1 ≤ cfg.outputTokensRange.2 ∧
    cfg.outputTokensRange.2 ≤ 16000
  room         : agenticFrameTokens cfg + cfg.nRequests * (4 + cfg.observationTokensRange.2.toNat) ≤ 200000
  rate         : 0 < cfg.ratePerSec
  duration     : 0 < cfg.durationS

/-- **One step of the history**: it never raises while the prompt with the longest observation has room. -/
theorem always_agenticRequests (cfg : AgenticWorkloadConfig) (hg : cfg.Generates) : ∀ n i history,
    agenticFrameTokens cfg + historyTokens history + n * (4 + cfg.observationTokensRange.2.toNat) ≤ 200000 →
      Always (agenticRequests cfg n i history) (fun _ => True)
  | 0, _, _, _ => always_pure trivial
  | n + 1, i, history, hroom => by
    obtain ⟨hlow, horder, hhigh⟩ := hg.outputs
    unfold agenticRequests
    refine always_bind (Gen.always_randint hg.observations) (fun obsTokens hobs => ?_)
    have hobservation := (always_synthParagraph obsTokens).and_returnsOn (fun _ => returnsOn_synthParagraph obsTokens)
    refine always_bind hobservation (fun observation hcount => ?_)
    have hblock := agenticBlock_count i observation
    rw [hcount.2] at hblock
    refine always_bind (Gen.always_randint horder) (fun targetOutput hout => ?_)
    have hblocks := historyTokens_concat history (agenticBlock i observation)
    have htokens := agenticPrompt_count cfg (history ++ [agenticBlock i observation])
    rw [Nat.succ_mul] at hroom
    obtain ⟨r, hr, -⟩ := make?_eq ("agent-".toList ++ Text.zfill 5 i) cfg.sloClass .agentic
      (synthTokenCount (agenticPrompt cfg (history ++ [agenticBlock i observation]))) targetOutput
      (agenticPrompt cfg (history ++ [agenticBlock i observation])) (strip_ne_nil _ (by decide))
      ⟨by rw [htokens, agenticFrameTokens]; omega, by omega⟩ ⟨by omega, by omega⟩
    refine always_bind (P := fun _ => True) (always_ofOption ⟨r, hr, trivial⟩) (fun r _ => ?_)
    refine always_bind (always_agenticRequests cfg hg n (i + 1) (history ++ [agenticBlock i observation]) ?_) ?_
    · omega
    · exact fun rs _ => always_pure trivial

theorem always_agenticGenerate (cfg : AgenticWorkloadConfig) (hg : cfg.Generates) :
    Always (agenticGenerate cfg) (fun _ => True) := by
  have hroom := hg.room
  refine always_bind (always_agenticRequests cfg hg cfg.nRequests 0 [] (by simpa [historyTokens] using hroom)) ?_
  intro requests _
  refine (always_finishTrace hg.rate hg.duration ?_ ?_ (fun _ => ⟨rfl, rfl⟩)).weaken (fun _ _ => trivial)
  · exact decide_eq_true cfg.onOffPos.1
  · exact decide_eq_true cfg.onOffPos.2

/-- **The last request on the stream of the highest draws** carries the longest history. -/
theorem highest_history {cfg : AgenticWorkloadConfig} {t : Trace} {d d' : Draws} (hd : d.source = Gen.highest)
    (h : agenticGenerate cfg d = some (t, d')) : t.requests.length = cfg.nRequests ∧
      cfg.observationTokensRange.1 ≤ cfg.observationTokensRange.2 ∧
      (∀ r ∈ t.requests, (r.outputTokens : Int) = cfg.outputTokensRange.2) ∧
      ∃ (hk : cfg.nRequests - 1 < t.requests.length) (blocks : List Text),
        AgenticAt cfg (cfg.nRequests - 1) blocks t.requests[cfg.nRequests - 1] ∧
        historyTokens blocks = cfg.nRequests * (4 + cfg.observationTokensRange.2.toNat) := by
  have hrun := returnsOn_agenticGenerate cfg (Gen.returnsOn_highest _ _) (Gen.returnsOn_highest _ _)
  obtain ⟨-, ⟨hlen, blocks, hdrawn⟩, -⟩ := hrun d t d' hd h
  have hpos := cfg.nRequestsPos
  have hcount := hdrawn.length
  have hk : cfg.nRequests - 1 < t.requests.length := by omega
  have hlast := hdrawn.places _ hk
  rw [Nat.zero_add, List.nil_append, List.take_of_length_le (by omega)] at hlast
  obtain ⟨b, hb⟩ := List.exists_mem_of_length_pos (show 0 < blocks.length by omega)
  obtain ⟨v, ⟨horder, -⟩, -⟩ := hdrawn.sizes b hb
  refine ⟨hlen, horder, fun r hr => (hdrawn.outputs r hr).2, hk, blocks, hlast, ?_⟩
  rw [historyTokens_eq (fun b hb => ?_), hcount, hlen]
  obtain ⟨v, ⟨-, rfl⟩, hsize⟩ := hdrawn.sizes b hb
  exact hsize

theorem agentic_generates {cfg : AgenticWorkloadConfig} (h : Always (agenticGenerate cfg) (fun _ => True)) :
    cfg.Generates := by
  obtain ⟨t, d', ht, -⟩ := h ⟨Gen.highest, 0⟩
  obtain ⟨s, e', hs, -⟩ := h ⟨Gen.lowest, 0⟩
  obtain ⟨hlen, horder, hout, hk, blocks, hlast, hhistory⟩ := highest_history rfl ht
  have hlow := returnsOn_agenticGenerate cfg (Gen.returnsOn_lowest _ _) (Gen.returnsOn_lowest _ _)
  obtain ⟨-, ⟨hlen', blocks', hdrawn⟩, hrate, hdur⟩ := hlow ⟨Gen.lowest, 0⟩ s e' rfl hs
  have hpos := cfg.nRequestsPos
  have hk' : 0 < s.requests.length := by omega
  obtain ⟨houtputs, hleast⟩ := hdrawn.outputs _ (List.getElem_mem hk')
  have hgreatest := hout _ (List.getElem_mem hk)
  have hmin := s.requests[0].outputBounds.1
  have hmax := t.requests[cfg.nRequests - 1].outputBounds.2
  have hroom := t.requests[cfg.nRequests - 1].promptBounds.2
  rw [hlast.promptTokens, hhistory] at hroom
  exact ⟨horder, ⟨by omega, houtputs, by omega⟩, hroom, hrate, hdur⟩

theorem agentic_complete_iff (cfg : AgenticWorkloadConfig) :
    Always (agenticGenerate cfg) (Complete cfg.nRequests) ↔ cfg.Generates := by
  constructor
  · exact fun h => agentic_generates (h.weaken (fun _ _ => trivial))
  · intro hg
    refine ((always_agenticGenerate cfg hg).and_returns (returns_agenticGenerate cfg)).weaken (fun t ht => ?_)
    obtain ⟨-, hlen, blocks, hdrawn⟩ := ht
    have hids : ∀ k (hk : k < t.requests.length), t.requests[k].requestId = "agent-".toList ++ Text.zfill 5 k := by
      intro k hk
      have hid := (hdrawn.places k hk).requestId
      rwa [Nat.zero_add] at hid
    exact complete_of_numbered hlen hids

/-! ## All three -/

/-- **Which accepted configurations always generate a complete trace**, of each of the three kinds. -/
theorem accepted_configs_complete_iff (chat : ChatWorkloadConfig) (rag : RagWorkloadConfig)
    (agentic : AgenticWorkloadConfig) :
    (Always (chatGenerate chat) (Complete chat.nRequests) ↔ chat.Generates) ∧
    (Always (ragGenerate rag) (Complete rag.nRequests) ↔ rag.Generates) ∧
    (Always (agenticGenerate agentic) (Complete agentic.nRequests) ↔ agentic.Generates) :=
  ⟨chat_complete_iff chat, rag_complete_iff rag, agentic_complete_iff agentic⟩

theorem single_request : 0 < 1 := by decide

theorem single_token : (1 : Int) ≤ 1 ∧ (1 : Int) ≤ 1 := by decide

/-- A chat configuration with a rate of zero. -/
def idleChat : ChatWorkloadConfig where
  nRequests := 1
  promptTokensRange := (1, 1)
  outputTokensRange := (1, 1)
  nTurnsRange := (1, 1)
  systemPrompt := []
  ratePerSec := 0
  nRequestsPos := single_request
  promptRangeOk := single_token
  outputRangeOk := single_token
  turnsRangeOk := single_token

/-- A RAG configuration whose output range is the wrong way round. -/
def reversedRag : RagWorkloadConfig where
  nRequests := 1
  nCorpusDocs := 1
  docTokensRange := (100, 100)
  includeFraction := 1
  queryTokensRange := (1, 1)
  outputTokensRange := (200, 50)
  systemPrompt := []
  nRequestsPos := single_request
  includeOk := whole_corpus
  corpusOk := one_document
  docRangeOk := hundred_tokens

/-- An agentic configuration that asks for no output. -/
def silentAgentic : AgenticWorkloadConfig where
  nRequests := 1
  observationTokensRange := (1, 1)
  outputTokensRange := (0, 0)
  systemPrompt := []
  toolDefs := []
  nRequestsPos := single_request
  onOffPos := default_phases

/-- Each of the three is accepted, and raises on the stream of the lowest draws. -/
theorem accepted_configs_raise :
    (chatGenerate idleChat ⟨Gen.lowest, 0⟩ = none ∧ ragGenerate reversedRag ⟨Gen.lowest, 0⟩ = none ∧
      agenticGenerate silentAgentic ⟨Gen.lowest, 0⟩ = none) ∧
    ¬ Always (chatGenerate idleChat) (Complete idleChat.nRequests) ∧
    ¬ Always (ragGenerate reversedRag) (Complete reversedRag.nRequests) ∧
    ¬ Always (agenticGenerate silentAgentic) (Complete silentAgentic.nRequests) := by
  have hraise : ∀ {x : Gen Trace} {P : Trace → Prop}, (x ⟨Gen.lowest, 0⟩) = none → ¬ Always x P := by
    intro x P hnone hall
    obtain ⟨t, d', ht, -⟩ := hall ⟨Gen.lowest, 0⟩
    rw [hnone] at ht
    cases ht
  have hchat : chatGenerate idleChat ⟨Gen.lowest, 0⟩ = none := Option.isNone_iff_eq_none.1 (by decide +kernel)
  have hrag : ragGenerate reversedRag ⟨Gen.lowest, 0⟩ = none := Option.isNone_iff_eq_none.1 (by decide +kernel)
  have hagentic : agenticGenerate silentAgentic ⟨Gen.lowest, 0⟩ = none := Option.isNone_iff_eq_none.1 (by decide +kernel)
  exact ⟨⟨hchat, hrag, hagentic⟩, hraise hchat, hraise hrag, hraise hagentic⟩

end GoodputLab
