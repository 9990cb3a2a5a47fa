import GoodputLab.SynthTextCount
import GoodputLab.WorkloadRuns
/-!
# AgenticPrompts — prompts with a growing history

Each request of an agentic trace adds one block to the history, between a fixed frame and a fixed question
(`returnsOn_agenticRequests`).  So an earlier prompt without its question is a proper prefix of every later one, and the
prompts have more and more tokens (`agentic_prompts_extend`).
-/
namespace GoodputLab

open Gen (Returns ReturnsOn returnsOn_pure returnsOn_bind returnsOn_ofOption returns_of_returnsOn)
open Text (IsWord)

variable {source : Nat → Nat → Nat}

/-! ## One prompt -/

/-- What stands before the history of every prompt. -/
def agenticFrame (cfg : AgenticWorkloadConfig) : Text :=
  "System: ".toList ++ cfg.systemPrompt ++ "\n\n".toList ++ cfg.toolDefs ++ "\n\n".toList ++ "History:\n".toList

/-- What stands after it. -/
def agenticQuestion : Text := "\n\n".toList ++ "What is the next action?".toList

theorem agenticPrompt_eq (cfg : AgenticWorkloadConfig) (blocks : List Text) :
    agenticPrompt cfg blocks = agenticFrame cfg ++ (Text.join ['\n'] blocks ++ agenticQuestion) := by
  rw [← List.append_assoc, agenticQuestion, ← List.append_assoc]
  rfl

def agenticFrameTokens (cfg : AgenticWorkloadConfig) : Nat :=
  7 + synthTokenCount cfg.systemPrompt + synthTokenCount cfg.toolDefs

def historyTokens (blocks : List Text) : Nat := (blocks.map synthTokenCount).sum

theorem history_count (blocks : List Text) : synthTokenCount (Text.join ['\n'] blocks) = historyTokens blocks :=
  synthTokenCount_join (List.cons_ne_nil _ _) (Text.mem_singleton_isSpace rfl) blocks

/-- The tokens of a prompt are those of its frame and of its history. -/
theorem agenticPrompt_count (cfg : AgenticWorkloadConfig) (blocks : List Text) :
    synthTokenCount (agenticPrompt cfg blocks) = agenticFrameTokens cfg + historyTokens blocks := by
  have hsystem : "System: ".toList = "System:".toList ++ [' '] := rfl
  have hhistory : "History:\n".toList = "History:".toList ++ ['\n'] := rfl
  unfold agenticPrompt
  rw [hsystem, hhistory]
  repeat rw [List.append_assoc]
  rw [List.singleton_append, List.singleton_append, synthTokenCount_append rfl, synthTokenCount_blankLine,
    synthTokenCount_blankLine, synthTokenCount_append rfl, synthTokenCount_blankLine, history_count,
    systemLabel_count,
    show synthTokenCount "History:".toList = 1 from by decide +kernel,
    show synthTokenCount "What is the next action?".toList = 5 from by decide +kernel, agenticFrameTokens]
  omega

theorem historyTokens_le {blocks : List Text} {tokens : Nat} (h : ∀ b ∈ blocks, synthTokenCount b ≤ tokens) :
    historyTokens blocks ≤ blocks.length * tokens := by
  have hle := List.sum_le_card_nsmul (blocks.map synthTokenCount) tokens (fun x hx => ?_)
  · rwa [List.length_map, smul_eq_mul] at hle
  · obtain ⟨b, hb, rfl⟩ := List.mem_map.1 hx
    exact h b hb

theorem le_historyTokens {blocks : List Text} {tokens : Nat} (h : ∀ b ∈ blocks, tokens ≤ synthTokenCount b) :
    blocks.length * tokens ≤ historyTokens blocks := by
  have hle := List.card_nsmul_le_sum (blocks.map synthTokenCount) tokens (fun x hx => ?_)
  · rwa [List.length_map, smul_eq_mul] at hle
  · obtain ⟨b, hb, rfl⟩ := List.mem_map.1 hx
    exact h b hb

theorem historyTokens_eq {blocks : List Text} {tokens : Nat} (h : ∀ b ∈ blocks, synthTokenCount b = tokens) :
    historyTokens blocks = blocks.length * tokens :=
  le_antisymm (historyTokens_le (fun b hb => (h b hb).le)) (le_historyTokens (fun b hb => (h b hb).ge))

/-- What one request adds to the history. -/
def agenticBlock (i : Nat) (observation : Text) : Text :=
  "Step ".toList ++ Text.ofNat i ++ ": tool_result(".toList ++ Text.ofNat i ++ ") = ".toList ++ observation

/-- A block is four tokens and its observation. -/
theorem agenticBlock_count (i : Nat) (observation : Text) :
    synthTokenCount (agenticBlock i observation) = 4 + synthTokenCount observation := by
  have hframe : agenticBlock i observation = "Step".toList ++ ' ' :: (Text.ofNat i ++ [':'] ++ ' ' ::
      ("tool_result(".toList ++ (Text.ofNat i ++ [')']) ++ ' ' :: (['='] ++ ' ' :: observation))) := by
    unfold agenticBlock
    rw [show "Step ".toList = "Step".toList ++ [' '] from rfl,
      show ": tool_result(".toList = [':'] ++ ' ' :: "tool_result(".toList from rfl,
      show ") = ".toList = [')'] ++ ' ' :: (['='] ++ [' ']) from rfl]
    simp only [List.append_assoc, List.cons_append, List.nil_append]
  have hlabel : synthTokenCount (Text.ofNat i ++ [':']) = 1 :=
    synthTokenCount_word ((Text.isWord_ofNat i).append (Text.mem_singleton_isSpace rfl))
  have hcall : synthTokenCount ("tool_result(".toList ++ (Text.ofNat i ++ [')'])) = 1 := by
    have hname : IsWord "tool_result(".toList := Text.isWord_of_all (List.cons_ne_nil _ _) (by decide +kernel)
    have hnumber := (Text.isWord_ofNat i).append (Text.mem_singleton_isSpace (c := ')') rfl)
    exact synthTokenCount_word (hname.append hnumber.solid)
  rw [hframe, synthTokenCount_append (c := ' ') rfl, synthTokenCount_append (c := ' ') rfl,
    synthTokenCount_append (c := ' ') rfl, synthTokenCount_append (c := ' ') rfl, hlabel, hcall,
    show synthTokenCount "Step".toList = 1 from by decide +kernel, show synthTokenCount ['='] = 1 from by decide +kernel]
  omega

/-! ## The requests of a trace -/

/-- The request at place `i`, after the blocks of its history. -/
structure AgenticAt (cfg : AgenticWorkloadConfig) (i : Nat) (blocks : List Text) (r : RequestSpec) : Prop where
  requestId    : r.requestId = "agent-".toList ++ Text.zfill 5 i
  promptText   : r.promptText = agenticPrompt cfg blocks
  promptTokens : r.promptTokens = agenticFrameTokens cfg + historyTokens blocks

/-- What a run of the generator has drawn: the blocks, each of four tokens and an observation of a size with `Q`, and the
requests, each after the blocks up to its own and with an output size with `R`. -/
structure AgenticDrawn (cfg : AgenticWorkloadConfig) (Q R : Int → Prop) (i : Nat) (history blocks : List Text)
    (rs : List RequestSpec) : Prop where
  length  : blocks.length = rs.length
  sizes   : ∀ b ∈ blocks, ∃ v, Q v ∧ synthTokenCount b = 4 + v.toNat
  places  : ∀ k (hk : k < rs.length), AgenticAt cfg (i + k) (history ++ blocks.take (k + 1)) rs[k]
  outputs : ∀ r ∈ rs, R r.outputTokens

theorem AgenticDrawn.cons {cfg : AgenticWorkloadConfig} {Q R : Int → Prop} {i : Nat} {history blocks : List Text}
    {rs : List RequestSpec} {b : Text} {r : RequestSpec} (hrest : AgenticDrawn cfg Q R (i + 1) (history ++ [b]) blocks rs)
    (hsize : ∃ v, Q v ∧ synthTokenCount b = 4 + v.toNat) (hplace : AgenticAt cfg i (history ++ [b]) r)
    (hout : R r.outputTokens) : AgenticDrawn cfg Q R i history (b :: blocks) (r :: rs) := by
  refine ⟨?_, fun x hx => ?_, fun k hk => ?_, fun x hx => ?_⟩
  · rw [List.length_cons, List.length_cons, hrest.length]
  · rcases List.mem_cons.1 hx with rfl | hx
    · exact hsize
    · exact hrest.sizes x hx
  · cases k with
    | zero => exact hplace
    | succ k =>
      have hlater := hrest.places k (Nat.lt_of_succ_lt_succ hk)
      rw [Nat.add_right_comm, List.append_assoc] at hlater
      exact hlater
  · rcases List.mem_cons.1 hx with rfl | hx
    · exact hout
    · exact hrest.outputs x hx

/-- **A run of the generator**, for any property of the sizes drawn on the stream. -/
theorem returnsOn_agenticRequests (cfg : AgenticWorkloadConfig) {Q R : Int → Prop}
    (hobs : ReturnsOn source (Gen.randint cfg.observationTokensRange.1 cfg.observationTokensRange.2) Q)
    (hout : ReturnsOn source (Gen.randint cfg.outputTokensRange.1 cfg.outputTokensRange.2) R) :
    ∀ n i history, ReturnsOn source (agenticRequests cfg n i history)
      (fun rs => rs.length = n ∧ ∃ blocks, AgenticDrawn cfg Q R i history blocks rs)
  | 0, i, history => by
    refine returnsOn_pure ⟨rfl, [], rfl, fun b hb => ?_, fun k hk => ?_, fun r hr => ?_⟩
    · cases hb
    · cases hk
    · cases hr
  | n + 1, i, history => by
    unfold agenticRequests
    refine returnsOn_bind hobs (fun obsTokens hq => ?_)
    refine returnsOn_bind (returnsOn_synthParagraph obsTokens) (fun observation hcount => ?_)
    refine returnsOn_bind hout (fun targetOutput hr => ?_)
    refine returnsOn_bind (returnsOn_ofOption (fun r => RequestSpec.make?_eq)) (fun r hmade => ?_)
    refine returnsOn_bind (returnsOn_agenticRequests cfg hobs hout n (i + 1) _) (fun rs hrest => returnsOn_pure ?_)
    obtain ⟨hlen, blocks, hdrawn⟩ := hrest
    obtain ⟨hid, -, -, htokens, houtput, htext⟩ := hmade
    refine ⟨by rw [List.length_cons, hlen], _, hdrawn.cons ⟨obsTokens, hq, ?_⟩ ⟨hid, htext, ?_⟩ ?_⟩
    · rw [← hcount]
      exact agenticBlock_count i observation
    · have hcast := Int.ofNat.inj htokens
      rw [hcast, agenticPrompt_count]
    · rw [houtput]
      exact hr

theorem returnsOn_agenticGenerate (cfg : AgenticWorkloadConfig) {Q R : Int → Prop}
    (hobs : ReturnsOn source (Gen.randint cfg.observationTokensRange.1 cfg.observationTokensRange.2) Q)
    (hout : ReturnsOn source (Gen.randint cfg.outputTokensRange.1 cfg.outputTokensRange.2) R) :
    ReturnsOn source (agenticGenerate cfg) (fun t => (t.requests.length = cfg.nRequests ∧
      ∃ blocks, AgenticDrawn cfg Q R 0 [] blocks t.requests) ∧ 0 < cfg.ratePerSec ∧ 0 < cfg.durationS) := by
  refine returnsOn_bind (returnsOn_agenticRequests cfg hobs hout cfg.nRequests 0 []) (fun requests hrequests => ?_)
  refine returnsOn_finishTrace.weaken (fun t ht => ?_)
  obtain ⟨rfl, hpos⟩ := ht
  exact ⟨hrequests, hpos⟩

/-- **Every run that returns**: its observations and its output sizes are in the configured ranges. -/
theorem returns_agenticRequests (cfg : AgenticWorkloadConfig) (n i : Nat) (history : List Text) :
    Returns (agenticRequests cfg n i history) (fun rs => rs.length = n ∧ ∃ blocks, AgenticDrawn cfg
      (fun v => cfg.observationTokensRange.1 ≤ v ∧ v ≤ cfg.observationTokensRange.2)
      (fun v => cfg.outputTokensRange.1 ≤ v ∧ v ≤ cfg.outputTokensRange.2) i history blocks rs) :=
  returns_of_returnsOn (fun _ =>
    returnsOn_agenticRequests cfg (Gen.returnsOn_bounds _ _) (Gen.returnsOn_bounds _ _) n i history)

theorem returns_agenticGenerate (cfg : AgenticWorkloadConfig) : Returns (agenticGenerate cfg)
    (fun t => t.requests.length = cfg.nRequests ∧ ∃ blocks, AgenticDrawn cfg
      (fun v => cfg.observationTokensRange.1 ≤ v ∧ v ≤ cfg.observationTokensRange.2)
      (fun v => cfg.outputTokensRange.1 ≤ v ∧ v ≤ cfg.outputTokensRange.2) 0 [] blocks t.requests) := by
  refine Gen.returns_bind (returns_agenticRequests cfg cfg.nRequests 0 []) (fun requests hrequests => ?_)
  intro d t d' ht
  obtain ⟨-, rfl, -⟩ := finishTrace_eq ht
  exact hrequests

/-! ## Later prompts extend earlier ones -/

theorem historyTokens_append (xs ys : List Text) : historyTokens (xs ++ ys) = historyTokens xs + historyTokens ys := by
  simp [historyTokens]

theorem historyTokens_concat (history : List Text) (block : Text) :
    historyTokens (history ++ [block]) = historyTokens history + synthTokenCount block := by
  rw [historyTokens_append]
  simp [historyTokens]

/-- Every block has tokens of its own, so a longer history has more. -/
theorem historyTokens_take_lt {blocks : List Text} (h : ∀ b ∈ blocks, 0 < synthTokenCount b) {m n : Nat} (hmn : m < n)
    (hn : n ≤ blocks.length) : historyTokens (blocks.take m) < historyTokens (blocks.take n) := by
  have hm : m < blocks.length := by omega
  have hone : historyTokens (blocks.take (m + 1)) = historyTokens (blocks.take m) + synthTokenCount blocks[m] := by
    rw [List.take_add_one, List.getElem?_eq_getElem hm]
    exact historyTokens_concat _ _
  have hblock := h blocks[m] (List.getElem_mem hm)
  obtain ⟨k, rfl⟩ : ∃ k, n = m + 1 + k := ⟨n - (m + 1), by omega⟩
  rw [List.take_add, historyTokens_append]
  omega

/-- **Agentic prompts extend one another**: without its question an earlier prompt is a proper prefix of every later
one, which has more tokens. -/
theorem agentic_prompts_extend (cfg : AgenticWorkloadConfig) (d d' : Draws) (t : Trace)
    (h : agenticGenerate cfg d = some (t, d')) {i j : Nat} (hij : i < j) (hj : j < t.requests.length) :
    (∃ body : Text, t.requests[i].promptText = body ++ "\n\nWhat is the next action?".toList ∧
      body <+: t.requests[j].promptText ∧ body ≠ t.requests[j].promptText) ∧
    t.requests[i].promptTokens < t.requests[j].promptTokens := by
  obtain ⟨-, blocks, hdrawn⟩ := returns_agenticGenerate cfg d t d' h
  have hi := hdrawn.places i (hij.trans hj)
  have hj' := hdrawn.places j hj
  rw [Nat.zero_add, List.nil_append] at hi hj'
  have hlen := hdrawn.length
  have hbody : agenticFrame cfg ++ Text.join ['\n'] (blocks.take (i + 1)) <+:
      agenticFrame cfg ++ Text.join ['\n'] (blocks.take (j + 1)) :=
    (List.prefix_append_right_inj _).2 (Text.join_prefix_join _ (List.take_prefix_take_left (by omega)))
  have hlater : t.requests[j].promptText =
      agenticFrame cfg ++ Text.join ['\n'] (blocks.take (j + 1)) ++ agenticQuestion := by
    rw [hj'.promptText, agenticPrompt_eq, List.append_assoc]
  refine ⟨⟨agenticFrame cfg ++ Text.join ['\n'] (blocks.take (i + 1)), ?_, ?_, ?_⟩, ?_⟩
  · rw [hi.promptText, agenticPrompt_eq, List.append_assoc]
    rfl
  · rw [hlater]
    exact hbody.trans (List.prefix_append _ _)
  · intro heq
    have hshort := hbody.length_le
    rw [heq, hlater, List.length_append] at hshort
    have hquestion : 0 < agenticQuestion.length := by decide
    omega
  · rw [hi.promptTokens, hj'.promptTokens]
    apply Nat.add_lt_add_left
    apply historyTokens_take_lt _ (by omega) (by omega)
    intro b hb
    obtain ⟨v, -, hcount⟩ := hdrawn.sizes b hb
    rw [hcount]
    omega

theorem two_steps : 0 < 2 := by decide

theorem default_phases : (0 : ℚ) < 3 / 2 ∧ (0 : ℚ) < 3 / 10 := by decide +kernel

/-- Two requests with empty observations, in an empty frame. -/
def emptyObservations : AgenticWorkloadConfig where
  nRequests := 2
  observationTokensRange := (0, 0)
  outputTokensRange := (1, 1)
  systemPrompt := []
  toolDefs := []
  nRequestsPos := two_steps
  onOffPos := default_phases

theorem second_extends_first : ∃ t d', agenticGenerate emptyObservations ⟨Gen.lowest, 0⟩ = some (t, d') ∧
    ∃ hk : 1 < t.requests.length,
      (∃ body : Text, t.requests[0].promptText = body ++ "\n\nWhat is the next action?".toList ∧
        body <+: t.requests[1].promptText ∧ body ≠ t.requests[1].promptText) ∧
      t.requests[0].promptTokens < t.requests[1].promptTokens := by
  have hgenerates : (agenticGenerate emptyObservations ⟨Gen.lowest, 0⟩).isSome = true := by decide +kernel
  obtain ⟨⟨t, d'⟩, ht⟩ := Option.isSome_iff_exists.1 hgenerates
  have hlen : t.requests.length = 2 := (returns_agenticGenerate emptyObservations _ t d' ht).1
  have hk : 1 < t.requests.length := by omega
  exact ⟨t, d', ht, hk, agentic_prompts_extend emptyObservations ⟨Gen.lowest, 0⟩ d' t ht Nat.zero_lt_one hk⟩

end GoodputLab
