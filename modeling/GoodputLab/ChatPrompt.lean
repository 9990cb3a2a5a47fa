import GoodputLab.ChatBudget
import GoodputLab.SynthTextCount
import GoodputLab.WorkloadRuns
/-!
# ChatPrompt — a chat prompt against its budget

The frame of a chat prompt is two tokens and one for each turn, and the turns share the budget left by the system prompt
in equal parts (`chatRequest_sized`).  So a prompt is longer than its recorded size by three tokens at least and the
number of turns and two at most, in every trace (`chat_prompts_sized`).
-/
namespace GoodputLab

open Gen (ReturnsOn returnsOn_pure returnsOn_bind returnsOn_ofOption returnsOn_randint)

variable {source : Nat → Nat → Nat}

/-! ## The size of a prompt -/

/-- The turns of a request have equal shares of its budget. -/
theorem returnsOn_chatTurns (perTurn : Int) : ∀ n, ReturnsOn source (chatTurns perTurn n)
    (fun turns => turns.map synthTokenCount = List.replicate n perTurn.toNat)
  | 0 => returnsOn_pure rfl
  | n + 1 => by
    unfold chatTurns
    refine returnsOn_bind (returnsOn_synthParagraph perTurn) (fun turn hturn => ?_)
    refine returnsOn_bind (returnsOn_chatTurns perTurn n) (fun turns hturns => returnsOn_pure ?_)
    rw [List.map_cons, hturn, hturns]
    rfl

theorem turnLines_count (turns : List Text) : ((turns.map (fun t => "User: ".toList ++ t)).map synthTokenCount).sum =
    turns.length + (turns.map synthTokenCount).sum := by
  induction turns with
  | nil => rfl
  | cons t turns ih =>
    have hturn : synthTokenCount ("User: ".toList ++ t) = 1 + synthTokenCount t := by
      rw [show "User: ".toList ++ t = "User:".toList ++ ' ' :: t from rfl, synthTokenCount_append rfl, userLabel_count]
    simp only [List.map_cons, List.sum_cons, List.length_cons, hturn, ih]
    omega

/-- The frame of a prompt is two tokens and one for each turn. -/
theorem chatPrompt_count (systemPrompt : Text) (turns : List Text) :
    synthTokenCount ("System: ".toList ++ systemPrompt ++ ['\n'] ++
        Text.join ['\n'] (turns.map (fun t => "User: ".toList ++ t)) ++ "\nAssistant:".toList) =
      2 + synthTokenCount systemPrompt + (turns.length + (turns.map synthTokenCount).sum) := by
  have hframe : "System: ".toList ++ systemPrompt ++ ['\n'] ++
      Text.join ['\n'] (turns.map (fun t => "User: ".toList ++ t)) ++ "\nAssistant:".toList =
      "System:".toList ++ ' ' :: (systemPrompt ++ '\n' ::
        (Text.join ['\n'] (turns.map (fun t => "User: ".toList ++ t)) ++ '\n' :: "Assistant:".toList)) := by
    simp
  rw [hframe, synthTokenCount_append rfl, synthTokenCount_append rfl, synthTokenCount_append rfl,
    synthTokenCount_join (List.cons_ne_nil _ _) (Text.mem_singleton_isSpace rfl), turnLines_count, systemLabel_count,
    assistantLabel_count]
  omega

/-- Where the budget leaves a token for each of `n` turns: what the prompt has beyond its recorded size. -/
def ChatWorkloadConfig.Sized (cfg : ChatWorkloadConfig) (n : Int) (r : RequestSpec) : Prop :=
  synthTokenCount cfg.systemPrompt + n ≤ r.promptTokens →
    (synthTokenCount r.promptText : Int) =
        r.promptTokens + 2 + n - (r.promptTokens - synthTokenCount cfg.systemPrompt) % n ∧
      (r.promptTokens : Int) + 3 ≤ synthTokenCount r.promptText ∧
      (synthTokenCount r.promptText : Int) ≤ r.promptTokens + n + 2

/-- **A chat request**: the size of its prompt, for the number of turns drawn first for it. -/
theorem chatRequest_sized (cfg : ChatWorkloadConfig) (i : Nat) (d d' : Draws) (r : RequestSpec)
    (h : chatRequest cfg i d = some (r, d')) :
    d'.source = d.source ∧ cfg.Sized (drawn d d.pos cfg.nTurnsRange) r := by
  obtain ⟨hpos, hrange⟩ := cfg.turnsRangeOk
  have hturns := (drawn_bounds d d.pos hrange).1
  unfold chatRequest at h
  rw [Gen.bind_some (a := drawn d d.pos cfg.nTurnsRange) (Gen.randint_eq hrange d)] at h
  refine (show ReturnsOn d.source _ (cfg.Sized (drawn d d.pos cfg.nTurnsRange)) from ?_)
    { d with pos := d.pos + 1 } r d' rfl h
  generalize drawn d d.pos cfg.nTurnsRange = n at hturns
  refine returnsOn_bind (returnsOn_randint _ _) (fun targetPrompt _ => ?_)
  refine returnsOn_bind (returnsOn_randint _ _) (fun targetOutput _ => ?_)
  refine returnsOn_bind (returnsOn_chatTurns _ _) (fun turns hcounts => returnsOn_ofOption (fun r hr => ?_))
  obtain ⟨-, -, -, htokens, -, htext⟩ := RequestSpec.make?_eq hr
  unfold ChatWorkloadConfig.Sized
  rw [htext, htokens, chatPrompt_count, hcounts]
  intro hroom
  have hone : 1 ≤ (targetPrompt - synthTokenCount cfg.systemPrompt) / n :=
    (Int.le_ediv_iff_mul_le (by omega)).2 (by omega)
  have hshare : max 1 (max 1 (targetPrompt - synthTokenCount cfg.systemPrompt) / n) =
      (targetPrompt - synthTokenCount cfg.systemPrompt) / n := by
    rw [max_eq_right (show 1 ≤ targetPrompt - synthTokenCount cfg.systemPrompt by omega), max_eq_right hone]
  have hlen : turns.length = n.toNat := by
    rw [← List.length_map (f := synthTokenCount), hcounts, List.length_replicate]
  have hdiv := Int.mul_ediv_add_emod (targetPrompt - synthTokenCount cfg.systemPrompt) n
  have hlow := Int.emod_nonneg (targetPrompt - synthTokenCount cfg.systemPrompt) (show n ≠ 0 by omega)
  have hhigh := Int.emod_lt_of_pos (targetPrompt - synthTokenCount cfg.systemPrompt) (show 0 < n by omega)
  -- `hdiv` is the division of the budget among the turns: what is left over is what the prompt falls short by
  rw [hlen, List.sum_replicate, smul_eq_mul, hshare]
  push_cast
  rw [Int.toNat_of_nonneg (show 0 ≤ n by omega), Int.toNat_of_nonneg (show 0 ≤ _ by omega)]
  exact ⟨by linarith, by linarith, by linarith⟩

/-- **Chat prompts are pinned to their budget.**  Every request of a generated trace is drawn from the trace's stream, and
wherever on it that is, where its budget leaves a token for each of the turns drawn for it, its prompt has the budget's
tokens, two and one for each turn, less what the turns do not share out. -/
theorem chat_prompts_sized (cfg : ChatWorkloadConfig) (d d' : Draws) (t : Trace)
    (h : chatGenerate cfg d = some (t, d')) : ∀ k (hk : k < t.requests.length),
      (∃ e e', e.source = d.source ∧ chatRequest cfg k e = some (t.requests[k], e')) ∧
      ∀ e e', chatRequest cfg k e = some (t.requests[k], e') →
        cfg.Sized (drawn e e.pos cfg.nTurnsRange) t.requests[k] := by
  have hrequest : ∀ i, ReturnsOn d.source (chatRequest cfg i)
      (fun r => ∃ e e', e.source = d.source ∧ chatRequest cfg i e = some (r, e')) := by
    intro i e r e' he hr
    obtain ⟨hsource, -⟩ := chatRequest_sized cfg i e e' r hr
    exact ⟨hsource.trans he, e, e', he, hr⟩
  have hrun : ReturnsOn d.source (chatGenerate cfg) (fun t => ∀ k (hk : k < t.requests.length),
      ∃ e e', e.source = d.source ∧ chatRequest cfg k e = some (t.requests[k], e')) := by
    refine returnsOn_bind (returnsOn_requests hrequest cfg.nRequests) (fun requests hrequests => ?_)
    refine returnsOn_finishTrace.weaken (fun t ht => ?_)
    obtain ⟨rfl, -⟩ := ht
    exact hrequests.2
  intro k hk
  refine ⟨(hrun d t d' rfl h).2 k hk, fun e e' hr => ?_⟩
  exact (chatRequest_sized cfg k e e' _ hr).2

theorem one_request : 0 < 1 := by decide

theorem ten_tokens : (1 : Int) ≤ 10 ∧ (10 : Int) ≤ 10 := by decide

theorem two_turns : (1 : Int) ≤ 2 ∧ (2 : Int) ≤ 2 := by decide

/-- One request of two turns and ten tokens, with a system prompt of two. -/
def smallChat : ChatWorkloadConfig where
  nRequests := 1
  promptTokensRange := (10, 10)
  outputTokensRange := (10, 10)
  nTurnsRange := (2, 2)
  systemPrompt := "Be brief.".toList
  nRequestsPos := one_request
  promptRangeOk := ten_tokens
  outputRangeOk := ten_tokens
  turnsRangeOk := two_turns

theorem small_prompt_sized : ∃ t d', chatGenerate smallChat ⟨Gen.lowest, 0⟩ = some (t, d') ∧
    ∃ hk : 0 < t.requests.length,
      (∃ e e', e.source = Gen.lowest ∧ chatRequest smallChat 0 e = some (t.requests[0], e')) ∧
      ∀ e e', chatRequest smallChat 0 e = some (t.requests[0], e') →
        smallChat.Sized (drawn e e.pos smallChat.nTurnsRange) t.requests[0] := by
  obtain ⟨t, d', ht, hlen, -⟩ := always_chatGenerate smallChat ⟨by decide, by decide⟩ (by decide +kernel)
    (by decide +kernel) ⟨Gen.lowest, 0⟩
  have hk : 0 < t.requests.length := by
    rw [hlen]
    exact one_request
  exact ⟨t, d', ht, hk, chat_prompts_sized smallChat ⟨Gen.lowest, 0⟩ d' t ht 0 hk⟩

end GoodputLab
