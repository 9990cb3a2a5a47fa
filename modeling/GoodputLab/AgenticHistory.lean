import GoodputLab.WorkloadsComplete
/-!
# AgenticHistory — a history that outgrows its configured range

`history_tokens_range` is configured and never read: the history has four tokens and an observation for each request
before it, however many there are.  `history_kept_iff` says for which configurations it stays in the range all the same.
-/
namespace GoodputLab

open Gen (Always)

/-- What a prompt has between its frame and its question. -/
def historyBlock (cfg : AgenticWorkloadConfig) (prompt : Text) : Text :=
  (prompt.drop (agenticFrame cfg).length).take (prompt.length - (agenticFrame cfg).length - agenticQuestion.length)

theorem historyBlock_agenticPrompt (cfg : AgenticWorkloadConfig) (blocks : List Text) :
    historyBlock cfg (agenticPrompt cfg blocks) = Text.join ['\n'] blocks := by
  rw [historyBlock, agenticPrompt_eq, List.drop_left, List.length_append, List.length_append, Nat.add_sub_cancel_left,
    Nat.add_sub_cancel, List.take_left]

/-- As many requests as configured, none with a history above the configured range. -/
def HistoryKept (cfg : AgenticWorkloadConfig) (t : Trace) : Prop :=
  t.requests.length = cfg.nRequests ∧
    ∀ r ∈ t.requests, (synthTokenCount (historyBlock cfg r.promptText) : Int) ≤ cfg.historyTokensRange.2

theorem AgenticAt.history {cfg : AgenticWorkloadConfig} {i : Nat} {blocks : List Text} {r : RequestSpec}
    (h : AgenticAt cfg i blocks r) : synthTokenCount (historyBlock cfg r.promptText) = historyTokens blocks := by
  rw [h.promptText, historyBlock_agenticPrompt, history_count]

/-- **The history stays in its range on every stream** exactly when all the requests together, with the longest
observations, stay in it. -/
theorem history_kept_iff (cfg : AgenticWorkloadConfig) : Always (agenticGenerate cfg) (HistoryKept cfg) ↔
    cfg.Generates ∧ (cfg.nRequests * (4 + cfg.observationTokensRange.2.toNat) : Nat) ≤ cfg.historyTokensRange.2 := by
  constructor
  · intro h
    refine ⟨agentic_generates (h.weaken (fun _ _ => trivial)), ?_⟩
    obtain ⟨t, d', ht, -, hkept⟩ := h ⟨Gen.highest, 0⟩
    obtain ⟨-, -, -, hk, blocks, hlast, hhistory⟩ := highest_history rfl ht
    have hle := hkept _ (List.getElem_mem hk)
    rwa [hlast.history, hhistory] at hle
  · rintro ⟨hg, hrange⟩
    refine ((always_agenticGenerate cfg hg).and_returns (returns_agenticGenerate cfg)).weaken (fun t ht => ?_)
    obtain ⟨-, hlen, blocks, hdrawn⟩ := ht
    refine ⟨hlen, fun r hr => ?_⟩
    obtain ⟨k, hk, rfl⟩ := List.getElem_of_mem hr
    have hplace := hdrawn.places k hk
    rw [List.nil_append] at hplace
    have hblocks : historyTokens (blocks.take (k + 1)) ≤
        (blocks.take (k + 1)).length * (4 + cfg.observationTokensRange.2.toNat) := by
      apply historyTokens_le
      intro b hb
      obtain ⟨v, hv, hcount⟩ := hdrawn.sizes b (List.mem_of_mem_take hb)
      omega
    have hmany : (blocks.take (k + 1)).length ≤ cfg.nRequests := by
      rw [List.length_take, hdrawn.length, hlen]
      exact min_le_right _ _
    have hall := hblocks.trans (Nat.mul_le_mul_right _ hmany)
    rw [hplace.history]
    exact (Int.ofNat_le.2 hall).trans hrange

theorem many_requests : 0 < 75 := by decide

/-- Seventy-five requests of the default sizes. -/
def longTrace : AgenticWorkloadConfig where
  nRequests := 75
  nRequestsPos := many_requests
  onOffPos := default_phases

/-- The default range is outgrown on every stream. -/
theorem history_outgrows_range :
    ¬ Always (agenticGenerate longTrace) (HistoryKept longTrace) ∧
    Always (agenticGenerate longTrace) (fun t => ∃ r ∈ t.requests,
      longTrace.historyTokensRange.2 < (synthTokenCount (historyBlock longTrace r.promptText) : Int)) := by
  have hg : longTrace.Generates := by
    refine ⟨by decide, by decide, ?_, by decide +kernel, by decide +kernel⟩
    decide +kernel
  have hover : Always (agenticGenerate longTrace) (fun t => ∃ r ∈ t.requests,
      longTrace.historyTokensRange.2 < (synthTokenCount (historyBlock longTrace r.promptText) : Int)) := by
    refine ((always_agenticGenerate longTrace hg).and_returns (returns_agenticGenerate longTrace)).weaken (fun t ht => ?_)
    obtain ⟨-, hlen, blocks, hdrawn⟩ := ht
    have hk : 74 < t.requests.length := by
      rw [hlen]
      decide
    have hlast := hdrawn.places 74 hk
    have hcount : blocks.length = 75 := hdrawn.length.trans hlen
    rw [List.nil_append, List.take_of_length_le hcount.le] at hlast
    have hlong : blocks.length * 54 ≤ historyTokens blocks := by
      apply le_historyTokens
      intro b hb
      obtain ⟨v, hv, hsize⟩ := hdrawn.sizes b hb
      have hlow : (50 : Int) ≤ v := hv.1
      omega
    refine ⟨t.requests[74], List.getElem_mem hk, ?_⟩
    rw [hlast.history]
    show (4000 : Int) < _
    omega
  refine ⟨fun hall => ?_, hover⟩
  obtain ⟨t, d', ht, -, hkept⟩ := hall ⟨Gen.lowest, 0⟩
  obtain ⟨r, hr, hlt⟩ := hover.returns ⟨Gen.lowest, 0⟩ t d' ht
  exact absurd (hkept r hr) (not_le.2 hlt)

end GoodputLab
