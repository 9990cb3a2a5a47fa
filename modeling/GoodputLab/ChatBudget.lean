import GoodputLab.CellRunner
import GoodputLab.SynthTextLength
import GoodputLab.WorkloadRuns
/-!
# ChatBudget — what a chat request asks of the server

Building text never raises, so a chat request has exactly the budgets that were drawn for it
(`chatRequest_budget`) and the trace of a chat cell is always built (`buildTrace_chat`).
-/
namespace GoodputLab

open Gen (Always always_pure always_bind always_ofOption always_choice)

/-! ## One request -/

theorem always_chatTurns (perTurn : Int) : ∀ n, Always (chatTurns perTurn n) (fun _ => True)
  | 0 => always_pure trivial
  | n + 1 => by
    unfold chatTurns
    refine always_bind (always_synthParagraph perTurn) (fun turn _ => ?_)
    exact always_bind (always_chatTurns perTurn n) (fun turns _ => always_pure trivial)

def ChatWorkloadConfig.InBounds (cfg : ChatWorkloadConfig) : Prop :=
  cfg.promptTokensRange.2 ≤ 200000 ∧ cfg.outputTokensRange.2 ≤ 16000

/-- The draw at `pos` from an inclusive range. -/
def drawn (d : Draws) (pos : Nat) (range : Int × Int) : Int :=
  range.1 + (d.source pos (range.2 - range.1 + 1).toNat % (range.2 - range.1 + 1).toNat : Nat)

theorem drawn_bounds (d : Draws) (pos : Nat) {range : Int × Int} (h : range.1 ≤ range.2) :
    range.1 ≤ drawn d pos range ∧ drawn d pos range ≤ range.2 := by
  have hlt := Nat.mod_lt (d.source pos (range.2 - range.1 + 1).toNat)
    (show 0 < (range.2 - range.1 + 1).toNat by omega)
  unfold drawn
  omega

/-- **A chat request has the prompt and output budgets drawn for it**: the second and the third draw. -/
theorem chatRequest_budget (cfg : ChatWorkloadConfig) (hb : cfg.InBounds) (i : Nat) (d : Draws) :
    ∃ r d', chatRequest cfg i d = some (r, d') ∧
      (r.promptTokens : Int) = drawn d (d.pos + 1) cfg.promptTokensRange ∧
      (r.outputTokens : Int) = drawn d (d.pos + 2) cfg.outputTokensRange := by
  have hp := drawn_bounds d (d.pos + 1) cfg.promptRangeOk.2
  have ho := drawn_bounds d (d.pos + 2) cfg.outputRangeOk.2
  have hp1 := cfg.promptRangeOk.1
  have ho1 := cfg.outputRangeOk.1
  unfold chatRequest
  rw [Gen.bind_some (Gen.randint_eq cfg.turnsRangeOk.2 d), Gen.bind_some (Gen.randint_eq cfg.promptRangeOk.2 _),
    Gen.bind_some (Gen.randint_eq cfg.outputRangeOk.2 _)]
  obtain ⟨turns, d', ht, -⟩ := always_chatTurns _ _ _
  rw [Gen.bind_some ht]
  obtain ⟨r, hr, hrp, hro⟩ := make?_eq ("chat-".toList ++ Text.zfill 5 i) cfg.sloClass .chat
    (drawn d (d.pos + 1) cfg.promptTokensRange) (drawn d (d.pos + 2) cfg.outputTokensRange) _
    (strip_ne_nil _ (by decide)) ⟨by omega, by have := hb.1; omega⟩ ⟨by omega, by have := hb.2; omega⟩
  exact ⟨r, d', congrArg (Option.map (fun a => (a, d'))) hr, hrp, hro⟩

/-! ## The trace -/

def ChatWorkloadConfig.Within (cfg : ChatWorkloadConfig) (r : RequestSpec) : Prop :=
  (cfg.promptTokensRange.1 ≤ r.promptTokens ∧ (r.promptTokens : Int) ≤ cfg.promptTokensRange.2) ∧
    cfg.outputTokensRange.1 ≤ r.outputTokens ∧ (r.outputTokens : Int) ≤ cfg.outputTokensRange.2

theorem always_chatRequest (cfg : ChatWorkloadConfig) (hb : cfg.InBounds) (i : Nat) :
    Always (chatRequest cfg i) cfg.Within := by
  intro d
  obtain ⟨r, d', hr, hp, ho⟩ := chatRequest_budget cfg hb i d
  refine ⟨r, d', hr, ?_⟩
  rw [ChatWorkloadConfig.Within, hp, ho]
  exact ⟨drawn_bounds d _ cfg.promptRangeOk.2, drawn_bounds d _ cfg.outputRangeOk.2⟩

/-- **A chat trace is always built**, with every request in the configured ranges. -/
theorem always_chatGenerate (cfg : ChatWorkloadConfig) (hb : cfg.InBounds) (hrate : 0 < cfg.ratePerSec)
    (hdur : 0 < cfg.durationS) :
    Always (chatGenerate cfg) (fun t => t.requests.length = cfg.nRequests ∧ ∀ r ∈ t.requests, cfg.Within r) := by
  refine always_bind (always_requestsFrom (always_chatRequest cfg hb) cfg.nRequests 0) (fun requests hreq => ?_)
  refine (always_finishTrace hrate hdur rfl rfl (fun h => by cases h)).weaken (fun t ht => ?_)
  rw [ht]
  exact hreq

theorem chatCellConfig_inBounds (spec : CellSpec) : (chatCellConfig spec).InBounds :=
  ⟨show (2000 : Int) ≤ 200000 by decide, show (500 : Int) ≤ 16000 by decide⟩

theorem buildTrace_eq_chat (source : Int → Nat → Nat → Nat) (spec : CellSpec) (h : spec.mix = .chat) :
    buildTrace source spec =
      (chatGenerate (chatCellConfig spec) ⟨source spec.seed, 0⟩).map
        (fun r => { r.1 with workload := mixToWorkload spec.mix }) := by
  unfold buildTrace
  simp only [h]

/-- **The trace of a chat cell is always built**, its requests in the default ranges. -/
theorem buildTrace_chat (source : Int → Nat → Nat → Nat) (spec : CellSpec) (h : spec.mix = .chat) :
    ∃ t, buildTrace source spec = some t ∧ t.requests.length = spec.nWarmup + spec.nMeasure ∧
      ∀ r ∈ t.requests, (chatCellConfig spec).Within r := by
  have hrate : 0 < (chatCellConfig spec).ratePerSec := by
    have := spec.rateBounds.1
    show (0 : ℚ) < spec.rateRps
    exact_mod_cast this
  have hdur : 0 < (chatCellConfig spec).durationS := lt_of_lt_of_le zero_lt_one (le_max_left _ _)
  obtain ⟨t, d', ht, hlen, hall⟩ := always_chatGenerate (chatCellConfig spec) (chatCellConfig_inBounds spec) hrate hdur
    ⟨source spec.seed, 0⟩
  refine ⟨{ t with workload := mixToWorkload spec.mix }, ?_, hlen, hall⟩
  rw [buildTrace_eq_chat source spec h, ht]
  rfl

/-- **The only request of a one-request chat cell** has the budgets its seed draws second and third. -/
theorem buildTrace_chat_single (source : Int → Nat → Nat → Nat) (spec : CellSpec) (h : spec.mix = .chat)
    (hone : spec.nWarmup + spec.nMeasure = 1) :
    ∃ t r, buildTrace source spec = some t ∧ t.requests = [r] ∧
      (r.promptTokens : Int) = drawn ⟨source spec.seed, 0⟩ 1 (500, 2000) ∧
      (r.outputTokens : Int) = drawn ⟨source spec.seed, 0⟩ 2 (50, 500) := by
  obtain ⟨t, ht, -, -⟩ := buildTrace_chat source spec h
  obtain ⟨r, d', hr, hp, ho⟩ := chatRequest_budget (chatCellConfig spec) (chatCellConfig_inBounds spec) 0
    ⟨source spec.seed, 0⟩
  refine ⟨t, r, ht, ?_, hp, ho⟩
  rw [buildTrace_eq_chat source spec h] at ht
  obtain ⟨⟨t', d''⟩, hgen, rfl⟩ := Option.map_eq_some_iff.1 ht
  obtain ⟨rs, d₁, hrs, hgen⟩ := Gen.bind_inv hgen
  obtain ⟨arrival, d₂, -, hgen⟩ := Gen.bind_inv hgen
  have hreq : rs = [r] := by
    rw [show (chatCellConfig spec).nRequests = 0 + 1 from hone, requestsFrom, Gen.bind_some hr] at hrs
    cases hrs
    rfl
  obtain ⟨tr, htr, he⟩ := Option.map_eq_some_iff.1 hgen
  cases he
  exact (Trace.make?_eq htr).2.2.trans hreq

end GoodputLab
