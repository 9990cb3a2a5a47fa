import GoodputLab.Eagle
/-!
# EagleCounters — the counters against the outcomes returned

A round of a negative number of drafts updates the window and the counters and raises afterwards, when its outcome fails
to validate.  The counters of a run are the sums over the outcomes it returned, and a raise changes nothing, exactly when
no such round meets an enabled decoder (`conserves_iff`).
-/
namespace GoodputLab
namespace SpecDecoder

/-- The outcome an operation returns, if it returns one. -/
def returned (d : SpecDecoder) : Op → List VerifyOutcome
  | .proposeAndVerify n =>
    match (d.proposeAndVerify n).1 with
    | .outcome o => [o]
    | _          => []
  | _ => []

/-- The counters are the sums over the outcomes returned. -/
def Counts (d : SpecDecoder) (os : List VerifyOutcome) : Prop :=
  d.totalProposed = (os.map VerifyOutcome.proposed).sum ∧ (d.totalAccepted : Int) = (os.map VerifyOutcome.accepted).sum ∧
    0 ≤ (d.totalAccepted : Int) ∧ (d.totalAccepted : Int) ≤ d.totalProposed

/-- The window, the totals and the flag of the two are the same. -/
def SameCounters (d d' : SpecDecoder) : Prop :=
  d'.window = d.window ∧ d'.totalProposed = d.totalProposed ∧ d'.totalAccepted = d.totalAccepted ∧
    d'.isEnabled = d.isEnabled

/-- At every point of the run the counters are the sums over the outcomes so far, and a round that raises there changes
none of them. -/
def Conserves (d : SpecDecoder) (ops : List Op) : Prop :=
  (∀ p q, ops = p ++ q → (d.after p).Counts (Runs.log step returned d p)) ∧
    ∀ p op q, ops = p ++ op :: q → ∀ n, op = .proposeAndVerify n →
      ((d.after p).proposeAndVerify n).1 = .validationError →
      SameCounters (d.after p) ((d.after p).proposeAndVerify n).2

/-- No round of a negative number of drafts meets an enabled decoder. -/
def Drafted (d : SpecDecoder) (ops : List Op) : Prop :=
  ∀ p op q, ops = p ++ op :: q → ∀ n, op = .proposeAndVerify n → (d.after p).isEnabled = true → 0 ≤ n

/-! ## One round -/

theorem length_acceptedDrafts_le (d : SpecDecoder) (n : Nat) : (d.acceptedDrafts n).length ≤ n := by
  rw [acceptedDrafts, List.length_map]
  exact (List.length_filter_le _ _).trans List.length_range.le

/-- The automatic disabling leaves the totals. -/
theorem totalProposed_disabledIf (p : Prop) [Decidable p] (d : SpecDecoder) :
    (if p then d.disable else d).totalProposed = d.totalProposed := by
  split <;> rfl

theorem totalAccepted_disabledIf (p : Prop) [Decidable p] (d : SpecDecoder) :
    (if p then d.disable else d).totalAccepted = d.totalAccepted := by
  split <;> rfl

/-- **A round an enabled decoder counts returns what it counts.** -/
theorem round_of_nonneg (d : SpecDecoder) (n : Int) (h : d.isEnabled = true) (hn : 0 ≤ n) :
    ∃ o, (d.proposeAndVerify n).1 = .outcome o ∧ o.proposed = n ∧ o.accepted = (d.acceptedDrafts n.toNat).length ∧
      (d.proposeAndVerify n).2.totalProposed = d.totalProposed + n ∧
      (d.proposeAndVerify n).2.totalAccepted = d.totalAccepted + (d.acceptedDrafts n.toNat).length := by
  have hvalid : 0 ≤ n ∧ 0 ≤ ((d.acceptedDrafts n.toNat).length : Int) := ⟨hn, Int.natCast_nonneg _⟩
  unfold proposeAndVerify
  simp only [h, Bool.not_true, Bool.false_eq_true, if_false, VerifyOutcome.make?, dif_pos hvalid]
  exact ⟨_, rfl, rfl, rfl, totalProposed_disabledIf _ _, totalAccepted_disabledIf _ _⟩

/-- **A round of a negative number of drafts raises, and has counted it.** -/
theorem round_of_neg (d : SpecDecoder) (n : Int) (h : d.isEnabled = true) (hn : n < 0) :
    (d.proposeAndVerify n).1 = .validationError ∧ (d.proposeAndVerify n).2.totalProposed = d.totalProposed + n := by
  have hvalid : ¬ (0 ≤ n ∧ 0 ≤ ((d.acceptedDrafts n.toNat).length : Int)) := fun hv => absurd hv.1 (not_le.2 hn)
  unfold proposeAndVerify
  simp only [h, Bool.not_true, Bool.false_eq_true, if_false, VerifyOutcome.make?, dif_neg hvalid]
  exact ⟨trivial, totalProposed_disabledIf _ _⟩

/-! ## Runs -/

/-- One operation that counts no negative round keeps the sums. -/
theorem counts_step (d : SpecDecoder) (os : List VerifyOutcome) (op : Op) (h : d.Counts os)
    (hop : ∀ n, op = .proposeAndVerify n → d.isEnabled = true → 0 ≤ n) :
    (d.step op).Counts (os ++ d.returned op) := by
  cases op with
  | enable =>
    rw [show d.returned .enable = [] from rfl, List.append_nil]
    exact h
  | disable =>
    rw [show d.returned .disable = [] from rfl, List.append_nil]
    exact h
  | proposeAndVerify n =>
    cases hon : d.isEnabled with
    | false =>
      have hround := round_disabled d n hon
      have hstep : d.step (.proposeAndVerify n) = d := congrArg Prod.snd hround
      have hret : d.returned (.proposeAndVerify n) = [] := by simp [returned, hround]
      rw [hstep, hret, List.append_nil]
      exact h
    | true =>
      obtain ⟨o, hout, hproposed, haccepted, hp, ha⟩ := round_of_nonneg d n hon (hop n rfl hon)
      have hret : d.returned (.proposeAndVerify n) = [o] := by simp [returned, hout]
      obtain ⟨hsum, hsum', -, hle⟩ := h
      have hn := hop n rfl hon
      have hlen := d.length_acceptedDrafts_le n.toNat
      rw [hret, show d.step (.proposeAndVerify n) = (d.proposeAndVerify n).2 from rfl]
      unfold Counts
      simp only [List.map_append, List.map_cons, List.map_nil, List.sum_append, List.sum_singleton, hp, ha, hproposed,
        haccepted, ← hsum, ← hsum', true_and]
      refine ⟨Int.natCast_add _ _, Int.natCast_nonneg _, ?_⟩
      push_cast
      omega

theorem drafted_cons (d : SpecDecoder) (op : Op) (ops : List Op) :
    d.Drafted (op :: ops) ↔ (∀ n, op = .proposeAndVerify n → d.isEnabled = true → 0 ≤ n) ∧ (d.step op).Drafted ops :=
  Runs.forall_split_cons

/-- **Every point of a drafted run has the sums.** -/
theorem counts_of_drafted : ∀ (ops : List Op) (d : SpecDecoder) (os : List VerifyOutcome), d.Drafted ops → d.Counts os →
    (d.after ops).Counts (os ++ Runs.log step returned d ops)
  | [], d, os, _, h => by
    rw [Runs.log, List.append_nil]
    exact h
  | op :: ops, d, os, hdraft, h => by
    obtain ⟨hop, hrest⟩ := (drafted_cons d op ops).1 hdraft
    have hall := counts_of_drafted ops (d.step op) _ hrest (counts_step d os op h hop)
    rwa [List.append_assoc] at hall

theorem drafted_of_append {d : SpecDecoder} {p q : List Op} (h : d.Drafted (p ++ q)) : d.Drafted p :=
  Runs.forall_split_of_append h

/-- **Conservation across failures.**  The counters of a run of a fresh decoder, failed rounds included, are at every point
the sums over the outcomes returned, and a round that raises leaves window, totals and flag alone, if and only if no
round of a negative number of drafts meets the decoder while it is enabled. -/
theorem conserves_iff (policy : SpecPolicy) (acceptanceRate : ℚ) (random : Nat → ℚ) (ops : List Op) :
    (fresh policy acceptanceRate random).Conserves ops ↔ (fresh policy acceptanceRate random).Drafted ops := by
  constructor
  · rintro ⟨-, hraise⟩ p op q hops n hop hon
    by_contra hneg
    obtain ⟨herr, htotal⟩ := round_of_neg _ n hon (not_le.1 hneg)
    have hsame := (hraise p op q hops n hop herr).2.1
    omega
  · intro hdraft
    refine ⟨fun p q hops => ?_, fun p op q hops n hop herr => ?_⟩
    · subst hops
      have h := counts_of_drafted p _ [] (drafted_of_append hdraft) ⟨rfl, rfl, le_refl _, le_refl _⟩
      rwa [List.nil_append] at h
    · cases hon : ((fresh policy acceptanceRate random).after p).isEnabled with
      | false =>
        rw [round_disabled _ n hon] at herr
        cases herr
      | true =>
        obtain ⟨o, hout, -⟩ := round_of_nonneg _ n hon (hdraft p op q hops n hop hon)
        rw [hout] at herr
        cases herr

/-- One round of minus three drafts leaves a total of minus three, no outcome and a bit in the window. -/
theorem negative_round_counts :
    let d := fresh ⟨true, 2 / 5, 20, .colocated, by norm_num, by norm_num, by decide⟩ (4 / 5) (fun _ => 0)
    (d.proposeAndVerify (-3)).1 = .validationError ∧ (d.after [.proposeAndVerify (-3)]).totalProposed = -3 ∧
      (d.after [.proposeAndVerify (-3)]).window = [0] ∧ ¬ d.Conserves [.proposeAndVerify (-3)] := by
  intro d
  have herr : (d.proposeAndVerify (-3)).1 = .validationError := by decide +kernel
  refine ⟨herr, by decide +kernel, by decide +kernel, fun h => ?_⟩
  have hsame := (h.2 [] _ [] rfl (-3) rfl herr).2.1
  exact absurd hsame (by decide +kernel)

end SpecDecoder
end GoodputLab
