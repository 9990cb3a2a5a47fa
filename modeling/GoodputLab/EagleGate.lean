import GoodputLab.Eagle
/-!
# EagleGate — the topology gate over whole runs

The gate is applied once, at construction; `enable` writes the flag it set.  A decoder of a disaggregated topology
refuses every round of a run exactly when no round comes after an `enable` with no `disable` between them
(`refuses_iff`).
-/
namespace GoodputLab
namespace SpecDecoder

/-- What the calls before a round last did to the flag. -/
def toggle (t : Option Bool) : Op → Option Bool
  | .enable             => some true
  | .disable            => some false
  | .proposeAndVerify _ => t

/-- Every round of the run returns `None`, and nothing is ever counted as proposed. -/
def Refuses (d : SpecDecoder) (ops : List Op) : Prop :=
  (∀ p op q, ops = p ++ op :: q → ∀ n, op = .proposeAndVerify n → ((d.after p).proposeAndVerify n).1 = .none) ∧
    ∀ p q, ops = p ++ q → (d.after p).totalProposed = 0

/-- No round of the run comes while the last toggle is `enable`; `t` is the last toggle before the run. -/
def Gated (t : Option Bool) (ops : List Op) : Prop :=
  ∀ p op q, ops = p ++ op :: q → ∀ n, op = .proposeAndVerify n → p.foldl toggle t ≠ some true

theorem refuses_cons (d : SpecDecoder) (op : Op) (ops : List Op) :
    d.Refuses (op :: ops) ↔ (∀ n, op = .proposeAndVerify n → (d.proposeAndVerify n).1 = .none) ∧
      d.totalProposed = 0 ∧ (d.step op).Refuses ops := by
  unfold Refuses
  rw [Runs.forall_split_cons, Runs.forall_prefix_cons]
  constructor
  · rintro ⟨⟨hfirst, hrest⟩, h0, htotal⟩
    exact ⟨hfirst, h0, hrest, htotal⟩
  · rintro ⟨hfirst, h0, hrest, htotal⟩
    exact ⟨⟨hfirst, hrest⟩, h0, htotal⟩

theorem gated_cons (t : Option Bool) (op : Op) (ops : List Op) :
    Gated t (op :: ops) ↔ (∀ n, op = .proposeAndVerify n → t ≠ some true) ∧ Gated (toggle t op) ops :=
  Runs.forall_split_cons

/-- While every round is refused, the flag is what the calls last made it. -/
theorem refuses_iff_gated : ∀ (ops : List Op) (d : SpecDecoder) (t : Option Bool),
    d.isEnabled = decide (t = some true) → d.totalProposed = 0 → (d.Refuses ops ↔ Gated t ops)
  | [], d, t, _, h0 => by
    constructor
    · intro _ p op q hq
      simp at hq
    · intro _
      refine ⟨fun p op q hq => by simp at hq, fun p q hq => ?_⟩
      obtain ⟨rfl, -⟩ := List.append_eq_nil_iff.1 hq.symm
      exact h0
  | op :: ops, d, t, hflag, h0 => by
    rw [refuses_cons, gated_cons]
    cases op with
    | enable =>
      have ih := refuses_iff_gated ops d.enable (some true) rfl h0
      simp [step, toggle, ih, h0]
    | disable =>
      have ih := refuses_iff_gated ops d.disable (some false) rfl h0
      simp [step, toggle, ih, h0]
    | proposeAndVerify n =>
      by_cases ht : t = some true
      · have hspeaks := round_enabled d n (by rw [hflag, ht]; rfl)
        constructor
        · rintro ⟨hfirst, -⟩
          exact absurd (hfirst n rfl) hspeaks
        · rintro ⟨hfirst, -⟩
          exact absurd ht (hfirst n rfl)
      · have hquiet := round_disabled d n (by rw [hflag, decide_eq_false ht])
        have hstep : d.step (.proposeAndVerify n) = d := congrArg Prod.snd hquiet
        have ih := refuses_iff_gated ops d t hflag h0
        rw [hstep, toggle, ih]
        constructor
        · rintro ⟨-, -, hrest⟩
          exact ⟨fun _ _ => ht, hrest⟩
        · rintro ⟨-, hrest⟩
          refine ⟨fun m hm => ?_, h0, hrest⟩
          cases hm
          rw [hquiet]

/-- **The gate over whole runs.**  A decoder built for a topology that is not compatible refuses every round of a run,
counting nothing, exactly when no round of the run comes after an `enable` with no `disable` between them. -/
theorem refuses_iff (policy : SpecPolicy) (h : policy.isTopologyCompatible = false) (acceptanceRate : ℚ)
    (random : Nat → ℚ) (ops : List Op) :
    (fresh policy acceptanceRate random).Refuses ops ↔ Gated none ops := by
  refine refuses_iff_gated ops _ none ?_ rfl
  simp [isEnabled, fresh, h]

def disaggPolicy : SpecPolicy := ⟨true, 2 / 5, 20, .disagg, by norm_num, by norm_num, by decide⟩

theorem enabled_on_disagg :
    disaggPolicy.topology = .disagg ∧
    (((fresh disaggPolicy (4 / 5) (fun _ => 0)).after [.enable]).proposeAndVerify 5).1 ≠ .none ∧
    ((fresh disaggPolicy (4 / 5) (fun _ => 0)).after [.enable, .proposeAndVerify 5]).totalProposed = 5 ∧
    ¬ (fresh disaggPolicy (4 / 5) (fun _ => 0)).Refuses [.enable, .proposeAndVerify 5] := by
  have hspeaks : (((fresh disaggPolicy (4 / 5) (fun _ => 0)).after [.enable]).proposeAndVerify 5).1 ≠ .none :=
    round_enabled _ 5 rfl
  exact ⟨rfl, hspeaks, by decide +kernel, fun h => hspeaks (h.1 [.enable] _ [] rfl 5 rfl)⟩

theorem disagg_refuses_iff :
    (fresh disaggPolicy (4 / 5) (fun _ => 0)).Refuses [.enable, .disable, .proposeAndVerify 5] ↔
      Gated none [.enable, .disable, .proposeAndVerify 5] :=
  refuses_iff disaggPolicy rfl (4 / 5) (fun _ => 0) _

end SpecDecoder
end GoodputLab
