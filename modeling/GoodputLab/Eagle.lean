import GoodputLab.Base.Runs
import GoodputLab.Base.SlidingWindow
import GoodputLab.Base.Text
/-!
# Eagle — the draft-verify simulator (`spec/eagle.py`)

`proposeAndVerify` is one round: the accepted drafts, the window and the counters, the automatic disabling, and the
outcome, whose own validation may still raise.  The generator is an arbitrary stream of draws; floats are exact
rationals.
-/
namespace GoodputLab

inductive SpecTopology
  | colocated | chunked | disagg | disaggTier
deriving DecidableEq, Repr

structure SpecPolicy where
  enabled           : Bool
  minAcceptanceRate : ℚ
  minWindow         : Nat
  topology          : SpecTopology
  rateGe            : 0 ≤ minAcceptanceRate
  rateLe            : minAcceptanceRate ≤ 1
  windowPos         : 0 < minWindow

def SpecPolicy.isTopologyCompatible (p : SpecPolicy) : Bool :=
  p.topology = .colocated || p.topology = .chunked

structure VerifyOutcome where
  acceptedTokens : List Text
  proposed       : Int
  accepted       : Int
  proposedGe     : 0 ≤ proposed
  acceptedGe     : 0 ≤ accepted
deriving DecidableEq

namespace VerifyOutcome

def make? (acceptedTokens : List Text) (proposed accepted : Int) : Option VerifyOutcome :=
  if h : 0 ≤ proposed ∧ 0 ≤ accepted then some ⟨acceptedTokens, proposed, accepted, h.1, h.2⟩ else none

def acceptanceRate (o : VerifyOutcome) : ℚ := if o.proposed = 0 then 0 else o.accepted / o.proposed

end VerifyOutcome

structure SpecDecoder where
  policy        : SpecPolicy
  targetRate    : ℚ
  random        : Nat → ℚ
  drawn         : Nat
  window        : List Nat
  totalProposed : Int
  totalAccepted : Nat

/-- What a round gives its caller. -/
inductive Round
  | none
  | outcome (o : VerifyOutcome)
  | validationError
deriving DecidableEq

namespace SpecDecoder

def fresh (policy : SpecPolicy) (acceptanceRate : ℚ) (random : Nat → ℚ) : SpecDecoder :=
  ⟨if policy.isTopologyCompatible then policy else { policy with enabled := false }, acceptanceRate, random, 0, [], 0, 0⟩

def isEnabled (d : SpecDecoder) : Bool := d.policy.enabled

def observedAcceptanceRate (d : SpecDecoder) : ℚ := if d.window = [] then 0 else (d.window.sum : ℚ) / d.window.length

def enable (d : SpecDecoder) : SpecDecoder := { d with policy := { d.policy with enabled := true } }

def disable (d : SpecDecoder) : SpecDecoder := { d with policy := { d.policy with enabled := false } }

/-- The drafts a round of `n` accepts: one draw decides each. -/
def acceptedDrafts (d : SpecDecoder) (n : Nat) : List Text :=
  ((List.range n).filter (fun i => decide (d.random (d.drawn + i) < d.targetRate))).map
    (fun i => "draft-".toList ++ Text.ofNat i)

def proposeAndVerify (d : SpecDecoder) (nDraft : Int) : Round × SpecDecoder :=
  if !d.isEnabled then (.none, d)
  else
    let accepted := d.acceptedDrafts nDraft.toNat
    let perRoundRate : ℚ := if 0 < nDraft then accepted.length / nDraft else 0
    let rateBin := if d.policy.minAcceptanceRate ≤ perRoundRate then 1 else 0
    let d := { d with
      drawn         := d.drawn + nDraft.toNat
      window        := SlidingWindow.slide d.policy.minWindow d.window rateBin
      totalProposed := d.totalProposed + nDraft
      totalAccepted := d.totalAccepted + accepted.length }
    let d := if d.policy.minWindow ≤ d.window.length ∧ d.observedAcceptanceRate < d.policy.minAcceptanceRate then d.disable
      else d
    match VerifyOutcome.make? accepted nDraft accepted.length with
    | some o => (.outcome o, d)
    | none   => (.validationError, d)

inductive Op
  | enable
  | disable
  | proposeAndVerify (nDraft : Int)

def step (d : SpecDecoder) : Op → SpecDecoder
  | .enable             => d.enable
  | .disable            => d.disable
  | .proposeAndVerify n => (d.proposeAndVerify n).2

def after (d : SpecDecoder) (ops : List Op) : SpecDecoder := Runs.run step d ops

/-! ## One round -/

theorem round_disabled (d : SpecDecoder) (n : Int) (h : d.isEnabled = false) : d.proposeAndVerify n = (.none, d) := by
  unfold proposeAndVerify
  rw [h]
  rfl

theorem round_enabled (d : SpecDecoder) (n : Int) (h : d.isEnabled = true) : (d.proposeAndVerify n).1 ≠ .none := by
  unfold proposeAndVerify
  rw [h]
  simp only [Bool.not_true, Bool.false_eq_true, if_false]
  split <;> exact Round.noConfusion

end SpecDecoder
end GoodputLab
