import GoodputLab.Base.Rounding
import GoodputLab.Trace
/-!
# Arrival — open-loop arrival processes (`loadgen/arrival.py`)

A process reads the inter-arrival draws of its generator one after another.  The ON/OFF process draws until the end of
each ON phase is passed, so its loop has fuel, and `none` is a phase that has not ended yet.
-/
namespace GoodputLab

/-- `random.Random(seed).expovariate(rate)`, draw after draw. -/
abbrev Exponentials := Int → ℚ → Nat → ℚ

namespace PoissonArrival

def sampleFrom (draws : Nat → ℚ) : Nat → Nat → ℚ → List ℚ
  | 0, _, _       => []
  | n + 1, pos, t => (t + draws pos) :: sampleFrom draws n (pos + 1) (t + draws pos)

def sample (draws : Nat → ℚ) (n : Nat) : List ℚ := sampleFrom draws n 0 0

theorem length_sampleFrom (draws : Nat → ℚ) : ∀ (n pos : Nat) (t : ℚ), (sampleFrom draws n pos t).length = n
  | 0, _, _       => rfl
  | n + 1, pos, t => by rw [sampleFrom, List.length_cons, length_sampleFrom draws n]

end PoissonArrival

structure OnOffArrival where
  onDur  : ℚ
  offDur : ℚ
  onPos  : 0 < onDur
  offPos : 0 < offDur

namespace OnOffArrival

/-- The draws within one ON phase: its arrivals, and the position of the next draw. -/
def phase (draws : Nat → ℚ) (onEnd : ℚ) : Nat → Nat → ℚ → Option (List ℚ × Nat)
  | 0, _, _               => none
  | fuel + 1, pos, phaseT =>
    if phaseT < onEnd then
      let next := phaseT + draws pos
      match phase draws onEnd fuel (pos + 1) next with
      | none   => none
      | some r => some (if next < onEnd then next :: r.1 else r.1, r.2)
    else some ([], pos)

def cycle (p : OnOffArrival) : ℚ := p.onDur + p.offDur

theorem cycle_pos (p : OnOffArrival) : 0 < p.cycle := add_pos p.onPos p.offPos

def onEnd (p : OnOffArrival) (durationS cycleStart : ℚ) : ℚ :=
  if durationS < cycleStart + p.onDur then durationS else cycleStart + p.onDur

/-- The cycles from `cycleIdx` on, as many as the safety stop still allows. -/
def cycles (p : OnOffArrival) (draws : Nat → ℚ) (durationS : ℚ) (fuel : Nat) : Nat → Nat → Nat → ℚ → Option (List ℚ)
  | 0, _, _, _                    => some []
  | allowed + 1, cycleIdx, pos, t =>
    if t < durationS then
      let cycleStart := cycleIdx * p.cycle
      match phase draws (p.onEnd durationS cycleStart) fuel pos cycleStart with
      | none   => none
      | some r =>
        match p.cycles draws durationS fuel allowed (cycleIdx + 1) r.2 (cycleStart + p.cycle) with
        | none      => none
        | some rest => some (r.1 ++ rest)
    else some []

def nCycles (p : OnOffArrival) (durationS : ℚ) : Nat := ⌊durationS / p.cycle⌋.toNat + 1

def sample (p : OnOffArrival) (draws : Nat → ℚ) (fuel : Nat) (durationS : ℚ) : Option (List ℚ) :=
  if durationS ≤ 0 then some [] else p.cycles draws durationS fuel (p.nCycles durationS + 2) 0 0 0

end OnOffArrival

structure OpenLoopScheduler where
  trace   : Trace
  offsets : List ℚ

def ArrivalConfig.onOff (arrival : ArrivalConfig) (h : arrival.process = .onOff) : OnOffArrival where
  onDur := arrival.onDurationS.get (arrival.onOffPair h).1
  offDur := arrival.offDurationS.get (arrival.onOffPair h).2
  onPos := of_decide_eq_true (by
    have hpos := arrival.onPos
    rw [← Option.some_get (arrival.onOffPair h).1, Option.all_some] at hpos
    exact hpos)
  offPos := of_decide_eq_true (by
    have hpos := arrival.offPos
    rw [← Option.some_get (arrival.onOffPair h).2, Option.all_some] at hpos
    exact hpos)

namespace OpenLoopScheduler

def sampleOffsets (draws : Nat → ℚ) (fuel : Nat) (trace : Trace) : Option (List ℚ) :=
  match h : trace.arrival.process with
  | .poisson => some (PoissonArrival.sample draws trace.nRequests)
  | .onOff   => (trace.arrival.onOff h).sample draws fuel trace.durationS

theorem sampleOffsets_poisson {trace : Trace} (h : trace.arrival.process = .poisson) (draws : Nat → ℚ) (fuel : Nat) :
    sampleOffsets draws fuel trace = some (PoissonArrival.sample draws trace.nRequests) := by
  unfold sampleOffsets
  split
  · rfl
  · rename_i hon
    cases h.symm.trans hon

theorem sampleOffsets_onOff {trace : Trace} (h : trace.arrival.process = .onOff) (draws : Nat → ℚ) (fuel : Nat) :
    sampleOffsets draws fuel trace = (trace.arrival.onOff h).sample draws fuel trace.durationS := by
  unfold sampleOffsets
  split
  · rename_i hp
    cases h.symm.trans hp
  · rfl

/-- The scheduler of a trace; its process is seeded with the arrival's seed. -/
def make? (draws : Nat → ℚ) (fuel : Nat) (trace : Trace) : Option OpenLoopScheduler :=
  (sampleOffsets draws fuel trace).map (fun offsets => ⟨trace, offsets⟩)

/-- What iterating yields, `t0Ns` being the first clock reading: the requests and their arrival times. -/
def items (s : OpenLoopScheduler) (t0Ns : Int) : List (RequestSpec × Int) :=
  List.zipWith (fun spec offsetS => (spec, t0Ns + truncate (offsetS * 1000000000))) s.trace.requests s.offsets

def nScheduled (s : OpenLoopScheduler) : Nat := min s.offsets.length s.trace.requests.length

theorem length_items (s : OpenLoopScheduler) (t0Ns : Int) : (s.items t0Ns).length = s.nScheduled := by
  rw [items, List.length_zipWith, nScheduled, Nat.min_comm]

theorem items_fst (s : OpenLoopScheduler) (t0Ns : Int) :
    (s.items t0Ns).map Prod.fst = s.trace.requests.take s.nScheduled := by
  rw [items, nScheduled, List.map_zipWith]
  generalize s.trace.requests = requests
  generalize s.offsets = offsets
  induction requests generalizing offsets with
  | nil => simp
  | cons r requests ih =>
    cases offsets with
    | nil => simp
    | cons o offsets => simp [ih, Nat.succ_min_succ]

end OpenLoopScheduler
end GoodputLab
