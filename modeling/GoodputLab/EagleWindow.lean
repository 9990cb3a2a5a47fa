import GoodputLab.Eagle
/-!
# EagleWindow — the automatic disabling against the measured acceptance rate

The window holds one bit for each round, whether its rate reached the threshold, and not the rate.  A fresh decoder
disables itself at the first full window of those bits whose mean is below the threshold (`rounds_spec`).  It follows the
rates themselves exactly when, until they fall, every round is accepted whole or refused whole, and its bit makes the
window fall when the rates do (`follows_rates_iff`).
-/
namespace GoodputLab
namespace SpecDecoder

open SlidingWindow

/-- The fraction of a round's drafts accepted, its draws starting at `drawn`. -/
def roundRate (targetRate : ℚ) (random : Nat → ℚ) (drawn : Nat) (n : Int) : ℚ :=
  ((List.range n.toNat).filter (fun i => decide (random (drawn + i) < targetRate))).length / n

/-- The rates of the rounds, were none of them skipped. -/
def rates (targetRate : ℚ) (random : Nat → ℚ) : Nat → List Int → List ℚ
  | _, []          => []
  | drawn, n :: ns => roundRate targetRate random drawn n :: rates targetRate random (drawn + n.toNat) ns

def drawsOf (ns : List Int) : Nat := (ns.map Int.toNat).sum

def rateBin (m rate : ℚ) : Nat := if m ≤ rate then 1 else 0

def rounds (d : SpecDecoder) (ns : List Int) : SpecDecoder := d.after (ns.map Op.proposeAndVerify)

theorem rates_concat (targetRate : ℚ) (random : Nat → ℚ) (n : Int) : ∀ (drawn : Nat) (ns : List Int),
    rates targetRate random drawn (ns ++ [n]) =
      rates targetRate random drawn ns ++ [roundRate targetRate random (drawn + drawsOf ns) n]
  | drawn, [] => rfl
  | drawn, x :: ns => by
    have hsum : drawsOf (x :: ns) = x.toNat + drawsOf ns := by simp [drawsOf]
    rw [List.cons_append, rates, rates, rates_concat targetRate random n _ ns, hsum, Nat.add_assoc]
    rfl

theorem rates_length (targetRate : ℚ) (random : Nat → ℚ) : ∀ (drawn : Nat) (ns : List Int),
    (rates targetRate random drawn ns).length = ns.length
  | _, [] => rfl
  | drawn, n :: ns => by
    rw [rates, List.length_cons, List.length_cons, rates_length targetRate random _ ns]

theorem rates_take (targetRate : ℚ) (random : Nat → ℚ) : ∀ (drawn k : Nat) (ns : List Int),
    rates targetRate random drawn (ns.take k) = (rates targetRate random drawn ns).take k
  | _, 0, _ => by simp [rates]
  | _, k + 1, [] => by simp [rates]
  | drawn, k + 1, n :: ns => by
    rw [List.take_succ_cons, rates, rates, List.take_succ_cons, rates_take targetRate random _ k ns]

theorem rounds_concat (d : SpecDecoder) (ns : List Int) (n : Int) :
    d.rounds (ns ++ [n]) = ((d.rounds ns).proposeAndVerify n).2 := by
  unfold rounds after Runs.run
  rw [List.map_append, List.foldl_append]
  rfl

theorem mean_cast (w : List Nat) : mean (w.map (Nat.cast : Nat → ℚ)) = if w = [] then 0 else (w.sum : ℚ) / w.length := by
  unfold mean
  rw [List.length_map]
  cases w with
  | nil => rfl
  | cons x w => simp

theorem observed_eq (d : SpecDecoder) : d.observedAcceptanceRate = mean (d.window.map (Nat.cast : Nat → ℚ)) :=
  (mean_cast d.window).symm

/-! ## What the code does -/

/-- The decoder after a round, before the automatic disabling. -/
def counted (d : SpecDecoder) (n : Int) : SpecDecoder :=
  { d with
    drawn         := d.drawn + n.toNat
    window        := slide d.policy.minWindow d.window
      (rateBin d.policy.minAcceptanceRate (roundRate d.targetRate d.random d.drawn n))
    totalProposed := d.totalProposed + n
    totalAccepted := d.totalAccepted + (d.acceptedDrafts n.toNat).length }

theorem round_eq (d : SpecDecoder) (n : Int) (h : d.isEnabled = true) (hn : 1 ≤ n) :
    (d.proposeAndVerify n).2 =
      if d.policy.minWindow ≤ (d.counted n).window.length ∧
        (d.counted n).observedAcceptanceRate < d.policy.minAcceptanceRate then (d.counted n).disable
      else d.counted n := by
  have hrate : ((d.acceptedDrafts n.toNat).length : ℚ) / n = roundRate d.targetRate d.random d.drawn n := by
    rw [acceptedDrafts, List.length_map, roundRate]
  unfold proposeAndVerify
  simp only [h, Bool.not_true, Bool.false_eq_true, if_false, if_pos (show 0 < n by omega), hrate]
  split <;> rfl

/-- What stays of a decoder's configuration through rounds. -/
def SameConfig (d d' : SpecDecoder) : Prop :=
  d'.policy.minWindow = d.policy.minWindow ∧ d'.policy.minAcceptanceRate = d.policy.minAcceptanceRate ∧
    d'.targetRate = d.targetRate ∧ d'.random = d.random

/-- **What a round leaves of an enabled decoder**: its bit in the window, its draws consumed, and the flag cleared when
the window is full with a mean below the threshold. -/
theorem round_spec (d : SpecDecoder) (n : Int) (h : d.isEnabled = true) (hn : 1 ≤ n) :
    let d' := (d.proposeAndVerify n).2
    d'.window = (d.counted n).window ∧ d'.drawn = d.drawn + n.toNat ∧ d.SameConfig d' ∧
      (d'.isEnabled = false ↔ d.policy.minWindow ≤ (d.counted n).window.length ∧
        mean ((d.counted n).window.map (Nat.cast : Nat → ℚ)) < d.policy.minAcceptanceRate) := by
  intro d'
  have hd : d' = _ := round_eq d n h hn
  rw [← observed_eq]
  by_cases hlow : d.policy.minWindow ≤ (d.counted n).window.length ∧
      (d.counted n).observedAcceptanceRate < d.policy.minAcceptanceRate
  · rw [if_pos hlow] at hd
    rw [hd]
    exact ⟨rfl, rfl, ⟨rfl, rfl, rfl, rfl⟩, fun _ => hlow, fun _ => rfl⟩
  · rw [if_neg hlow] at hd
    rw [hd]
    refine ⟨rfl, rfl, ⟨rfl, rfl, rfl, rfl⟩, fun hoff => ?_, fun hlow' => absurd hlow' hlow⟩
    have hon : (d.counted n).isEnabled = true := h
    rw [hon] at hoff
    cases hoff

theorem rounds_config (d : SpecDecoder) (ns : List Int) (hns : ∀ n ∈ ns, 1 ≤ n) : d.SameConfig (d.rounds ns) := by
  refine Runs.run_invariant (fun x : SpecDecoder => d.SameConfig x) _ d (fun x op hop hx => ?_) ⟨rfl, rfl, rfl, rfl⟩
  obtain ⟨n, hn, rfl⟩ := List.mem_map.1 hop
  obtain ⟨hw, hm, ht, hr⟩ := hx
  cases hon : x.isEnabled with
  | false =>
    rw [step, round_disabled x n hon]
    exact ⟨hw, hm, ht, hr⟩
  | true =>
    obtain ⟨-, -, ⟨hw', hm', ht', hr'⟩, -⟩ := round_spec x n hon (hns n hn)
    exact ⟨hw'.trans hw, hm'.trans hm, ht'.trans ht, hr'.trans hr⟩

/-- The bits of the rounds, as the window stores them. -/
def bins (m : ℚ) (l : List ℚ) : List Nat := l.map (rateBin m)

def castBins (m : ℚ) (l : List ℚ) : List ℚ := (bins m l).map (Nat.cast : Nat → ℚ)

theorem bins_concat (m : ℚ) (l : List ℚ) (r : ℚ) : bins m (l ++ [r]) = bins m l ++ [rateBin m r] := by
  simp [bins]

theorem castBins_concat (m : ℚ) (l : List ℚ) (r : ℚ) :
    castBins m (l ++ [r]) = castBins m l ++ [(rateBin m r : ℚ)] := by
  simp [castBins, bins]

theorem castBins_length (m : ℚ) (l : List ℚ) : (castBins m l).length = l.length := by
  simp [castBins, bins]

/-- A round of an enabled decoder whose window holds the last bits of the rounds `l`. -/
theorem round_bins (d : SpecDecoder) (n : Int) (l : List ℚ) (h : d.isEnabled = true) (hn : 1 ≤ n)
    (hw : d.window = (bins d.policy.minAcceptanceRate l).rtake d.policy.minWindow) :
    let d' := (d.proposeAndVerify n).2
    let l' := l ++ [roundRate d.targetRate d.random d.drawn n]
    d'.window = (bins d.policy.minAcceptanceRate l').rtake d.policy.minWindow ∧
      (d'.isEnabled = false ↔ d.policy.minWindow ≤ l.length + 1 ∧
        mean ((castBins d.policy.minAcceptanceRate l').rtake d.policy.minWindow) < d.policy.minAcceptanceRate) := by
  intro d' l'
  obtain ⟨hwindow, -, -, hoff⟩ := round_spec d n h hn
  have hslid : (d.counted n).window = (bins d.policy.minAcceptanceRate l').rtake d.policy.minWindow := by
    show slide d.policy.minWindow d.window _ = _
    rw [hw, slide_rtake, bins_concat]
  have hlen : (bins d.policy.minAcceptanceRate l').length = l.length + 1 := by
    simp [bins, l']
  rw [hslid, map_rtake, length_rtake, hlen] at hoff
  refine ⟨hwindow.trans hslid, hoff.trans (and_congr_left' ?_)⟩
  rw [le_min_iff]
  exact and_iff_right (le_refl _)

/-- **What a run of rounds leaves of a fresh enabled decoder**: while no full window of bits has a mean below the
threshold, the flag and the last bits; afterwards the flag is clear. -/
theorem rounds_spec (policy : SpecPolicy) (targetRate : ℚ) (random : Nat → ℚ)
    (hc : policy.isTopologyCompatible = true) (he : policy.enabled = true) (ns : List Int) (hns : ∀ n ∈ ns, 1 ≤ n) :
    let d := (fresh policy targetRate random).rounds ns
    let l := rates targetRate random 0 ns
    (d.isEnabled = true ↔ ¬ Falls policy.minWindow policy.minAcceptanceRate (castBins policy.minAcceptanceRate l)
      (castBins policy.minAcceptanceRate l).length) ∧
    (d.isEnabled = true → d.window = (bins policy.minAcceptanceRate l).rtake policy.minWindow ∧ d.drawn = drawsOf ns) := by
  induction ns using List.reverseRecOn with
  | nil =>
    have hon : (fresh policy targetRate random).isEnabled = true := by
      unfold isEnabled fresh
      rw [if_pos hc]
      exact he
    refine ⟨⟨fun _ => ?_, fun _ => hon⟩, fun _ => ⟨?_, rfl⟩⟩
    · rintro ⟨r, hr, hr0, -⟩
      have hpos := policy.windowPos
      have h0 : r ≤ 0 := hr0
      omega
    · simp [rounds, after, fresh, bins, rates]
  | append_singleton ns n ih =>
    obtain ⟨ihflag, ihwindow⟩ := ih (fun x hx => hns x (List.mem_append_left _ hx))
    have hn : 1 ≤ n := hns n (List.mem_append_right _ List.mem_cons_self)
    obtain ⟨hw, hm, ht, hr⟩ := rounds_config (fresh policy targetRate random) ns
      (fun x hx => hns x (List.mem_append_left _ hx))
    have hpolicy : (fresh policy targetRate random).policy = policy := if_pos hc
    rw [hpolicy] at hw hm
    simp only [rounds_concat, rates_concat, castBins_concat, bins_concat, Nat.zero_add, falls_concat]
    set d := (fresh policy targetRate random).rounds ns with hd
    set l := rates targetRate random 0 ns with hl
    cases hon : d.isEnabled with
    | false =>
      rw [hon] at ihflag
      rw [round_disabled d n hon, hon]
      refine ⟨⟨fun hoff => (by cases hoff), fun hno => ?_⟩, fun hoff => (by cases hoff)⟩
      by_contra _
      exact hno (Or.inl (by simpa using ihflag))
    | true =>
      have hno := ihflag.1 hon
      obtain ⟨hwin, hdrawn⟩ := ihwindow hon
      obtain ⟨-, hdraws, -, -⟩ := round_spec d n hon hn
      obtain ⟨hwindow, hoff⟩ := round_bins d n l hon hn (by rw [hw, hm]; exact hwin)
      rw [hw, hm, ht, hr, hdrawn] at hwindow hoff
      rw [castBins_length]
      refine ⟨?_, fun _ => ⟨?_, ?_⟩⟩
      · rw [← Bool.not_eq_false, hoff, castBins_concat]
        refine not_congr ⟨Or.inr, fun hfalls => hfalls.resolve_left ?_⟩
        rwa [castBins_length] at hno
      · rw [hwindow, bins_concat]
        rfl
      · rw [hdraws, hdrawn]
        simp [drawsOf]

/-! ## Against the rates -/

/-- **The window of a run against the measured rates**: at every point of it the decoder is disabled exactly when some
full window of rates had a mean below the threshold, and until then observes the mean of the rates in the window. -/
def FollowsRates (policy : SpecPolicy) (targetRate : ℚ) (random : Nat → ℚ) (ns : List Int) : Prop :=
  let l := rates targetRate random 0 ns
  ∀ k ≤ ns.length,
    let d := (fresh policy targetRate random).rounds (ns.take k)
    (d.isEnabled = false ↔ Falls policy.minWindow policy.minAcceptanceRate l k) ∧
    (¬ Falls policy.minWindow policy.minAcceptanceRate l k →
      d.observedAcceptanceRate = mean ((l.take k).rtake policy.minWindow))

/-- Until the rates fall every round is accepted whole, or refused whole under a positive threshold; and the round at
which they fall has a bit that, after the rates before it, makes the window fall too. -/
def WholeRounds (n : Nat) (m : ℚ) (l : List ℚ) : Prop :=
  ∀ k (hk : k < l.length), ¬ Falls n m l k →
    (¬ Falls n m l (k + 1) → l[k] = 1 ∨ (l[k] = 0 ∧ 0 < m)) ∧
    (Falls n m l (k + 1) → mean ((l.take k).rtake (n - 1) ++ [(rateBin m l[k] : ℚ)]) < m)

theorem rateBin_eq_self {m rate : ℚ} (hm : m ≤ 1) : (rateBin m rate : ℚ) = rate ↔ rate = 1 ∨ (rate = 0 ∧ 0 < m) := by
  unfold rateBin
  split
  · rename_i hle
    constructor
    · intro h
      exact Or.inl (by simpa using h.symm)
    · rintro (h | ⟨h0, hpos⟩)
      · simp [h]
      · linarith
  · rename_i hlt
    constructor
    · intro h
      have h0 : rate = 0 := by simpa using h.symm
      exact Or.inr ⟨h0, by rw [← h0]; exact not_le.1 hlt⟩
    · rintro (h | ⟨h0, -⟩)
      · rw [h] at hlt
        exact absurd hm hlt
      · simp [h0]

/-- **The automatic disabling follows the measured acceptance rate exactly on runs of whole rounds.** -/
theorem follows_rates_iff (policy : SpecPolicy) (targetRate : ℚ) (random : Nat → ℚ)
    (hc : policy.isTopologyCompatible = true) (he : policy.enabled = true) (ns : List Int) (hns : ∀ n ∈ ns, 1 ≤ n) :
    FollowsRates policy targetRate random ns ↔
      WholeRounds policy.minWindow policy.minAcceptanceRate (rates targetRate random 0 ns) := by
  set l := rates targetRate random 0 ns with hl
  set m := policy.minAcceptanceRate with hm
  have hlen : l.length = ns.length := rates_length targetRate random 0 ns
  have hbins : (castBins m l).length = l.length := by simp [castBins, bins]
  have hcode : ∀ k ≤ ns.length,
      let d := (fresh policy targetRate random).rounds (ns.take k)
      (d.isEnabled = true ↔ ¬ Falls policy.minWindow m (castBins m l) k) ∧
      (d.isEnabled = true → d.observedAcceptanceRate = mean (((castBins m l).take k).rtake policy.minWindow)) := by
    intro k hk
    obtain ⟨hflag, hwindow⟩ := rounds_spec policy targetRate random hc he (ns.take k)
      (fun n hn => hns n (List.mem_of_mem_take hn))
    have htake : castBins m (l.take k) = (castBins m l).take k := by simp [castBins, bins, List.map_take]
    have hk' : ((castBins m l).take k).length = k := by
      rw [List.length_take, hbins, hlen, min_eq_left hk]
    rw [rates_take, ← hl, htake, hk', falls_take] at hflag
    refine ⟨hflag, fun hon => ?_⟩
    rw [observed_eq, (hwindow hon).1, map_rtake, rates_take, ← hl, ← htake]
    rfl
  have hbin : ∀ k (hk : k < l.length) (hk' : k < (castBins m l).length), (castBins m l)[k] = (rateBin m l[k] : ℚ) := by
    intro k hk hk'
    simp [castBins, bins]
  have hsame := same_falls_iff policy.windowPos m l (castBins m l) hbins
  have hfollows : FollowsRates policy targetRate random ns ↔
      ∀ k ≤ l.length, (Falls policy.minWindow m (castBins m l) k ↔ Falls policy.minWindow m l k) ∧
        (¬ Falls policy.minWindow m l k →
          mean (((castBins m l).take k).rtake policy.minWindow) = mean ((l.take k).rtake policy.minWindow)) := by
    unfold FollowsRates
    rw [hlen]
    refine forall_congr' (fun k => forall_congr' (fun hk => ?_))
    obtain ⟨hflag, hobserved⟩ := hcode k hk
    simp only
    rw [← Bool.not_eq_true, hflag, not_not]
    refine and_congr_right (fun hagree => forall_congr' (fun hno => ?_))
    rw [hobserved (hflag.2 (fun hf => hno (hagree.1 hf)))]
  rw [hfollows, hsame, WholeRounds]
  refine forall_congr' (fun k => forall_congr' (fun hk => forall_congr' (fun _ => ?_)))
  rw [hbin k hk (by rw [hbins]; exact hk), rateBin_eq_self policy.rateLe]

/-- A threshold of one half over windows of two rounds. -/
def halfPolicy : SpecPolicy := ⟨true, 1 / 2, 2, .colocated, by norm_num, by norm_num, by decide⟩

/-- Draws that accept the first draft of a round of two, and the first of a round of four. -/
def firstOfEach (i : Nat) : ℚ := if i = 0 ∨ i = 2 then 0 else 1

/-- Rates of 1/2 and 1/4 have a mean below the threshold of 1/2; the bits 1 and 0 do not. -/
theorem half_then_quarter_stays_enabled :
    halfPolicy.isTopologyCompatible = true ∧
    rates (1 / 2) firstOfEach 0 [2, 4] = [1 / 2, 1 / 4] ∧
    ((fresh halfPolicy (1 / 2) firstOfEach).rounds [2, 4]).isEnabled = true ∧
    ((fresh halfPolicy (1 / 2) firstOfEach).rounds [2]).observedAcceptanceRate = 1 ∧
    ¬ FollowsRates halfPolicy (1 / 2) firstOfEach [2, 4] := by
  have hrates : rates (1 / 2) firstOfEach 0 [2, 4] = [1 / 2, 1 / 4] := by decide +kernel
  have hon : ((fresh halfPolicy (1 / 2) firstOfEach).rounds [2, 4]).isEnabled = true := by decide +kernel
  refine ⟨rfl, hrates, hon, by decide +kernel, fun hfollows => ?_⟩
  have hfalls : Falls 2 (1 / 2 : ℚ) (rates (1 / 2) firstOfEach 0 [2, 4]) 2 := by
    rw [hrates]
    exact ⟨2, le_refl _, le_refl _, by simp, by decide +kernel⟩
  have hoff := (hfollows 2 (by simp)).1.2 hfalls
  rw [List.take_of_length_le (by simp), hon] at hoff
  cases hoff

theorem half_then_quarter_follows_iff :
    FollowsRates halfPolicy (1 / 2) firstOfEach [2, 4] ↔ WholeRounds 2 (1 / 2) (rates (1 / 2) firstOfEach 0 [2, 4]) :=
  follows_rates_iff halfPolicy (1 / 2) firstOfEach rfl rfl [2, 4] (by decide)

end SpecDecoder
end GoodputLab
