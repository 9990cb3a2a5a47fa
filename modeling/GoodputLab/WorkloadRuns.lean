import GoodputLab.Base.Words
import GoodputLab.Workloads
/-!
# WorkloadRuns — how every generator runs

Requests one after another, each with what its program returns (`always_requestsFrom`, `returns_requestsFrom`,
`returnsOn_requestsFrom`), then the arrival process and the trace, which raise on a rate or a duration that is not
positive (`finishTrace_eq`, `always_finishTrace`).  Requests numbered by their place make a complete trace
(`complete_of_numbered`).
-/
namespace GoodputLab

open Gen (Always Returns ReturnsOn always_pure always_bind always_ofOption returns_pure returns_bind returnsOn_pure
  returnsOn_bind)

variable {source : Nat → Nat → Nat}

/-! ## Requests one after another -/

theorem always_requestsFrom {request : Nat → Gen RequestSpec} {P : RequestSpec → Prop}
    (h : ∀ i, Always (request i) P) : ∀ n i, Always (requestsFrom request n i) (fun rs => rs.length = n ∧ ∀ r ∈ rs, P r)
  | 0, _ => always_pure ⟨rfl, fun r hr => (by cases hr)⟩
  | n + 1, i => by
    unfold requestsFrom
    refine always_bind (h i) (fun r hr => ?_)
    refine always_bind (always_requestsFrom h n (i + 1)) (fun rs hrs => ?_)
    refine always_pure ⟨by rw [List.length_cons, hrs.1], ?_⟩
    intro x hx
    rcases List.mem_cons.1 hx with rfl | hx
    · exact hr
    · exact hrs.2 x hx

theorem returns_requestsFrom {request : Nat → Gen RequestSpec} {P : RequestSpec → Prop}
    (h : ∀ i, Returns (request i) P) : ∀ n i,
      Returns (requestsFrom request n i) (fun rs => rs.length = n ∧ ∀ r ∈ rs, P r)
  | 0, _ => returns_pure ⟨rfl, fun r hr => by cases hr⟩
  | n + 1, i => by
    unfold requestsFrom
    refine returns_bind (h i) (fun r hr => ?_)
    refine returns_bind (returns_requestsFrom h n (i + 1)) (fun rs hrs => returns_pure ⟨?_, fun x hx => ?_⟩)
    · rw [List.length_cons, hrs.1]
    · rcases List.mem_cons.1 hx with rfl | hx
      · exact hr
      · exact hrs.2 x hx

/-- **The request at each place is what its program returned there.** -/
theorem returnsOn_requestsFrom {request : Nat → Gen RequestSpec} {P : Nat → RequestSpec → Prop}
    (h : ∀ i, ReturnsOn source (request i) (P i)) : ∀ n i, ReturnsOn source (requestsFrom request n i)
      (fun rs => rs.length = n ∧ ∀ k (hk : k < rs.length), P (i + k) rs[k])
  | 0, i => returnsOn_pure ⟨rfl, fun k hk => by cases hk⟩
  | n + 1, i => by
    unfold requestsFrom
    refine returnsOn_bind (h i) (fun r hr => ?_)
    refine returnsOn_bind (returnsOn_requestsFrom h n (i + 1)) (fun rs hrs => returnsOn_pure ⟨?_, fun k hk => ?_⟩)
    · rw [List.length_cons, hrs.1]
    · cases k with
      | zero => exact hr
      | succ k =>
        have hplace := hrs.2 k (Nat.lt_of_succ_lt_succ hk)
        rw [Nat.add_right_comm] at hplace
        exact hplace

theorem returnsOn_requests {request : Nat → Gen RequestSpec} {P : Nat → RequestSpec → Prop}
    (h : ∀ i, ReturnsOn source (request i) (P i)) (n : Nat) : ReturnsOn source (requestsFrom request n 0)
      (fun rs => rs.length = n ∧ ∀ k (hk : k < rs.length), P k rs[k]) := by
  refine (returnsOn_requestsFrom h n 0).weaken (fun rs hrs => ?_)
  simp only [Nat.zero_add] at hrs
  exact hrs

/-! ## Complete traces -/

/-- `n` requests of distinct identifiers, within the bounds of `RequestSpec`. -/
structure Complete (n : Nat) (t : Trace) : Prop where
  length   : t.requests.length = n
  distinct : (t.requests.map RequestSpec.requestId).Nodup
  bounds   : ∀ r ∈ t.requests, r.requestId.strip ≠ [] ∧ (1 ≤ r.promptTokens ∧ r.promptTokens ≤ 200000) ∧
    1 ≤ r.outputTokens ∧ r.outputTokens ≤ 16000

/-- Requests numbered by their place have distinct identifiers. -/
theorem complete_of_numbered {n : Nat} {t : Trace} {label : Text} (hlen : t.requests.length = n)
    (h : ∀ k (hk : k < t.requests.length), t.requests[k].requestId = label ++ Text.zfill 5 k) : Complete n t := by
  refine ⟨hlen, ?_, fun r _ => ⟨r.idNonempty, r.promptBounds, r.outputBounds⟩⟩
  have hids : t.requests.map RequestSpec.requestId =
      (List.range t.requests.length).map (fun k => label ++ Text.zfill 5 k) := by
    apply List.ext_getElem
    · simp
    · intro k hk hk'
      rw [List.getElem_map, List.getElem_map, List.getElem_range]
      exact h k (by simpa using hk)
  rw [hids]
  exact List.nodup_range.map (fun j k hjk => Text.zfill_injective 5 (List.append_cancel_left hjk))

/-! ## The arrival process and the trace -/

/-- How every generator ends. -/
def finishTrace (workload : WorkloadType) (process : ArrivalProcess) (ratePerSec durationS : ℚ) (seed : Int)
    (onDurationS offDurationS : Option ℚ) (requests : List RequestSpec) : Gen Trace := do
  let arrival ← Gen.ofOption (ArrivalConfig.make? process ratePerSec seed onDurationS offDurationS)
  Gen.ofOption (Trace.make? workload seed durationS arrival requests)

section FinishTrace

variable {workload : WorkloadType} {process : ArrivalProcess} {ratePerSec durationS : ℚ} {seed : Int}
  {onDurationS offDurationS : Option ℚ} {requests : List RequestSpec}

/-- **What the end of a generator returned**: the requests, the duration and the arrival process it was given. -/
theorem finishTrace_eq {d d' : Draws} {t : Trace}
    (h : finishTrace workload process ratePerSec durationS seed onDurationS offDurationS requests d = some (t, d')) :
    d' = d ∧ t.requests = requests ∧ t.durationS = durationS ∧ t.arrival.process = process ∧
      t.arrival.ratePerSec = ratePerSec ∧ t.arrival.seed = seed ∧ t.arrival.onDurationS = onDurationS ∧
      t.arrival.offDurationS = offDurationS := by
  obtain ⟨arrival, d₁, harrival, h⟩ := Gen.bind_inv h
  obtain ⟨a, ha, he⟩ := Option.map_eq_some_iff.1 harrival
  obtain ⟨u, hu, hf⟩ := Option.map_eq_some_iff.1 h
  cases he
  cases hf
  obtain ⟨hdur, rfl, hreq⟩ := Trace.make?_eq hu
  exact ⟨rfl, hreq, hdur, ArrivalConfig.make?_eq ha⟩

theorem returnsOn_finishTrace :
    ReturnsOn source (finishTrace workload process ratePerSec durationS seed onDurationS offDurationS requests)
      (fun t => t.requests = requests ∧ 0 < ratePerSec ∧ 0 < durationS) := by
  intro d t d' hd ht
  obtain ⟨rfl, hreq, rfl, -, rfl, -⟩ := finishTrace_eq ht
  exact ⟨hd, hreq, t.arrival.ratePos, t.durationPos⟩

theorem always_finishTrace (hrate : 0 < ratePerSec) (hdur : 0 < durationS)
    (hon : onDurationS.all (fun x => decide (0 < x)) = true) (hoff : offDurationS.all (fun x => decide (0 < x)) = true)
    (hpair : process = .onOff → onDurationS.isSome = true ∧ offDurationS.isSome = true) :
    Always (finishTrace workload process ratePerSec durationS seed onDurationS offDurationS requests)
      (fun t => t.requests = requests) := by
  unfold finishTrace
  refine always_bind (P := fun _ => True) (always_ofOption ⟨_, dif_pos ⟨hrate, hon, hoff, hpair⟩, trivial⟩) ?_
  exact fun arrival _ => always_ofOption ⟨_, dif_pos hdur, rfl⟩

end FinishTrace

end GoodputLab
