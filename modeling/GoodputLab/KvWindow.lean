import GoodputLab.KvMeasure
/-!
# KvWindow — what a returned sample measured

Against any engine: the loop's counters are the engine's own outputs (`counts_absorbAll`), and a pass freezes the prefill
reading at the first post-step point where the whole batch is alive and moves the decode reading to the last one so far
(`frozen_freeze`).  So when `sampleDecodeWindow` returns, its two readings are those of the first and the last point at
which every request had a token and none had finished (`sampleDecodeWindow_sound`).
-/
namespace GoodputLab

variable {σ : Type}

/-! ## What the engine did -/

/-- A post-step point: what the step returned, and the free blocks read after it. -/
structure Point where
  outs : List StepOutput
  free : Int

/-- The engine, asked again and again for its free blocks, a step and its free blocks, goes from one state to another
through these points. -/
inductive Steps (d : EngineDriver σ) (s₀ : σ) : List Point → σ → Prop
  | nil : Steps d s₀ [] s₀
  | snoc {ps s₁ s₂ s₃ s₄} {before free : Int} {outs : List StepOutput} : Steps d s₀ ps s₁ →
      d.numFreeBlocks s₁ = (.ok before, s₂) → d.step s₂ = (.ok outs, s₃) → d.numFreeBlocks s₃ = (.ok free, s₄) →
      Steps d s₀ (ps ++ [⟨outs, free⟩]) s₄

def outsOf (ps : List Point) : List StepOutput := ps.flatMap (fun p => p.outs)

/-- The outputs up to and with the step before point `j`. -/
def upTo (ps : List Point) (j : Nat) : List StepOutput := outsOf (ps.take (j + 1))

def tokensOf (rid : Text) (outs : List StepOutput) : Int :=
  ((outs.filter (fun o => decide (o.requestId = rid))).map (fun o => o.newTokens)).sum

def finishedIn (rid : Text) (outs : List StepOutput) : Bool :=
  outs.any (fun o => decide (o.requestId = rid) && o.finished)

/-- Every request of the batch has a token and none has finished. -/
def AllAlive (a : SampleArgs) (outs : List StepOutput) : Prop :=
  ∀ rid ∈ a.requestIds, 1 ≤ tokensOf rid outs ∧ finishedIn rid outs = false

def batchTokens (a : SampleArgs) (outs : List StepOutput) : Int :=
  ((a.requestIds.zip a.promptLens).map (fun p => p.2 + tokensOf p.1 outs)).sum

theorem tokensOf_append (rid : Text) (l m : List StepOutput) :
    tokensOf rid (l ++ m) = tokensOf rid l + tokensOf rid m := by
  unfold tokensOf
  rw [List.filter_append, List.map_append, List.sum_append]

theorem finishedIn_append (rid : Text) (l m : List StepOutput) :
    finishedIn rid (l ++ m) = (finishedIn rid l || finishedIn rid m) := List.any_append

theorem outsOf_append (ps qs : List Point) : outsOf (ps ++ qs) = outsOf ps ++ outsOf qs := List.flatMap_append

theorem upTo_append_of_lt (ps : List Point) (pt : Point) {j : Nat} (h : j < ps.length) :
    upTo (ps ++ [pt]) j = upTo ps j := by
  unfold upTo
  rw [List.take_append_of_le_length (by omega)]

theorem upTo_append_last (ps : List Point) (pt : Point) : upTo (ps ++ [pt]) ps.length = outsOf ps ++ pt.outs := by
  unfold upTo
  rw [List.take_of_length_le (by simp), outsOf_append]
  simp [outsOf]

theorem upTo_prefix (ps : List Point) (j : Nat) : ∃ more, outsOf ps = upTo ps j ++ more :=
  ⟨outsOf (ps.drop (j + 1)), by rw [upTo, ← outsOf_append, List.take_append_drop]⟩

theorem tokensOf_nonneg (rid : Text) {outs : List StepOutput} (h : ∀ o ∈ outs, 0 ≤ o.newTokens) :
    0 ≤ tokensOf rid outs := by
  refine List.sum_nonneg (fun x hx => ?_)
  obtain ⟨o, ho, rfl⟩ := List.mem_map.1 hx
  exact h o (List.mem_of_mem_filter ho)

/-! ## The counters -/

/-- The counters of the window are the engine's outputs so far, none of which was negative. -/
structure Counts (a : SampleArgs) (outs : List StepOutput) (w : Window) : Prop where
  generated : ∀ rid, w.generated.get? rid = if rid ∈ a.requestIds then some (tokensOf rid outs) else none
  finished  : ∀ rid, w.finished.get? rid = if rid ∈ a.requestIds then some (finishedIn rid outs) else none
  nonneg    : ∀ o ∈ outs, 0 ≤ o.newTokens

theorem get?_foldl_const {ν : Type} (v : ν) (rid : Text) : ∀ (l : List Text) (d : OrdDict Text ν),
    ((l.map (fun r => (r, v))).foldl (fun d p => d.set p.1 p.2) d).get? rid = if rid ∈ l then some v else d.get? rid
  | [], d => by simp
  | r :: l, d => by
    rw [List.map_cons, List.foldl_cons, get?_foldl_const v rid l, OrdDict.get?_set]
    by_cases hl : rid ∈ l
    · simp [hl]
    · by_cases hr : rid = r <;> simp [hl, hr]

theorem counts_initial (a : SampleArgs) : Counts a [] (Window.initial a.requestIds) where
  generated := fun rid => get?_foldl_const 0 rid a.requestIds OrdDict.empty
  finished := fun rid => get?_foldl_const false rid a.requestIds OrdDict.empty
  nonneg := fun o ho => (by cases ho)

namespace Counts

variable {a : SampleArgs} {outs : List StepOutput} {w : Window}

theorem tokens_eq (h : Counts a outs w) {rid : Text} (hr : rid ∈ a.requestIds) : w.tokens rid = tokensOf rid outs := by
  rw [Window.tokens, h.generated, if_pos hr, Option.getD_some]

theorem isFinished_eq (h : Counts a outs w) {rid : Text} (hr : rid ∈ a.requestIds) :
    w.isFinished rid = finishedIn rid outs := by
  rw [Window.isFinished, h.finished, if_pos hr, Option.getD_some]

theorem mem_finished (h : Counts a outs w) (b : Bool) :
    b ∈ w.finished.values ↔ ∃ rid ∈ a.requestIds, finishedIn rid outs = b := by
  rw [OrdDict.mem_values]
  constructor
  · rintro ⟨rid, hget⟩
    rw [h.finished] at hget
    split at hget
    · rename_i hr
      exact ⟨rid, hr, Option.some.inj hget⟩
    · cases hget
  · rintro ⟨rid, hr, hb⟩
    exact ⟨rid, by rw [h.finished, if_pos hr, hb]⟩

theorem anyFinished_false (h : Counts a outs w) :
    w.anyFinished = false ↔ ∀ rid ∈ a.requestIds, finishedIn rid outs = false := by
  rw [Window.anyFinished, List.any_eq_false]
  constructor
  · intro hall rid hr
    cases hf : finishedIn rid outs with
    | false => rfl
    | true => exact absurd rfl (hall true ((h.mem_finished true).2 ⟨rid, hr, hf⟩))
  · intro hall b hb hid
    obtain ⟨rid, hr, hf⟩ := (h.mem_finished b).1 hb
    rw [hall rid hr] at hf
    rw [← hf] at hid
    cases hid

theorem anyFinished_true (h : Counts a outs w) (hany : w.anyFinished = true) :
    ∃ rid ∈ a.requestIds, finishedIn rid outs = true := by
  obtain ⟨b, hb, rfl⟩ := List.any_eq_true.1 hany
  exact (h.mem_finished true).1 hb

theorem allFinished_true (h : Counts a outs w) (hall : w.allFinished = true) {rid : Text} (hr : rid ∈ a.requestIds) :
    finishedIn rid outs = true :=
  List.all_eq_true.1 hall _ ((h.mem_finished _).2 ⟨rid, hr, rfl⟩)

theorem allFinished_iff (h : Counts a outs w) :
    w.allFinished = true ↔ ∀ rid ∈ a.requestIds, finishedIn rid outs = true := by
  refine ⟨fun hall rid hr => h.allFinished_true hall hr, fun hall => ?_⟩
  rw [Window.allFinished, List.all_eq_true]
  intro b hb
  obtain ⟨rid, hr, rfl⟩ := (h.mem_finished b).1 hb
  exact hall rid hr

theorem contains_iff (h : Counts a outs w) (rid : Text) : w.generated.contains rid = true ↔ rid ∈ a.requestIds := by
  rw [OrdDict.contains_iff, h.generated]
  by_cases hr : rid ∈ a.requestIds <;> simp [hr]

theorem absorb_unknown (h : Counts a outs w) {out : StepOutput} (hr : out.requestId ∉ a.requestIds) :
    w.absorb out = .error (.unknownRequest out.requestId) := by
  have hno : w.generated.contains out.requestId = false := by
    rw [← Bool.not_eq_true, h.contains_iff]
    exact hr
  unfold Window.absorb
  rw [hno]
  rfl

theorem active_eq (h : Counts a outs w) (hno : w.anyFinished = false) : w.active a = a.requestIds := by
  refine List.filter_eq_self.2 (fun rid hr => ?_)
  rw [h.isFinished_eq hr, h.anyFinished_false.1 hno rid hr]
  rfl

/-- **While nothing has finished, the schedule gate says that the whole batch is alive.** -/
theorem scheduled_iff (h : Counts a outs w) (hno : w.anyFinished = false) :
    w.scheduled a = true ↔ AllAlive a outs := by
  rw [Window.scheduled, h.active_eq hno, List.all_eq_true]
  constructor
  · intro hall rid hr
    have := hall rid hr
    rw [h.tokens_eq hr, decide_eq_true_eq] at this
    exact ⟨this, h.anyFinished_false.1 hno rid hr⟩
  · intro hall rid hr
    rw [h.tokens_eq hr, decide_eq_true_eq]
    exact (hall rid hr).1

/-- **While nothing has finished, the live count is the batch's tokens.** -/
theorem liveTokens_eq (h : Counts a outs w) (hno : w.anyFinished = false) : w.liveTokens a = batchTokens a outs := by
  have hmem : ∀ p ∈ a.requestIds.zip a.promptLens, p.1 ∈ a.requestIds := fun p hp => (List.of_mem_zip hp).1
  unfold Window.liveTokens batchTokens
  rw [List.filter_eq_self.2 (fun p hp => by
    rw [h.isFinished_eq (hmem p hp), h.anyFinished_false.1 hno p.1 (hmem p hp)]
    rfl)]
  congr 1
  refine List.map_congr_left (fun p hp => ?_)
  rw [h.tokens_eq (hmem p hp)]

end Counts

def SameReadings (w w' : Window) : Prop :=
  w'.prefillUsed = w.prefillUsed ∧ w'.prefillLive = w.prefillLive ∧ w'.decodeUsed = w.decodeUsed ∧
    w'.decodeLive = w.decodeLive

theorem counts_absorb {a : SampleArgs} {outs : List StepOutput} {w w' : Window} {out : StepOutput}
    (h : Counts a outs w) (hw : w.absorb out = .ok w') : Counts a (outs ++ [out]) w' ∧ SameReadings w w' := by
  unfold Window.absorb at hw
  split at hw
  · cases hw
  split at hw
  · cases hw
  · rename_i hknown hpos
    have hrid : out.requestId ∈ a.requestIds := by
      by_contra hno
      have hnone := h.generated out.requestId
      rw [if_neg hno] at hnone
      simp [OrdDict.contains, hnone] at hknown
    have htok : ∀ rid, tokensOf rid (outs ++ [out]) =
        tokensOf rid outs + if out.requestId = rid then out.newTokens else 0 := by
      intro rid
      rw [tokensOf_append]
      by_cases hr : out.requestId = rid <;> simp [tokensOf, hr]
    have hfin : ∀ rid, finishedIn rid (outs ++ [out]) =
        (finishedIn rid outs || (decide (out.requestId = rid) && out.finished)) := by
      intro rid
      rw [finishedIn_append]
      simp [finishedIn]
    have hgen : ∀ rid, (w.generated.set out.requestId (w.tokens out.requestId + out.newTokens)).get? rid =
        if rid ∈ a.requestIds then some (tokensOf rid (outs ++ [out])) else none := by
      intro rid
      rw [OrdDict.get?_set, htok, h.tokens_eq hrid]
      by_cases hr : rid = out.requestId
      · subst hr
        rw [if_pos rfl, if_pos hrid, if_pos rfl]
      · rw [if_neg hr, h.generated, if_neg (Ne.symm hr), Int.add_zero]
    have hnonneg : ∀ o ∈ outs ++ [out], 0 ≤ o.newTokens := by
      intro o ho
      rcases List.mem_append.1 ho with ho | ho
      · exact h.nonneg o ho
      · rw [List.mem_singleton.1 ho]
        omega
    simp only at hw
    split at hw
    · rename_i hdone
      cases hw
      refine ⟨⟨hgen, fun rid => ?_, hnonneg⟩, rfl, rfl, rfl, rfl⟩
      show (w.finished.set out.requestId true).get? rid = _
      rw [OrdDict.get?_set, hfin, hdone]
      by_cases hr : rid = out.requestId
      · subst hr
        simp [hrid]
      · rw [if_neg hr, h.finished, decide_eq_false (Ne.symm hr), Bool.false_and, Bool.or_false]
    · rename_i hdone
      cases hw
      refine ⟨⟨hgen, fun rid => ?_, hnonneg⟩, rfl, rfl, rfl, rfl⟩
      show w.finished.get? rid = _
      rw [h.finished, hfin, Bool.eq_false_iff.2 hdone, Bool.and_false, Bool.or_false]

/-- **A step's outputs are counted as they come.** -/
theorem counts_absorbAll {a : SampleArgs} : ∀ (new : List StepOutput) {outs : List StepOutput} {w w' : Window},
    Counts a outs w → Window.absorbAll new w = .ok w' → Counts a (outs ++ new) w' ∧ SameReadings w w'
  | [], outs, w, w', h, hw => by
    cases hw
    rw [List.append_nil]
    exact ⟨h, rfl, rfl, rfl, rfl⟩
  | out :: new, outs, w, w', h, hw => by
    unfold Window.absorbAll at hw
    cases h₁ : w.absorb out with
    | error e =>
      rw [h₁] at hw
      cases hw
    | ok w₁ =>
      rw [h₁] at hw
      obtain ⟨hc, hs⟩ := counts_absorb h h₁
      obtain ⟨hc', hs'⟩ := counts_absorbAll new hc hw
      rw [List.append_assoc] at hc'
      exact ⟨hc', hs'.1.trans hs.1, hs'.2.1.trans hs.2.1, hs'.2.2.1.trans hs.2.2.1, hs'.2.2.2.trans hs.2.2.2⟩

/-- **A step that answers for the batch only, with no negative count, is absorbed.** -/
theorem absorbAll_known {a : SampleArgs} : ∀ (new : List StepOutput) {outs : List StepOutput} {w : Window},
    Counts a outs w → (∀ o ∈ new, o.requestId ∈ a.requestIds ∧ 0 ≤ o.newTokens) →
    ∃ w', Window.absorbAll new w = .ok w' ∧ Counts a (outs ++ new) w' ∧ SameReadings w w'
  | [], outs, w, h, _ => ⟨w, rfl, by rwa [List.append_nil], rfl, rfl, rfl, rfl⟩
  | out :: new, outs, w, h, hnew => by
    obtain ⟨hr, hn⟩ := hnew out List.mem_cons_self
    have habs : ∃ w₁, w.absorb out = .ok w₁ := by
      unfold Window.absorb
      rw [(h.contains_iff _).2 hr, if_neg (by decide), if_neg (not_lt.2 hn)]
      exact ⟨_, rfl⟩
    obtain ⟨w₁, h₁⟩ := habs
    obtain ⟨hc, hs⟩ := counts_absorb h h₁
    obtain ⟨w', hw', hc', hs'⟩ := absorbAll_known new hc (fun o ho => hnew o (List.mem_cons_of_mem _ ho))
    refine ⟨w', ?_, ?_, hs'.1.trans hs.1, hs'.2.1.trans hs.2.1, hs'.2.2.1.trans hs.2.2.1, hs'.2.2.2.trans hs.2.2.2⟩
    · unfold Window.absorbAll
      rw [h₁]
      exact hw'
    · rwa [List.append_assoc] at hc'

/-! ## The readings -/

/-- `used` and `live` are what was read at point `j`: the batch was alive, and the gate held. -/
structure IsReading (a : SampleArgs) (total : Int) (ps : List Point) (j : Nat) (used live : Int) : Prop where
  point : ∃ pt, ps[j]? = some pt ∧ used = total - pt.free
  alive : AllAlive a (upTo ps j)
  count : live = batchTokens a (upTo ps j)
  gate  : live ≤ used * a.blockSize ∧ used * a.blockSize ≤ live + a.batch * a.blockSize + 64

/-- Nothing is frozen: at no point so far was the whole batch alive. -/
def Unfrozen (a : SampleArgs) (ps : List Point) (w : Window) : Prop :=
  w.prefillUsed = none ∧ ∀ j < ps.length, ¬ AllAlive a (upTo ps j)

/-- The window holds the readings of `p`, the first point with the whole batch alive, and of `q`, the last one so far:
after `q` there is no point yet, or a request finished at once. -/
structure Frozen (a : SampleArgs) (total : Int) (ps : List Point) (p q : Nat) (w : Window) : Prop where
  prefill : ∃ u, w.prefillUsed = some u ∧ IsReading a total ps p u w.prefillLive
  decode  : ∃ u, w.decodeUsed = some u ∧ IsReading a total ps q u w.decodeLive
  first   : ∀ j < ps.length, AllAlive a (upTo ps j) → p ≤ j
  last    : ∀ j < ps.length, AllAlive a (upTo ps j) → j ≤ q
  next    : q + 1 = ps.length ∨ ∃ pt, ps[q + 1]? = some pt ∧ ∃ rid ∈ a.requestIds, finishedIn rid pt.outs = true

theorem IsReading.lt {a : SampleArgs} {total : Int} {ps : List Point} {j : Nat} {used live : Int}
    (h : IsReading a total ps j used live) : j < ps.length := by
  obtain ⟨pt, hpt, -⟩ := h.point
  exact (List.getElem?_eq_some_iff.1 hpt).1

theorem IsReading.append {a : SampleArgs} {total : Int} {ps : List Point} {j : Nat} {used live : Int}
    (h : IsReading a total ps j used live) (pt : Point) : IsReading a total (ps ++ [pt]) j used live where
  point := by
    obtain ⟨x, hx, hu⟩ := h.point
    exact ⟨x, by rw [List.getElem?_append_left h.lt, hx], hu⟩
  alive := by
    rw [upTo_append_of_lt ps pt h.lt]
    exact h.alive
  count := by
    rw [upTo_append_of_lt ps pt h.lt]
    exact h.count
  gate := h.gate

theorem check_ok {u l b bs : Int} {full : Bool} {gate : Gate} (h : checkBlockConsistency u l b bs full gate = .ok ()) :
    u * bs ≤ l + b * bs + 64 ∧ (full = true → l ≤ u * bs) := by
  unfold checkBlockConsistency at h
  simp only at h
  split at h
  · cases h
  split at h
  · cases h
  split at h
  · cases h
  · rename_i hle hfull
    refine ⟨by omega, fun hf => ?_⟩
    rw [hf, Bool.true_and, decide_eq_true_eq] at hfull
    omega

theorem finished_after {a : SampleArgs} {ps : List Point} {q : Nat} {outs : List StepOutput} {rid : Text}
    (hq : q + 1 = ps.length) (halive : AllAlive a (upTo ps q)) (hr : rid ∈ a.requestIds)
    (hfin : finishedIn rid (outsOf ps ++ outs) = true) : finishedIn rid outs = true := by
  have hbefore := (halive rid hr).2
  rw [upTo, hq, List.take_length] at hbefore
  rw [finishedIn_append, hbefore, Bool.false_or] at hfin
  exact hfin

theorem alive_of_lt_append {a : SampleArgs} {ps : List Point} {pt : Point} {j : Nat}
    (hj : j < (ps ++ [pt]).length) (h : AllAlive a (upTo (ps ++ [pt]) j)) :
    (j < ps.length ∧ AllAlive a (upTo ps j)) ∨ (j = ps.length ∧ AllAlive a (outsOf ps ++ pt.outs)) := by
  rw [List.length_append, List.length_singleton] at hj
  rcases Nat.lt_or_ge j ps.length with hlt | hge
  · rw [upTo_append_of_lt ps pt hlt] at h
    exact Or.inl ⟨hlt, h⟩
  · have he : j = ps.length := by omega
    subst he
    rw [upTo_append_last] at h
    exact Or.inr ⟨rfl, h⟩

theorem isReading_last {a : SampleArgs} {total free : Int} {ps : List Point} {outs : List StepOutput} {w : Window}
    {gate : Gate} (hc : Counts a (outsOf ps ++ outs) w) (hno : w.anyFinished = false)
    (halive : AllAlive a (outsOf ps ++ outs))
    (hcheck : checkBlockConsistency (total - free) (w.liveTokens a) a.batch a.blockSize (w.scheduled a) gate = .ok ()) :
    IsReading a total (ps ++ [⟨outs, free⟩]) ps.length (total - free) (w.liveTokens a) where
  point := ⟨⟨outs, free⟩, by simp, rfl⟩
  alive := by
    rw [upTo_append_last]
    exact halive
  count := by
    rw [upTo_append_last]
    exact hc.liveTokens_eq hno
  gate := ⟨(check_ok hcheck).2 ((hc.scheduled_iff hno).2 halive), (check_ok hcheck).1⟩

theorem lt_snoc {ps : List Point} {pt : Point} {j : Nat} (h : j < (ps ++ [pt]).length) : j ≤ ps.length := by
  rw [List.length_append, List.length_singleton] at h
  omega

/-- Nothing frozen yet: the first point with the batch alive takes both readings. -/
theorem unfrozen_freeze {a : SampleArgs} {total free : Int} {ps : List Point} {outs : List StepOutput} {w : Window}
    {gate : Gate} (h : Unfrozen a ps w) (hc : Counts a (outsOf ps ++ outs) w)
    (hcheck : checkBlockConsistency (total - free) (w.liveTokens a) a.batch a.blockSize (w.scheduled a) gate = .ok ())
    (hno : w.anyFinished = false) :
    Unfrozen a (ps ++ [⟨outs, free⟩]) (w.freeze a (total - free)) ∨
      Frozen a total (ps ++ [⟨outs, free⟩]) ps.length ps.length (w.freeze a (total - free)) := by
  obtain ⟨hnone, hdead⟩ := h
  by_cases hsch : w.scheduled a = true
  · have hread := isReading_last hc hno ((hc.scheduled_iff hno).1 hsch) hcheck
    have hfreeze : w.freeze a (total - free) = { w with
        prefillUsed := some (total - free), prefillLive := w.liveTokens a,
        decodeUsed := some (total - free), decodeLive := w.liveTokens a } := by
      have hno' : ({ w with prefillUsed := some (total - free), prefillLive := w.liveTokens a } : Window).anyFinished =
          false := hno
      simp [Window.freeze, hnone, hsch, hno']
    rw [hfreeze]
    refine Or.inr ⟨⟨_, rfl, hread⟩, ⟨_, rfl, hread⟩, fun j hj hal => ?_, fun j hj _ => lt_snoc hj, Or.inl (by simp)⟩
    rcases alive_of_lt_append hj hal with ⟨hlt, hal⟩ | ⟨rfl, -⟩
    · exact absurd hal (hdead j hlt)
    · exact le_refl _
  · have hfreeze : w.freeze a (total - free) = w := by simp [Window.freeze, hnone, hsch]
    rw [hfreeze]
    refine Or.inl ⟨hnone, fun j hj hal => ?_⟩
    rcases alive_of_lt_append hj hal with ⟨hlt, hal⟩ | ⟨-, hal⟩
    · exact hdead j hlt hal
    · exact hsch ((hc.scheduled_iff hno).2 hal)

theorem Frozen.first_snoc {a : SampleArgs} {total : Int} {ps : List Point} {p q : Nat} {w : Window}
    (h : Frozen a total ps p q w) (pt : Point) :
    ∀ j < (ps ++ [pt]).length, AllAlive a (upTo (ps ++ [pt]) j) → p ≤ j := by
  intro j hj hal
  obtain ⟨u, -, hpre⟩ := h.prefill
  rcases alive_of_lt_append hj hal with ⟨hlt, hal⟩ | ⟨rfl, -⟩
  · exact h.first j hlt hal
  · exact Nat.le_of_lt hpre.lt

theorem alive_of_unfinished {a : SampleArgs} {ps : List Point} {q : Nat} {outs : List StepOutput} {w : Window}
    (hq : AllAlive a (upTo ps q)) (hc : Counts a (outsOf ps ++ outs) w) (hno : w.anyFinished = false) :
    AllAlive a (outsOf ps ++ outs) := by
  intro rid hr
  refine ⟨?_, hc.anyFinished_false.1 hno rid hr⟩
  obtain ⟨more, hmore⟩ := upTo_prefix ps q
  have hnn : 0 ≤ tokensOf rid (more ++ outs) := by
    refine tokensOf_nonneg rid (fun o ho => hc.nonneg o ?_)
    rw [hmore, List.append_assoc]
    exact List.mem_append_right _ ho
  have := (hq rid hr).1
  rw [hmore, List.append_assoc, tokensOf_append]
  omega

/-- Nobody has finished: the decode reading moves to the new point. -/
theorem Frozen.moves {a : SampleArgs} {total free : Int} {ps : List Point} {outs : List StepOutput} {w : Window}
    {gate : Gate} {p q : Nat} (h : Frozen a total ps p q w) (hc : Counts a (outsOf ps ++ outs) w)
    (hcheck : checkBlockConsistency (total - free) (w.liveTokens a) a.batch a.blockSize (w.scheduled a) gate = .ok ())
    (hno : w.anyFinished = false) :
    Frozen a total (ps ++ [⟨outs, free⟩]) p ps.length (w.freeze a (total - free)) := by
  obtain ⟨u, hu, hpre⟩ := h.prefill
  obtain ⟨v, hv, hdec⟩ := h.decode
  have hread := isReading_last hc hno (alive_of_unfinished hdec.alive hc hno) hcheck
  have hfreeze : w.freeze a (total - free) =
      { w with decodeUsed := some (total - free), decodeLive := w.liveTokens a } := by
    simp [Window.freeze, hu, hno]
  rw [hfreeze]
  exact ⟨⟨u, hu, hpre.append _⟩, ⟨_, rfl, hread⟩, h.first_snoc _, fun j hj _ => lt_snoc hj, Or.inl (by simp)⟩

/-- Somebody has finished: the readings stand, and a request finished right after the decode reading. -/
theorem Frozen.stands {a : SampleArgs} {total free : Int} {ps : List Point} {outs : List StepOutput} {w : Window}
    {p q : Nat} (h : Frozen a total ps p q w) (hc : Counts a (outsOf ps ++ outs) w) (hyes : w.anyFinished = true) :
    Frozen a total (ps ++ [⟨outs, free⟩]) p q (w.freeze a (total - free)) := by
  obtain ⟨u, hu, hpre⟩ := h.prefill
  obtain ⟨v, hv, hdec⟩ := h.decode
  have hfreeze : w.freeze a (total - free) = w := by simp [Window.freeze, hu, hyes]
  obtain ⟨rid, hr, hfin⟩ := hc.anyFinished_true hyes
  rw [hfreeze]
  refine ⟨⟨u, hu, hpre.append _⟩, ⟨v, hv, hdec.append _⟩, h.first_snoc _, fun j hj hal => ?_, Or.inr ?_⟩
  · rcases alive_of_lt_append hj hal with ⟨hlt, hal⟩ | ⟨-, hal⟩
    · exact h.last j hlt hal
    · rw [(hal rid hr).2] at hfin
      cases hfin
  · rcases h.next with hq | ⟨pt, hpt, hx⟩
    · refine ⟨⟨outs, free⟩, by rw [hq]; simp, rid, hr, ?_⟩
      exact finished_after hq hdec.alive hr hfin
    · exact ⟨pt, by rw [List.getElem?_append_left (List.getElem?_eq_some_iff.1 hpt).1, hpt], hx⟩

/-- **One pass**: a window frozen or not stays so with the point the pass adds. -/
theorem frozen_freeze {a : SampleArgs} {total free : Int} {ps : List Point} {outs : List StepOutput} {w : Window}
    {gate : Gate} (h : Unfrozen a ps w ∨ ∃ p q, Frozen a total ps p q w) (hc : Counts a (outsOf ps ++ outs) w)
    (hcheck : checkBlockConsistency (total - free) (w.liveTokens a) a.batch a.blockSize (w.scheduled a) gate = .ok ())
    (hguard : (w.prefillUsed.isNone && w.anyFinished) = false) :
    Unfrozen a (ps ++ [⟨outs, free⟩]) (w.freeze a (total - free)) ∨
      ∃ p q, Frozen a total (ps ++ [⟨outs, free⟩]) p q (w.freeze a (total - free)) := by
  rcases h with hun | ⟨p, q, hf⟩
  · have hno : w.anyFinished = false := by simpa [hun.1] using hguard
    rcases unfrozen_freeze hun hc hcheck hno with hun' | hf'
    · exact Or.inl hun'
    · exact Or.inr ⟨_, _, hf'⟩
  · cases hfin : w.anyFinished with
    | false => exact Or.inr ⟨p, ps.length, hf.moves hc hcheck hfin⟩
    | true => exact Or.inr ⟨p, q, hf.stands hc hfin⟩

theorem readings_congr {a : SampleArgs} {total : Int} {ps : List Point} {w w' : Window} (hs : SameReadings w w')
    (h : Unfrozen a ps w ∨ ∃ p q, Frozen a total ps p q w) : Unfrozen a ps w' ∨ ∃ p q, Frozen a total ps p q w' := by
  obtain ⟨hp, hpl, hd, hdl⟩ := hs
  rcases h with ⟨hnone, hdead⟩ | ⟨p, q, hf⟩
  · exact Or.inl ⟨hp.trans hnone, hdead⟩
  · refine Or.inr ⟨p, q, ?_, ?_, hf.first, hf.last, hf.next⟩
    · rw [hp, hpl]
      exact hf.prefill
    · rw [hd, hdl]
      exact hf.decode

theorem counts_freeze {a : SampleArgs} {outs : List StepOutput} {w : Window} (h : Counts a outs w) (used : Int) :
    Counts a outs (w.freeze a used) := by
  have hsame : (w.freeze a used).generated = w.generated ∧ (w.freeze a used).finished = w.finished := by
    unfold Window.freeze
    simp only
    split <;> split <;> exact ⟨rfl, rfl⟩
  exact ⟨fun rid => hsame.1 ▸ h.generated rid, fun rid => hsame.2 ▸ h.finished rid, h.nonneg⟩

/-! ## The loop -/

/-- What a pass that returned asked the engine, and what it made of the answers. -/
theorem sampleStep_ok {d : EngineDriver σ} {a : SampleArgs} {total : Int} {idx : Nat} {w : Window} {s s' : σ}
    {r : Window × Bool} (h : sampleStep d a total idx w s = (.ok r, s')) :
    ∃ before s₁ outs s₂ w₁, d.numFreeBlocks s = (.ok before, s₁) ∧ d.step s₁ = (.ok outs, s₂) ∧
      Window.absorbAll outs w = .ok w₁ ∧
      ((w₁.allFinished = true ∧ r = (w₁, true)) ∨
        ∃ free, d.numFreeBlocks s₂ = (.ok free, s') ∧
          checkBlockConsistency (total - free) (w₁.liveTokens a) a.batch a.blockSize (w₁.scheduled a) (.postStep idx) =
            .ok () ∧
          (w₁.prefillUsed.isNone && w₁.anyFinished) = false ∧ r = (w₁.freeze a (total - free), false)) := by
  unfold sampleStep at h
  obtain ⟨before, s₁, hbefore, h⟩ := Act.bind_ok h
  obtain ⟨u, s₁', hgate, h⟩ := Act.bind_ok h
  obtain ⟨-, rfl⟩ := Act.lift_ok hgate
  obtain ⟨outs, s₂, houts, h⟩ := Act.bind_ok h
  obtain ⟨w₁, s₂', hlift, h⟩ := Act.bind_ok h
  obtain ⟨habs, rfl⟩ := Act.lift_ok hlift
  refine ⟨before, s₁, outs, s₂, w₁, hbefore, houts, habs, ?_⟩
  split at h
  · rename_i hall
    left
    split at h
    · obtain ⟨n, s₃, -, h⟩ := Act.bind_ok h
      exact ⟨hall, (Act.pure_ok h).1.symm⟩
    · exact ⟨hall, (Act.pure_ok h).1.symm⟩
  · right
    obtain ⟨free, s₃, hfree, h⟩ := Act.bind_ok h
    obtain ⟨u, s₃', hlift, h⟩ := Act.bind_ok h
    obtain ⟨hcheck, rfl⟩ := Act.lift_ok hlift
    obtain ⟨u, s₃', hraise, h⟩ := Act.bind_ok h
    obtain ⟨hguard, rfl⟩ := Act.guard_ok hraise
    obtain ⟨hr, rfl⟩ := Act.pure_ok h
    exact ⟨free, hfree, hcheck, hguard, hr.symm⟩

/-- **The loop**: it returns after a step that finished the last request, and what it returns is frozen or not. -/
theorem sampleLoop_ok {d : EngineDriver σ} {a : SampleArgs} {total : Int} {s₀ : σ} : ∀ (fuel idx : Nat) {w w' : Window}
    {ps : List Point} {s s' : σ}, Steps d s₀ ps s → Counts a (outsOf ps) w →
    (Unfrozen a ps w ∨ ∃ p q, Frozen a total ps p q w) → sampleLoop d a total fuel idx w s = (.ok w', s') →
    ∃ ps' s₁ before s₂ last s₃, Steps d s₀ ps' s₁ ∧ d.numFreeBlocks s₁ = (.ok before, s₂) ∧
      d.step s₂ = (.ok last, s₃) ∧ Counts a (outsOf ps' ++ last) w' ∧ w'.allFinished = true ∧
      (Unfrozen a ps' w' ∨ ∃ p q, Frozen a total ps' p q w')
  | 0, _, w, w', ps, s, s', _, _, _, h => by
    obtain ⟨h, -⟩ := Act.lift_ok h
    cases h
  | fuel + 1, idx, w, w', ps, s, s', hsteps, hc, hread, h => by
    unfold sampleLoop at h
    obtain ⟨r, s₁, hstep, h⟩ := Act.bind_ok h
    obtain ⟨before, s₂, outs, s₃, w₁, hbefore, houts, habs, hrest⟩ := sampleStep_ok hstep
    obtain ⟨hc₁, hsame⟩ := counts_absorbAll outs hc habs
    have hread₁ := readings_congr hsame hread
    rcases hrest with ⟨hall, rfl⟩ | ⟨free, hfree, hcheck, hguard, rfl⟩
    · obtain ⟨rfl, -⟩ := Act.pure_ok h
      exact ⟨ps, s, before, s₂, outs, s₃, hsteps, hbefore, houts, hc₁, hall, hread₁⟩
    · have hc₂ := counts_freeze hc₁ (total - free)
      rw [show outsOf ps ++ outs = outsOf (ps ++ [⟨outs, free⟩]) by rw [outsOf_append]; simp [outsOf]] at hc₂
      exact sampleLoop_ok fuel (idx + 1) (hsteps.snoc hbefore houts hfree) hc₂
        (frozen_freeze hread₁ hc₁ hcheck hguard) h

/-! ## The sample -/

/-- A sample's dealings with the engine: the block total, the requests, the points, and a last step. -/
def SampleRun (d : EngineDriver σ) (a : SampleArgs) (s : σ) (total : Int) (ps : List Point) (last : List StepOutput) :
    Prop :=
  ∃ s₀ s₁ s₂ s₃ s₄ before, d.numGpuBlocks s = (.ok (some total), s₀) ∧ addRequests d a.requests s₀ = (.ok (), s₁) ∧
    Steps d s₁ ps s₂ ∧ d.numFreeBlocks s₂ = (.ok before, s₃) ∧ d.step s₃ = (.ok last, s₄)

theorem finish_ok {a : SampleArgs} {w : Window} {r : SampleReadings} (h : finish a w = .ok r) :
    w.prefillUsed = some r.usedBlocksPrefill ∧ w.decodeUsed = some r.usedBlocksDecode ∧
      w.prefillLive = r.liveTokensPrefill ∧ w.decodeLive = r.liveTokensDecode ∧
      r.usedBlocksPrefill ≤ r.usedBlocksDecode := by
  unfold finish at h
  split at h
  · cases h
  · cases h
  · rename_i up ud hp hd
    split at h
    · cases h
    · rename_i hle
      cases h
      exact ⟨hp, hd, rfl, rfl, not_lt.1 hle⟩

theorem checkArgs_ok {a : SampleArgs} (h : checkArgs a = .ok ()) : a.requestIds ≠ [] := by
  unfold checkArgs at h
  split at h
  · cases h
  · rename_i hne
    intro he
    exact hne (by rw [he]; rfl)

theorem checkTotal_ok {total : Option Int} {n : Int} (h : checkTotal total = .ok n) : total = some n := by
  unfold checkTotal at h
  split at h
  · cases h
  · split at h
    · cases h
    · cases h
      rfl

/-- **A sample that returns is sound, against any engine**: its readings are those of the first and the last post-step
point at which every request had a token and none had finished, with the block gate holding at both; the step after the
last one finished a request, and the decode reading is not below the prefill reading. -/
theorem sampleDecodeWindow_sound (d : EngineDriver σ) (a : SampleArgs) (s s' : σ) (r : SampleReadings)
    (h : sampleDecodeWindow d a s = (.ok r, s')) :
    ∃ total ps last p q, SampleRun d a s total ps last ∧
      (∀ rid ∈ a.requestIds, finishedIn rid (outsOf ps ++ last) = true) ∧
      IsReading a total ps p r.usedBlocksPrefill r.liveTokensPrefill ∧
      IsReading a total ps q r.usedBlocksDecode r.liveTokensDecode ∧
      (∀ j < ps.length, AllAlive a (upTo ps j) → p ≤ j ∧ j ≤ q) ∧
      (∃ outs, (ps.map Point.outs ++ [last])[q + 1]? = some outs ∧ ∃ rid ∈ a.requestIds, finishedIn rid outs = true) ∧
      r.usedBlocksPrefill ≤ r.usedBlocksDecode := by
  unfold sampleDecodeWindow at h
  obtain ⟨u, t₀, hlift, h⟩ := Act.bind_ok h
  obtain ⟨hargs, rfl⟩ := Act.lift_ok hlift
  obtain ⟨total?, s₀, htotal, h⟩ := Act.bind_ok h
  obtain ⟨total, t₁, hlift, h⟩ := Act.bind_ok h
  obtain ⟨hcheck, rfl⟩ := Act.lift_ok hlift
  obtain ⟨u, s₁, hadd, h⟩ := Act.bind_ok h
  obtain ⟨t₂, h, -⟩ := Act.ensuring_ok h
  obtain ⟨w, t₃, hloop, h⟩ := Act.bind_ok h
  obtain ⟨hfinish, rfl⟩ := Act.lift_ok h
  obtain ⟨hup, hud, hpl, hdl, hle⟩ := finish_ok hfinish
  obtain ⟨ps, s₂, before, s₃, last, s₄, hsteps, hbefore, hlast, hc, hall, hread⟩ :=
    sampleLoop_ok (maxSteps a).toNat 0 Steps.nil (counts_initial a)
      (Or.inl ⟨rfl, fun j hj => absurd hj (Nat.not_lt_zero j)⟩) hloop
  have hdone : ∀ rid ∈ a.requestIds, finishedIn rid (outsOf ps ++ last) = true := fun rid hr =>
    hc.allFinished_true hall hr
  rcases hread with ⟨hnone, -⟩ | ⟨p, q, hf⟩
  · rw [hup] at hnone
    cases hnone
  obtain ⟨u, hu, hpre⟩ := hf.prefill
  obtain ⟨v, hv, hdec⟩ := hf.decode
  rw [hup] at hu
  rw [hud] at hv
  cases hu
  cases hv
  rw [hpl] at hpre
  rw [hdl] at hdec
  refine ⟨total, ps, last, p, q, ⟨s₀, s₁, s₂, s₃, s₄, before, ?_, hadd, hsteps, hbefore, hlast⟩, hdone, hpre, hdec,
    fun j hj hal => ⟨hf.first j hj hal, hf.last j hj hal⟩, ?_, hle⟩
  · rw [htotal, checkTotal_ok hcheck]
  · rcases hf.next with hq | ⟨pt, hpt, hwho⟩
    · -- nobody finished before the last step, which finished them all
      obtain ⟨rid, hr⟩ := List.exists_mem_of_ne_nil _ (checkArgs_ok hargs)
      exact ⟨last, by rw [hq]; simp, rid, hr, finished_after hq hdec.alive hr (hdone rid hr)⟩
    · refine ⟨pt.outs, ?_, hwho⟩
      have hlt := (List.getElem?_eq_some_iff.1 hpt).1
      rw [List.getElem?_append_left (by simpa using hlt), List.getElem?_map, hpt]
      rfl

/-! ## An engine that runs -/

/-- An engine that plays a list of steps, each with the free blocks after it. -/
def scripted : EngineDriver (List Point) where
  numGpuBlocks := fun s => (.ok (some 10), s)
  numFreeBlocks := fun s => (.ok ((s.head?.map (fun p => p.free)).getD 10), s)
  addRequest := fun _ s => (.ok (), s)
  step := fun s => (.ok ((s[1]?.map (fun p => p.outs)).getD []), s.tail)
  getNumUnfinishedRequests := fun s => (.ok 0, s)
  endSample := fun s => (.ok (), s)

def twoRequests : SampleArgs where
  requestIds := ["a".toList, "b".toList]
  prompts := ["x".toList, "y".toList]
  promptLens := [16, 20]
  decodeTokens := 4
  ignoreEos := true
  prefillChunks := 1
  theoryBpt := 2
  blockSize := 16

/-- Prefill in two waves, one joint decode step, then the requests finish one after the other. -/
def staggeredWaves : List Point :=
  [⟨[], 10⟩, ⟨[⟨"a".toList, 1, false⟩], 7⟩, ⟨[⟨"a".toList, 1, false⟩, ⟨"b".toList, 1, false⟩], 6⟩,
    ⟨[⟨"a".toList, 1, false⟩, ⟨"b".toList, 1, false⟩], 6⟩, ⟨[⟨"a".toList, 1, true⟩, ⟨"b".toList, 1, false⟩], 7⟩,
    ⟨[⟨"b".toList, 2, true⟩], 10⟩]

theorem staggeredWaves_sound :
    ∃ r s', sampleDecodeWindow scripted twoRequests staggeredWaves = (.ok r, s') ∧ r = ⟨128, 128, 39, 41, 4, 4⟩ ∧
      ∃ total ps last p q, SampleRun scripted twoRequests staggeredWaves total ps last ∧
        (∀ rid ∈ twoRequests.requestIds, finishedIn rid (outsOf ps ++ last) = true) ∧
        IsReading twoRequests total ps p r.usedBlocksPrefill r.liveTokensPrefill ∧
        IsReading twoRequests total ps q r.usedBlocksDecode r.liveTokensDecode ∧
        (∀ j < ps.length, AllAlive twoRequests (upTo ps j) → p ≤ j ∧ j ≤ q) ∧
        (∃ outs, (ps.map Point.outs ++ [last])[q + 1]? = some outs ∧
          ∃ rid ∈ twoRequests.requestIds, finishedIn rid outs = true) ∧
        r.usedBlocksPrefill ≤ r.usedBlocksDecode := by
  have hrun : sampleDecodeWindow scripted twoRequests staggeredWaves =
      (.ok ⟨128, 128, 39, 41, 4, 4⟩, [⟨[⟨"b".toList, 2, true⟩], 10⟩]) := by rfl
  exact ⟨_, _, hrun, rfl, sampleDecodeWindow_sound scripted twoRequests staggeredWaves _ _ hrun⟩

end GoodputLab
