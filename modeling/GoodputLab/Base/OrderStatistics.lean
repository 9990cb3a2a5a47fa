import Mathlib
/-!
# OrderStatistics — quantiles interpolated between ranks

`interpolate` runs through a sequence in straight lines; it keeps the order of the positions when the sequence ascends
(`interpolate_mono`) and the order of two sequences (`interpolate_le`).  Sorting keeps pointwise order
(`insertionSort_forall₂`).  So `quantile`, which interpolates between the ranks of a list, is inside the list's range and
monotone in the position and in every entry (`quantile_mem`, `quantile_mono`, `quantile_le`).
-/

namespace OrderStatistics

section Interpolate

variable {K : Type} [Field K] [LinearOrder K] [IsStrictOrderedRing K] [FloorSemiring K]

/-- The sequence `f` read at `x`, on the straight line between the places around it. -/
def interpolate (f : ℕ → K) (x : K) : K := f ⌊x⌋₊ + (x - ⌊x⌋₊) * (f (⌊x⌋₊ + 1) - f ⌊x⌋₊)

/-- Where between its two places `x` is. -/
theorem fraction_bounds {x : K} (hx : 0 ≤ x) : 0 ≤ x - ⌊x⌋₊ ∧ x - ⌊x⌋₊ ≤ 1 := by
  have hle := Nat.floor_le hx
  have hlt := Nat.lt_floor_add_one x
  constructor <;> linarith

theorem interpolate_bounds {f : ℕ → K} (hf : Monotone f) {x : K} (hx : 0 ≤ x) :
    f ⌊x⌋₊ ≤ interpolate f x ∧ interpolate f x ≤ f (⌊x⌋₊ + 1) := by
  obtain ⟨hlow, hhigh⟩ := fraction_bounds hx
  have hstep : 0 ≤ f (⌊x⌋₊ + 1) - f ⌊x⌋₊ := sub_nonneg.2 (hf (Nat.le_succ _))
  have hrise := mul_nonneg hlow hstep
  have hcap := mul_le_of_le_one_left hstep hhigh
  unfold interpolate
  constructor <;> linarith

/-- **Interpolation of an ascending sequence ascends**: on one line by its slope, across lines through the places
between. -/
theorem interpolate_mono {f : ℕ → K} (hf : Monotone f) {x y : K} (hx : 0 ≤ x) (hxy : x ≤ y) :
    interpolate f x ≤ interpolate f y := by
  rcases (Nat.floor_mono hxy).eq_or_lt with heq | hlt
  · have hstep : 0 ≤ f (⌊y⌋₊ + 1) - f ⌊y⌋₊ := sub_nonneg.2 (hf (Nat.le_succ _))
    unfold interpolate
    rw [heq]
    have hrise := mul_le_mul_of_nonneg_right (sub_le_sub_right hxy (⌊y⌋₊ : K)) hstep
    linarith
  · calc interpolate f x ≤ f (⌊x⌋₊ + 1) := (interpolate_bounds hf hx).2
      _ ≤ f ⌊y⌋₊ := hf hlt
      _ ≤ interpolate f y := (interpolate_bounds hf (hx.trans hxy)).1

/-- **Interpolation keeps the order of two sequences.** -/
theorem interpolate_le {f g : ℕ → K} (h : ∀ n, f n ≤ g n) {x : K} (hx : 0 ≤ x) : interpolate f x ≤ interpolate g x := by
  obtain ⟨hlow, hhigh⟩ := fraction_bounds hx
  have hleft := mul_le_mul_of_nonneg_left (h ⌊x⌋₊) (sub_nonneg.2 hhigh)
  have hright := mul_le_mul_of_nonneg_left (h (⌊x⌋₊ + 1)) hlow
  unfold interpolate
  linarith

end Interpolate

section Sorting

variable {α : Type} [LinearOrder α]

theorem orderedInsert_least {a : α} : ∀ {l : List α}, (∀ b ∈ l, a ≤ b) → l.orderedInsert (· ≤ ·) a = a :: l
  | [], _ => rfl
  | b :: l, h => List.orderedInsert_cons_of_le (· ≤ ·) l (h b List.mem_cons_self)

/-- **Inserting keeps pointwise order**: the four cases are where each of the two goes, at the head or further in. -/
theorem orderedInsert_forall₂ {s t : List α} (h : List.Forall₂ (· ≤ ·) s t) (hs : s.Pairwise (· ≤ ·))
    (ht : t.Pairwise (· ≤ ·)) {a b : α} (hab : a ≤ b) :
    List.Forall₂ (· ≤ ·) (s.orderedInsert (· ≤ ·) a) (t.orderedInsert (· ≤ ·) b) := by
  induction h generalizing a b with
  | nil => exact List.Forall₂.cons hab List.Forall₂.nil
  | @cons c d s t hcd hst ih =>
    obtain ⟨hcs, hs⟩ := List.pairwise_cons.1 hs
    obtain ⟨hdt, ht⟩ := List.pairwise_cons.1 ht
    rw [List.orderedInsert_cons, List.orderedInsert_cons]
    split
    · rename_i hac
      split
      · exact List.Forall₂.cons hab (List.Forall₂.cons hcd hst)
      · rename_i hdb
        have hrest := ih hs ht (hcd.trans (le_of_not_ge hdb))
        rw [orderedInsert_least hcs] at hrest
        exact List.Forall₂.cons (hac.trans hcd) hrest
    · rename_i hca
      split
      · rename_i hbd
        have hrest := ih hs ht (hab.trans hbd)
        rw [orderedInsert_least hdt] at hrest
        exact List.Forall₂.cons ((le_of_not_ge hca).trans hab) hrest
      · exact List.Forall₂.cons hcd (ih hs ht hab)

/-- **Sorting keeps pointwise order.** -/
theorem insertionSort_forall₂ {s t : List α} (h : List.Forall₂ (· ≤ ·) s t) :
    List.Forall₂ (· ≤ ·) (s.insertionSort (· ≤ ·)) (t.insertionSort (· ≤ ·)) := by
  induction h with
  | nil => exact List.Forall₂.nil
  | cons hab _ ih =>
    exact orderedInsert_forall₂ ih (List.pairwise_insertionSort _ _) (List.pairwise_insertionSort _ _) hab

theorem insertionSort_perm {s t : List α} (h : s.Perm t) : s.insertionSort (· ≤ ·) = t.insertionSort (· ≤ ·) :=
  ((List.perm_insertionSort _ s).trans (h.trans (List.perm_insertionSort _ t).symm)).eq_of_pairwise'
    (List.pairwise_insertionSort _ s) (List.pairwise_insertionSort _ t)

end Sorting

/-! ## Ranks and quantiles -/

section Quantile

variable {K : Type} [Field K] [LinearOrder K] [IsStrictOrderedRing K] [FloorSemiring K]

/-- The entry of rank `i`, the largest one past the end. -/
def ranked (l : List K) (i : ℕ) : K := (l.insertionSort (· ≤ ·)).getD (min i (l.length - 1)) 0

/-- The quantile at `q`, linearly interpolated between ranks. -/
def quantile (l : List K) (q : K) : K := interpolate (ranked l) (q * ((l.length : K) - 1))

omit [IsStrictOrderedRing K] [FloorSemiring K] in
theorem ranked_eq {l : List K} (hl : l ≠ []) (i : ℕ) : ∃ h : min i (l.length - 1) < (l.insertionSort (· ≤ ·)).length,
    ranked l i = (l.insertionSort (· ≤ ·))[min i (l.length - 1)] := by
  have hpos := List.length_pos_of_ne_nil hl
  have h : min i (l.length - 1) < (l.insertionSort (· ≤ ·)).length := by
    rw [List.length_insertionSort]
    omega
  exact ⟨h, List.getD_eq_getElem _ _ h⟩

omit [IsStrictOrderedRing K] [FloorSemiring K] in
theorem ranked_mem {l : List K} (hl : l ≠ []) (i : ℕ) : ranked l i ∈ l := by
  obtain ⟨h, heq⟩ := ranked_eq hl i
  rw [heq]
  exact (List.mem_insertionSort _).1 (List.getElem_mem h)

omit [IsStrictOrderedRing K] [FloorSemiring K] in
theorem ranked_mono {l : List K} (hl : l ≠ []) : Monotone (ranked l) := by
  intro i j hij
  obtain ⟨hi, heqi⟩ := ranked_eq hl i
  obtain ⟨hj, heqj⟩ := ranked_eq hl j
  rw [heqi, heqj]
  exact (List.pairwise_insertionSort (· ≤ ·) l).rel_get_of_le (a := ⟨_, hi⟩) (b := ⟨_, hj⟩)
    (min_le_min_right (l.length - 1) hij)

omit [IsStrictOrderedRing K] [FloorSemiring K] in
theorem ranked_le {l m : List K} (h : List.Forall₂ (· ≤ ·) l m) (hl : l ≠ []) (i : ℕ) : ranked l i ≤ ranked m i := by
  have hm : m ≠ [] := fun hnil => hl (List.forall₂_nil_right_iff.1 (hnil ▸ h))
  obtain ⟨hi, heqi⟩ := ranked_eq hl i
  obtain ⟨hj, heqj⟩ := ranked_eq hm i
  rw [heqi, heqj]
  simp only [← h.length_eq]
  exact (insertionSort_forall₂ h).get hi (by rwa [← h.length_eq] at hj)

theorem rank_nonneg {l : List K} (hl : l ≠ []) {q : K} (hq : 0 ≤ q) : 0 ≤ q * ((l.length : K) - 1) := by
  have hlen : (1 : K) ≤ l.length := by exact_mod_cast List.length_pos_of_ne_nil hl
  exact mul_nonneg hq (sub_nonneg.2 hlen)

/-- **A quantile is between two entries of the list.** -/
theorem quantile_mem {l : List K} (hl : l ≠ []) {q : K} (hq : 0 ≤ q) :
    (∃ x ∈ l, x ≤ quantile l q) ∧ ∃ x ∈ l, quantile l q ≤ x := by
  obtain ⟨hlow, hhigh⟩ := interpolate_bounds (ranked_mono hl) (rank_nonneg hl hq)
  exact ⟨⟨_, ranked_mem hl _, hlow⟩, ⟨_, ranked_mem hl _, hhigh⟩⟩

/-- **Quantiles ascend with the position.** -/
theorem quantile_mono {l : List K} (hl : l ≠ []) {q r : K} (hq : 0 ≤ q) (hqr : q ≤ r) : quantile l q ≤ quantile l r := by
  have hlen : (0 : K) ≤ (l.length : K) - 1 := by
    have h : (1 : K) ≤ l.length := by exact_mod_cast List.length_pos_of_ne_nil hl
    exact sub_nonneg.2 h
  exact interpolate_mono (ranked_mono hl) (rank_nonneg hl hq) (mul_le_mul_of_nonneg_right hqr hlen)

/-- **Quantiles ascend with the entries.** -/
theorem quantile_le {l m : List K} (h : List.Forall₂ (· ≤ ·) l m) (hl : l ≠ []) {q : K} (hq : 0 ≤ q) :
    quantile l q ≤ quantile m q := by
  unfold quantile
  rw [← h.length_eq]
  exact interpolate_le (ranked_le h hl) (rank_nonneg hl hq)

omit [IsStrictOrderedRing K] in
/-- **Quantiles do not depend on the order of the list.** -/
theorem quantile_perm {l m : List K} (h : l.Perm m) (q : K) : quantile l q = quantile m q := by
  have hranked : ranked l = ranked m := by
    funext i
    rw [ranked, ranked, insertionSort_perm h, h.length_eq]
  rw [quantile, quantile, hranked, h.length_eq]

end Quantile

end OrderStatistics
