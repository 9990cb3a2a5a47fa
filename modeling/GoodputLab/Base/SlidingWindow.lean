import Mathlib
/-!
# SlidingWindow — the last entries of a growing series

A bounded queue that drops its oldest entry holds the last `n` entries of the series it was fed (`slide_rtake`).
`Falls n m l k` says that among the first `k` entries of `l` some full window has a mean below `m`.  Two series have the
same falls and, until then, the same window means exactly when they agree entry by entry until the fall and the last entry
makes the other one fall too (`same_falls_iff`).
-/

namespace SlidingWindow

variable {α : Type}

/-- A queue of at most `n` entries takes one more. -/
def slide (n : Nat) (w : List α) (x : α) : List α := (w ++ [x]).rtake n

theorem slide_rtake (n : Nat) (l : List α) (x : α) : slide n (l.rtake n) x = (l ++ [x]).rtake n := by
  cases n with
  | zero => simp [slide]
  | succ n =>
    rw [slide, List.rtake_concat_succ, List.rtake_concat_succ]
    simp only [List.rtake, List.drop_drop, List.length_drop]
    congr 2
    omega

theorem rtake_take_succ {n k : Nat} {l : List α} (hn : 0 < n) (hk : k < l.length) :
    (l.take (k + 1)).rtake n = (l.take k).rtake (n - 1) ++ [l[k]] := by
  obtain ⟨j, rfl⟩ := Nat.exists_eq_succ_of_ne_zero (Nat.pos_iff_ne_zero.1 hn)
  rw [List.take_succ_eq_append_getElem hk]
  exact List.rtake_concat_succ _ _ _

theorem length_rtake (n : Nat) (l : List α) : (l.rtake n).length = min n l.length := by
  rw [List.rtake, List.length_drop]
  omega

theorem map_rtake {β : Type} (f : α → β) (n : Nat) (l : List α) : (l.rtake n).map f = (l.map f).rtake n := by
  rw [List.rtake, List.rtake, List.map_drop, List.length_map]

variable [Field α] [LinearOrder α]

def mean (l : List α) : α := if l = [] then 0 else l.sum / l.length

def Falls (n : Nat) (m : α) (l : List α) (k : Nat) : Prop :=
  ∃ r, n ≤ r ∧ r ≤ k ∧ r ≤ l.length ∧ mean ((l.take r).rtake n) < m

theorem falls_mono {n : Nat} {m : α} {l : List α} {j k : Nat} (hjk : j ≤ k) (h : Falls n m l j) : Falls n m l k := by
  obtain ⟨r, hn, hr, hl, hlt⟩ := h
  exact ⟨r, hn, hr.trans hjk, hl, hlt⟩

/-- Whether a series has fallen by `k` is read off its first `k` entries. -/
theorem falls_take {n : Nat} {m : α} {l : List α} {k : Nat} : Falls n m (l.take k) k ↔ Falls n m l k := by
  constructor
  · rintro ⟨r, hn, hr, hl, hlt⟩
    rw [List.take_take, min_eq_left hr] at hlt
    rw [List.length_take] at hl
    exact ⟨r, hn, hr, hl.trans (min_le_right _ _), hlt⟩
  · rintro ⟨r, hn, hr, hl, hlt⟩
    refine ⟨r, hn, hr, ?_, ?_⟩
    · rw [List.length_take]
      exact le_min hr hl
    · rwa [List.take_take, min_eq_left hr]

theorem falls_congr {n : Nat} {m : α} {l l' : List α} {k : Nat} (h : l.take k = l'.take k) :
    Falls n m l k ↔ Falls n m l' k := by
  rw [← falls_take, h, falls_take]

/-- A series that falls at its next entry falls with the window ending there. -/
theorem falls_succ {n : Nat} {m : α} {l : List α} {k : Nat} :
    Falls n m l (k + 1) ↔
      Falls n m l k ∨ (n ≤ k + 1 ∧ k + 1 ≤ l.length ∧ mean ((l.take (k + 1)).rtake n) < m) := by
  constructor
  · rintro ⟨r, hn, hr, hl, hlt⟩
    rcases Nat.lt_or_ge k r with hkr | hkr
    · obtain rfl : r = k + 1 := by omega
      exact Or.inr ⟨hn, hl, hlt⟩
    · exact Or.inl ⟨r, hn, hkr, hl, hlt⟩
  · rintro (h | ⟨hn, hl, hlt⟩)
    · exact falls_mono (Nat.le_succ k) h
    · exact ⟨k + 1, hn, le_refl _, hl, hlt⟩

theorem falls_concat {n : Nat} {m : α} {l : List α} {x : α} :
    Falls n m (l ++ [x]) (l ++ [x]).length ↔
      Falls n m l l.length ∨ (n ≤ l.length + 1 ∧ mean ((l ++ [x]).rtake n) < m) := by
  have hlen : (l ++ [x]).length = l.length + 1 := by simp
  have hall : (l ++ [x]).take (l.length + 1) = l ++ [x] := List.take_of_length_le hlen.le
  have hbefore : Falls n m (l ++ [x]) l.length ↔ Falls n m l l.length := falls_congr (by simp)
  rw [hlen, falls_succ, hall, hbefore]
  simp

/-! ## Two series -/

theorem mean_concat_inj [IsStrictOrderedRing α] (w : List α) {x y : α} (h : mean (w ++ [x]) = mean (w ++ [y])) :
    x = y := by
  have hx : w ++ [x] ≠ [] := by simp
  have hy : w ++ [y] ≠ [] := by simp
  have hlen : ((w.length + 1 : Nat) : α) ≠ 0 := Nat.cast_ne_zero.2 (Nat.succ_ne_zero _)
  unfold mean at h
  rw [if_neg hx, if_neg hy, List.length_append, List.length_append, List.length_singleton, List.length_singleton,
    div_left_inj' hlen, List.sum_append, List.sum_append, List.sum_singleton, List.sum_singleton] at h
  exact add_left_cancel h

/-- Series with the same window means until the fall have the same entries until then. -/
theorem take_eq_of_means [IsStrictOrderedRing α] {n : Nat} (hn : 0 < n) {m : α} {l l' : List α}
    (hlen : l'.length = l.length)
    (h : ∀ k ≤ l.length, ¬ Falls n m l k → mean ((l'.take k).rtake n) = mean ((l.take k).rtake n)) :
    ∀ k ≤ l.length, ¬ Falls n m l k → l'.take k = l.take k := by
  intro k
  induction k with
  | zero => intro _ _; simp
  | succ k ih =>
    intro hk hno
    have hk' : k < l'.length := by omega
    have hbefore := ih (by omega) (fun hf => hno (falls_mono (Nat.le_succ k) hf))
    have hmean := h (k + 1) hk hno
    rw [rtake_take_succ hn hk', rtake_take_succ hn hk, hbefore] at hmean
    rw [List.take_succ_eq_append_getElem hk', List.take_succ_eq_append_getElem hk, hbefore, mean_concat_inj _ hmean]

theorem take_eq_of_entries {n : Nat} {m : α} {l l' : List α} (hlen : l'.length = l.length)
    (h : ∀ k (hk : k < l.length), ¬ Falls n m l (k + 1) → l'[k] = l[k]) :
    ∀ k ≤ l.length, ¬ Falls n m l k → l'.take k = l.take k := by
  intro k
  induction k with
  | zero => intro _ _; simp
  | succ k ih =>
    intro hk hno
    have hk' : k < l'.length := by omega
    have hearly : ¬ Falls n m l k := fun hf => hno (falls_mono (Nat.le_succ k) hf)
    rw [List.take_succ_eq_append_getElem hk', List.take_succ_eq_append_getElem hk, ih (by omega) hearly, h k hk hno]

/-- A series whose window falls at the first fall of `l` falls wherever `l` does. -/
theorem falls_of_window {n : Nat} (hn : 0 < n) {m : α} {l l' : List α} (hlen : l'.length = l.length)
    (htake : ∀ k ≤ l.length, ¬ Falls n m l k → l'.take k = l.take k)
    (h : ∀ k (hk : k < l.length), ¬ Falls n m l k → Falls n m l (k + 1) →
      mean ((l.take k).rtake (n - 1) ++ [l'[k]]) < m) :
    ∀ k ≤ l.length, Falls n m l k → Falls n m l' k := by
  intro k
  induction k with
  | zero =>
    rintro - ⟨r, hr, hr0, -⟩
    omega
  | succ k ih =>
    intro hk hfall
    by_cases hearly : Falls n m l k
    · exact falls_mono (Nat.le_succ k) (ih (by omega) hearly)
    · have hk' : k < l'.length := by omega
      have hfull : n ≤ k + 1 := ((falls_succ.1 hfall).resolve_left hearly).1
      refine falls_succ.2 (Or.inr ⟨hfull, by omega, ?_⟩)
      rw [rtake_take_succ hn hk', htake k (by omega) hearly]
      exact h k hk hearly hfall

/-- **Two series with the same falls.**  `l'` falls exactly when `l` does, with the same window mean until then, exactly
when it has the entries of `l` before the fall and its own entry at the fall makes the window fall too. -/
theorem same_falls_iff [IsStrictOrderedRing α] {n : Nat} (hn : 0 < n) (m : α) (l l' : List α)
    (hlen : l'.length = l.length) :
    (∀ k ≤ l.length, (Falls n m l' k ↔ Falls n m l k) ∧
      (¬ Falls n m l k → mean ((l'.take k).rtake n) = mean ((l.take k).rtake n))) ↔
    ∀ k (hk : k < l.length), ¬ Falls n m l k →
      (¬ Falls n m l (k + 1) → l'[k] = l[k]) ∧
      (Falls n m l (k + 1) → mean ((l.take k).rtake (n - 1) ++ [l'[k]]) < m) := by
  constructor
  · intro h k hk hno
    have htake := take_eq_of_means hn hlen (fun j hj => (h j hj).2)
    have hk' : k < l'.length := by omega
    have hbefore := htake k hk.le hno
    constructor
    · intro hnext
      have hafter := htake (k + 1) hk hnext
      rw [List.take_succ_eq_append_getElem hk', List.take_succ_eq_append_getElem hk, hbefore] at hafter
      simpa using List.append_cancel_left hafter
    · intro hnext
      have hfall := (h (k + 1) hk).1.2 hnext
      rcases falls_succ.1 hfall with hearly | ⟨-, -, hlt⟩
      · exact absurd ((h k hk.le).1.1 hearly) hno
      · rw [rtake_take_succ hn hk', hbefore] at hlt
        exact hlt
  · intro h k hk
    have htake := take_eq_of_entries hlen
      (fun j hj hnext => (h j hj (fun hf => hnext (falls_mono (Nat.le_succ j) hf))).1 hnext)
    have hfalls := falls_of_window hn hlen htake (fun j hj hno hnext => (h j hj hno).2 hnext)
    refine ⟨⟨fun hfall => ?_, hfalls k hk⟩, fun hno => by rw [htake k hk hno]⟩
    by_contra hno
    exact hno ((falls_congr (htake k hk hno)).1 hfall)

end SlidingWindow
