import Mathlib
/-!
# Renewal — the arrivals of a stream of waiting times, window by window

A window opened at draw `p` takes the arrivals that fall inside its length; the draw that passes its end is spent, and
the next window opens at the draw after it.  `Fills` says how many arrivals each window of a list takes, and `arrivals`
what they are: a shorter window takes the first of them (`filter_arrivals`).
-/
namespace Renewal

variable {K : Type} [AddCommMonoid K] [LinearOrder K] [IsOrderedCancelAddMonoid K]

/-- The time that `k` draws take, from draw `p` on. -/
def elapsed (draws : Nat → K) (p k : Nat) : K := ∑ j ∈ Finset.range k, draws (p + j)

omit [LinearOrder K] [IsOrderedCancelAddMonoid K] in
@[simp] theorem elapsed_zero (draws : Nat → K) (p : Nat) : elapsed draws p 0 = 0 := rfl

omit [LinearOrder K] [IsOrderedCancelAddMonoid K] in
theorem elapsed_succ (draws : Nat → K) (p k : Nat) : elapsed draws p (k + 1) = draws p + elapsed draws (p + 1) k := by
  rw [elapsed, Finset.sum_range_succ', add_comm]
  refine congrArg (fun x => draws p + x) (Finset.sum_congr rfl (fun j _ => ?_))
  rw [Nat.add_assoc, Nat.add_comm 1 j]

theorem elapsed_nonneg {draws : Nat → K} (h : ∀ i, 0 < draws i) (p k : Nat) : 0 ≤ elapsed draws p k :=
  Finset.sum_nonneg (fun j _ => (h (p + j)).le)

/-- The window takes `n` arrivals: the next one is at or past its end. -/
def Takes (draws : Nat → K) (length : K) (p n : Nat) : Prop :=
  elapsed draws p n < length ∧ length ≤ elapsed draws p (n + 1)

/-- Windows of these lengths, opened one after another from draw `p` on, take these numbers of arrivals. -/
def Fills (draws : Nat → K) : List K → Nat → List Nat → Prop
  | [], _, counts            => counts = []
  | length :: lengths, p, counts =>
    ∃ n rest, counts = n :: rest ∧ Takes draws length p n ∧ Fills draws lengths (p + n + 1) rest

/-- The arrivals of a window that opens at `start`, with draw `p`, and takes `n`. -/
def arrivals (draws : Nat → K) : K → Nat → Nat → List K
  | _, _, 0         => []
  | start, p, n + 1 => (start + draws p) :: arrivals draws (start + draws p) (p + 1) n

section Arrivals

variable {draws : Nat → K}

omit [LinearOrder K] [IsOrderedCancelAddMonoid K] in
@[simp] theorem length_arrivals : ∀ (start : K) (p n : Nat), (arrivals draws start p n).length = n
  | _, _, 0         => rfl
  | start, p, n + 1 => by simp [arrivals, length_arrivals]

variable (hpos : ∀ i, 0 < draws i)

include hpos

theorem next_le_of_mem_arrivals : ∀ {n p : Nat} {start t : K}, t ∈ arrivals draws start p n → start + draws p ≤ t
  | 0, _, _, _, h => by cases h
  | n + 1, p, start, t, h => by
    rcases List.mem_cons.1 h with rfl | h
    · exact le_refl _
    · exact (le_add_of_nonneg_right (hpos (p + 1)).le).trans (next_le_of_mem_arrivals h)

theorem lt_of_mem_arrivals {n p : Nat} {start t : K} (h : t ∈ arrivals draws start p n) : start < t :=
  (lt_add_of_pos_right start (hpos p)).trans_le (next_le_of_mem_arrivals hpos h)

theorem le_of_mem_arrivals : ∀ {n p : Nat} {start t : K}, t ∈ arrivals draws start p n → t ≤ start + elapsed draws p n
  | 0, _, _, _, h => by cases h
  | n + 1, p, start, t, h => by
    rw [elapsed_succ, ← add_assoc]
    rcases List.mem_cons.1 h with rfl | h
    · exact le_add_of_nonneg_right (elapsed_nonneg hpos (p + 1) n)
    · exact le_of_mem_arrivals h

theorem arrivals_increasing : ∀ (n p : Nat) (start : K), (arrivals draws start p n).Pairwise (· < ·)
  | 0, _, _ => List.Pairwise.nil
  | n + 1, p, _ => List.pairwise_cons.2 ⟨fun _ h => lt_of_mem_arrivals hpos h, arrivals_increasing n (p + 1) _⟩

theorem elapsed_strictMono (p : Nat) : StrictMono (elapsed draws p) := by
  apply strictMono_nat_of_lt_succ
  intro k
  rw [elapsed, elapsed, Finset.sum_range_succ]
  exact lt_add_of_pos_right _ (hpos _)

/-- A shorter window takes no more. -/
theorem takes_le {length length' : K} {p m n : Nat} (hle : length' ≤ length) (hm : Takes draws length' p m)
    (hn : Takes draws length p n) : m ≤ n :=
  Nat.lt_succ_iff.1 ((elapsed_strictMono hpos p).lt_iff_lt.1 ((hm.1.trans_le hle).trans_le hn.2))

/-- **A window takes one number of arrivals only.** -/
theorem takes_unique {length : K} {p m n : Nat} (hm : Takes draws length p m) (hn : Takes draws length p n) : m = n :=
  le_antisymm (takes_le hpos (le_refl _) hm hn) (takes_le hpos (le_refl _) hn hm)

omit [IsOrderedCancelAddMonoid K] hpos in
/-- A window that is not longer than what some draws take ends with one of them. -/
theorem exists_takes {length : K} {p n : Nat} (hopen : 0 < length) (hends : length ≤ elapsed draws p (n + 1)) :
    ∃ m, m ≤ n ∧ Takes draws length p m := by
  classical
  have hex : ∃ m, length ≤ elapsed draws p (m + 1) := ⟨n, hends⟩
  refine ⟨Nat.find hex, Nat.find_min' hex hends, ?_, Nat.find_spec hex⟩
  cases hm : Nat.find hex with
  | zero => rwa [elapsed_zero]
  | succ m =>
    apply not_le.1
    exact Nat.find_min hex (hm ▸ Nat.lt_succ_self m)

/-- **The arrivals before an instant** are the first ones, up to the draw that passes it. -/
theorem filter_arrivals : ∀ {n m p : Nat} {start c : K}, m ≤ n → start + elapsed draws p m < c →
    c ≤ start + elapsed draws p (m + 1) →
      (arrivals draws start p n).filter (fun t => decide (t < c)) = arrivals draws start p m
  | n, 0, p, start, c, _, _, hle => by
    rw [elapsed_succ, elapsed_zero, add_zero] at hle
    apply List.filter_eq_nil_iff.2
    intro t ht
    have := hle.trans (next_le_of_mem_arrivals hpos ht)
    simp [this]
  | n + 1, m + 1, p, start, c, hmn, hlt, hle => by
    rw [elapsed_succ, ← add_assoc] at hlt hle
    have hhead : start + draws p < c := (le_add_of_nonneg_right (elapsed_nonneg hpos (p + 1) m)).trans_lt hlt
    have hrest := filter_arrivals (Nat.le_of_succ_le_succ hmn) hlt hle
    simp [arrivals, hhead, hrest]

theorem fills_unique : ∀ {lengths : List K} {p : Nat} {counts counts' : List Nat}, Fills draws lengths p counts →
    Fills draws lengths p counts' → counts = counts'
  | [], _, _, _, h, h' => h.trans h'.symm
  | _ :: _, _, _, _, ⟨n, rest, rfl, htakes, hrest⟩, ⟨n', rest', rfl, htakes', hrest'⟩ => by
    obtain rfl := takes_unique hpos htakes htakes'
    rw [fills_unique hrest hrest']

end Arrivals

end Renewal
