import Mathlib
/-!
# LeastSquares — averages, covariances and the least-squares line

`cov l x y` is the sum of the products of the deviations of two families over a list, so `cov l x x` is the sum of squares
that a least-squares fit divides by.  The residual sum of squares is what the line leaves of `cov l y y` (`residual_eq`),
so it lies between zero and it (`residual_nonneg`, `residual_le`).  The squares of any other line exceed it by what the two
lines differ in (`squares_eq`), so the least-squares line is the one that minimises them (`residual_le_squares`,
`line_unique`).  On a product grid the covariances factor (`cov_product_right`, `cov_product_self`), and a line through
`θ * (x + δ * g)` over `x = f * g` has a slope between `θ` and `θ * (1 + δ / avg f)` (`le_slope_product`,
`slope_product_le`).
-/

namespace LeastSquares

variable {ι κ K : Type} [Field K] [LinearOrder K] [IsStrictOrderedRing K]

def avg (l : List ι) (x : ι → K) : K := (l.map x).sum / l.length

def cov (l : List ι) (x y : ι → K) : K := (l.map (fun i => (x i - avg l x) * (y i - avg l y))).sum

section Cov

variable {l : List ι}

theorem length_pos (hl : l ≠ []) : (0 : K) < l.length := by
  exact_mod_cast List.length_pos_iff.2 hl

theorem sum_eq_avg (hl : l ≠ []) (x : ι → K) : (l.map x).sum = l.length * avg l x := by
  have hpos : (l.length : K) ≠ 0 := (length_pos hl).ne'
  unfold avg
  field_simp

/-- **The covariance is the sum of products less that of the averages.** -/
theorem cov_eq (hl : l ≠ []) (x y : ι → K) :
    cov l x y = (l.map (fun i => x i * y i)).sum - l.length * (avg l x * avg l y) := by
  have hterm : ∀ i, (x i - avg l x) * (y i - avg l y) =
      x i * y i + (x i * -avg l y + (-avg l x * y i + avg l x * avg l y)) := fun i => by ring
  unfold cov
  simp only [hterm]
  rw [List.sum_map_add, List.sum_map_add, List.sum_map_add, List.sum_map_mul_right, List.sum_map_mul_left,
    List.map_const', List.sum_replicate, nsmul_eq_mul, sum_eq_avg hl x, sum_eq_avg hl y]
  ring

omit [LinearOrder K] [IsStrictOrderedRing K] in
theorem avg_add (l : List ι) (x y : ι → K) : avg l (fun i => x i + y i) = avg l x + avg l y := by
  unfold avg
  rw [List.sum_map_add, add_div]

omit [LinearOrder K] [IsStrictOrderedRing K] in
theorem avg_mul (l : List ι) (c : K) (x : ι → K) : avg l (fun i => c * x i) = c * avg l x := by
  unfold avg
  rw [List.sum_map_mul_left, mul_div_assoc]

omit [LinearOrder K] [IsStrictOrderedRing K] in
theorem cov_add_right (l : List ι) (x y z : ι → K) : cov l x (fun i => y i + z i) = cov l x y + cov l x z := by
  unfold cov
  rw [avg_add, ← List.sum_map_add]
  refine congrArg List.sum (List.map_congr_left (fun i _ => ?_))
  ring

omit [LinearOrder K] [IsStrictOrderedRing K] in
theorem cov_mul_right (l : List ι) (c : K) (x y : ι → K) : cov l x (fun i => c * y i) = c * cov l x y := by
  unfold cov
  rw [avg_mul, ← List.sum_map_mul_left]
  refine congrArg List.sum (List.map_congr_left (fun i _ => ?_))
  ring

theorem cov_self_nonneg (l : List ι) (x : ι → K) : 0 ≤ cov l x x := by
  refine List.sum_nonneg (fun z hz => ?_)
  obtain ⟨i, -, rfl⟩ := List.mem_map.1 hz
  exact mul_self_nonneg _

/-- **Two different values spread.** -/
theorem cov_self_pos {x : ι → K} {i j : ι} (hi : i ∈ l) (hj : j ∈ l) (hne : x i ≠ x j) : 0 < cov l x x := by
  refine lt_of_le_of_ne (cov_self_nonneg l x) (fun hzero => hne ?_)
  have hall : ∀ k ∈ l, x k = avg l x := by
    intro k hk
    have hnonneg : ∀ z ∈ l.map (fun i => (x i - avg l x) * (x i - avg l x)), 0 ≤ z := by
      intro z hz
      obtain ⟨m, -, rfl⟩ := List.mem_map.1 hz
      exact mul_self_nonneg _
    have hle := List.single_le_sum hnonneg _ (List.mem_map.2 ⟨k, hk, rfl⟩)
    have hsq : (x k - avg l x) * (x k - avg l x) = 0 :=
      le_antisymm (hle.trans (le_of_eq hzero.symm)) (mul_self_nonneg _)
    exact sub_eq_zero.1 (mul_self_eq_zero.1 hsq)
  rw [hall i hi, hall j hj]

/-- **A family spreads just when it is not constant.** -/
theorem cov_self_eq_zero_iff (l : List ι) (x : ι → K) : cov l x x = 0 ↔ ∃ c, ∀ i ∈ l, x i = c := by
  constructor
  · intro h
    refine ⟨avg l x, fun i hi => ?_⟩
    by_contra hne
    have hsum := sum_eq_avg (List.ne_nil_of_mem hi) x
    have hall : ∀ j ∈ l, x j = x i := by
      intro j hj
      by_contra hji
      exact (cov_self_pos hj hi hji).ne' h
    rw [List.map_congr_left hall, List.map_const', List.sum_replicate, nsmul_eq_mul] at hsum
    exact hne (mul_left_cancel₀ (length_pos (List.ne_nil_of_mem hi)).ne' hsum)
  · rintro ⟨c, hc⟩
    rcases eq_or_ne l [] with rfl | hl
    · rfl
    · have havg : avg l x = c := by
        rw [avg, List.map_congr_left hc, List.map_const', List.sum_replicate, nsmul_eq_mul,
          mul_div_cancel_left₀ c (length_pos hl).ne']
      apply List.sum_eq_zero
      intro z hz
      obtain ⟨i, hi, rfl⟩ := List.mem_map.1 hz
      rw [hc i hi, havg, sub_self, mul_zero]

end Cov

/-! ## The line -/

def slope (l : List ι) (x y : ι → K) : K := cov l x y / cov l x x

def intercept (l : List ι) (x y : ι → K) : K := avg l y - slope l x y * avg l x

/-- The residual sum of squares. -/
def residual (l : List ι) (x y : ι → K) : K :=
  (l.map (fun i => (y i - (slope l x y * x i + intercept l x y)) ^ 2)).sum

theorem residual_nonneg (l : List ι) (x y : ι → K) : 0 ≤ residual l x y := by
  refine List.sum_nonneg (fun z hz => ?_)
  obtain ⟨i, -, rfl⟩ := List.mem_map.1 hz
  exact sq_nonneg _

omit [LinearOrder K] [IsStrictOrderedRing K] in
/-- **The line explains the square of the covariance.** -/
theorem residual_eq (l : List ι) {x : ι → K} (y : ι → K) (hx : cov l x x ≠ 0) :
    residual l x y = cov l y y - cov l x y ^ 2 / cov l x x := by
  have hterm : ∀ i, (y i - (slope l x y * x i + intercept l x y)) ^ 2 =
      (y i - avg l y) * (y i - avg l y) + (-2 * slope l x y * ((x i - avg l x) * (y i - avg l y)) +
        slope l x y ^ 2 * ((x i - avg l x) * (x i - avg l x))) := by
    intro i
    unfold intercept
    ring
  have hsum : residual l x y = cov l y y + (-2 * slope l x y * cov l x y + slope l x y ^ 2 * cov l x x) := by
    unfold residual
    simp only [hterm]
    rw [List.sum_map_add, List.sum_map_add, List.sum_map_mul_left, List.sum_map_mul_left]
    rfl
  rw [hsum]
  unfold slope
  field_simp
  ring

theorem residual_le (l : List ι) {x : ι → K} (y : ι → K) (hx : 0 < cov l x x) : residual l x y ≤ cov l y y := by
  rw [residual_eq l y hx.ne']
  exact sub_le_self _ (div_nonneg (sq_nonneg _) hx.le)

/-! ## The best line -/

/-- The sum of the squares that the line `a * x + b` leaves. -/
def squares (l : List ι) (x y : ι → K) (a b : K) : K := (l.map (fun i => (y i - (a * x i + b)) ^ 2)).sum

theorem sum_deviations {l : List ι} (hl : l ≠ []) (x : ι → K) : (l.map (fun i => x i - avg l x)).sum = 0 := by
  simp only [sub_eq_add_neg]
  rw [List.sum_map_add, List.map_const', List.sum_replicate, nsmul_eq_mul, sum_eq_avg hl]
  ring

/-- **The residuals cancel.** -/
theorem sum_residuals {l : List ι} (hl : l ≠ []) (x y : ι → K) :
    (l.map (fun i => y i - (slope l x y * x i + intercept l x y))).sum = 0 := by
  have hterm : ∀ i, y i - (slope l x y * x i + intercept l x y) =
      (y i - avg l y) + -slope l x y * (x i - avg l x) := by
    intro i
    unfold intercept
    ring
  simp only [hterm]
  rw [List.sum_map_add, List.sum_map_mul_left, sum_deviations hl, sum_deviations hl, mul_zero, add_zero]

/-- **What a line leaves over the least-squares line.** -/
theorem squares_eq {l : List ι} (hl : l ≠ []) {x : ι → K} (y : ι → K) (hx : cov l x x ≠ 0) (a b : K) :
    squares l x y a b =
      residual l x y + cov l x x * (a - slope l x y) ^ 2 + l.length * (avg l y - (a * avg l x + b)) ^ 2 := by
  have hterm : ∀ i, (y i - (a * x i + b)) ^ 2 =
      (y i - avg l y) * (y i - avg l y) + (-2 * a * ((x i - avg l x) * (y i - avg l y)) +
        (a ^ 2 * ((x i - avg l x) * (x i - avg l x)) + (2 * (avg l y - (a * avg l x + b)) * (y i - avg l y) +
          (-2 * a * (avg l y - (a * avg l x + b)) * (x i - avg l x) + (avg l y - (a * avg l x + b)) ^ 2)))) := by
    intro i
    ring
  have hsum : squares l x y a b = cov l y y + (-2 * a * cov l x y + (a ^ 2 * cov l x x +
      l.length * (avg l y - (a * avg l x + b)) ^ 2)) := by
    unfold squares
    simp only [hterm]
    rw [List.sum_map_add, List.sum_map_add, List.sum_map_add, List.sum_map_add, List.sum_map_add, List.sum_map_mul_left,
      List.sum_map_mul_left, List.sum_map_mul_left, List.sum_map_mul_left, sum_deviations hl, sum_deviations hl,
      List.map_const', List.sum_replicate, nsmul_eq_mul, mul_zero, mul_zero, zero_add, zero_add]
    rfl
  rw [hsum, residual_eq l y hx]
  unfold slope
  field_simp
  ring

/-- **No line leaves less than the least-squares line.** -/
theorem residual_le_squares {l : List ι} (hl : l ≠ []) {x : ι → K} (y : ι → K) (hx : 0 < cov l x x) (a b : K) :
    residual l x y ≤ squares l x y a b := by
  have hslope := mul_nonneg hx.le (sq_nonneg (a - slope l x y))
  have hlevel := mul_nonneg (length_pos hl).le (sq_nonneg (avg l y - (a * avg l x + b)))
  rw [squares_eq hl y hx.ne']
  linarith

/-- **It is the only line that leaves so little.** -/
theorem line_unique {l : List ι} (hl : l ≠ []) {x : ι → K} (y : ι → K) (hx : 0 < cov l x x) {a b : K}
    (h : squares l x y a b ≤ residual l x y) : a = slope l x y ∧ b = intercept l x y := by
  have hlength := length_pos (K := K) hl
  have hslope := mul_nonneg hx.le (sq_nonneg (a - slope l x y))
  have hlevel := mul_nonneg hlength.le (sq_nonneg (avg l y - (a * avg l x + b)))
  rw [squares_eq hl y hx.ne'] at h
  have ha : (a - slope l x y) ^ 2 = 0 := by
    rcases mul_eq_zero.1 (le_antisymm (by linarith) hslope) with hzero | hzero
    · exact absurd hzero hx.ne'
    · exact hzero
  have hb : (avg l y - (a * avg l x + b)) ^ 2 = 0 := by
    rcases mul_eq_zero.1 (le_antisymm (by linarith) hlevel) with hzero | hzero
    · exact absurd hzero hlength.ne'
    · exact hzero
  have ha' : a = slope l x y := sub_eq_zero.1 (pow_eq_zero_iff two_ne_zero |>.1 ha)
  have hb' := sub_eq_zero.1 (pow_eq_zero_iff two_ne_zero |>.1 hb)
  refine ⟨ha', ?_⟩
  rw [intercept, ← ha', hb']
  ring

/-- The share of the second family's squares that the line explains. -/
def rSquared (l : List ι) (x y : ι → K) : K := if 0 < cov l y y then 1 - residual l x y / cov l y y else 0

theorem rSquared_mem (l : List ι) {x : ι → K} (y : ι → K) (hx : 0 < cov l x x) :
    0 ≤ rSquared l x y ∧ rSquared l x y ≤ 1 := by
  unfold rSquared
  split
  · rename_i hy
    have hle := div_le_one_of_le₀ (residual_le l y hx) hy.le
    have hnonneg := div_nonneg (residual_nonneg l x y) hy.le
    constructor <;> linarith
  · exact ⟨le_refl 0, zero_le_one⟩

/-- A second family that does not spread has no slope. -/
theorem slope_eq_zero (l : List ι) {x y : ι → K} (hx : 0 < cov l x x) (hy : cov l y y = 0) : slope l x y = 0 := by
  have hle := residual_nonneg l x y
  rw [residual_eq l y hx.ne', hy, zero_sub, Left.nonneg_neg_iff] at hle
  have hsq : cov l x y ^ 2 ≤ 0 := by
    by_contra hpos
    exact absurd hle (not_le.2 (div_pos (not_le.1 hpos) hx))
  have hzero : cov l x y = 0 := pow_eq_zero_iff two_ne_zero |>.1 (le_antisymm hsq (sq_nonneg _))
  rw [slope, hzero, zero_div]

/-! ## The order of the points -/

section Perm

variable {l l' : List ι}

omit [LinearOrder K] [IsStrictOrderedRing K] in
theorem avg_perm (h : l.Perm l') (x : ι → K) : avg l x = avg l' x := by
  rw [avg, avg, (h.map x).sum_eq, h.length_eq]

omit [LinearOrder K] [IsStrictOrderedRing K] in
theorem cov_perm (h : l.Perm l') (x y : ι → K) : cov l x y = cov l' x y := by
  rw [cov, cov, avg_perm h x, avg_perm h y]
  exact (h.map _).sum_eq

omit [LinearOrder K] [IsStrictOrderedRing K] in
theorem slope_perm (h : l.Perm l') (x y : ι → K) : slope l x y = slope l' x y := by
  rw [slope, slope, cov_perm h, cov_perm h]

omit [LinearOrder K] [IsStrictOrderedRing K] in
theorem intercept_perm (h : l.Perm l') (x y : ι → K) : intercept l x y = intercept l' x y := by
  rw [intercept, intercept, slope_perm h, avg_perm h x, avg_perm h y]

omit [LinearOrder K] [IsStrictOrderedRing K] in
theorem residual_perm (h : l.Perm l') (x y : ι → K) : residual l x y = residual l' x y := by
  rw [residual, residual, slope_perm h, intercept_perm h]
  exact (h.map _).sum_eq

omit [IsStrictOrderedRing K] in
theorem rSquared_perm (h : l.Perm l') (x y : ι → K) : rSquared l x y = rSquared l' x y := by
  rw [rSquared, rSquared, cov_perm h, residual_perm h]

end Perm

/-! ## Product grids -/

section Product

variable {t : List ι} {b : List κ} {f : ι → K} {g : κ → K}

omit [LinearOrder K] [IsStrictOrderedRing K] in
theorem sum_product (f : ι → K) (g : κ → K) (b : List κ) : ∀ t : List ι,
    ((t ×ˢ b).map (fun p => f p.1 * g p.2)).sum = (t.map f).sum * (b.map g).sum
  | [] => by simp
  | i :: t => by
    have hrow : ((b.map (Prod.mk i)).map (fun p => f p.1 * g p.2)).sum = f i * (b.map g).sum := by
      rw [List.map_map, ← List.sum_map_mul_left]
      rfl
    rw [List.product_cons, List.map_append, List.sum_append, hrow, sum_product f g b t, List.map_cons, List.sum_cons,
      add_mul]

omit [LinearOrder K] [IsStrictOrderedRing K] in
theorem avg_product (t : List ι) (b : List κ) (f : ι → K) (g : κ → K) :
    avg (t ×ˢ b) (fun p => f p.1 * g p.2) = avg t f * avg b g := by
  unfold avg
  rw [sum_product, List.length_product, Nat.cast_mul, mul_div_mul_comm]

theorem avg_one {l : List ι} (hl : l ≠ []) : avg l (fun _ => (1 : K)) = 1 := by
  unfold avg
  rw [List.map_const', List.sum_replicate, nsmul_eq_mul, mul_one]
  exact div_self (length_pos hl).ne'

theorem avg_product_right (ht : t ≠ []) (b : List κ) (g : κ → K) : avg (t ×ˢ b) (fun p => g p.2) = avg b g := by
  have h := avg_product t b (fun _ => (1 : K)) g
  simp only [one_mul] at h
  rw [h, avg_one ht, one_mul]

theorem avg_product_left (t : List ι) (hb : b ≠ []) (f : ι → K) : avg (t ×ˢ b) (fun p => f p.1) = avg t f := by
  have h := avg_product t b f (fun _ => (1 : K))
  simp only [mul_one] at h
  rw [h, avg_one hb, mul_one]

theorem product_ne_nil (ht : t ≠ []) (hb : b ≠ []) : t ×ˢ b ≠ [] := by
  obtain ⟨i, hi⟩ := List.exists_mem_of_ne_nil t ht
  obtain ⟨j, hj⟩ := List.exists_mem_of_ne_nil b hb
  exact List.ne_nil_of_mem (List.pair_mem_product.2 ⟨hi, hj⟩)

theorem cov_product_right (ht : t ≠ []) (hb : b ≠ []) :
    cov (t ×ˢ b) (fun p => f p.1 * g p.2) (fun p => g p.2) = t.length * avg t f * cov b g g := by
  have hsum : ((t ×ˢ b).map (fun p => f p.1 * g p.2 * g p.2)).sum =
      (t.map f).sum * (b.map (fun j => g j * g j)).sum := by
    rw [← sum_product]
    refine congrArg List.sum (List.map_congr_left (fun p _ => ?_))
    ring
  rw [cov_eq (product_ne_nil ht hb), cov_eq hb, hsum, avg_product, avg_product_right ht, List.length_product,
    Nat.cast_mul, sum_eq_avg ht]
  ring

theorem cov_product_self (ht : t ≠ []) (hb : b ≠ []) :
    cov (t ×ˢ b) (fun p => f p.1 * g p.2) (fun p => f p.1 * g p.2) =
      cov b g g * (t.length * avg t f ^ 2) + (cov t f f * cov b g g + cov t f f * (b.length * avg b g ^ 2)) := by
  have hsum : ((t ×ˢ b).map (fun p => f p.1 * g p.2 * (f p.1 * g p.2))).sum =
      (t.map (fun i => f i * f i)).sum * (b.map (fun j => g j * g j)).sum := by
    rw [← sum_product]
    refine congrArg List.sum (List.map_congr_left (fun p _ => ?_))
    ring
  rw [cov_eq (product_ne_nil ht hb), cov_eq ht, cov_eq hb, hsum, avg_product, List.length_product, Nat.cast_mul]
  ring

theorem avg_pos {l : List ι} {x : ι → K} (hl : l ≠ []) (hx : ∀ i ∈ l, 0 < x i) : 0 < avg l x := by
  refine div_pos (List.sum_pos _ (fun z hz => ?_) (fun hnil => hl (List.map_eq_nil_iff.1 hnil))) (length_pos hl)
  obtain ⟨i, hi, rfl⟩ := List.mem_map.1 hz
  exact hx i hi

theorem le_avg {l : List ι} {x : ι → K} (hl : l ≠ []) {m : K} (hx : ∀ i ∈ l, m ≤ x i) : m ≤ avg l x := by
  have hsum := List.sum_le_sum hx
  rw [List.map_const', List.sum_replicate, nsmul_eq_mul] at hsum
  rwa [avg, le_div_iff₀ (length_pos hl), mul_comm]

/-- **A grid of positive values spreads when one of its sides does.** -/
theorem cov_product_pos (ht : t ≠ []) (hb : b ≠ []) (hf : ∀ i ∈ t, 0 < f i) (hg : ∀ j ∈ b, 0 < g j)
    (h : 0 < cov t f f ∨ 0 < cov b g g) :
    0 < cov (t ×ˢ b) (fun p => f p.1 * g p.2) (fun p => f p.1 * g p.2) := by
  have hvt := cov_self_nonneg t f
  have hvb := cov_self_nonneg b g
  have hnt : (0 : K) < t.length * avg t f ^ 2 := mul_pos (length_pos ht) (pow_pos (avg_pos ht hf) 2)
  have hnb : (0 : K) < b.length * avg b g ^ 2 := mul_pos (length_pos hb) (pow_pos (avg_pos hb hg) 2)
  rw [cov_product_self ht hb]
  rcases h with hpos | hpos
  · have := mul_pos hpos hnb
    positivity
  · have := mul_pos hpos hnt
    positivity

variable {θ δ : K}

omit [LinearOrder K] [IsStrictOrderedRing K] in
theorem slope_product (hx : cov (t ×ˢ b) (fun p => f p.1 * g p.2) (fun p => f p.1 * g p.2) ≠ 0) (θ δ : K) :
    slope (t ×ˢ b) (fun p => f p.1 * g p.2) (fun p => θ * (f p.1 * g p.2 + δ * g p.2)) =
      θ * (1 + δ * (cov (t ×ˢ b) (fun p => f p.1 * g p.2) (fun p => g p.2) /
        cov (t ×ˢ b) (fun p => f p.1 * g p.2) (fun p => f p.1 * g p.2))) := by
  unfold slope
  rw [cov_mul_right, cov_add_right, cov_mul_right]
  field_simp

theorem le_slope_product (ht : t ≠ []) (hb : b ≠ []) (hf : ∀ i ∈ t, 0 < f i)
    (hx : 0 < cov (t ×ˢ b) (fun p => f p.1 * g p.2) (fun p => f p.1 * g p.2)) (hθ : 0 ≤ θ) (hδ : 0 ≤ δ) :
    θ ≤ slope (t ×ˢ b) (fun p => f p.1 * g p.2) (fun p => θ * (f p.1 * g p.2 + δ * g p.2)) := by
  have hcov : 0 ≤ cov (t ×ˢ b) (fun p => f p.1 * g p.2) (fun p => g p.2) := by
    rw [cov_product_right ht hb]
    exact mul_nonneg (mul_nonneg (length_pos ht).le (avg_pos ht hf).le) (cov_self_nonneg b g)
  rw [slope_product hx.ne']
  exact le_mul_of_one_le_right hθ (le_add_of_nonneg_right (mul_nonneg hδ (div_nonneg hcov hx.le)))

/-- **The slope exceeds `θ` by at most the share of `δ` in the average.** -/
theorem slope_product_le (ht : t ≠ []) (hb : b ≠ []) (hf : ∀ i ∈ t, 0 < f i)
    (hx : 0 < cov (t ×ˢ b) (fun p => f p.1 * g p.2) (fun p => f p.1 * g p.2)) (hθ : 0 ≤ θ) (hδ : 0 ≤ δ) :
    slope (t ×ˢ b) (fun p => f p.1 * g p.2) (fun p => θ * (f p.1 * g p.2 + δ * g p.2)) ≤
      θ * (1 + δ / avg t f) := by
  have havg := avg_pos ht hf
  have hratio : cov (t ×ˢ b) (fun p => f p.1 * g p.2) (fun p => g p.2) /
      cov (t ×ˢ b) (fun p => f p.1 * g p.2) (fun p => f p.1 * g p.2) ≤ 1 / avg t f := by
    have hvt := cov_self_nonneg t f
    have hvb := cov_self_nonneg b g
    have hnb : (0 : K) ≤ b.length * avg b g ^ 2 := mul_nonneg (length_pos hb).le (sq_nonneg _)
    rw [div_le_div_iff₀ hx havg, one_mul, cov_product_right ht hb, cov_product_self ht hb]
    have hrest : 0 ≤ cov t f f * cov b g g + cov t f f * (b.length * avg b g ^ 2) :=
      add_nonneg (mul_nonneg hvt hvb) (mul_nonneg hvt hnb)
    linarith [show t.length * avg t f * cov b g g * avg t f = cov b g g * (t.length * avg t f ^ 2) by ring]
  rw [slope_product hx.ne']
  refine mul_le_mul_of_nonneg_left (add_le_add (le_refl 1) ?_) hθ
  rw [← mul_one_div δ]
  exact mul_le_mul_of_nonneg_left hratio hδ

end Product

end LeastSquares
