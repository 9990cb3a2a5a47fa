import Mathlib
/-!
# Rounding — `round` half to even and `int` toward zero

`roundHalfEven` takes the nearest integer, the even one at a midpoint; it keeps the order (`roundHalfEven_mono`) and the
integers (`roundHalfEven_intCast`), so it stays inside any interval with integer ends (`roundHalfEven_le`,
`le_roundHalfEven`), and it is zero from minus a half to a half (`roundHalfEven_pos_iff`, `roundHalfEven_neg_iff`).
`truncate` drops the fraction (`truncate_eq_iff`).  A ceiling of a quotient counts whole blocks (`ceil_div_mul`).
-/

variable {K : Type} [Field K] [LinearOrder K] [IsStrictOrderedRing K] [FloorRing K]

def roundHalfEven (x : K) : ℤ :=
  if Int.fract x < 1 / 2 then ⌊x⌋
  else if 1 / 2 < Int.fract x then ⌊x⌋ + 1
  else if ⌊x⌋ % 2 = 0 then ⌊x⌋ else ⌊x⌋ + 1

/-- `int(x)`: the integer part, toward zero. -/
def truncate (x : K) : ℤ := if 0 ≤ x then ⌊x⌋ else ⌈x⌉

omit [IsStrictOrderedRing K] in
theorem roundHalfEven_bounds (x : K) : ⌊x⌋ ≤ roundHalfEven x ∧ roundHalfEven x ≤ ⌊x⌋ + 1 := by
  unfold roundHalfEven
  split_ifs <;> omega

theorem roundHalfEven_intCast (k : ℤ) : roundHalfEven (k : K) = k := by
  have h : Int.fract (k : K) < 1 / 2 := by
    rw [Int.fract_intCast]
    norm_num
  unfold roundHalfEven
  rw [if_pos h, Int.floor_intCast]

/-- **Rounding half to even keeps the order.** -/
theorem roundHalfEven_mono {x y : K} (h : x ≤ y) : roundHalfEven x ≤ roundHalfEven y := by
  rcases (Int.floor_le_floor h).lt_or_eq with hlt | heq
  · have hx := (roundHalfEven_bounds x).2
    have hy := (roundHalfEven_bounds y).1
    omega
  · have hfr : Int.fract x ≤ Int.fract y := by
      have hx := Int.floor_add_fract x
      have hy := Int.floor_add_fract y
      rw [heq] at hx
      linarith
    unfold roundHalfEven
    rw [heq]
    split_ifs <;> first | omega | (exfalso; linarith)

theorem roundHalfEven_le {x : K} {k : ℤ} (h : x ≤ k) : roundHalfEven x ≤ k := by
  rw [← roundHalfEven_intCast (K := K) k]
  exact roundHalfEven_mono h

theorem le_roundHalfEven {x : K} {k : ℤ} (h : (k : K) ≤ x) : k ≤ roundHalfEven x := by
  rw [← roundHalfEven_intCast (K := K) k]
  exact roundHalfEven_mono h

/-- A half rounds to zero, all above it to something positive. -/
theorem roundHalfEven_pos_iff {x : K} : 0 < roundHalfEven x ↔ 1 / 2 < x := by
  constructor
  · intro h
    by_contra hle
    have hhalf : roundHalfEven (1 / 2 : K) = 0 := by
      have hfloor : ⌊(1 / 2 : K)⌋ = 0 := by
        rw [Int.floor_eq_iff]
        norm_num
      have hfract : Int.fract (1 / 2 : K) = 1 / 2 := by
        rw [Int.fract, hfloor, Int.cast_zero, sub_zero]
      unfold roundHalfEven
      rw [hfract, hfloor, if_neg (lt_irrefl _), if_neg (lt_irrefl _), if_pos (by decide)]
    have hmono := roundHalfEven_mono (not_lt.1 hle)
    omega
  · intro h
    by_cases hone : 1 ≤ x
    · exact lt_of_lt_of_le Int.zero_lt_one (le_roundHalfEven (by exact_mod_cast hone))
    · have hfloor : ⌊x⌋ = 0 := by
        rw [Int.floor_eq_iff]
        constructor
        · rw [Int.cast_zero]
          linarith
        · rw [Int.cast_zero]
          linarith [not_le.1 hone]
      have hfract : Int.fract x = x := by rw [Int.fract, hfloor, Int.cast_zero, sub_zero]
      unfold roundHalfEven
      rw [hfract, hfloor, if_neg (not_lt.2 h.le), if_pos h]
      exact Int.zero_lt_one

/-- Minus a half rounds to zero, all below it to something negative. -/
theorem roundHalfEven_neg_iff {x : K} : roundHalfEven x < 0 ↔ x < -(1 / 2) := by
  constructor
  · intro h
    by_contra hle
    have hhalf : roundHalfEven (-(1 / 2) : K) = 0 := by
      have hfloor : ⌊(-(1 / 2) : K)⌋ = -1 := by
        rw [Int.floor_eq_iff]
        norm_num
      have hfract : Int.fract (-(1 / 2) : K) = 1 / 2 := by
        rw [Int.fract, hfloor]
        norm_num
      unfold roundHalfEven
      rw [hfract, hfloor, if_neg (lt_irrefl _), if_neg (lt_irrefl _), if_neg (by decide)]
      rfl
    have hmono := roundHalfEven_mono (not_lt.1 hle)
    omega
  · intro h
    by_cases hone : x ≤ -1
    · exact lt_of_le_of_lt (roundHalfEven_le (k := -1) (by push_cast; exact hone)) (by decide)
    · have hfloor : ⌊x⌋ = -1 := by
        rw [Int.floor_eq_iff]
        push_cast
        constructor
        · linarith [not_le.1 hone]
        · linarith
      have hfract : Int.fract x = x + 1 := by
        rw [Int.fract, hfloor]
        push_cast
        ring
      unfold roundHalfEven
      rw [hfract, hfloor, if_pos (by linarith)]
      decide

/-- **Truncation takes an interval to each integer**: upward from a positive one, downward from a negative one, both ways
from zero. -/
theorem truncate_eq_iff (x : K) (t : ℤ) : truncate x = t ↔
    (0 ≤ t → x < t + 1) ∧ (0 < t → (t : K) ≤ x) ∧ (t ≤ 0 → (t : K) - 1 < x) ∧ (t < 0 → x ≤ t) := by
  have hneg : t < 0 → (t : K) ≤ -1 := fun h => by exact_mod_cast Int.le_sub_one_of_lt h
  have hpos : 0 < t → (1 : K) ≤ t := fun h => by exact_mod_cast h
  have hzero : t = 0 → (t : K) = 0 := fun h => by rw [h, Int.cast_zero]
  unfold truncate
  split
  · rename_i hx
    rw [Int.floor_eq_iff]
    constructor
    · rintro ⟨h₁, h₂⟩
      refine ⟨fun _ => h₂, fun _ => h₁, fun _ => by linarith, fun h => ?_⟩
      have := hneg h
      linarith
    · rintro ⟨h₁, h₂, -, h₄⟩
      rcases lt_trichotomy t 0 with h | h | h
      · have := hneg h
        have := h₄ h
        exfalso
        linarith
      · exact ⟨by rw [hzero h]; exact hx, h₁ h.ge⟩
      · exact ⟨h₂ h, h₁ h.le⟩
  · rename_i hx
    have hx := not_le.1 hx
    rw [Int.ceil_eq_iff]
    constructor
    · rintro ⟨h₁, h₂⟩
      refine ⟨fun _ => by linarith, fun h => ?_, fun _ => h₁, fun _ => h₂⟩
      have := hpos h
      linarith
    · rintro ⟨-, h₂, h₃, h₄⟩
      rcases lt_trichotomy t 0 with h | h | h
      · exact ⟨h₃ h.le, h₄ h⟩
      · exact ⟨h₃ h.le, by rw [hzero h]; exact hx.le⟩
      · have := hpos h
        have := h₂ h
        exfalso
        linarith

example : [roundHalfEven (1 / 2 : ℚ), roundHalfEven (3 / 2 : ℚ), roundHalfEven (-5 / 2 : ℚ)] = [0, 2, -2] := by
  decide +kernel

/-! ## Whole blocks -/

theorem ceil_div_mono {m n b : ℤ} (h : m ≤ n) (hb : 0 < b) : ⌈(m : ℚ) / b⌉ ≤ ⌈(n : ℚ) / b⌉ := by
  refine Int.ceil_le_ceil (div_le_div_of_nonneg_right ?_ ?_)
  · exact_mod_cast h
  · exact_mod_cast hb.le

theorem ceil_div_nonneg {n b : ℤ} (h : 0 ≤ n) (hb : 0 < b) : 0 ≤ ⌈(n : ℚ) / b⌉ := by
  refine Int.ceil_nonneg (div_nonneg ?_ ?_)
  · exact_mod_cast h
  · exact_mod_cast hb.le

/-- **`n` rounded up to whole blocks of `b`.** -/
theorem ceil_div_mul (n : ℤ) {b : ℤ} (hb : 0 < b) : ⌈(n : ℚ) / b⌉ * b = n + (-n) % b := by
  obtain ⟨m, rfl⟩ := Int.eq_ofNat_of_zero_le hb.le
  have hdiv := Int.mul_ediv_add_emod (-n) m
  rw [Int.cast_natCast, Rat.ceil_intCast_div_natCast, neg_mul, mul_comm]
  omega

theorem le_ceil_div_mul (n : ℤ) {b : ℤ} (hb : 0 < b) : n ≤ ⌈(n : ℚ) / b⌉ * b := by
  have h := ceil_div_mul n hb
  have hmod := Int.emod_nonneg (-n) hb.ne'
  omega

theorem ceil_div_mul_lt (n : ℤ) {b : ℤ} (hb : 0 < b) : ⌈(n : ℚ) / b⌉ * b < n + b := by
  have h := ceil_div_mul n hb
  have hmod := Int.emod_lt_of_pos (-n) hb
  omega
