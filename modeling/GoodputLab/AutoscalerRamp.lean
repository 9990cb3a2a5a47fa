import GoodputLab.AutoscalerLive
/-!
# AutoscalerRamp — the live autoscaler answers a sustained load (`scripts/autoscaler_live.py`)

While the waiting queue stays above its target, or an idle one below it, the controller may first have to unwind its
integral, decide the wrong way meanwhile, and wait out its dwell time after each flip.  `patience` prices all of these in
seconds, and each tick short of the bound takes at least its own duration off it (`patience_tick`), so the replica count
reaches the bound in time (`pressed_reaches_bound`).
-/
namespace GoodputLab
namespace AutoscalerLive

open PoolAutoscaler (PoolView wanted gate clampDelta mapOutput within)

/-- A load that asks for more replicas, or for fewer. -/
inductive Press
  | overload | idle
deriving DecidableEq

def Press.sign : Press → Int
  | .overload => 1
  | .idle     => -1

/-- The replica count at the end of the press. -/
def Press.bound : Press → Int
  | .overload => 8
  | .idle     => 1

/-- A turn that found the queue above its target, or below it and nothing running. -/
def Pressed (parser : BodyParser) (config : Config) (press : Press) (r : Reading) : Prop :=
  ∃ waiting running, r.signal parser = .ok (waiting, running) ∧ 1 ≤ press.sign * (waiting - config.targetQueueDepth) ∧
    (press = .idle → running ≤ 0)

/-- Between two turns the loop sleeps for a tick. -/
def Paced (config : Config) (l : List (Phase × Reading)) : Prop :=
  l.IsChain (fun x y => x.2.now + config.tickS ≤ y.2.now)

theorem Paced.le_of_append {config : Config} {before later : List (Phase × Reading)} {y : Phase × Reading}
    (htick : 0 < config.tickS) (h : Paced config (before ++ y :: later)) : ∀ x ∈ before, x.2.now ≤ y.2.now := by
  have hmono : ((before ++ y :: later).map (fun x => x.2.now)).IsChain (· ≤ ·) :=
    (List.isChain_map _).2 (List.IsChain.imp (fun x y hxy => le_trans (by linarith) hxy) h)
  rw [List.isChain_iff_pairwise, List.pairwise_map, List.pairwise_append] at hmono
  exact fun x hx => hmono.2.2 x hx y List.mem_cons_self

/-! ## The controller under an error of one sign -/

theorem Tuned.unclamped {c : PidController} (h : Tuned c) (error dt : ℚ) :
    c.unclamped error dt = 8 / 100 * error + 1 / 100 * (c.integral + error * dt) := by
  unfold PidController.unclamped
  rw [h.gains]
  cases c.prevError <;> simp [PidController.deployedPid, PidController.fresh]

theorem Tuned.integral_bounds {c : PidController} (h : Tuned c) : -100 ≤ c.integral ∧ c.integral ≤ 100 := by
  obtain ⟨hlo, hhi⟩ := h.window
  rw [h.gains, h.outMin] at hlo
  rw [h.gains, h.outMax] at hhi
  simp only [PidController.deployedPid, PidController.fresh] at hlo hhi
  constructor <;> linarith

theorem Tuned.next_integral {c : PidController} (h : Tuned c) (error dt : ℚ) :
    (c.next error dt).integral =
      if -1 ≤ c.unclamped error dt ∧ c.unclamped error dt ≤ 1 then c.integral + error * dt else c.integral := by
  rw [← h.outMin, ← h.outMax]
  rfl

/-- **Under an error of the press's sign the integral moves with the press**, by the duration at least while the output
asks for no flip that way; it leaves its far half only once the output does. -/
theorem integral_pressed {c : PidController} (h : Tuned c) (press : Press) {error dt : ℚ} (hdt : 0 < dt)
    (herror : 1 ≤ press.sign * error) :
    press.sign * c.integral ≤ press.sign * (c.next error dt).integral ∧
    (press.sign * c.unclamped error dt ≤ 1 / 2 →
      press.sign * c.integral + dt ≤ press.sign * (c.next error dt).integral ∧
        press.sign * (c.next error dt).integral ≤ 50) ∧
    (press.sign * c.unclamped error dt < -(1 / 2) → press.sign * (c.next error dt).integral ≤ -50) := by
  have hunc := h.unclamped error dt
  obtain ⟨hlo, hhi⟩ := h.integral_bounds
  rw [h.next_integral]
  cases press with
  | overload =>
    simp only [Press.sign, Int.cast_one, one_mul] at herror ⊢
    have hrise : dt ≤ error * dt := by nlinarith
    refine ⟨?_, fun hquiet => ?_, fun haway => ?_⟩
    · split <;> linarith
    · rw [if_pos ⟨by linarith, by linarith⟩]
      constructor <;> linarith
    · rw [if_pos ⟨by linarith, by linarith⟩]
      linarith
  | idle =>
    simp only [Press.sign, Int.cast_neg, Int.cast_one, neg_mul, one_mul] at herror ⊢
    have hrise : dt ≤ -(error * dt) := by nlinarith
    refine ⟨?_, fun hquiet => ?_, fun haway => ?_⟩
    · split <;> linarith
    · rw [if_pos ⟨by linarith, by linarith⟩]
      constructor <;> linarith
    · rw [if_pos ⟨by linarith, by linarith⟩]
      linarith

/-! ## The delta under a press -/

theorem Tuned.mapOutput_eq {c : PidController} (h : Tuned c) (raw : ℚ) : mapOutput c raw 1 = roundHalfEven raw := by
  unfold mapOutput
  rw [h.outMin, h.outMax]
  norm_num

/-- The step the controller's output rounds to. -/
def stepOf (c : PidController) (error dt : ℚ) : Int := mapOutput c (c.clamp (c.unclamped error dt)) 1

theorem stepOf_bounds (c : PidController) (error dt : ℚ) : -1 ≤ stepOf c error dt ∧ stepOf c error dt ≤ 1 :=
  PoolAutoscaler.mapOutput_bounds c _ 1 zero_le_one (le_max_left _ _) (max_le c.outLt.le (min_le_left _ _))

theorem stepOf_pos_iff {c : PidController} (h : Tuned c) (error dt : ℚ) :
    0 < stepOf c error dt ↔ 1 / 2 < c.unclamped error dt := by
  have hcap : (1 : ℚ) / 2 < 1 := by norm_num
  have hfloor : ¬ (1 : ℚ) / 2 < -1 := by norm_num
  rw [stepOf, h.mapOutput_eq, roundHalfEven_pos_iff, PidController.clamp, h.outMin, h.outMax, lt_max_iff, lt_min_iff]
  simp only [hcap, hfloor, true_and, false_or]

theorem stepOf_neg_iff {c : PidController} (h : Tuned c) (error dt : ℚ) :
    stepOf c error dt < 0 ↔ c.unclamped error dt < -(1 / 2) := by
  have hcap : ¬ (1 : ℚ) < -(1 / 2) := by norm_num
  have hfloor : (-1 : ℚ) < -(1 / 2) := by norm_num
  rw [stepOf, h.mapOutput_eq, roundHalfEven_neg_iff, PidController.clamp, h.outMin, h.outMax, max_lt_iff, min_lt_iff]
  simp only [hfloor, hcap, true_and, false_or]

/-- What the output asks for: a step with the press, none, or a step against it. -/
theorem stepOf_cases {c : PidController} (h : Tuned c) (press : Press) (error dt : ℚ) :
    (1 / 2 < press.sign * c.unclamped error dt ∧ stepOf c error dt = press.sign) ∨
    (press.sign * c.unclamped error dt ≤ 1 / 2 ∧ stepOf c error dt = 0) ∨
    (press.sign * c.unclamped error dt < -(1 / 2) ∧ stepOf c error dt = -press.sign) := by
  have hpos := stepOf_pos_iff h error dt
  have hneg := stepOf_neg_iff h error dt
  obtain ⟨hlo, hhi⟩ := stepOf_bounds c error dt
  have hval : stepOf c error dt = 1 ∨ stepOf c error dt = 0 ∨ stepOf c error dt = -1 := by omega
  cases press with
  | overload =>
    simp only [Press.sign, Int.cast_one, one_mul]
    rcases hval with hv | hv | hv
    · exact Or.inl ⟨hpos.1 (by omega), hv⟩
    · exact Or.inr (Or.inl ⟨not_lt.1 (fun hlt => by have := hpos.2 hlt; omega), hv⟩)
    · exact Or.inr (Or.inr ⟨hneg.1 (by omega), hv⟩)
  | idle =>
    simp only [Press.sign, Int.cast_neg, Int.cast_one, neg_mul, one_mul, neg_neg]
    rcases hval with hv | hv | hv
    · exact Or.inr (Or.inr ⟨by have := hpos.1 (by omega); linarith, hv⟩)
    · refine Or.inr (Or.inl ⟨?_, hv⟩)
      by_contra hlt
      have := hneg.2 (by linarith)
      omega
    · exact Or.inl ⟨by have := hneg.1 (by omega); linarith, hv⟩

/-- What the gates leave of a delta. -/
theorem gate_delta_cases (config : AutoscalerConfig) (last : Option ℚ) (now : ℚ) (pool : Pool) (inFlight : Nat)
    (delta : Int) :
    (gate config last now pool inFlight delta).delta = delta ∨
    ((gate config last now pool inFlight delta).delta = 0 ∧ delta < 0 ∧ 0 < inFlight) ∨
    ((gate config last now pool inFlight delta).delta = 0 ∧ within config.minDwellS last now = true) := by
  unfold gate
  split_ifs with hdrain hdwell
  · exact Or.inr (Or.inl ⟨rfl, hdrain⟩)
  · exact Or.inr (Or.inr ⟨rfl, hdwell.2.2⟩)
  all_goals exact Or.inl rfl

/-- The bounds let a step through, except one out of them. -/
theorem clampDelta_live {minDwellS : ℚ} (hdwell : 0 ≤ minDwellS) (press : Press) {replicas : Int} (hmin : 1 ≤ replicas)
    (hmax : replicas ≤ 8) (hshort : replicas ≠ press.bound) :
    clampDelta (liveConfig minDwellS hdwell) replicas press.sign = press.sign ∧
    clampDelta (liveConfig minDwellS hdwell) replicas 0 = 0 ∧
    (clampDelta (liveConfig minDwellS hdwell) replicas (-press.sign) = -press.sign ∨
      clampDelta (liveConfig minDwellS hdwell) replicas (-press.sign) = 0) := by
  unfold clampDelta liveConfig
  cases press <;> simp only [Press.sign, Press.bound] at hshort ⊢ <;> split_ifs <;> omega

section Ramp
variable {parser : BodyParser} {config : Config} (hdwell : 0 ≤ config.minDwellS)

/-- **A pressed tick short of the bound** flips with the press unless inside its dwell time, or decides nothing, or flips
against the press. -/
theorem decided_pressed {c : PidController} (h : Tuned c) (press : Press) (last : Option ℚ) (now error : ℚ)
    {replicas running : Int} (hmin : 1 ≤ replicas) (hmax : replicas ≤ 8) (hshort : replicas ≠ press.bound)
    (hidle : press = .idle → running ≤ 0) :
    let d := decided hdwell replicas c last now error running
    d.delta = press.sign ∨
    (d.delta = 0 ∧ within config.minDwellS last now = true) ∨
    (press.sign * c.unclamped error config.tickS ≤ 1 / 2 ∧ d.delta = 0) ∨
    (press.sign * c.unclamped error config.tickS < -(1 / 2) ∧ d.delta = -press.sign) := by
  intro d
  obtain ⟨htoward, hquiet, haway⟩ := clampDelta_live hdwell press hmin hmax hshort
  have hgate : d.delta = asked hdwell replicas c error ∨
      (d.delta = 0 ∧ asked hdwell replicas c error < 0 ∧ 0 < running.toNat) ∨
      (d.delta = 0 ∧ within config.minDwellS last now = true) :=
    gate_delta_cases (liveConfig config.minDwellS hdwell) last now .colocated running.toNat _
  have hasked : asked hdwell replicas c error =
      clampDelta (liveConfig config.minDwellS hdwell) replicas (stepOf c error config.tickS) := rfl
  rcases stepOf_cases h press error config.tickS with ⟨hraw, hstep⟩ | ⟨hraw, hstep⟩ | ⟨hraw, hstep⟩
  · rw [hasked, hstep, htoward] at hgate
    rcases hgate with hd | ⟨-, hneg, hrun⟩ | hd
    · exact Or.inl hd
    · -- only an idle press steps down, and it found nothing running
      cases press with
      | overload => exact absurd hneg (by decide)
      | idle =>
        have := hidle rfl
        omega
    · exact Or.inr (Or.inl hd)
  · rw [hasked, hstep, hquiet] at hgate
    refine Or.inr (Or.inr (Or.inl ⟨hraw, ?_⟩))
    rcases hgate with hd | ⟨hd, -⟩ | ⟨hd, -⟩ <;> exact hd
  · have hraw' : press.sign * c.unclamped error config.tickS ≤ 1 / 2 := by linarith
    rcases hgate with hd | ⟨hd, -⟩ | ⟨hd, -⟩
    · rw [hasked, hstep] at hd
      rcases haway with hclamp | hclamp
      · exact Or.inr (Or.inr (Or.inr ⟨hraw, hd.trans hclamp⟩))
      · exact Or.inr (Or.inr (Or.inl ⟨hraw', hd.trans hclamp⟩))
    · exact Or.inr (Or.inr (Or.inl ⟨hraw', hd⟩))
    · exact Or.inr (Or.inr (Or.inl ⟨hraw', hd⟩))

/-! ## The price of a ramp -/

/-- What is left of the dwell time, and a tick more while any is. -/
def waiting (dwell dt : ℚ) (last : Option ℚ) (now : ℚ) : ℚ :=
  match last with
  | none      => 0
  | some last => if now - last < dwell then last + dwell - now + dt else 0

theorem waiting_nonneg (dwell : ℚ) {dt : ℚ} (hdt : 0 ≤ dt) (last : Option ℚ) (now : ℚ) : 0 ≤ waiting dwell dt last now := by
  unfold waiting
  cases last with
  | none => exact le_refl 0
  | some last =>
    simp only
    split_ifs with h
    · linarith
    · exact le_refl 0

theorem waiting_antitone (dwell : ℚ) {dt : ℚ} (hdt : 0 ≤ dt) (last : Option ℚ) {now later : ℚ} (h : now ≤ later) :
    waiting dwell dt last later ≤ waiting dwell dt last now := by
  cases last with
  | none => exact le_refl 0
  | some last =>
    simp only [waiting]
    split_ifs <;> linarith

theorem waiting_held {dwell dt : ℚ} {last : Option ℚ} {now : ℚ} (h : within dwell last now = true) :
    waiting dwell dt last (now + dt) + dt ≤ waiting dwell dt last now := by
  cases last with
  | none => cases h
  | some last =>
    have hlt : now - last < dwell := of_decide_eq_true h
    simp only [waiting, if_pos hlt]
    split_ifs <;> linarith

theorem waiting_flipped {dwell dt : ℚ} (hdwell : 0 ≤ dwell) (now : ℚ) :
    waiting dwell dt (some now) (now + dt) ≤ dwell := by
  simp only [waiting]
  split_ifs <;> linarith

theorem waiting_le {dwell dt : ℚ} (hdwell : 0 ≤ dwell) (hdt : 0 ≤ dt) {last : Option ℚ} {now : ℚ}
    (h : ∀ f, last = some f → f ≤ now) : waiting dwell dt last now ≤ dwell + dt := by
  cases last with
  | none => exact add_nonneg hdwell hdt
  | some last =>
    have hpast := h last rfl
    simp only [waiting]
    split_ifs <;> linarith

/-- The seconds a ramp may still take: a flip against the press costs two flips' time and ends with the integral's far
half, a quiet tick ends with its near half, each missing replica costs a flip's time, and the dwell time runs. -/
def patience (config : Config) (press : Press) (replicas : Int) (integral : ℚ) (last : Option ℚ) (now : ℚ) : ℚ :=
  2 * (config.minDwellS + config.tickS) / config.tickS * max 0 (-50 - press.sign * integral) +
    max 0 (50 - press.sign * integral) +
    (config.minDwellS + config.tickS) * (press.sign * (press.bound - replicas) : Int) +
    waiting config.minDwellS config.tickS last now

/-- The most a ramp can cost, in seconds and in turns. -/
def rampSeconds (config : Config) : ℚ := 150 + (8 + 100 / config.tickS) * (config.minDwellS + config.tickS)

def rampTurns (config : Config) : ℚ := rampSeconds config / config.tickS

theorem room_nonneg (press : Press) {replicas : Int} (hmin : 1 ≤ replicas) (hmax : replicas ≤ 8) :
    0 ≤ press.sign * (press.bound - replicas) ∧ press.sign * (press.bound - replicas) ≤ 7 := by
  cases press <;> simp only [Press.sign, Press.bound] <;> omega

theorem patience_antitone (htick : 0 < config.tickS) (press : Press) (replicas : Int) (integral : ℚ) (last : Option ℚ)
    {now later : ℚ} (h : now ≤ later) :
    patience config press replicas integral last later ≤ patience config press replicas integral last now :=
  add_le_add_right (waiting_antitone config.minDwellS htick.le last h) _

include hdwell

theorem patience_nonneg (htick : 0 < config.tickS) (press : Press) {replicas : Int} (hmin : 1 ≤ replicas)
    (hmax : replicas ≤ 8) (integral : ℚ) (last : Option ℚ) (now : ℚ) :
    0 ≤ patience config press replicas integral last now := by
  have hroom : (0 : ℚ) ≤ (press.sign * (press.bound - replicas) : Int) := by
    exact_mod_cast (room_nonneg press hmin hmax).1
  have hwait := waiting_nonneg config.minDwellS htick.le last now
  unfold patience
  positivity

/-- **Each pressed tick short of the bound takes its duration off the ramp's price.** -/
theorem patience_tick (htick : 0 < config.tickS) {c : PidController} (h : Tuned c) (press : Press) (last : Option ℚ)
    (now : ℚ) {error : ℚ} {replicas running : Int} (herror : 1 ≤ press.sign * error) (hmin : 1 ≤ replicas)
    (hmax : replicas ≤ 8) (hshort : replicas ≠ press.bound) (hidle : press = .idle → running ≤ 0) :
    let d := decided hdwell replicas c last now error running
    patience config press (replicas + d.delta) (c.next error config.tickS).integral
        (if d.delta ≠ 0 then some now else last) (now + config.tickS) + config.tickS ≤
      patience config press replicas c.integral last now := by
  intro d
  obtain ⟨hmove, hnear, hfar⟩ := integral_pressed h press htick herror
  have hflip : config.minDwellS + config.tickS ≥ 0 := add_nonneg hdwell htick.le
  have htoll : 0 ≤ 2 * (config.minDwellS + config.tickS) / config.tickS :=
    div_nonneg (mul_nonneg zero_le_two hflip) htick.le
  have hsquare : press.sign * press.sign = 1 := by cases press <;> rfl
  have hfell : max 0 (-50 - press.sign * (c.next error config.tickS).integral) ≤ max 0 (-50 - press.sign * c.integral) :=
    max_le_max_left _ (by linarith)
  have hfell' : max 0 (50 - press.sign * (c.next error config.tickS).integral) ≤ max 0 (50 - press.sign * c.integral) :=
    max_le_max_left _ (by linarith)
  have hpaid := mul_le_mul_of_nonneg_left hfell htoll
  have hnone : press.sign ≠ 0 := by cases press <;> decide
  have hopen := waiting_nonneg config.minDwellS htick.le last now
  have hlater := waiting_antitone config.minDwellS htick.le last
    (le_add_of_nonneg_right htick.le : now ≤ now + config.tickS)
  unfold patience
  rcases decided_pressed hdwell h press last now error hmin hmax hshort hidle with
    hd | ⟨hd, hheld⟩ | ⟨hraw, hd⟩ | ⟨hraw, hd⟩
  · -- a flip with the press: one replica less is missing
    have hd : d.delta = press.sign := hd
    have hwait : waiting config.minDwellS config.tickS (some now) (now + config.tickS) ≤ config.minDwellS :=
      waiting_flipped hdwell now
    have hroom : press.sign * (press.bound - (replicas + press.sign)) = press.sign * (press.bound - replicas) - 1 := by
      rw [← hsquare]
      ring
    rw [hd, if_pos hnone, hroom]
    push_cast
    linarith
  · have hd : d.delta = 0 := hd
    have hwait : waiting config.minDwellS config.tickS last (now + config.tickS) + config.tickS ≤
        waiting config.minDwellS config.tickS last now := waiting_held hheld
    rw [hd, if_neg (not_not.2 rfl), add_zero]
    linarith
  · have hd : d.delta = 0 := hd
    obtain ⟨hstep, hend⟩ := hnear hraw
    have hnear' : max 0 (50 - press.sign * (c.next error config.tickS).integral) + config.tickS ≤
        max 0 (50 - press.sign * c.integral) := by
      rw [max_eq_right (sub_nonneg.2 hend)]
      exact le_trans (by linarith) (le_max_right _ _)
    rw [hd, if_neg (not_not.2 rfl), add_zero]
    linarith
  · -- a flip against the press: the integral is in its far half
    have hd : d.delta = -press.sign := hd
    obtain ⟨hstep, -⟩ := hnear (by linarith)
    have hend := hfar hraw
    have hfar' : max 0 (-50 - press.sign * (c.next error config.tickS).integral) + config.tickS ≤
        max 0 (-50 - press.sign * c.integral) := by
      rw [max_eq_right (by linarith)]
      exact le_trans (by linarith) (le_max_right _ _)
    have htwo : 2 * (config.minDwellS + config.tickS) / config.tickS * config.tickS =
        2 * (config.minDwellS + config.tickS) := div_mul_cancel₀ _ htick.ne'
    have hpaid' := mul_le_mul_of_nonneg_left hfar' htoll
    rw [mul_add, htwo] at hpaid'
    have hwait : waiting config.minDwellS config.tickS (some now) (now + config.tickS) ≤ config.minDwellS :=
      waiting_flipped hdwell now
    have hroom : press.sign * (press.bound - (replicas + -press.sign)) = press.sign * (press.bound - replicas) + 1 := by
      rw [← hsquare]
      ring
    rw [hd, if_pos (neg_ne_zero.2 hnone), hroom]
    push_cast
    linarith

/-- The most a ramp can cost, from any state of a run. -/
theorem patience_le (htick : 0 < config.tickS) {c : PidController} (h : Tuned c) (press : Press) {last : Option ℚ}
    {now : ℚ} {replicas : Int} (hmin : 1 ≤ replicas) (hmax : replicas ≤ 8) (hpast : ∀ f, last = some f → f ≤ now) :
    patience config press replicas c.integral last now ≤
      rampSeconds config := by
  obtain ⟨hlo, hhi⟩ := h.integral_bounds
  have hflip : config.minDwellS + config.tickS ≥ 0 := add_nonneg hdwell htick.le
  have htoll : 0 ≤ 2 * (config.minDwellS + config.tickS) / config.tickS :=
    div_nonneg (mul_nonneg zero_le_two hflip) htick.le
  have hsign : -100 ≤ press.sign * c.integral := by
    cases press with
    | overload => simpa [Press.sign] using hlo
    | idle     => simpa [Press.sign] using hhi
  have hfar : max 0 (-50 - press.sign * c.integral) ≤ 50 := max_le (by norm_num) (by linarith)
  have hnear : max 0 (50 - press.sign * c.integral) ≤ 150 := max_le (by norm_num) (by linarith)
  have hroom : ((press.sign * (press.bound - replicas) : Int) : ℚ) ≤ 7 := by
    exact_mod_cast (room_nonneg press hmin hmax).2
  have hwait := waiting_le hdwell htick.le hpast
  have hpaid := mul_le_mul_of_nonneg_left hfar htoll
  have hmissing := mul_le_mul_of_nonneg_left hroom hflip
  have htotal : 2 * (config.minDwellS + config.tickS) / config.tickS * 50 =
      100 / config.tickS * (config.minDwellS + config.tickS) := by ring
  unfold patience rampSeconds
  linarith

/-! ## A pressed run -/

/-- **A pressed run as long as its price reaches the bound**, by induction on its turns. -/
theorem ramp (htick : 0 < config.tickS) (htarget : 0 ≤ config.targetQueueDepth) (press : Press) :
    ∀ (l : List (Phase × Reading)) {s : Live} {c : PidController} {last : Option ℚ} {now : ℚ},
      Steady hdwell s c last → (∀ x ∈ l, Pressed parser config press x.2) → Paced config l →
      (∀ x ∈ l.head?, now ≤ x.2.now) →
      patience config press s.replicas c.integral last now < l.length * config.tickS →
      ∃ used rest s', l = used ++ rest ∧ ticks parser config used s = .ok s' ∧ s'.replicas = press.bound
  | [], s, c, last, now, hsteady, _, _, _, hlong => by
    have hcost := patience_nonneg hdwell htick press hsteady.books.bounds.1 hsteady.books.bounds.2 c.integral last now
    simp only [List.length_nil, Nat.cast_zero, zero_mul] at hlong
    exact absurd hlong (not_lt.2 hcost)
  | (phase, r) :: l, s, c, last, now, hsteady, hpressed, hpaced, hnow, hlong => by
    by_cases hshort : s.replicas = press.bound
    · exact ⟨[], _, s, rfl, rfl, hshort⟩
    obtain ⟨hmin, hmax⟩ := hsteady.books.bounds
    obtain ⟨waiting, running, hsignal, herror, hidle⟩ := hpressed (phase, r) List.mem_cons_self
    obtain ⟨d, s₁, hok, hticked, hcount, -, hsteady₁⟩ :=
      steady_liveTick hdwell htick htarget hsteady phase hsignal
    have herror' : (1 : ℚ) ≤ press.sign * ((waiting - config.targetQueueDepth : Int) : ℚ) := by
      exact_mod_cast herror
    have hfall := patience_tick hdwell htick hsteady.tuned press last r.now herror' hmin hmax hshort hidle
    simp only at hfall
    rw [← hticked.decided, ← hcount] at hfall
    have hhere := patience_antitone htick press s.replicas c.integral last
      (hnow (phase, r) (by simp) : now ≤ r.now)
    have hleft : patience config press s₁.replicas
        (c.next ((waiting - config.targetQueueDepth : Int) : ℚ) config.tickS).integral
        (if d.delta ≠ 0 then some r.now else last) (r.now + config.tickS) < l.length * config.tickS := by
      rw [List.length_cons, Nat.cast_succ, add_mul, one_mul] at hlong
      linarith
    obtain ⟨used, rest, s', hsplit, hrest, hend⟩ := ramp htick htarget press l hsteady₁
      (fun x hx => hpressed x (List.mem_cons_of_mem _ hx)) hpaced.tail
      (fun x hx => (List.isChain_cons.1 hpaced).1 x hx) hleft
    refine ⟨(phase, r) :: used, rest, s', by rw [hsplit, List.cons_append], ?_, hend⟩
    unfold ticks
    rw [hok]
    exact hrest

end Ramp

/-! ## A sustained load -/

theorem rampTurns_nonneg {config : Config} (htick : 0 < config.tickS) (hdwell : 0 ≤ config.minDwellS) :
    0 ≤ rampTurns config := by
  have hflip : 0 ≤ config.minDwellS + config.tickS := add_nonneg hdwell htick.le
  unfold rampTurns rampSeconds
  positivity

/-- No turn comes later than this after the one before. -/
def Within (gap : ℚ) (l : List (Phase × Reading)) : Prop := l.IsChain (fun x y => y.2.now ≤ x.2.now + gap)

theorem Within.last_le {gap : ℚ} : ∀ {x : Phase × Reading} {l : List (Phase × Reading)}, Within gap (x :: l) →
    ∀ y ∈ (x :: l).getLast?, y.2.now ≤ x.2.now + l.length * gap
  | x, [], _, y, hy => by
    obtain rfl := Option.some.inj hy
    simp
  | x, z :: l, h, y, hy => by
    rw [List.getLast?_cons_cons] at hy
    have hlast := Within.last_le h.tail y hy
    have hnext : z.2.now ≤ x.2.now + gap := (List.isChain_cons.1 h).1 z (by simp)
    rw [List.length_cons, Nat.cast_succ]
    linarith

/-- The time that the first turns of a run take. -/
theorem Within.span {gap turns : ℚ} (hgap : 0 ≤ gap) {used rest : List (Phase × Reading)} (h : Within gap (used ++ rest))
    (hused : (used.length : ℚ) ≤ turns + 1) :
    ∀ x ∈ used.head?, ∀ y ∈ used.getLast?, y.2.now ≤ x.2.now + turns * gap := by
  intro x hx y hy
  cases used with
  | nil => cases hx
  | cons z l =>
    obtain rfl := Option.some.inj hx
    have hlast := Within.last_le (List.isChain_append.1 h).1 y hy
    have hsteps : (l.length : ℚ) ≤ turns := by
      rw [List.length_cons, Nat.cast_succ] at hused
      linarith
    have hspan := mul_le_mul_of_nonneg_right hsteps hgap
    linarith

/-- Of more than `rampTurns` turns the first ones are enough, and at least one of them. -/
theorem exists_enough {config : Config} (htick : 0 < config.tickS) (hdwell : 0 ≤ config.minDwellS) {m : Nat}
    (hlong : rampTurns config < m) :
    ∃ n, 0 < n ∧ n ≤ m ∧ (n : ℚ) ≤ rampTurns config + 1 ∧ rampSeconds config < n * config.tickS := by
  have hnonneg := rampTurns_nonneg htick hdwell
  refine ⟨⌊rampTurns config⌋₊ + 1, Nat.succ_pos _, Nat.succ_le_of_lt ((Nat.floor_lt hnonneg).2 hlong), ?_, ?_⟩
  · rw [Nat.cast_succ]
    exact add_le_add_left (Nat.floor_le hnonneg) 1
  · rw [← div_lt_iff₀ htick, Nat.cast_succ]
    exact Nat.lt_floor_add_one _

/-- **A sustained load is answered.**  After any history of the live run, more than `rampTurns` turns that all find the
queue above its target, or all below it with nothing running, take the replica count to 8, or to 1, and within
`rampTurns + 1` of them: whatever the errors' sizes, the integral wound up before and the flips decided against the load
on the way.  Where no turn is later than `gap` after the one before, that is `rampTurns * gap` seconds from the first at
most. -/
theorem pressed_reaches_bound (parser : BodyParser) (config : Config) (htick : 0 < config.tickS)
    (htarget : 0 ≤ config.targetQueueDepth) (hdwell : 0 ≤ config.minDwellS) (press : Press)
    (before later : List (Phase × Reading)) (hbefore : ∀ x ∈ before, ∃ body, x.2.scrape = .ok body ∧ Legible parser body)
    (hlater : ∀ x ∈ later, Pressed parser config press x.2) (hpaced : Paced config (before ++ later))
    (hlong : rampTurns config < later.length) :
    ∃ used rest s, later = used ++ rest ∧ (used.length : ℚ) ≤ rampTurns config + 1 ∧
      ticks parser config (before ++ used) (liveStart hdwell) = .ok s ∧ s.replicas = press.bound ∧
      ∀ gap, config.tickS ≤ gap → Within gap later → ∀ x ∈ used.head?, ∀ y ∈ used.getLast?,
        y.2.now ≤ x.2.now + rampTurns config * gap := by
  obtain ⟨s, c, last, hticks, hsteady, hflip, -⟩ := steady_ticks hdwell htick htarget before (steady_start hdwell)
    (fun x hx => (signal_ok_iff parser x.2).2 (hbefore x hx))
  obtain ⟨n, hn, hle, hfew, henough⟩ := exists_enough htick hdwell hlong
  have hcount : (later.take n).length = n := List.length_take_of_le hle
  obtain ⟨x, l, rfl⟩ : ∃ x l, later = x :: l := List.exists_cons_of_length_pos (hn.trans_le hle)
  have hfirst : ∀ y ∈ (List.take n (x :: l)).head?, x.2.now ≤ y.2.now := by
    intro y hy
    rw [List.head?_take, if_neg hn.ne'] at hy
    rw [Option.some.inj hy]
  have hpast : ∀ f, last = some f → f ≤ x.2.now := by
    intro f hf
    rcases hflip f hf with hnone | ⟨y, hy, rfl⟩
    · cases hnone
    · exact Paced.le_of_append htick hpaced y hy
  have hcost := patience_le hdwell htick hsteady.tuned press hsteady.books.bounds.1 hsteady.books.bounds.2 hpast
  obtain ⟨used, rest, s', hsplit, hrest, hend⟩ := ramp hdwell htick htarget press (List.take n (x :: l)) hsteady
    (fun y hy => hlater y (List.mem_of_mem_take hy)) ((List.isChain_append.1 hpaced).2.1.take n)
    hfirst (by rw [hcount]; exact hcost.trans_lt henough)
  have hused : used.length ≤ n := by
    rw [← hcount, hsplit, List.length_append]
    exact Nat.le_add_right _ _
  have hwhole : x :: l = used ++ (rest ++ (x :: l).drop n) := by
    rw [← List.append_assoc, ← hsplit, List.take_append_drop]
  refine ⟨used, rest ++ (x :: l).drop n, s', hwhole, (Nat.cast_le.2 hused).trans hfew, ?_, hend, ?_⟩
  · rw [ticks_append, liveStart, hticks]
    exact hrest
  · intro gap hgap hwithin
    rw [hwhole] at hwithin
    exact hwithin.span (htick.le.trans hgap) ((Nat.cast_le.2 hused).trans hfew)

def slowConfig : Config := ⟨100, 4, 0⟩

theorem slow_dwell : 0 ≤ slowConfig.minDwellS := le_refl 0

def turnAt (n : Nat) (body : Text) : Phase × Reading := (⟨[], 1200⟩, ⟨100 * n, .ok body, 100 * n, 100 * n⟩)

def flooded : Text := "vllm:num_requests_waiting 20".toList

/-- Two turns that found nothing waiting, and eleven that found twenty requests. -/
def calmTurns : List (Phase × Reading) := [turnAt 0 [], turnAt 1 []]

def floodTurns : List (Phase × Reading) := (List.range 11).map (fun n => turnAt (n + 2) flooded)

theorem flood_signal (n : Nat) : (turnAt n flooded).2.signal plainParser.body = .ok (20, 0) := by
  have hsignal : queueSignal plainParser flooded = (20, 0) := by decide +kernel
  rw [Reading.signal, turnAt, Act.except_ok_bind, scrapedSignal_body, hsignal]

theorem flood_reaches_max : ∃ used rest s, floodTurns = used ++ rest ∧ (used.length : ℚ) ≤ rampTurns slowConfig + 1 ∧
    ticks plainParser.body slowConfig (calmTurns ++ used) (liveStart slow_dwell) = .ok s ∧ s.replicas = 8 ∧
    ∀ x ∈ used.head?, ∀ y ∈ used.getLast?, y.2.now ≤ x.2.now + rampSeconds slowConfig := by
  have hcalm : ∀ x ∈ calmTurns, ∃ body, x.2.scrape = .ok body ∧ Legible plainParser.body body := by
    intro x hx
    simp only [calmTurns, List.mem_cons, List.not_mem_nil, or_false] at hx
    rcases hx with rfl | rfl <;> exact ⟨_, rfl, legible_body plainParser _⟩
  have hpressed : ∀ x ∈ floodTurns, Pressed plainParser.body slowConfig .overload x.2 := by
    intro x hx
    obtain ⟨n, -, rfl⟩ := List.mem_map.1 hx
    exact ⟨20, 0, flood_signal (n + 2), by decide, fun h => by cases h⟩
  have hpaced : Paced slowConfig (calmTurns ++ floodTurns) := by
    unfold Paced calmTurns floodTurns slowConfig turnAt
    decide +kernel
  have hwithin : Within 100 floodTurns := by
    unfold Within floodTurns turnAt
    decide +kernel
  have hlong : rampTurns slowConfig < floodTurns.length := by
    unfold rampTurns rampSeconds
    decide +kernel
  have hseconds : rampTurns slowConfig * 100 = rampSeconds slowConfig := div_mul_cancel₀ _ (by norm_num [slowConfig])
  obtain ⟨used, rest, s, hsplit, hfew, hticks, hend, htime⟩ := pressed_reaches_bound plainParser.body slowConfig
    (by decide +kernel) (by decide) slow_dwell .overload calmTurns floodTurns hcalm hpressed hpaced hlong
  have hspan := htime 100 (le_refl _) hwithin
  rw [hseconds] at hspan
  exact ⟨used, rest, s, hsplit, hfew, hticks, hend, hspan⟩

end AutoscalerLive
end GoodputLab
