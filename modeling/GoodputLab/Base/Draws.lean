import Mathlib
/-!
# Draws — programs that consume a random stream and may raise

`Draws` is a generator seeded once: an arbitrary stream, read one draw at a time, the width of the range asked for at
each.  `Gen` is a program over it; `none` is a raised exception.  `bind_inv` takes a successful run of two steps apart,
`bind_some` puts it together.
-/

/-- A seeded generator: the number drawn at each position for each width, and the next position. -/
structure Draws where
  source : Nat → Nat → Nat
  pos    : Nat

abbrev Gen (α : Type) := StateT Draws Option α

namespace Gen

variable {α β : Type}

def raise : Gen α := fun _ => none

def ofOption (o : Option α) : Gen α := fun d => o.map (fun a => (a, d))

def below (width : Nat) : Gen Nat := fun d => some (d.source d.pos width % width, { d with pos := d.pos + 1 })

/-- `randint(lo, hi)`, both ends included; an empty range raises. -/
def randint (lo hi : Int) : Gen Int := do
  if hi < lo then raise
  else
    let k ← below (hi - lo + 1).toNat
    pure (lo + k)

def choice (l : List α) (h : l ≠ []) : Gen α := do
  let k ← below l.length
  pure (l.getD k (l.head h))

theorem bind_inv {x : Gen α} {f : α → Gen β} {d : Draws} {r : β × Draws} (h : (x >>= f) d = some r) :
    ∃ a d', x d = some (a, d') ∧ f a d' = some r := by
  rw [show (x >>= f) d = (x d).bind (fun p => f p.1 p.2) from rfl] at h
  obtain ⟨p, hp, hf⟩ := Option.bind_eq_some_iff.1 h
  exact ⟨p.1, p.2, hp, hf⟩

theorem bind_some {x : Gen α} {f : α → Gen β} {d d' : Draws} {a : α} (h : x d = some (a, d')) :
    (x >>= f) d = f a d' := by
  rw [show (x >>= f) d = (x d).bind (fun p => f p.1 p.2) from rfl, h]
  rfl

/-- **A drawn integer**: the range is not empty, the value is its lower end plus the draw, and one draw is consumed. -/
theorem randint_eq {lo hi : Int} (h : lo ≤ hi) (d : Draws) :
    randint lo hi d = some (lo + (d.source d.pos (hi - lo + 1).toNat % (hi - lo + 1).toNat : Nat),
      { d with pos := d.pos + 1 }) := by
  unfold randint
  rw [if_neg (not_lt.2 h)]
  rfl

/-! ## Programs that never raise -/

/-- Whatever the stream, `x` returns a value with `P`. -/
def Always (x : Gen α) (P : α → Prop) : Prop := ∀ d, ∃ a d', x d = some (a, d') ∧ P a

theorem always_pure {a : α} {P : α → Prop} (h : P a) : Always (pure a) P := fun d => ⟨a, d, rfl, h⟩

theorem always_bind {x : Gen α} {f : α → Gen β} {P : α → Prop} {Q : β → Prop} (hx : Always x P)
    (hf : ∀ a, P a → Always (f a) Q) : Always (x >>= f) Q := by
  intro d
  obtain ⟨a, d', ha, hp⟩ := hx d
  obtain ⟨b, d'', hb, hq⟩ := hf a hp d'
  exact ⟨b, d'', (bind_some ha).trans hb, hq⟩

theorem always_ofOption {o : Option α} {P : α → Prop} (h : ∃ a, o = some a ∧ P a) : Always (ofOption o) P := by
  obtain ⟨a, rfl, hp⟩ := h
  exact fun d => ⟨a, d, rfl, hp⟩

theorem always_choice (l : List α) (h : l ≠ []) : Always (choice l h) (fun a => a ∈ l) := by
  intro d
  have hlt : d.source d.pos l.length % l.length < l.length := Nat.mod_lt _ (List.length_pos_of_ne_nil h)
  refine ⟨_, _, rfl, ?_⟩
  rw [List.getD_eq_getElem _ _ hlt]
  exact List.getElem_mem hlt

/-! ## What a program that may raise returns -/

/-- Whatever the stream, what `x` returns has `P`. -/
def Returns (x : Gen α) (P : α → Prop) : Prop := ∀ d a d', x d = some (a, d') → P a

theorem Always.returns {x : Gen α} {P : α → Prop} (h : Always x P) : Returns x P := by
  intro d a d' ha
  obtain ⟨b, d'', hb, hp⟩ := h d
  rw [ha] at hb
  cases hb
  exact hp

theorem returns_pure {a : α} {P : α → Prop} (h : P a) : Returns (pure a) P := (always_pure h).returns

theorem returns_bind {x : Gen α} {f : α → Gen β} {P : α → Prop} {Q : β → Prop} (hx : Returns x P)
    (hf : ∀ a, P a → Returns (f a) Q) : Returns (x >>= f) Q := by
  intro d b d'' hb
  obtain ⟨a, d', ha, hrest⟩ := bind_inv hb
  exact hf a (hx d a d' ha) d' b d'' hrest

theorem returns_ofOption {o : Option α} {P : α → Prop} (h : ∀ a, o = some a → P a) : Returns (ofOption o) P := by
  intro d a d' ha
  obtain ⟨b, hb, he⟩ := Option.map_eq_some_iff.1 ha
  cases he
  exact h a hb

theorem returns_any (x : Gen α) : Returns x (fun _ => True) := fun _ _ _ _ => trivial

theorem Always.and_returns {x : Gen α} {P Q : α → Prop} (hx : Always x P) (hr : Returns x Q) :
    Always x (fun a => P a ∧ Q a) := by
  intro d
  obtain ⟨a, d', ha, hp⟩ := hx d
  exact ⟨a, d', ha, hp, hr d a d' ha⟩

theorem Always.weaken {x : Gen α} {P Q : α → Prop} (hx : Always x P) (h : ∀ a, P a → Q a) : Always x Q := by
  intro d
  obtain ⟨a, d', ha, hp⟩ := hx d
  exact ⟨a, d', ha, h a hp⟩

/-! ## One stream -/

/-- On the stream `source`, from any position, what `x` returns has `P`; `x` only moves along the stream. -/
def ReturnsOn (source : Nat → Nat → Nat) (x : Gen α) (P : α → Prop) : Prop :=
  ∀ d a d', d.source = source → x d = some (a, d') → d'.source = source ∧ P a

variable {source : Nat → Nat → Nat}

theorem returns_of_returnsOn {x : Gen α} {P : α → Prop} (h : ∀ source, ReturnsOn source x P) : Returns x P :=
  fun d a d' ha => (h d.source d a d' rfl ha).2

theorem Always.and_returnsOn {x : Gen α} {P Q : α → Prop} (hx : Always x P) (hr : ∀ source, ReturnsOn source x Q) :
    Always x (fun a => P a ∧ Q a) :=
  hx.and_returns (returns_of_returnsOn hr)

theorem ReturnsOn.weaken {x : Gen α} {P Q : α → Prop} (hx : ReturnsOn source x P) (h : ∀ a, P a → Q a) :
    ReturnsOn source x Q := by
  intro d a d' hd ha
  obtain ⟨hsource, hp⟩ := hx d a d' hd ha
  exact ⟨hsource, h a hp⟩

theorem returnsOn_pure {a : α} {P : α → Prop} (h : P a) : ReturnsOn source (pure a) P := by
  intro d b d' hd hb
  cases hb
  exact ⟨hd, h⟩

theorem returnsOn_bind {x : Gen α} {f : α → Gen β} {P : α → Prop} {Q : β → Prop} (hx : ReturnsOn source x P)
    (hf : ∀ a, P a → ReturnsOn source (f a) Q) : ReturnsOn source (x >>= f) Q := by
  intro d b d'' hd hb
  obtain ⟨a, d', ha, hrest⟩ := bind_inv hb
  obtain ⟨hd', hp⟩ := hx d a d' hd ha
  exact hf a hp d' b d'' hd' hrest

theorem returnsOn_ofOption {o : Option α} {P : α → Prop} (h : ∀ a, o = some a → P a) :
    ReturnsOn source (ofOption o) P := by
  intro d a d' hd ha
  obtain ⟨b, hb, he⟩ := Option.map_eq_some_iff.1 ha
  cases he
  exact ⟨hd, h a hb⟩

theorem returnsOn_choice (l : List α) (h : l ≠ []) : ReturnsOn source (choice l h) (fun a => a ∈ l) := by
  intro d a d' hd ha
  refine ⟨?_, (always_choice l h).returns d a d' ha⟩
  cases ha
  exact hd

/-- **An integer drawn on a stream**: its range is not empty, and it is the lower end plus some draw. -/
theorem returnsOn_randint (lo hi : Int) : ReturnsOn source (randint lo hi)
    (fun v => lo ≤ hi ∧ ∃ pos, v = lo + (source pos (hi - lo + 1).toNat % (hi - lo + 1).toNat : Nat)) := by
  intro d v d' hd hv
  by_cases h : lo ≤ hi
  · rw [randint_eq h d] at hv
    cases hv
    exact ⟨hd, h, d.pos, by rw [hd]⟩
  · unfold randint at hv
    rw [if_pos (not_le.1 h)] at hv
    cases hv

theorem returnsOn_bounds (lo hi : Int) : ReturnsOn source (randint lo hi) (fun v => lo ≤ v ∧ v ≤ hi) := by
  refine (returnsOn_randint lo hi).weaken (fun v hv => ?_)
  obtain ⟨h, pos, rfl⟩ := hv
  have hlt := Nat.mod_lt (source pos (hi - lo + 1).toNat) (show 0 < (hi - lo + 1).toNat by omega)
  omega

theorem returns_randint (lo hi : Int) : Returns (randint lo hi) (fun v => lo ≤ v ∧ v ≤ hi) :=
  returns_of_returnsOn (fun _ => returnsOn_bounds lo hi)

theorem always_randint {lo hi : Int} (h : lo ≤ hi) : Always (randint lo hi) (fun v => lo ≤ v ∧ v ≤ hi) := by
  intro d
  exact ⟨_, _, randint_eq h d, returns_randint lo hi d _ _ (randint_eq h d)⟩

/-- The stream on which every draw is the lowest. -/
def lowest : Nat → Nat → Nat := fun _ _ => 0

/-- The stream on which every draw is the highest. -/
def highest : Nat → Nat → Nat := fun _ width => width - 1

theorem returnsOn_lowest (lo hi : Int) : ReturnsOn lowest (randint lo hi) (fun v => lo ≤ hi ∧ v = lo) := by
  refine (returnsOn_randint lo hi).weaken (fun v hv => ?_)
  obtain ⟨h, pos, rfl⟩ := hv
  rw [lowest, Nat.zero_mod]
  exact ⟨h, Int.add_zero lo⟩

theorem returnsOn_highest (lo hi : Int) : ReturnsOn highest (randint lo hi) (fun v => lo ≤ hi ∧ v = hi) := by
  refine (returnsOn_randint lo hi).weaken (fun v hv => ?_)
  obtain ⟨h, pos, rfl⟩ := hv
  rw [highest, Nat.mod_eq_of_lt (by omega)]
  omega

end Gen
