import Mathlib
/-!
# Act — computations over a state that may raise

The state survives an exception, so a clean-up sees what the failed computation left (`ensuring`).  A computation that
returned is taken apart step by step (`bind_ok`, `lift_ok`, `guard_ok`, `ensuring_ok`), and one whose first step is known
is run from there (`bind_of_ok`, `bind_of_error`).  `Returns` and `Raises` say how a computation ends.  `Keeps` and
`InStep` are rules for what a computation leaves alone, and for two computations that give the same answers over two
related states.
-/

abbrev Act (ε σ α : Type) := ExceptT ε (StateM σ) α

namespace Act

variable {ε σ α β : Type}

def lift (r : Except ε α) : Act ε σ α := fun s => (r, s)

/-- `if p: raise e`. -/
def guard (p : Bool) (e : ε) : Act ε σ Unit := lift (if p then .error e else .ok ())

/-- `try: x finally: fin`. -/
def ensuring (x : Act ε σ α) (fin : Act ε σ Unit) : Act ε σ α := fun s =>
  match fin (x s).2 with
  | (.ok _, s')    => ((x s).1, s')
  | (.error e, s') => (.error e, s')

theorem bind_of_ok {x : Act ε σ α} {f : α → Act ε σ β} {s s' : σ} {a : α} (h : x s = (.ok a, s')) :
    (x >>= f) s = f a s' := by
  show ExceptT.bindCont f (x s).1 (x s).2 = _
  rw [h]
  rfl

theorem bind_of_error {x : Act ε σ α} {f : α → Act ε σ β} {s s' : σ} {e : ε} (h : x s = (.error e, s')) :
    (x >>= f) s = (.error e, s') := by
  show ExceptT.bindCont f (x s).1 (x s).2 = _
  rw [h]
  rfl

theorem except_ok_bind (a : α) (f : α → Except ε β) : ((.ok a : Except ε α) >>= f) = f a := rfl

/-- What a computation that may raise returns was returned by its two parts. -/
theorem except_bind_ok_iff {x : Except ε α} {f : α → Except ε β} {b : β} :
    (x >>= f) = .ok b ↔ ∃ a, x = .ok a ∧ f a = .ok b := by
  cases x with
  | error e => exact iff_of_false (fun h => by cases h) (fun ⟨a, ha, _⟩ => by cases ha)
  | ok a => exact ⟨fun h => ⟨a, rfl, h⟩, fun ⟨a', ha, h⟩ => by cases ha; exact h⟩

theorem except_mapError_bind_ok {ε' : Type} {g : ε → ε'} {x : Except ε α} {f : α → Except ε' β} {b : β}
    (h : (x.mapError g >>= f) = .ok b) : ∃ a, x = .ok a ∧ f a = .ok b := by
  cases x with
  | error e => cases h
  | ok a => exact ⟨a, rfl, h⟩

theorem lift_ok_bind (a : α) (f : α → Act ε σ β) (s : σ) : ((lift (.ok a) : Act ε σ α) >>= f) s = f a s := rfl

theorem bind_ok {x : Act ε σ α} {f : α → Act ε σ β} {s s'' : σ} {b : β} (h : (x >>= f) s = (.ok b, s'')) :
    ∃ a s', x s = (.ok a, s') ∧ f a s' = (.ok b, s'') := by
  cases hx : x s with
  | mk r s' =>
    cases r with
    | ok a =>
      rw [bind_of_ok hx] at h
      exact ⟨a, s', rfl, h⟩
    | error e =>
      rw [bind_of_error hx] at h
      cases h

theorem pure_ok {a b : α} {s s' : σ} (h : (pure a : Act ε σ α) s = (.ok b, s')) : a = b ∧ s = s' := by
  cases h
  exact ⟨rfl, rfl⟩

theorem lift_ok {r : Except ε α} {s s' : σ} {a : α} (h : (lift r : Act ε σ α) s = (.ok a, s')) :
    r = .ok a ∧ s = s' := by
  cases h
  exact ⟨rfl, rfl⟩

theorem guard_ok {p : Bool} {e : ε} {s s' : σ} {u : Unit} (h : (guard p e : Act ε σ Unit) s = (.ok u, s')) :
    p = false ∧ s = s' := by
  obtain ⟨hr, hs⟩ := lift_ok h
  cases p with
  | true => cases hr
  | false => exact ⟨rfl, hs⟩

theorem ensuring_ok {x : Act ε σ α} {fin : Act ε σ Unit} {s s'' : σ} {a : α}
    (h : ensuring x fin s = (.ok a, s'')) : ∃ s', x s = (.ok a, s') ∧ fin s' = (.ok (), s'') := by
  unfold ensuring at h
  cases hx : x s with
  | mk r s' =>
    rw [hx] at h
    cases hf : fin s' with
    | mk q s₁ =>
      simp only [hf] at h
      cases q with
      | ok u =>
        cases h
        exact ⟨s', rfl, hf⟩
      | error e => cases h

/-- `try: x except e: raise f(e)`. -/
def mapError {ε' : Type} (f : ε → ε') (x : Act ε σ α) : Act ε' σ α := fun s => ((x s).1.mapError f, (x s).2)

/-! ## What a computation returns -/

/-- `x` returns, and what it returns and the state it leaves satisfy `Q`. -/
def Returns (x : Act ε σ α) (s : σ) (Q : α → σ → Prop) : Prop := ∃ a s', x s = (.ok a, s') ∧ Q a s'

def Raises (x : Act ε σ α) (s : σ) : Prop := ∃ e s', x s = (.error e, s')

section Returns

variable {s : σ}

theorem returns_pure {a : α} {Q : α → σ → Prop} (h : Q a s) : Returns (pure a : Act ε σ α) s Q := ⟨a, s, rfl, h⟩

theorem Returns.mono {x : Act ε σ α} {Q Q' : α → σ → Prop} (h : Returns x s Q) (hq : ∀ a s', Q a s' → Q' a s') :
    Returns x s Q' := by
  obtain ⟨a, s', hx, ha⟩ := h
  exact ⟨a, s', hx, hq a s' ha⟩

theorem Returns.bind {x : Act ε σ α} {f : α → Act ε σ β} {Q : α → σ → Prop} {Q' : β → σ → Prop} (h : Returns x s Q)
    (hf : ∀ a s', Q a s' → Returns (f a) s' Q') : Returns (x >>= f) s Q' := by
  obtain ⟨a, s', hx, ha⟩ := h
  obtain ⟨b, s'', hb, hq⟩ := hf a s' ha
  exact ⟨b, s'', by rw [bind_of_ok hx, hb], hq⟩

theorem Returns.bind_raises {x : Act ε σ α} {f : α → Act ε σ β} {Q : α → σ → Prop} (h : Returns x s Q)
    (hf : ∀ a s', Q a s' → Raises (f a) s') : Raises (x >>= f) s := by
  obtain ⟨a, s', hx, ha⟩ := h
  obtain ⟨e, s'', he⟩ := hf a s' ha
  exact ⟨e, s'', by rw [bind_of_ok hx, he]⟩

theorem Raises.bind {x : Act ε σ α} {f : α → Act ε σ β} (h : Raises x s) : Raises (x >>= f) s := by
  obtain ⟨e, s', hx⟩ := h
  exact ⟨e, s', bind_of_error hx⟩

theorem Returns.mapError {ε' : Type} {f : ε → ε'} {x : Act ε σ α} {Q : α → σ → Prop} (h : Returns x s Q) :
    Returns (mapError f x) s Q := by
  obtain ⟨a, s', hx, ha⟩ := h
  refine ⟨a, s', ?_, ha⟩
  unfold Act.mapError
  rw [hx]
  rfl

theorem Raises.mapError {ε' : Type} {f : ε → ε'} {x : Act ε σ α} (h : Raises x s) : Raises (mapError f x) s := by
  obtain ⟨e, s', hx⟩ := h
  refine ⟨f e, s', ?_⟩
  unfold Act.mapError
  rw [hx]
  rfl

theorem Returns.ensuring {x : Act ε σ α} {fin : Act ε σ Unit} {Q Q' : α → σ → Prop} (h : Returns x s Q)
    (hfin : ∀ a s', Q a s' → Returns fin s' (fun _ s'' => Q' a s'')) : Returns (ensuring x fin) s Q' := by
  obtain ⟨a, s', hx, ha⟩ := h
  obtain ⟨u, s'', hf, hq⟩ := hfin a s' ha
  refine ⟨a, s'', ?_, hq⟩
  unfold Act.ensuring
  rw [hx, hf]

theorem Raises.ensuring {x : Act ε σ α} {fin : Act ε σ Unit} (h : Raises x s) : Raises (ensuring x fin) s := by
  obtain ⟨e, s', hx⟩ := h
  unfold Raises Act.ensuring
  rw [hx]
  cases fin s' with
  | mk q s'' =>
    cases q with
    | ok u => exact ⟨e, s'', rfl⟩
    | error e' => exact ⟨e', s'', rfl⟩

end Returns

/-! ## What a computation leaves alone -/

/-- Whatever `x` does and however it ends, `view` of the state is as before. -/
def Keeps {τ : Type} (view : σ → τ) (x : Act ε σ α) : Prop := ∀ s, view (x s).2 = view s

section Keeps

variable {τ : Type} {view : σ → τ}

theorem keeps_lift (r : Except ε α) : Keeps view (lift r : Act ε σ α) := fun _ => rfl

theorem keeps_pure (a : α) : Keeps view (pure a : Act ε σ α) := fun _ => rfl

theorem keeps_guard (p : Bool) (e : ε) : Keeps view (guard p e : Act ε σ Unit) := fun _ => rfl

theorem keeps_bind {x : Act ε σ α} {f : α → Act ε σ β} (hx : Keeps view x) (hf : ∀ a, Keeps view (f a)) :
    Keeps view (x >>= f) := by
  intro s
  have hs := hx s
  cases h : x s with
  | mk r s' =>
    rw [h] at hs
    cases r with
    | ok a =>
      rw [bind_of_ok h]
      exact (hf a s').trans hs
    | error e =>
      rw [bind_of_error h]
      exact hs

end Keeps

/-! ## Two computations in step -/

/-- Over related states the two end the same way, in related states. -/
def InStep {τ : Type} (R : σ → τ → Prop) (x : Act ε σ α) (y : Act ε τ α) : Prop :=
  ∀ s t, R s t → (x s).1 = (y t).1 ∧ R (x s).2 (y t).2

section InStep

variable {τ : Type} {R : σ → τ → Prop}

theorem inStep_lift (r : Except ε α) : InStep R (lift r : Act ε σ α) (lift r) := fun _ _ h => ⟨rfl, h⟩

theorem inStep_pure (a : α) : InStep R (pure a : Act ε σ α) (pure a) := fun _ _ h => ⟨rfl, h⟩

theorem inStep_guard (p : Bool) (e : ε) : InStep R (guard p e : Act ε σ Unit) (guard p e) := fun _ _ h => ⟨rfl, h⟩

theorem inStep_bind {x : Act ε σ α} {y : Act ε τ α} {f : α → Act ε σ β} {g : α → Act ε τ β} (hx : InStep R x y)
    (hf : ∀ a, InStep R (f a) (g a)) : InStep R (x >>= f) (y >>= g) := by
  intro s t hst
  obtain ⟨hr, hs⟩ := hx s t hst
  cases hxs : x s with
  | mk r s' =>
    cases hyt : y t with
    | mk q t' =>
      rw [hxs, hyt] at hr hs
      obtain rfl : r = q := hr
      cases r with
      | ok a =>
        rw [bind_of_ok hxs, bind_of_ok hyt]
        exact hf a s' t' hs
      | error e =>
        rw [bind_of_error hxs, bind_of_error hyt]
        exact ⟨rfl, hs⟩

theorem inStep_mapError {ε' : Type} {f : ε → ε'} {x : Act ε σ α} {y : Act ε τ α} (h : InStep R x y) :
    InStep R (mapError f x) (mapError f y) := by
  intro s t hst
  obtain ⟨hr, hs⟩ := h s t hst
  exact ⟨congrArg (Except.mapError f) hr, hs⟩

theorem inStep_ensuring {x : Act ε σ α} {y : Act ε τ α} {fin : Act ε σ Unit} {fin' : Act ε τ Unit}
    (hx : InStep R x y) (hfin : InStep R fin fin') : InStep R (ensuring x fin) (ensuring y fin') := by
  intro s t hst
  obtain ⟨hr, hs⟩ := hx s t hst
  obtain ⟨hq, hs'⟩ := hfin _ _ hs
  unfold ensuring
  cases hfx : fin (x s).2 with
  | mk q s₁ =>
    cases hfy : fin' (y t).2 with
    | mk q' t₁ =>
      rw [hfx, hfy] at hq hs'
      obtain rfl : q = q' := hq
      cases q with
      | ok u => exact ⟨hr, hs'⟩
      | error e => exact ⟨rfl, hs'⟩

end InStep

end Act
