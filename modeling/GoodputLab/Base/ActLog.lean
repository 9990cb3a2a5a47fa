import GoodputLab.Base.Act
/-!
# ActLog — what a computation appends to a log

`Appends log P x`: however `x` ends, it has appended to the log of its state, each entry once and entries of `P` only.
Computations whose entries differ append one after another (`appends_bind`), so a whole run's entries are distinct when
those of its steps are.
-/
namespace Act

variable {ε σ α β τ : Type}

def Appends (log : σ → List τ) (P : τ → Prop) (x : Act ε σ α) : Prop :=
  ∀ s, ∃ more, log (x s).2 = log s ++ more ∧ more.Nodup ∧ ∀ t ∈ more, P t

variable {log : σ → List τ} {P Q : τ → Prop}

theorem appends_of_keeps {x : Act ε σ α} (h : Keeps log x) : Appends log P x :=
  fun s => ⟨[], by rw [h s, List.append_nil], List.nodup_nil, fun t ht => absurd ht List.not_mem_nil⟩

theorem Appends.mono {x : Act ε σ α} (h : Appends log P x) (hpq : ∀ t, P t → Q t) : Appends log Q x := by
  intro s
  obtain ⟨more, hmore, hnd, hall⟩ := h s
  exact ⟨more, hmore, hnd, fun t ht => hpq t (hall t ht)⟩

/-- Nothing is appended under an entry that is none. -/
theorem Appends.keeps {x : Act ε σ α} (h : Appends log P x) (hnone : ∀ t, ¬ P t) : Keeps log x := by
  intro s
  obtain ⟨more, hmore, -, hall⟩ := h s
  have hnil : more = [] := List.eq_nil_iff_forall_not_mem.2 (fun t ht => hnone t (hall t ht))
  rw [hmore, hnil, List.append_nil]

/-- **One after another.** -/
theorem appends_bind {x : Act ε σ α} {f : α → Act ε σ β} (hx : Appends log P x) (hf : ∀ a, Appends log Q (f a))
    (hdisjoint : ∀ t, P t → ¬ Q t) : Appends log (fun t => P t ∨ Q t) (x >>= f) := by
  intro s
  obtain ⟨more, hmore, hnd, hall⟩ := hx s
  cases hxs : x s with
  | mk r s' =>
    rw [hxs] at hmore
    cases r with
    | error e =>
      rw [bind_of_error hxs]
      exact ⟨more, hmore, hnd, fun t ht => Or.inl (hall t ht)⟩
    | ok a =>
      obtain ⟨more', hmore', hnd', hall'⟩ := hf a s'
      rw [bind_of_ok hxs]
      refine ⟨more ++ more', by rw [hmore', hmore, List.append_assoc], ?_, fun t ht => ?_⟩
      · exact List.nodup_append'.2 ⟨hnd, hnd', fun t ht ht' => hdisjoint t (hall t ht) (hall' t ht')⟩
      · rcases List.mem_append.1 ht with ht | ht
        · exact Or.inl (hall t ht)
        · exact Or.inr (hall' t ht)

theorem appends_mapError {ε' : Type} {g : ε → ε'} {x : Act ε σ α} (h : Appends log P x) : Appends log P (mapError g x) := h

/-- A clean-up that appends nothing. -/
theorem appends_ensuring {x : Act ε σ α} {fin : Act ε σ Unit} (hx : Appends log P x) (hfin : Keeps log fin) :
    Appends log P (ensuring x fin) := by
  intro s
  obtain ⟨more, hmore, hnd, hall⟩ := hx s
  have hkept := hfin (x s).2
  refine ⟨more, ?_, hnd, hall⟩
  unfold ensuring
  cases hf : fin (x s).2 with
  | mk q s' =>
    rw [hf] at hkept
    cases q <;> exact hkept.trans hmore

section Before
variable {x : Act ε σ α} {f : α → Act ε σ β}

/-- A first step that appends nothing. -/
theorem appends_keeps_bind (hx : Keeps log x) (hf : ∀ a, Appends log P (f a)) : Appends log P (x >>= f) := by
  have h := appends_bind (P := fun _ => False) (appends_of_keeps hx) hf (fun t ht => ht.elim)
  exact h.mono (fun t ht => ht.resolve_left id)

/-- A last step that appends nothing. -/
theorem appends_bind_keeps (hx : Appends log P x) (hf : ∀ a, Keeps log (f a)) : Appends log P (x >>= f) := by
  have h := appends_bind (Q := fun _ => False) hx (fun a => appends_of_keeps (hf a)) (fun t _ => id)
  exact h.mono (fun t ht => ht.resolve_right id)

/-- What a value must be for the rest to run. -/
theorem appends_lift_bind {r : Except ε α} (hf : ∀ a, r = .ok a → Appends log P (f a)) :
    Appends log P ((lift r : Act ε σ α) >>= f) := by
  cases r with
  | error e => exact appends_of_keeps (fun _ => rfl)
  | ok a    => exact hf a rfl

end Before
end Act
