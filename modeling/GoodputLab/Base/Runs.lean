import Mathlib
/-!
# Runs — a machine taking one operation after another

`run step s ops` is where the machine stands after the operations.  What every step preserves every run preserves
(`run_invariant`), and a quantity no other operation touches is the fold of the operations that do (`run_observe`).
`log` is what the operations emit on the way: what every step preserves of state and log together every run preserves
(`run_log_invariant`), and two machines that stay related emit the same (`log_eq_of_bisim`), so two in step do
(`log_eq_of_inStep`).
`runUntil` takes operations until one is the last: it is a run of all of them, or of those up to the last
(`runUntil_cases`).
-/

namespace Runs

variable {σ ο : Type}

def run (step : σ → ο → σ) (s : σ) (ops : List ο) : σ := ops.foldl step s

@[simp] theorem run_nil (step : σ → ο → σ) (s : σ) : run step s [] = s := rfl

theorem run_cons (step : σ → ο → σ) (s : σ) (op : ο) (ops : List ο) :
    run step s (op :: ops) = run step (step s op) ops := rfl

theorem run_append (step : σ → ο → σ) (s : σ) (p q : List ο) : run step s (p ++ q) = run step (run step s p) q :=
  List.foldl_append

/-- **What every step preserves, every run preserves.** -/
theorem run_invariant {step : σ → ο → σ} (inv : σ → Prop) :
    ∀ (ops : List ο) (s : σ), (∀ s, ∀ op ∈ ops, inv s → inv (step s op)) → inv s → inv (run step s ops)
  | [], _, _, h => h
  | op :: ops, s, hstep, h => by
    rw [run_cons]
    exact run_invariant inv ops (step s op) (fun s o ho => hstep s o (List.mem_cons_of_mem _ ho))
      (hstep s op List.mem_cons_self h)

/-- **An observation that each step updates on its own is updated so by a run**: `view` of the state after a run is the
fold of `after` over the operations. -/
theorem run_observe {τ : Type} {step : σ → ο → σ} (view : σ → τ) {after : τ → ο → τ}
    (hstep : ∀ s op, view (step s op) = after (view s) op) :
    ∀ (ops : List ο) (s : σ), view (run step s ops) = ops.foldl after (view s)
  | [], _ => rfl
  | op :: ops, s => by
    rw [run_cons, run_observe view hstep ops, hstep]
    rfl

/-- A run of no operation has no point. -/
theorem forall_split_nil {P : List ο → ο → Prop} : ∀ p op q, ([] : List ο) = p ++ op :: q → P p op := by
  intro p op q h
  simp at h

/-! ## The log of a run -/

/-- What the operations of a run emit, in their order. -/
def log {τ : Type} (step : σ → ο → σ) (emit : σ → ο → List τ) : σ → List ο → List τ
  | _, []        => []
  | s, op :: ops => emit s op ++ log step emit (step s op) ops

/-- What a run emits was emitted at one of its operations. -/
theorem mem_log {τ : Type} {step : σ → ο → σ} {emit : σ → ο → List τ} {x : τ} : ∀ {ops : List ο} {s : σ},
    x ∈ log step emit s ops ↔ ∃ p op q, ops = p ++ op :: q ∧ x ∈ emit (run step s p) op
  | [], s => by
    constructor
    · intro h
      cases h
    · rintro ⟨p, op, q, h, -⟩
      exact absurd h.symm (by simp)
  | op :: ops, s => by
    rw [log, List.mem_append, mem_log]
    constructor
    · rintro (h | ⟨p, o, q, rfl, h⟩)
      · exact ⟨[], op, ops, rfl, h⟩
      · exact ⟨op :: p, o, q, rfl, h⟩
    · rintro ⟨p, o, q, h, hx⟩
      cases p with
      | nil =>
        cases h
        exact Or.inl hx
      | cons a p =>
        cases h
        exact Or.inr ⟨p, o, q, rfl, hx⟩

/-- **What every step preserves of the state and the log before it, every run preserves.** -/
theorem run_log_invariant {τ : Type} {step : σ → ο → σ} (emit : σ → ο → List τ) (inv : σ → List τ → Prop)
    (hstep : ∀ s past op, inv s past → inv (step s op) (past ++ emit s op)) :
    ∀ (ops : List ο) (s : σ) (past : List τ), inv s past → inv (run step s ops) (past ++ log step emit s ops)
  | [], s, past, h => by
    rw [log, List.append_nil]
    exact h
  | op :: ops, s, past, h => by
    have hrest := run_log_invariant emit inv hstep ops _ _ (hstep s past op h)
    rwa [List.append_assoc] at hrest

/-- **Two machines that stay related emit the same**, each on its own operations, and are related at the end. -/
theorem log_eq_of_bisim {σ' ο' τ : Type} {step : σ → ο → σ} {step' : σ' → ο' → σ'} {emit : σ → ο → List τ}
    {emit' : σ' → ο' → List τ} (rel : σ → σ' → Prop) (same : ο → ο' → Prop)
    (hstep : ∀ s t op op', rel s t → same op op' → emit s op = emit' t op' ∧ rel (step s op) (step' t op')) :
    ∀ {ops : List ο} {ops' : List ο'}, List.Forall₂ same ops ops' → ∀ {s : σ} {t : σ'}, rel s t →
      log step emit s ops = log step' emit' t ops' ∧ rel (run step s ops) (run step' t ops')
  | [], _, .nil, _, _, h => ⟨rfl, h⟩
  | op :: ops, _, .cons hop hops, s, t, h => by
    obtain ⟨hemit, hnext⟩ := hstep s t op _ h hop
    obtain ⟨hlog, hend⟩ := log_eq_of_bisim rel same hstep hops hnext
    exact ⟨by rw [log, log, hemit, hlog], hend⟩

/-- **Two machines in step emit the same**, and are in step at the end. -/
theorem log_eq_of_inStep {τ : Type} {step : σ → ο → σ} {emit : σ → ο → List τ} (rel : σ → σ → Prop)
    (hstep : ∀ s t op, rel s t → emit s op = emit t op ∧ rel (step s op) (step t op)) (ops : List ο) (s t : σ)
    (h : rel s t) :
    log step emit s ops = log step emit t ops ∧ rel (run step s ops) (run step t ops) := by
  refine log_eq_of_bisim rel (· = ·) (fun s t op op' h hop => ?_) (List.forall₂_eq_eq_eq ▸ rfl) h
  subst hop
  exact hstep s t op h

/-! ## The points of a run -/

/-- What holds at every operation of a run, of the operations before it: at the first, and at every later one. -/
theorem forall_split_cons {P : List ο → ο → Prop} {op : ο} {ops : List ο} :
    (∀ p o q, op :: ops = p ++ o :: q → P p o) ↔ P [] op ∧ ∀ p o q, ops = p ++ o :: q → P (op :: p) o := by
  constructor
  · intro h
    exact ⟨h [] op ops rfl, fun p o q hq => h (op :: p) o q (by rw [hq, List.cons_append])⟩
  · rintro ⟨hfirst, hrest⟩ p o q hq
    cases p with
    | nil =>
      cases hq
      exact hfirst
    | cons x p =>
      rw [List.cons_append] at hq
      cases hq
      exact hrest p o q rfl

/-- What holds at every operation of a run holds at every operation of its beginnings. -/
theorem forall_split_of_append {P : List ο → ο → Prop} {ops more : List ο}
    (h : ∀ p o q, ops ++ more = p ++ o :: q → P p o) : ∀ p o q, ops = p ++ o :: q → P p o :=
  fun p o q hq => h p o (q ++ more) (by rw [hq, List.append_assoc, List.cons_append])

/-- What holds at every operation so far holds at every operation once it holds at the next. -/
theorem forall_split_snoc {P : List ο → ο → Prop} {op : ο} : ∀ {ops : List ο},
    (∀ p o q, ops = p ++ o :: q → P p o) → P ops op → ∀ p o q, ops ++ [op] = p ++ o :: q → P p o := by
  intro ops h hlast p o q hq
  rcases List.eq_nil_or_concat q with rfl | ⟨q, x, rfl⟩
  · obtain ⟨rfl, hop⟩ := List.append_inj' hq rfl
    cases hop
    exact hlast
  · rw [List.concat_eq_append, ← List.cons_append, ← List.append_assoc] at hq
    exact h p o q (List.append_inj' hq rfl).1

theorem forall_prefix_cons {P : List ο → Prop} {op : ο} {ops : List ο} :
    (∀ p q, op :: ops = p ++ q → P p) ↔ P [] ∧ ∀ p q, ops = p ++ q → P (op :: p) := by
  constructor
  · intro h
    exact ⟨h [] _ rfl, fun p q hq => h (op :: p) q (by rw [hq, List.cons_append])⟩
  · rintro ⟨hfirst, hrest⟩ p q hq
    cases p with
    | nil => exact hfirst
    | cons x p =>
      rw [List.cons_append] at hq
      cases hq
      exact hrest p q rfl

/-! ## Runs that stop early -/

/-- `stops s op` says that `op`, taken at `s`, is the last operation. -/
def runUntil (step : σ → ο → σ) (stops : σ → ο → Bool) : List ο → σ → σ
  | [], s        => s
  | op :: ops, s => if stops s op then step s op else runUntil step stops ops (step s op)

def GoesOn (step : σ → ο → σ) (stops : σ → ο → Bool) (ops : List ο) (s : σ) : Prop :=
  ∀ p op q, ops = p ++ op :: q → stops (run step s p) op = false

theorem goesOn_cons {step : σ → ο → σ} {stops : σ → ο → Bool} {op : ο} {ops : List ο} {s : σ} :
    GoesOn step stops (op :: ops) s ↔ stops s op = false ∧ GoesOn step stops ops (step s op) :=
  forall_split_cons

/-- **A run that may stop early** is a run to the end, or to the first operation that is the last. -/
theorem runUntil_cases (step : σ → ο → σ) (stops : σ → ο → Bool) : ∀ (ops : List ο) (s : σ),
    (GoesOn step stops ops s ∧ runUntil step stops ops s = run step s ops) ∨
      ∃ p op q, ops = p ++ op :: q ∧ GoesOn step stops p s ∧ stops (run step s p) op = true ∧
        runUntil step stops ops s = run step s (p ++ [op])
  | [], s => Or.inl ⟨forall_split_nil, rfl⟩
  | op :: ops, s => by
    unfold runUntil
    cases hs : stops s op with
    | true => exact Or.inr ⟨[], op, ops, rfl, forall_split_nil, hs, rfl⟩
    | false =>
      rw [if_neg Bool.false_ne_true]
      rcases runUntil_cases step stops ops (step s op) with ⟨hgo, hrun⟩ | ⟨p, o, q, rfl, hgo, hlast, hrun⟩
      · exact Or.inl ⟨goesOn_cons.2 ⟨hs, hgo⟩, hrun⟩
      · exact Or.inr ⟨op :: p, o, q, rfl, goesOn_cons.2 ⟨hs, hgo⟩, hlast, hrun⟩

theorem runUntil_eq_run {step : σ → ο → σ} {stops : σ → ο → Bool} (h : ∀ s op, stops s op = false) (ops : List ο)
    (s : σ) : runUntil step stops ops s = run step s ops := by
  rcases runUntil_cases step stops ops s with ⟨-, hrun⟩ | ⟨p, op, q, -, -, hlast, -⟩
  · exact hrun
  · rw [h] at hlast
    cases hlast

end Runs
