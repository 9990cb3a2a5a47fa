import GoodputLab.Base.Runs
/-!
# Semaphore — the tasks of one event loop, each inside a counting semaphore

`n` tasks are created one after the other.  Each takes a slot, acts, runs its body and releases the slot.  The loop
resumes its ready handles in their order.  A task waits when there is no free slot or when others wait already, and a
release hands its slot to the first that waits.  A body is the list of its suspensions, and from outside come only the
events that bodies wait for: which event comes when is the interleaving.

Whatever the interleaving, the tasks act in the order of their creation (`entered_eq_range`), at most `slots` of them are
inside (`inside_le_slots`), and when every event comes in the end every task finishes (`Fair.finishes`).
-/
namespace Semaphore

/-- Where a body suspends: until its event, or to the back of the ready queue. -/
inductive Suspension
  | event | yields

inductive Handle
  | start (i : Nat)
  | granted (i : Nat)
  | resume (i : Nat)

/-! ## What the ready queue holds -/

def starts (ready : List Handle) : List Nat :=
  ready.filterMap (fun h => match h with | .start i => some i | _ => none)

/-- The tasks that have been handed a slot and not been resumed since. -/
def woken (ready : List Handle) : List Nat :=
  ready.filterMap (fun h => match h with | .granted i => some i | _ => none)

def resumes (ready : List Handle) : List Nat :=
  ready.filterMap (fun h => match h with | .resume i => some i | _ => none)

@[simp] theorem starts_append (p q : List Handle) : starts (p ++ q) = starts p ++ starts q := List.filterMap_append ..

@[simp] theorem woken_append (p q : List Handle) : woken (p ++ q) = woken p ++ woken q := List.filterMap_append ..

@[simp] theorem resumes_append (p q : List Handle) : resumes (p ++ q) = resumes p ++ resumes q :=
  List.filterMap_append ..

@[simp] theorem starts_start (i : Nat) (q : List Handle) : starts (.start i :: q) = i :: starts q := rfl

@[simp] theorem starts_granted (i : Nat) (q : List Handle) : starts (.granted i :: q) = starts q := rfl

@[simp] theorem starts_resume (i : Nat) (q : List Handle) : starts (.resume i :: q) = starts q := rfl

@[simp] theorem woken_start (i : Nat) (q : List Handle) : woken (.start i :: q) = woken q := rfl

@[simp] theorem woken_granted (i : Nat) (q : List Handle) : woken (.granted i :: q) = i :: woken q := rfl

@[simp] theorem woken_resume (i : Nat) (q : List Handle) : woken (.resume i :: q) = woken q := rfl

@[simp] theorem resumes_start (i : Nat) (q : List Handle) : resumes (.start i :: q) = resumes q := rfl

@[simp] theorem resumes_granted (i : Nat) (q : List Handle) : resumes (.granted i :: q) = resumes q := rfl

@[simp] theorem resumes_resume (i : Nat) (q : List Handle) : resumes (.resume i :: q) = i :: resumes q := rfl

@[simp] theorem starts_nil : starts [] = [] := rfl

@[simp] theorem woken_nil : woken [] = [] := rfl

@[simp] theorem resumes_nil : resumes [] = [] := rfl

theorem starts_of_tasks (tasks : List Nat) : starts (tasks.map .start) = tasks := by
  simp [starts, List.filterMap_map]

theorem woken_of_tasks (tasks : List Nat) : woken (tasks.map .start) = [] := by simp [woken]

theorem resumes_of_tasks (tasks : List Nat) : resumes (tasks.map .start) = [] := by simp [resumes]

/-- A task in the semaphore's queue, and whether it has been handed a slot. -/
structure Waiter where
  task : Nat
  done : Bool
deriving DecidableEq

/-- The loop, its semaphore and its tasks; `acted` is what the tasks act on once they have a slot. -/
structure Loop (κ : Type) where
  ready     : List Handle
  value     : Nat
  waiters   : List Waiter
  left      : Nat → List Suspension
  suspended : List Nat
  entered   : List Nat
  finished  : List Nat
  acted     : κ

inductive Op
  | turn
  | event (i : Nat)

namespace Loop

variable {κ : Type}

def init (n slots : Nat) (bodies : Nat → List Suspension) (acted : κ) : Loop κ :=
  ⟨(List.range n).map .start, slots, [], bodies, [], [], [], acted⟩

/-! ## The semaphore -/

def locked (l : Loop κ) : Bool := l.value == 0 || !l.waiters.isEmpty

/-- The first task that has not been handed a slot, and the queue once it has. -/
def wakeFirst : List Waiter → Option (Nat × List Waiter)
  | []      => none
  | w :: ws => if w.done then (wakeFirst ws).map (fun p => (p.1, w :: p.2)) else some (w.task, ⟨w.task, true⟩ :: ws)

def wakeUpNext (l : Loop κ) : Option (Loop κ) :=
  (wakeFirst l.waiters).map
    (fun p => { l with value := l.value - 1, waiters := p.2, ready := l.ready ++ [.granted p.1] })

/-- Hand out the free slots while tasks wait for one. -/
def wakeWhileFree : Nat → Loop κ → Loop κ
  | 0, l        => l
  | free + 1, l =>
    match l.wakeUpNext with
    | none   => l
    | some l => wakeWhileFree free l

def release (l : Loop κ) : Loop κ := (wakeUpNext { l with value := l.value + 1 }).getD { l with value := l.value + 1 }

/-! ## The loop -/

/-- A body runs to its next suspension, or to its end. -/
def body (i : Nat) (l : Loop κ) : Loop κ :=
  match l.left i with
  | []              => release { l with finished := l.finished ++ [i] }
  | .event :: more  => { l with left := Function.update l.left i more, suspended := i :: l.suspended }
  | .yields :: more => { l with left := Function.update l.left i more, ready := l.ready ++ [.resume i] }

def enter (act : κ → Nat → κ) (i : Nat) (l : Loop κ) : Loop κ :=
  body i { l with entered := l.entered ++ [i], acted := act l.acted i }

def step (act : κ → Nat → κ) (l : Loop κ) : Op → Loop κ
  | .turn =>
    match l.ready with
    | []                 => l
    | .start i :: rest   =>
      if l.locked then { l with ready := rest, waiters := l.waiters ++ [⟨i, false⟩] }
      else enter act i { l with ready := rest, value := l.value - 1 }
    | .granted i :: rest =>
      enter act i (wakeWhileFree l.value { l with ready := rest, waiters := l.waiters.erase ⟨i, true⟩ })
    | .resume i :: rest  => body i { l with ready := rest }
  | .event i =>
    if i ∈ l.suspended then { l with suspended := l.suspended.erase i, ready := l.ready ++ [.resume i] } else l

/-! ## The invariant -/

/-- Where every task is; `entering` has a slot and has not acted, `running` is in its body, `waiting` has no slot. -/
structure Shape (n slots : Nat) (l : Loop κ) (entering running waiting : List Nat) : Prop where
  queue  : l.waiters = (woken l.ready).map (fun i => ⟨i, true⟩) ++ waiting.map (fun i => ⟨i, false⟩)
  order  : l.entered ++ (entering ++ (woken l.ready ++ (waiting ++ starts l.ready))) = List.range n
  inside : (running ++ (l.finished ++ (l.suspended ++ resumes l.ready))).Perm l.entered
  free   : l.value + entering.length + (woken l.ready).length + l.entered.length = slots + l.finished.length

/-- While tasks wait no slot is free, or one has been handed out and its task is to look again. -/
def Busy (l : Loop κ) (waiting : List Nat) : Prop := waiting = [] ∨ woken l.ready ≠ [] ∨ l.value = 0

def Inv (n slots : Nat) (l : Loop κ) : Prop := ∃ waiting, Shape n slots l [] [] waiting ∧ Busy l waiting

theorem wakeFirst_eq : ∀ (woken waiting : List Nat),
    wakeFirst (woken.map (fun i => ⟨i, true⟩) ++ waiting.map (fun i => ⟨i, false⟩)) =
      match waiting with
      | []        => none
      | i :: rest => some (i, (woken ++ [i]).map (fun i => ⟨i, true⟩) ++ rest.map (fun i => ⟨i, false⟩))
  | [], []             => rfl
  | [], i :: rest      => rfl
  | w :: woken, []     => by
    have h := wakeFirst_eq woken []
    simp only [List.map_nil, List.append_nil] at h
    simp [wakeFirst, h]
  | w :: woken, i :: r => by
    have h := wakeFirst_eq woken (i :: r)
    simp only at h
    simp only [List.map_cons, List.cons_append, wakeFirst, if_true] at h ⊢
    rw [h]
    rfl

/-- **Nobody is woken when nobody waits**, else the first that waits. -/
theorem wakeUpNext_cases {n slots : Nat} {l : Loop κ} {entering running waiting : List Nat}
    (h : Shape n slots l entering running waiting) (hfree : 0 < l.value) :
    (waiting = [] ∧ l.wakeUpNext = none) ∨
      ∃ i rest l', waiting = i :: rest ∧ l.wakeUpNext = some l' ∧ Shape n slots l' entering running rest ∧
        woken l'.ready ≠ [] ∧ l'.value + 1 = l.value := by
  have hwake := wakeFirst_eq (woken l.ready) waiting
  rw [← h.queue] at hwake
  cases waiting with
  | nil => exact Or.inl ⟨rfl, by rw [wakeUpNext, hwake]; rfl⟩
  | cons i rest =>
    refine Or.inr ⟨i, rest, _, rfl, by rw [wakeUpNext, hwake]; rfl, ⟨?_, ?_, ?_, ?_⟩, ?_, Nat.sub_add_cancel hfree⟩
    · simp
    · simpa using h.order
    · simpa using h.inside
    · have hslots := h.free
      simp only [woken_append, woken_granted, woken_nil, List.length_append, List.length_singleton]
      omega
    · simp

theorem wakeWhileFree_shape {n slots : Nat} {entering running : List Nat} : ∀ (free : Nat) (l : Loop κ)
    (waiting : List Nat), Shape n slots l entering running waiting → l.value = free →
      ∃ waiting', Shape n slots (wakeWhileFree free l) entering running waiting' ∧
        (waiting' = [] ∨ (wakeWhileFree free l).value = 0)
  | 0, _, waiting, h, hvalue => ⟨waiting, h, Or.inr hvalue⟩
  | free + 1, l, waiting, h, hvalue => by
    rcases wakeUpNext_cases h (by omega) with ⟨rfl, hnone⟩ | ⟨i, rest, l', rfl, hsome, h', -, hvalue'⟩
    · refine ⟨[], ?_, Or.inl rfl⟩
      rw [wakeWhileFree, hnone]
      exact h
    · rw [wakeWhileFree, hsome]
      exact wakeWhileFree_shape free l' rest h' (by omega)

/-- A released slot is handed to the first that waits. -/
theorem release_inv {n slots : Nat} {l : Loop κ} {w : List Nat}
    (h : Shape n slots { l with value := l.value + 1 } [] [] w) : Inv n slots (release l) := by
  unfold release
  rcases wakeUpNext_cases h (Nat.succ_pos _) with ⟨rfl, hnone⟩ | ⟨i, rest, l', rfl, hsome, h', hwoken, -⟩
  · rw [hnone]
    exact ⟨[], h, Or.inl rfl⟩
  · rw [hsome]
    exact ⟨rest, h', Or.inr (Or.inl hwoken)⟩

/-- **A task that runs its body** leaves every other task in its place. -/
theorem body_inv {n slots i : Nat} {l : Loop κ} {w : List Nat} (h : Shape n slots l [] [i] w)
    (hbusy : Busy l w) : Inv n slots (body i l) := by
  have hinside : (i :: (l.finished ++ (l.suspended ++ resumes l.ready))).Perm l.entered := h.inside
  unfold body
  cases l.left i with
  | nil =>
    refine release_inv (w := w) ⟨h.queue, h.order, ?_, ?_⟩
    · refine List.Perm.trans ?_ hinside
      rw [List.nil_append, List.append_assoc]
      exact List.perm_middle
    · have hfree := h.free
      simp only [List.length_append, List.length_singleton] at hfree ⊢
      omega
  | cons suspension more =>
    cases suspension with
    | event => exact ⟨w, ⟨h.queue, h.order, List.perm_middle.trans hinside, h.free⟩, hbusy⟩
    | yields =>
      refine ⟨w, ⟨?_, ?_, ?_, ?_⟩, ?_⟩
      · simpa using h.queue
      · simpa using h.order
      · refine List.Perm.trans ?_ hinside
        simp only [resumes_append, resumes_resume, resumes_nil, List.nil_append, ← List.append_assoc]
        exact List.perm_append_singleton i _
      · simpa using h.free
      · simpa [Busy] using hbusy

theorem enter_inv {n slots i : Nat} {l : Loop κ} {w : List Nat} (act : κ → Nat → κ)
    (h : Shape n slots l [i] [] w) (hbusy : Busy l w) : Inv n slots (enter act i l) := by
  refine body_inv (w := w) ⟨h.queue, ?_, ?_, ?_⟩ hbusy
  · simpa using h.order
  · exact (List.perm_append_singleton i _).symm.trans (h.inside.append_right [i])
  · have hfree := h.free
    simp only [List.length_append, List.length_singleton, List.length_nil] at hfree ⊢
    omega

/-- A task that is resumed with a slot handed to it hands out what else is free, then acts. -/
theorem granted_inv {n slots i : Nat} {l : Loop κ} {rest : List Handle} (act : κ → Nat → κ)
    (hready : l.ready = .granted i :: rest) (h : Inv n slots l) :
    Inv n slots (enter act i (wakeWhileFree l.value { l with ready := rest, waiters := l.waiters.erase ⟨i, true⟩ })) := by
  obtain ⟨waiting, ⟨hqueue, horder, hinside, hfree⟩, -⟩ := h
  rw [hready] at hqueue horder hinside hfree
  have hafter : Shape n slots { l with ready := rest, waiters := l.waiters.erase ⟨i, true⟩ } [i] [] waiting := by
    refine ⟨?_, ?_, ?_, ?_⟩
    · simp [hqueue]
    · simpa using horder
    · simpa using hinside
    · simp only [woken_granted, List.length_cons, List.length_nil] at hfree ⊢
      omega
  obtain ⟨waiting', hshape, hbusy⟩ := wakeWhileFree_shape l.value _ waiting hafter rfl
  refine enter_inv act hshape ?_
  rcases hbusy with rfl | hzero
  · exact Or.inl rfl
  · exact Or.inr (Or.inr hzero)

/-- A task that starts while others wait, or while no slot is free, joins the queue. -/
theorem start_inv {n slots i : Nat} {l : Loop κ} {rest : List Handle} (act : κ → Nat → κ)
    (hready : l.ready = .start i :: rest) (h : Inv n slots l) :
    Inv n slots (if l.locked then { l with ready := rest, waiters := l.waiters ++ [⟨i, false⟩] }
      else enter act i { l with ready := rest, value := l.value - 1 }) := by
  obtain ⟨waiting, ⟨hqueue, horder, hinside, hfree⟩, hbusy⟩ := h
  unfold Busy at hbusy
  rw [hready] at hqueue horder hinside hfree hbusy
  cases hlocked : l.locked with
  | true =>
    rw [if_pos rfl]
    refine ⟨waiting ++ [i], ⟨?_, ?_, ?_, ?_⟩, ?_⟩
    · simp [hqueue]
    · simpa using horder
    · simpa using hinside
    · simpa using hfree
    · unfold Busy
      simp only [locked, Bool.or_eq_true, beq_iff_eq, Bool.not_eq_true', List.isEmpty_eq_false_iff] at hlocked
      rcases hbusy with rfl | hbusy | hbusy
      · rcases hlocked with hzero | hwaiters
        · exact Or.inr (Or.inr hzero)
        · refine Or.inr (Or.inl (fun hnil => hwaiters ?_))
          rw [hqueue, woken_start, hnil]
          rfl
      · exact Or.inr (Or.inl hbusy)
      · exact Or.inr (Or.inr hbusy)
  | false =>
    rw [if_neg Bool.false_ne_true]
    simp only [locked, Bool.or_eq_false_iff, beq_eq_false_iff_ne, Bool.not_eq_false', List.isEmpty_iff] at hlocked
    obtain ⟨hvalue, hwaiters⟩ := hlocked
    -- the queue is empty, so nobody waits and nobody has been handed a slot
    rw [hwaiters] at hqueue
    obtain ⟨hwoken, hwaiting⟩ := List.append_eq_nil_iff.1 hqueue.symm
    have hwoken : woken rest = [] := List.map_eq_nil_iff.1 hwoken
    have hwaiting : waiting = [] := List.map_eq_nil_iff.1 hwaiting
    subst hwaiting
    refine enter_inv act (w := []) ⟨?_, ?_, ?_, ?_⟩ (Or.inl rfl)
    · simp [hwoken, hwaiters]
    · simpa [hwoken] using horder
    · simpa using hinside
    · simp only [woken_start, hwoken, List.length_nil, List.length_singleton] at hfree ⊢
      omega

theorem resume_inv {n slots i : Nat} {l : Loop κ} {rest : List Handle} (hready : l.ready = .resume i :: rest)
    (h : Inv n slots l) : Inv n slots (body i { l with ready := rest }) := by
  obtain ⟨waiting, ⟨hqueue, horder, hinside, hfree⟩, hbusy⟩ := h
  unfold Busy at hbusy
  rw [hready] at hqueue horder hinside hfree hbusy
  refine body_inv (w := waiting) ⟨hqueue, horder, ?_, hfree⟩ hbusy
  refine List.Perm.trans ?_ hinside
  simp only [resumes_resume, List.nil_append, List.singleton_append, ← List.append_assoc]
  exact List.perm_middle.symm

theorem event_inv {n slots i : Nat} {l : Loop κ} (hi : i ∈ l.suspended) (h : Inv n slots l) :
    Inv n slots { l with suspended := l.suspended.erase i, ready := l.ready ++ [.resume i] } := by
  obtain ⟨waiting, ⟨hqueue, horder, hinside, hfree⟩, hbusy⟩ := h
  refine ⟨waiting, ⟨?_, ?_, ?_, ?_⟩, ?_⟩
  · simpa using hqueue
  · simpa using horder
  · refine List.Perm.trans (List.Perm.append_left _ (List.Perm.append_left _ ?_)) hinside
    have hmove : (l.suspended.erase i ++ (resumes l.ready ++ [i])).Perm
        (i :: (l.suspended.erase i ++ resumes l.ready)) := by
      rw [← List.append_assoc]
      exact List.perm_append_singleton i _
    simpa using hmove.trans ((List.perm_cons_erase hi).symm.append_right (resumes l.ready))
  · simpa using hfree
  · simpa [Busy] using hbusy

/-- **One step leaves every task in its place.** -/
theorem step_inv {n slots : Nat} {l : Loop κ} (act : κ → Nat → κ) (op : Op) (h : Inv n slots l) :
    Inv n slots (step act l op) := by
  cases op with
  | turn =>
    unfold step
    cases hready : l.ready with
    | nil => exact h
    | cons handle rest =>
      cases handle with
      | start i => exact start_inv act hready h
      | granted i => exact granted_inv act hready h
      | resume i => exact resume_inv hready h
  | event i =>
    unfold step
    by_cases hi : i ∈ l.suspended
    · simp only [if_pos hi]
      exact event_inv hi h
    · simp only [if_neg hi]
      exact h

theorem init_inv (n slots : Nat) (bodies : Nat → List Suspension) (acted : κ) :
    Inv n slots (init n slots bodies acted) := by
  refine ⟨[], ⟨?_, ?_, ?_, ?_⟩, Or.inl rfl⟩
  · simp [init, woken_of_tasks]
  · simp [init, woken_of_tasks, starts_of_tasks]
  · simp [init, resumes_of_tasks]
  · simp [init, woken_of_tasks]

theorem run_inv (act : κ → Nat → κ) (n slots : Nat) (bodies : Nat → List Suspension) (acted : κ) (ops : List Op) :
    Inv n slots (Runs.run (step act) (init n slots bodies acted) ops) :=
  Runs.run_invariant (Inv n slots) ops _ (fun _ op _ h => step_inv act op h) (init_inv n slots bodies acted)

/-! ## What the invariant says -/

/-- **The tasks act in the order of their creation.** -/
theorem Inv.entered_eq_range {n slots : Nat} {l : Loop κ} (h : Inv n slots l) :
    l.entered = List.range l.entered.length ∧ l.entered.length ≤ n := by
  obtain ⟨waiting, ⟨-, horder, -, -⟩, -⟩ := h
  have hle : l.entered.length ≤ n := by
    have hlen := congrArg List.length horder
    simp only [List.length_append, List.length_range] at hlen
    omega
  have htake := congrArg (List.take l.entered.length) horder
  rw [List.take_left, List.take_range, Nat.min_eq_left hle] at htake
  exact ⟨htake, hle⟩

/-- The tasks that have a slot: between two steps none of them is in its body. -/
def inside (l : Loop κ) : List Nat := l.suspended ++ resumes l.ready

theorem Inv.inside_perm {n slots : Nat} {l : Loop κ} (h : Inv n slots l) : (l.finished ++ l.inside).Perm l.entered := by
  obtain ⟨waiting, ⟨-, -, hinside, -⟩, -⟩ := h
  exact hinside

/-- **At most `slots` tasks are inside.** -/
theorem Inv.inside_le_slots {n slots : Nat} {l : Loop κ} (h : Inv n slots l) : l.inside.length ≤ slots := by
  have hperm := h.inside_perm.length_eq
  obtain ⟨waiting, ⟨-, -, -, hfree⟩, -⟩ := h
  simp only [List.length_append, List.length_nil] at hperm hfree
  omega

/-- At most `slots` more tasks have acted than have finished. -/
theorem Inv.entered_le {n slots : Nat} {l : Loop κ} (h : Inv n slots l) :
    l.entered.length ≤ slots + l.finished.length := by
  obtain ⟨waiting, ⟨-, -, -, hfree⟩, -⟩ := h
  omega

/-- **Nobody is left waiting**: when nothing is ready and no event is to come, every task has finished. -/
theorem Inv.finished_of_quiet {n slots : Nat} {l : Loop κ} (h : Inv n slots l) (hslots : 0 < slots)
    (hready : l.ready = []) (hsuspended : l.suspended = []) : l.finished.Perm (List.range n) := by
  have hperm := h.inside_perm
  obtain ⟨waiting, ⟨-, horder, -, hfree⟩, hbusy⟩ := h
  have hlen := hperm.length_eq
  unfold Busy at hbusy
  simp only [inside, hready, hsuspended, resumes_nil, woken_nil, starts_nil, List.append_nil, List.nil_append,
    List.length_nil] at hperm horder hfree hbusy hlen
  have hwaiting : waiting = [] := by
    rcases hbusy with hnil | hnil | hzero
    · exact hnil
    · exact absurd rfl hnil
    · omega
  rw [hwaiting, List.append_nil] at horder
  rwa [horder] at hperm

/-! ## What the tasks act on -/

/-- Handing slots out moves tasks of the queue to the ready queue, and changes nothing else. -/
structure HandsOut (l l' : Loop κ) : Prop where
  entered   : l'.entered = l.entered
  acted     : l'.acted = l.acted
  left      : l'.left = l.left
  suspended : l'.suspended = l.suspended
  waiters   : l'.waiters.length = l.waiters.length
  starts    : starts l'.ready = starts l.ready
  resumes   : resumes l'.ready = resumes l.ready

theorem HandsOut.trans {l l' l'' : Loop κ} (h : HandsOut l l') (h' : HandsOut l' l'') : HandsOut l l'' :=
  ⟨h'.entered.trans h.entered, h'.acted.trans h.acted, h'.left.trans h.left, h'.suspended.trans h.suspended,
    h'.waiters.trans h.waiters, h'.starts.trans h.starts, h'.resumes.trans h.resumes⟩

theorem length_wakeFirst : ∀ {ws : List Waiter} {p : Nat × List Waiter}, wakeFirst ws = some p → p.2.length = ws.length
  | [], p, h => by cases h
  | w :: ws, p, h => by
    unfold wakeFirst at h
    by_cases hdone : w.done = true
    · rw [if_pos hdone, Option.map_eq_some_iff] at h
      obtain ⟨q, hq, rfl⟩ := h
      rw [List.length_cons, List.length_cons, length_wakeFirst hq]
    · rw [if_neg hdone] at h
      cases h
      rfl

theorem wakeUpNext_handsOut {l l' : Loop κ} (h : l.wakeUpNext = some l') : HandsOut l l' := by
  unfold wakeUpNext at h
  rw [Option.map_eq_some_iff] at h
  obtain ⟨p, hp, rfl⟩ := h
  exact ⟨rfl, rfl, rfl, rfl, length_wakeFirst hp, by simp, by simp⟩

theorem wakeWhileFree_handsOut : ∀ (free : Nat) (l : Loop κ), HandsOut l (wakeWhileFree free l)
  | 0, _        => ⟨rfl, rfl, rfl, rfl, rfl, rfl, rfl⟩
  | free + 1, l => by
    unfold wakeWhileFree
    cases hwake : l.wakeUpNext with
    | none => exact ⟨rfl, rfl, rfl, rfl, rfl, rfl, rfl⟩
    | some l' => exact (wakeUpNext_handsOut hwake).trans (wakeWhileFree_handsOut free l')

theorem release_handsOut (l : Loop κ) : HandsOut l (release l) := by
  unfold release
  cases hwake : wakeUpNext { l with value := l.value + 1 } with
  | none => exact ⟨rfl, rfl, rfl, rfl, rfl, rfl, rfl⟩
  | some l' =>
    have h := wakeUpNext_handsOut hwake
    exact ⟨h.entered, h.acted, h.left, h.suspended, h.waiters, h.starts, h.resumes⟩

theorem body_acted (i : Nat) (l : Loop κ) : (body i l).entered = l.entered ∧ (body i l).acted = l.acted := by
  unfold body
  cases l.left i with
  | nil =>
    have h := release_handsOut { l with finished := l.finished ++ [i] }
    exact ⟨h.entered, h.acted⟩
  | cons suspension more => cases suspension <;> exact ⟨rfl, rfl⟩

/-- What the tasks have made of `acted₀`, in the order they had their slots. -/
def Acted (act : κ → Nat → κ) (acted₀ : κ) (l : Loop κ) : Prop := l.acted = l.entered.foldl act acted₀

theorem enter_acted {act : κ → Nat → κ} {acted₀ : κ} {l : Loop κ} (i : Nat) (h : Acted act acted₀ l) :
    Acted act acted₀ (enter act i l) := by
  unfold enter Acted
  obtain ⟨hentered, hacted⟩ := body_acted i { l with entered := l.entered ++ [i], acted := act l.acted i }
  rw [hentered, hacted, List.foldl_append, ← h]
  rfl

theorem step_acted {act : κ → Nat → κ} {acted₀ : κ} {l : Loop κ} (op : Op) (h : Acted act acted₀ l) :
    Acted act acted₀ (step act l op) := by
  cases op with
  | turn =>
    unfold step
    cases hready : l.ready with
    | nil => exact h
    | cons handle rest =>
      cases handle with
      | start i =>
        cases hlocked : l.locked with
        | true =>
          simp only [if_true]
          exact h
        | false =>
          simp only [Bool.false_eq_true, if_false]
          exact enter_acted i h
      | granted i =>
        refine enter_acted i ?_
        have hands := wakeWhileFree_handsOut l.value { l with ready := rest, waiters := l.waiters.erase ⟨i, true⟩ }
        unfold Acted
        rw [hands.acted, hands.entered]
        exact h
      | resume i =>
        obtain ⟨hentered, hacted⟩ := body_acted i { l with ready := rest }
        unfold Acted
        simp only
        rw [hentered, hacted]
        exact h
  | event i =>
    unfold step
    by_cases hi : i ∈ l.suspended
    · simp only [if_pos hi]
      exact h
    · simp only [if_neg hi]
      exact h

/-- **What has been acted on is what the first tasks make of it, in their order**, whatever the interleaving. -/
theorem run_acted (act : κ → Nat → κ) (n slots : Nat) (bodies : Nat → List Suspension) (acted₀ : κ) (ops : List Op) :
    ∃ k ≤ n, (Runs.run (step act) (init n slots bodies acted₀) ops).entered = List.range k ∧
      (Runs.run (step act) (init n slots bodies acted₀) ops).acted = (List.range k).foldl act acted₀ := by
  obtain ⟨hentered, hle⟩ := (run_inv act n slots bodies acted₀ ops).entered_eq_range
  refine ⟨_, hle, hentered, ?_⟩
  rw [← hentered]
  exact Runs.run_invariant (Acted act acted₀) ops _ (fun _ op _ h => step_acted op h) rfl

/-! ## Every task finishes -/

/-- The turns and events that are left. -/
def work (n : Nat) (l : Loop κ) : Nat :=
  2 * ∑ i ∈ Finset.range n, (l.left i).length + 2 * (starts l.ready).length + l.waiters.length +
    (resumes l.ready).length + 2 * l.suspended.length

theorem sum_left {n i : Nat} {left : Nat → List Suspension} {suspension : Suspension} {more : List Suspension}
    (hi : i < n) (h : left i = suspension :: more) :
    ∑ j ∈ Finset.range n, (Function.update left i more j).length + 1 = ∑ j ∈ Finset.range n, (left j).length := by
  have hmem : i ∈ Finset.range n := Finset.mem_range.2 hi
  have hrest : ∑ j ∈ (Finset.range n).erase i, (Function.update left i more j).length =
      ∑ j ∈ (Finset.range n).erase i, (left j).length :=
    Finset.sum_congr rfl (fun j hj => by rw [Function.update_of_ne (Finset.ne_of_mem_erase hj)])
  rw [← Finset.add_sum_erase _ _ hmem, ← Finset.add_sum_erase _ (fun j => (left j).length) hmem, hrest,
    Function.update_self, h, List.length_cons]
  omega

theorem body_work {n i : Nat} (l : Loop κ) (hi : i < n) : work n (body i l) ≤ work n l := by
  unfold body
  cases hleft : l.left i with
  | nil =>
    have h := release_handsOut { l with finished := l.finished ++ [i] }
    simp only [work, h.left, h.starts, h.waiters, h.resumes, h.suspended, le_refl]
  | cons suspension more =>
    have hsum := sum_left hi hleft
    cases suspension with
    | event =>
      simp only [work, List.length_cons]
      omega
    | yields =>
      simp only [work, starts_append, starts_resume, starts_nil, resumes_append, resumes_resume, resumes_nil,
        List.append_nil, List.length_append, List.length_singleton]
      omega

def Enabled (l : Loop κ) : Op → Prop
  | .turn    => l.ready ≠ []
  | .event i => i ∈ l.suspended

theorem step_of_not_enabled (act : κ → Nat → κ) {l : Loop κ} {op : Op} (h : ¬ Enabled l op) : step act l op = l := by
  cases op with
  | turn =>
    have hready : l.ready = [] := not_not.1 h
    simp only [step, hready]
  | event i => simp only [step, if_neg (show i ∉ l.suspended from h)]

/-- **A step that does something leaves less to do.** -/
theorem step_work {n slots : Nat} {l : Loop κ} (act : κ → Nat → κ) {op : Op} (hinv : Inv n slots l)
    (h : Enabled l op) : work n (step act l op) < work n l := by
  have hlt : ∀ i ∈ l.entered, i < n := fun i hi => by
    obtain ⟨hrange, hle⟩ := hinv.entered_eq_range
    rw [hrange, List.mem_range] at hi
    omega
  have hperm := hinv.inside_perm
  obtain ⟨waiting, ⟨hqueue, horder, -, -⟩, -⟩ := hinv
  cases op with
  | turn =>
    unfold step
    cases hready : l.ready with
    | nil => exact absurd hready h
    | cons handle rest =>
      cases handle with
      | start i =>
        have hi : i < n := by
          rw [← List.mem_range, ← horder, hready]
          simp
        cases hlocked : l.locked with
        | true =>
          simp only [if_true, work, hready, starts_start, resumes_start, List.length_cons, List.length_append,
            List.length_nil]
          omega
        | false =>
          simp only [Bool.false_eq_true, if_false]
          refine lt_of_le_of_lt (body_work _ hi) ?_
          simp only [work, hready, starts_start, resumes_start, List.length_cons]
          omega
      | granted i =>
        have hi : i < n := by
          rw [← List.mem_range, ← horder, hready]
          simp
        have hmem : (⟨i, true⟩ : Waiter) ∈ l.waiters := by
          rw [hqueue, hready]
          simp
        have hands := wakeWhileFree_handsOut l.value { l with ready := rest, waiters := l.waiters.erase ⟨i, true⟩ }
        have herase := List.length_erase_of_mem hmem
        have hpos := List.length_pos_of_mem hmem
        refine lt_of_le_of_lt (body_work _ hi) ?_
        simp only [work, hands.left, hands.starts, hands.waiters, hands.resumes, hands.suspended, hready, starts_granted,
          resumes_granted]
        omega
      | resume i =>
        have hi : i < n := hlt i (hperm.subset (by simp [inside, hready]))
        refine lt_of_le_of_lt (body_work _ hi) ?_
        simp only [work, hready, starts_resume, resumes_resume, List.length_cons]
        omega
  | event i =>
    have hi : i ∈ l.suspended := h
    have herase := List.length_erase_of_mem hi
    have hpos := List.length_pos_of_mem hi
    simp only [step, if_pos hi, work, starts_append, starts_resume, starts_nil, resumes_append, resumes_resume,
      resumes_nil, List.append_nil, List.length_append, List.length_singleton]
    omega

/-! ## Schedules without end -/

/-- The loop after the first `t` operations of a schedule. -/
def after (act : κ → Nat → κ) (l : Loop κ) (schedule : Nat → Op) : Nat → Loop κ
  | 0     => l
  | t + 1 => step act (after act l schedule t) (schedule t)

theorem after_eq_run (act : κ → Nat → κ) (l : Loop κ) (schedule : Nat → Op) : ∀ t,
    after act l schedule t = Runs.run (step act) l ((List.range t).map schedule)
  | 0     => rfl
  | t + 1 => by
    rw [after, after_eq_run act l schedule t, List.range_succ, List.map_append, Runs.run_append]
    rfl

/-- The loop takes its turns, and every event that is waited for comes. -/
structure Fair (act : κ → Nat → κ) (l : Loop κ) (schedule : Nat → Op) : Prop where
  turns  : ∀ t, (after act l schedule t).ready ≠ [] → ∃ u, t ≤ u ∧ schedule u = .turn
  events : ∀ t, ∀ i ∈ (after act l schedule t).suspended, ∃ u, t ≤ u ∧ schedule u = .event i

theorem Fair.comes {act : κ → Nat → κ} {l : Loop κ} {schedule : Nat → Op} (h : Fair act l schedule) {t : Nat} {op : Op}
    (hop : Enabled (after act l schedule t) op) : ∃ u, t ≤ u ∧ schedule u = op := by
  cases op with
  | turn => exact h.turns t hop
  | event i => exact h.events t i hop

/-- Turns and the events of `n` tasks by turns. -/
def roundRobin (n t : Nat) : Op :=
  match t % (n + 1) with
  | 0     => .turn
  | i + 1 => .event i

section Schedules

variable (act : κ → Nat → κ) (n slots : Nat) (bodies : Nat → List Suspension) (acted₀ : κ) (schedule : Nat → Op)

theorem after_inv (t : Nat) : Inv n slots (after act (init n slots bodies acted₀) schedule t) := by
  rw [after_eq_run]
  exact run_inv act n slots bodies acted₀ _

/-- **A round robin is fair**, whatever the bodies are. -/
theorem roundRobin_fair : Fair act (init n slots bodies acted₀) (roundRobin n) := by
  have hle : ∀ t, t ≤ (n + 1) * t := fun t => Nat.le_mul_of_pos_left t n.succ_pos
  refine ⟨fun t _ => ⟨(n + 1) * t, hle t, ?_⟩,
    fun t i hi => ⟨(n + 1) * t + (i + 1), (hle t).trans (Nat.le_add_right _ _), ?_⟩⟩
  · simp [roundRobin]
  · have hinv := after_inv act n slots bodies acted₀ (roundRobin n) t
    obtain ⟨hrange, hlen⟩ := hinv.entered_eq_range
    have hentered : i ∈ (after act (init n slots bodies acted₀) (roundRobin n) t).entered :=
      hinv.inside_perm.subset (List.mem_append_right _ (List.mem_append_left _ hi))
    rw [hrange, List.mem_range] at hentered
    rw [roundRobin, Nat.mul_add_mod, Nat.mod_eq_of_lt (by omega)]

/-- A schedule leaves no more to do than there was, and as much only while nothing happens. -/
theorem after_work {t u : Nat} (h : t ≤ u) :
    work n (after act (init n slots bodies acted₀) schedule u) <
        work n (after act (init n slots bodies acted₀) schedule t) ∨
      after act (init n slots bodies acted₀) schedule u = after act (init n slots bodies acted₀) schedule t := by
  induction u, h using Nat.le_induction with
  | base => exact Or.inr rfl
  | succ u _ ih =>
    by_cases henabled : Enabled (after act (init n slots bodies acted₀) schedule u) (schedule u)
    · have hstep := step_work act (after_inv act n slots bodies acted₀ schedule u) henabled
      rcases ih with hlt | heq
      · exact Or.inl (hstep.trans hlt)
      · rw [heq] at hstep
        rw [after, heq]
        exact Or.inl hstep
    · rw [after, step_of_not_enabled act henabled]
      exact ih

/-- In a fair schedule nothing is left to do in the end. -/
theorem Fair.quiet (h : Fair act (init n slots bodies acted₀) schedule) : ∀ (w t : Nat),
    work n (after act (init n slots bodies acted₀) schedule t) ≤ w →
      ∃ u, ∀ op, ¬ Enabled (after act (init n slots bodies acted₀) schedule u) op := by
  intro w
  induction w with
  | zero =>
    intro t hwork
    refine ⟨t, fun op hop => ?_⟩
    have hstep := step_work act (after_inv act n slots bodies acted₀ schedule t) hop
    omega
  | succ w ih =>
    intro t hwork
    by_cases hquiet : ∀ op, ¬ Enabled (after act (init n slots bodies acted₀) schedule t) op
    · exact ⟨t, hquiet⟩
    · push Not at hquiet
      obtain ⟨op, hop⟩ := hquiet
      obtain ⟨u, htu, hu⟩ := h.comes hop
      -- either something happened up to `u`, or the operation is still enabled when its turn comes
      rcases after_work act n slots bodies acted₀ schedule htu with hlt | heq
      · exact ih u (by omega)
      · rw [← heq, ← hu] at hop
        have hstep := step_work act (after_inv act n slots bodies acted₀ schedule u) hop
        rw [heq] at hstep
        refine ih (u + 1) ?_
        rw [after, heq]
        omega

/-- **Every task finishes** in a fair schedule, when there is a slot at all. -/
theorem Fair.finishes (hslots : 0 < slots) (h : Fair act (init n slots bodies acted₀) schedule) :
    ∃ t, (after act (init n slots bodies acted₀) schedule t).finished.Perm (List.range n) := by
  obtain ⟨t, hquiet⟩ := h.quiet act n slots bodies acted₀ schedule _ 0 (le_refl _)
  refine ⟨t, (after_inv act n slots bodies acted₀ schedule t).finished_of_quiet hslots (not_not.1 (hquiet .turn)) ?_⟩
  exact List.eq_nil_iff_forall_not_mem.2 (fun i => hquiet (.event i))

end Schedules

/-! ## No slots -/

def NobodyEntered (n : Nat) (l : Loop κ) : Prop := Inv n 0 l ∧ l.entered = []

theorem step_nobodyEntered {n : Nat} {l : Loop κ} (act : κ → Nat → κ) (op : Op) (h : NobodyEntered n l) :
    NobodyEntered n (step act l op) := by
  obtain ⟨hinv, hentered⟩ := h
  refine ⟨step_inv act op hinv, ?_⟩
  have hperm := hinv.inside_perm
  rw [hentered, List.perm_nil, List.append_eq_nil_iff] at hperm
  obtain ⟨hfinished, hinside⟩ := hperm
  obtain ⟨waiting, ⟨-, -, -, hfree⟩, -⟩ := hinv
  rw [hentered, hfinished] at hfree
  simp only [List.length_nil] at hfree
  cases op with
  | turn =>
    unfold step
    cases hready : l.ready with
    | nil => exact hentered
    | cons handle rest =>
      rw [hready] at hfree
      cases handle with
      | start i =>
        have hlocked : l.locked = true := by
          simp only [locked, Bool.or_eq_true, beq_iff_eq]
          exact Or.inl (by omega)
        simp only [hlocked, if_true]
        exact hentered
      | granted i =>
        simp only [woken_granted, List.length_cons] at hfree
        omega
      | resume i =>
        rw [inside, hready, resumes_resume, List.append_eq_nil_iff] at hinside
        exact absurd hinside.2 (by simp)
  | event i =>
    unfold step
    by_cases hi : i ∈ l.suspended
    · simp only [if_pos hi]
      exact hentered
    · simp only [if_neg hi]
      exact hentered

/-- **Without a slot nobody is ever inside.** -/
theorem entered_of_no_slots (act : κ → Nat → κ) (n : Nat) (bodies : Nat → List Suspension) (acted₀ : κ)
    (ops : List Op) : (Runs.run (step act) (init n 0 bodies acted₀) ops).entered = [] := by
  have h : NobodyEntered n (Runs.run (step act) (init n 0 bodies acted₀) ops) :=
    Runs.run_invariant (NobodyEntered n) ops _ (fun _ op _ h => step_nobodyEntered act op h)
      ⟨init_inv n 0 bodies acted₀, rfl⟩
  exact h.2

section Schedules

variable (act : κ → Nat → κ) (n slots : Nat) (bodies : Nat → List Suspension) (acted₀ : κ) (schedule : Nat → Op)

/-- **On a fair schedule every task finishes exactly when there is a slot**, or no task. -/
theorem Fair.finishes_iff (h : Fair act (init n slots bodies acted₀) schedule) :
    (∃ t, (after act (init n slots bodies acted₀) schedule t).finished.Perm (List.range n)) ↔ 0 < slots ∨ n = 0 := by
  constructor
  · rintro ⟨t, hfinished⟩
    rcases Nat.eq_zero_or_pos slots with rfl | hpos
    · right
      have hnobody := entered_of_no_slots act n bodies acted₀ ((List.range t).map schedule)
      have hperm := (after_inv act n 0 bodies acted₀ schedule t).inside_perm
      rw [after_eq_run, hnobody, ← after_eq_run, List.perm_nil, List.append_eq_nil_iff] at hperm
      have hlen := hfinished.length_eq
      rw [hperm.1, List.length_range] at hlen
      exact hlen.symm
    · exact Or.inl hpos
  · rintro (hpos | rfl)
    · exact h.finishes act n slots bodies acted₀ schedule hpos
    · exact ⟨0, List.Perm.refl []⟩

/-- **Once every task has finished, all have acted, in their order.** -/
theorem acted_of_finished {t : Nat}
    (h : (after act (init n slots bodies acted₀) schedule t).finished.Perm (List.range n)) :
    (after act (init n slots bodies acted₀) schedule t).acted = (List.range n).foldl act acted₀ := by
  obtain ⟨k, hk, hentered, hacted⟩ := run_acted act n slots bodies acted₀ ((List.range t).map schedule)
  rw [← after_eq_run] at hentered hacted
  have hinside := (after_inv act n slots bodies acted₀ schedule t).inside_perm.length_eq
  have hlen := h.length_eq
  rw [hentered, List.length_append, List.length_range] at hinside
  rw [List.length_range] at hlen
  rw [hacted, show k = n by omega]

end Schedules

end Loop
end Semaphore
