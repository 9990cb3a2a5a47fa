import Mathlib
/-!
# RollingHash — a polynomial hash modulo `m`

Where the base has no common factor with the modulus, a step takes different hashes to different hashes
(`step_injOn`), and so does a whole text (`hashFrom_injOn`): texts that differ in front of a common rest have different
hashes when the parts in front have.
-/
namespace RollingHash

def step (m b h c : Nat) : Nat := (h * b + c) % m

def hashFrom (m b h : Nat) (cs : List Nat) : Nat := cs.foldl (step m b) h

variable {m b : Nat}

theorem step_lt (hm : 0 < m) (h c : Nat) : step m b h c < m := Nat.mod_lt _ hm

theorem hashFrom_append (h : Nat) (cs ds : List Nat) :
    hashFrom m b h (cs ++ ds) = hashFrom m b (hashFrom m b h cs) ds := List.foldl_append

theorem hashFrom_lt (hm : 0 < m) : ∀ (cs : List Nat) (h : Nat), h < m → hashFrom m b h cs < m
  | [], _, hh => hh
  | c :: cs, h, _ => hashFrom_lt hm cs (step m b h c) (step_lt hm h c)

theorem step_injOn (hb : Nat.Coprime m b) {h h' c : Nat} (hh : h < m) (hh' : h' < m)
    (heq : step m b h c = step m b h' c) : h = h' := by
  have hsum : h * b + c ≡ h' * b + c [MOD m] := heq
  have hmul : h * b ≡ h' * b [MOD m] := Nat.ModEq.add_right_cancel' c hsum
  exact (Nat.ModEq.cancel_right_of_coprime hb hmul).eq_of_lt_of_lt hh hh'

/-- **A common rest keeps different hashes apart.** -/
theorem hashFrom_injOn (hm : 0 < m) (hb : Nat.Coprime m b) : ∀ (cs : List Nat) (h h' : Nat), h < m → h' < m →
    hashFrom m b h cs = hashFrom m b h' cs → h = h'
  | [], _, _, _, _, heq => heq
  | c :: cs, h, h', hh, hh', heq =>
    step_injOn hb hh hh'
      (hashFrom_injOn hm hb cs (step m b h c) (step m b h' c) (step_lt hm h c) (step_lt hm h' c) heq)

end RollingHash
