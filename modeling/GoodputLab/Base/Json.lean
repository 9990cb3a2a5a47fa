import GoodputLab.Base.Text
/-!
# Json — decoded JSON as a dynamically typed language handles it

Every operation is defined on every value: what the type does not support raises, and the kind of the exception says
which handlers catch it.  In a dictionary an assignment is read back (`valueOf_setKey`) and leaves every other entry as
it is (`withoutKeys_setKey`).
-/

/-- The exceptions of the operations below, and those of a decoder: `jsonDecodeError` is a kind of `valueError`, `other` is
none of these. -/
inductive PyError
  | jsonDecodeError | valueError | keyError | indexError | typeError | attributeError | other
deriving DecidableEq, Repr

def PyError.isValueError : PyError → Bool
  | .jsonDecodeError | .valueError => true
  | _                              => false

/-- The literals `NaN`, `Infinity` and `-Infinity`, which the decoder takes for numbers. -/
inductive NonFinite
  | nan | infinity | negInfinity
deriving DecidableEq, Repr

inductive Json
  | null
  | bool (b : Bool)
  | num (q : ℚ)
  | nonFinite (x : NonFinite)
  | str (s : Text)
  | arr (l : List Json)
  | obj (fields : List (Text × Json))
deriving Inhabited

namespace Json

def truthy : Json → Bool
  | null        => false
  | bool b      => b
  | num q       => q ≠ 0
  | nonFinite _ => true
  | str s       => !s.isEmpty
  | arr l       => !l.isEmpty
  | obj fs      => !fs.isEmpty

/-- `x or y`. -/
def or (x y : Json) : Json := if x.truthy then x else y

/-- `x.get(key, default)`: only an object has the attribute. -/
def get (x : Json) (key : Text) (default : Json) : Except PyError Json :=
  match x with
  | obj fs => .ok ((fs.lookup key).getD default)
  | _      => .error .attributeError

/-- `x[0]`. -/
def first : Json → Except PyError Json
  | arr []       => .error .indexError
  | arr (a :: _) => .ok a
  | str []       => .error .indexError
  | str (c :: _) => .ok (str [c])
  | obj _        => .error .keyError
  | _            => .error .typeError

/-- `x.startswith(prefix)`: only a string has the attribute. -/
def startsWith (x : Json) (s : Text) : Except PyError Bool :=
  match x with
  | str t => .ok (t.startsWith s)
  | _     => .error .attributeError

def pair : Json → Option (Json × Json)
  | arr [arr _, _]       => none
  | arr [obj _, _]       => none
  | arr [k, v]           => some (k, v)
  | str [a, b]           => some (str [a], str [b])
  | obj [(a, _), (b, _)] => some (str a, str b)
  | _                    => none

def dict : Json → Option (List (Json × Json))
  | obj fs => some (fs.map (fun f => (str f.1, f.2)))
  | arr l  => l.mapM pair
  | str [] => some []
  | _      => none

def isStr (s : Text) : Json → Bool
  | str t => t = s
  | _     => false

end Json

/-- Assignment and removal of a string key in a dictionary with any keys. -/
def setKey (key : Text) (v : Json) : List (Json × Json) → List (Json × Json)
  | []      => [(.str key, v)]
  | p :: ps => if p.1.isStr key then (p.1, v) :: ps else p :: setKey key v ps

def popKey (key : Text) (d : List (Json × Json)) : List (Json × Json) := d.filter (fun p => !p.1.isStr key)

def hasKey (key : Text) (d : List (Json × Json)) : Bool := d.any (fun p => p.1.isStr key)

def valueOf (key : Text) (d : List (Json × Json)) : Option Json := (d.find? (fun p => p.1.isStr key)).map (fun p => p.2)

/-- The entries under none of the keys. -/
def withoutKeys (keys : List Text) (d : List (Json × Json)) : List (Json × Json) :=
  d.filter (fun p => !keys.any (fun k => p.1.isStr k))

theorem Json.isStr_iff {x : Json} {s : Text} : x.isStr s = true ↔ x = .str s := by
  cases x <;> simp [Json.isStr]

theorem hasKey_eq (key : Text) (d : List (Json × Json)) : hasKey key d = (valueOf key d).isSome := by
  rw [hasKey, valueOf, Option.isSome_map, List.isSome_find?]

theorem valueOf_cons (key : Text) (p : Json × Json) (d : List (Json × Json)) :
    valueOf key (p :: d) = if p.1.isStr key then some p.2 else valueOf key d := by
  rw [valueOf, List.find?_cons]
  cases p.1.isStr key <;> rfl

theorem valueOf_setKey (key : Text) (v : Json) : ∀ d, valueOf key (setKey key v d) = some v
  | []     => by simp [setKey, valueOf_cons, Json.isStr]
  | p :: d => by
    cases hp : p.1.isStr key <;> simp [setKey, valueOf_cons, hp, valueOf_setKey key v d]

theorem Json.isStr_of_ne {x : Json} {key key' : Text} (h : x.isStr key = true) (hne : key' ≠ key) :
    x.isStr key' = false := by
  rw [Json.isStr_iff.1 h, Json.isStr, decide_eq_false_iff_not]
  exact Ne.symm hne

theorem valueOf_setKey_of_ne {key key' : Text} (hne : key' ≠ key) (v : Json) :
    ∀ d, valueOf key' (setKey key v d) = valueOf key' d
  | []     => by simp [setKey, valueOf_cons, Json.isStr, Ne.symm hne]
  | p :: d => by
    cases hp : p.1.isStr key with
    | true => simp [setKey, valueOf_cons, hp, Json.isStr_of_ne hp hne]
    | false => simp [setKey, valueOf_cons, hp, valueOf_setKey_of_ne hne v d]

theorem valueOf_popKey_of_ne {key key' : Text} (hne : key' ≠ key) :
    ∀ d : List (Json × Json), valueOf key' (popKey key d) = valueOf key' d
  | []     => rfl
  | p :: d => by
    have ih := valueOf_popKey_of_ne hne d
    unfold popKey at ih ⊢
    cases hp : p.1.isStr key with
    | true => simp [valueOf_cons, hp, Json.isStr_of_ne hp hne, ih]
    | false => simp [valueOf_cons, hp, ih]

theorem withoutKeys_setKey {keys : List Text} {key : Text} (h : key ∈ keys) (v : Json) :
    ∀ d, withoutKeys keys (setKey key v d) = withoutKeys keys d
  | []     => by simpa [setKey, withoutKeys, Json.isStr] using h
  | p :: d => by
    have ih := withoutKeys_setKey h v d
    unfold withoutKeys at ih ⊢
    cases hp : p.1.isStr key with
    | true =>
      have hany : keys.any (fun k => p.1.isStr k) = true := List.any_eq_true.2 ⟨key, h, hp⟩
      simp [setKey, hp, hany]
    | false => simp only [setKey, hp, Bool.false_eq_true, if_false, List.filter_cons, ih]

theorem withoutKeys_popKey {keys : List Text} {key : Text} (h : key ∈ keys) (d : List (Json × Json)) :
    withoutKeys keys (popKey key d) = withoutKeys keys d := by
  rw [withoutKeys, popKey, List.filter_filter]
  refine List.filter_congr (fun p _ => ?_)
  cases hp : p.1.isStr key with
  | false => simp
  | true =>
    have hany : keys.any (fun k => p.1.isStr k) = true := List.any_eq_true.2 ⟨key, h, hp⟩
    simp [hany]
