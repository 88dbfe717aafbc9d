import Ajenda.DoubleRounding

/-!
# Containment of documents

The `@>` of PostgreSQL's JSONB, its `->` and `->>`, and Python's `==` on what `json.loads` reads
from a stored document. Python takes `true` for `1` and reads a number with a fraction as a double,
JSONB does neither, so equal documents contain each other as long as no booleans and no numbers
that a double changes are in them. The keys of an object differ.
-/
namespace JsonValue

/-- A stored document. A number is `unscaled / 10 ^ scale`, written with `scale` decimals. -/
inductive Jsonb
  | null
  | bool (b : Bool)
  | numeric (unscaled : ℤ) (scale : ℕ)
  | str (s : String)
  | arr (items : List Jsonb)
  | obj (fields : List (String × Jsonb))
  deriving Repr, Inhabited

def numericValue (unscaled : ℤ) (scale : ℕ) : ℚ := mkRat unscaled (10 ^ scale)

/-- A numeral without decimals is read as an integer, one with decimals as a double. -/
def readNumeric (unscaled : ℤ) (scale : ℕ) : JsonNumber :=
  if scale = 0 then .finite unscaled else DoubleRounding.toDouble (numericValue unscaled scale)

mutual

/-- The document as JSONB compares it. -/
def Jsonb.exact : Jsonb → Json
  | .null => .null
  | .bool b => .bool b
  | .numeric n scale => .num (.finite (numericValue n scale))
  | .str s => .str s
  | .arr xs => .arr (exactItems xs)
  | .obj fs => .obj (exactFields fs)

def exactItems : List Jsonb → List Json
  | [] => []
  | x :: xs => x.exact :: exactItems xs

def exactFields : List (String × Jsonb) → List (String × Json)
  | [] => []
  | (k, v) :: fs => (k, v.exact) :: exactFields fs

end

mutual

/-- What `json.loads` reads from the document. -/
def Jsonb.loads : Jsonb → Json
  | .null => .null
  | .bool b => .bool b
  | .numeric n scale => .num (readNumeric n scale)
  | .str s => .str s
  | .arr xs => .arr (loadsItems xs)
  | .obj fs => .obj (loadsFields fs)

def loadsItems : List Jsonb → List Json
  | [] => []
  | x :: xs => x.loads :: loadsItems xs

def loadsFields : List (String × Jsonb) → List (String × Json)
  | [] => []
  | (k, v) :: fs => (k, v.loads) :: loadsFields fs

end

def fieldOf : List (String × Jsonb) → String → Option Jsonb
  | [], _ => none
  | (j, v) :: fs, k => if j = k then some v else fieldOf fs k

/-- `j -> k`. -/
def Jsonb.field (j : Jsonb) (k : String) : Option Jsonb :=
  match j with
  | .obj fs => fieldOf fs k
  | _ => none

mutual

/-- `a == b` of decoded documents. Two objects with as many keys need to be compared on one's. -/
def Json.pyEq : Json → Json → Bool
  | .null, .null => true
  | .bool a, .bool b => a = b
  | .bool a, .num b => b = .finite (if a then 1 else 0)
  | .num a, .bool b => a = .finite (if b then 1 else 0)
  | .num a, .num b => a = b
  | .str a, .str b => a = b
  | .arr xs, .arr ys => pyEqItems xs ys
  | .obj fs, .obj gs => fs.length = gs.length && pyEqFields fs gs
  | _, _ => false

def pyEqItems : List Json → List Json → Bool
  | [], [] => true
  | x :: xs, y :: ys => x.pyEq y && pyEqItems xs ys
  | _, _ => false

def pyEqFields (fs : List (String × Json)) : List (String × Json) → Bool
  | [] => true
  | (k, w) :: gs =>
    (match Fields.get fs k with
      | some v => v.pyEq w
      | none => false) && pyEqFields fs gs

end

mutual

/-- Containment below the top level. -/
def Json.holds : Json → Json → Bool
  | .null, .null => true
  | .bool a, .bool b => a = b
  | .num a, .num b => a = b
  | .str a, .str b => a = b
  | .arr xs, .arr ys => holdsItems xs ys
  | .obj fs, .obj gs => holdsFields fs gs
  | _, _ => false

def holdsItems (xs : List Json) : List Json → Bool
  | [] => true
  | y :: ys => xs.any (fun x => x.holds y) && holdsItems xs ys

def holdsFields (fs : List (String × Json)) : List (String × Json) → Bool
  | [] => true
  | (k, w) :: gs =>
    (match Fields.get fs k with
      | some v => v.holds w
      | none => false) && holdsFields fs gs

end

/-- `a @> b`: at the top level an array also contains a scalar among its items. -/
def Json.contains (a b : Json) : Bool :=
  match a, b with
  | .arr _, .arr _ => a.holds b
  | .arr _, .obj _ => false
  | .arr xs, b => xs.any fun x => x.holds b
  | a, b => a.holds b

/-- `j ->> k`, where `text` writes a document as text. -/
def Jsonb.fieldText (text : Jsonb → String) (j : Jsonb) (k : String) : Option String :=
  match j.field k with
  | none => none
  | some .null => none
  | some (.str s) => some s
  | some v => some (text v)

mutual

/-- No boolean is in the document. -/
def Json.plain : Json → Bool
  | .bool _ => false
  | .arr xs => plainItems xs
  | .obj fs => plainFields fs
  | _ => true

def plainItems : List Json → Bool
  | [] => true
  | x :: xs => x.plain && plainItems xs

def plainFields : List (String × Json) → Bool
  | [] => true
  | (_, v) :: fs => v.plain && plainFields fs

end

mutual

/-- No boolean is in the stored document, and no number that is read as another one. -/
def Jsonb.plain : Jsonb → Bool
  | .bool _ => false
  | .numeric n scale => readNumeric n scale = .finite (numericValue n scale)
  | .arr xs => storedPlainItems xs
  | .obj fs => storedPlainFields fs
  | _ => true

def storedPlainItems : List Jsonb → Bool
  | [] => true
  | x :: xs => x.plain && storedPlainItems xs

def storedPlainFields : List (String × Jsonb) → Bool
  | [] => true
  | (_, v) :: fs => v.plain && storedPlainFields fs

end

section Containment
variable {a b v w : Json} {xs ys : List Json} {fs gs : List (String × Json)} {k : String}

theorem plain_of_get (h : plainFields fs = true) (hget : Fields.get fs k = some v) :
    v.plain = true := by
  induction fs with
  | nil => cases hget
  | cons f fs ih =>
    obtain ⟨j, w⟩ := f
    rw [plainFields, Bool.and_eq_true] at h
    rw [Fields.get_cons] at hget
    split_ifs at hget
    · cases hget
      exact h.1
    · exact ih h.2 hget

theorem holdsItems_iff : holdsItems xs ys = true ↔ ∀ y ∈ ys, ∃ x ∈ xs, x.holds y = true := by
  induction ys with
  | nil => simp [holdsItems]
  | cons y ys ih => simp [holdsItems, ih]

theorem get_of_pyEqFields (h : pyEqFields fs gs = true) (hget : Fields.get gs k = some w) :
    ∃ v, Fields.get fs k = some v ∧ v.pyEq w = true := by
  induction gs with
  | nil => cases hget
  | cons g gs ih =>
    obtain ⟨j, u⟩ := g
    rw [pyEqFields, Bool.and_eq_true] at h
    rw [Fields.get_cons] at hget
    split_ifs at hget with hj
    · subst hj
      cases hget
      cases hv : Fields.get fs j with
      | none => rw [hv] at h; cases h.1
      | some v => rw [hv] at h; exact ⟨v, rfl, h.1⟩
    · exact ih h.2 hget

/-- The field of an equal document is equal. -/
theorem field_of_pyEq (h : a.pyEq (.obj gs) = true) (hget : Fields.get gs k = some w) :
    ∃ v, a.field k = some v ∧ v.pyEq w = true := by
  cases a with
  | obj fs =>
    rw [Json.pyEq, Bool.and_eq_true] at h
    exact get_of_pyEqFields h.2 hget
  | _ => simp [Json.pyEq] at h

mutual

/-- Without booleans a document contains what it equals. -/
theorem holds_of_pyEq (a b : Json) (h : a.pyEq b = true) (ha : a.plain = true)
    (hb : b.plain = true) : a.holds b = true := by
  match b with
  | .null => cases a <;> simp_all [Json.pyEq, Json.holds, Json.plain]
  | .bool _ => cases hb
  | .num _ => cases a <;> simp_all [Json.pyEq, Json.holds, Json.plain]
  | .str _ => cases a <;> simp_all [Json.pyEq, Json.holds]
  | .arr ys =>
    cases a with
    | arr xs => exact holdsItems_of_pyEq xs ys h ha hb
    | _ => simp [Json.pyEq] at h
  | .obj gs =>
    cases a with
    | obj fs =>
      rw [Json.pyEq, Bool.and_eq_true] at h
      exact holdsFields_of_pyEq fs gs h.2 ha hb
    | _ => simp [Json.pyEq] at h

theorem holdsItems_of_pyEq (xs ys : List Json) (h : pyEqItems xs ys = true)
    (hxs : plainItems xs = true) (hys : plainItems ys = true) : holdsItems xs ys = true := by
  match xs, ys with
  | [], [] => rfl
  | [], _ :: _ => cases h
  | _ :: _, [] => rfl
  | x :: xs, y :: ys =>
    rw [pyEqItems, Bool.and_eq_true] at h
    rw [plainItems, Bool.and_eq_true] at hxs hys
    have hhead := holds_of_pyEq x y h.1 hxs.1 hys.1
    have htail := holdsItems_iff.1 (holdsItems_of_pyEq xs ys h.2 hxs.2 hys.2)
    refine holdsItems_iff.2 fun z hz => ?_
    rcases List.mem_cons.1 hz with rfl | hz
    · exact ⟨x, List.mem_cons_self, hhead⟩
    · obtain ⟨u, hu, hholds⟩ := htail z hz
      exact ⟨u, List.mem_cons_of_mem x hu, hholds⟩

theorem holdsFields_of_pyEq (fs gs : List (String × Json)) (h : pyEqFields fs gs = true)
    (hfs : plainFields fs = true) (hgs : plainFields gs = true) : holdsFields fs gs = true := by
  match gs with
  | [] => rfl
  | (k, w) :: gs =>
    rw [pyEqFields, Bool.and_eq_true] at h
    rw [plainFields, Bool.and_eq_true] at hgs
    rw [holdsFields, holdsFields_of_pyEq fs gs h.2 hfs hgs.2, Bool.and_true]
    cases hget : Fields.get fs k with
    | none => rw [hget] at h; exact h.1
    | some v =>
      rw [hget] at h
      exact holds_of_pyEq v w h.1 (plain_of_get hfs hget) hgs.1

end

/-- Of a list that equals another, what that one contains is contained. -/
theorem contains_field {zs : List Json} (hfield : a.field k = some v) (h : v.pyEq (.arr ys) = true)
    (hv : v.plain = true) (hys : plainItems ys = true) (hsub : ∀ z ∈ zs, z ∈ ys) :
    a.contains (.obj [(k, .arr zs)]) = true := by
  cases a with
  | obj fs =>
    cases v with
    | arr xs =>
      have hget : Fields.get fs k = some (.arr xs) := hfield
      have hitems := holdsItems_iff.1 (holdsItems_of_pyEq xs ys h hv hys)
      have hsubItems : holdsItems xs zs = true := holdsItems_iff.2 fun z hz => hitems z (hsub z hz)
      simp [Json.contains, Json.holds, holdsFields, hget, hsubItems]
    | _ => simp [Json.pyEq] at h
  | _ => cases hfield

end Containment

section Stored
variable {j v : Jsonb} {fs : List (String × Jsonb)} {k : String}

theorem get_loadsFields : Fields.get (loadsFields fs) k = (fieldOf fs k).map Jsonb.loads := by
  induction fs with
  | nil => rfl
  | cons f fs ih =>
    obtain ⟨i, v⟩ := f
    simp only [loadsFields, fieldOf, Fields.get_cons, ih]
    split_ifs <;> rfl

theorem get_exactFields : Fields.get (exactFields fs) k = (fieldOf fs k).map Jsonb.exact := by
  induction fs with
  | nil => rfl
  | cons f fs ih =>
    obtain ⟨i, v⟩ := f
    simp only [exactFields, fieldOf, Fields.get_cons, ih]
    split_ifs <;> rfl

theorem field_loads : j.loads.field k = (j.field k).map Jsonb.loads := by
  cases j with
  | obj fs => exact get_loadsFields
  | _ => rfl

theorem field_exact : j.exact.field k = (j.field k).map Jsonb.exact := by
  cases j with
  | obj fs => exact get_exactFields
  | _ => rfl

mutual

/-- A plain document is read as it is. -/
theorem loads_of_plain (j : Jsonb) (h : j.plain = true) : j.loads = j.exact := by
  match j with
  | .null => rfl
  | .bool _ => cases h
  | .numeric n scale => exact congrArg Json.num (of_decide_eq_true h)
  | .str _ => rfl
  | .arr xs => exact congrArg Json.arr (loadsItems_of_plain xs h)
  | .obj fs => exact congrArg Json.obj (loadsFields_of_plain fs h)

theorem loadsItems_of_plain (xs : List Jsonb) (h : storedPlainItems xs = true) :
    loadsItems xs = exactItems xs := by
  match xs with
  | [] => rfl
  | x :: xs =>
    rw [storedPlainItems, Bool.and_eq_true] at h
    rw [loadsItems, exactItems, loads_of_plain x h.1, loadsItems_of_plain xs h.2]

theorem loadsFields_of_plain (fs : List (String × Jsonb)) (h : storedPlainFields fs = true) :
    loadsFields fs = exactFields fs := by
  match fs with
  | [] => rfl
  | (k, v) :: fs =>
    rw [storedPlainFields, Bool.and_eq_true] at h
    rw [loadsFields, exactFields, loads_of_plain v h.1, loadsFields_of_plain fs h.2]

end

mutual

theorem plain_exact (j : Jsonb) (h : j.plain = true) : j.exact.plain = true := by
  match j with
  | .null | .numeric _ _ | .str _ => rfl
  | .bool _ => cases h
  | .arr xs => exact plainItems_exact xs h
  | .obj fs => exact plainFields_exact fs h

theorem plainItems_exact (xs : List Jsonb) (h : storedPlainItems xs = true) :
    plainItems (exactItems xs) = true := by
  match xs with
  | [] => rfl
  | x :: xs =>
    rw [storedPlainItems, Bool.and_eq_true] at h
    rw [exactItems, plainItems, plain_exact x h.1, plainItems_exact xs h.2]
    rfl

theorem plainFields_exact (fs : List (String × Jsonb)) (h : storedPlainFields fs = true) :
    plainFields (exactFields fs) = true := by
  match fs with
  | [] => rfl
  | (k, v) :: fs =>
    rw [storedPlainFields, Bool.and_eq_true] at h
    rw [exactFields, plainFields, plain_exact v h.1, plainFields_exact fs h.2]
    rfl

end

/-- A text that is read is the text that is stored. -/
theorem fieldText_of_pyEq {text : Jsonb → String} {s : String} (hfield : j.field k = some v)
    (h : v.loads.pyEq (.str s) = true) : j.fieldText text k = some s := by
  cases v with
  | str t =>
    have ht : t = s := by simpa [Jsonb.loads, Json.pyEq] using h
    rw [Jsonb.fieldText, hfield, ht]
  | _ => simp [Jsonb.loads, Json.pyEq] at h

end Stored

end JsonValue
