import Ajenda.DoubleRounding

/-!
# The cjson library of Redis scripts

`decode` and `encode` follow lua-cjson under Redis's settings: numbers decode to doubles,
the tokens NaN and Infinity included, and print with 14 significant digits; encoding raises
on a number that is not finite; an empty table prints as an object; both refuse more than
1000 nested tables. A Lua value is kept as a document whose finite numbers are doubles.
-/
namespace Ajenda.LuaCjson
open JsonValue DoubleRounding

def maxDepth : ℕ := 1000

/-- A Redis string value: a JSON text, kept as its document, or any other text. -/
inductive Payload
  | json (doc : Json)
  | text (raw : String)
  deriving DecidableEq

def readNumber : JsonNumber → JsonNumber
  | .finite q => toDouble q
  | n => n

def printNumber : JsonNumber → JsonNumber
  | .finite q => .finite (toDigits 14 q)
  | n => n

mutual
def readValue : Json → Json
  | .num n => .num (readNumber n)
  | .arr xs => .arr (readItems xs)
  | .obj fs => .obj (readFields fs)
  | v => v
def readItems : List Json → List Json
  | [] => []
  | x :: xs => readValue x :: readItems xs
def readFields : Fields → Fields
  | [] => []
  | (k, x) :: fs => (k, readValue x) :: readFields fs
end

mutual
def printValue : Json → Json
  | .num n => .num (printNumber n)
  | .arr [] => .obj []
  | .arr (x :: xs) => .arr (printValue x :: printItems xs)
  | .obj fs => .obj (printFields fs)
  | v => v
def printItems : List Json → List Json
  | [] => []
  | x :: xs => printValue x :: printItems xs
def printFields : Fields → Fields
  | [] => []
  | (k, x) :: fs => (k, printValue x) :: printFields fs
end

mutual
def finite : Json → Bool
  | .num (.finite _) => true
  | .num _ => false
  | .arr xs => finiteItems xs
  | .obj fs => finiteFields fs
  | _ => true
def finiteItems : List Json → Bool
  | [] => true
  | x :: xs => finite x && finiteItems xs
def finiteFields : Fields → Bool
  | [] => true
  | (_, x) :: fs => finite x && finiteFields fs
end

/-- `pcall(cjson.decode, raw)`: `none` when it raises. -/
def decode : Payload → Option Json
  | .json doc => if doc.depth ≤ maxDepth then some (readValue doc) else none
  | .text _ => none

/-- `cjson.encode(value)`: `none` when it raises. -/
def encode (v : Json) : Option Payload :=
  if v.depth ≤ maxDepth ∧ finite v then some (.json (printValue v)) else none

/-- A number that cjson reads and prints back as the same literal. -/
def FaithfulNumber (n : JsonNumber) : Prop :=
  match n with
  | .finite q => ∃ d, toDouble q = .finite d ∧ toDigits 14 d = q
  | _ => False

mutual
/-- No empty array and no number that changes: the documents cjson prints back unchanged. -/
def Faithful : Json → Prop
  | .num n => FaithfulNumber n
  | .arr [] => False
  | .arr (x :: xs) => Faithful x ∧ FaithfulItems xs
  | .obj fs => FaithfulFields fs
  | _ => True
def FaithfulItems : List Json → Prop
  | [] => True
  | x :: xs => Faithful x ∧ FaithfulItems xs
def FaithfulFields : Fields → Prop
  | [] => True
  | (_, x) :: fs => Faithful x ∧ FaithfulFields fs
end

theorem FaithfulNumber.read {n : JsonNumber} (h : FaithfulNumber n) :
    ∃ d, readNumber n = .finite d ∧ printNumber (.finite d) = n := by
  cases n with
  | finite q =>
    obtain ⟨d, hd, hq⟩ := h
    exact ⟨d, hd, by rw [printNumber, hq]⟩
  | infinity | nan => exact h.elim

mutual
theorem readValue_depth : ∀ v : Json, (readValue v).depth = v.depth
  | .null | .bool _ | .num _ | .str _ => rfl
  | .arr xs => by simp only [readValue, Json.depth, readItems_depth xs]
  | .obj fs => by simp only [readValue, Json.depth, readFields_depth fs]
theorem readItems_depth : ∀ xs : List Json, Json.depthItems (readItems xs) = Json.depthItems xs
  | [] => rfl
  | x :: xs => by simp only [readItems, Json.depthItems, readValue_depth x, readItems_depth xs]
theorem readFields_depth : ∀ fs : Fields,
    Json.depthFields (readFields fs) = Json.depthFields fs
  | [] => rfl
  | (_, x) :: fs => by
    simp only [readFields, Json.depthFields, readValue_depth x, readFields_depth fs]
end

mutual
theorem Faithful.finite : ∀ {v : Json}, Faithful v → finite (readValue v) = true
  | .null, _ | .bool _, _ | .str _, _ => rfl
  | .num _, h => by
    obtain ⟨d, hd, _⟩ := FaithfulNumber.read h
    simp [readValue, hd, LuaCjson.finite]
  | .arr [], h => h.elim
  | .arr (_ :: _), h => by
    simp [readValue, readItems, LuaCjson.finite, finiteItems, Faithful.finite h.1,
      FaithfulItems.finite h.2]
  | .obj _, h => by simpa [readValue, LuaCjson.finite] using FaithfulFields.finite h
theorem FaithfulItems.finite : ∀ {xs : List Json}, FaithfulItems xs →
    finiteItems (readItems xs) = true
  | [], _ => rfl
  | _ :: _, h => by
    simp [readItems, finiteItems, Faithful.finite h.1, FaithfulItems.finite h.2]
theorem FaithfulFields.finite : ∀ {fs : Fields}, FaithfulFields fs →
    finiteFields (readFields fs) = true
  | [], _ => rfl
  | (_, _) :: _, h => by
    simp [readFields, finiteFields, Faithful.finite h.1, FaithfulFields.finite h.2]
end

mutual
theorem Faithful.print_read : ∀ {v : Json}, Faithful v → printValue (readValue v) = v
  | .null, _ | .bool _, _ | .str _, _ => rfl
  | .num _, h => by
    obtain ⟨d, hd, hp⟩ := FaithfulNumber.read h
    simp [readValue, printValue, hd, hp]
  | .arr [], h => h.elim
  | .arr (_ :: _), h => by
    simp [readValue, readItems, printValue, Faithful.print_read h.1,
      FaithfulItems.print_read h.2]
  | .obj _, h => by simp [readValue, printValue, FaithfulFields.print_read h]
theorem FaithfulItems.print_read : ∀ {xs : List Json}, FaithfulItems xs →
    printItems (readItems xs) = xs
  | [], _ => rfl
  | _ :: _, h => by
    simp [readItems, printItems, Faithful.print_read h.1, FaithfulItems.print_read h.2]
theorem FaithfulFields.print_read : ∀ {fs : Fields}, FaithfulFields fs →
    printFields (readFields fs) = fs
  | [], _ => rfl
  | (_, _) :: _, h => by
    simp [readFields, printFields, Faithful.print_read h.1, FaithfulFields.print_read h.2]
end

@[simp] theorem readFields_get (fs : Fields) (k : String) :
    (readFields fs).get k = (fs.get k).map readValue := by
  induction fs with
  | nil => rfl
  | cons f fs ih =>
    obtain ⟨j, v⟩ := f
    simp only [readFields, Fields.get_cons, ih]
    split_ifs <;> rfl

theorem encode_readValue {v : Json} (h : Faithful v) (hdepth : v.depth ≤ maxDepth) :
    encode (readValue v) = some (.json v) := by
  simp [encode, readValue_depth, hdepth, h.finite, h.print_read]

/-- A stored document that cjson prints back unchanged, also one table deeper. -/
def Plain (raw : Payload) : Prop :=
  ∃ doc, raw = .json doc ∧ Faithful doc ∧ doc.depth < maxDepth

/-- What decoding and encoding makes of a document. -/
def reprint (v : Json) : Json := printValue (readValue v)

/-- A number that is read as a double and printed, twice, and is itself when it is read again. -/
def CarriedNumber : JsonNumber → Prop
  | .finite q => ∃ a b, toDouble q = .finite a ∧ toDouble (toDigits 14 a) = .finite b ∧
      toDouble (toDigits 14 b) = .finite q
  | _ => False

mutual
/-- No empty array, and every number is carried. -/
def Carried : Json → Prop
  | .num n => CarriedNumber n
  | .arr [] => False
  | .arr (x :: xs) => Carried x ∧ CarriedItems xs
  | .obj fs => CarriedFields fs
  | _ => True
def CarriedItems : List Json → Prop
  | [] => True
  | x :: xs => Carried x ∧ CarriedItems xs
def CarriedFields : Fields → Prop
  | [] => True
  | (_, x) :: fs => Carried x ∧ CarriedFields fs
end

mutual
theorem printValue_depth : ∀ v : Json, (printValue v).depth = v.depth
  | .null | .bool _ | .num _ | .str _ | .arr [] => rfl
  | .arr (x :: xs) => by
    simp only [printValue, Json.depth, Json.depthItems, printValue_depth x, printItems_depth xs]
  | .obj fs => by simp only [printValue, Json.depth, printFields_depth fs]
theorem printItems_depth : ∀ xs : List Json, Json.depthItems (printItems xs) = Json.depthItems xs
  | [] => rfl
  | x :: xs => by simp only [printItems, Json.depthItems, printValue_depth x, printItems_depth xs]
theorem printFields_depth : ∀ fs : Fields,
    Json.depthFields (printFields fs) = Json.depthFields fs
  | [] => rfl
  | (_, x) :: fs => by
    simp only [printFields, Json.depthFields, printValue_depth x, printFields_depth fs]
end

theorem reprint_depth (v : Json) : (reprint v).depth = v.depth := by
  rw [reprint, printValue_depth, readValue_depth]

theorem carriedNumber_iff (n : JsonNumber) : CarriedNumber n ↔
    finite (readValue (.num n)) = true ∧ finite (readValue (reprint (.num n))) = true ∧
      readValue (reprint (reprint (.num n))) = .num n := by
  cases n with
  | infinity | nan => simp [CarriedNumber, readValue, readNumber, finite]
  | finite q =>
    simp only [CarriedNumber, reprint, readValue, printValue, readNumber]
    cases ha : toDouble q with
    | infinity | nan => simp [finite]
    | finite a =>
      simp only [printNumber]
      cases hb : toDouble (toDigits 14 a) with
      | infinity | nan => simp [finite, hb]
      | finite b => simp [finite, hb]

mutual
/-- The documents that cjson can print twice and that are themselves when they are read again. -/
theorem carried_iff : ∀ v : Json, Carried v ↔ finite (readValue v) = true ∧
    finite (readValue (reprint v)) = true ∧ readValue (reprint (reprint v)) = v
  | .null | .bool _ | .str _ => by
    simp [Carried, readValue, reprint, printValue, finite]
  | .num n => carriedNumber_iff n
  | .arr [] => by simp [Carried, readValue, readItems, reprint, printValue]
  | .arr (x :: xs) => by
    simp only [Carried, carried_iff x, carriedItems_iff xs, reprint, readValue, readItems,
      printValue, finite, finiteItems, Bool.and_eq_true, Json.arr.injEq, List.cons.injEq]
    tauto
  | .obj fs => by
    simp only [Carried, carriedFields_iff fs, reprint, readValue, printValue, finite,
      Json.obj.injEq]
theorem carriedItems_iff : ∀ xs : List Json, CarriedItems xs ↔ finiteItems (readItems xs) = true ∧
    finiteItems (readItems (printItems (readItems xs))) = true ∧
      readItems (printItems (readItems (printItems (readItems xs)))) = xs
  | [] => by simp [CarriedItems, readItems, printItems, finiteItems]
  | x :: xs => by
    simp only [CarriedItems, carried_iff x, carriedItems_iff xs, reprint, readItems, printItems,
      finiteItems, Bool.and_eq_true, List.cons.injEq]
    tauto
theorem carriedFields_iff : ∀ fs : Fields, CarriedFields fs ↔
    finiteFields (readFields fs) = true ∧
    finiteFields (readFields (printFields (readFields fs))) = true ∧
      readFields (printFields (readFields (printFields (readFields fs)))) = fs
  | [] => by simp [CarriedFields, readFields, printFields, finiteFields]
  | (k, x) :: fs => by
    simp only [CarriedFields, carried_iff x, carriedFields_iff fs, reprint, readFields,
      printFields, finiteFields, Bool.and_eq_true, List.cons.injEq, Prod.mk.injEq]
    tauto
end

end Ajenda.LuaCjson
