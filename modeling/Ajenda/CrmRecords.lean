import Ajenda.CanonicalText
import Mathlib.Data.List.Nodup

/-!
# Internal records

The values of the records of a tenant, the table `tenant_internal_records` and its repository. A
number is kept with the text that Python gives it. How PostgreSQL writes a value as text, its
`ILIKE` and its `lower(trim(..))`, and the Python texts of lists and dictionaries are parameters.
-/
namespace Ajenda.Crm
open Ajenda.Runtime (strip)

section Values

inductive Value
  | null
  | bool (b : Bool)
  | num (value : ℚ) (text : String)
  | str (s : String)
  | arr (items : List Value)
  | obj (fields : List (String × Value))

abbrev Data := List (String × Value)

def Data.get (data : Data) (key : String) : Option Value :=
  (data.find? (·.1 = key)).map (·.2)

/-- `data.get(key)`: a missing key reads as `None`. -/
def Data.read (data : Data) (key : String) : Value := (data.get key).getD .null

/-- Assignment: an existing key keeps its place. -/
def Data.set : Data → String → Value → Data
  | [], key, v => [(key, v)]
  | f :: data, key, v => if f.1 = key then (key, v) :: data else f :: Data.set data key v

def Data.setdefault (data : Data) (key : String) (v : Value) : Data :=
  if (data.get key).isSome then data else data.set key v

mutual

/-- `==` of Python values. -/
def Value.pyEq : Value → Value → Bool
  | .null, .null => true
  | .bool a, .bool b => a = b
  | .bool a, .num b _ => b = if a then 1 else 0
  | .num a _, .bool b => a = if b then 1 else 0
  | .num a _, .num b _ => a = b
  | .str a, .str b => a = b
  | .arr xs, .arr ys => pyEqItems xs ys
  | .obj fs, .obj gs => fs.length = gs.length && pyEqFields fs gs
  | _, _ => false

def pyEqItems : List Value → List Value → Bool
  | [], [] => true
  | x :: xs, y :: ys => x.pyEq y && pyEqItems xs ys
  | _, _ => false

def pyEqFields : List (String × Value) → List (String × Value) → Bool
  | [], _ => true
  | (k, v) :: fs, gs =>
    (match gs.find? (·.1 = k) with
      | some g => v.pyEq g.2
      | none => false) && pyEqFields fs gs

end

/-- Python's truth of a value. -/
def Value.truthy : Value → Bool
  | .null => false
  | .bool b => b
  | .num value _ => value ≠ 0
  | .str s => s ≠ ""
  | .arr items => items ≠ []
  | .obj fields => fields ≠ []

/-- The text that PostgreSQL and Python give values, and their tests of texts. -/
structure Texts where
  /-- The text of a number that JSONB has read from a text. -/
  jsonNumber : String → String
  jsonCompound : Value → String
  pyCompound : Value → String
  lower : String → String
  ilike : String → String → Bool
  lowerTrim : String → String

variable (T : Texts)

/-- `->>` of a stored value. -/
def Value.astext : Value → Option String
  | .null => none
  | .bool b => some (if b then "true" else "false")
  | .num _ text => some (T.jsonNumber text)
  | .str s => some s
  | v => some (T.jsonCompound v)

/-- `str(value)`. -/
def Value.pyStr : Value → String
  | .null => "None"
  | .bool b => if b then "True" else "False"
  | .num _ text => text
  | .str s => s
  | v => T.pyCompound v

end Values

section Table

structure TenantInternalRecord where
  id : String
  tenantId : String
  recordType : String
  recordId : String
  data : Data
  searchText : String
  deleted : Bool
  updatedAt : ℕ
  /-- Every write puts the id of the record into its data. -/
  identified : data.get "id" = some (.str recordId)

/-- The unique columns of a row. -/
def TenantInternalRecord.key (row : TenantInternalRecord) : String × String × String :=
  (row.tenantId, row.recordType, row.recordId)

structure Store where
  rows : List TenantInternalRecord
  unique : (rows.map (·.key)).Nodup

def supportedRecordTypes : List String :=
  ["account", "contact", "opportunity", "activity", "task", "document", "relationship"]

variable (T : Texts) (s : Store) (tenantId recordType : String)

/-- The live rows of a tenant and a type. -/
def Store.live : List TenantInternalRecord :=
  s.rows.filter fun row =>
    row.tenantId = tenantId && row.recordType = recordType && !row.deleted

def validateRecordType : Except String Unit :=
  if recordType ∈ supportedRecordTypes then .ok ()
  else .error s!"unsupported record_type: {recordType}"

/-- The clause of the query text. -/
def matchesQuery (query : String) (row : TenantInternalRecord) : Bool :=
  let normalized := strip (T.lower query)
  normalized = "" || T.ilike row.searchText s!"%{normalized}%" ||
    T.ilike row.recordId s!"%{normalized}%"

/-- The clauses of the filters, on the text of the values. -/
def sqlMatches (filters : Data) (row : TenantInternalRecord) : Bool :=
  filters.all fun f =>
    match f.2 with
    | .null => (row.data.get f.1).bind (Value.astext T) = none
    | v => (row.data.get f.1).bind (Value.astext T) = some (v.pyStr T)

/-- A row as it is returned. -/
def recordOf (row : TenantInternalRecord) : Data :=
  row.data.setdefault "id" (.str row.recordId)

/-- The filters on the values themselves. -/
def pyMatches (filters record : Data) : Bool :=
  filters.all fun f => (record.read f.1).pyEq f.2

/-- What `search_records` selects, the newest first. -/
def selected (query : String) (filters : Data) : List TenantInternalRecord :=
  ((s.live tenantId recordType).filter fun row =>
    matchesQuery T query row && sqlMatches T filters row).insertionSort
      fun a b => b.updatedAt ≤ a.updatedAt

/-- `search_records`. -/
def searchRecords (query : String) (filters : Data) (limit offset : ℤ) :
    Except String (List Data) := do
  validateRecordType recordType
  if limit < 1 ∨ 50 < limit ∨ offset < 0 then .error "limit must be between 1 and 50"
  else
    let rows := (selected T s tenantId recordType query filters).take ((limit + offset) * 3).toNat
    let found := (rows.map recordOf).filter (pyMatches filters)
    return (found.drop offset.toNat).take limit.toNat

/-- `count_records`. -/
def countRecords (query : String) (filters : Data) : Except String ℕ := do
  validateRecordType recordType
  let rows := (s.live tenantId recordType).filter (matchesQuery T query)
  return (rows.filter fun row => pyMatches filters row.data).length

end Table

end Ajenda.Crm
