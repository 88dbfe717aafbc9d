import Ajenda.CrmRecords
import Ajenda.Fallible

/-!
# Writing the records

`write_record` replaces the row that is stored under an id, also a deleted one, and makes up an id
from the number of live rows where it is given none. Which row a query without an order returns
first is part of what a call draws.
-/
namespace Ajenda.Crm
open Ajenda.Runtime (strip)

section Rows

/-- The table: no row has an empty id. -/
structure Records extends Store where
  named : ∀ row ∈ rows, row.recordId ≠ ""

variable (rows : List TenantInternalRecord) (row : TenantInternalRecord)

/-- The row replaces the one with its key, whose primary key it takes over, or is added. -/
def putRow : List TenantInternalRecord :=
  if row.key ∈ rows.map (·.key) then
    rows.map fun r => if r.key = row.key then { row with id := r.id } else r
  else rows ++ [row]

variable {rows row}

theorem putRow_nodup (h : (rows.map (·.key)).Nodup) : ((putRow rows row).map (·.key)).Nodup := by
  unfold putRow
  split_ifs with hmem
  · have hkeys : (rows.map fun r => if r.key = row.key then { row with id := r.id } else r).map
        (·.key) = rows.map (·.key) := by
      rw [List.map_map]
      refine List.map_congr_left fun r _ => ?_
      by_cases hr : r.key = row.key
      · simp only [Function.comp_apply, if_pos hr]
        exact hr.symm
      · simp only [Function.comp_apply, if_neg hr]
    rw [hkeys]
    exact h
  · rw [List.map_append, List.map_singleton]
    exact List.nodup_append.2 ⟨h, List.nodup_singleton _, fun k hk j hj =>
      fun heq => hmem (List.mem_singleton.1 hj ▸ heq ▸ hk)⟩

/-- A row of the new table is an old one with another key or the one that was put. -/
theorem mem_putRow {r : TenantInternalRecord} (h : r ∈ putRow rows row) :
    (r ∈ rows ∧ r.key ≠ row.key) ∨ ∃ id, r = { row with id := id } := by
  unfold putRow at h
  split_ifs at h with hmem
  · obtain ⟨q, hq, rfl⟩ := List.mem_map.1 h
    by_cases hkey : q.key = row.key
    · rw [if_pos hkey]
      exact .inr ⟨q.id, rfl⟩
    · rw [if_neg hkey]
      exact .inl ⟨hq, hkey⟩
  · rcases List.mem_append.1 h with hr | hr
    · exact .inl ⟨hr, fun heq => hmem (heq ▸ List.mem_map_of_mem hr)⟩
    · exact .inr ⟨row.id, List.mem_singleton.1 hr⟩

/-- Rows with another key stay. -/
theorem mem_putRow_of_ne {r : TenantInternalRecord} (hr : r ∈ rows) (hkey : r.key ≠ row.key) :
    r ∈ putRow rows row := by
  unfold putRow
  split_ifs
  · exact List.mem_map.2 ⟨r, hr, if_neg hkey⟩
  · exact List.mem_append_left _ hr

/-- Under a new key the row is added at the end. -/
theorem putRow_of_new (h : ∀ r ∈ rows, r.key ≠ row.key) : putRow rows row = rows ++ [row] :=
  if_neg fun hmem => by
    obtain ⟨r, hr, heq⟩ := List.mem_map.1 hmem
    exact h r hr heq

/-- The rows that a query selects are the same when it selects no row with the key. -/
theorem filter_putRow {p : TenantInternalRecord → Bool}
    (h : ∀ r, r.key = row.key → p r = false) : (putRow rows row).filter p = rows.filter p := by
  unfold putRow
  split_ifs with hmem
  · clear hmem
    induction rows with
    | nil => rfl
    | cons r rows ih =>
      simp only [List.map_cons, List.filter_cons]
      by_cases hr : r.key = row.key
      · have hput : p { row with id := r.id } = false := h _ rfl
        simp only [if_pos hr, h r hr, hput, ih, Bool.false_eq_true, if_false]
      · rw [if_neg hr, ih]
  · rw [List.filter_append, List.filter_singleton, h row rfl]
    exact List.append_nil _

def Records.put (records : Records) (row : TenantInternalRecord) (h : row.recordId ≠ "") :
    Records where
  rows := putRow records.rows row
  unique := putRow_nodup records.unique
  named r hr := by
    rcases mem_putRow hr with ⟨hmem, -⟩ | ⟨id, rfl⟩
    · exact records.named r hmem
    · exact h

end Rows

section Repository

/-- What a call draws: the time and its text, a uuid for the row of each type, the digits of an
activity, and what a query without an order returns first. -/
structure Draws where
  now : ℕ
  nowText : String
  rowId : String → String
  hex : String
  anyRow : List TenantInternalRecord → Option TenantInternalRecord
  anyRow_mem : ∀ rows, ∀ row ∈ anyRow rows, row ∈ rows
  anyRow_none : ∀ rows, anyRow rows = none → rows = []

/-- The first row comes first. -/
def plainDraws : Draws where
  now := 0
  nowText := ""
  rowId recordType := recordType
  hex := ""
  anyRow rows := rows.head?
  anyRow_mem _ _ h := List.mem_of_mem_head? h
  anyRow_none _ h := List.head?_eq_none_iff.1 h

variable (T : Texts) (d : Draws) (records : Records) (tenantId recordType : String)

/-- The id that is made up where none is given. -/
def countedId : String := s!"{recordType}-{(records.live tenantId recordType).length + 1}"

def finalId (recordId : Option String) : String :=
  if recordId.getD "" ≠ "" then recordId.getD "" else countedId records tenantId recordType

theorem countedId_ne : countedId records tenantId recordType ≠ "" := by
  intro h
  have hlength := congrArg String.length h
  simp [countedId] at hlength

theorem finalId_ne (recordId : Option String) :
    finalId records tenantId recordType recordId ≠ "" := by
  unfold finalId
  split_ifs with h
  · exact h
  · exact countedId_ne records tenantId recordType

def storedData (data : Data) (id : String) : Data := data.set "id" (.str id)

theorem Data.get_set_self (data : Data) (key : String) (v : Value) :
    (data.set key v).get key = some v := by
  induction data with
  | nil => simp [Data.set, Data.get]
  | cons f data ih =>
    unfold Data.set
    split_ifs with h
    · simp [Data.get]
    · rw [← ih, Data.get, Data.get, List.find?_cons_of_neg (by simpa using h)]

theorem Data.get_set_of_ne (data : Data) {key other : String} (v : Value) (h : other ≠ key) :
    (data.set key v).get other = data.get other := by
  induction data with
  | nil => simp [Data.set, Data.get, Ne.symm h]
  | cons f data ih =>
    unfold Data.set
    simp only [Data.get] at ih ⊢
    split_ifs with hf
    · rw [List.find?_cons_of_neg (by simpa using Ne.symm h),
        List.find?_cons_of_neg (by simpa [hf] using Ne.symm h)]
    · simp only [List.find?_cons]
      split
      · rfl
      · exact ih

/-- The row that a write stores. -/
def writtenRow (id : String) (data : Data) : TenantInternalRecord where
  id := d.rowId recordType
  tenantId := tenantId
  recordType := recordType
  recordId := id
  data := storedData data id
  searchText := " ".intercalate ((storedData data id).map fun f => T.lower (f.2.pyStr T))
  deleted := false
  updatedAt := d.now
  identified := Data.get_set_self data "id" _

/-- `write_record`. -/
def writeRecord (recordId : Option String) (data : Data) : Except String (Data × Records) := do
  validateRecordType recordType
  let id := finalId records tenantId recordType recordId
  return (storedData data id, records.put (writtenRow T d tenantId recordType id data)
    (finalId_ne records tenantId recordType recordId))

/-- The live rows that hold a text under a field. -/
def foundBy (field value : String) : List TenantInternalRecord :=
  (records.live tenantId recordType).filter fun row =>
    ((row.data.get field).bind (Value.astext T)).map T.lowerTrim = some (T.lower (strip value))

/-- `find_record_id_by_field`. -/
def findRecordIdByField (field value : String) : Except String (Option String) := do
  validateRecordType recordType
  if T.lower (strip value) = "" then return none
  else return (d.anyRow (foundBy T records tenantId recordType field value)).map (·.recordId)

/-- `read_record`. -/
def readRecord (recordId : String) : Except String (Option Data) := do
  validateRecordType recordType
  return ((records.live tenantId recordType).find? (·.recordId = recordId)).map recordOf

end Repository

end Ajenda.Crm
