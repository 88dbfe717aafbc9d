import Ajenda.CrmWrites
import Ajenda.TransitionSystem

/-!
# Identity in the CRM

The normal forms of the fields, `identity_upsert`, `log_activity` and `link_records`. The books keep
beside the records who wrote each of them last, and every write with the rows before and after it.
The hexadecimal digest of an edge is a parameter.
-/
namespace Ajenda.Crm
open Ajenda.Runtime (strip)
open Ajenda.Experience (sortedSet)
open TransitionSystem

section Schemas
variable (T : Texts)

def nonEmpty (s : String) : Option String := if s = "" then none else some s

/-- `a or b`. -/
def Value.or (a b : Value) : Value := if a.truthy then a else b

/-- `str(value or "")`. -/
def Value.text (v : Value) : String := if v.truthy then v.pyStr T else ""

def Value.isStr : Value → Bool
  | .str _ => true
  | _ => false

def orNull : Option String → Value
  | some s => .str s
  | none => .null

/-- `str.removeprefix`. -/
def removePrefix (start s : String) : String :=
  if start.toList.isPrefixOf s.toList then String.ofList (s.toList.drop start.toList.length) else s

/-- `cleaned.replace(" ", "_")`. -/
def underscored (s : String) : String :=
  String.ofList (s.toList.map fun c => if c = ' ' then '_' else c)

/-- `normalize_email`. -/
def normalizeEmail : Value → Option String
  | .str s => nonEmpty (T.lower (strip s))
  | _ => none

/-- `normalize_domain`. -/
def normalizeDomain : Value → Option String
  | .str s =>
    let cleaned := removePrefix "http://" (removePrefix "https://" (T.lower (strip s)))
    nonEmpty (String.ofList (cleaned.toList.takeWhile (· ≠ '/')))
  | _ => none

/-- `normalize_stage`: a known stage is no exception. -/
def normalizeStage : Value → Option String
  | .str s => nonEmpty (underscored (T.lower (strip s)))
  | _ => none

def canonicalLifecycleStages : List String :=
  ["observed", "resolved", "qualified", "engaging", "opportunity", "nurture", "customer",
    "expansion", "disqualified", "closed_lost"]

def defaultOpportunityStage : String := "discovery"

/-- The texts of the tags, where each is a text that is not empty. -/
def tagTexts : List Value → Option (List String)
  | [] => some []
  | .str tag :: tags => if strip tag = "" then none else (tagTexts tags).map (strip tag :: ·)
  | _ :: _ => none

/-- `_normalize_common_fields`. -/
def normalizeCommonFields (record : Data) : Except String Data := do
  match record.read "custom_fields" with
  | .obj _ => pure ()
  | _ => .error "custom_fields must be an object"
  let tags ← match record.read "tags" with
    | .arr items => match tagTexts items with
      | some tags => .ok tags
      | none => .error "tags must be a list of non-empty strings"
    | _ => .error "tags must be a list of non-empty strings"
  let record := record.set "tags" (.arr ((sortedSet (tags.map T.lower)).map .str))
  let record ← match record.read "owner_id" with
    | .null => .ok record
    | .str ownerId =>
      if strip ownerId = "" then .error "owner_id must be a non-empty string when provided"
      else .ok (record.set "owner_id" (.str (strip ownerId)))
    | _ => .error "owner_id must be a non-empty string when provided"
  match record.read "lifecycle_stage" with
  | .null => return record
  | .str stage =>
    if T.lower (strip stage) ∈ canonicalLifecycleStages then
      return record.set "lifecycle_stage" (.str (T.lower (strip stage)))
    else .error "lifecycle_stage is not a supported canonical CRM stage"
  | _ => .error "lifecycle_stage is not a supported canonical CRM stage"

/-- The defaults that the three kinds of record share. -/
def withDefaults (data : Data) : Data :=
  (((data.setdefault "crm_schema_version" (.num 1 "1")).setdefault "custom_fields" (.obj [])
    ).setdefault "tags" (.arr [])).setdefault "source" (.str "ajenda")

/-- `record[key] = value` where there is a value. -/
def Data.setSome (record : Data) (key : String) : Option String → Data
  | some v => record.set key (.str v)
  | none => record

/-- `record[key] = value` where there is a value and none was given. -/
def Data.setMissing (record : Data) (key : String) (v : Option String) : Data :=
  if (record.read key).truthy then record else record.setSome key v

/-- The first and the last name, where one of them is a text. -/
def fullName (record : Data) : Option String :=
  if (record.read "firstname").isStr || (record.read "lastname").isStr then
    let first := strip ((record.read "firstname").text T)
    let last := strip ((record.read "lastname").text T)
    nonEmpty (strip (" ".intercalate ([first, last].filter (· ≠ ""))))
  else none

/-- `enrich_contact_data`. -/
def enrichContactData (data : Data) : Except String Data :=
  let record := withDefaults data
  let record := record.setSome "email" (normalizeEmail T (record.read "email"))
  let record := record.setMissing "name" (fullName T record)
  let company := strip (((record.read "company").or (record.read "account_name")).text T)
  normalizeCommonFields T (record.setMissing "account_name" (nonEmpty company))

/-- `enrich_account_data`. -/
def enrichAccountData (data : Data) : Except String Data :=
  let record := withDefaults data
  let domain := normalizeDomain T ((record.read "domain").or (record.read "website"))
  let record := record.setSome "domain" domain
  let name := strip (((record.read "name").or (record.read "company")).text T)
  normalizeCommonFields T (record.setSome "name" (nonEmpty name))

/-- `enrich_opportunity_data`. -/
def enrichOpportunityData (data : Data) : Except String Data :=
  let record := withDefaults data
  let stage := (normalizeStage T (record.read "stage")).getD defaultOpportunityStage
  let record := record.set "stage" (.str stage)
  let account := strip ((((record.read "account_name").or (record.read "company")).or
    (.str "Opportunity")).text T)
  normalizeCommonFields T (record.setMissing "name" (some s!"{account} opportunity"))

end Schemas

section Books

structure Edge where
  fromType : String
  fromId : String
  relationshipType : String
  toType : String
  toId : String
  deriving DecidableEq

inductive Writer
  | identityUpsert
  | logActivity
  | linkRecords (edge : Edge)
  | writeRecord
  deriving DecidableEq

/-- A write: the key of its record, whether the id was supplied or found, and the rows around it. -/
structure Written where
  writer : Writer
  key : String × String × String
  chosen : Bool
  before : List TenantInternalRecord
  after : List TenantInternalRecord

structure Books where
  records : Records
  /-- Who wrote a record last, by its type and id. -/
  writer : String → String → Option Writer
  written : List Written

/-- What is stored before the run counts as written by nobody. -/
def Books.opened (records : Records) : Books := ⟨records, fun _ _ => none, []⟩

variable (T : Texts) (digest : String → String) (d : Draws) (tenantId : String) (b : Books)

/-- `write_record` for one of the services. -/
def Books.save (writer : Writer) (chosen : Bool) (recordType : String) (recordId : Option String)
    (data : Data) : Except String (Data × Books) := do
  let (saved, records) ← writeRecord T d b.records tenantId recordType recordId data
  let id := finalId b.records tenantId recordType recordId
  return (saved, {
    records
    writer := fun type i => if type = recordType ∧ i = id then some writer else b.writer type i
    written := b.written ++
      [⟨writer, (tenantId, recordType, id), chosen, b.records.rows, records.rows⟩] })

/-- The id is a text that is not empty. -/
def given (recordId : Option String) : Bool := recordId.getD "" ≠ ""

/-- `data.get("id")` where it is a text. -/
def suppliedId (data : Data) : Option String :=
  match data.read "id" with
  | .str id => some id
  | _ => none

def activityId (activityId : Option String) : String :=
  if given activityId then activityId.getD "" else s!"activity-{d.hex}"

/-- `log_activity`. -/
def logActivity (payload : Data) (id : Option String) : Except String (Data × Books) :=
  b.save T d tenantId .logActivity (given id) "activity" (some (activityId d id))
    (payload.set "id" (.str (activityId d id)))

/-- The pattern of a relationship type. -/
def isRelationshipType (s : String) : Bool :=
  match s.toList with
  | [] => false
  | c :: rest => ('a' ≤ c && c ≤ 'z') && 1 ≤ rest.length && rest.length ≤ 79 &&
      rest.all fun x => ('a' ≤ x && x ≤ 'z') || ('0' ≤ x && x ≤ '9') || x = '_' || x = ':' || x = '-'

/-- The text that is digested. -/
def Edge.text (e : Edge) : String :=
  s!"{e.fromType}:{e.fromId}:{e.relationshipType}:{e.toType}:{e.toId}"

def Edge.id (e : Edge) : String := s!"relationship-{digest e.text}"

def Edge.data (e : Edge) (source : String) : Data :=
  [("id", .str (e.id digest)), ("from_type", .str e.fromType), ("from_id", .str e.fromId),
    ("relationship_type", .str e.relationshipType), ("to_type", .str e.toType),
    ("to_id", .str e.toId), ("source", .str ((nonEmpty (strip source)).getD "ajenda")),
    ("created_at", .str d.nowText)]

/-- `link_records`. -/
def linkRecords (fromType fromId relationshipType toType toId source : String) :
    Except String (Data × Books) := do
  let e : Edge := ⟨T.lower (strip fromType), fromId,
    underscored (T.lower (strip relationshipType)), T.lower (strip toType), toId⟩
  if isRelationshipType e.relationshipType = false then
    .error "relationship_type must use lowercase identifier characters"
  else if e.fromType = e.toType ∧ e.fromId = e.toId then
    .error "a CRM record cannot relate to itself"
  else do
    let first ← readRecord b.records tenantId e.fromType e.fromId
    if first.isNone then .error "from record not found for tenant"
    else do
      let second ← readRecord b.records tenantId e.toType e.toId
      if second.isNone then .error "to record not found for tenant"
      else
        b.save T d tenantId (.linkRecords e) false "relationship" (some (e.id digest))
          (e.data digest d source)

end Books

section Upserts
variable (T : Texts) (d : Draws) (tenantId : String) (records : Records) (b : Books)

/-- A lookup by a normal form, where there is one; an empty id counts as none. -/
def matchedId (recordType field : String) (value : Option String) :
    Except String (Option String) :=
  match value with
  | some value => do
    let found ← findRecordIdByField T d records tenantId recordType field value
    return found.filter (· ≠ "")
  | none => .ok none

/-- The id of a contact: found by its email or supplied. -/
def contactRecordId (record : Data) : Except String (Option String) := do
  let found ← matchedId T d tenantId records "contact" "email" (normalizeEmail T (record.read "email"))
  return found.or (suppliedId record)

/-- The id of an account: found by its domain, supplied, or found by its name. -/
def accountRecordId (record : Data) : Except String (Option String) := do
  let found ← matchedId T d tenantId records "account" "domain"
    (normalizeDomain T (record.read "domain"))
  match found.or (suppliedId record) with
  | some id => return some id
  | none =>
    let name := strip ((record.read "name").text T)
    if name = "" then return none
    else findRecordIdByField T d records tenantId "account" "name" (T.lower name)

/-- `_upsert_account`. -/
def upsertAccount (data : Data) : Except String (Data × Books) := do
  let record ← enrichAccountData T data
  let recordId ← accountRecordId T d tenantId b.records record
  b.save T d tenantId .identityUpsert (given recordId) "account" recordId record

/-- The company that a contact names. -/
def companyOf (record : Data) : String :=
  strip (((record.read "account_name").or (record.read "company")).text T)

/-- The account of a contact: found by its domain or by the name of its company. -/
def companyAccountId (record : Data) : Except String (Option String) := do
  let found ← matchedId T d tenantId records "account" "domain"
    (normalizeDomain T (record.read "domain"))
  match found with
  | some id => return some id
  | none =>
    matchedId T d tenantId records "account" "name" ((nonEmpty (companyOf T record)).map T.lower)

/-- The account that is made for the company of a contact. -/
def companyData (record : Data) : Data :=
  [("name", .str (companyOf T record)),
    ("domain", orNull (normalizeDomain T (record.read "domain"))),
    ("source", .str "light_crm_link")]

/-- `_resolve_account_for_contact`. -/
def resolveAccountForContact (record : Data) : Except String (Option Data × Books) := do
  let found ← companyAccountId T d tenantId b.records record
  match found with
  | some id =>
    let account ← readRecord b.records tenantId "account" id
    return (account, b)
  | none =>
    if companyOf T record = "" then return (none, b)
    else
      let (account, b) ← upsertAccount T d tenantId b (companyData T record)
      return (some account, b)

/-- The account of a contact that does not name one. -/
def contactAccount (record : Data) : Except String (Option Data × Books) :=
  if (record.read "account_id").truthy then .ok (none, b)
  else resolveAccountForContact T d tenantId b record

def withAccount (record : Data) : Option Data → Data
  | some account => record.set "account_id" (account.read "id")
  | none => record

/-- `_upsert_contact`. -/
def upsertContact (data : Data) : Except String (Data × Books) := do
  let record ← enrichContactData T data
  let recordId ← contactRecordId T d tenantId b.records record
  let (account, b) ← contactAccount T d tenantId b record
  b.save T d tenantId .identityUpsert (given recordId) "contact" recordId
    (withAccount record account)

/-- The id of an opportunity: supplied or found by its contact. -/
def opportunityRecordId (record : Data) : Except String (Option String) :=
  match suppliedId record with
  | some id => .ok (some id)
  | none =>
    if (record.read "contact_id").truthy then do
      let found ← searchRecords T records.toStore tenantId "opportunity"
        ((record.read "contact_id").pyStr T) [("contact_id", record.read "contact_id")] 1 0
      return found.head?.map fun row => (row.read "id").pyStr T
    else .ok none

def previousOpportunity (recordId : Option String) : Except String (Option Data) :=
  if given recordId then readRecord records tenantId "opportunity" (recordId.getD "")
  else .ok none

/-- The stage that an opportunity leaves and the one that it gets, where they differ. -/
def stageChange (previous : Option Data) (saved : Data) : Option (String × String) :=
  let previousStage := (previous.map fun p => (p.read "stage").text T).getD ""
  let nextStage := (saved.read "stage").text T
  if previousStage ≠ "" ∧ previousStage ≠ nextStage then some (previousStage, nextStage) else none

/-- The `activity_payload` of a changed stage. -/
def stagePayload (saved : Data) (stages : String × String) : Data :=
  [("type", .str "stage_changed"), ("subject", .str s!"Stage moved to {stages.2}"),
    ("body", .str s!"Opportunity stage changed from {stages.1} to {stages.2}."),
    ("related_type", .str "opportunity"), ("related_id", .str ((saved.read "id").pyStr T)),
    ("occurred_at", .str d.nowText), ("source_action", .str "crm.opportunity_stage_transition"),
    ("metadata", .obj [("from", .str stages.1), ("to", .str stages.2)])]

/-- `_upsert_opportunity`. -/
def upsertOpportunity (data : Data) : Except String (Data × Books) := do
  let record ← enrichOpportunityData T data
  let recordId ← opportunityRecordId T tenantId b.records record
  let previous ← previousOpportunity tenantId b.records recordId
  let (saved, b) ← b.save T d tenantId .identityUpsert (given recordId) "opportunity" recordId record
  match stageChange T previous saved with
  | some stages =>
    let (_, b) ← logActivity T d tenantId b (stagePayload T d saved stages) none
    return (saved, b)
  | none => return (saved, b)

/-- The names of the types of records. -/
def canonicalType (recordType : String) : String :=
  let normalized := T.lower (strip recordType)
  if normalized ∈ ["lead", "leads"] then "contact"
  else if normalized ∈ ["company", "companies"] then "account"
  else if normalized ∈ ["deal", "deals"] then "opportunity"
  else normalized

/-- `identity_upsert`. -/
def identityUpsert (recordType : String) (data : Data) : Except String (Data × Books) :=
  if canonicalType T recordType = "contact" then upsertContact T d tenantId b data
  else if canonicalType T recordType = "account" then upsertAccount T d tenantId b data
  else if canonicalType T recordType = "opportunity" then upsertOpportunity T d tenantId b data
  else b.save T d tenantId .identityUpsert (given (suppliedId data)) (canonicalType T recordType)
    (suppliedId data) data

end Upserts

section Runs

inductive Call
  | identityUpsert (recordType : String) (data : Data)
  | logActivity (payload : Data) (activityId : Option String)
  | linkRecords (fromType fromId relationshipType toType toId source : String)
  | writeRecord (recordType : String) (recordId : Option String) (data : Data)
  | softDelete (recordType recordId : String)

structure Label where
  call : Call
  draws : Draws

/-- A row is marked as deleted. -/
def Records.softDelete (records : Records) (key : String × String × String) : Records where
  rows := records.rows.map fun row => if row.key = key then { row with deleted := true } else row
  unique := by
    have hkeys : (records.rows.map fun row =>
        if row.key = key then { row with deleted := true } else row).map (·.key) =
          records.rows.map (·.key) := by
      rw [List.map_map]
      refine List.map_congr_left fun row _ => ?_
      simp only [Function.comp_apply]
      split_ifs
      · rfl
      · rfl
    rw [hkeys]
    exact records.unique
  named row hrow := by
    obtain ⟨q, hq, rfl⟩ := List.mem_map.1 hrow
    split_ifs
    · exact records.named q hq
    · exact records.named q hq

variable (T : Texts) (digest : String → String) (tenantId : String)

def Books.run (b : Books) (l : Label) : Except String Books :=
  match l.call with
  | .identityUpsert recordType data =>
    (identityUpsert T l.draws tenantId b recordType data).map Prod.snd
  | .logActivity payload id => (logActivity T l.draws tenantId b payload id).map Prod.snd
  | .linkRecords fromType fromId relationshipType toType toId source =>
    (linkRecords T digest l.draws tenantId b fromType fromId relationshipType toType toId source).map
      Prod.snd
  | .writeRecord recordType recordId data =>
    (b.save T l.draws tenantId .writeRecord (given recordId) recordType recordId data).map Prod.snd
  | .softDelete recordType recordId =>
    .ok { b with records := b.records.softDelete (tenantId, recordType, recordId) }

/-- A call that raises is rolled back. -/
def Books.step (b : Books) (l : Label) : Books :=
  match b.run T digest tenantId l with
  | .ok b => b
  | .error _ => b

end Runs

end Ajenda.Crm
