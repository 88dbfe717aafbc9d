import Ajenda.PositionalMerge
import Ajenda.TaskGraphContract

/-!
# Mission acceptance

`evaluate_mission_acceptance` collects the records of the tasks' outputs under their identities
and compares what they show with the thresholds of the contract. `none` is an evaluation that
raises. `Builtins` stands for the texts `str` gives to floats, lists and dictionaries and for
the texts `int` reads.
-/
namespace Ajenda.Acceptance
open TaskGraphs (Value Dict)
open Ajenda.Runtime (strip)
open PositionalMerge

structure Builtins where
  repr : Value → String
  intOfText : String → Option ℤ

section Conversions
variable (b : Builtins)

/-- `str`. -/
def Builtins.str : Value → String
  | .null => "None"
  | .bool true => "True"
  | .bool false => "False"
  | .int z => toString z
  | .str s => s
  | v => b.repr v

/-- `int`: a float is truncated. -/
def Builtins.int : Value → Option ℤ
  | .bool x => some (if x then 1 else 0)
  | .int z => some z
  | .float (.finite q) => some (q.num.tdiv q.den)
  | .str s => b.intOfText s
  | _ => none

/-- `v or w`. -/
def either (v w : Value) : Value := if v.truthy then v else w

/-- `for item in value`; a text yields its characters and a dictionary its keys. -/
def iterate : Value → Option (List Value)
  | .list items => some items
  | .dict fields => some (fields.map fun f => .str f.1)
  | .str s => some (s.toList.map fun c => .str (String.singleton c))
  | _ => none

/-- The items that are dictionaries. -/
def dicts (items : List Value) : List Dict :=
  items.filterMap fun
    | .dict item => some item
    | _ => none

end Conversions

/-! ## Records -/

/-- The output of a task, from its `metadata_json`. -/
def taskOutput (metadataJson : Value) : Option Dict :=
  match metadataJson with
  | .dict metadata =>
    match Dict.get metadata "handler_result" with
    | .dict result =>
      match Dict.get result "output" with
      | .dict nested => some nested
      | _ => some result
    | _ => none
  | _ => none

def outputs (tasks : List Value) : List Dict := tasks.filterMap taskOutput

/-- The records of an output under one key. -/
def rawItems (output : Dict) (outputKey : String) : List Dict :=
  match output.getOr outputKey (.list []) with
  | .dict item => [item]
  | .list items => dicts items
  | _ => []

def records (keys : List String) (output : Dict) : List Dict := keys.flatMap (rawItems output)

section Evaluation
variable (b : Builtins)

def identityFields : List String :=
  ["prospect_id", "record_id", "id", "company", "domain", "artifact_id"]

/-- The identity a record gives itself. -/
def recordName (item : Dict) : Option String :=
  (identityFields.find? fun name => (item.get name).truthy).map fun name => b.str (item.get name)

/-- `unique_records`: a record without an identity is kept under the number of records so far. -/
def uniqueRecords (keys : List String) (outputs : List Dict) : List Dict :=
  (merge (recordName b) Nat.repr (outputs.flatMap (records keys))).map Prod.snd

/-- What a candidate is compared by. -/
def candidateIdentity (item : Dict) : String :=
  b.str (either (item.get "prospect_id") (either (item.get "company")
    (either (item.get "domain") (.str ""))))

/-- The observed candidates that are not among the candidates are added. -/
def addObserved (candidates observed : List Dict) : List Dict :=
  observed.foldl (fun candidates item =>
    if candidateIdentity b item ≠ "" ∧
      ∀ existing ∈ candidates, candidateIdentity b existing ≠ candidateIdentity b item
    then candidates ++ [item] else candidates) candidates

def verified (item : Dict) : Bool :=
  match item.get "identity_status" with
  | .str "verified" => true
  | _ => false

/-- The draft names a company or a prospect, and no placeholder. -/
def boundDraft (item : Dict) : Bool :=
  strip (b.str (either (item.get "company") (either (item.get "prospect_id") (.str "")))) ≠ "" &&
    !(b.str (either (item.get "company") (.str ""))).startsWith "pending.binding"

/-- `int(contract.get(name, default) or default)`. -/
def contractInt (contract : Dict) (name : String) (default : ℤ) : Option ℤ :=
  b.int (either (contract.getOr name (.int default)) (.int default))

/-- A reason, where the condition fails. -/
def demand (condition : Prop) [Decidable condition] (reason : String) : List String :=
  if condition then [] else [reason]

/-! ## Checks -/

def candidateReasons (contract : Dict) (outputs : List Dict) : Option (List String) := do
  let observed := uniqueRecords b ["verified_prospect_candidates"] outputs
  let candidates := addObserved b (uniqueRecords b ["prospect_candidates"] outputs) observed
  let candidateMin ← contractInt b contract "candidate_min" 0
  if (contract.get "require_verified_identity").truthy then
    let promoted := observed.filter verified
    let count := (if promoted = [] then candidates.filter verified else promoted).length
    pure (demand (candidateMin ≤ count)
      s!"required {candidateMin} verified prospect identities, produced {count}")
  else
    pure (demand (candidateMin ≤ candidates.length)
      s!"required at least {candidateMin} prospect candidates, produced {candidates.length}")

def scoreThreshold (contract : Dict) : Option ℤ :=
  match contract.get "score_threshold_10" with
  | .null => some 7
  | rawThreshold => b.int rawThreshold

def qualifiedReasons (contract : Dict) (outputs : List Dict) : Option (List String) := do
  let qualified := uniqueRecords b ["qualified_prospects"] outputs
  let qualifiedMin ← contractInt b contract "qualified_min" 0
  let threshold ← scoreThreshold b contract
  let scores ← qualified.mapM fun item => b.int (either (item.getOr "score_10" (.int 0)) (.int 0))
  let count := (scores.filter fun score => threshold ≤ score).length
  pure (demand (qualifiedMin ≤ count)
    s!"required at least {qualifiedMin} qualified prospects scoring {threshold}/10, produced {count}")

def draftReasons (contract : Dict) (outputs : List Dict) : Option (List String) := do
  let drafts := uniqueRecords b ["introduction_drafts"] outputs
  let count := (if (contract.get "require_bound_drafts").truthy then drafts.filter (boundDraft b)
    else drafts).length
  let draftMin ← contractInt b contract "draft_min" 0
  pure (demand (draftMin ≤ count)
    s!"required at least {draftMin} outreach drafts, produced {count}")

/-- The reports of the outputs under one key. -/
def reports (key : String) (outputs : List Dict) : List Dict :=
  outputs.filterMap fun output =>
    match output.get key with
    | .dict report => some report
    | _ => none

def titled (item : Dict) : Bool := strip (b.str (either (item.get "title") (.str ""))) ≠ ""

/-- The dictionaries in a list that each of the records may hold. -/
def collected (name : String) (holders : List Dict) : Option (List Dict) := do
  let items ← holders.mapM fun holder => iterate (holder.getOr name (.list []))
  pure (dicts items.flatten)

def researchReasons (contract : Dict) (outputs : List Dict) : Option (List String) := do
  let reports := reports "research_report" outputs
  let opportunityMin ← contractInt b contract "market_opportunities_min" 0
  let missing := demand
    ((contract.getOr "research_report_required" (.bool false)).truthy → reports ≠ [])
    "required a research_report artifact, produced 0"
  if opportunityMin = 0 then pure missing
  else
    let items ← collected "market_opportunities" reports
    let count := (items.filter (titled b)).length
    pure (missing ++ demand (opportunityMin ≤ count)
      s!"required at least {opportunityMin} market opportunities in research_report, produced {count}")

def reviewReasons (contract : Dict) (outputs : List Dict) : Option (List String) := do
  if (contract.get "business_review_required").truthy then
    let reviews := reports "business_review_report" outputs
    let items ← collected "income_opportunities" reviews
    if reviews = [] then pure ["required a business_review_report artifact, produced 0"]
    else
      let minimum ← contractInt b contract "business_opportunities_min" 1
      let count := (items.filter (titled b)).length
      pure (demand (minimum ≤ count)
        s!"required at least {minimum} income opportunities in business_review_report, produced {count}")
  else pure []

/-- The records that were persisted, or else the rows of the other producers. -/
def crmRecords (outputs : List Dict) : List Dict :=
  let persisted := uniqueRecords b ["internal_crm_records"] outputs
  if persisted = [] then uniqueRecords b ["crm_records", "records", "internal_records"] outputs
  else persisted

def persistedIds (records : List Dict) : Finset String :=
  ((records.filter fun item => (item.get "id").truthy).map fun item =>
    b.str (item.get "id")).toFinset

/-- What the read-back names as verified. -/
def readBack (tasksOnly : Bool) (item : Dict) : Bool :=
  (match item.get "verified" with
    | .bool true => true
    | _ => false) && (item.get "record_id").truthy &&
  (!tasksOnly || match item.get "record_type" with
    | .str "task" => true
    | _ => false)

def verifiedIds (tasksOnly : Bool) (outputs : List Dict) : Option (Finset String) := do
  let items ← collected "crm_readback_records" outputs
  pure ((items.filter (readBack tasksOnly)).map fun item => b.str (item.get "record_id")).toFinset

def readBackReasons (persisted verified : Finset String) (minimum : ℤ) (what : String) :
    List String :=
  let missing : ℤ := if persisted = ∅ then minimum else (persisted \ verified).card
  demand (persisted ≠ ∅ ∧ persisted \ verified = ∅)
    s!"required verified internal CRM read-back evidence for every persisted {what}; missing {missing}"

def crmReasons (contract : Dict) (outputs : List Dict) : Option (List String) := do
  let crmRecords := crmRecords b outputs
  let crmMin ← contractInt b contract "internal_crm_records_min" 0
  let produced := demand (crmMin ≤ crmRecords.length)
    s!"required at least {crmMin} persisted internal CRM records, produced {crmRecords.length}"
  if (contract.get "internal_crm_readback_required").truthy then
    let verified ← verifiedIds b false outputs
    pure (produced ++ readBackReasons (persistedIds b crmRecords) verified crmMin "record")
  else pure produced

def followUpReasons (contract : Dict) (outputs : List Dict) : Option (List String) := do
  let followUpTasks := uniqueRecords b ["follow_up_tasks"] outputs
  let followUpMin ← contractInt b contract "follow_up_tasks_min" 0
  let produced := demand (followUpMin ≤ followUpTasks.length)
    s!"required at least {followUpMin} persisted follow-up tasks, produced {followUpTasks.length}"
  if (contract.get "follow_up_task_readback_required").truthy then
    let verified ← verifiedIds b true outputs
    pure (produced ++ readBackReasons (persistedIds b followUpTasks) verified followUpMin
      "follow-up task")
  else pure produced

/-- `value in ids`; a list or a dictionary cannot be looked up. -/
def member (value : Value) (ids : Finset String) : Option Bool :=
  match value with
  | .str s => some (s ∈ ids)
  | .list _ | .dict _ => none
  | _ => some false

/-- The contact of a projection, if it was persisted and has an opportunity. -/
def projectedContact (ids : Finset String) (item : Dict) : Option (Option String) := do
  let known ← member (item.get "contact_id") ids
  pure (if known && (item.get "opportunity_id").truthy then some (b.str (item.get "contact_id"))
    else none)

def projectionReasons (contract : Dict) (outputs : List Dict) : Option (List String) := do
  let opportunityMin ← contractInt b contract "internal_crm_opportunities_min" 0
  if opportunityMin = 0 then pure []
  else
    let persistedContactIds := persistedIds b (crmRecords b outputs)
    let projections ← collected "crm_projection_records" outputs
    let contacts ← projections.mapM (projectedContact b persistedContactIds)
    let count := (contacts.filterMap id).toFinset.card
    pure (demand (opportunityMin ≤ count)
      ("required an internal CRM opportunity projection for every persisted record; " ++
        s!"produced {count} of {opportunityMin}"))

/-- `evaluate_mission_acceptance`. -/
def evaluateMissionAcceptance (tasks : List Value) (contract : Dict) :
    Option (Bool × List String) := do
  if contract = [] then pure (true, [])
  else
    let outputs := outputs tasks
    let reasons ← [candidateReasons b, qualifiedReasons b, draftReasons b, researchReasons b,
      reviewReasons b, crmReasons b, followUpReasons b, projectionReasons b].mapM fun check =>
        check contract outputs
    pure (reasons.flatten.isEmpty, reasons.flatten)

end Evaluation
end Ajenda.Acceptance
