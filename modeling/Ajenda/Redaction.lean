import Ajenda.JsonValue
import Ajenda.MissionInputBinding
import Ajenda.TextReplacement

/-!
# Redaction of sensitive data

`redact_sensitive_data` and `contains_sensitive_value` on JSON values. Both recurse on the stack of
the interpreter. `lower` stands for `str.lower`. A value is found in a JSON value by a path of keys
and indices.
-/
namespace Ajenda.Redaction
open JsonValue TextReplacement
open Ajenda.Runtime (strip)

def redactedValue : String := "***REDACTED***"

def sensitiveKeyFragments : List String :=
  ["api_key", "apikey", "token", "access_token", "refresh_token", "authorization", "bearer",
    "password", "secret", "private_key", "client_secret", "webhook_secret", "plaintext_secret",
    "secret_value"]

section Texts

/-- `text.replace(old, new)`. -/
def replaceText (old new text : String) : String :=
  String.ofList (replaceAll old.toList new.toList text.toList)

/-- `word in text`. -/
def isIn (word text : String) : Bool := decide (word.toList <:+: text.toList)

variable (lower : String → String)

def normalizeExactKey (key : String) : String := lower (strip key)

def normalizeFragmentKey (key : String) : String := replaceText "-" "_" (normalizeExactKey lower key)

def normalizedAdditionalKeys (keys : List String) : List String :=
  (keys.filter fun key => strip key ≠ "").map (normalizeExactKey lower)

/-- `_is_sensitive_key`. -/
def isSensitiveKey (additionalKeys : List String) (key : String) : Bool :=
  let normalized := normalizeFragmentKey lower key
  if normalizeExactKey lower key ∈ additionalKeys then true
  else if normalized = "side_effect_authorization" ∨ normalized = "ability_authorization" then false
  else sensitiveKeyFragments.any fun fragment => isIn fragment normalized

/-- The values that are not empty, longer ones first. -/
def normalizedSensitiveValues (values : List String) : List String :=
  (values.filter (· ≠ "")).insertionSort fun a b => b.length ≤ a.length

/-- `_redact_sensitive_string`. -/
def redactString (sensitiveValues : List String) (value : String) : String :=
  sensitiveValues.foldl (fun redacted secret => replaceText secret redactedValue redacted) value

end Texts

section Values

/-- What `_redact_sensitive_data` is called with. -/
structure Options where
  additionalKeys : List String
  sensitiveValues : List String
  redactMappingKeys : Bool

variable (lower : String → String) (options : Options)

def Options.redactedKey (key : String) : String :=
  if options.redactMappingKeys then redactString options.sensitiveValues key else key

mutual
/-- `_redact_sensitive_data` with so many nested calls left; `none` when one more is needed. -/
def redact : ℕ → Json → Option Json
  | 0, _ => none
  | calls + 1, .obj fields =>
    (redactFields calls fields).map fun assigned => .obj (Fields.update [] assigned)
  | calls + 1, .arr items => (redactItems calls items).map .arr
  | _ + 1, .str s => some (.str (redactString options.sensitiveValues s))
  | _ + 1, value => some value
def redactItems (calls : ℕ) : List Json → Option (List Json)
  | [] => some []
  | item :: items => do
    let item ← redact calls item
    let items ← redactItems calls items
    return item :: items
/-- What is assigned to the redacted mapping, one field after another. -/
def redactFields (calls : ℕ) : Fields → Option Fields
  | [] => some []
  | (key, item) :: fields => do
    let item ← if isSensitiveKey lower options.additionalKeys key then some (.str redactedValue)
      else redact calls item
    let fields ← redactFields calls fields
    return (options.redactedKey key, item) :: fields
end

/-- How many nested calls of `_redact_sensitive_data` and of `contains_sensitive_value` fit on the
interpreter's stack together with what they call besides. One more raises a `RecursionError`. -/
structure Stack where
  redactCalls : ℕ
  containsCalls : ℕ

def redactSensitiveData (stack : Stack) (value : Json)
    (additionalSensitiveKeys additionalSensitiveValues : List String) (redactMappingKeys : Bool) :
    Option Json :=
  redact lower ⟨normalizedAdditionalKeys lower additionalSensitiveKeys,
    normalizedSensitiveValues additionalSensitiveValues, redactMappingKeys⟩ stack.redactCalls value

/-- `contains_sensitive_value` on a text. -/
def containsText (sensitiveValues : List String) : ℕ → String → Option Bool
  | 0, _ => none
  | _ + 1, text => some (sensitiveValues.any fun secret => isIn secret text)

mutual
/-- `contains_sensitive_value` with normalized values and so many nested calls left. -/
def contains (sensitiveValues : List String) (inspectMappingKeys : Bool) : ℕ → Json → Option Bool
  | 0, _ => none
  | calls + 1, .obj fields =>
    if sensitiveValues = [] then some false
    else containsFields sensitiveValues inspectMappingKeys calls fields
  | calls + 1, .arr items =>
    if sensitiveValues = [] then some false
    else containsItems sensitiveValues inspectMappingKeys calls items
  | calls + 1, .str s => containsText sensitiveValues (calls + 1) s
  | _ + 1, _ => some false
def containsItems (sensitiveValues : List String) (inspectMappingKeys : Bool) (calls : ℕ) :
    List Json → Option Bool
  | [] => some false
  | item :: items => do
    if ← contains sensitiveValues inspectMappingKeys calls item then return true
    containsItems sensitiveValues inspectMappingKeys calls items
def containsFields (sensitiveValues : List String) (inspectMappingKeys : Bool) (calls : ℕ) :
    Fields → Option Bool
  | [] => some false
  | (key, item) :: fields => do
    if ← if inspectMappingKeys then containsText sensitiveValues calls key else some false then
      return true
    if ← contains sensitiveValues inspectMappingKeys calls item then return true
    containsFields sensitiveValues inspectMappingKeys calls fields
end

def containsSensitiveValue (stack : Stack) (value : Json) (sensitiveValues : List String) :
    Option Bool :=
  contains (normalizedSensitiveValues sensitiveValues) true stack.containsCalls value

end Values

section Paths

inductive Place
  | key (key : String)
  | index (i : ℕ)

/-- The value at a path. -/
def valueAt : Json → List Place → Option Json
  | value, [] => some value
  | .obj fields, .key key :: path => (Fields.get fields key).bind fun item => valueAt item path
  | .arr items, .index i :: path => items[i]?.bind fun item => valueAt item path
  | _, _ :: _ => none

def Place.map (f : String → String) : Place → Place
  | .key k => .key (f k)
  | .index i => .index i

/-- No key of the path is sensitive. -/
def Open (lower : String → String) (path : List Place) : Prop :=
  ∀ key, Place.key key ∈ path → isSensitiveKey lower [] key = false

/-- The value has no parts. -/
def IsLeaf : Json → Prop
  | .arr items => items = []
  | .obj fields => fields = []
  | _ => True

end Paths

section Completeness
variable (lower : String → String) (secrets : List String)

/-- The call that also redacts the keys of mappings. -/
def redactSecrets (stack : Stack) (value : Json) : Option Json :=
  redactSensitiveData lower stack value [] secrets true

def redactedKey (key : String) : String := redactString (normalizedSensitiveValues secrets) key

mutual
/-- The redacted keys of every mapping stay distinct. -/
def Distinct : Json → Prop
  | .obj fields => (fields.map fun f => redactedKey secrets f.1).Nodup ∧ DistinctFields fields
  | .arr items => DistinctItems items
  | _ => True
def DistinctItems : List Json → Prop
  | [] => True
  | item :: items => Distinct item ∧ DistinctItems items
def DistinctFields : Fields → Prop
  | [] => True
  | (_, item) :: fields => Distinct item ∧ DistinctFields fields
end

mutual
/-- The values differ under sensitive keys only. -/
def Alike : Json → Json → Prop
  | .obj fields, .obj fields' => AlikeFields fields fields'
  | .arr items, .arr items' => AlikeItems items items'
  | value, value' => value = value'
def AlikeItems : List Json → List Json → Prop
  | [], [] => True
  | item :: items, item' :: items' => Alike item item' ∧ AlikeItems items items'
  | _, _ => False
def AlikeFields : Fields → Fields → Prop
  | [], [] => True
  | (key, item) :: fields, (key', item') :: fields' =>
    key = key' ∧ (isSensitiveKey lower [] key = true ∨ Alike item item') ∧ AlikeFields fields fields'
  | _, _ => False
end

/-- What redaction promises of a value and what it is redacted to. -/
structure RedactedTo (stack : Stack) (value redacted : Json) : Prop where
  returned : redactSecrets lower secrets stack value = some redacted
  clean : containsSensitiveValue stack redacted secrets = some false
  stable : redactSecrets lower secrets stack redacted = some redacted
  /-- What is under sensitive keys leaves no trace. -/
  hidden : ∀ value', Alike lower value value' →
    redactSecrets lower secrets stack value' = some redacted
  masked : Distinct secrets value → ∀ path key item, Open lower path →
    isSensitiveKey lower [] key = true → valueAt value (path ++ [.key key]) = some item →
      valueAt redacted ((path ++ [Place.key key]).map (Place.map (redactedKey secrets))) =
        some (.str redactedValue)
  kept : Distinct secrets value → ∀ path leaf, Open lower path → valueAt value path = some leaf →
    IsLeaf leaf → containsSensitiveValue stack leaf secrets = some false →
      valueAt redacted (path.map (Place.map (redactedKey secrets))) = some leaf

/-- Redaction of a value is complete. -/
def Complete (stack : Stack) (value : Json) : Prop :=
  ∃ redacted, RedactedTo lower secrets stack value redacted

mutual
/-- No key becomes sensitive by the redaction of its own text, unless its value is redacted as a
whole; of keys that become equal the last one counts. -/
def Steady : Json → Prop
  | .obj fields => SteadyFields fields
  | .arr items => SteadyItems items
  | _ => True
def SteadyItems : List Json → Prop
  | [] => True
  | item :: items => Steady item ∧ SteadyItems items
def SteadyFields : Fields → Prop
  | [] => True
  | (key, item) :: fields =>
    (redactedKey secrets key ∈ fields.map (fun f => redactedKey secrets f.1) ∨
      isSensitiveKey lower [] key = true ∨
      if isSensitiveKey lower [] (redactedKey secrets key) then
        ∃ s, item = .str s ∧ redactedKey secrets s = redactedValue
      else Steady item) ∧ SteadyFields fields
end

end Completeness

section Nesting

/-- Where a recursive function goes at a field: nowhere, to a text or to the value of the field. -/
inductive Visit
  | skip
  | text
  | item

mutual
/-- The calls of a recursive function on a value nest no deeper. A field is visited by its key and
the keys after it. -/
def Nests (visit : String → List String → Visit) : ℕ → Json → Prop
  | 0, _ => False
  | calls + 1, .obj fields => NestsFields visit calls fields
  | calls + 1, .arr items => NestsItems visit calls items
  | _ + 1, _ => True
def NestsItems (visit : String → List String → Visit) (calls : ℕ) : List Json → Prop
  | [] => True
  | item :: items => Nests visit calls item ∧ NestsItems visit calls items
def NestsFields (visit : String → List String → Visit) (calls : ℕ) : Fields → Prop
  | [] => True
  | (key, item) :: fields =>
    (match visit key (fields.map (·.1)) with
      | .skip => True
      | .text => 0 < calls
      | .item => Nests visit calls item) ∧ NestsFields visit calls fields
end

variable (lower : String → String) (secrets : List String)

/-- Redaction does not go below a sensitive key. -/
def redactVisit (key : String) (_ : List String) : Visit :=
  if isSensitiveKey lower [] key then .skip else .item

/-- The search for secrets goes to every key and to its value. -/
def containsVisit (_ : String) (_ : List String) : Visit := .item

/-- The same visits of the redacted value: of keys that become equal only the last one is left, and
below a sensitive key there is the marker. -/
def afterwards (visit : String → List String → Visit) (key : String) (later : List String) : Visit :=
  if redactedKey secrets key ∈ later.map (redactedKey secrets) then .skip
  else
    match visit (redactedKey secrets key) [] with
    | .item => if isSensitiveKey lower [] key then .text else .item
    | place => place

/-- The calls on a value and on what it is redacted to fit on the stack. -/
structure Fits (stack : Stack) (value : Json) : Prop where
  redacted : Nests (redactVisit lower) stack.redactCalls value
  again : Nests (afterwards lower secrets (redactVisit lower)) stack.redactCalls value
  inspected : (normalizedSensitiveValues secrets = [] ∧ 0 < stack.containsCalls) ∨
    Nests (afterwards lower secrets containsVisit) stack.containsCalls value

end Nesting

end Ajenda.Redaction
