import Ajenda.Redaction

/-!
# Redaction is complete

The secrets share no letter with the marker, so the replacement of one leaves no other. What a
second redaction may still change is a value under a key that was not sensitive before its own text
was redacted: redaction is complete for exactly the values without one.
-/
namespace Ajenda.Redaction
open JsonValue TextReplacement

section Words

/-- No secret shares a character with the marker. -/
def ApartFromMarker (secrets : List String) : Prop :=
  ∀ secret ∈ secrets, ∀ c ∈ secret.toList, c ∉ redactedValue.toList

theorem apartFromMarker_iff (secrets : List String) : ApartFromMarker secrets ↔
    secrets.all (fun secret => secret.toList.all (· ∉ redactedValue.toList)) = true := by
  simp [ApartFromMarker]

instance (secrets : List String) : Decidable (ApartFromMarker secrets) :=
  decidable_of_iff _ (apartFromMarker_iff secrets).symm

variable {values : List String} {secret word text : String}

theorem isIn_eq_false : isIn word text = false ↔ ¬word.toList <:+: text.toList := by
  rw [isIn, decide_eq_false_iff_not]

theorem marker_ne_nil : redactedValue.toList ≠ [] := by decide +kernel

/-- Values that are not empty and share no character with the marker. -/
def Apart (values : List String) : Prop :=
  ∀ secret ∈ values, secret ≠ "" ∧ ∀ c ∈ secret.toList, c ∉ redactedValue.toList

theorem apart_normalized (h : ApartFromMarker values) : Apart (normalizedSensitiveValues values) := by
  intro secret hsecret
  have hmem := (List.mem_insertionSort _).1 hsecret
  have hvalues := List.mem_filter.1 hmem
  exact ⟨by simpa using hvalues.2, h secret hvalues.1⟩

theorem Apart.tail (h : Apart (secret :: values)) : Apart values := fun s hs =>
  h s (List.mem_cons_of_mem _ hs)

theorem replaceText_replaced (h : word ≠ "") (text : String) :
    Replaced word.toList redactedValue.toList text.toList
      (replaceText word redactedValue text).toList := by
  rw [replaceText, String.toList_ofList]
  refine replaceAll_replaced (fun hnil => h ?_) _
  rw [← String.ofList_toList (s := word), hnil]

/-- Each of the values is replaced, and what did not occur does not come up. -/
theorem redactString_clean (h : Apart values) (hword : ∀ c ∈ word.toList, c ∉ redactedValue.toList)
    (hin : word ∈ values ∨ isIn word text = false) :
    isIn word (redactString values text) = false := by
  induction values generalizing text with
  | nil => exact hin.resolve_left List.not_mem_nil
  | cons secret values ih =>
    have hreplaced := replaceText_replaced (h secret List.mem_cons_self).1 text
    refine ih h.tail ?_
    rcases hin with hin | hin
    · rcases List.mem_cons.1 hin with rfl | hin
      · exact .inr (isIn_eq_false.2 (hreplaced.no_old marker_ne_nil hword))
      · exact .inl hin
    · exact .inr (isIn_eq_false.2
        (hreplaced.no_other marker_ne_nil hword (isIn_eq_false.1 hin)))

/-- A text without any of the values stays as it is. -/
theorem redactString_same (h : Apart values) (hnone : ∀ secret ∈ values, isIn secret text = false) :
    redactString values text = text := by
  induction values with
  | nil => rfl
  | cons secret values ih =>
    have hsame := (replaceText_replaced (h secret List.mem_cons_self).1 text).same
      (isIn_eq_false.1 (hnone secret List.mem_cons_self))
    rw [redactString, List.foldl_cons, String.toList_inj.1 hsame]
    exact ih h.tail fun s hs => hnone s (List.mem_cons_of_mem _ hs)

theorem redactString_none (h : Apart values) (text : String) :
    ∀ secret ∈ values, isIn secret (redactString values text) = false := fun secret hsecret =>
  redactString_clean h (h secret hsecret).2 (.inl hsecret)

theorem redactString_idem (h : Apart values) (text : String) :
    redactString values (redactString values text) = redactString values text :=
  redactString_same h (redactString_none h text)

theorem marker_none (h : Apart values) : ∀ secret ∈ values, isIn secret redactedValue = false := by
  intro secret hsecret
  obtain ⟨hne, hletters⟩ := h secret hsecret
  refine isIn_eq_false.2 fun hwithin => hne ?_
  rw [← String.toList_inj, String.toList_empty]
  exact List.eq_nil_iff_forall_not_mem.2 fun c hc => hletters c hc (hwithin.subset hc)

theorem redactString_marker (h : Apart values) : redactString values redactedValue = redactedValue :=
  redactString_same h (marker_none h)

end Words

section Results
variable (lower : String → String) (options : Options) (values : List String)

mutual
/-- What `redact` returns when its calls fit on the stack. -/
def redaction : Json → Json
  | .obj fields => .obj (Fields.update [] (redactionFields fields))
  | .arr items => .arr (redactionItems items)
  | .str s => .str (redactString options.sensitiveValues s)
  | value => value
def redactionItems : List Json → List Json
  | [] => []
  | item :: items => redaction item :: redactionItems items
def redactionFields : Fields → Fields
  | [] => []
  | (key, item) :: fields =>
    (options.redactedKey key,
      if isSensitiveKey lower options.additionalKeys key then .str redactedValue
      else redaction item) :: redactionFields fields
end

mutual
/-- One of the values is in a text or a key. -/
def occurs : Json → Bool
  | .obj fields => occursFields fields
  | .arr items => occursItems items
  | .str s => values.any fun secret => isIn secret s
  | _ => false
def occursItems : List Json → Bool
  | [] => false
  | item :: items => occurs item || occursItems items
def occursFields : Fields → Bool
  | [] => false
  | (key, item) :: fields =>
    ((values.any fun secret => isIn secret key) || occurs item) || occursFields fields
end

end Results

section Fields
variable {lower : String → String} {options : Options} {values : List String} {fields : Fields}
  {items : List Json} {key : String} {value : Json}

/-- A field as it is assigned to the redacted mapping. -/
def redactField (lower : String → String) (options : Options) (f : String × Json) : String × Json :=
  (options.redactedKey f.1,
    if isSensitiveKey lower options.additionalKeys f.1 then .str redactedValue
    else redaction lower options f.2)

theorem redactionFields_eq : redactionFields lower options fields =
    fields.map (redactField lower options) := by
  induction fields with
  | nil => rfl
  | cons f fields ih =>
    rw [redactionFields, ih]
    rfl

theorem redactionItems_eq :
    redactionItems lower options items = items.map (redaction lower options) := by
  induction items with
  | nil => rfl
  | cons item items ih => rw [redactionItems, ih, List.map_cons]

theorem occursFields_eq_false : occursFields values fields = false ↔
    ∀ f ∈ fields, (∀ secret ∈ values, isIn secret f.1 = false) ∧ occurs values f.2 = false := by
  induction fields with
  | nil => simp [occursFields]
  | cons f fields ih => simp [occursFields, ih, and_assoc]

theorem distinctFields_iff {secrets : List String} : DistinctFields secrets fields ↔
    ∀ f ∈ fields, Distinct secrets f.2 := by
  induction fields with
  | nil => simp [DistinctFields]
  | cons f fields ih => simp [DistinctFields, ih]

theorem distinctItems_iff {secrets : List String} : DistinctItems secrets items ↔
    ∀ item ∈ items, Distinct secrets item := by
  induction items with
  | nil => simp [DistinctItems]
  | cons item items ih => simp [DistinctItems, ih]

end Fields

section Clean
variable {lower : String → String} {values : List String}

mutual
/-- A redacted value has no secret. -/
theorem clean_redact (h : Apart values) (value : Json) :
    occurs values (redaction lower ⟨[], values, true⟩ value) = false := by
  cases value with
  | null => rfl
  | bool b => rfl
  | num n => rfl
  | str s =>
    rw [redaction, occurs, List.any_eq_false]
    intro secret hsecret
    rw [redactString_none h s secret hsecret]
    exact Bool.false_ne_true
  | arr items =>
    rw [redaction, occurs]
    exact clean_redactItems h items
  | obj fields =>
    rw [redaction, occurs, occursFields_eq_false]
    intro f hf
    exact clean_redactFields h fields f ((Fields.mem_update hf).resolve_left List.not_mem_nil)
theorem clean_redactItems (h : Apart values) (items : List Json) :
    occursItems values (redactionItems lower ⟨[], values, true⟩ items) = false := by
  cases items with
  | nil => rfl
  | cons item items =>
    rw [redactionItems, occursItems, clean_redact h item, clean_redactItems h items]
    rfl
theorem clean_redactFields (h : Apart values) (fields : Fields) :
    ∀ f ∈ redactionFields lower ⟨[], values, true⟩ fields,
      (∀ secret ∈ values, isIn secret f.1 = false) ∧ occurs values f.2 = false := by
  cases fields with
  | nil => exact fun f hf => absurd hf List.not_mem_nil
  | cons f fields =>
    obtain ⟨key, item⟩ := f
    intro g hg
    rw [redactionFields] at hg
    rcases List.mem_cons.1 hg with rfl | hg
    · refine ⟨redactString_none h key, ?_⟩
      split_ifs
      · rw [occurs, List.any_eq_false]
        intro secret hsecret
        rw [marker_none h secret hsecret]
        exact Bool.false_ne_true
      · exact clean_redact h item
    · exact clean_redactFields h fields g hg
end

end Clean

section Hidden
variable {lower : String → String} {options : Options}

mutual
theorem redact_alike (hkeys : options.additionalKeys = []) (calls : ℕ) (value value' : Json)
    (h : Alike lower value value') :
    redact lower options calls value' = redact lower options calls value := by
  cases calls with
  | zero =>
    rw [redact, redact]
  | succ calls =>
    cases value with
    | obj fields =>
      cases value' with
      | obj fields' =>
        rw [Alike] at h
        rw [redact, redact, redactFields_alike hkeys calls fields fields' h]
      | _ => simp [Alike] at h
    | arr items =>
      cases value' with
      | arr items' =>
        rw [Alike] at h
        rw [redact, redact, redactItems_alike hkeys calls items items' h]
      | _ => simp [Alike] at h
    | _ =>
      cases value' with
      | _ => simp_all [Alike]
theorem redactItems_alike (hkeys : options.additionalKeys = []) (calls : ℕ) (items items' : List Json)
    (h : AlikeItems lower items items') :
    redactItems lower options calls items' = redactItems lower options calls items := by
  cases items with
  | nil =>
    cases items' with
    | nil => rfl
    | cons item' items' => simp [AlikeItems] at h
  | cons item items =>
    cases items' with
    | nil => simp [AlikeItems] at h
    | cons item' items' =>
      rw [AlikeItems] at h
      rw [redactItems, redactItems, redact_alike hkeys calls item item' h.1,
        redactItems_alike hkeys calls items items' h.2]
theorem redactFields_alike (hkeys : options.additionalKeys = []) (calls : ℕ)
    (fields fields' : Fields) (h : AlikeFields lower fields fields') :
    redactFields lower options calls fields' = redactFields lower options calls fields := by
  cases fields with
  | nil =>
    cases fields' with
    | nil => rfl
    | cons f' fields' => simp [AlikeFields] at h
  | cons f fields =>
    obtain ⟨key, item⟩ := f
    cases fields' with
    | nil => simp [AlikeFields] at h
    | cons f' fields' =>
      obtain ⟨key', item'⟩ := f'
      rw [AlikeFields] at h
      obtain ⟨rfl, hitem, hfields⟩ := h
      rw [redactFields, redactFields, redactFields_alike hkeys calls fields fields' hfields, hkeys]
      rcases hitem with hsensitive | hitem
      · rw [if_pos hsensitive, if_pos hsensitive]
      · rw [redact_alike hkeys calls item item' hitem]
end

end Hidden

section Steady
variable {lower : String → String} {secrets : List String}

/-- The options of a call that redacts keys too. -/
def secretOptions (secrets : List String) : Options := ⟨[], normalizedSensitiveValues secrets, true⟩

/-- Another redaction leaves the assigned field as it is. -/
def Settled (lower : String → String) (secrets : List String) (key : String) (value : Json) : Prop :=
  (if isSensitiveKey lower [] key then .str redactedValue
    else redaction lower (secretOptions secrets) value) = value

theorem redact_eq_marker (value : Json) :
    redaction lower (secretOptions secrets) value = .str redactedValue ↔
      ∃ s, value = .str s ∧ redactedKey secrets s = redactedValue := by
  cases value with
  | str s => simp [redaction, redactedKey, secretOptions]
  | _ => simp [redaction]

/-- A new mapping has of every key what it is assigned last. -/
theorem last_iff_mem {assigned : Fields} {key : String} {value : Json} :
    Fields.last assigned key = some value ↔ (key, value) ∈ Fields.update [] assigned := by
  have hnodup : ((Fields.update [] assigned).map (·.1)).Nodup := Fields.nodup_update List.nodup_nil
  have hget : (Fields.update [] assigned).get key = Fields.last assigned key := by
    rw [Fields.get_update, Fields.get_nil, Option.or_none]
  rw [← hget]
  exact ⟨Fields.mem_of_get, Fields.get_of_mem hnodup⟩

/-- A redacted mapping is as it was after another redaction when its fields are settled. -/
theorem redact_obj_iff (h : Apart (normalizedSensitiveValues secrets)) (fields : Fields) :
    redaction lower (secretOptions secrets) (redaction lower (secretOptions secrets) (.obj fields)) =
        redaction lower (secretOptions secrets) (.obj fields) ↔
      ∀ key value,
        Fields.last (redactionFields lower (secretOptions secrets) fields) key = some value →
        Settled lower secrets key value := by
  set assigned := redactionFields lower (secretOptions secrets) fields with hassigned
  set redacted := Fields.update [] assigned with hredacted
  have hnodup : (redacted.map (·.1)).Nodup := Fields.nodup_update List.nodup_nil
  have hkeys : ∀ f ∈ redacted, (secretOptions secrets).redactedKey f.1 = f.1 := by
    intro f hf
    have hmem := (Fields.mem_update hf).resolve_left List.not_mem_nil
    rw [hassigned, redactionFields_eq] at hmem
    obtain ⟨g, -, rfl⟩ := List.mem_map.1 hmem
    exact redactString_idem h g.1
  have hagain : (redactionFields lower (secretOptions secrets) redacted).map (·.1) =
      redacted.map (·.1) := by
    rw [redactionFields_eq, List.map_map]
    exact List.map_congr_left hkeys
  have hupdate : Fields.update [] (redactionFields lower (secretOptions secrets) redacted) =
      redactionFields lower (secretOptions secrets) redacted :=
    Fields.update_of_new (by rwa [List.nil_append, hagain])
  have hlast : ∀ key value, Fields.last assigned key = some value ↔ (key, value) ∈ redacted :=
    fun key value => last_iff_mem
  have htwice : redaction lower (secretOptions secrets) (.obj redacted) = .obj redacted ↔
      ∀ f ∈ redacted, redactField lower (secretOptions secrets) f = f := by
    have hmap : redacted.map (redactField lower (secretOptions secrets)) = redacted.map id ↔
        ∀ f ∈ redacted, redactField lower (secretOptions secrets) f = id f := List.map_inj_left
    rw [List.map_id] at hmap
    rw [redaction, hupdate, redactionFields_eq, Json.obj.injEq, hmap]
    rfl
  rw [show redaction lower (secretOptions secrets) (.obj fields) = .obj redacted by rw [redaction],
    htwice]
  constructor
  · intro hsame key value hvalue
    exact congrArg Prod.snd (hsame (key, value) ((hlast key value).1 hvalue))
  · intro hsettled f hf
    exact Prod.ext (hkeys f hf) (hsettled f.1 f.2 ((hlast f.1 f.2).2 hf))

/-- The field of a key and a value. -/
theorem redactedField_iff (h : Apart (normalizedSensitiveValues secrets)) (key : String)
    (item : Json) (hitem : redaction lower (secretOptions secrets)
        (redaction lower (secretOptions secrets) item) =
          redaction lower (secretOptions secrets) item ↔
      Steady lower secrets item) :
    Settled lower secrets (redactedKey secrets key)
        (if isSensitiveKey lower [] key then .str redactedValue
          else redaction lower (secretOptions secrets) item) ↔
      isSensitiveKey lower [] key = true ∨
        if isSensitiveKey lower [] (redactedKey secrets key) then
          ∃ s, item = .str s ∧ redactedKey secrets s = redactedValue
        else Steady lower secrets item := by
  have hmarker : redaction lower (secretOptions secrets) (.str redactedValue) = .str redactedValue := by
    rw [redaction, Json.str.injEq]
    exact redactString_marker h
  rw [Settled]
  by_cases hkey : isSensitiveKey lower [] key = true
  · rw [if_pos hkey, hmarker, ite_self]
    exact iff_of_true rfl (.inl hkey)
  · rw [if_neg hkey, or_iff_right hkey]
    split_ifs
    · rw [eq_comm]
      exact redact_eq_marker item
    · exact hitem

/-- Of the fields of one key the last one counts. -/
theorem last_cons_iff (P : String → Json → Prop) (key : String) (value : Json) (fields : Fields) :
    (∀ k v, Fields.last ((key, value) :: fields) k = some v → P k v) ↔
      (key ∈ fields.map (·.1) ∨ P key value) ∧ ∀ k v, Fields.last fields k = some v → P k v := by
  constructor
  · intro h
    refine ⟨?_, fun k v hv => h k v (by rw [Fields.last, hv, Option.some_or])⟩
    by_cases hmem : key ∈ fields.map (·.1)
    · exact .inl hmem
    · refine .inr (h key value ?_)
      rw [Fields.last, Fields.last_eq_none.2 hmem, Option.none_or, if_pos rfl]
  · rintro ⟨hkey, h⟩ k v hv
    rw [Fields.last] at hv
    cases hlast : Fields.last fields k with
    | some w =>
      rw [hlast, Option.some_or] at hv
      exact h k v (hlast.trans hv)
    | none =>
      rw [hlast, Option.none_or] at hv
      split_ifs at hv with hk
      subst hk
      obtain rfl := Option.some.inj hv
      exact hkey.resolve_left (Fields.last_eq_none.1 hlast)

mutual
/-- Redacting twice is redacting once exactly for steady values. -/
theorem redact_redact_iff (h : Apart (normalizedSensitiveValues secrets)) (value : Json) :
    redaction lower (secretOptions secrets) (redaction lower (secretOptions secrets) value) =
      redaction lower (secretOptions secrets) value ↔ Steady lower secrets value := by
  cases value with
  | null => exact iff_of_true rfl trivial
  | bool b => exact iff_of_true rfl trivial
  | num n => exact iff_of_true rfl trivial
  | str s =>
    refine iff_of_true ?_ trivial
    rw [redaction, redaction, Json.str.injEq]
    exact redactString_idem h s
  | arr items =>
    rw [redaction, redaction, Json.arr.injEq, Steady]
    exact redactItems_redactItems_iff h items
  | obj fields =>
    rw [redact_obj_iff h fields, Steady]
    exact settled_iff h fields
theorem redactItems_redactItems_iff (h : Apart (normalizedSensitiveValues secrets))
    (items : List Json) :
    redactionItems lower (secretOptions secrets)
        (redactionItems lower (secretOptions secrets) items) =
      redactionItems lower (secretOptions secrets) items ↔ SteadyItems lower secrets items := by
  cases items with
  | nil => exact iff_of_true rfl trivial
  | cons item items =>
    rw [redactionItems, redactionItems, List.cons.injEq, SteadyItems]
    exact and_congr (redact_redact_iff h item) (redactItems_redactItems_iff h items)
/-- The fields that count are settled exactly when they are steady. -/
theorem settled_iff (h : Apart (normalizedSensitiveValues secrets)) (fields : Fields) :
    (∀ key value,
      Fields.last (redactionFields lower (secretOptions secrets) fields) key = some value →
        Settled lower secrets key value) ↔ SteadyFields lower secrets fields := by
  cases fields with
  | nil => exact iff_of_true (fun key value hvalue => by cases hvalue) trivial
  | cons f fields =>
    obtain ⟨k, item⟩ := f
    have hkeys : (redactionFields lower (secretOptions secrets) fields).map (·.1) =
        fields.map fun f => redactedKey secrets f.1 := by
      rw [redactionFields_eq, List.map_map]
      rfl
    rw [SteadyFields, ← settled_iff h fields, ← hkeys, ← redactedField_iff h k item
      (redact_redact_iff h item)]
    exact last_cons_iff _ _ _ _
end

end Steady

section Nesting
variable {lower : String → String} {secrets values : List String} {calls : ℕ}
  {visit : String → List String → Visit} {value redacted : Json} {items : List Json} {fields : Fields}

mutual
/-- The calls of `redact` on a value fit exactly when they do not nest too deep. -/
theorem redact_eq_some_iff (calls : ℕ) (value redacted : Json) :
    redact lower (secretOptions secrets) calls value = some redacted ↔
      Nests (redactVisit lower) calls value ∧
        redaction lower (secretOptions secrets) value = redacted := by
  match calls, value with
  | 0, value => simp [redact, Nests]
  | calls + 1, .obj fields =>
    simp only [redact, Nests, redaction, Option.map_eq_some_iff,
      redactFields_eq_some_iff calls fields]
    constructor
    · rintro ⟨assigned, ⟨hnests, rfl⟩, rfl⟩
      exact ⟨hnests, rfl⟩
    · rintro ⟨hnests, rfl⟩
      exact ⟨_, ⟨hnests, rfl⟩, rfl⟩
  | calls + 1, .arr items =>
    simp only [redact, Nests, redaction, Option.map_eq_some_iff, redactItems_eq_some_iff calls items]
    constructor
    · rintro ⟨assigned, ⟨hnests, rfl⟩, rfl⟩
      exact ⟨hnests, rfl⟩
    · rintro ⟨hnests, rfl⟩
      exact ⟨_, ⟨hnests, rfl⟩, rfl⟩
  | calls + 1, .null | calls + 1, .bool b | calls + 1, .num n | calls + 1, .str s =>
    simp [redact, Nests, redaction]
theorem redactItems_eq_some_iff (calls : ℕ) (items redacted : List Json) :
    redactItems lower (secretOptions secrets) calls items = some redacted ↔
      NestsItems (redactVisit lower) calls items ∧
        redactionItems lower (secretOptions secrets) items = redacted := by
  match items with
  | [] => simp [redactItems, NestsItems, redactionItems]
  | item :: items =>
    simp only [redactItems, NestsItems, redactionItems, Option.bind_eq_bind, Option.bind_eq_some_iff,
      Option.pure_def, Option.some.injEq, redact_eq_some_iff calls item,
      redactItems_eq_some_iff calls items]
    constructor
    · rintro ⟨_, ⟨hitem, rfl⟩, _, ⟨hitems, rfl⟩, rfl⟩
      exact ⟨⟨hitem, hitems⟩, rfl⟩
    · rintro ⟨⟨hitem, hitems⟩, rfl⟩
      exact ⟨_, ⟨hitem, rfl⟩, _, ⟨hitems, rfl⟩, rfl⟩
theorem redactFields_eq_some_iff (calls : ℕ) (fields redacted : Fields) :
    redactFields lower (secretOptions secrets) calls fields = some redacted ↔
      NestsFields (redactVisit lower) calls fields ∧
        redactionFields lower (secretOptions secrets) fields = redacted := by
  match fields with
  | [] => simp [redactFields, NestsFields, redactionFields]
  | (key, item) :: fields =>
    have hitem : ∀ r, (if isSensitiveKey lower [] key then some (.str redactedValue)
          else redact lower (secretOptions secrets) calls item) = some r ↔
        (isSensitiveKey lower [] key = true ∨ Nests (redactVisit lower) calls item) ∧
          (if isSensitiveKey lower [] key then .str redactedValue
            else redaction lower (secretOptions secrets) item) = r := by
      intro r
      split_ifs with hkey
      · simp [hkey]
      · simpa [hkey] using redact_eq_some_iff calls item r
    have hvisit : NestsFields (redactVisit lower) calls ((key, item) :: fields) ↔
        (isSensitiveKey lower [] key = true ∨ Nests (redactVisit lower) calls item) ∧
          NestsFields (redactVisit lower) calls fields := by
      rw [NestsFields, redactVisit]
      refine and_congr_left' ?_
      split_ifs with hkey
      · simp [hkey]
      · simp [hkey]
    have hstep : redactFields lower (secretOptions secrets) calls ((key, item) :: fields) =
        (if isSensitiveKey lower [] key then some (.str redactedValue)
          else redact lower (secretOptions secrets) calls item).bind fun item =>
            (redactFields lower (secretOptions secrets) calls fields).bind fun fields =>
              some (((secretOptions secrets).redactedKey key, item) :: fields) := by
      rw [redactFields]
      change (if isSensitiveKey lower [] key = true then _ else _) = _
      split_ifs <;> rfl
    rw [hvisit, hstep]
    simp only [Option.bind_eq_some_iff, Option.some.injEq, hitem,
      redactFields_eq_some_iff calls fields]
    constructor
    · rintro ⟨_, ⟨hitem, rfl⟩, _, ⟨hfields, rfl⟩, rfl⟩
      exact ⟨⟨hitem, hfields⟩, rfl⟩
    · rintro ⟨⟨hitem, hfields⟩, rfl⟩
      exact ⟨_, ⟨hitem, rfl⟩, _, ⟨hfields, rfl⟩, rfl⟩
end

theorem containsText_eq_false_iff {text : String} : containsText values calls text = some false ↔
    0 < calls ∧ (values.any fun secret => isIn secret text) = false := by
  cases calls with
  | zero => simp [containsText]
  | succ calls => simp [containsText]

theorem Nests.pos (h : Nests visit calls value) : 0 < calls := by
  cases calls with
  | zero => simp [Nests] at h
  | succ calls => exact calls.succ_pos

mutual
/-- The search finds nothing exactly when there is nothing and its calls fit. -/
theorem contains_eq_false_iff (hvalues : values ≠ []) (calls : ℕ) (value : Json) :
    contains values true calls value = some false ↔
      Nests containsVisit calls value ∧ occurs values value = false := by
  match calls, value with
  | 0, value => simp [contains, Nests]
  | calls + 1, .obj fields =>
    rw [contains, if_neg hvalues, Nests, occurs]
    exact containsFields_eq_false_iff hvalues calls fields
  | calls + 1, .arr items =>
    rw [contains, if_neg hvalues, Nests, occurs]
    exact containsItems_eq_false_iff hvalues calls items
  | calls + 1, .str s => simp [contains, containsText, Nests, occurs]
  | calls + 1, .null | calls + 1, .bool b | calls + 1, .num n => simp [contains, Nests, occurs]
theorem containsItems_eq_false_iff (hvalues : values ≠ []) (calls : ℕ) (items : List Json) :
    containsItems values true calls items = some false ↔
      NestsItems containsVisit calls items ∧ occursItems values items = false := by
  match items with
  | [] => simp [containsItems, NestsItems, occursItems]
  | item :: items =>
    have hitem := contains_eq_false_iff hvalues calls item
    have hitems := containsItems_eq_false_iff hvalues calls items
    rw [containsItems, NestsItems, occursItems, Bool.or_eq_false_iff, and_and_and_comm, ← hitem,
      ← hitems]
    cases hfound : contains values true calls item with
    | none => simp
    | some found => cases found <;> simp
theorem containsFields_eq_false_iff (hvalues : values ≠ []) (calls : ℕ) (fields : Fields) :
    containsFields values true calls fields = some false ↔
      NestsFields containsVisit calls fields ∧ occursFields values fields = false := by
  match fields with
  | [] => simp [containsFields, NestsFields, occursFields]
  | (key, item) :: fields =>
    have hitem := contains_eq_false_iff hvalues calls item
    have hfields := containsFields_eq_false_iff hvalues calls fields
    have hall : NestsFields containsVisit calls ((key, item) :: fields) ∧
          occursFields values ((key, item) :: fields) = false ↔
        containsText values calls key = some false ∧ contains values true calls item = some false ∧
          containsFields values true calls fields = some false := by
      rw [NestsFields, occursFields, Bool.or_eq_false_iff, Bool.or_eq_false_iff, hitem, hfields,
        containsText_eq_false_iff]
      change (Nests containsVisit calls item ∧ _) ∧ _ ↔ _
      constructor
      · rintro ⟨⟨hnests, hrest⟩, ⟨hkey, hitem⟩, hfields⟩
        exact ⟨⟨hnests.pos, hkey⟩, ⟨hnests, hitem⟩, hrest, hfields⟩
      · rintro ⟨⟨-, hkey⟩, ⟨hnests, hitem⟩, hrest, hfields⟩
        exact ⟨⟨hnests, hrest⟩, ⟨hkey, hitem⟩, hfields⟩
    rw [hall, containsFields, if_pos rfl]
    cases hkey : containsText values calls key with
    | none => simp
    | some found =>
      cases found with
      | true => simp
      | false =>
        cases hfound : contains values true calls item with
        | none => simp
        | some found => cases found <;> simp
end

/-- Without values to look for, the search makes one call. -/
theorem contains_nil : contains [] true calls value = some false ↔ 0 < calls := by
  cases calls with
  | zero => simp [contains]
  | succ calls => cases value <;> simp [contains, containsText]

/-- The visit of a field whose key and value are as after a redaction. -/
def NestsField (visit : String → List String → Visit) (calls : ℕ) (key : String) (value : Json) :
    Prop :=
  match visit key [] with
  | .skip => True
  | .text => 0 < calls
  | .item => Nests visit calls value

theorem nestsFields_iff (hvisit : ∀ key later, visit key later = visit key []) :
    NestsFields visit calls fields ↔ ∀ f ∈ fields, NestsField visit calls f.1 f.2 := by
  induction fields with
  | nil => simp [NestsFields]
  | cons f fields ih =>
    rw [NestsFields, ih, hvisit, List.forall_mem_cons]
    rfl

theorem nests_str {s : String} : Nests visit calls (.str s) ↔ 0 < calls := by
  cases calls with
  | zero => simp [Nests]
  | succ calls => simp [Nests]

mutual
/-- The visits of a redacted value, in terms of the value. -/
theorem nests_redaction (hvisit : ∀ key later, visit key later = visit key []) (calls : ℕ)
    (value : Json) :
    Nests visit calls (redaction lower (secretOptions secrets) value) ↔
      Nests (afterwards lower secrets visit) calls value := by
  match calls, value with
  | 0, value => simp [Nests]
  | calls + 1, .obj fields =>
    rw [redaction, Nests, Nests, nestsFields_iff hvisit, ← nestsFields_redaction hvisit calls fields]
    constructor
    · intro h key value hlast
      exact h (key, value) (last_iff_mem.1 hlast)
    · intro h f hf
      exact h f.1 f.2 (last_iff_mem.2 hf)
  | calls + 1, .arr items =>
    rw [redaction, Nests, Nests]
    exact nestsItems_redaction hvisit calls items
  | calls + 1, .null | calls + 1, .bool b | calls + 1, .num n | calls + 1, .str s =>
    simp [redaction, Nests]
theorem nestsItems_redaction (hvisit : ∀ key later, visit key later = visit key []) (calls : ℕ)
    (items : List Json) :
    NestsItems visit calls (redactionItems lower (secretOptions secrets) items) ↔
      NestsItems (afterwards lower secrets visit) calls items := by
  match items with
  | [] => simp [redactionItems, NestsItems]
  | item :: items =>
    rw [redactionItems, NestsItems, NestsItems, nests_redaction hvisit calls item,
      nestsItems_redaction hvisit calls items]
/-- The fields that count are visited. -/
theorem nestsFields_redaction (hvisit : ∀ key later, visit key later = visit key []) (calls : ℕ)
    (fields : Fields) :
    (∀ key value, Fields.last (redactionFields lower (secretOptions secrets) fields) key =
        some value → NestsField visit calls key value) ↔
      NestsFields (afterwards lower secrets visit) calls fields := by
  match fields with
  | [] => simp [redactionFields, Fields.last, NestsFields]
  | (key, item) :: fields =>
    have hitem := nests_redaction hvisit calls item
    have hkeys : (redactionFields lower (secretOptions secrets) fields).map (·.1) =
        (fields.map (·.1)).map (redactedKey secrets) := by
      rw [redactionFields_eq, List.map_map, List.map_map]
      rfl
    rw [redactionFields, NestsFields, last_cons_iff, nestsFields_redaction hvisit calls fields, hkeys]
    refine and_congr_left' ?_
    change redactedKey secrets key ∈ _ ∨ NestsField visit calls (redactedKey secrets key)
      (if isSensitiveKey lower [] key then .str redactedValue
        else redaction lower (secretOptions secrets) item) ↔ _
    rw [afterwards, NestsField]
    by_cases hlater : redactedKey secrets key ∈ (fields.map (·.1)).map (redactedKey secrets)
    · rw [if_pos hlater]
      exact iff_of_true (.inl hlater) trivial
    · rw [if_neg hlater, or_iff_right hlater]
      by_cases hkey : isSensitiveKey lower [] key = true
      · rw [if_pos hkey, if_pos hkey]
        cases visit (redactedKey secrets key) [] <;> simp [nests_str]
      · rw [if_neg hkey, if_neg hkey]
        cases visit (redactedKey secrets key) [] <;> simp [hitem]
end

mutual
/-- Calls nest no deeper than arrays and objects. -/
theorem nests_of_depth (calls : ℕ) (value : Json) (h : value.depth < calls) :
    Nests visit calls value := by
  match calls, value with
  | calls + 1, .obj fields =>
    rw [Nests]
    exact nestsFields_of_depth calls fields (Nat.lt_of_succ_lt_succ h)
  | calls + 1, .arr items =>
    rw [Nests]
    exact nestsItems_of_depth calls items (Nat.lt_of_succ_lt_succ h)
  | calls + 1, .null | calls + 1, .bool b | calls + 1, .num n | calls + 1, .str s => simp [Nests]
theorem nestsItems_of_depth (calls : ℕ) (items : List Json) (h : Json.depthItems items < calls) :
    NestsItems visit calls items := by
  match items with
  | [] => trivial
  | item :: items =>
    rw [Json.depthItems, max_lt_iff] at h
    exact ⟨nests_of_depth calls item h.1, nestsItems_of_depth calls items h.2⟩
theorem nestsFields_of_depth (calls : ℕ) (fields : Fields) (h : Json.depthFields fields < calls) :
    NestsFields visit calls fields := by
  match fields with
  | [] => trivial
  | (key, item) :: fields =>
    rw [Json.depthFields, max_lt_iff] at h
    refine ⟨?_, nestsFields_of_depth calls fields h.2⟩
    cases visit key (fields.map (·.1)) with
    | skip => trivial
    | text => exact Nat.zero_lt_of_lt h.1
    | item => exact nests_of_depth calls item h.1
end

/-- A value that is not nested too deep fits on the stack. -/
theorem fits_of_depth {stack : Stack} (hredact : value.depth < stack.redactCalls)
    (hcontains : value.depth < stack.containsCalls) : Fits lower secrets stack value :=
  ⟨nests_of_depth _ _ hredact, nests_of_depth _ _ hredact, .inr (nests_of_depth _ _ hcontains)⟩

/-- A redacted value can be searched when the calls fit. -/
theorem inspected_iff (h : Apart (normalizedSensitiveValues secrets)) :
    contains (normalizedSensitiveValues secrets) true calls
        (redaction lower (secretOptions secrets) value) = some false ↔
      (normalizedSensitiveValues secrets = [] ∧ 0 < calls) ∨
        Nests (afterwards lower secrets containsVisit) calls value := by
  have hnests : Nests containsVisit calls (redaction lower (secretOptions secrets) value) ↔
      Nests (afterwards lower secrets containsVisit) calls value :=
    nests_redaction (fun _ _ => rfl) calls value
  by_cases hvalues : normalizedSensitiveValues secrets = []
  · have hpos : contains (normalizedSensitiveValues secrets) true calls
        (redaction lower (secretOptions secrets) value) = some false ↔ 0 < calls := by
      rw [hvalues]
      exact contains_nil
    rw [hpos]
    exact ⟨fun hcalls => .inl ⟨hvalues, hcalls⟩, fun hfits => hfits.elim And.right Nests.pos⟩
  · rw [contains_eq_false_iff hvalues, hnests]
    constructor
    · exact fun hfound => .inr hfound.1
    · intro hfits
      exact ⟨hfits.resolve_left fun hnil => hvalues hnil.1, clean_redact h value⟩

end Nesting

section Paths
variable {lower : String → String} {secrets : List String} {path : List Place} {value leaf : Json}
  {key : String}

theorem valueAt_append (value : Json) (path path' : List Place) :
    valueAt value (path ++ path') = (valueAt value path).bind fun item => valueAt item path' := by
  induction path generalizing value with
  | nil => rfl
  | cons place path ih =>
    cases value with
    | obj fields =>
      cases place with
      | key k => simp only [List.cons_append, valueAt, ih, Option.bind_assoc]
      | index i => rfl
    | arr items =>
      cases place with
      | key k => rfl
      | index i => simp only [List.cons_append, valueAt, ih, Option.bind_assoc]
    | null | bool | num | str =>
      cases place with
      | key k => rfl
      | index i => rfl

variable (lower) in
/-- A field of a mapping whose redacted keys are distinct is found under its redacted key. -/
theorem get_redact (fields : Fields) (item : Json)
    (hkeys : (fields.map fun f => redactedKey secrets f.1).Nodup) (hitem : fields.get key = some item) :
    Fields.get (Fields.update [] (redactionFields lower (secretOptions secrets) fields))
        (redactedKey secrets key) =
      some (if isSensitiveKey lower [] key then .str redactedValue
        else redaction lower (secretOptions secrets) item) := by
  have hassigned : (redactionFields lower (secretOptions secrets) fields).map (·.1) =
      fields.map fun f => redactedKey secrets f.1 := by
    rw [redactionFields_eq, List.map_map]
    rfl
  rw [Fields.update_of_new (by rwa [List.nil_append, hassigned]), List.nil_append]
  refine Fields.get_of_mem (by rwa [hassigned]) ?_
  rw [redactionFields_eq]
  exact List.mem_map.2 ⟨(key, item), Fields.mem_of_get hitem, rfl⟩

/-- Where no key is sensitive, a value is redacted at its place. -/
theorem valueAt_redact (hdistinct : Distinct secrets value) (hopen : Open lower path)
    (hvalue : valueAt value path = some leaf) :
    valueAt (redaction lower (secretOptions secrets) value)
        (path.map (Place.map (redactedKey secrets))) =
      some (redaction lower (secretOptions secrets) leaf) ∧ Distinct secrets leaf := by
  induction path generalizing value with
  | nil =>
    obtain rfl := Option.some.inj hvalue
    exact ⟨rfl, hdistinct⟩
  | cons place path ih =>
    have hopen' : Open lower path := fun k hk => hopen k (List.mem_cons_of_mem _ hk)
    cases value with
    | obj fields =>
      cases place with
      | key k =>
        rw [valueAt, Option.bind_eq_some_iff] at hvalue
        obtain ⟨item, hitem, hvalue⟩ := hvalue
        rw [Distinct, distinctFields_iff] at hdistinct
        have hget := get_redact lower fields item hdistinct.1 hitem
        rw [if_neg (by rw [hopen k List.mem_cons_self]; exact Bool.false_ne_true)] at hget
        rw [redaction, List.map_cons, Place.map, valueAt, hget, Option.bind_some]
        exact ih (hdistinct.2 _ (Fields.mem_of_get hitem)) hopen' hvalue
      | index i => cases hvalue
    | arr items =>
      cases place with
      | key k => cases hvalue
      | index i =>
        rw [valueAt, Option.bind_eq_some_iff] at hvalue
        obtain ⟨item, hitem, hvalue⟩ := hvalue
        rw [Distinct, distinctItems_iff] at hdistinct
        rw [redaction, redactionItems_eq, List.map_cons, Place.map, valueAt, List.getElem?_map, hitem,
          Option.map_some, Option.bind_some]
        exact ih (hdistinct _ (List.mem_of_getElem? hitem)) hopen' hvalue
    | null | bool | num | str =>
      cases place with
      | key k => cases hvalue
      | index i => cases hvalue

/-- A leaf without a secret is redacted to itself. -/
theorem redact_leaf {stack : Stack} (h : Apart (normalizedSensitiveValues secrets))
    (hleaf : IsLeaf leaf) (hnone : containsSensitiveValue stack leaf secrets = some false) :
    redaction lower (secretOptions secrets) leaf = leaf := by
  cases leaf with
  | str s =>
    rw [redaction, Json.str.injEq]
    refine redactString_same h fun secret hsecret => ?_
    have habsent : (normalizedSensitiveValues secrets).any (fun secret => isIn secret s) = false := by
      rw [containsSensitiveValue] at hnone
      generalize stack.containsCalls = calls at hnone
      cases calls with
      | zero => cases hnone
      | succ calls =>
        rw [contains] at hnone
        exact (containsText_eq_false_iff.1 hnone).2
    simpa using List.any_eq_false.1 habsent secret hsecret
  | arr items =>
    obtain rfl : items = [] := hleaf
    rfl
  | obj fields =>
    obtain rfl : fields = [] := hleaf
    rfl
  | _ => rfl

end Paths

/-- Redaction of a value is complete exactly when the value is steady and the calls fit. -/
theorem redaction_complete_iff (lower : String → String) (secrets : List String)
    (hapart : ApartFromMarker secrets) (stack : Stack) (value : Json) :
    Complete lower secrets stack value ↔
      Steady lower secrets value ∧ Fits lower secrets stack value := by
  have h := apart_normalized hapart
  have hredact : ∀ value redacted, redactSecrets lower secrets stack value = some redacted ↔
      Nests (redactVisit lower) stack.redactCalls value ∧
        redaction lower (secretOptions secrets) value = redacted := fun value redacted =>
    redact_eq_some_iff stack.redactCalls value redacted
  have hagain : Nests (redactVisit lower) stack.redactCalls
        (redaction lower (secretOptions secrets) value) ↔
      Nests (afterwards lower secrets (redactVisit lower)) stack.redactCalls value :=
    nests_redaction (fun _ _ => rfl) stack.redactCalls value
  constructor
  · rintro ⟨redacted, hcomplete⟩
    obtain ⟨hnests, rfl⟩ := (hredact _ _).1 hcomplete.returned
    obtain ⟨hnests', hsame⟩ := (hredact _ _).1 hcomplete.stable
    exact ⟨(redact_redact_iff h value).1 hsame, hnests, hagain.1 hnests',
      (inspected_iff h).1 hcomplete.clean⟩
  · rintro ⟨hsteady, hfits⟩
    have hreturned := (hredact value _).2 ⟨hfits.redacted, rfl⟩
    refine ⟨_, hreturned, (inspected_iff h).2 hfits.inspected,
      (hredact _ _).2 ⟨hagain.2 hfits.again, (redact_redact_iff h value).2 hsteady⟩,
      fun value' halike => ?_, fun hdistinct path key item hopen hkey hvalue => ?_,
      fun hdistinct path leaf hopen hvalue hleaf hnone => ?_⟩
    · rw [← hreturned]
      exact redact_alike rfl _ value value' halike
    · rw [valueAt_append, Option.bind_eq_some_iff] at hvalue
      obtain ⟨owner, howner, hvalue⟩ := hvalue
      obtain ⟨hredacted, hdistinct'⟩ := valueAt_redact hdistinct hopen howner
      rw [List.map_append, valueAt_append, hredacted, Option.bind_some]
      cases owner with
      | obj fields =>
        rw [valueAt, Option.bind_eq_some_iff] at hvalue
        obtain ⟨item', hitem, -⟩ := hvalue
        rw [Distinct] at hdistinct'
        have hget := get_redact lower fields item' hdistinct'.1 hitem
        rw [if_pos hkey] at hget
        rw [redaction, List.map_cons, Place.map, valueAt, hget]
        rfl
      | null | bool | num | str | arr => cases hvalue
    · obtain ⟨hredacted, -⟩ := valueAt_redact hdistinct hopen hvalue
      rw [redact_leaf h hleaf hnone] at hredacted
      exact hredacted

section Samples

/-- `str.lower` on ASCII texts. -/
def asciiLower (s : String) : String := String.ofList (s.toList.map Char.toLower)

def sampleStack : Stack := ⟨900, 450⟩

def sampleValue : Json :=
  .obj [("summary", .str "leaked sk-1, sk-12"), ("Password", .num (.finite 7)),
    ("sk-1", .arr [.obj [("note", .str "sk-1sk-12")], .null])]

theorem sample_complete : Complete asciiLower ["sk-1", "sk-12"] sampleStack sampleValue := by
  refine (redaction_complete_iff asciiLower _ ?_ sampleStack sampleValue).2
    ⟨⟨.inr (.inr ?_), .inr (.inl ?_), .inr (.inr ?_), trivial⟩, fits_of_depth ?_ ?_⟩
  · decide +kernel
  · rw [if_neg (by decide +kernel)]
    trivial
  · decide +kernel
  · rw [if_neg (by decide +kernel)]
    refine ⟨⟨.inr (.inr ?_), trivial⟩, trivial, trivial⟩
    rw [if_neg (by decide +kernel)]
    trivial
  · decide +kernel
  · decide +kernel

/-- A text in so many arrays. -/
def nestedArrays : ℕ → Json
  | 0 => .str ""
  | n + 1 => .arr [nestedArrays n]

theorem nests_nestedArrays (visit : String → List String → Visit) (n calls : ℕ) :
    Nests visit calls (nestedArrays n) ↔ n < calls := by
  induction n generalizing calls with
  | zero => rw [nestedArrays, nests_str]
  | succ n ih =>
    cases calls with
    | zero => simp [Nests]
    | succ calls => simp [nestedArrays, Nests, NestsItems, ih]

/-- A grant whose key has a secret loses its exemption: another redaction removes it. And what is
nested too deep for the search is no answer of it. -/
theorem grant_redacted_again : ApartFromMarker ["ability"] ∧
    ¬Complete asciiLower ["ability"] sampleStack
      (.obj [("ability_authorization", .obj [("approved_by", .str "qa")])]) ∧
    ¬Complete asciiLower ["ability"] sampleStack (nestedArrays 500) := by
  refine ⟨by decide +kernel, ?_, ?_⟩
  · rintro ⟨redacted, h⟩
    have hreturned := h.returned
    rw [show redactSecrets asciiLower ["ability"] sampleStack
        (.obj [("ability_authorization", .obj [("approved_by", .str "qa")])]) =
      some (.obj [("***REDACTED***_authorization", .obj [("approved_by", .str "qa")])]) by
        decide +kernel] at hreturned
    obtain rfl := Option.some.inj hreturned
    exact absurd h.stable (by decide +kernel)
  · rintro ⟨redacted, h⟩
    obtain ⟨-, rfl⟩ := (redact_eq_some_iff _ _ _).1 h.returned
    have hclean := h.clean
    rw [containsSensitiveValue, inspected_iff (apart_normalized (by decide +kernel)),
      nests_nestedArrays] at hclean
    exact absurd hclean (by decide +kernel)

example : redactSecrets asciiLower ["sk-1", "sk-12"] sampleStack sampleValue =
    some (.obj [("summary", .str "leaked ***REDACTED***, ***REDACTED***"),
      ("Password", .str "***REDACTED***"),
      ("***REDACTED***", .arr [.obj [("note", .str "***REDACTED******REDACTED***")], .null])]) := by
  decide +kernel

end Samples

end Ajenda.Redaction
