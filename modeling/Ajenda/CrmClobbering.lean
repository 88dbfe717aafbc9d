import Ajenda.ColonTexts
import Ajenda.CrmIdentity

/-!
# Whether a write clobbers another record

Ids are made up from the number of live rows, from random digits or from a text of an edge; the
property fails where such an id is already stored, and where a lookup by the normal form of a field
misses a record or has a choice.
-/
namespace Ajenda.Crm
open Ajenda.Runtime (strip)
open TransitionSystem

section Property
variable (T : Texts) (digest : String → String) (tenantId : String)

/-- The data are of an edge with these endpoints and this type. -/
def Edge.Of (e : Edge) (data : Data) : Prop :=
  data.get "from_type" = some (.str e.fromType) ∧ data.get "from_id" = some (.str e.fromId) ∧
    data.get "relationship_type" = some (.str e.relationshipType) ∧
    data.get "to_type" = some (.str e.toType) ∧ data.get "to_id" = some (.str e.toId)

/-- A link replaces at most the same edge; another write without a chosen id adds a record and
leaves the earlier ones as they were. -/
def Written.KeepsEarlier (w : Written) : Prop :=
  match w.writer with
  | .linkRecords e => ∀ row ∈ w.before, row ∈ w.after ∨ (row.key = w.key ∧ e.Of row.data)
  | _ => w.chosen = false → ∃ row, row.key = w.key ∧ w.after = w.before ++ [row]

/-- A field that identifies the records of a type. -/
structure Identity where
  recordType : String
  field : String
  normal : Value → Option String

def contactIdentity : Identity := ⟨"contact", "email", normalizeEmail T⟩

def accountIdentity : Identity := ⟨"account", "domain", normalizeDomain T⟩

def identities : List Identity := [contactIdentity T, accountIdentity T]

/-- The normal form of the field. -/
def Identity.of (I : Identity) (data : Data) : Option String := I.normal (data.read I.field)

variable (b : Books)

/-- The live rows that `identity_upsert` wrote last. -/
def Books.upserted (recordType : String) : List TenantInternalRecord :=
  (b.records.live tenantId recordType).filter fun row =>
    b.writer recordType row.recordId = some .identityUpsert

def Identity.Unique (I : Identity) : Prop :=
  ∀ row ∈ b.upserted tenantId I.recordType, ∀ other ∈ b.upserted tenantId I.recordType,
    ∀ v, I.of row.data = some v → I.of other.data = some v → row.recordId = other.recordId

/-- CRM writes never clobber another record. -/
structure Books.NeverClobbers : Prop where
  keepsEarlier : ∀ w ∈ b.written, w.KeepsEarlier
  contacts : (contactIdentity T).Unique tenantId b
  accounts : (accountIdentity T).Unique tenantId b

end Property

section Conditions
variable (T : Texts) (digest : String → String) (tenantId : String) (b : Books) (d : Draws)

/-- No record is stored under the id, not even a deleted one. -/
def Books.Free (recordType id : String) : Prop :=
  ∀ row ∈ b.records.rows, row.key ≠ (tenantId, recordType, id)

/-- A made-up id is free. -/
def Books.FreshCount (recordType : String) (recordId : Option String) : Prop :=
  given recordId = false →
    b.Free tenantId recordType (countedId b.records tenantId recordType)

/-- A lookup by the normal form of the field finds the field. -/
def Identity.Findable (I : Identity) (data : Data) : Prop :=
  ∀ v, I.of data = some v → T.lower (strip v) ≠ "" ∧
    ((data.get I.field).bind (Value.astext T)).map T.lowerTrim = some (T.lower (strip v))

/-- At most one live row is found by the normal form of the field. -/
def Identity.Unambiguous (I : Identity) (data : Data) : Prop :=
  ∀ v, I.of data = some v →
    ∀ row ∈ foundBy T b.records tenantId I.recordType I.field v,
      ∀ other ∈ foundBy T b.records tenantId I.recordType I.field v, row = other

/-- The condition on an account. -/
def AccountSafe (data : Data) : Prop :=
  ∀ record, enrichAccountData T data = .ok record →
    (accountIdentity T).Findable T record ∧ (accountIdentity T).Unambiguous T tenantId b record ∧
      ∀ recordId, accountRecordId T d tenantId b.records record = .ok recordId →
        b.FreshCount tenantId "account" recordId

/-- The condition on a contact, and on the account that is made for it. -/
def ContactSafe (data : Data) : Prop :=
  ∀ record, enrichContactData T data = .ok record →
    (contactIdentity T).Findable T record ∧ (contactIdentity T).Unambiguous T tenantId b record ∧
      (∀ recordId, contactRecordId T d tenantId b.records record = .ok recordId →
        b.FreshCount tenantId "contact" recordId) ∧
      ((record.read "account_id").truthy = false → companyOf T record ≠ "" →
        companyAccountId T d tenantId b.records record = .ok none →
          AccountSafe T tenantId b d (companyData T record))

/-- The condition on an activity. -/
def ActivitySafe (id : Option String) : Prop :=
  given id = false → b.Free tenantId "activity" (activityId d id)

/-- The condition on an opportunity, and on the activity of a changed stage. -/
def OpportunitySafe (data : Data) : Prop :=
  ∀ record, enrichOpportunityData T data = .ok record →
    ∀ recordId, opportunityRecordId T tenantId b.records record = .ok recordId →
      b.FreshCount tenantId "opportunity" recordId ∧
        ∀ previous, previousOpportunity tenantId b.records recordId = .ok previous →
          stageChange T previous record ≠ none → ActivitySafe tenantId b d none

/-- What is stored under the id of an edge is an edge under the id of its own texts. No other text
has the digest of this one, and no other edge joins to this text. -/
def EdgeSafe (e : Edge) : Prop :=
  ∀ row ∈ b.records.rows, row.key = (tenantId, "relationship", e.id digest) →
    ∃ e' : Edge, e'.Of row.data ∧ row.recordId = e'.id digest ∧
      (digest e'.text = digest e.text → e'.text = e.text) ∧ (e'.text = e.text → e' = e)

/-- The condition on a call. -/
def Safe (b : Books) (l : Label) : Prop :=
  match l.call with
  | .identityUpsert recordType data =>
    if canonicalType T recordType = "contact" then ContactSafe T tenantId b l.draws data
    else if canonicalType T recordType = "account" then AccountSafe T tenantId b l.draws data
    else if canonicalType T recordType = "opportunity" then OpportunitySafe T tenantId b l.draws data
    else b.FreshCount tenantId (canonicalType T recordType) (suppliedId data)
  | .logActivity _ id => ActivitySafe tenantId b l.draws id
  | .linkRecords fromType fromId relationshipType toType toId _ =>
    EdgeSafe digest tenantId b ⟨T.lower (strip fromType), fromId,
      underscored (T.lower (strip relationshipType)), T.lower (strip toType), toId⟩
  | .writeRecord recordType recordId _ => b.FreshCount tenantId recordType recordId
  | .softDelete _ _ => True

end Conditions

section Edges
variable {digest : String → String} {tenantId : String} {b : Books} {e e' : Edge}

theorem Edge.id_inj (h : e.id digest = e'.id digest) : digest e.text = digest e'.text := by
  have hlist := congrArg String.toList h
  simp only [Edge.id, String.toList_append] at hlist
  exact String.toList_inj.1 (List.append_cancel_left hlist)

/-- What is stored under the id of a safe edge has its texts. -/
theorem EdgeSafe.stored (h : EdgeSafe digest tenantId b e) :
    ∀ row ∈ b.records.rows, row.key = (tenantId, "relationship", e.id digest) →
      e.Of row.data := by
  intro row hrow hkey
  obtain ⟨e', hof, hid, hdigest, htext⟩ := h row hrow hkey
  have hid' : row.recordId = e.id digest := congrArg (fun k => k.2.2) hkey
  rwa [htext (hdigest (Edge.id_inj (hid.symm.trans hid')))] at hof

/-- No text of the edge but the id of its target has a colon. -/
def Edge.ColonFree (e : Edge) : Prop :=
  ':' ∉ e.fromType.toList ∧ ':' ∉ e.fromId.toList ∧ ':' ∉ e.relationshipType.toList ∧
    ':' ∉ e.toType.toList

theorem Edge.ColonFree.text_inj (he : e.ColonFree) (he' : e'.ColonFree) (h : e.text = e'.text) :
    e = e' := by
  have hlist (x : Edge) : x.text.toList = x.fromType.toList ++ ':' :: (x.fromId.toList ++
      ':' :: (x.relationshipType.toList ++ ':' :: (x.toType.toList ++ ':' :: x.toId.toList))) := by
    simp only [Edge.text, String.toList_append, List.append_assoc]
    rfl
  have hall := congrArg String.toList h
  rw [hlist, hlist] at hall
  obtain ⟨hfromType, hall⟩ := ColonTexts.colon_inj he.1 he'.1 hall
  obtain ⟨hfromId, hall⟩ := ColonTexts.colon_inj he.2.1 he'.2.1 hall
  obtain ⟨hrelationship, hall⟩ := ColonTexts.colon_inj he.2.2.1 he'.2.2.1 hall
  obtain ⟨htoType, htoId⟩ := ColonTexts.colon_inj he.2.2.2 he'.2.2.2 hall
  cases e
  cases e'
  simp_all only [String.toList_inj]

/-- Edges without colons are safe among one another where digests do not collide. -/
theorem edgeSafe_of_colonFree (hdigest : Function.Injective digest) (he : e.ColonFree)
    (hstored : ∀ row ∈ b.records.rows, row.key = (tenantId, "relationship", row.recordId) →
      ∃ e' : Edge, e'.ColonFree ∧ e'.Of row.data ∧ row.recordId = e'.id digest) :
    EdgeSafe digest tenantId b e := by
  intro row hrow hkey
  have hid : row.recordId = e.id digest := congrArg (fun k => k.2.2) hkey
  obtain ⟨e', he', hof, hid'⟩ := hstored row hrow (by rw [hid, hkey])
  exact ⟨e', hof, hid', fun heq => hdigest heq, he'.text_inj he⟩

end Edges

section Saves
variable {T : Texts} {digest : String → String} {d : Draws} {tenantId : String} {b b' : Books}
  {writer : Writer} {chosen : Bool} {recordType : String} {recordId : Option String}
  {data saved : Data} {I : Identity}

theorem save_eq_ok (h : b.save T d tenantId writer chosen recordType recordId data =
      .ok (saved, b')) :
    recordType ∈ supportedRecordTypes ∧
      saved = storedData data (finalId b.records tenantId recordType recordId) ∧
      b'.records.rows = putRow b.records.rows (writtenRow T d tenantId recordType
        (finalId b.records tenantId recordType recordId) data) ∧
      (∀ type i, b'.writer type i =
        if type = recordType ∧ i = finalId b.records tenantId recordType recordId then some writer
        else b.writer type i) ∧
      b'.written = b.written ++ [⟨writer,
        (tenantId, recordType, finalId b.records tenantId recordType recordId), chosen,
        b.records.rows, b'.records.rows⟩] := by
  unfold Books.save writeRecord validateRecordType at h
  split_ifs at h with htype
  · cases h
    exact ⟨htype, rfl, rfl, fun _ _ => rfl, rfl⟩
  · cases h

theorem identity_field (hI : I ∈ identities T) : I.field ≠ "id" ∧ I.field ≠ "account_id" := by
  simp only [identities, List.mem_cons, List.not_mem_nil, or_false] at hI
  rcases hI with rfl | rfl
  · exact (by decide : "email" ≠ "id" ∧ "email" ≠ "account_id")
  · exact (by decide : "domain" ≠ "id" ∧ "domain" ≠ "account_id")

/-- The two identities are of different types. -/
theorem identity_eq {J : Identity} (hJ : J ∈ identities T) (hI : I ∈ identities T)
    (h : J.recordType = I.recordType) : J = I := by
  simp only [identities, List.mem_cons, List.not_mem_nil, or_false] at hI hJ
  rcases hI with rfl | rfl <;> rcases hJ with rfl | rfl
  · rfl
  · exact absurd h (by decide : "account" ≠ "contact")
  · exact absurd h (by decide : "contact" ≠ "account")
  · rfl

theorem Identity.of_set (v : Value) {key : String} (h : I.field ≠ key) :
    I.of (data.set key v) = I.of data := by
  rw [Identity.of, Identity.of, Data.read, Data.read, Data.get_set_of_ne data v h]

theorem Identity.Findable.set (hfind : I.Findable T data) (v : Value) {key : String}
    (h : I.field ≠ key) : I.Findable T (data.set key v) := by
  intro w hw
  rw [I.of_set v h] at hw
  rw [Data.get_set_of_ne data v h]
  exact hfind w hw

/-- The records keep what the property says, and lookups find what was upserted. -/
structure Books.Kept (T : Texts) (tenantId : String) (b : Books) : Prop where
  keepsEarlier : ∀ w ∈ b.written, w.KeepsEarlier
  unique : ∀ I ∈ identities T, I.Unique tenantId b
  findable : ∀ I ∈ identities T, ∀ row ∈ b.upserted tenantId I.recordType, I.Findable T row.data

theorem Books.Kept.neverClobbers (h : b.Kept T tenantId) : b.NeverClobbers T tenantId where
  keepsEarlier := h.keepsEarlier
  contacts := h.unique _ (by simp [identities])
  accounts := h.unique _ (by simp [identities])

/-- What a write needs so that nothing is clobbered. -/
structure Books.SaveSafe (T : Texts) (tenantId : String) (b : Books) (writer : Writer)
    (chosen : Bool) (recordType id : String) (data : Data) : Prop where
  free : (∀ e, writer ≠ .linkRecords e) → chosen = false → b.Free tenantId recordType id
  edge : ∀ e, writer = .linkRecords e →
    ∀ row ∈ b.records.rows, row.key = (tenantId, recordType, id) → e.Of row.data
  findable : writer = .identityUpsert → ∀ I ∈ identities T, I.recordType = recordType →
    I.Findable T data
  matched : writer = .identityUpsert → ∀ I ∈ identities T, I.recordType = recordType →
    ∀ v, I.of data = some v → ∀ row ∈ b.upserted tenantId recordType, I.of row.data = some v →
      row.recordId = id

/-- An upserted row after a write was upserted before it or is the one written. -/
theorem mem_upserted_save (hsave : b.save T d tenantId writer chosen recordType recordId data =
      .ok (saved, b')) {type : String} {row : TenantInternalRecord}
    (hrow : row ∈ b'.upserted tenantId type) :
    row ∈ b.upserted tenantId type ∨
      (type = recordType ∧ writer = .identityUpsert ∧
        row.recordId = finalId b.records tenantId recordType recordId ∧
        row.data = storedData data (finalId b.records tenantId recordType recordId)) := by
  obtain ⟨-, -, hrows, hwriter, -⟩ := save_eq_ok hsave
  simp only [Books.upserted, Store.live, List.mem_filter, Bool.and_eq_true, Bool.not_eq_true',
    decide_eq_true_eq, hrows, hwriter] at hrow ⊢
  obtain ⟨⟨hmem, ⟨htenant, htype⟩, hlive⟩, hupsert⟩ := hrow
  rcases mem_putRow hmem with ⟨hold, hkey⟩ | ⟨id, rfl⟩
  · left
    rw [if_neg fun heq => hkey ?_] at hupsert
    · exact ⟨⟨hold, ⟨htenant, htype⟩, hlive⟩, hupsert⟩
    · simp only [TenantInternalRecord.key, writtenRow, htenant, htype, heq.1, heq.2]
  · right
    have htype' : recordType = type := htype
    rw [if_pos ⟨htype'.symm, rfl⟩] at hupsert
    exact ⟨htype'.symm, Option.some.inj hupsert, rfl, rfl⟩

theorem Books.Kept.save (h : b.Kept T tenantId)
    (hsafe : b.SaveSafe T tenantId writer chosen recordType
      (finalId b.records tenantId recordType recordId) data)
    (hsave : b.save T d tenantId writer chosen recordType recordId data = .ok (saved, b')) :
    b'.Kept T tenantId := by
  obtain ⟨-, -, hrows, hwriter, hwritten⟩ := save_eq_ok hsave
  set id := finalId b.records tenantId recordType recordId with hid
  have hstored (I : Identity) (hI : I ∈ identities T) : I.of (storedData data id) = I.of data :=
    I.of_set _ (identity_field hI).1
  refine ⟨fun w hw => ?_, fun I hI row hrow other hother v hv hv' => ?_, fun I hI row hrow => ?_⟩
  · rw [hwritten] at hw
    rcases List.mem_append.1 hw with hw | hw
    · exact h.keepsEarlier w hw
    · obtain rfl := List.mem_singleton.1 hw
      unfold Written.KeepsEarlier
      split
      next e he =>
        intro row hrow
        by_cases hkey : row.key = (tenantId, recordType, id)
        · exact .inr ⟨hkey, hsafe.edge e he row hrow hkey⟩
        · left
          rw [hrows]
          exact mem_putRow_of_ne hrow hkey
      next hlink =>
        intro hchosen
        exact ⟨writtenRow T d tenantId recordType id data, rfl,
          hrows.trans (putRow_of_new (hsafe.free hlink hchosen))⟩
  · rcases mem_upserted_save hsave hrow with hold | ⟨htype, hup, hrowid, hdata⟩ <;>
      rcases mem_upserted_save hsave hother with hold' | ⟨htype', hup', hrowid', hdata'⟩
    · exact h.unique I hI row hold other hold' v hv hv'
    · rw [hdata', hstored I hI] at hv'
      rw [hrowid']
      exact hsafe.matched hup' I hI htype' v hv' row (htype' ▸ hold) hv
    · rw [hdata, hstored I hI] at hv
      rw [hrowid]
      exact (hsafe.matched hup I hI htype v hv other (htype ▸ hold') hv').symm
    · rw [hrowid, hrowid']
  · rcases mem_upserted_save hsave hrow with hold | ⟨htype, hup, -, hdata⟩
    · exact h.findable I hI row hold
    · rw [hdata]
      exact (hsafe.findable hup I hI htype).set _ (identity_field hI).1

end Saves

section Frames
variable {T : Texts} {digest : String → String} {d : Draws} {tenantId : String} {b b' : Books}
  {writer : Writer} {chosen : Bool} {recordType type : String} {recordId : Option String}
  {data saved : Data}

/-- What is stored of a type is as it was before. -/
structure Books.SameType (tenantId type : String) (b b' : Books) : Prop where
  rows : ∀ row ∈ b'.records.rows, row.tenantId = tenantId → row.recordType = type →
    row ∈ b.records.rows
  live : b'.records.live tenantId type = b.records.live tenantId type
  writer : ∀ i, b'.writer type i = b.writer type i

theorem Books.SameType.refl (tenantId type : String) (b : Books) : b.SameType tenantId type b :=
  ⟨fun _ hrow _ _ => hrow, rfl, fun _ => rfl⟩

theorem save_sameType (hsave : b.save T d tenantId writer chosen recordType recordId data =
      .ok (saved, b')) (hne : type ≠ recordType) : b.SameType tenantId type b' := by
  obtain ⟨-, -, hrows, hwriter, -⟩ := save_eq_ok hsave
  refine ⟨fun row hrow _ htype => ?_, ?_, fun i => ?_⟩
  · rw [hrows] at hrow
    rcases mem_putRow hrow with ⟨hold, -⟩ | ⟨id, rfl⟩
    · exact hold
    · exact absurd htype.symm hne
  · unfold Store.live
    rw [hrows]
    refine filter_putRow fun row hkey => ?_
    have htype : row.recordType = recordType := congrArg (fun k => k.2.1) hkey
    simp [htype, Ne.symm hne]
  · rw [hwriter, if_neg fun heq => hne heq.1]

namespace Books.SameType

theorem finalId (h : b.SameType tenantId type b') (recordId : Option String) :
    finalId b'.records tenantId type recordId = finalId b.records tenantId type recordId := by
  unfold Crm.finalId countedId
  rw [h.live]

theorem free (h : b.SameType tenantId type b') {id : String} (hfree : b.Free tenantId type id) :
    b'.Free tenantId type id := by
  intro row hrow hkey
  have htenant : row.tenantId = tenantId := congrArg Prod.fst hkey
  have htype : row.recordType = type := congrArg (fun k => k.2.1) hkey
  exact hfree row (h.rows row hrow htenant htype) hkey

theorem saveSafe (h : b.SameType tenantId type b') {id : String}
    (hsafe : b.SaveSafe T tenantId writer chosen type id data) :
    b'.SaveSafe T tenantId writer chosen type id data where
  free hlink hchosen := h.free (hsafe.free hlink hchosen)
  edge e he := by
    intro row hrow hkey
    have htenant : row.tenantId = tenantId := congrArg Prod.fst hkey
    have htype : row.recordType = type := congrArg (fun k => k.2.1) hkey
    exact hsafe.edge e he row (h.rows row hrow htenant htype) hkey
  findable := hsafe.findable
  matched hup I hI htype v hv row hrow := by
    refine hsafe.matched hup I hI htype v hv row ?_
    unfold Books.upserted at hrow ⊢
    rw [h.live] at hrow
    simpa only [h.writer] using hrow

end Books.SameType

end Frames

section Calls
variable {T : Texts} {digest : String → String} {d : Draws} {tenantId : String} {b b' : Books}
  {recordType : String} {recordId : Option String} {data record saved : Data} {I : Identity}

theorem finalId_of_not_given (h : given recordId = false) :
    finalId b.records tenantId recordType recordId = countedId b.records tenantId recordType :=
  if_neg (by simpa [given] using h)

theorem finalId_of_given {id : String} (h : id ≠ "") :
    finalId b.records tenantId recordType (some id) = id := if_pos h

theorem freshCount_free (h : b.FreshCount tenantId recordType recordId)
    (hgiven : given recordId = false) :
    b.Free tenantId recordType (finalId b.records tenantId recordType recordId) := by
  rw [finalId_of_not_given hgiven]
  exact h hgiven

/-- An upserted row with the normal form is what the lookup finds. -/
theorem matchedId_of_upserted (h : b.Kept T tenantId) (hI : I ∈ identities T)
    (hone : I.Unambiguous T tenantId b record) {v : String} (hv : I.of record = some v)
    {row : TenantInternalRecord} (hrow : row ∈ b.upserted tenantId I.recordType)
    (hrv : I.of row.data = some v) {found : Option String}
    (hmatch : matchedId T d tenantId b.records I.recordType I.field (I.of record) = .ok found) :
    found = some row.recordId := by
  obtain ⟨hne, hfound⟩ := h.findable I hI row hrow v hrv
  have hlive := (List.mem_filter.1 hrow).1
  have hmem : row ∈ foundBy T b.records tenantId I.recordType I.field v :=
    List.mem_filter.2 ⟨hlive, by simpa using hfound⟩
  have hrows : row ∈ b.records.rows := (List.mem_filter.1 hlive).1
  have hany : d.anyRow (foundBy T b.records tenantId I.recordType I.field v) = some row := by
    cases heq : d.anyRow (foundBy T b.records tenantId I.recordType I.field v) with
    | none =>
      rw [d.anyRow_none _ heq] at hmem
      cases hmem
    | some p => rw [hone v hv p (d.anyRow_mem _ p heq) row hmem]
  rw [hv] at hmatch
  simp only [matchedId, findRecordIdByField, Fallible.bind_eq_ok, if_neg hne] at hmatch
  obtain ⟨_, ⟨_, _, hid⟩, hpure⟩ := hmatch
  rw [hany] at hid
  cases hid
  cases hpure
  exact Option.filter_eq_some_iff.2 ⟨rfl, by simpa using b.records.named row hrows⟩

/-- A write of a record of an identity, where the id that the lookup finds is taken. -/
theorem upsert_saveSafe (h : b.Kept T tenantId) (hI : I ∈ identities T)
    (hfindable : I.Findable T record) (hone : I.Unambiguous T tenantId b record)
    (hfresh : b.FreshCount tenantId I.recordType recordId) {found : Option String}
    (hmatch : matchedId T d tenantId b.records I.recordType I.field (I.of record) = .ok found)
    (htake : ∀ id, found = some id → recordId = some id) :
    b.SaveSafe T tenantId .identityUpsert (given recordId) I.recordType
      (finalId b.records tenantId I.recordType recordId) record where
  free _ hgiven := freshCount_free hfresh hgiven
  edge _ he := nomatch he
  findable _ J hJ htype := by
    rwa [identity_eq hJ hI htype]
  matched _ J hJ htype v hv row hrow hrv := by
    obtain rfl := identity_eq hJ hI htype
    have hid := htake _ (matchedId_of_upserted h hI hone hv hrow hrv hmatch)
    have hrows : row ∈ b.records.rows := (List.mem_filter.1 (List.mem_filter.1 hrow).1).1
    rw [hid, finalId_of_given (b.records.named row hrows)]

theorem accountRecordId_ok (h : accountRecordId T d tenantId b.records record = .ok recordId) :
    ∃ found, matchedId T d tenantId b.records "account" "domain"
        (normalizeDomain T (record.read "domain")) = .ok found ∧
      ∀ id, found = some id → recordId = some id := by
  simp only [accountRecordId, Fallible.bind_eq_ok] at h
  obtain ⟨found, hfound, h⟩ := h
  refine ⟨found, hfound, fun id hid => ?_⟩
  rw [hid] at h
  exact (Except.ok.inj h).symm

theorem contactRecordId_ok (h : contactRecordId T d tenantId b.records record = .ok recordId) :
    ∃ found, matchedId T d tenantId b.records "contact" "email"
        (normalizeEmail T (record.read "email")) = .ok found ∧
      ∀ id, found = some id → recordId = some id := by
  simp only [contactRecordId, Fallible.bind_eq_ok] at h
  obtain ⟨found, hfound, h⟩ := h
  refine ⟨found, hfound, fun id hid => ?_⟩
  rw [hid] at h
  exact (Except.ok.inj h).symm

theorem Books.Kept.upsertAccount (h : b.Kept T tenantId)
    (hsafe : AccountSafe T tenantId b d data)
    (hrun : upsertAccount T d tenantId b data = .ok (saved, b')) :
    b'.Kept T tenantId ∧ ∀ type, type ≠ "account" → b.SameType tenantId type b' := by
  simp only [Crm.upsertAccount, Fallible.bind_eq_ok] at hrun
  obtain ⟨record, hrecord, recordId, hid, hsave⟩ := hrun
  obtain ⟨hfindable, hone, hfresh⟩ := hsafe record hrecord
  obtain ⟨found, hmatch, htake⟩ := accountRecordId_ok hid
  have hI : accountIdentity T ∈ identities T := by simp [identities]
  exact ⟨h.save (upsert_saveSafe h hI hfindable hone (hfresh recordId hid) hmatch htake) hsave,
    fun type hne => save_sameType hsave hne⟩

/-- Finding or making the account of a contact touches accounts only. -/
theorem Books.Kept.contactAccount (h : b.Kept T tenantId) {account : Option Data}
    (hsafe : (record.read "account_id").truthy = false → companyOf T record ≠ "" →
      companyAccountId T d tenantId b.records record = .ok none →
        AccountSafe T tenantId b d (companyData T record))
    (hrun : contactAccount T d tenantId b record = .ok (account, b')) :
    b'.Kept T tenantId ∧ ∀ type, type ≠ "account" → b.SameType tenantId type b' := by
  have hsame : b.Kept T tenantId ∧
      ∀ type, type ≠ "account" → b.SameType tenantId type b :=
    ⟨h, fun type _ => .refl tenantId type b⟩
  unfold Crm.contactAccount at hrun
  split_ifs at hrun with hnamed
  · cases hrun
    exact hsame
  · simp only [resolveAccountForContact, Fallible.bind_eq_ok] at hrun
    obtain ⟨found, hfound, hrun⟩ := hrun
    cases found with
    | some id =>
      simp only [Fallible.bind_eq_ok] at hrun
      obtain ⟨_, _, hpure⟩ := hrun
      cases hpure
      exact hsame
    | none =>
      simp only at hrun
      split_ifs at hrun with hcompany
      · cases hrun
        exact hsame
      · simp only [Fallible.bind_eq_ok] at hrun
        obtain ⟨⟨made, b₁⟩, hmade, hpure⟩ := hrun
        cases hpure
        exact h.upsertAccount (hsafe (by simpa using hnamed) hcompany hfound) hmade

theorem Books.Kept.upsertContact (h : b.Kept T tenantId)
    (hsafe : ContactSafe T tenantId b d data)
    (hrun : upsertContact T d tenantId b data = .ok (saved, b')) : b'.Kept T tenantId := by
  simp only [Crm.upsertContact, Fallible.bind_eq_ok] at hrun
  obtain ⟨record, hrecord, recordId, hid, ⟨account, b₁⟩, haccount, hsave⟩ := hrun
  obtain ⟨hfindable, hone, hfresh, hmade⟩ := hsafe record hrecord
  obtain ⟨found, hmatch, htake⟩ := contactRecordId_ok hid
  have hI : contactIdentity T ∈ identities T := by simp [identities]
  obtain ⟨hkept, hframe⟩ := h.contactAccount hmade haccount
  have hsame : b.SameType tenantId "contact" b₁ := hframe "contact" (by decide)
  -- the account is put into a field of the contact that does not identify it
  have hof : (contactIdentity T).of (withAccount record account) = (contactIdentity T).of record := by
    cases account with
    | none => rfl
    | some account => exact Identity.of_set _ (identity_field hI).2
  have hfindable' : (contactIdentity T).Findable T (withAccount record account) := by
    cases account with
    | none => exact hfindable
    | some account => exact hfindable.set _ (identity_field hI).2
  have hone' : (contactIdentity T).Unambiguous T tenantId b (withAccount record account) := by
    intro v hv
    exact hone v (hof ▸ hv)
  have hmatch' : matchedId T d tenantId b.records "contact" "email"
      ((contactIdentity T).of (withAccount record account)) = .ok found := by
    rw [hof]
    exact hmatch
  refine hkept.save ?_ hsave
  rw [hsame.finalId]
  exact hsame.saveSafe (upsert_saveSafe h hI hfindable' hone' (hfresh recordId hid) hmatch' htake)

/-- A write of a record without identity. -/
theorem plain_saveSafe (writer : Writer) {chosen : Bool} {id : String}
    (hplain : writer = .identityUpsert → ∀ I ∈ identities T, I.recordType ≠ recordType)
    (hlink : ∀ e, writer ≠ .linkRecords e)
    (hfree : chosen = false → b.Free tenantId recordType id) :
    b.SaveSafe T tenantId writer chosen recordType id data where
  free _ := hfree
  edge e he := absurd he (hlink e)
  findable hup I hI htype := absurd htype (hplain hup I hI)
  matched hup I hI htype := absurd htype (hplain hup I hI)

theorem activityId_ne (id : Option String) : activityId d id ≠ "" := by
  unfold activityId
  split_ifs with h
  · simpa [given] using h
  · intro heq
    have hlength := congrArg String.length heq
    simp at hlength
    exact absurd hlength.1 (by decide)

theorem Books.Kept.logActivity (h : b.Kept T tenantId) {payload : Data}
    {id : Option String} (hsafe : ActivitySafe tenantId b d id)
    (hrun : logActivity T d tenantId b payload id = .ok (saved, b')) :
    b'.Kept T tenantId := by
  have hsave : b.SaveSafe T tenantId .logActivity (given id) "activity"
      (finalId b.records tenantId "activity" (some (activityId d id)))
      (payload.set "id" (.str (activityId d id))) := by
    rw [finalId_of_given (activityId_ne id)]
    exact plain_saveSafe _ nofun nofun hsafe
  exact h.save hsave hrun

theorem Books.Kept.linkRecords (h : b.Kept T tenantId)
    {fromType fromId relationshipType toType toId source : String}
    (hsafe : EdgeSafe digest tenantId b ⟨T.lower (strip fromType), fromId,
      underscored (T.lower (strip relationshipType)), T.lower (strip toType), toId⟩)
    (hrun : linkRecords T digest d tenantId b fromType fromId relationshipType toType toId source =
      .ok (saved, b')) : b'.Kept T tenantId := by
  unfold Crm.linkRecords at hrun
  extract_lets e at hrun
  split_ifs at hrun
  simp only [Fallible.bind_eq_ok] at hrun
  obtain ⟨first, _, hrun⟩ := hrun
  split_ifs at hrun
  simp only [Fallible.bind_eq_ok] at hrun
  obtain ⟨second, _, hsave⟩ := hrun
  split_ifs at hsave
  have hne : e.id digest ≠ "" := by
    intro heq
    have hlength := congrArg String.length heq
    simp [Edge.id] at hlength
    exact absurd hlength.1 (by decide)
  refine h.save ⟨fun hlink => absurd rfl (hlink e), fun e' he => ?_, nofun, nofun⟩ hsave
  obtain rfl : e = e' := by simpa using he
  rw [finalId_of_given hne]
  exact hsafe.stored

theorem enrich_types {type : String} (h : type ≠ "contact" ∧ type ≠ "account") :
    ∀ I ∈ identities T, I.recordType ≠ type := by
  intro I hI
  simp only [identities, List.mem_cons, List.not_mem_nil, or_false] at hI
  rcases hI with rfl | rfl
  · exact Ne.symm h.1
  · exact Ne.symm h.2

theorem Books.Kept.upsertOpportunity (h : b.Kept T tenantId)
    (hsafe : OpportunitySafe T tenantId b d data)
    (hrun : upsertOpportunity T d tenantId b data = .ok (saved, b')) :
    b'.Kept T tenantId := by
  simp only [Crm.upsertOpportunity, Fallible.bind_eq_ok] at hrun
  obtain ⟨record, hrecord, recordId, hid, previous, hprevious, ⟨stored, b₁⟩, hsave, hrun⟩ := hrun
  obtain ⟨hfresh, hmoved⟩ := hsafe record hrecord recordId hid
  have hkept : b₁.Kept T tenantId := by
    refine h.save (plain_saveSafe .identityUpsert (fun _ => ?_) nofun (freshCount_free hfresh)) hsave
    exact enrich_types (by decide)
  -- the id that is written into the record is not its stage
  have hstage : stageChange T previous stored = stageChange T previous record := by
    obtain ⟨-, hstored, -⟩ := save_eq_ok hsave
    have hread : stored.read "stage" = record.read "stage" := by
      rw [hstored, storedData, Data.read, Data.read,
        Data.get_set_of_ne record _ (by decide : "stage" ≠ "id")]
    unfold stageChange
    rw [hread]
  rw [hstage] at hrun
  cases hchange : stageChange T previous record with
  | none =>
    rw [hchange] at hrun
    cases hrun
    exact hkept
  | some stages =>
    rw [hchange] at hrun
    simp only [Fallible.bind_eq_ok] at hrun
    obtain ⟨⟨_, b₂⟩, hactivity, hpure⟩ := hrun
    cases hpure
    have hsame : b.SameType tenantId "activity" b₁ := save_sameType hsave (by decide)
    have hactivitySafe : ActivitySafe tenantId b₁ d none := by
      intro hgiven
      exact hsame.free (hmoved previous hprevious (by rw [hchange]; exact nofun) hgiven)
    exact hkept.logActivity hactivitySafe hactivity

theorem Books.Kept.softDelete (h : b.Kept T tenantId) (key : String × String × String) :
    ({ b with records := b.records.softDelete key } : Books).Kept T tenantId := by
  have hrows : ∀ row ∈ (b.records.softDelete key).rows,
      row ∈ b.records.rows ∨ ∃ q ∈ b.records.rows, row = { q with deleted := true } := by
    intro row hrow
    obtain ⟨q, hq, rfl⟩ := List.mem_map.1 hrow
    split_ifs
    · exact .inr ⟨q, hq, rfl⟩
    · exact .inl hq
  have hupserted : ∀ type,
      ∀ row ∈ ({ b with records := b.records.softDelete key } : Books).upserted tenantId type,
        row ∈ b.upserted tenantId type := by
    intro type row hrow
    simp only [Books.upserted, Store.live, List.mem_filter, Bool.and_eq_true, Bool.not_eq_true',
      decide_eq_true_eq] at hrow ⊢
    obtain ⟨⟨hmem, hkey, hlive⟩, hwriter⟩ := hrow
    rcases hrows row hmem with hold | ⟨q, _, rfl⟩
    · exact ⟨⟨hold, hkey, hlive⟩, hwriter⟩
    · cases hlive
  refine ⟨h.keepsEarlier, fun I hI row hrow other hother => ?_, fun I hI row hrow => ?_⟩
  · exact h.unique I hI row (hupserted _ row hrow) other (hupserted _ other hother)
  · exact h.findable I hI row (hupserted _ row hrow)

end Calls

section Main
variable {T : Texts} {digest : String → String} {tenantId : String} {b : Books}

theorem Books.Kept.step (h : b.Kept T tenantId) {l : Label}
    (hsafe : Safe T digest tenantId b l) : (b.step T digest tenantId l).Kept T tenantId := by
  have hrun : ∀ b', b.run T digest tenantId l = .ok b' → b'.Kept T tenantId := by
    intro b' hb
    obtain ⟨call, d⟩ := l
    cases call with
    | identityUpsert recordType data =>
      simp only [Books.run, Fallible.map_eq_ok] at hb
      obtain ⟨⟨saved, _⟩, hb, rfl⟩ := hb
      simp only [Safe] at hsafe
      unfold identityUpsert at hb
      split_ifs at hb hsafe with hcontact haccount hopportunity
      · exact h.upsertContact hsafe hb
      · exact (h.upsertAccount hsafe hb).1
      · exact h.upsertOpportunity hsafe hb
      · have hplain : ∀ I ∈ identities T, I.recordType ≠ canonicalType T recordType :=
          enrich_types ⟨hcontact, haccount⟩
        exact h.save (plain_saveSafe .identityUpsert (fun _ => hplain) nofun
          (freshCount_free hsafe)) hb
    | logActivity payload id =>
      simp only [Books.run, Fallible.map_eq_ok] at hb
      obtain ⟨⟨saved, _⟩, hb, rfl⟩ := hb
      exact h.logActivity hsafe hb
    | linkRecords fromType fromId relationshipType toType toId source =>
      simp only [Books.run, Fallible.map_eq_ok] at hb
      obtain ⟨⟨saved, _⟩, hb, rfl⟩ := hb
      exact h.linkRecords hsafe hb
    | writeRecord recordType recordId data =>
      simp only [Books.run, Fallible.map_eq_ok] at hb
      obtain ⟨⟨saved, _⟩, hb, rfl⟩ := hb
      exact h.save (plain_saveSafe .writeRecord nofun nofun (freshCount_free hsafe)) hb
    | softDelete recordType recordId =>
      cases hb
      exact h.softDelete _
  unfold Books.step
  split
  next b' hb => exact hrun b' hb
  next => exact h

theorem kept_opened (records : Records) : (Books.opened records).Kept T tenantId where
  keepsEarlier _ hw := nomatch hw
  unique I _ row hrow := by simp [Books.upserted, Books.opened] at hrow
  findable I _ row hrow := by simp [Books.upserted, Books.opened] at hrow

/-- In every run whose made-up ids are free and whose lookups find at most one record, no write
clobbers another record. -/
theorem neverClobbers_of_safe (records : Records) {ls : List Label}
    (h : Guarded (Books.step T digest tenantId) (Safe T digest tenantId) (.opened records) ls) :
    (exec (Books.step T digest tenantId) (.opened records) ls).NeverClobbers T tenantId :=
  (h.preserves (fun _ _ hkept hsafe => hkept.step hsafe) (kept_opened records)).neverClobbers

end Main

section Samples

/-- Texts of letters without accents, where no list or dictionary has a member. -/
def smallTexts : Texts where
  jsonNumber := id
  jsonCompound v := if v.truthy then "" else "empty"
  pyCompound
    | .arr _ => "[]"
    | _ => "\x7b\x7d"
  lower s := String.ofList (s.toList.map Char.toLower)
  ilike _ _ := false
  lowerTrim s := String.ofList ((strip s).toList.map Char.toLower)

def emptyRecords : Records := ⟨⟨[], List.nodup_nil⟩, fun _ h => nomatch h⟩

/-- A contact that comes with an id. -/
def importContact (id : String) : Label := ⟨.writeRecord "contact" (some id) [], plainDraws⟩

/-- A contact without an id. -/
def addContact : Label := ⟨.writeRecord "contact" none [], plainDraws⟩

/-- A lead that comes with an email. -/
def upsertLead (email : String) : Label :=
  ⟨.identityUpsert "lead" [("email", .str email)], plainDraws⟩

/-- The record of the lead. -/
def leadRecord : Data :=
  [("email", .str "ann@example.com"), ("crm_schema_version", .num 1 "1"),
    ("custom_fields", .obj []), ("tags", .arr []), ("source", .str "ajenda")]

/-- Someone is added and someone else upserted. -/
theorem neverClobbers_lead : (exec (Books.step smallTexts id "acme") (.opened emptyRecords)
    [addContact, upsertLead "ann@example.com"]).NeverClobbers smallTexts "acme" := by
  apply neverClobbers_of_safe
  refine ⟨fun _ _ hrow => (nomatch hrow), ?_, trivial⟩
  set b := Books.step smallTexts id "acme" (.opened emptyRecords) addContact with hb
  have hrows : b.records.rows.map (·.key) = [("acme", "contact", "contact-1")] := by
    rw [hb]
    decide +kernel
  have henriched : enrichContactData smallTexts [("email", .str "ann@example.com")] =
      .ok leadRecord := rfl
  have htype : canonicalType smallTexts "lead" = "contact" := by decide +kernel
  simp only [Safe, upsertLead]
  rw [if_pos htype]
  intro record hrecord
  obtain rfl : leadRecord = record := Except.ok.inj (henriched.symm.trans hrecord)
  have hof : (contactIdentity smallTexts).of leadRecord = some "ann@example.com" := by
    decide +kernel
  refine ⟨fun v hv => ?_, fun v hv => ?_, fun recordId _ _ row hrow hkey => ?_, ?_⟩
  · obtain rfl : "ann@example.com" = v := Option.some.inj (hof.symm.trans hv)
    decide +kernel
  · obtain rfl : "ann@example.com" = v := Option.some.inj (hof.symm.trans hv)
    have hnone : (foundBy smallTexts b.records "acme" "contact" "email"
        "ann@example.com").length = 0 := by
      rw [hb]
      decide +kernel
    intro row hrow
    exact absurd (List.length_pos_of_mem hrow) (Nat.not_lt.2 hnone.le)
  · have hcounted : countedId b.records "acme" "contact" = "contact-2" := by
      rw [hb]
      decide +kernel
    have hmem : row.key ∈ b.records.rows.map (·.key) := List.mem_map_of_mem hrow
    rw [hrows, hkey, hcounted] at hmem
    exact absurd hmem (by decide)
  · intro _ hcompany
    exact absurd (by decide +kernel : companyOf smallTexts leadRecord = "") hcompany

/-- The id that is made up for the second contact is the one that the first came with. -/
theorem imported_clobbered : ¬(exec (Books.step smallTexts id "acme") (.opened emptyRecords)
    [importContact "contact-2", addContact]).NeverClobbers smallTexts "acme" := by
  intro h
  have hlength : ∀ w ∈ (exec (Books.step smallTexts id "acme") (.opened emptyRecords)
      [importContact "contact-2", addContact]).written, w.writer = .writeRecord → w.chosen = false →
        w.after.length = w.before.length + 1 := by
    intro w hw hwriter hchosen
    have hkeeps := h.keepsEarlier w hw
    rw [Written.KeepsEarlier, hwriter] at hkeeps
    obtain ⟨row, -, hafter⟩ := hkeeps hchosen
    rw [hafter, List.length_append, List.length_singleton]
  refine absurd hlength ?_
  clear hlength h
  decide +kernel

end Samples

end Ajenda.Crm
