import Ajenda.CrmRecords
import Ajenda.Fallible
import Ajenda.WindowedPages

/-!
# Searching and counting the records

`search_records` filters twice, in SQL on the texts of the values and in Python on the values, with
a window in between; `count_records` filters on the values only. Records with one `updated_at` are
taken in the order of the table.
-/
namespace Ajenda.Crm
open WindowedPages

section Values
variable {data : Data} {key : String} {v : Value}

theorem Data.setdefault_of_get (h : data.get key = some v) (w : Value) :
    data.setdefault key w = data := by
  rw [Data.setdefault, h]
  exact if_pos rfl

/-- A stored record already has its id. -/
theorem recordOf_eq (row : TenantInternalRecord) : recordOf row = row.data :=
  Data.setdefault_of_get row.identified _

end Values

section Agreement
variable (T : Texts) (s : Store) (tenantId recordType query : String) (filters : Data) (limit : ℕ)

/-- The live rows that match the query and the filters. -/
def matching : List TenantInternalRecord :=
  (s.live tenantId recordType).filter fun row =>
    matchesQuery T query row && pyMatches filters (recordOf row)

/-- The pages hold every matching record once, and the count is their number. -/
def SearchAgrees : Prop :=
  ∃ found : ℕ → List Data,
    (∀ k : ℕ, searchRecords T s tenantId recordType query filters limit (k * limit : ℕ) =
      .ok (found k)) ∧
    (∀ count, (matching T s tenantId recordType query filters).length ≤ count * limit →
      ((List.range count).flatMap found).Perm
        ((matching T s tenantId recordType query filters).map recordOf)) ∧
    countRecords T s tenantId recordType query filters =
      .ok (matching T s tenantId recordType query filters).length

/-- What matches by its values matches by their texts. -/
def TextsAgree : Prop :=
  ∀ row ∈ matching T s tenantId recordType query filters, sqlMatches T filters row = true

/-- The SQL window of a page. -/
def sqlWindow (limit k : ℕ) : ℕ := (limit + k * limit) * 3

/-- The SQL window of every page holds the matches up to the end of the page. -/
def WindowsHold : Prop :=
  Wide (fun row => pyMatches filters (recordOf row)) (sqlWindow limit) limit
    (selected T s tenantId recordType query filters)

variable {T s tenantId recordType query filters limit}

theorem searchRecords_page (htype : recordType ∈ supportedRecordTypes) (hone : 1 ≤ limit)
    (hmax : limit ≤ 50) (k : ℕ) :
    searchRecords T s tenantId recordType query filters limit (k * limit : ℕ) =
      .ok ((page (fun row => pyMatches filters (recordOf row)) (sqlWindow limit) limit
        (selected T s tenantId recordType query filters) k).map recordOf) := by
  have hrange : ¬((limit : ℤ) < 1 ∨ 50 < (limit : ℤ) ∨ ((k * limit : ℕ) : ℤ) < 0) := by omega
  have hwindow : (((limit : ℤ) + (k * limit : ℕ)) * 3).toNat = sqlWindow limit k := by
    rw [sqlWindow]
    omega
  unfold searchRecords validateRecordType
  rw [if_pos htype]
  simp only [bind, Except.bind]
  rw [if_neg hrange, hwindow, Int.toNat_natCast, Int.toNat_natCast]
  rw [List.filter_map, page, within, List.map_take, List.map_drop]
  rfl

theorem countRecords_eq (htype : recordType ∈ supportedRecordTypes) :
    countRecords T s tenantId recordType query filters =
      .ok (matching T s tenantId recordType query filters).length := by
  unfold countRecords validateRecordType
  rw [if_pos htype]
  simp only [bind, Except.bind, List.filter_filter, matching, recordOf_eq]
  refine congrArg (fun rows => Except.ok (List.length rows)) (List.filter_congr fun row _ => ?_)
  exact Bool.and_comm _ _

/-- Of the matching rows those that match by their texts are found. -/
theorem selected_perm : ((selected T s tenantId recordType query filters).filter
      fun row => pyMatches filters (recordOf row)).Perm
    ((matching T s tenantId recordType query filters).filter (sqlMatches T filters)) := by
  refine ((List.perm_insertionSort _ _).filter _).trans (List.Perm.of_eq ?_)
  simp only [matching, List.filter_filter]
  refine List.filter_congr fun row _ => ?_
  cases matchesQuery T query row <;> cases sqlMatches T filters row <;> simp

theorem textsAgree_iff : TextsAgree T s tenantId recordType query filters ↔
    (matching T s tenantId recordType query filters).length ≤
      ((selected T s tenantId recordType query filters).filter
        fun row => pyMatches filters (recordOf row)).length := by
  rw [selected_perm.length_eq, TextsAgree]
  constructor
  · intro h
    rw [List.filter_eq_self.2 h]
  · intro h
    exact List.filter_eq_self.1 ((List.filter_sublist).eq_of_length_le h)

theorem sqlWindow_mono : Monotone (sqlWindow limit) := fun j k h => by
  have := Nat.mul_le_mul_right limit h
  rw [sqlWindow, sqlWindow]
  omega

/-- Search and count agree exactly when what matches by its values matches by their texts and no
window cuts off a match. -/
theorem searchAgrees_iff (htype : recordType ∈ supportedRecordTypes) (hone : 1 ≤ limit)
    (hmax : limit ≤ 50) : SearchAgrees T s tenantId recordType query filters limit ↔
      TextsAgree T s tenantId recordType query filters ∧
        WindowsHold T s tenantId recordType query filters limit := by
  have hpages (count : ℕ) : (List.range count).flatMap (fun k =>
        (page (fun row => pyMatches filters (recordOf row)) (sqlWindow limit) limit
          (selected T s tenantId recordType query filters) k).map recordOf) =
      (pages (fun row => pyMatches filters (recordOf row)) (sqlWindow limit) limit
        (selected T s tenantId recordType query filters) count).map recordOf := by
    rw [pages, List.map_flatMap]
  constructor
  · rintro ⟨found, hfound, hperm, -⟩
    have hfound' : found = fun k => (page (fun row => pyMatches filters (recordOf row))
        (sqlWindow limit) limit (selected T s tenantId recordType query filters) k).map recordOf :=
      funext fun k => Except.ok.inj
        ((hfound k).symm.trans (searchRecords_page htype hone hmax k))
    have hcount : (matching T s tenantId recordType query filters).length ≤
        (matching T s tenantId recordType query filters).length * limit :=
      Nat.le_mul_of_pos_right _ hone
    have hlength := (hperm _ hcount).length_eq
    rw [hfound', hpages, List.length_map, List.length_map] at hlength
    have hselected : ((selected T s tenantId recordType query filters).filter
          fun row => pyMatches filters (recordOf row)).length ≤
        (matching T s tenantId recordType query filters).length := by
      rw [selected_perm.length_eq]
      exact List.length_filter_le _ _
    have hwide := wide_of_length sqlWindow_mono hone (hselected.trans hcount)
      (hselected.trans hlength.ge)
    refine ⟨textsAgree_iff.2 ?_, hwide⟩
    rw [← hlength, pages_eq hwide]
    exact (List.take_sublist _ _).length_le
  · rintro ⟨htexts, hwide⟩
    refine ⟨_, searchRecords_page htype hone hmax, fun count hcount => ?_, countRecords_eq htype⟩
    rw [hpages, pages_eq hwide]
    refine List.Perm.map _ ?_
    have hall : ((selected T s tenantId recordType query filters).filter
        fun row => pyMatches filters (recordOf row)).Perm
          (matching T s tenantId recordType query filters) :=
      selected_perm.trans (List.Perm.of_eq (List.filter_eq_self.2 htexts))
    rw [List.take_of_length_le (hall.length_eq.trans_le hcount)]
    exact hall

end Agreement

section Samples

/-- The texts as the two sides write them where no list, dictionary or query is involved. -/
def plainTexts : Texts := ⟨id, fun _ => "", fun _ => "", id, fun _ _ => false, id⟩

/-- A contact that is or is not subscribed. -/
def subscriber (recordId : String) (subscribed : Value) : TenantInternalRecord where
  id := recordId
  tenantId := "acme"
  recordType := "contact"
  recordId := recordId
  data := [("subscribed", subscribed), ("id", .str recordId)]
  searchText := recordId
  deleted := false
  updatedAt := 0
  identified := rfl

def oneSubscriber (subscribed : Value) : Store := ⟨[subscriber "contact-1" subscribed], by simp⟩

/-- Two contacts match by their values, one by its text alone and one not at all. -/
def fourSubscribers : Store where
  rows := [subscriber "contact-1" (.str "1"), subscriber "contact-2" (.num 1 "1"),
    subscriber "contact-3" (.str "1"), subscriber "contact-4" (.str "2")]
  unique := by decide

theorem searchAgrees_text :
    (matching plainTexts fourSubscribers "acme" "contact" "" [("subscribed", .str "1")]).length = 2 ∧
      SearchAgrees plainTexts fourSubscribers "acme" "contact" "" [("subscribed", .str "1")] 1 := by
  have htexts : TextsAgree plainTexts fourSubscribers "acme" "contact" ""
      [("subscribed", .str "1")] := by
    unfold TextsAgree
    decide +kernel
  have hselected : (selected plainTexts fourSubscribers "acme" "contact" ""
      [("subscribed", .str "1")]).length = 3 := by decide +kernel
  refine ⟨by decide +kernel, (searchAgrees_iff (by decide) le_rfl (by decide)).2
    ⟨htexts, wide_of_short fun k => ?_⟩⟩
  rw [hselected, sqlWindow]
  omega

/-- A filter on a boolean: the record is counted and not found. -/
theorem boolean_not_found : ¬SearchAgrees plainTexts (oneSubscriber (.bool true)) "acme" "contact"
    "" [("subscribed", .bool true)] 10 := by
  rintro ⟨found, hfound, hpages, -⟩
  have hcount : (matching plainTexts (oneSubscriber (.bool true)) "acme" "contact" ""
      [("subscribed", .bool true)]).length = 1 := by decide +kernel
  have hfirst : (found 0).length = 0 := by
    have hsearch : (searchRecords plainTexts (oneSubscriber (.bool true)) "acme" "contact" ""
        [("subscribed", .bool true)] 10 0).map List.length = .ok 0 := by decide +kernel
    have hzero := hfound 0
    rw [show ((0 * 10 : ℕ) : ℤ) = 0 from rfl] at hzero
    rw [show ((10 : ℕ) : ℤ) = 10 from rfl] at hzero
    rw [hzero] at hsearch
    exact Except.ok.inj hsearch
  have hlength := (hpages 1 (by omega)).length_eq
  simp [hcount, hfirst] at hlength

end Samples

end Ajenda.Crm
