import Ajenda.RedisQueueInvariant
import Mathlib.Logic.Relation

/-!
# The migration of a legacy queue

`_MIGRATE_LEGACY_SCRIPT` reads the three lists of a tenant without a schema marker, checks
every row and only then writes: each raw text goes to the payload hash under its task id, and
to the sorted set under the next sequence number. `TenantKeys` holds the raw texts; the
scripts of a migrated tenant see what cjson reads of them.
-/
namespace Ajenda.RedisQueue
open JsonValue FiniteTable LuaCjson TransitionSystem

/-- What is under a key that should be a list. -/
inductive LegacyKey
  | list (items : List String)
  | other
  deriving DecidableEq

def LegacyKey.items : LegacyKey → List String
  | .list items => items
  | .other => []

/-- The keys of one tenant; an absent key is an empty list, set or hash. `foreignOrder` and
`foreignPayloads` say that an indexed key holds another type. -/
structure TenantKeys where
  legacyPending : LegacyKey
  legacyProcessing : LegacyKey
  legacyDead : LegacyKey
  foreignOrder : Bool
  foreignPayloads : Bool
  pendingOrder : RankedSet
  pendingPayloads : Table String String
  processingPayloads : Table String String
  deadOrder : RankedSet
  deadPayloads : Table String String
  sequence : ℕ
  leases : Table String String
  dispatchKeys : Table String Unit
  schema : Bool

/-- `parse` is what cjson sees in a text, `address` what `tostring` prints for a table, which
depends on the row. -/
structure LuaHost where
  parse : String → Payload
  address : ℕ → String

variable (L : LuaHost)

/-- The store the scripts of a migrated tenant see. -/
def TenantKeys.store (k : TenantKeys) : Store where
  pendingOrder := k.pendingOrder
  pendingPayloads := k.pendingPayloads.mapValues L.parse
  processingPayloads := k.processingPayloads.mapValues L.parse
  deadOrder := k.deadOrder
  deadPayloads := k.deadPayloads.mapValues L.parse
  sequence := k.sequence
  leases := k.leases
  dispatchKeys := k.dispatchKeys

def LuaHost.text (row : ℕ) (v : Json) : String := (tostring v).getD (L.address row)

/-- The checks of a pending or processing row: its task id, or the refusal. -/
def identifyLive (tenantId corrupt mismatch : String) (row : ℕ) (raw : String) :
    Except String String :=
  match decodeTable (L.parse raw) with
  | none => .error corrupt
  | some payload =>
    match payload.field "task_id" with
    | none => .error corrupt
    | some taskId =>
      if (payload.field "tenant_id").map (L.text row) ≠ some tenantId then .error mismatch
      else .ok (L.text row taskId)

/-- The checks of a dead-letter row; the tenant stands in the payload of its envelope. -/
def identifyDead (tenantId : String) (row : ℕ) (raw : String) : Except String String :=
  match decodeTable (L.parse raw) with
  | none => .error "legacy dead-letter payload is corrupt"
  | some envelope =>
    match envelope.field "task_id" with
    | none => .error "legacy dead-letter payload is corrupt"
    | some taskId =>
      match (envelope.field "payload").filter isTable with
      | none => .error "legacy dead-letter payload tenant mismatch"
      | some payload =>
        if (payload.field "tenant_id").map (L.text row) ≠ some tenantId then
          .error "legacy dead-letter payload tenant mismatch"
        else .ok (L.text row taskId)

/-- One scan: the rows with their task ids, none of which has been seen. -/
def scanRows (identify : ℕ → String → Except String String) (duplicate : String) :
    ℕ → List String → List String → Except String (List (String × String))
  | _, _, [] => .ok []
  | row, seen, raw :: raws =>
    match identify row raw with
    | .error reason => .error reason
    | .ok taskId =>
      if taskId ∈ seen then .error duplicate
      else
        match scanRows identify duplicate (row + 1) (taskId :: seen) raws with
        | .error reason => .error reason
        | .ok rows => .ok ((taskId, raw) :: rows)

def TenantKeys.pushPending (k : TenantKeys) (row : String × String) : TenantKeys :=
  { k with
    sequence := k.sequence + 1
    pendingPayloads := k.pendingPayloads.put row.1 row.2
    pendingOrder := k.pendingOrder.put row.1 (k.sequence + 1) }

def TenantKeys.putProcessing (k : TenantKeys) (row : String × String) : TenantKeys :=
  { k with processingPayloads := k.processingPayloads.put row.1 row.2 }

def TenantKeys.pushDead (k : TenantKeys) (row : String × String) : TenantKeys :=
  { k with
    sequence := k.sequence + 1
    deadPayloads := k.deadPayloads.put row.1 row.2
    deadOrder := k.deadOrder.put row.1 (k.sequence + 1) }

def TenantKeys.indexedEmpty (k : TenantKeys) : Bool :=
  k.pendingOrder.entries = [] ∧ k.pendingPayloads.entries = [] ∧
    k.processingPayloads.entries = [] ∧ k.deadOrder.entries = [] ∧ k.deadPayloads.entries = []

/-- The three scans. -/
def scanLegacy (tenantId : String) (k : TenantKeys) :
    Except String (List (String × String) × List (String × String) × List (String × String)) :=
  let live := "legacy queue contains duplicate live task"
  match scanRows (identifyLive L tenantId "legacy pending payload is corrupt"
      "legacy pending payload tenant mismatch") live 0 [] k.legacyPending.items with
  | .error reason => .error reason
  | .ok pending =>
    match scanRows (identifyLive L tenantId "legacy processing payload is corrupt"
        "legacy processing payload tenant mismatch") live pending.length
        (pending.map Prod.fst) k.legacyProcessing.items with
    | .error reason => .error reason
    | .ok processing =>
      match scanRows (identifyDead L tenantId) "legacy queue contains duplicate dead-letter task"
          (pending.length + processing.length) [] k.legacyDead.items with
      | .error reason => .error reason
      | .ok dead => .ok (pending, processing, dead)

/-- `_MIGRATE_LEGACY_SCRIPT`. -/
def migrateLegacyScript (tenantId : String) (k : TenantKeys) : Reply String × TenantKeys :=
  if k.schema then
    if k.legacyPending ≠ .list [] ∨ k.legacyProcessing ≠ .list [] ∨ k.legacyDead ≠ .list [] then
      (.refused "legacy queue received data after indexed migration", k)
    else (.ok "ready", k)
  else if k.legacyPending = .other ∨ k.legacyProcessing = .other ∨ k.legacyDead = .other then
    (.refused "legacy queue key has unexpected type", k)
  else if k.foreignOrder then (.refused "indexed order key has unexpected type", k)
  else if k.foreignPayloads then (.refused "indexed payload key has unexpected type", k)
  else if k.indexedEmpty = false then
    (.refused "partial indexed queue exists without schema marker", k)
  else
    match scanLegacy L tenantId k with
    | .error reason => (.refused reason, k)
    | .ok (pending, processing, dead) =>
      let k := pending.foldl TenantKeys.pushPending k
      let k := processing.foldl TenantKeys.putProcessing k
      let k := dead.foldl TenantKeys.pushDead k
      (.ok "migrated", { k with
        legacyPending := .list []
        legacyProcessing := .list []
        legacyDead := .list []
        schema := true })

/-- An indexed operation: it leaves the legacy keys and the marker alone, and its texts read
as the script's payloads. -/
inductive Indexed (cfg : Config) (k k' : TenantKeys) : Prop
  | op (op : Op) (store : k'.store L = step cfg (k.store L) op)
      (pending : k'.legacyPending = k.legacyPending)
      (processing : k'.legacyProcessing = k.legacyProcessing)
      (dead : k'.legacyDead = k.legacyDead) (schema : k'.schema = k.schema)

variable {L} {k : TenantKeys} {rows : List (String × String)} {row : String × String} {t : String}

/-- The id of a row is its own `task_id`. -/
def LuaHost.names (L : LuaHost) (row : String × String) : Prop :=
  ∃ n payload taskId, decodeTable (L.parse row.2) = some payload ∧
    payload.field "task_id" = some taskId ∧ row.1 = L.text n taskId

theorem identifyLive_names {tenantId corrupt mismatch raw : String} {n : ℕ}
    (h : identifyLive L tenantId corrupt mismatch n raw = .ok t) : L.names (t, raw) := by
  unfold identifyLive at h
  split at h
  next => cases h
  next payload hpayload =>
    split at h
    next => cases h
    next taskId htask =>
      split_ifs at h
      exact ⟨n, payload, taskId, hpayload, htask, (Except.ok.inj h).symm⟩

theorem identifyDead_names {tenantId raw : String} {n : ℕ}
    (h : identifyDead L tenantId n raw = .ok t) : L.names (t, raw) := by
  unfold identifyDead at h
  split at h
  next => cases h
  next envelope henvelope =>
    split at h
    next => cases h
    next taskId htask =>
      split at h
      next => cases h
      next =>
        split_ifs at h
        exact ⟨n, envelope, taskId, henvelope, htask, (Except.ok.inj h).symm⟩

/-- Every row of a scan that succeeds was identified. -/
theorem scanRows_identified {identify : ℕ → String → Except String String} {duplicate : String}
    {raws : List String} : ∀ {n : ℕ} {seen : List String},
    scanRows identify duplicate n seen raws = .ok rows →
      ∀ row ∈ rows, ∃ n, identify n row.2 = .ok row.1 := by
  induction raws generalizing rows with
  | nil =>
    intro n seen h
    obtain rfl : [] = rows := by simpa [scanRows] using h
    simp
  | cons raw raws ih =>
    intro n seen h
    unfold scanRows at h
    split at h
    next => cases h
    next taskId htask =>
      split_ifs at h
      split at h
      next => cases h
      next rest hrest =>
        obtain rfl : (taskId, raw) :: rest = rows := by simpa using h
        intro row hrow
        rcases List.mem_cons.1 hrow with rfl | hrow
        · exact ⟨n, htask⟩
        · exact ih hrest row hrow

/-- A scan that succeeds keeps every row, under ids that are new and pairwise different. -/
theorem scanRows_ok {identify : ℕ → String → Except String String} {duplicate : String}
    {raws : List String} : ∀ {n : ℕ} {seen : List String},
    scanRows identify duplicate n seen raws = .ok rows →
      rows.map Prod.snd = raws ∧ (rows.map Prod.fst).Nodup ∧ ∀ t ∈ rows.map Prod.fst, t ∉ seen := by
  induction raws generalizing rows with
  | nil =>
    intro n seen h
    obtain rfl : [] = rows := by simpa [scanRows] using h
    simp
  | cons raw raws ih =>
    intro n seen h
    unfold scanRows at h
    split at h
    next => cases h
    next taskId _ =>
      split_ifs at h with hseen
      split at h
      next => cases h
      next rest hrest =>
        obtain rfl : (taskId, raw) :: rest = rows := by simpa using h
        obtain ⟨hraws, hnodup, hnew⟩ := ih hrest
        refine ⟨by rw [List.map_cons, hraws], ?_, ?_⟩
        · rw [List.map_cons, List.nodup_cons]
          exact ⟨fun hmem => hnew taskId hmem List.mem_cons_self, hnodup⟩
        · intro t ht
          rcases List.mem_cons.1 ht with rfl | ht
          · exact hseen
          · exact fun hmem => hnew t ht (List.mem_cons_of_mem _ hmem)

/-- A fold that puts each row under its own id holds exactly the rows and what was there. -/
theorem foldl_get (push : TenantKeys → String × String → TenantKeys)
    (table : TenantKeys → Table String String)
    (hpush : ∀ k row, table (push k row) = (table k).put row.1 row.2)
    (hnodup : (rows.map Prod.fst).Nodup) (hnew : ∀ t ∈ rows.map Prod.fst, (table k).get t = none)
    (raw : String) :
    (table (rows.foldl push k)).get t = some raw ↔ (t, raw) ∈ rows ∨ (table k).get t = some raw := by
  induction rows generalizing k with
  | nil => simp
  | cons row rows ih =>
    rw [List.map_cons, List.nodup_cons] at hnodup
    rw [List.foldl_cons, ih hnodup.2]
    · rw [hpush, Table.get_put, List.mem_cons]
      have hrow := hnew row.1 List.mem_cons_self
      by_cases ht : t = row.1
      · subst ht
        rw [if_pos rfl, hrow]
        have hmem : (row.1, raw) ∉ rows := fun hmem =>
          hnodup.1 (List.mem_map.2 ⟨_, hmem, rfl⟩)
        have hpair : (row.1, raw) = row ↔ row.2 = raw :=
          ⟨fun heq => by rw [← heq], fun heq => by rw [← heq]⟩
        simp [hmem, hpair]
      · have hpair : (t, raw) ≠ row := fun heq => ht (by rw [← heq])
        simp [ht, hpair]
    · intro u hu
      rw [hpush, Table.get_put]
      have hne : u ≠ row.1 := fun heq => hnodup.1 (heq ▸ hu)
      rw [if_neg hne]
      exact hnew u (List.mem_cons_of_mem _ hu)

/-- The ranks of the pushed rows grow along the list. -/
theorem foldl_pushPending_order (hnodup : (rows.map Prod.fst).Nodup) :
    (∀ t r, t ∉ rows.map Prod.fst → k.pendingOrder.get t = some r →
      (rows.foldl TenantKeys.pushPending k).pendingOrder.get t = some r) ∧
    (∀ t ∈ rows.map Prod.fst, ∃ r,
      (rows.foldl TenantKeys.pushPending k).pendingOrder.get t = some r ∧ k.sequence < r) ∧
    (rows.map Prod.fst).Pairwise fun a b => ∃ r q,
      (rows.foldl TenantKeys.pushPending k).pendingOrder.get a = some r ∧
      (rows.foldl TenantKeys.pushPending k).pendingOrder.get b = some q ∧ r < q := by
  induction rows generalizing k with
  | nil => simp
  | cons row rows ih =>
    rw [List.map_cons, List.nodup_cons] at hnodup
    obtain ⟨hold, hranks, hpairs⟩ := ih (k := k.pushPending row) hnodup.2
    have hself : (rows.foldl TenantKeys.pushPending (k.pushPending row)).pendingOrder.get row.1 =
        some (k.sequence + 1) :=
      hold row.1 _ hnodup.1 (Table.get_put_self _ _ _)
    rw [List.foldl_cons, List.map_cons]
    refine ⟨fun t r ht hr => ?_, fun t ht => ?_, List.pairwise_cons.2 ⟨fun b hb => ?_, hpairs⟩⟩
    · rw [List.mem_cons, not_or] at ht
      apply hold t r ht.2
      rw [TenantKeys.pushPending, Table.get_put_ne _ _ ht.1, hr]
    · rcases List.mem_cons.1 ht with rfl | ht
      · exact ⟨_, hself, Nat.lt_succ_self _⟩
      · obtain ⟨r, hr, hlt⟩ := hranks t ht
        exact ⟨r, hr, Nat.lt_of_succ_lt hlt⟩
    · obtain ⟨q, hq, hlt⟩ := hranks b hb
      exact ⟨_, q, hself, hq, hlt⟩

theorem foldl_frame {β : Type*} (push : TenantKeys → String × String → TenantKeys)
    (f : TenantKeys → β) (hpush : ∀ k row, f (push k row) = f k) :
    f (rows.foldl push k) = f k := by
  induction rows generalizing k with
  | nil => rfl
  | cons row rows ih => rw [List.foldl_cons, ih, hpush]

section Representation

/-- The store without the lease keys, which the migration does not read. -/
def TenantKeys.unleased (L : LuaHost) (k : TenantKeys) : Store := { k.store L with leases := ∅ }

theorem unleased_pushPending : (k.pushPending row).unleased L =
    (k.unleased L).pushPending row.1 (L.parse row.2) := by
  simp [TenantKeys.unleased, TenantKeys.store, TenantKeys.pushPending, Store.pushPending,
    Table.mapValues_put]

theorem unleased_putProcessing : (k.putProcessing row).unleased L =
    { k.unleased L with
      processingPayloads := (k.unleased L).processingPayloads.put row.1 (L.parse row.2) } := by
  simp [TenantKeys.unleased, TenantKeys.store, TenantKeys.putProcessing, Table.mapValues_put]

theorem unleased_pushDead : (k.pushDead row).unleased L =
    (k.unleased L).pushDead row.1 (L.parse row.2) := by
  simp [TenantKeys.unleased, TenantKeys.store, TenantKeys.pushDead, Store.pushDead,
    Table.mapValues_put]

theorem Consistent.putProcessing {s : Store} (h : Consistent s)
    (ht : s.pendingPayloads.has t = false) (p : Payload) :
    Consistent { s with processingPayloads := s.processingPayloads.put t p } where
  pendingKeys := h.pendingKeys
  deadKeys := h.deadKeys
  disjoint u hu := by
    simp only [Table.has_put, Bool.or_eq_true, decide_eq_true_eq] at hu
    rcases hu with ⟨hp, rfl | hq⟩
    · simp [ht] at hp
    · exact h.disjoint u ⟨hp, hq⟩
  leased u hu := by
    rw [Table.has_put, h.leased u hu, Bool.or_true]
  scoreLe := h.scoreLe
  scoreInj := h.scoreInj

theorem unleased_empty (h : k.indexedEmpty = true) : Consistent (k.unleased L) := by
  simp only [TenantKeys.indexedEmpty, decide_eq_true_eq] at h
  obtain ⟨horder, hpending, hprocessing, hdead, hpayloads⟩ := h
  have hnone : ∀ i, (k.unleased L).score i = none := by
    rintro (t | t)
    · exact Table.get_of_entries_nil horder t
    · exact Table.get_of_entries_nil hdead t
  refine ⟨fun t => ?_, fun t => ?_, fun t ht => ?_, fun t ht => ?_, fun i r hr => ?_,
    fun i j r hr => ?_⟩
  · simp [TenantKeys.unleased, TenantKeys.store, Table.has, Table.get_mapValues,
      Table.get_of_entries_nil horder, Table.get_of_entries_nil hpending]
  · simp [TenantKeys.unleased, TenantKeys.store, Table.has, Table.get_mapValues,
      Table.get_of_entries_nil hdead, Table.get_of_entries_nil hpayloads]
  · simp [TenantKeys.unleased, TenantKeys.store, Table.has, Table.get_mapValues,
      Table.get_of_entries_nil hpending] at ht
  · simp [TenantKeys.unleased] at ht
  · simp [hnone] at hr
  · simp [hnone] at hr

theorem foldl_pushPending_consistent (h : Consistent (k.unleased L))
    (hnew : ∀ t, k.processingPayloads.has t = false) :
    Consistent ((rows.foldl TenantKeys.pushPending k).unleased L) := by
  induction rows generalizing k with
  | nil => exact h
  | cons row rows ih =>
    apply ih
    · rw [unleased_pushPending]
      apply h.pushPending
      simp [TenantKeys.unleased, TenantKeys.store, hnew]
    · exact hnew

theorem foldl_putProcessing_consistent (h : Consistent (k.unleased L))
    (hnew : ∀ t ∈ rows.map Prod.fst, k.pendingPayloads.has t = false) :
    Consistent ((rows.foldl TenantKeys.putProcessing k).unleased L) := by
  induction rows generalizing k with
  | nil => exact h
  | cons row rows ih =>
    apply ih
    · rw [unleased_putProcessing]
      apply h.putProcessing
      simp [TenantKeys.unleased, TenantKeys.store, hnew row.1 List.mem_cons_self]
    · exact fun t ht => hnew t (List.mem_cons_of_mem _ ht)

theorem foldl_pushDead_consistent (h : Consistent (k.unleased L)) :
    Consistent ((rows.foldl TenantKeys.pushDead k).unleased L) := by
  induction rows generalizing k with
  | nil => exact h
  | cons row rows ih =>
    apply ih
    rw [unleased_pushDead]
    exact h.pushDead row.1 _

/-- The lease keys are right when each is on a processing payload. -/
theorem unleased_consistent_iff (h : Consistent (k.unleased L)) : Consistent (k.store L) ↔
    ∀ t, k.leases.has t = true → k.processingPayloads.has t = true := by
  constructor
  · intro hk t ht
    simpa [TenantKeys.store] using hk.leased t ht
  · intro hleased
    refine ⟨h.pendingKeys, h.deadKeys, h.disjoint, fun t ht => ?_, h.scoreLe, h.scoreInj⟩
    simpa [TenantKeys.store] using hleased t ht

end Representation

/-- The writes of the script, after the scans. -/
def TenantKeys.transfer (k : TenantKeys) (pending processing dead : List (String × String)) :
    TenantKeys :=
  dead.foldl TenantKeys.pushDead
    (processing.foldl TenantKeys.putProcessing (pending.foldl TenantKeys.pushPending k))

/-- A refusal writes nothing, and so does a second run; a migration read three good lists. -/
theorem migrateLegacyScript_cases {tenantId : String} {r : Reply String} {k' : TenantKeys}
    (h : migrateLegacyScript L tenantId k = (r, k')) :
    ((∃ reason, r = .refused reason) ∧ k' = k) ∨
    (r = .ok "ready" ∧ k' = k ∧ k.schema = true ∧ k.legacyPending = .list [] ∧
      k.legacyProcessing = .list [] ∧ k.legacyDead = .list []) ∨
    ∃ pending processing dead, r = .ok "migrated" ∧ k.schema = false ∧
      k.indexedEmpty = true ∧ scanLegacy L tenantId k = .ok (pending, processing, dead) ∧
      k' = { k.transfer pending processing dead with
        legacyPending := .list []
        legacyProcessing := .list []
        legacyDead := .list []
        schema := true } := by
  unfold migrateLegacyScript at h
  split_ifs at h with hschema hlate htype horder hpayloads hempty
  · obtain ⟨rfl, rfl⟩ := Prod.mk.inj h
    exact .inl ⟨⟨_, rfl⟩, rfl⟩
  · obtain ⟨rfl, rfl⟩ := Prod.mk.inj h
    simp only [not_or, not_not] at hlate
    exact .inr (.inl ⟨rfl, rfl, hschema, hlate⟩)
  · obtain ⟨rfl, rfl⟩ := Prod.mk.inj h
    exact .inl ⟨⟨_, rfl⟩, rfl⟩
  · obtain ⟨rfl, rfl⟩ := Prod.mk.inj h
    exact .inl ⟨⟨_, rfl⟩, rfl⟩
  · obtain ⟨rfl, rfl⟩ := Prod.mk.inj h
    exact .inl ⟨⟨_, rfl⟩, rfl⟩
  · obtain ⟨rfl, rfl⟩ := Prod.mk.inj h
    exact .inl ⟨⟨_, rfl⟩, rfl⟩
  · split at h
    next reason _ =>
      obtain ⟨rfl, rfl⟩ := Prod.mk.inj h
      exact .inl ⟨⟨_, rfl⟩, rfl⟩
    next pending processing dead hscan =>
      obtain ⟨rfl, rfl⟩ := Prod.mk.inj h
      exact .inr (.inr ⟨pending, processing, dead, rfl, eq_false_of_ne_true hschema,
        eq_true_of_ne_false hempty, hscan, rfl⟩)

/-- The three scans keep every row under its own id; live ids are pairwise different across
both lists. -/
theorem scanLegacy_ok {tenantId : String} {pending processing dead : List (String × String)}
    (h : scanLegacy L tenantId k = .ok (pending, processing, dead)) :
    pending.map Prod.snd = k.legacyPending.items ∧
      processing.map Prod.snd = k.legacyProcessing.items ∧
      dead.map Prod.snd = k.legacyDead.items ∧
      (pending.map Prod.fst ++ processing.map Prod.fst).Nodup ∧ (dead.map Prod.fst).Nodup ∧
      ∀ row ∈ pending ++ processing ++ dead, L.names row := by
  unfold scanLegacy at h
  simp only at h
  split at h
  next => cases h
  next first hfirst =>
    split at h
    next => cases h
    next second hsecond =>
      split at h
      next => cases h
      next third hthird =>
        obtain ⟨rfl, rfl, rfl⟩ : first = pending ∧ second = processing ∧ third = dead := by
          simpa using h
        obtain ⟨hpending, hpnodup, -⟩ := scanRows_ok hfirst
        obtain ⟨hprocessing, hqnodup, hnew⟩ := scanRows_ok hsecond
        obtain ⟨hdead, hdnodup, -⟩ := scanRows_ok hthird
        refine ⟨hpending, hprocessing, hdead, ?_, hdnodup, fun row hrow => ?_⟩
        · apply hpnodup.append hqnodup
          exact fun t ht hq => hnew t hq ht
        · rw [List.mem_append, List.mem_append] at hrow
          rcases hrow with (hrow | hrow) | hrow
          · obtain ⟨n, hn⟩ := scanRows_identified hfirst row hrow
            exact identifyLive_names hn
          · obtain ⟨n, hn⟩ := scanRows_identified hsecond row hrow
            exact identifyLive_names hn
          · obtain ⟨n, hn⟩ := scanRows_identified hthird row hrow
            exact identifyDead_names hn

section Transfer
variable {pending : List (String × String)} (processing dead : List (String × String))

theorem transfer_pendingPayloads :
    (k.transfer pending processing dead).pendingPayloads =
      (pending.foldl TenantKeys.pushPending k).pendingPayloads := by
  unfold TenantKeys.transfer
  rw [foldl_frame TenantKeys.pushDead TenantKeys.pendingPayloads fun _ _ => rfl,
    foldl_frame TenantKeys.putProcessing TenantKeys.pendingPayloads fun _ _ => rfl]

theorem transfer_pendingOrder :
    (k.transfer pending processing dead).pendingOrder =
      (pending.foldl TenantKeys.pushPending k).pendingOrder := by
  unfold TenantKeys.transfer
  rw [foldl_frame TenantKeys.pushDead TenantKeys.pendingOrder fun _ _ => rfl,
    foldl_frame TenantKeys.putProcessing TenantKeys.pendingOrder fun _ _ => rfl]

theorem transfer_processingPayloads :
    (k.transfer pending processing dead).processingPayloads =
      (processing.foldl TenantKeys.putProcessing
        (pending.foldl TenantKeys.pushPending k)).processingPayloads := by
  unfold TenantKeys.transfer
  rw [foldl_frame TenantKeys.pushDead TenantKeys.processingPayloads fun _ _ => rfl]

theorem transfer_leases : (k.transfer pending processing dead).leases = k.leases := by
  unfold TenantKeys.transfer
  rw [foldl_frame TenantKeys.pushDead TenantKeys.leases fun _ _ => rfl,
    foldl_frame TenantKeys.putProcessing TenantKeys.leases fun _ _ => rfl,
    foldl_frame TenantKeys.pushPending TenantKeys.leases fun _ _ => rfl]

variable {processing dead} (hempty : k.indexedEmpty = true)
  (hlive : (pending.map Prod.fst ++ processing.map Prod.fst).Nodup)
include hempty hlive

theorem transfer_pending_iff (raw : String) :
    (k.transfer pending processing dead).pendingPayloads.get t = some raw ↔
      (t, raw) ∈ pending := by
  simp only [TenantKeys.indexedEmpty, decide_eq_true_eq] at hempty
  have hnone := Table.get_of_entries_nil hempty.2.1
  rw [transfer_pendingPayloads, foldl_get TenantKeys.pushPending TenantKeys.pendingPayloads
    (fun _ _ => rfl) hlive.of_append_left fun t _ => hnone t, hnone]
  simp

theorem transfer_processing_iff (raw : String) :
    (k.transfer pending processing dead).processingPayloads.get t = some raw ↔
      (t, raw) ∈ processing := by
  simp only [TenantKeys.indexedEmpty, decide_eq_true_eq] at hempty
  have hnone : ∀ t,
      (pending.foldl TenantKeys.pushPending k).processingPayloads.get t = none := by
    rw [foldl_frame TenantKeys.pushPending TenantKeys.processingPayloads fun _ _ => rfl]
    exact Table.get_of_entries_nil hempty.2.2.1
  rw [transfer_processingPayloads, foldl_get TenantKeys.putProcessing TenantKeys.processingPayloads
    (fun _ _ => rfl) hlive.of_append_right fun t _ => hnone t, hnone]
  simp

omit hlive in
theorem transfer_dead_iff (hdead : (dead.map Prod.fst).Nodup) (raw : String) :
    (k.transfer pending processing dead).deadPayloads.get t = some raw ↔ (t, raw) ∈ dead := by
  simp only [TenantKeys.indexedEmpty, decide_eq_true_eq] at hempty
  have hnone : ∀ t, (processing.foldl TenantKeys.putProcessing
      (pending.foldl TenantKeys.pushPending k)).deadPayloads.get t = none := by
    rw [foldl_frame TenantKeys.putProcessing TenantKeys.deadPayloads fun _ _ => rfl,
      foldl_frame TenantKeys.pushPending TenantKeys.deadPayloads fun _ _ => rfl]
    exact Table.get_of_entries_nil hempty.2.2.2.2
  unfold TenantKeys.transfer
  rw [foldl_get TenantKeys.pushDead TenantKeys.deadPayloads (fun _ _ => rfl) hdead fun t _ => hnone t,
    hnone]
  simp

theorem transfer_consistent :
    Consistent ((k.transfer pending processing dead).unleased L) := by
  have hnone : ∀ t, k.processingPayloads.has t = false := by
    intro t
    simp only [TenantKeys.indexedEmpty, decide_eq_true_eq] at hempty
    rw [Table.has_eq_false, Table.get_of_entries_nil hempty.2.2.1]
  apply foldl_pushDead_consistent
  apply foldl_putProcessing_consistent
  · exact foldl_pushPending_consistent (unleased_empty hempty) hnone
  · intro t ht
    rw [Table.has_eq_false, Option.eq_none_iff_forall_ne_some]
    intro raw hraw
    rw [← transfer_pendingPayloads processing dead,
      transfer_pending_iff hempty hlive] at hraw
    exact hlive.disjoint (List.mem_map.2 ⟨_, hraw, rfl⟩) ht

end Transfer

/-- What a migration leaves behind: every legacy text under the id of its own row, once. -/
structure TenantKeys.Migrated (L : LuaHost) (k k' : TenantKeys)
    (pending processing dead : List (String × String)) : Prop where
  pendingTexts : pending.map Prod.snd = k.legacyPending.items
  processingTexts : processing.map Prod.snd = k.legacyProcessing.items
  deadTexts : dead.map Prod.snd = k.legacyDead.items
  named : ∀ row ∈ pending ++ processing ++ dead, L.names row
  liveOnce : (pending.map Prod.fst ++ processing.map Prod.fst).Nodup
  deadOnce : (dead.map Prod.fst).Nodup
  pendingStored : ∀ t raw, k'.pendingPayloads.get t = some raw ↔ (t, raw) ∈ pending
  processingStored : ∀ t raw, k'.processingPayloads.get t = some raw ↔ (t, raw) ∈ processing
  deadStored : ∀ t raw, k'.deadPayloads.get t = some raw ↔ (t, raw) ∈ dead
  pendingOrdered : (pending.map Prod.fst).Pairwise fun a b => ∃ r q,
    k'.pendingOrder.get a = some r ∧ k'.pendingOrder.get b = some q ∧ r < q
  represented : Consistent (k'.unleased L)
  leased : Consistent (k'.store L) ↔
    ∀ t, k.leases.has t = true → t ∈ processing.map Prod.fst

theorem scanned_migrated {tenantId : String} {pending processing dead : List (String × String)}
    (hempty : k.indexedEmpty = true)
    (hscan : scanLegacy L tenantId k = .ok (pending, processing, dead)) :
    k.Migrated L { k.transfer pending processing dead with
      legacyPending := .list []
      legacyProcessing := .list []
      legacyDead := .list []
      schema := true } pending processing dead := by
  obtain ⟨hpending, hprocessing, hdead, hlive, hdeadOnce, hnames⟩ := scanLegacy_ok hscan
  have hstored : ∀ t raw, (k.transfer pending processing dead).processingPayloads.get t =
      some raw ↔ (t, raw) ∈ processing := fun t raw => transfer_processing_iff hempty hlive raw
  have hconsistent : Consistent ((k.transfer pending processing dead).unleased L) :=
    transfer_consistent hempty hlive
  refine ⟨hpending, hprocessing, hdead, hnames, hlive, hdeadOnce,
    fun t raw => transfer_pending_iff hempty hlive raw, hstored,
    fun t raw => transfer_dead_iff hempty hdeadOnce raw, ?_, hconsistent, ?_⟩
  · have horder := (foldl_pushPending_order (k := k) hlive.of_append_left).2.2
    rw [← transfer_pendingOrder processing dead] at horder
    exact horder
  · have hiff := unleased_consistent_iff hconsistent
    rw [transfer_leases] at hiff
    have hhas : ∀ t, (k.transfer pending processing dead).processingPayloads.has t = true ↔
        t ∈ processing.map Prod.fst := by
      intro t
      rw [Table.has_iff, List.mem_map]
      constructor
      · rintro ⟨raw, hraw⟩
        exact ⟨(t, raw), (hstored t raw).1 hraw, rfl⟩
      · rintro ⟨row, hrow, rfl⟩
        exact ⟨row.2, (hstored row.1 row.2).2 hrow⟩
    simp only [hhas] at hiff
    exact hiff

/-- Indexed operations keep the legacy keys empty and the marker set. -/
theorem indexed_ready {cfg : Config} {k'' : TenantKeys}
    (hrun : Relation.ReflTransGen (Indexed L cfg) k k'') (hschema : k.schema = true)
    (hpending : k.legacyPending = .list []) (hprocessing : k.legacyProcessing = .list [])
    (hdead : k.legacyDead = .list []) :
    migrateLegacyScript L cfg.tenantId k'' = (.ok "ready", k'') := by
  have hkept : k''.schema = true ∧ k''.legacyPending = .list [] ∧
      k''.legacyProcessing = .list [] ∧ k''.legacyDead = .list [] := by
    induction hrun with
    | refl => exact ⟨hschema, hpending, hprocessing, hdead⟩
    | tail _ hstep ih =>
      cases hstep with
      | op _ _ hp hq hd hs =>
        rw [hp, hq, hd, hs]
        exact ih
  obtain ⟨hs, hp, hq, hd⟩ := hkept
  simp [migrateLegacyScript, hs, hp, hq, hd]

section Example

def demoHost : LuaHost :=
  ⟨fun raw => .json (.obj [("task_id", .str raw), ("tenant_id", .str "tenant"),
    ("payload", .obj [("tenant_id", .str "tenant")])]), fun _ => "table: 0x1"⟩

def demoKeys : TenantKeys :=
  ⟨.list ["b", "a"], .list ["c"], .list ["a"], false, false, ∅, ∅, ∅, ∅, ∅, 7, ∅, ∅, false⟩

example : (migrateLegacyScript demoHost "tenant" demoKeys).1 = .ok "migrated" ∧
    (migrateLegacyScript demoHost "tenant" demoKeys).2.pendingOrder.get "a" = some 9 := by
  decide +kernel

example : (migrateLegacyScript demoHost "tenant"
    { demoKeys with legacyProcessing := .list ["a"] }).1 =
      .refused "legacy queue contains duplicate live task" := by
  decide +kernel

end Example

/-- A migration that succeeds moves every text of the three lists and leaves a represented
queue; one that fails writes nothing; and after a success the script only answers `ready`,
whatever indexed operations ran in between. -/
theorem legacy_migration_lossless (L : LuaHost) (cfg : Config) (k : TenantKeys) :
    (∀ v k', k.schema = false → migrateLegacyScript L cfg.tenantId k = (.ok v, k') →
      ∃ pending processing dead, k.Migrated L k' pending processing dead) ∧
    (∀ r k', migrateLegacyScript L cfg.tenantId k = (r, k') → (∀ v, r ≠ .ok v) → k' = k) ∧
    (∀ v k' k'', migrateLegacyScript L cfg.tenantId k = (.ok v, k') →
      Relation.ReflTransGen (Indexed L cfg) k' k'' →
        migrateLegacyScript L cfg.tenantId k'' = (.ok "ready", k'')) := by
  refine ⟨fun v k' hschema h => ?_, fun r k' h hfailed => ?_, fun v k' k'' h hrun => ?_⟩
  · rcases migrateLegacyScript_cases h with ⟨⟨_, hr⟩, -⟩ | ⟨-, -, hready, -⟩ | hmigrated
    · cases hr
    · rw [hschema] at hready
      cases hready
    · obtain ⟨pending, processing, dead, -, -, hempty, hscan, rfl⟩ := hmigrated
      exact ⟨pending, processing, dead, scanned_migrated hempty hscan⟩
  · rcases migrateLegacyScript_cases h with ⟨-, hk⟩ | ⟨hr, -⟩ | ⟨_, _, _, hr, -⟩
    · exact hk
    · exact absurd hr (hfailed _)
    · exact absurd hr (hfailed _)
  · rcases migrateLegacyScript_cases h with ⟨⟨_, hr⟩, -⟩ | ⟨-, rfl, hs, hp, hq, hd⟩ | hmigrated
    · cases hr
    · exact indexed_ready hrun hs hp hq hd
    · obtain ⟨_, _, _, -, -, -, -, rfl⟩ := hmigrated
      exact indexed_ready hrun rfl rfl rfl rfl

end Ajenda.RedisQueue
