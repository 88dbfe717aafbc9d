import Ajenda.LeaseFencing
import Ajenda.MissionCompletion

/-!
# Missions whose tasks finish at the same time

Transactions of any number of workers commit over what the others have committed meanwhile. A
mission ends with its last task in every run whose commits are safe for it: the transaction has
read the mission's rows as they still are, or it leaves open a task that nobody has changed
since.
-/
namespace Ajenda.Runtime
open JsonValue KeyedRows TransitionSystem
open RedisQueue (Config Store)

section Safety
variable (missionId : String) (base new cur : Db)

/-- The mission and its tasks are the same in both. -/
def sameMission (db db' : Db) : Bool :=
  db'.missions.get missionId = db.missions.get missionId &&
    db'.listForMission missionId = db.listForMission missionId

/-- The transaction leaves open an open task that still is as it has read it. -/
def leavesOpen : Bool :=
  (base.listForMission missionId).any fun t => !t.status.terminal && cur.tasks.get t.id = some t &&
    (new.tasks.get t.id).any fun n => !n.status.terminal

/-- The transaction has not written the mission, or commits over the mission as it has read it,
or leaves a task open. -/
def commitSafe : Bool :=
  sameMission missionId base new || sameMission missionId base cur ||
    leavesOpen missionId base new cur

end Safety

def Cluster.safeMove (missionId : String) (c : Cluster) (m : Move) : Bool :=
  match m.action, c.flights m.process with
  | .commit, some (.opened tx) => commitSafe missionId tx.base tx.session.db c.world.db
  | _, _ => true

def Cluster.run (cfg : Config) (env : Env) (c : Cluster) (moves : List Move) : Cluster :=
  moves.foldl (Cluster.step cfg env) c

/-- Every commit of the run is safe for the mission. -/
def Cluster.safeRun (cfg : Config) (env : Env) (missionId : String) : Cluster → List Move → Bool
  | _, [] => true
  | c, m :: moves => c.safeMove missionId m && safeRun cfg env missionId (c.step cfg env m) moves

section Merge
variable {env : Env} {own tenantId missionId : String} {base new cur db : Db}
  {keys : List (String × String × String)}

theorem columns_of_taskKeys {db db' : Db} (hkeys : db'.taskKeys = db.taskKeys) {k : String}
    {t : ExecutionTask} (h : db.tasks.get k = some t) :
    ∃ t', db'.tasks.get k = some t' ∧ t'.missionId = t.missionId ∧ t'.tenantId = t.tenantId := by
  have hmem : (t.id, t.missionId, t.tenantId) ∈ db'.taskKeys := by
    rw [hkeys]
    exact List.mem_map_of_mem (Rows.mem_of_get h)
  obtain ⟨t', ht', heq⟩ := List.mem_map.1 hmem
  simp only [Prod.mk.injEq] at heq
  have hget : db'.tasks.get t'.id = some t' := Rows.get_of_mem ht'
  rw [heq.1, show t.id = k from Rows.key_of_get h] at hget
  exact ⟨t', hget, heq.2.1, heq.2.2⟩

theorem mergeTask_base {b n : ExecutionTask} (hkey : Keyed.key n = Keyed.key b) :
    (mergeTask own).apply b n b = n := by
  have hid : n.id = b.id := hkey
  obtain ⟨id, tenant, mission, fleet, branch, status, metadata, retries⟩ := n
  simp only [mergeTask, column_base]
  split_ifs with hsame hqueued
  · exact hsame.symm
  · simp_all
  · simp_all

theorem mergeMission_base {b n : Mission} (hkey : Keyed.key n = Keyed.key b) :
    mergeMission.apply b n b = n := by
  have hid : n.id = b.id := hkey
  obtain ⟨id, tenant, status, metadata⟩ := n
  simp only [mergeMission, column_base]
  simp_all

theorem mergeTask_columns {b n c : ExecutionTask} (hmission : n.missionId = b.missionId)
    (htenant : n.tenantId = b.tenantId) :
    ((mergeTask own).apply b n c).missionId = c.missionId ∧
      ((mergeTask own).apply b n c).tenantId = c.tenantId := by
  simp only [mergeTask, hmission, htenant, column_same]
  split_ifs <;> exact ⟨rfl, rfl⟩

theorem merge_eq_some (h : Db.merge own base new cur = some db) :
    Rows.merge mergeMission base.missions new.missions cur.missions = some db.missions ∧
      Rows.merge (mergeTask own) base.tasks new.tasks cur.tasks = some db.tasks := by
  simp only [Db.merge, bind, Option.bind_eq_some_iff] at h
  obtain ⟨missions, hmissions, tasks, htasks, leases, -, dispatches, -, hdb⟩ := h
  obtain rfl := Option.some.inj hdb
  exact ⟨hmissions, htasks⟩

theorem merge_taskKeys (h : Db.merge own base new cur = some db)
    (hkeys : new.taskKeys = base.taskKeys) : db.taskKeys = cur.taskKeys := by
  obtain ⟨-, htasks⟩ := merge_eq_some h
  rw [Rows.merge_eq_update] at htasks
  · have hlist := congrArg Rows.list (Option.some.inj htasks)
    rw [Db.taskKeys, ← hlist, Rows.update, List.map_map]
    apply List.map_congr_left
    intro c _
    simp only [Function.comp_apply]
    split
    next b n hb hn =>
      obtain ⟨n', hn', hmission, htenant⟩ := columns_of_taskKeys hkeys hb
      obtain rfl := Option.some.inj (hn'.symm.trans hn)
      obtain ⟨hm, ht⟩ : ((mergeTask own).apply b n' c).missionId = c.missionId ∧
          ((mergeTask own).apply b n' c).tenantId = c.tenantId :=
        mergeTask_columns hmission htenant
      have hid : ((mergeTask own).apply b n' c).id = c.id := (mergeTask own).key_apply b n' c
      rw [hid, hm, ht]
    · rfl
  · intro n hn
    obtain ⟨b, hb, -⟩ := columns_of_taskKeys hkeys.symm (Rows.get_of_mem hn)
    rw [hb]
    rfl

theorem sameMission_iff {db db' : Db} : sameMission missionId db db' = true ↔
    db'.missions.get missionId = db.missions.get missionId ∧
      db'.listForMission missionId = db.listForMission missionId := by
  simp [sameMission]

/-- A transaction that has not written the mission leaves it as it is committed. -/
theorem merge_of_unwritten (h : Db.merge own base new cur = some db)
    (hnew : new.taskKeys = base.taskKeys) (hcur : cur.taskKeys = base.taskKeys)
    (hsame : sameMission missionId base new = true) : sameMission missionId cur db = true := by
  obtain ⟨hmissions, htasks⟩ := merge_eq_some h
  obtain ⟨hmission, hlist⟩ := sameMission_iff.1 hsame
  refine sameMission_iff.2 ⟨Rows.get_merge_of_same hmissions hmission, ?_⟩
  apply listForMission_congr (merge_taskKeys h hnew)
  intro k hk hkMission
  rw [hcur] at hk
  exact Rows.get_merge_of_same htasks (get_eq_of_listForMission hlist hk hkMission)

/-- A transaction that commits over the mission as it has read it writes what it has made. -/
theorem merge_of_asRead (h : Db.merge own base new cur = some db)
    (hnew : new.taskKeys = base.taskKeys) (hcur : cur.taskKeys = base.taskKeys)
    {mission : Mission} (hrow : new.missions.get missionId = some mission)
    (hsame : sameMission missionId base cur = true) : sameMission missionId new db = true := by
  obtain ⟨hmissions, htasks⟩ := merge_eq_some h
  obtain ⟨hmission, hlist⟩ := sameMission_iff.1 hsame
  refine sameMission_iff.2 ⟨?_, ?_⟩
  · rw [hrow]
    exact Rows.get_merge_of_base hmissions (fun _ _ => mergeMission_base) hrow hmission
  · apply listForMission_congr ((merge_taskKeys h hnew).trans (hcur.trans hnew.symm))
    intro k hk hkMission
    obtain ⟨n, hn, rfl⟩ := List.mem_map.1 hk
    have hget : new.tasks.get n.id = some n := Rows.get_of_mem hn
    rw [hnew] at hk
    rw [hget]
    exact Rows.get_merge_of_base htasks (fun _ _ => mergeTask_base) hget
      (get_eq_of_listForMission hlist hk hkMission)

theorem coherent_of_sameMission {db db' : Db} (h : sameMission missionId db db' = true)
    (hcoherent : MissionCoherent env tenantId missionId db) :
    MissionCoherent env tenantId missionId db' := by
  obtain ⟨hmission, hlist⟩ := sameMission_iff.1 h
  rw [MissionCoherent, hmission, hlist]
  exact hcoherent

/-- A transaction that leaves an open task behind leaves its mission under way. -/
theorem merge_of_leavesOpen (h : Db.merge own base new cur = some db)
    (hnew : new.taskKeys = base.taskKeys)
    (hcoherentNew : MissionCoherent env tenantId missionId new)
    (hcoherentCur : MissionCoherent env tenantId missionId cur)
    (hleaves : leavesOpen missionId base new cur = true) :
    MissionCoherent env tenantId missionId db := by
  obtain ⟨hmissions, htasks⟩ := merge_eq_some h
  obtain ⟨t, ht, hleft⟩ := List.any_eq_true.1 hleaves
  simp only [Bool.and_eq_true, Bool.not_eq_true', decide_eq_true_eq, Option.any_eq_true] at hleft
  obtain ⟨⟨htOpen, htCur⟩, n, hn, hnOpen⟩ := hleft
  have hbase : base.tasks.get t.id = some t := get_of_listForMission ht
  have hkept : db.tasks.get t.id = some n :=
    Rows.get_merge_of_base htasks (fun _ _ => mergeTask_base) hn (htCur.trans hbase.symm)
  obtain ⟨n', hn', hnMission, -⟩ := columns_of_taskKeys hnew hbase
  obtain rfl : n' = n := Option.some_inj.1 (hn'.symm.trans hn)
  have htMission : t.missionId = missionId := missionId_of_mem ht
  have hnMember : n'.missionId = missionId := hnMission.trans htMission
  obtain ⟨m, hm, hmTenant, hmOpen⟩ : Underway tenantId missionId new :=
    underway_of_coherent (s := new.open) hcoherentNew (mem_listForMission hn hnMember) hnOpen
  obtain ⟨c, hc, hcTenant, hcOpen⟩ : Underway tenantId missionId cur :=
    underway_of_coherent (s := cur.open) hcoherentCur (mem_listForMission htCur htMission) htOpen
  have hmerged := Rows.get_merge hmissions hc
  rw [hm] at hmerged
  cases hb : base.missions.get missionId with
  | none =>
    rw [hb] at hmerged
    exact ⟨c, hmerged, hcTenant, Or.inl ⟨hcOpen, n', mem_listForMission hkept hnMember, hnOpen⟩⟩
  | some b =>
    rw [hb] at hmerged
    refine ⟨_, hmerged, ?_, Or.inl ⟨?_, n', mem_listForMission hkept hnMember, hnOpen⟩⟩
    · change column b.tenantId m.tenantId c.tenantId = tenantId
      rcases column_cases b.tenantId m.tenantId c.tenantId with heq | ⟨-, heq⟩
      · rw [heq, hcTenant]
      · rw [heq, hmTenant]
    · change (column b.status m.status c.status).terminal = false
      rcases column_cases b.status m.status c.status with heq | ⟨-, heq⟩
      · rw [heq, hcOpen]
      · rw [heq, hmOpen]

/-- A safe commit keeps the mission coherent. -/
theorem merge_coherent (h : Db.merge own base new cur = some db)
    (hnew : new.taskKeys = base.taskKeys) (hcur : cur.taskKeys = base.taskKeys)
    (hcoherentNew : MissionCoherent env tenantId missionId new)
    (hcoherentCur : MissionCoherent env tenantId missionId cur)
    (hsafe : commitSafe missionId base new cur = true) :
    MissionCoherent env tenantId missionId db := by
  simp only [commitSafe, Bool.or_eq_true] at hsafe
  rcases hsafe with (hunwritten | hread) | hleaves
  · exact coherent_of_sameMission (merge_of_unwritten h hnew hcur hunwritten) hcoherentCur
  · obtain ⟨m, hm, -⟩ := id hcoherentNew
    exact coherent_of_sameMission (merge_of_asRead h hnew hcur hm hread) hcoherentNew
  · exact merge_of_leavesOpen h hnew hcoherentNew hcoherentCur hleaves

end Merge

/-- The mission is coherent, as committed and in every open transaction. -/
structure ClusterCoherent (env : Env) (tenantId missionId : String)
    (keys : List (String × String × String)) (c : Cluster) : Prop where
  columns : c.world.db.taskKeys = keys
  coherent : MissionCoherent env tenantId missionId c.world.db
  opened : ∀ p tx, c.flights p = some (.opened tx) → tx.base.taskKeys = keys ∧
    tx.session.db.taskKeys = keys ∧ MissionCoherent env tenantId missionId tx.session.db

section Runs
variable {cfg : Config} {env : Env} {tenantId missionId : String}
  {keys : List (String × String × String)} {c : Cluster}

theorem ClusterCoherent.setFlight (h : ClusterCoherent env tenantId missionId keys c) (p : String)
    {flight : Option Flight} (hflight : ∀ tx, flight = some (.opened tx) →
      tx.base.taskKeys = keys ∧ tx.session.db.taskKeys = keys ∧
        MissionCoherent env tenantId missionId tx.session.db) :
    ClusterCoherent env tenantId missionId keys (c.setFlight p flight) := by
  refine ⟨h.columns, h.coherent, fun q tx hq => ?_⟩
  simp only [Cluster.setFlight] at hq
  split_ifs at hq
  · exact hflight tx hq
  · exact h.opened q tx hq

theorem ClusterCoherent.setWorld (h : ClusterCoherent env tenantId missionId keys c)
    {world : World} (hkeys : world.db.taskKeys = keys)
    (hcoherent : MissionCoherent env tenantId missionId world.db) :
    ClusterCoherent env tenantId missionId keys (c.setWorld world) :=
  ⟨hkeys, hcoherent, h.opened⟩

theorem ClusterCoherent.setQueue (h : ClusterCoherent env tenantId missionId keys c)
    (queue : Store) :
    ClusterCoherent env tenantId missionId keys (c.setWorld { c.world with queue }) :=
  h.setWorld h.columns h.coherent

/-- A transaction that opens on the committed rows. -/
theorem ClusterCoherent.openWorked (h : ClusterCoherent env tenantId missionId keys c)
    (htasks : ∀ k ∈ keys, k.2.1 = missionId → k.2.2 = tenantId) (p own : String) {s : Session}
    {last abort : Option RedisQueue.Op} (hworked : Worked env c.world.db.open s) :
    ClusterCoherent env tenantId missionId keys
      (c.setFlight p (some (.opened ⟨c.world.db, s, own, last, abort⟩))) := by
  apply h.setFlight
  intro tx htx
  obtain rfl := Flight.opened.inj (Option.some.inj htx)
  have hkeys : s.db.taskKeys = keys := hworked.taskKeys.trans h.columns
  refine ⟨h.columns, hkeys, hworked.coherent ?_ h.coherent⟩
  intro k hk
  exact htasks k (h.columns ▸ hk)

theorem commitOpened_coherent (h : ClusterCoherent env tenantId missionId keys c) {p : String}
    {tx : OpenTransaction} (htx : c.flights p = some (.opened tx))
    (hsafe : commitSafe missionId tx.base tx.session.db c.world.db = true) :
    ClusterCoherent env tenantId missionId keys (commitOpened c p tx) := by
  obtain ⟨hbase, hnew, hcoherent⟩ := h.opened p tx htx
  unfold commitOpened
  split
  next db hmerge =>
    apply ClusterCoherent.setFlight
    · apply h.setWorld
      · exact (merge_taskKeys hmerge (hnew.trans hbase.symm)).trans h.columns
      · exact merge_coherent hmerge (hnew.trans hbase.symm) (h.columns.trans hbase.symm) hcoherent
          h.coherent hsafe
    · simp
  · apply h.setFlight
    simp

theorem openClaim_coherent (h : ClusterCoherent env tenantId missionId keys c)
    (htasks : ∀ k ∈ keys, k.2.1 = missionId → k.2.2 = tenantId)
    (p : String) (amb : Ambient) (taskId workerId leaseId : String) (recent : Bool) :
    ClusterCoherent env tenantId missionId keys
      (openClaim cfg env c p amb taskId workerId leaseId recent) := by
  unfold openClaim
  dsimp only
  split
  · exact h.setFlight p (by simp)
  · exact h.setFlight p (by simp)
  · exact h.setFlight p (by simp)
  next hclaim => exact h.openWorked htasks p _ (claimTask_worked hclaim)
  next hclaim => exact h.openWorked htasks p _ (claimTask_worked hclaim)
  next hclaim => exact h.openWorked htasks p _ (claimTask_worked hclaim)

theorem openWork_coherent (h : ClusterCoherent env tenantId missionId keys c)
    (htasks : ∀ k ∈ keys, k.2.1 = missionId → k.2.2 = tenantId) (p leaseId : String)
    {result : Except Error Session} {last : String → Option RedisQueue.Op}
    (hworked : ∀ s, result = .ok s → Worked env c.world.db.open s) :
    ClusterCoherent env tenantId missionId keys (openWork c p leaseId result last) := by
  unfold openWork
  split
  next s _ => exact h.openWorked htasks p _ (hworked s rfl)
  · exact h

theorem publishNext_coherent (h : ClusterCoherent env tenantId missionId keys c)
    (p dispatchId : String) (dispatchIds : List String) (last : Option RedisQueue.Op) :
    ClusterCoherent env tenantId missionId keys
      (publishNext cfg c p dispatchId dispatchIds last) := by
  unfold publishNext
  split
  · exact h.setFlight p (by simp)
  · split_ifs
    · exact h.setFlight p (by simp)
    · split
      · exact (h.setQueue _).setFlight p (by simp)
      · exact (h.setQueue _).setFlight p (by simp)

theorem acknowledgePublished_coherent (h : ClusterCoherent env tenantId missionId keys c)
    (p : String) (dispatch : RuntimeQueueDispatch) (dispatchIds : List String)
    (last : Option RedisQueue.Op) :
    ClusterCoherent env tenantId missionId keys
      (acknowledgePublished c p dispatch dispatchIds last) := by
  unfold acknowledgePublished
  dsimp only
  apply ClusterCoherent.setFlight
  · apply h.setWorld
    · split
      · exact h.columns
      · exact h.columns
    · split
      · exact h.coherent
      · exact h.coherent
  · simp

theorem takeMessage_coherent (h : ClusterCoherent env tenantId missionId keys c)
    (p workerId : String) :
    ClusterCoherent env tenantId missionId keys (takeMessage cfg c p workerId) := by
  unfold takeMessage
  split
  · dsimp only
    split
    · exact h.setQueue _
    · exact (h.setQueue _).setFlight p (by simp)
  · exact h.setQueue _

theorem finishCall_coherent (h : ClusterCoherent env tenantId missionId keys c) (p : String)
    (last : Option RedisQueue.Op) :
    ClusterCoherent env tenantId missionId keys (finishCall cfg c p last) := by
  unfold finishCall
  apply ClusterCoherent.setFlight
  · split
    · exact h
    · exact h.setQueue _
  · simp

/-- One step of a process, safe when it commits. -/
theorem step_coherent (h : ClusterCoherent env tenantId missionId keys c)
    (htasks : ∀ k ∈ keys, k.2.1 = missionId → k.2.2 = tenantId) {m : Move}
    (hsafe : c.safeMove missionId m = true) :
    ClusterCoherent env tenantId missionId keys (c.step cfg env m) := by
  unfold Cluster.safeMove at hsafe
  unfold Cluster.step
  dsimp only
  split
  · exact takeMessage_coherent h _ _
  · exact openClaim_coherent h htasks _ _ _ _ _ _
  · exact openWork_coherent h htasks _ _ fun _ hs => startExecution_worked hs
  · exact openWork_coherent h htasks _ _ fun _ hs => complete_worked hs
  · exact openWork_coherent h htasks _ _ fun _ hs => fail_worked hs
  · exact h.setFlight _ (by simp)
  next haction htx =>
    rw [haction, htx] at hsafe
    exact commitOpened_coherent h htx hsafe
  · exact publishNext_coherent h _ _ _ _
  · exact acknowledgePublished_coherent h _ _ _ _
  · exact finishCall_coherent h _ _
  · exact h

theorem run_coherent (htasks : ∀ k ∈ keys, k.2.1 = missionId → k.2.2 = tenantId)
    {moves : List Move} (h : ClusterCoherent env tenantId missionId keys c)
    (hsafe : c.safeRun cfg env missionId moves = true) :
    ClusterCoherent env tenantId missionId keys (c.run cfg env moves) := by
  induction moves generalizing c with
  | nil => exact h
  | cons m moves ih =>
    rw [Cluster.safeRun, Bool.and_eq_true] at hsafe
    exact ih (step_coherent h htasks hsafe.1) hsafe.2

end Runs

/-- The mission waits for tasks, all of its tenant. -/
structure MissionStarted (tenantId missionId : String) (db : Db) : Prop where
  underway : Underway tenantId missionId db
  tasks : ∀ t ∈ db.listForMission missionId, t.tenantId = tenantId
  waits : ∃ t ∈ db.listForMission missionId, t.status.terminal = false

/-- Once its tasks are terminal the mission is completed or failed, with an acceptance evaluated
over its tasks. -/
def RolledUp (env : Env) (missionId : String) (c : Cluster) : Prop :=
  (∀ p tx, c.flights p ≠ some (.opened tx)) → AllTerminal (c.world.db.listForMission missionId) →
    ∃ mission, c.world.db.missions.get missionId = some mission ∧
      MissionFinished env mission (c.world.db.listForMission missionId)

theorem mission_rolled_up (cfg : Config) (env : Env) {tenantId missionId : String} (world : World)
    (hstarted : MissionStarted tenantId missionId world.db) (moves : List Move)
    (hsafe : (Cluster.idle world).safeRun cfg env missionId moves = true) :
    RolledUp env missionId ((Cluster.idle world).run cfg env moves) := by
  intro _ hall
  have hidle : ClusterCoherent env tenantId missionId world.db.taskKeys (Cluster.idle world) := by
    refine ⟨rfl, ?_, ?_⟩
    · obtain ⟨mission, hrow, htenant, hopen⟩ := hstarted.underway
      exact ⟨mission, hrow, htenant, Or.inl ⟨hopen, hstarted.waits⟩⟩
    · intro p tx htx
      cases htx
  have htasks : ∀ k ∈ world.db.taskKeys, k.2.1 = missionId → k.2.2 = tenantId := by
    intro k hk hmission
    obtain ⟨t, ht, rfl⟩ := List.mem_map.1 hk
    exact hstarted.tasks t (List.mem_filter.2 ⟨ht, by simpa using hmission⟩)
  obtain ⟨mission, hrow, -, ⟨-, t, ht, hopen⟩ | ⟨-, hfinished⟩⟩ :=
    (run_coherent htasks hidle hsafe).coherent
  · rw [hall t ht] at hopen
    cases hopen
  · exact ⟨mission, hrow, hfinished⟩

/-- Two workers each run one of the two tasks of a mission. -/
def sharedMission : List Transaction :=
  [.createMission ⟨"mission", "tenant", .queued, []⟩, .createTask (sampleTask "a" .planned []),
    .createTask (sampleTask "b" .planned []), .queueTask "tenant" "a" .admitted true,
    .queueTask "tenant" "b" .admitted true,
    .claim (fun _ => false) "tenant" "a" "first" "lease-a", .start "tenant" "lease-a" "first",
    .claim (fun _ => false) "tenant" "b" "second" "lease-b", .start "tenant" "lease-b" "second"]

def sharedWorld : World := ⟨exec (commit Env.plain) Db.empty (callsOf sharedMission), .empty⟩

def moveOf (process : String) (action : Action) : Move :=
  ⟨process, ⟨"now", fun _ => "dispatch"⟩, fun _ => show ':' ∉ "dispatch".toList by decide, action⟩

/-- Both workers complete their tasks before either commits. -/
def completedTogether : List Move :=
  [moveOf "first" (.complete "lease-a" "first" none none none),
    moveOf "second" (.complete "lease-b" "second" none none none),
    moveOf "first" .commit, moveOf "second" .commit, moveOf "first" .finish,
    moveOf "second" .finish]

/-- The second worker completes its task after the first has committed. -/
def completedInTurn : List Move :=
  [moveOf "first" (.complete "lease-a" "first" none none none), moveOf "first" .commit,
    moveOf "second" (.complete "lease-b" "second" none none none), moveOf "second" .commit]

/-- A step moves its own process only. -/
theorem step_flights_ne (cfg : Config) (env : Env) (c : Cluster) {m : Move} {q : String}
    (hne : q ≠ m.process) : (c.step cfg env m).flights q = c.flights q := by
  have hset : ∀ (c : Cluster) (flight : Option Flight),
      (c.setFlight m.process flight).flights q = c.flights q := by
    intro c flight
    simp [Cluster.setFlight, hne]
  unfold Cluster.step
  dsimp only
  split
  · unfold takeMessage
    split
    · dsimp only
      split
      · rfl
      · exact hset _ _
    · rfl
  · unfold openClaim
    dsimp only
    split <;> exact hset _ _
  · unfold openWork
    split
    · exact hset _ _
    · rfl
  · unfold openWork
    split
    · exact hset _ _
    · rfl
  · unfold openWork
    split
    · exact hset _ _
    · rfl
  · exact hset _ _
  · unfold commitOpened
    split <;> exact hset _ _
  · unfold publishNext
    split
    · exact hset _ _
    · split_ifs
      · exact hset _ _
      · split <;> exact hset _ _
  · exact hset _ _
  · unfold finishCall
    split <;> exact hset _ _
  · rfl

theorem run_flights_ne (cfg : Config) (env : Env) {q : String} {moves : List Move} {c : Cluster}
    (hne : ∀ m ∈ moves, q ≠ m.process) : (c.run cfg env moves).flights q = c.flights q := by
  induction moves generalizing c with
  | nil => rfl
  | cons m moves ih =>
    exact (ih fun n hn => hne n (by simp [hn])).trans (step_flights_ne cfg env c (hne m (by simp)))

/-- Both completions leave the other task open, and nobody ends the mission. -/
theorem completed_together_not_rolled_up :
    ¬RolledUp Env.plain "mission"
      ((Cluster.idle sharedWorld).run ⟨"tenant", 30⟩ Env.plain completedTogether) := by
  intro h
  have hcommitted : ∀ p tx, ((Cluster.idle sharedWorld).run ⟨"tenant", 30⟩ Env.plain
      completedTogether).flights p ≠ some (.opened tx) := by
    intro p tx htx
    have hprocess : ∀ q ∈ ["first", "second"], (((Cluster.idle sharedWorld).run ⟨"tenant", 30⟩
        Env.plain completedTogether).flights q).isNone = true := by
      decide +kernel
    by_cases hp : p ∈ ["first", "second"]
    · have hnone := hprocess p hp
      rw [htx] at hnone
      cases hnone
    · rw [run_flights_ne] at htx
      · cases htx
      · intro m hm heq
        have hmem : m.process ∈ ["first", "second"] := by
          simp only [completedTogether, moveOf, List.mem_cons, List.not_mem_nil, or_false] at hm
          rcases hm with rfl | rfl | rfl | rfl | rfl | rfl <;> simp
        exact hp (heq ▸ hmem)
  have hterminal : AllTerminal (((Cluster.idle sharedWorld).run ⟨"tenant", 30⟩ Env.plain
      completedTogether).world.db.listForMission "mission") := by
    unfold AllTerminal
    decide +kernel
  have hrunning : (((Cluster.idle sharedWorld).run ⟨"tenant", 30⟩ Env.plain
      completedTogether).world.db.missions.get "mission").map Mission.status =
      some .running := by
    decide +kernel
  obtain ⟨mission, hrow, hfinished⟩ := h hcommitted hterminal
  rw [hrow] at hrunning
  have hstatus : mission.status = .running := Option.some_inj.1 hrunning
  rcases hfinished.status with hended | hended
  · rw [hstatus] at hended
    cases hended
  · rw [hstatus] at hended
    cases hended

theorem completed_in_turn_rolled_up :
    RolledUp Env.plain "mission"
      ((Cluster.idle sharedWorld).run ⟨"tenant", 30⟩ Env.plain completedInTurn) := by
  have hmission : (sharedWorld.db.missions.get "mission").map
      (fun m => (m.tenantId, m.status.terminal)) = some ("tenant", false) := by
    decide +kernel
  obtain ⟨mission, hrow, hcolumns⟩ := Option.map_eq_some_iff.1 hmission
  simp only [Prod.mk.injEq] at hcolumns
  have hstarted : MissionStarted "tenant" "mission" sharedWorld.db := by
    refine ⟨⟨mission, hrow, hcolumns⟩, ?_, ?_⟩
    · decide +kernel
    · decide +kernel
  apply mission_rolled_up _ _ sharedWorld hstarted
  decide +kernel

end Ajenda.Runtime
