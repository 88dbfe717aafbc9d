import Ajenda.NeedRecognition
import Ajenda.TransitionSystem
import Mathlib.Data.Fintype.Basic

/-!
# Transactions that append need revisions

Any number of transactions at READ COMMITTED: each statement reads the committed rows and those of
its own transaction, a row lock is waited for after the row was read, and an insert waits while
another transaction holds its unique key. Callers set and undo savepoints, and a transaction may be
rolled back at any moment, as a victim of a deadlock is. Row ids count the inserts. A session that
has loaded a pairing before may read its old status under the lock.
-/
namespace Ajenda.NeedTransactions
open NeedRecognition (Text NeedValues NeedStatus)

section Rows

structure BusinessNeedRevision where
  id : ℕ
  needId : Text
  revision : ℕ
  previousRevisionId : Option ℕ
  values : NeedValues
  /-- The pairing whose impact the row records. -/
  impactOf : Option ℕ

/-- A pairing's id is its position. -/
structure BusinessMeasurementPairing where
  needId : Text
  needRevision : ℕ
  needRevisionId : ℕ
  impactRevisionId : Option ℕ

inductive AppendError
  | conflict (expectedRevision currentRevision : ℕ)
  | integrity

inductive Resource
  | need (id : ℕ)
  | pairing (id : ℕ)
  deriving DecidableEq

/-- A call of `append_need_revision`, with the rows that its transaction had inserted before. -/
structure Append where
  needId : Text
  expectedRevision : ℕ
  values : NeedValues
  impactOf : Option ℕ
  before : List BusinessNeedRevision

/-- Where a transaction stands in a call. -/
inductive Stage
  | idle
  | called (a : Append)
  | selected (a : Append) (latest : Option BusinessNeedRevision)
  | locked (a : Append) (latest : Option BusinessNeedRevision)
  | refused (a : Append)
  | appended (pairingId : ℕ) (row : BusinessNeedRevision)

/-- What a transaction has done: inserted rows, evaluated pairings and locks. -/
structure Work where
  needs : List BusinessNeedRevision
  evaluated : List (ℕ × ℕ)
  locks : List Resource

structure Transaction where
  work : Work
  savepoints : List Work
  stage : Stage

def Transaction.fresh : Transaction := ⟨⟨[], [], []⟩, [], .idle⟩

/-- A call that returned or raised, with the rows of its transaction then. -/
structure Returned (τ : Type) where
  transaction : τ
  append : Append
  after : List BusinessNeedRevision
  result : Except AppendError BusinessNeedRevision

structure World (τ : Type) where
  needs : List BusinessNeedRevision
  pairings : List BusinessMeasurementPairing
  transactions : τ → Transaction
  next : ℕ
  returned : List (Returned τ)
  /-- The inserts that were rolled back. -/
  undone : List ℕ

def World.start (τ : Type) : World τ := ⟨[], [], fun _ => .fresh, 0, [], []⟩

def latest (rows : List BusinessNeedRevision) (needId : Text) : Option BusinessNeedRevision :=
  (rows.filter fun row => row.needId = needId).argmax fun row => row.revision

/-- The rows have the unique key. -/
def taken (rows : List BusinessNeedRevision) (needId : Text) (revision : ℕ) : Bool :=
  rows.any fun row => row.needId = needId ∧ row.revision = revision

end Rows

section Steps
variable {τ : Type} [DecidableEq τ] (w : World τ) (t : τ)

def World.own : List BusinessNeedRevision := (w.transactions t).work.needs

def World.visible : List BusinessNeedRevision := w.needs ++ w.own t

def World.set (tx : Transaction) : World τ :=
  { w with transactions := Function.update w.transactions t tx }

def World.enter (stage : Stage) : World τ := w.set t { w.transactions t with stage := stage }

def World.takeLock (resource : Resource) (stage : Stage) : World τ :=
  let tx := w.transactions t
  w.set t { tx with work := { tx.work with locks := tx.work.locks ++ [resource] }, stage := stage }

def World.undo (rows : List BusinessNeedRevision) : World τ :=
  { w with undone := w.undone ++ rows.map (·.id) }

/-- Back to the last savepoint. -/
def World.rollbackTo : World τ :=
  match (w.transactions t).savepoints with
  | [] => w
  | saved :: rest =>
    (w.undo ((w.own t).drop saved.needs.length)).set t ⟨saved, rest, .idle⟩

/-- The last savepoint is released. -/
def World.release : World τ :=
  let tx := w.transactions t
  w.set t ⟨tx.work, tx.savepoints.tail, .idle⟩

def World.savepoint (stage : Stage) : World τ :=
  let tx := w.transactions t
  w.set t ⟨tx.work, tx.work :: tx.savepoints, stage⟩

/-- A call returns or raises; inside `record_canonical_measurement_impact` an error undoes the
savepoint. -/
def World.finish (a : Append) (result : Except AppendError BusinessNeedRevision) : World τ :=
  let w : World τ := { w with returned := w.returned ++ [⟨t, a, w.own t, result⟩] }
  match a.impactOf, result with
  | none, _ => w.enter t .idle
  | some pairingId, .ok row => w.enter t (.appended pairingId row)
  | some _, .error _ => w.rollbackTo t

/-- The new row is flushed. -/
def World.insert (row : BusinessNeedRevision) : World τ :=
  let tx := w.transactions t
  { w.set t { tx with work := { tx.work with needs := tx.work.needs ++ [row] } } with
    next := w.next + 1 }

def nextRow (id : ℕ) (a : Append) (latest : Option BusinessNeedRevision) : BusinessNeedRevision :=
  ⟨id, a.needId, (latest.map (·.revision)).getD 0 + 1, latest.map (·.id), a.values, a.impactOf⟩

variable [Fintype τ]

def World.free (resource : Resource) : Bool :=
  decide (∀ t', t' ≠ t → resource ∉ (w.transactions t').work.locks)

/-- Another transaction has inserted the unique key and has not ended. -/
def World.awaited (row : BusinessNeedRevision) : Bool :=
  decide (∃ t', t' ≠ t ∧ taken (w.own t') row.needId row.revision = true)

/-- The statement that reads the latest revision. -/
def World.select : World τ :=
  match (w.transactions t).stage with
  | .called a => w.enter t (.selected a (latest (w.visible t) a.needId))
  | _ => w

/-- The lock on the row that was read; a first revision has none. -/
def World.lock : World τ :=
  match (w.transactions t).stage with
  | .selected a none => w.enter t (.locked a none)
  | .selected a (some row) =>
    if w.free t (.need row.id) then w.takeLock t (.need row.id) (.locked a (some row)) else w
  | _ => w

/-- The revision check and the insert in its savepoint. -/
def World.flush : World τ :=
  match (w.transactions t).stage with
  | .locked a latest =>
    let current := (latest.map (·.revision)).getD 0
    if current ≠ a.expectedRevision then
      w.finish t a (.error (.conflict a.expectedRevision current))
    else
      let row := nextRow w.next a latest
      if w.awaited t row then w
      else if taken (w.visible t) row.needId row.revision then w.enter t (.refused a)
      else (w.insert t row).finish t a (.ok row)
  | _ => w

/-- After an integrity error the latest revision is read again. -/
def World.reread : World τ :=
  match (w.transactions t).stage with
  | .refused a =>
    match latest (w.visible t) a.needId with
    | some row => w.finish t a (.error (.conflict a.expectedRevision row.revision))
    | none => w.finish t a (.error .integrity)
  | _ => w

/-- The impact revision that a transaction reads of a pairing. -/
def World.impactRevisionId (pairingId : ℕ) (p : BusinessMeasurementPairing) : Option ℕ :=
  (((w.transactions t).work.evaluated.reverse.find? (·.1 = pairingId)).map (·.2)).or
    p.impactRevisionId

/-- The checks of `record_canonical_measurement_impact` on its pairing, up to the nested append; what
it checks besides may refuse it before. -/
def World.checkPairing (pairingId expected : ℕ) (stale : Bool) (values : NeedValues) : World τ :=
  match w.pairings[pairingId]?,
      (w.pairings[pairingId]?).bind fun p =>
        (w.visible t).find? fun row => row.needId = p.needId ∧ row.revision = expected with
  | some p, some current =>
    if Resource.pairing pairingId ∈ (w.transactions t).work.locks ∧
        p.needRevisionId = current.id ∧ p.needRevision = current.revision ∧
        (stale = true ∨ w.impactRevisionId t pairingId p = none) ∧
        (latest (w.visible t) p.needId).map (·.id) = some current.id ∧
        current.values.status ≠ .superseded then
      w.savepoint t (.called ⟨p.needId, expected, values, some pairingId, w.own t⟩)
    else w
  | _, _ => w

/-- The pairings with the evaluations of a transaction. -/
def evaluatePairings (evaluated : List (ℕ × ℕ)) (pairings : List BusinessMeasurementPairing) :
    List BusinessMeasurementPairing :=
  evaluated.foldl (fun pairings e =>
    pairings.modify e.1 fun p => { p with impactRevisionId := some e.2 }) pairings

/-- The pairing is evaluated and the savepoint released. -/
def World.evaluate : World τ :=
  match (w.transactions t).stage with
  | .appended pairingId row =>
    let tx := w.transactions t
    (w.set t { tx with
      work := { tx.work with evaluated := tx.work.evaluated ++ [(pairingId, row.id)] } }).release t
  | _ => w

def World.commit : World τ :=
  let work := (w.transactions t).work
  { w.set t .fresh with
    needs := w.needs ++ work.needs
    pairings := evaluatePairings work.evaluated w.pairings }

def World.rollback : World τ := (w.undo (w.own t)).set t .fresh

inductive Action (τ : Type)
  /-- A pairing is committed. -/
  | accept (needId : Text) (needRevision needRevisionId : ℕ)
  | append (t : τ) (needId : Text) (expected : ℕ) (values : NeedValues)
  | select (t : τ)
  | lock (t : τ)
  | flush (t : τ)
  | reread (t : τ)
  | lockPairing (t : τ) (pairingId : ℕ)
  | checkPairing (t : τ) (pairingId expected : ℕ) (stale : Bool) (values : NeedValues)
  | evaluate (t : τ)
  /-- The evaluation fails after the append. -/
  | failImpact (t : τ)
  | savepoint (t : τ)
  | rollbackTo (t : τ)
  | release (t : τ)
  | commit (t : τ)
  | rollback (t : τ)

def Stage.isIdle : Stage → Bool
  | .idle => true
  | _ => false

def Stage.isAppended : Stage → Bool
  | .appended _ _ => true
  | _ => false

def World.idle : Bool := (w.transactions t).stage.isIdle

/-- What is not enabled waits. -/
def World.step (w : World τ) : Action τ → World τ
  | .accept needId needRevision needRevisionId =>
    { w with pairings := w.pairings ++ [⟨needId, needRevision, needRevisionId, none⟩] }
  | .append t needId expected values =>
    if w.idle t then w.enter t (.called ⟨needId, expected, values, none, w.own t⟩) else w
  | .select t => w.select t
  | .lock t => w.lock t
  | .flush t => w.flush t
  | .reread t => w.reread t
  | .lockPairing t pairingId =>
    if w.idle t ∧ w.free t (.pairing pairingId) then w.takeLock t (.pairing pairingId) .idle else w
  | .checkPairing t pairingId expected stale values =>
    if w.idle t then w.checkPairing t pairingId expected stale values else w
  | .evaluate t => w.evaluate t
  | .failImpact t => if (w.transactions t).stage.isAppended then w.rollbackTo t else w
  | .savepoint t => if w.idle t then w.savepoint t .idle else w
  | .rollbackTo t => if w.idle t then w.rollbackTo t else w
  | .release t => if w.idle t then w.release t else w
  | .commit t => if w.idle t then w.commit t else w
  | .rollback t => w.rollback t

end Steps

end Ajenda.NeedTransactions
