import Ajenda.MissionInputBinding
import Ajenda.RollupReturns

/-!
# Readiness in the rollup and in a claim

A claim waits as long as `pendingDependencyKeys` is not empty; the rollup re-admits a waiting
dependent when `dependenciesCompleted` holds. What the rollup re-admits a claim accepts, but a
claim also accepts tasks that the rollup leaves waiting: the rollup takes the last task filed
under the key as it is written, a claim any completed task under the stripped key.
-/
namespace Ajenda.Runtime
open JsonValue KeyedRows Relation FailurePropagation

/-! ## What a claim finds under a key -/

section Index
variable {tasks : List ExecutionTask} {key : String}

end Index

/-! ## What a rollup makes of a waiting dependent -/

/-- What a rollup has made of a dependent so far: a ready one is waiting or queued again, the
others have kept their mark or their deferral. -/
structure Treated (env : Env) (origin : List ExecutionTask) (t t' : ExecutionTask) : Prop where
  same : SameNode t t'
  ready : dependenciesCompleted env origin t = true → AwaitsReadmission t →
    t'.status = .queued ∨ t'.status = .blocked ∧ t'.blockedByDependencyFailure.isSome = true
  blocked : dependenciesCompleted env origin t = false → t.status = .blocked → t' = t
  deferred : dependenciesCompleted env origin t = false → t.dependencyDeferred = true →
    t'.dependencyDeferred = true

section Calls
variable {env : Env} {amb : Ambient} {now : String} {s s' : Session} {task : ExecutionTask}
  {origin siblings : List ExecutionTask}

theorem Treated.refl (env : Env) (origin : List ExecutionTask) (t : ExecutionTask) :
    Treated env origin t t :=
  ⟨.refl t, fun _ h => h.elim (fun h => .inl h.1) .inr, fun _ _ => rfl, fun _ h => h⟩

/-- Blocking a dependent that is not ready keeps its deferral. -/
theorem Treated.block {failedKeys : List String} {t u : ExecutionTask}
    (h : Treated env origin t u) (hblockable : blockable env failedKeys u = true)
    (hnot : dependenciesCompleted env origin t = false) :
    Treated env origin t (blockDependent env failedKeys u) := by
  have hstatus := blockable_status hblockable
  refine ⟨h.same.trans (blockDependent_same hstatus), ?_, ?_, ?_⟩
  · simp [hnot]
  · intro _ hblocked
    rw [h.blocked hnot hblocked, hblocked] at hstatus
    simp at hstatus
  · intro _ hdeferred
    rw [dependencyDeferred_block]
    exact h.deferred hnot hdeferred

end Calls

/-! ## Agreement -/

section Agreement
variable {env : Env} {amb : Ambient} {s s' : Session} {task t : ExecutionTask} {fuel : ℕ}

end Agreement

/-! ## A node key filed twice -/

end Ajenda.Runtime
