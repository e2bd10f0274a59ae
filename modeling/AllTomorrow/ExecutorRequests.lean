import AllTomorrow.ExecutorLoop

/-!
# What the executor requests for one Work

Whatever the store, the worker and the artifact store answer, the executor moves and
asks only about the Work in hand, and hands only that Work to a worker.
-/

namespace AllTomorrow

open Prog

def executorWorkTargets : List WorkStatus := [.succeeded, .failed, .waiting]

def executorRunTargets : List RunStatus := [.running, .succeeded, .failed, .waiting]

/-- The store calls that the executor makes for the Work, with the Runs that it moves. -/
def StoreOp.ByExecutor (k : WorkId) (runs : RunId → Prop) : StoreOp → Prop
  | .createRun run _ => run.workId = k ∧ run.status = .starting
  | .runRevision _ => True
  | .transitionRunStatus x target _ _ _ => runs x ∧ target ∈ executorRunTargets
  | .getWork j => j = k
  | .transitionWorkStatus j target _ _ _ => j = k ∧ target ∈ executorWorkTargets
  | .createQuestion q => q.workId = some k
  | _ => False

def ServiceAction.ByExecutor (k : WorkId) (runs : RunId → Prop) : ServiceAction → Prop
  | .store op _ => op.ByExecutor k runs
  | .execute _ r => r.requestId = k.val
  | .adapter _ | .storeArtifact .. | .jsonDumps _ | .str _ => True
  | .takeReplan .. | .retryBroken .. | .abandonBroken .. | .completeLease .. => False

variable {ok : ServiceAction → Prop}

theorem taskRequests_request {α : Type} {a : ServiceAction} {answer : a.Answer → Except Exn α} (ha : ok a) :
    TaskRequests ok (request a answer) := ⟨ha, fun _ => trivial⟩

theorem taskRequests_callStore {op : StoreOp} {env : Supply} (hop : ok (.store op env)) :
    TaskRequests ok (callStore op env) := taskRequests_request hop

theorem taskRequests_ignoreDomainErrors {α : Type} {x : ServiceTask α} (hx : TaskRequests ok x) :
    TaskRequests ok (ignoreDomainErrors x) := by
  refine hx.attempt.bind ?_
  intro r
  cases r with
  | ok a => exact taskRequests_pure
  | error e =>
    dsimp only
    split
    · exact taskRequests_pure
    · exact taskRequests_throw

theorem taskRequests_revisionOf {work : Option WorkRecord} : TaskRequests ok (revisionOf work) := by
  cases work with
  | none => exact taskRequests_throw
  | some w => exact taskRequests_pure

theorem WorkerRequest.new_requestId {requestId traceId : String} {projectId : Option String}
    {capabilities : List String} {payload : PyDict} {r : WorkerRequest}
    (h : WorkerRequest.new requestId traceId projectId capabilities payload = .ok r) : r.requestId = requestId := by
  unfold WorkerRequest.new at h
  split at h
  · cases h
  · split at h
    · cases h
    · cases h
      rfl

section Executor

variable (loop : ExecutorLoop) (env : Supply) (work : WorkRecord) {runs : RunId → Prop}

theorem requests_createRunFor :
    TaskRequests (ServiceAction.ByExecutor work.workId fun _ => True) (loop.createRunFor env work) := by
  apply TaskRequests.bind (taskRequests_callStore ⟨rfl, rfl⟩)
  intro created
  apply (taskRequests_callStore trivial).bind
  intro rev
  exact taskRequests_callStore ⟨trivial, by decide⟩

theorem requests_dispatch (run : RunRecord) :
    TaskRequests (ServiceAction.ByExecutor work.workId runs) (loop.dispatch work run) := by
  refine (taskRequests_request trivial).bind ?_
  intro available
  split
  · exact taskRequests_throw
  · refine (taskRequests_request trivial).bind ?_
    intro adapter
    refine taskRequests_ofExcept ?_
    intro r hr
    refine (taskRequests_request trivial).bind ?_
    intro _
    exact taskRequests_request (WorkerRequest.new_requestId hr)

theorem requests_extractOutputText (k : WorkId) (result : WorkerResult) :
    TaskRequests (ServiceAction.ByExecutor k runs) (extractOutputText result) := by
  unfold extractOutputText
  split
  · exact taskRequests_throw
  · split
    · exact taskRequests_pure
    · split
      · exact taskRequests_pure
      · exact (taskRequests_request trivial).bind fun _ => taskRequests_pure

theorem requests_storeOutput (result : WorkerResult) :
    TaskRequests (ServiceAction.ByExecutor work.workId runs) (loop.storeOutput work result) := by
  unfold ExecutorLoop.storeOutput
  split
  · refine (requests_extractOutputText work.workId result).bind ?_
    intro output
    cases output with
    | none => exact taskRequests_pure
    | some text =>
      dsimp only
      split
      · exact taskRequests_pure
      · exact (taskRequests_request trivial).bind fun _ => taskRequests_pure
  · exact taskRequests_pure

variable {run : RunRecord}

theorem requests_succeed (hrun : runs run.runId) (result : WorkerResult) :
    TaskRequests (ServiceAction.ByExecutor work.workId runs) (loop.succeed env work run result) := by
  refine (taskRequests_callStore trivial).bind ?_
  intro rev
  refine TaskRequests.bind (taskRequests_callStore ⟨hrun, by decide⟩) ?_
  intro _
  refine (requests_storeOutput loop work result).bind ?_
  intro artifactRefs
  refine TaskRequests.bind (taskRequests_callStore (by rfl)) ?_
  intro workCur
  refine taskRequests_revisionOf.bind ?_
  intro revision
  refine TaskRequests.bind (taskRequests_callStore ⟨rfl, by decide⟩) ?_
  intro _
  exact taskRequests_pure

theorem requests_failRun (hrun : runs run.runId) (reason : String) :
    TaskRequests (ServiceAction.ByExecutor work.workId runs) (loop.failRun env work run reason) := by
  refine (taskRequests_callStore trivial).bind ?_
  intro rev
  exact taskRequests_callStore ⟨hrun, by decide⟩

theorem requests_failWork (workCur : Option WorkRecord) (reason : String) :
    TaskRequests (ServiceAction.ByExecutor work.workId runs) (loop.failWork env work workCur reason) := by
  refine taskRequests_revisionOf.bind ?_
  intro revision
  exact taskRequests_callStore ⟨rfl, by decide⟩

theorem requests_fail {run : Option RunRecord} (hrun : ∀ r, run = some r → runs r.runId) (exc : Exn) :
    TaskRequests (ServiceAction.ByExecutor work.workId runs) (loop.fail env work run exc) := by
  have hwork : TaskRequests (ServiceAction.ByExecutor work.workId runs) (do
      let workCur ← callStore (.getWork work.workId) (env.sub 1)
      ignoreDomainErrors (loop.failWork (env.sub 2) work workCur exc.text)
      return ({ workId := work.workId.val, outcome := "failed", detail := some exc.text } : ExecutorResult)) := by
    refine TaskRequests.bind (taskRequests_callStore (by rfl)) ?_
    intro workCur
    exact (taskRequests_ignoreDomainErrors (requests_failWork loop _ work _ _)).bind fun _ => taskRequests_pure
  cases run with
  | none => exact hwork
  | some run =>
    exact (taskRequests_ignoreDomainErrors (requests_failRun loop _ work (hrun run rfl) _)).bind fun _ => hwork

theorem requests_toWaiting (hrun : runs run.runId) (prompt : String) :
    TaskRequests (ServiceAction.ByExecutor work.workId runs) (loop.toWaiting env work run prompt) := by
  refine TaskRequests.bind (taskRequests_callStore (by rfl)) ?_
  intro _
  refine TaskRequests.bind (taskRequests_callStore (by rfl)) ?_
  intro workCur
  refine taskRequests_revisionOf.bind ?_
  intro revision
  refine TaskRequests.bind (taskRequests_callStore ⟨rfl, by decide⟩) ?_
  intro _
  refine TaskRequests.bind (taskRequests_ignoreDomainErrors ?_) fun _ => taskRequests_pure
  refine (taskRequests_callStore trivial).bind ?_
  intro rev
  exact taskRequests_callStore ⟨hrun, by decide⟩

theorem requests_conclude (hrun : runs run.runId) (result : WorkerResult) :
    TaskRequests (ServiceAction.ByExecutor work.workId runs) (loop.conclude env work run result) := by
  unfold ExecutorLoop.conclude
  split
  · refine requests_fail loop _ work ?_ _
    intro r hr
    cases hr
    exact hrun
  · split
    · exact taskRequests_throw
    · split
      · split
        · refine (taskRequests_request trivial).bind ?_
          intro prompt
          exact requests_toWaiting loop _ work hrun prompt
        · exact requests_succeed loop _ work hrun result
      · exact requests_succeed loop _ work hrun result

theorem requests_settle (hrun : runs run.runId) (reply : Except Exn WorkerReply) :
    TaskRequests (ServiceAction.ByExecutor work.workId runs) (loop.settle env work run reply) := by
  have hfail (e : Exn) : TaskRequests (ServiceAction.ByExecutor work.workId runs)
      (loop.fail (env.sub 0) work (some run) e) := by
    refine requests_fail loop _ work ?_ e
    intro r hr
    cases hr
    exact hrun
  cases reply with
  | error e => exact hfail e
  | ok reply =>
    cases reply with
    | returns result => exact requests_conclude loop _ work hrun result
    | returnsOther e => exact taskRequests_throw
    | raises e => exact hfail e
    | aborts e => exact taskRequests_throw

theorem requests_executeClaimedWork :
    TaskRequests (ServiceAction.ByExecutor work.workId fun _ => True) (loop.executeClaimedWork env work) := by
  apply (requests_createRunFor loop _ work).attempt.bind
  intro created
  cases created with
  | error e => exact requests_fail loop _ work (fun _ _ => trivial) _
  | ok run =>
    apply (requests_dispatch loop work run).attempt.bind
    exact requests_settle loop _ work trivial

end Executor

/-! ## Closing the Runs that a resumed attempt replaces -/

def ServiceAction.MovesRun : ServiceAction → Prop
  | .store (.runRevision _) _ => True
  | .store (.transitionRunStatus ..) _ => True
  | _ => False

theorem requests_closePriors (actor : Actor) (work : WorkRecord) (priors : List RunRecord) (env : Supply) :
    TaskRequests ServiceAction.MovesRun (closePriors actor work priors env) := by
  induction priors generalizing env with
  | nil => exact taskRequests_pure
  | cons prior rest ih =>
    refine TaskRequests.bind ?_ fun _ => ih (env.sub 1)
    apply (taskRequests_callStore trivial).bind
    intro rev
    apply (taskRequests_callStore trivial).bind
    intro _
    apply (taskRequests_callStore trivial).bind
    intro rev2
    exact (taskRequests_callStore trivial).bind fun _ => taskRequests_pure

end AllTomorrow
