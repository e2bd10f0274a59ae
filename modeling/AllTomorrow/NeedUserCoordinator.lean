import AllTomorrow.DeliveryReconciler
import AllTomorrow.InterferenceTriples
import AllTomorrow.SemanticStoreChanges

/-!
# Answers to Questions and the signals for them

`NeedUserCoordinator` of `bridge/provenance.py`: an answer is stored, then the durable
execution is signalled, with the identifier of the Question as that of the signal. A call is
a program that requests store operations and signals, so that it can be cut at any request
and interleaved with others.
-/

namespace AllTomorrow

/-- The arguments of `port.signal`. -/
structure Signal where
  ref : ExecutionRef
  signalName : String
  signalId : String
  payload : PyDict

/-- Where a call reads the Question: at the start of `answer`, at the start of `answer_idempotent`, or after a race that it
has lost. -/
inductive QuestionRead where
  | answer
  | answerIdempotent (answerRef : String)
  | refresh

inductive CoordinatorRequest where
  | getQuestion (read : QuestionRead) (questionId : QuestionId)
  | store (op : StoreOp) (env : Supply)
  | signal (signal : Signal) (env : Supply)

abbrev CoordinatorAnswer : CoordinatorRequest → Type
  | .getQuestion _ _ => Option QuestionRecordSemantic
  | .store op _ => Except Exn op.Result
  | .signal _ _ => Except Exn SignalResult

abbrev CoordinatorM := ExceptT Exn (Prog CoordinatorRequest CoordinatorAnswer)

/-- `AnswerResult`. -/
structure AnswerResult where
  question : QuestionRecordSemantic
  signal : Option SignalResult

structure NeedUserCoordinator where
  signalName : String := "user_response"

namespace NeedUserCoordinator

/-- `_get_question`. -/
def getQuestion (read : QuestionRead) (questionId : QuestionId) : CoordinatorM (Option QuestionRecordSemantic) :=
  ExceptT.mk (.act (.getQuestion read questionId) fun q => .done (.ok q))

def callStore (op : StoreOp) (env : Supply) : CoordinatorM op.Result := ExceptT.mk (.act (.store op env) .done)

def sendSignal (signal : Signal) (env : Supply) : CoordinatorM SignalResult := ExceptT.mk (.act (.signal signal env) .done)

/-- The first Run of the Work that has a reference and is not terminal. -/
def openRef (runs : List RunRecord) : Option ExecutionRef :=
  runs.findSome? fun run => if run.isTerminal then none else run.executionRef

/-- `_execution_ref_for_question`. -/
def executionRefForQuestion (env : Supply) (question : QuestionRecordSemantic) : CoordinatorM (Option ExecutionRef) :=
  match question.runId with
  | some runId => do
      let run ← callStore (.getRun runId) env
      return run.bind RunRecord.executionRef
  | none =>
      match question.workId with
      | some workId => do
          let runs ← callStore (.listRuns workId) env
          return openRef runs
      | none => return none

variable (c : NeedUserCoordinator)

def answerSignal (ref : ExecutionRef) (questionId : QuestionId) (answerRef : String) : Signal where
  ref := ref
  signalName := c.signalName
  signalId := questionId.val
  payload := InsertionDict.empty.set "answer_ref" (.str answerRef)

def deliver (env : Supply) (question : QuestionRecordSemantic) (questionId : QuestionId) (answerRef : String) :
    CoordinatorM AnswerResult := do
  match ← executionRefForQuestion (env.sub 0) question with
  | none => return { question := question, signal := none }
  | some ref =>
    let signal ← sendSignal (c.answerSignal ref questionId answerRef) (env.sub 1)
    return { question := question, signal := some signal }

def lateAnswer (work : WorkRecord) (workId : WorkId) (questionId : QuestionId) : Exn :=
  .lateAnswerToTerminalWorkError ("work " ++ workId.val ++ " is terminal (" ++ work.status.value ++
    "); refusing late answer to question " ++ questionId.val)

/-- The Work of a Question that is still to be answered must not be terminal. -/
def refuseLate (env : Supply) (question : QuestionRecordSemantic) (questionId : QuestionId) : CoordinatorM Unit :=
  match question.workId with
  | none => return ()
  | some workId => do
    match ← callStore (.getWork workId) env with
    | none => return ()
    | some work =>
      if work.status ∈ terminalWorkStatuses then throw (lateAnswer work workId questionId) else return ()

def answer (env : Supply) (questionId : QuestionId) (expectedRevision : ℤ) (answerRef : String) :
    CoordinatorM AnswerResult := do
  match ← getQuestion .answer questionId with
  | none => throw (.invariantViolationError ("question not found: " ++ questionId.val))
  | some question =>
    refuseLate (env.sub 0) question questionId
    let answered ← callStore (.answerQuestion questionId expectedRevision answerRef questionId.val) (env.sub 1)
    c.deliver (env.sub 2) answered questionId answerRef

def converge (questionId : QuestionId) : CoordinatorM AnswerResult := do
  match ← getQuestion .refresh questionId with
  | none => throw .assertionError
  | some refreshed => return { question := refreshed, signal := none }

def answerIdempotent (env : Supply) (questionId : QuestionId) (answerRef : String) : CoordinatorM AnswerResult := do
  match ← getQuestion (.answerIdempotent answerRef) questionId with
  | none => throw (.invariantViolationError ("question not found: " ++ questionId.val))
  | some question =>
    if question.status = .answered then
      c.deliver (env.sub 0) question questionId answerRef
    else
      match ← Prog.attempt (c.answer (env.sub 1) questionId question.revision answerRef) with
      | .ok result => return result
      | .error (.storeConflictError _) => converge questionId
      | .error e => throw e

end NeedUserCoordinator

inductive AnswerCall where
  | answer (env : Supply) (expectedRevision : ℤ) (answerRef : String)
  | answerIdempotent (env : Supply) (answerRef : String)

def AnswerCall.program (c : NeedUserCoordinator) (questionId : QuestionId) : AnswerCall → CoordinatorM AnswerResult
  | .answer env expectedRevision answerRef => c.answer env questionId expectedRevision answerRef
  | .answerIdempotent env answerRef => c.answerIdempotent env questionId answerRef

/-! ## The world -/

structure SignalWorld where
  store : InMemoryStore
  signals : List Signal

abbrev SignalPort := List Signal → Signal → Supply → Except Exn SignalResult

def SignalWorld.handler (port : SignalPort) : Prog.Handler CoordinatorRequest CoordinatorAnswer SignalWorld
  | .getQuestion _ questionId, w => (w.store.questions.get? questionId, w)
  | .store op env, w => (((op.exec env).run w.store).outcome, { w with store := storeStep w.store ⟨op, env⟩ })
  | .signal signal env, w => (port w.signals signal env, { w with signals := w.signals ++ [signal] })

end AllTomorrow
