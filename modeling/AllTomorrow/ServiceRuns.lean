import AllTomorrow.InterferenceTriples
import AllTomorrow.OperatorServices
import AllTomorrow.SemanticStoreChanges
import AllTomorrow.ExecutionRefHistory

/-!
# Runs of the services

Whatever a service does, it touches the store only through store calls, so each step
of any interleaving is one store call or leaves the store as it is.
-/

namespace AllTomorrow

open Prog

variable {ι π : Type}

def ServiceAction.onStore : ServiceAction → InMemoryStore → InMemoryStore
  | .store op env, s => storeStep s ⟨op, env⟩
  | _, s => s

theorem handler_store (ext : Externals π) (a : ServiceAction) (w : ServiceWorld π) :
    (ServiceWorld.handler ext a w).2.store = a.onStore w.store := by
  cases a with
  | takeReplan workId maxReplans =>
    simp only [ServiceWorld.handler, ServiceWorld.takeReplan, ServiceAction.onStore]
    split <;> rfl
  | _ => rfl

theorem onStore_cases (a : ServiceAction) (s : InMemoryStore) :
    a.onStore s = s ∨ ∃ c : StoreCall, a = .store c.op c.env ∧ a.onStore s = storeStep s c := by
  cases a with
  | store op env => exact .inr ⟨⟨op, env⟩, rfl, rfl⟩
  | _ => exact .inl rfl

variable {I : InMemoryStore → Prop}

theorem onStore_keeps (hI : ∀ s c, I s → I (storeStep s c)) (a : ServiceAction)
    {s : InMemoryStore} (hs : I s) : I (a.onStore s) := by
  rcases onStore_cases a s with h | ⟨c, _, h⟩
  · rwa [h]
  · rw [h]
    exact hI s c hs

abbrev ServicePool (ι π : Type) := Pool ι ServiceAction ServiceAction.Answer (Except Exn Unit) (ServiceWorld π)

/-- Client `i` is about to request `a`. -/
def ServicePool.Requests (p : ServicePool ι π) (i : ι) (a : ServiceAction) : Prop :=
  ∃ rest, p.threads i = .act a rest

variable {p : ServicePool ι π}

theorem ServicePool.Requests.eq {i : ι} {a b : ServiceAction}
    {rest : b.Answer → Prog ServiceAction ServiceAction.Answer (Except Exn Unit)} (h : p.Requests i a)
    (hthread : p.threads i = .act b rest) : a = b := by
  obtain ⟨rest', hrest⟩ := h
  rw [hthread] at hrest
  cases hrest
  rfl

variable [DecidableEq ι] (ext : Externals π)

/-- Client `i` makes its next request. -/
abbrev serviceStep : ServicePool ι π → ι → ServicePool ι π := Pool.step (ServiceWorld.handler ext)

theorem serviceStep_store (p : ServicePool ι π) (i : ι) : (serviceStep ext p i).state.store = p.state.store ∨
      ∃ a, p.Requests i a ∧ (serviceStep ext p i).state.store = a.onStore p.state.store := by
  cases hthread : p.threads i with
  | done r =>
    left
    simp only [Pool.step, hthread, advance]
  | act a rest =>
    refine .inr ⟨a, ⟨rest, hthread⟩, ?_⟩
    simp only [Pool.step, hthread, advance]
    exact handler_store ext a p.state

theorem serviceStep_keeps (hI : ∀ s c, I s → I (storeStep s c)) (p : ServicePool ι π)
    (i : ι) (hs : I p.state.store) : I (serviceStep ext p i).state.store := by
  rcases serviceStep_store ext p i with h | ⟨a, _, h⟩
  · rwa [h]
  · rw [h]
    exact onStore_keeps hI a hs

theorem reachable_serviceStep (p : ServicePool ι π) (i : ι) (h : StoreReachable p.state.store) :
    StoreReachable (serviceStep ext p i).state.store :=
  serviceStep_keeps ext (fun _ c hs => hs.next c) p i h

theorem reachable_serviceRun (h : StoreReachable p.state.store) (schedule : List ι) :
    StoreReachable (MachineRuns.run (serviceStep ext) p schedule).state.store :=
  MachineRuns.invariant_run (I := fun p : ServicePool ι π => StoreReachable p.state.store)
    (reachable_serviceStep ext) h schedule

/-- Steps of other clients: store calls that `ok` allows on the state in which they are made. -/
def othersRely (π : Type) (ok : InMemoryStore → StoreCall → Prop) (w w' : ServiceWorld π) : Prop :=
  w'.store = w.store ∨ (w.store.WellFormed ∧ ∃ c, ok w.store c ∧ w'.store = storeStep w.store c)

variable {ok : InMemoryStore → StoreCall → Prop}

theorem othersRely_step (p : ServicePool ι π) (j : ι) (hs : p.state.store.WellFormed)
    (hok : ∀ op env, p.Requests j (.store op env) → ok p.state.store ⟨op, env⟩) :
    othersRely π ok p.state (serviceStep ext p j).state := by
  rcases serviceStep_store ext p j with h | ⟨a, ha, h⟩
  · exact .inl h
  · rcases onStore_cases a p.state.store with hsame | ⟨c, rfl, hcall⟩
    · exact .inl (h.trans hsame)
    · exact .inr ⟨hs, c, hok c.op c.env ha, h.trans hcall⟩

/-- The contract of a client: it makes its requests under the condition `own`, on a well-formed
store, and the others make store calls that `ok` allows. -/
def clientContract (ok : InMemoryStore → StoreCall → Prop) (own guar : ServiceWorld π → ServiceAction → Prop) :
    Contract ServiceAction (ServiceWorld π) where
  rely := othersRely π ok
  assume w a := w.store.WellFormed ∧ own w a
  guar := guar

variable {own guar : ServiceWorld π → ServiceAction → Prop}

theorem everyStep_respects (hreach : StoreReachable p.state.store) {i : ι} {schedule : List ι}
    (hown : MachineRuns.EveryStep (serviceStep ext) (fun q j => j = i → ∀ a, q.Requests i a → own q.state a) p schedule)
    (hothers : MachineRuns.EveryStep (serviceStep ext)
      (fun q j => j ≠ i → ∀ op env, q.Requests j (.store op env) → ok q.state.store ⟨op, env⟩) p schedule) :
    MachineRuns.EveryStep (serviceStep ext)
      (Respects (ServiceWorld.handler ext) (clientContract ok own guar) i) p schedule := by
  intro earlier j later hsplit
  have hs := (reachable_serviceRun ext hreach earlier).wellFormed
  refine ⟨?_, ?_⟩
  · intro hj a rest hact
    exact ⟨hs, hown earlier j later hsplit hj a ⟨rest, hact⟩⟩
  · intro hj
    exact .single (othersRely_step ext _ j hs (hothers earlier j later hsplit hj))

/-! ## Triples for store calls -/

theorem stable_of_calls (hI : ∀ s c, s.WellFormed → ok s c → I s → I (storeStep s c)) :
    Stable (clientContract ok own guar) fun w => I w.store := by
  intro w w' hstep hw
  rcases hstep with hsame | ⟨hwf, c, hok, hcall⟩
  · rwa [hsame]
  · rw [hcall]
    exact hI w.store c hwf hok hw

variable {ext} {c : Contract ServiceAction (ServiceWorld π)} {E : Exn → ServiceWorld π → Prop}

variable {P : ServiceWorld π → Prop}

theorem triple_callStore {op : StoreOp} {env : Supply} {Q : op.Result → ServiceWorld π → Prop}
    (hP : Stable c P) (hQ : ∀ v, Stable c (Q v)) (hE : ∀ e, Stable c (E e))
    (hstep : ∀ w, P w → c.assume w (.store op env) → c.guar w (.store op env) ∧
      Outcome Q E ((op.exec env).run w.store).outcome { w with store := storeStep w.store ⟨op, env⟩ }) :
    Triple (ServiceWorld.handler ext) c P (callStore op env) Q E :=
  triple_request hP hQ hE hstep

theorem triple_callStore_const {op : StoreOp} {env : Supply} (hP : Stable c P) (hI : Stable c fun w => I w.store)
    (hstep : ∀ w, P w → c.assume w (.store op env) → c.guar w (.store op env) ∧ I (storeStep w.store ⟨op, env⟩)) :
    Triple (ServiceWorld.handler ext) c P (callStore op env) (fun _ w => I w.store) (fun _ w => I w.store) := by
  refine triple_callStore hP (fun _ => hI) (fun _ => hI) ?_
  intro w hw ha
  exact ⟨(hstep w hw ha).1, outcome_const.mpr (hstep w hw ha).2⟩

theorem sampleDuration_nonneg : (0 : ℤ) ≤ 0 := le_refl 0

theorem success_not_error : WorkerStatus.success ∈ errorStatuses → ∃ text, none = some text ∧ text ≠ "" := by
  intro h
  revert h
  decide

def succeedingWorker (payload : Option PyDict) (r : WorkerRequest) : WorkerResult where
  requestId := r.requestId
  traceId := r.traceId
  status := .success
  payload := payload.elim (.other "NoneType" false) .dict
  requestId_nonempty := r.requestId_nonempty
  traceId_nonempty := r.traceId_nonempty
  error_of_status := success_not_error
  durationMs_nonneg := sampleDuration_nonneg

/-- One adapter for every worker id, whose worker succeeds with the given payload, and an artifact
store that answers the same for every content. -/
def sampleExternals (payload : Option PyDict) (artifact : Except Exn String) : Externals Unit where
  adapter _ u := (some ⟨[]⟩, u)
  execute _ r u := (.returns (succeedingWorker payload r), u)
  storeArtifact _ _ _ u := (artifact, u)
  jsonDumps _ := .ok "{}"
  str
    | .str s => s
    | _ => ""
  hashDeviceToken token := token

def sampleWorld (store : InMemoryStore) : ServiceWorld Unit := ⟨store, .empty, .init, .init, ()⟩

def sampleClients (calls : List ServiceCall) : Clients ℕ where
  call i := calls.getD i (.operation .findReconciliationCandidates)
  env i := frozenSupply.sub i

def pendingCalls : List StoreCall :=
  [⟨.createGoal sampleGoal sampleEvent, frozenSupply⟩, ⟨.createWork sampleWork sampleEvent, frozenSupply⟩]

def pendingStore : InMemoryStore := MachineRuns.run storeStep .empty pendingCalls

def sampleQuestion : QuestionRecordSemantic :=
  { questionId := ⟨"q_1"⟩, prompt := "?", workId := some ⟨"work_1"⟩, createdAt := 0, updatedAt := 0 }

def waitingCalls : List StoreCall :=
  [⟨.createGoal sampleGoal sampleEvent, frozenSupply⟩, ⟨.createWork sampleWork sampleEvent, frozenSupply⟩,
   ⟨.claimPendingWork 1, frozenSupply⟩, ⟨.createQuestion sampleQuestion, frozenSupply⟩,
   ⟨.transitionWorkStatus ⟨"work_1"⟩ .waiting 2 sampleEvent none, frozenSupply⟩]

def waitingStore : InMemoryStore := MachineRuns.run storeStep .empty waitingCalls

end AllTomorrow
