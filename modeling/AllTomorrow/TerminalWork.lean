import AllTomorrow.ServiceRuns
import AllTomorrow.SemanticStoreIntegrity

/-!
# Runs under a terminal Work

Work and Run are closed by separate store calls. A terminal Work has an active Run
as soon as one call closes a Work whose Run is still active, or opens a Run under a
Work that is closed; if no step of the services does either, there is none.
-/

namespace AllTomorrow

open InMemoryStore Prog

/-- No Run of the Work is active. -/
def NoActiveRun (s : InMemoryStore) (k : WorkId) : Prop :=
  ∀ j r, s.runs.get? j = some r → r.workId = k → r.isActive = false

/-- A terminal Work has no active Run. -/
def TerminalIdle (s : InMemoryStore) : Prop :=
  ∀ k w, s.work.get? k = some w → w.isTerminal = true → NoActiveRun s k

/-- A call that closes a Work finds it without an active Run, and a call that opens a Run finds
the Work open. -/
def KeepsIdle (s : InMemoryStore) (c : StoreCall) : Prop :=
  match c.op with
  | .transitionWorkStatus k target _ _ _ => target ∈ terminalWorkStatuses → Accepted s c → NoActiveRun s k
  | .createRun run _ =>
    run.isActive = true → Accepted s c → ∀ w, s.work.get? run.workId = some w → w.isTerminal = false
  | _ => True

variable {s : InMemoryStore}

/-! ## One store call -/

theorem isActive_of_moves {x : RunRecord} {target : RunStatus} (hmem : target ∈ runTransitions x.status) :
    x.isActive = true := by
  have hterm : x.status ∉ terminalRunStatuses := by
    intro hterm
    rw [runTransitions_terminal hterm] at hmem
    cases hmem
  simp [RunRecord.isActive_eq_not_isTerminal, RunRecord.isTerminal, hterm]

theorem terminalIdle_setWork (h : TerminalIdle s) {s' : InMemoryStore} {k : WorkId} {upd : WorkRecord}
    (hwork : s'.work = s.work.set k upd) (hruns : s'.runs = s.runs)
    (hidle : upd.isTerminal = true → NoActiveRun s k) : TerminalIdle s' := by
  intro j w hw hterm i r hr
  rw [hruns] at hr
  rw [hwork] at hw
  rcases s.work.get?_set_cases k upd j with ⟨rfl, hset⟩ | ⟨_, hset⟩
  · rw [hset, Option.some.injEq] at hw
    subst hw
    exact hidle hterm i r hr
  · rw [hset] at hw
    exact h j w hw hterm i r hr

theorem terminalIdle_setRun (h : TerminalIdle s) {s' : InMemoryStore} {k : RunId} {upd : RunRecord}
    (hwork : s'.work = s.work) (hruns : s'.runs = s.runs.set k upd)
    (hopen : upd.isActive = true → ∀ w, s.work.get? upd.workId = some w → w.isTerminal = false) : TerminalIdle s' := by
  intro j w hw hterm i r hr hkey
  rw [hwork] at hw
  rw [hruns] at hr
  rcases s.runs.get?_set_cases k upd i with ⟨rfl, hset⟩ | ⟨_, hset⟩
  · rw [hset, Option.some.injEq] at hr
    subst hr
    have hclosed : upd.isActive = true → False := by
      intro hactive
      have hfalse := hopen hactive w (hkey ▸ hw)
      simp [hterm] at hfalse
    simpa using hclosed
  · rw [hset] at hr
    exact h j w hw hterm i r hr hkey

theorem TerminalIdle.work_open (h : TerminalIdle s) {j : RunId} {r : RunRecord} (hr : s.runs.get? j = some r)
    (hactive : r.isActive = true) {w : WorkRecord} (hw : s.work.get? r.workId = some w) : w.isTerminal = false := by
  by_contra hterm
  have hfalse := h r.workId w hw (by simpa using hterm) j r hr rfl
  simp [hactive] at hfalse

/-- A call that meets the condition leaves no terminal Work with an active Run. -/
theorem terminalIdle_step (c : StoreCall) (hs : s.WellFormed) (hi : s.Integrity) (hc : KeepsIdle s c)
    (h : TerminalIdle s) : TerminalIdle (storeStep s c) := by
  obtain ⟨op, env⟩ := c
  have heffect := exec_effect env hs op
  have haccepted : ∀ v s', (op.exec env).run s = .ok v s' → Accepted s ⟨op, env⟩ := fun v s' hr => ⟨v, s', hr⟩
  change TerminalIdle ((op.exec env).run s).state
  generalize (op.exec env).run s = r at heffect haccepted
  cases heffect with
  | workCreated work event hfresh hgoal =>
    -- a Work that is new has no Run at all
    refine terminalIdle_setWork h rfl rfl ?_
    intro _ j r hr hkey
    obtain ⟨w, hw⟩ := hi.run_work j r hr
    rw [hkey, hfresh] at hw
    cases hw
  | workMoved hget hterm hmem htarget =>
    refine terminalIdle_setWork h rfl rfl ?_
    intro hclosed
    exact hc (of_decide_eq_true hclosed) (haccepted _ _ rfl)
  | workSucceeded hget hterm hmem htype hid hstatus hevidence =>
    refine terminalIdle_setWork h rfl rfl ?_
    intro hclosed
    exact hc (of_decide_eq_true hclosed) (haccepted _ _ rfl)
  | workClaimed limit =>
    intro k w hw hterm
    rcases get?_setAllWork_cases s.work (claimedRecords env (s.claimCandidates limit)) k with
      hkeep | ⟨v, hv, _, hget⟩
    · exact h k w (hkeep.symm.trans hw) hterm
    · obtain ⟨u, _, env', rfl⟩ := mem_claimedRecords hv
      have hrunning : w = u.moved env' .running := Option.some.inj (hw.symm.trans hget)
      rw [hrunning] at hterm
      exact absurd (of_decide_eq_true hterm) (by simp [WorkRecord.moved, terminalWorkStatuses])
  | runCreated run event hfresh hwork hactive =>
    refine terminalIdle_setRun h rfl rfl ?_
    intro hrun w hw
    exact hc hrun (haccepted _ _ rfl) w hw
  | refAttached hget hrev hnone =>
    refine terminalIdle_setRun h rfl rfl ?_
    intro hactive w hw
    exact h.work_open hget hactive hw
  | runMoved hget hrev hterm hmem =>
    refine terminalIdle_setRun h rfl rfl ?_
    intro _ w hw
    exact h.work_open hget (isActive_of_moves hmem) hw
  | _ => exact h

/-- A call that breaks the condition leaves a terminal Work with an active Run. -/
theorem keepsIdle_of_terminalIdle (c : StoreCall) (hs : s.WellFormed) (h : TerminalIdle (storeStep s c)) :
    KeepsIdle s c := by
  obtain ⟨op, env⟩ := c
  have heffect := exec_effect env hs op
  have hafter : TerminalIdle ((op.exec env).run s).state := h
  cases op with
  | transitionWorkStatus k target rev event evidence =>
    rintro hterm ⟨v, s', haccepted⟩
    change (StoreOp.exec env _).run s = _ at haccepted
    rw [haccepted] at heffect hafter
    cases heffect with
    | read v hread => cases hread
    | workMoved hget hopen hmem htarget =>
      exact hafter k _ (InsertionDict.get?_set_self _ _ _) (decide_eq_true hterm)
    | workSucceeded hget hopen hmem htype hid hstatus hevidence =>
      exact hafter k _ (InsertionDict.get?_set_self _ _ _) (decide_eq_true hterm)
  | createRun run event =>
    rintro hactive ⟨v, s', haccepted⟩ w hw
    change (StoreOp.exec env _).run s = _ at haccepted
    rw [haccepted] at heffect hafter
    cases heffect with
    | read v hread => cases hread
    | runCreated _ _ hfresh hwork hone =>
      exact hafter.work_open (InsertionDict.get?_set_self _ _ _) hactive hw
  | _ => trivial

section Runs

variable {ι π : Type} [DecidableEq ι] (ext : Externals π)

/-- What the client asks of the store next keeps terminal Works idle. -/
def StepKeepsIdle (p : ServicePool ι π) (i : ι) : Prop :=
  ∀ op env, p.Requests i (.store op env) → KeepsIdle p.state.store ⟨op, env⟩

theorem terminalIdle_serviceStep_iff {p : ServicePool ι π} {i : ι} (hreach : StoreReachable p.state.store)
    (h : TerminalIdle p.state.store) : TerminalIdle (serviceStep ext p i).state.store ↔ StepKeepsIdle p i := by
  have hs := hreach.wellFormed
  constructor
  · rintro hnext op env ⟨rest, hthread⟩
    refine keepsIdle_of_terminalIdle ⟨op, env⟩ hs ?_
    simp only [Pool.step, hthread, advance] at hnext
    exact hnext
  · intro hkeeps
    rcases serviceStep_store ext p i with hsame | ⟨a, hreq, hstore⟩
    · rwa [hsame]
    · rcases onStore_cases a p.state.store with hsame | ⟨c, rfl, hcall⟩
      · rwa [hstore, hsame]
      · rw [hstore, hcall]
        exact terminalIdle_step c hs hreach.integrity (hkeeps c.op c.env hreq) h

/-- In every interleaving of service calls, no terminal Work has an active Run at any point exactly
when no step closes a Work that has an active Run or opens a Run under a terminal Work. -/
theorem terminalIdle_iff_stepsKeepIdle {ext : Externals π} (clients : Clients ι) {world : ServiceWorld π}
    (hreach : StoreReachable world.store) (hidle : TerminalIdle world.store) (schedule : List ι) :
    (∀ before after, schedule = before ++ after →
      TerminalIdle (MachineRuns.run (serviceStep ext) (clients.pool world) before).state.store) ↔
    MachineRuns.EveryStep (serviceStep ext) StepKeepsIdle (clients.pool world) schedule :=
  MachineRuns.always_iff_everyStep (K := fun p : ServicePool ι π => StoreReachable p.state.store)
    (I := fun p : ServicePool ι π => TerminalIdle p.state.store) (reachable_serviceStep ext)
    (fun _ _ hp h => terminalIdle_serviceStep_iff ext hp h) hreach hidle

end Runs

/-- One client starts a Run of the Work, the other one cleans the Work up. -/
def cleanUpClients : Clients Bool where
  call
    | false => .startRun ⟨3, executorActor⟩ ⟨"work_1"⟩ 1
    | true => .cleanUpBrokenWork "u1" "work_1" "op"
  env _ := frozenSupply

/-- The Run is created; then the Work is read with its Goal, abandoned and cancelled. -/
def cleanUpRun : ServicePool Bool Unit :=
  MachineRuns.run (serviceStep (sampleExternals none (.ok "h"))) (cleanUpClients.pool (sampleWorld pendingStore))
    [false, true, true, true, true]

theorem run_active_after_cleanUp :
    StoreReachable pendingStore ∧ TerminalIdle pendingStore ∧ (∀ i, cleanUpRun.threads i = .done (.ok ())) ∧
      ¬TerminalIdle cleanUpRun.state.store := by
  refine ⟨⟨pendingCalls, rfl⟩, ?_, ?_, ?_⟩
  · intro k w _ _ j r hr
    cases hr
  · intro i
    cases i <;> rfl
  · intro h
    have hwork : ∃ w, cleanUpRun.state.store.work.get? ⟨"work_1"⟩ = some w ∧ w.isTerminal = true := ⟨_, rfl, rfl⟩
    have hrun : ∃ r, cleanUpRun.state.store.runs.get? ⟨"run_0"⟩ = some r ∧ r.workId = ⟨"work_1"⟩ ∧
        r.isActive = true := ⟨_, rfl, rfl, rfl⟩
    obtain ⟨w, hw, hterm⟩ := hwork
    obtain ⟨r, hr, hkey, hactive⟩ := hrun
    have hfalse := h ⟨"work_1"⟩ w hw hterm ⟨"run_0"⟩ r hr hkey
    simp [hactive] at hfalse

/-- The Run of the Work has failed. -/
def failedCalls : List StoreCall :=
  seedCalls ++ [⟨.transitionRunStatus ⟨"run_1"⟩ .failed 1 sampleEvent none, frozenSupply⟩]

def failedStore : InMemoryStore := MachineRuns.run storeStep .empty failedCalls

theorem noActiveRun_failedStore (k : WorkId) : NoActiveRun failedStore k := by
  have hall : ∀ e ∈ failedStore.runs.entries, e.2.isActive = false := by decide
  exact fun j r hr _ => hall (j, r) (InsertionDict.mem_entries_of_get? hr)

/-- The clean-up of a Work whose Run has ended. -/
theorem terminalIdle_of_plain_cleanUp :
    StoreReachable failedStore ∧ TerminalIdle failedStore ∧
      TerminalIdle (MachineRuns.run (serviceStep (sampleExternals none (.ok "h")))
        (cleanUpClients.pool (sampleWorld failedStore)) [true, true, true, true]).state.store := by
  have hreach : StoreReachable failedStore := ⟨failedCalls, rfl⟩
  have hidle : TerminalIdle failedStore := fun k _ _ _ => noActiveRun_failedStore k
  refine ⟨hreach, hidle, ?_⟩
  refine (terminalIdle_iff_stepsKeepIdle cleanUpClients hreach hidle [true, true, true, true]).mpr ?_ _ [] rfl
  rw [MachineRuns.everyStep_cons, MachineRuns.everyStep_cons, MachineRuns.everyStep_cons, MachineRuns.everyStep_cons]
  refine ⟨?_, ?_, ?_, ?_, MachineRuns.everyStep_nil⟩
  · intro op env hreq
    cases hreq.eq rfl
    trivial
  · intro op env hreq
    cases hreq.eq rfl
    trivial
  · intro op env hreq
    cases hreq.eq rfl
  · intro op env hreq
    cases hreq.eq rfl
    exact fun _ _ => noActiveRun_failedStore ⟨"work_1"⟩

end AllTomorrow
