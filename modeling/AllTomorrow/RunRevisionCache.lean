import AllTomorrow.PostgresProcesses
import AllTomorrow.ExecutionRefHistory
import AllTomorrow.MachineRuns

/-!
# The revisions that a process remembers

`current_run_revision` trusts `_RUN_REVISIONS`, which reads and writes fill, also those of
transactions that are still open. It returns the revision in the row as long as nobody
else writes a Run that a process remembers.
-/

namespace AllTomorrow

open MachineRuns (EveryStep)

open PostgresStore EStateM

/-- What remains to be done after the connection is given back concerns the Run. -/
def PgConnection.Returns (r : RunId) : PgConnection → Prop
  | .returning _ after => ∃ d, (after d).state.get? r ≠ d.get? r
  | _ => False

section Coherence

variable {ι π : Type} {owner : ι → π}

namespace PgCluster

variable (cl : PgCluster ι π) (i : ι) (r : RunId)

def Changes : Prop := WritesRun (cl.connections i).log r

def Busy : Prop := cl.Changes i r ∨ (cl.connections i).Returns r

/-- The revision is the one that an open transaction of the process has written, or, if there is none,
the committed one. -/
def Current (owner : ι → π) (cl : PgCluster ι π) (p : π) (r : RunId) (c : ℤ) : Prop :=
  (∃ i, owner i = p ∧ cl.Changes i r ∧ ∃ row, (cl.view i).runsSemantic.get? r = some row ∧ row.revision = c) ∨
    ((∀ i, owner i = p → ¬cl.Changes i r) ∧ ∃ row, cl.committed.runsSemantic.get? r = some row ∧ row.revision = c)

/-- What a process remembers of a Run is current, and no two of its connections are busy with one Run. -/
structure Coherent (owner : ι → π) (cl : PgCluster ι π) : Prop where
  remembered : ∀ p r c, (cl.runRevisions p).get? r = some c → cl.Current owner p r c
  returning : ∀ i log after, cl.connections i = .returning log after →
    ∀ d, Remembers (fun _ => True) (cl.view i) d (after d).state
  exclusive : ∀ i j r, i ≠ j → owner i = owner j → cl.Busy i r → ¬cl.Busy j r

variable {cl i r}

theorem changes_same {cl' : PgCluster ι π} (h : cl'.connections i = cl.connections i) : cl'.Changes i r ↔ cl.Changes i r := by
  unfold Changes
  rw [h]

theorem busy_same {cl' : PgCluster ι π} (h : cl'.connections i = cl.connections i) : cl'.Busy i r ↔ cl.Busy i r := by
  unfold Busy
  rw [changes_same h, h]

theorem view_of_changes {cl' : PgCluster ι π} (hconnection : cl'.connections i = cl.connections i)
    (h : cl.Changes i r) : (cl'.view i).runsSemantic.get? r = (cl.view i).runsSemantic.get? r := by
  unfold view
  rw [hconnection]
  exact runs_replay_of_writes _ _ h

theorem view_of_not_changes (h : ¬cl.Changes i r) : (cl.view i).runsSemantic.get? r = cl.committed.runsSemantic.get? r :=
  runs_replay_of_not_writes _ h

theorem view_idle (h : cl.connections i = .idle) : cl.view i = cl.committed := by
  unfold view
  rw [h]
  rfl

theorem Coherent.seen {cl : PgCluster ι π} (h : cl.Coherent owner) {i : ι} {r : RunId} {v : ℤ}
    (hfree : ∀ j, j ≠ i → owner j = owner i → ¬cl.Busy j r) (hv : (cl.runRevisions (owner i)).get? r = some v) :
    ∃ row, (cl.view i).runsSemantic.get? r = some row ∧ row.revision = v := by
  rcases h.remembered _ r v hv with ⟨j, howner, hchanges, hrow⟩ | ⟨hnone, hrow⟩
  · rcases eq_or_ne j i with rfl | hj
    · exact hrow
    · exact absurd (.inl hchanges) (hfree j hj howner)
  · rw [view_of_not_changes (hnone i rfl)]
    exact hrow

theorem not_busy_of_idle (h : cl.connections i = .idle) (r : RunId) : ¬cl.Busy i r := by
  unfold Busy Changes
  rw [h]
  simp [PgConnection.log, PgConnection.Returns, not_writesRun_nil]

theorem coherent_start (owner : ι → π) (db : Database) : (start db : PgCluster ι π).Coherent owner where
  remembered := by
    intro p r c hc
    cases hc
  returning := by
    intro i log after hc
    cases hc
  exclusive := by
    intro i j r _ _ hbusy
    exact absurd hbusy (not_busy_of_idle rfl r)

structure Legible (cl : PgCluster ι π) : Prop where
  committed : cl.committed.Readable
  written : ∀ i row, RowWrite.run row ∈ (cl.connections i).log → row.Readable

theorem Legible.view {cl : PgCluster ι π} (h : cl.Legible) (i : ι) : (cl.view i).Readable :=
  h.committed.replay (h.written i)

theorem legible_start {db : Database} (h : db.Readable) : (start db : PgCluster ι π).Legible :=
  ⟨h, fun _ _ hrow => absurd hrow List.not_mem_nil⟩

variable [DecidableEq ι] {c : PgConnection}

theorem Legible.replaced {cl cl' : PgCluster ι π} (h : cl.Legible) {i : ι}
    (hconnections : cl'.connections = Function.update cl.connections i c) (hcommitted : cl'.committed.Readable)
    (hlog : ∀ row, RowWrite.run row ∈ c.log → row.Readable) : cl'.Legible := by
  refine ⟨hcommitted, ?_⟩
  intro j row hrow
  rw [hconnections] at hrow
  by_cases hj : j = i
  · subst hj
    rw [Function.update_self] at hrow
    exact hlog row hrow
  · rw [Function.update_of_ne hj] at hrow
    exact h.written j row hrow

/-! ## The revision that is returned -/

/-- Nobody else knows the Runs that the connection has written: no other process remembers one of them
or is about to. -/
def Unseen (owner : ι → π) (cl : PgCluster ι π) (i : ι) : Prop :=
  ∀ r, cl.Changes i r → (∀ p, p ≠ owner i → (cl.runRevisions p).get? r = none) ∧ ∀ j, owner j ≠ owner i → ¬cl.Busy j r

/-- A call finds no other connection of its process busy with its Runs, and asks a transaction that is
aborted for no revision; a commit publishes no Run that another process remembers, and a rollback takes
back no Run. -/
def Undisturbed (owner : ι → π) (cl : PgCluster ι π) (s : ι × PgStep) : Prop :=
  match s.2 with
  | .call op _ _ =>
    (∀ r, op.ConcernsRun (cl.view s.1) r → ∀ j, j ≠ s.1 → owner j = owner s.1 → ¬cl.Busy j r) ∧
      ∀ r, op = .runRevision r → (cl.session owner s.1).aborted = true → (cl.runRevisions (owner s.1)).get? r ≠ none
  | .finish => cl.Unseen owner s.1
  | .enterBatch => True
  | .leaveBatch =>
    match cl.connections s.1 with
    | .batch _ true => ∀ r, ¬cl.Changes s.1 r
    | _ => cl.Unseen owner s.1
  | .raiseInBatch => ∀ r, ¬cl.Changes s.1 r

/-- `current_run_revision` returns the revision in the row that its caller sees, whatever other tasks have
done to `_RUN_REVISIONS` before it goes on; it raises if there is no row. -/
def ReturnsStored (owner : ι → π) (cl : PgCluster ι π) (s : ι × PgStep) : Prop :=
  ∀ r env server, s.2 = .call (.runRevision r) env server →
    Ends (currentRunRevision env r).connection (cl.session owner s.1)
      (fun found _ => ∀ d, Ends ((currentRunRevision env r).after found) d
        (fun v _ => ∃ row, (cl.view s.1).runsSemantic.get? r = some row ∧ row.revision = v)
        fun _ _ => (cl.view s.1).runsSemantic.get? r = none)
      fun _ _ => (cl.view s.1).runsSemantic.get? r = none

theorem returnsStored_of_coherent {cl : PgCluster ι π} (h : cl.Coherent owner) (hlegible : cl.Legible)
    {s : ι × PgStep} (hs : cl.Undisturbed owner s) : cl.ReturnsStored owner s := by
  intro r env server hcall
  obtain ⟨i, a⟩ := s
  cases hcall
  obtain ⟨hfree, hasked⟩ := hs
  cases hcached : (cl.runRevisions (owner i)).get? r with
  | some v =>
    unfold Ends
    rw [connection_of_cached hcached]
    exact fun d => h.seen (hfree r rfl) hcached
  | none =>
    have hopen : (cl.session owner i).aborted = false := by
      rw [Bool.eq_false_iff]
      exact fun haborted => hasked r rfl haborted hcached
    unfold Ends
    rw [connection_of_uncached hcached]
    cases hrow : (cl.view i).runsSemantic.get? r with
    | none =>
      apply Ends.bind (Q := fun found _ => found = none)
      · apply ends_select (fun _ _ _ => rfl)
        intro found p hfound _
        rw [← Except.ok.inj hfound]
        exact hrow
      · intro found p hfound
        rw [hfound]
        exact fun d => rfl
    | some row =>
      have hreadable := hlegible.view i r row hrow
      have hkey : row.runId = r := KeyedTable.key_of_get? hrow
      subst hkey
      apply (ends_selectRun hopen hreadable hrow).bind
      intro found p hfound
      rw [hfound]
      intro d
      apply (ends_revisionOfRow hreadable d).mono _ fun _ _ herror => herror
      intro v _ hv
      exact ⟨row, rfl, hv.symm⟩

variable {server : PgServer}

theorem ReturnsStored.of_cached {cl : PgCluster ι π} {i : ι} {r : RunId} {env : Supply} {v : ℤ}
    (h : cl.ReturnsStored owner (i, .call (.runRevision r) env server))
    (hcached : (cl.runRevisions (owner i)).get? r = some v) :
    ∃ row, (cl.view i).runsSemantic.get? r = some row ∧ row.revision = v := by
  have hreturned := h r env server rfl
  unfold Ends at hreturned
  rw [connection_of_cached hcached] at hreturned
  exact hreturned .empty

/-- No other process remembers anything, and no other connection is used. -/
structure Alone (owner : ι → π) (cl : PgCluster ι π) (i : ι) : Prop where
  forgotten : ∀ p, p ≠ owner i → cl.runRevisions p = .empty
  idle : ∀ j, j ≠ i → cl.connections j = .idle

theorem Alone.undisturbed_call {cl : PgCluster ι π} {i : ι} (h : cl.Alone owner i) {op : StoreOp} {env : Supply} (hopen : (cl.session owner i).aborted = false) :
    cl.Undisturbed owner (i, .call op env server) := by
  constructor
  · intro r _ j hj _
    exact not_busy_of_idle (h.idle j hj) r
  · intro r _ haborted
    rw [hopen] at haborted
    cases haborted

theorem Alone.undisturbed_finish {cl : PgCluster ι π} {i : ι} (h : cl.Alone owner i) :
    cl.Undisturbed owner (i, .finish) := by
  intro r _
  constructor
  · intro p hp
    rw [h.forgotten p hp]
    rfl
  · intro j hj
    apply not_busy_of_idle (h.idle j _) r
    rintro rfl
    exact hj rfl

/-! ## Steps that keep what is remembered -/

theorem connections_other {cl cl' : PgCluster ι π} {i j : ι} (h : cl'.connections = Function.update cl.connections i c)
    (hj : j ≠ i) : cl'.connections j = cl.connections j := by
  rw [h, Function.update_of_ne hj]

section Replaced

variable {cl cl' : PgCluster ι π} {i : ι} {S W : RunId → Prop} (hcommitted : cl'.committed = cl.committed)
  (hconnections : cl'.connections = Function.update cl.connections i c)
  (hlog : ∀ r, WritesRun c.log r ↔ cl.Changes i r ∨ W r)

section Log

include hconnections hlog

theorem changes_replaced (r : RunId) : cl'.Changes i r ↔ cl.Changes i r ∨ W r := by
  unfold Changes
  rw [hconnections, Function.update_self]
  exact hlog r

/-- What the connection is newly busy with is in `S`. -/
theorem busy_replaced (hwritten : ∀ r, W r → S r)
    (hreturning : ∀ log after, c = .returning log after → ∀ d, Remembers S (cl'.view i) d (after d).state) {r : RunId}
    (hbusy : cl'.Busy i r) : cl.Busy i r ∨ S r := by
  rcases hbusy with hchanges | hreturns
  · rcases (changes_replaced hconnections hlog r).mp hchanges with hold | hnew
    · exact .inl (.inl hold)
    · exact .inr (hwritten r hnew)
  · rw [hconnections, Function.update_self] at hreturns
    cases c with
    | returning log after =>
      obtain ⟨d, hd⟩ := hreturns
      rcases hreturning log after rfl d r with hsame | ⟨hS, _⟩
      · exact absurd hsame hd
      · exact .inr hS
    | idle => exact hreturns.elim
    | batch log aborted => exact hreturns.elim

include hcommitted

/-- Of a Run that the connection does not write now the same is remembered. -/
theorem Current.replaced {p : π} {r : RunId} {v : ℤ} (h : cl.Current owner p r v) (hnot : owner i = p → ¬W r)
    (hview : ¬W r → (cl'.view i).runsSemantic.get? r = (cl.view i).runsSemantic.get? r) : cl'.Current owner p r v := by
  rcases h with ⟨j, howner, hchanges, row, hrow, hrev⟩ | ⟨hnone, row, hrow, hrev⟩
  · left
    by_cases hj : j = i
    · subst hj
      exact ⟨j, howner, (changes_replaced hconnections hlog r).mpr (.inl hchanges), row, by rw [hview (hnot howner), hrow], hrev⟩
    · have hother := connections_other hconnections hj
      refine ⟨j, howner, (changes_same hother).mpr hchanges, row, ?_, hrev⟩
      unfold view
      rw [hother, hcommitted]
      exact hrow
  · refine .inr ⟨?_, row, by rw [hcommitted, hrow], hrev⟩
    intro j howner hchanges
    by_cases hj : j = i
    · subst hj
      exact ((changes_replaced hconnections hlog r).mp hchanges).elim (hnone j howner) (hnot howner)
    · exact hnone j howner ((changes_same (connections_other hconnections hj)).mp hchanges)

end Log

include hconnections

theorem current_of_view {r : RunId} {row : RunRow} (hrow : (cl'.view i).runsSemantic.get? r = some row)
    (hfree : ∀ j, j ≠ i → owner j = owner i → ¬cl.Busy j r) : cl'.Current owner (owner i) r row.revision := by
  by_cases hchanges : cl'.Changes i r
  · exact .inl ⟨i, rfl, hchanges, row, hrow, rfl⟩
  · rw [view_of_not_changes hchanges] at hrow
    refine .inr ⟨?_, row, hrow, rfl⟩
    intro j howner hj
    by_cases hji : j = i
    · exact hchanges (hji ▸ hj)
    · exact hfree j hji howner (.inl ((changes_same (connections_other hconnections hji)).mp hj))

end Replaced

section Committed

variable {cl cl' : PgCluster ι π} {i : ι} (hcommitted : cl'.committed = cl.view i)
  (hconnections : cl'.connections = Function.update cl.connections i .idle)
include hconnections

theorem not_busy_committed (r : RunId) : ¬cl'.Busy i r :=
  not_busy_of_idle (by rw [hconnections, Function.update_self]) r

include hcommitted

/-- Of a Run that is not among the written ones a process remembers the same. -/
theorem Current.committedBy {p : π} {r : RunId} {v : ℤ} (h : cl.Current owner p r v) (hnot : ¬cl.Changes i r) :
    cl'.Current owner p r v := by
  rcases h with ⟨j, howner, hchanges, row, hrow, hrev⟩ | ⟨hnone, row, hrow, hrev⟩
  · have hj : j ≠ i := by
      rintro rfl
      exact hnot hchanges
    have hother := connections_other hconnections hj
    exact .inl ⟨j, howner, (changes_same hother).mpr hchanges, row, by rw [view_of_changes hother hchanges, hrow], hrev⟩
  · refine .inr ⟨?_, row, by rw [hcommitted, view_of_not_changes hnot, hrow], hrev⟩
    intro j howner hchanges
    by_cases hj : j = i
    · subst hj
      exact not_busy_committed hconnections r (.inl hchanges)
    · exact hnone j howner ((changes_same (connections_other hconnections hj)).mp hchanges)

/-- The process of the connection finds what it remembers committed. -/
theorem current_of_committed (h : cl.Coherent owner) {r : RunId} {row : RunRow} (hbusy : cl.Busy i r)
    (hrow : (cl.view i).runsSemantic.get? r = some row) : cl'.Current owner (owner i) r row.revision := by
  refine .inr ⟨?_, row, by rw [hcommitted, hrow], rfl⟩
  intro j howner hchanges
  by_cases hj : j = i
  · subst hj
    exact not_busy_committed hconnections r (.inl hchanges)
  · rw [changes_same (connections_other hconnections hj)] at hchanges
    exact h.exclusive i j r (Ne.symm hj) howner.symm hbusy (.inl hchanges)

/-- A connection that has yet to return knows none of the Runs that are committed now. -/
theorem remembers_committed (h : cl.Coherent owner) (hunseen : cl.Unseen owner i) {j : ι} (hji : j ≠ i) {log : List RowWrite}
    {after : InsertionDict RunId ℤ → EStateM.Result Exn (InsertionDict RunId ℤ) Unit}
    (hj : cl.connections j = .returning log after) (d : InsertionDict RunId ℤ) :
    Remembers (fun _ => True) (cl'.view j) d (after d).state := by
  intro r
  have hother := connections_other hconnections hji
  rcases h.returning j log after hj d r with hsame | ⟨_, row, hrow, hset⟩
  · exact .inl hsame
  · by_cases hchanges : cl.Changes j r
    · exact .inr ⟨trivial, row, by rw [view_of_changes hother hchanges, hrow], hset⟩
    · by_cases hwritten : cl.Changes i r
      · left
        by_contra hdiffers
        have hbusy : cl.Busy j r := by
          right
          rw [hj]
          exact ⟨d, hdiffers⟩
        by_cases howner : owner j = owner i
        · exact h.exclusive i j r (Ne.symm hji) howner.symm (.inl hwritten) hbusy
        · exact (hunseen r hwritten).2 j howner hbusy
      · have hnot : ¬cl'.Changes j r := fun hc => hchanges ((changes_same hother).mp hc)
        refine .inr ⟨trivial, row, ?_, hset⟩
        rw [view_of_not_changes hnot, hcommitted, view_of_not_changes hwritten, ← view_of_not_changes hchanges, hrow]

end Committed

variable [DecidableEq π] {revisions : InsertionDict RunId ℤ}

/-- One connection has gone on, and its process remembers more. -/
theorem Coherent.replaced {cl cl' : PgCluster ι π} (h : cl.Coherent owner) {i : ι} {S W : RunId → Prop} (hcommitted : cl'.committed = cl.committed)
    (hconnections : cl'.connections = Function.update cl.connections i c)
    (hrevisions : cl'.runRevisions = Function.update cl.runRevisions (owner i) revisions)
    (hlog : ∀ r, WritesRun c.log r ↔ cl.Changes i r ∨ W r)
    (hview : ∀ r, ¬W r → (cl'.view i).runsSemantic.get? r = (cl.view i).runsSemantic.get? r)
    (htracked : ∀ r, (¬W r ∧ revisions.get? r = (cl.runRevisions (owner i)).get? r) ∨
      S r ∧ ∃ row, (cl'.view i).runsSemantic.get? r = some row ∧ (revisions.get? r = some row.revision ∨
        ((cl.view i).runsSemantic.get? r = none ∧ revisions.get? r = (cl.runRevisions (owner i)).get? r)))
    (hreturning : ∀ log after, c = .returning log after → ∀ d, Remembers S (cl'.view i) d (after d).state)
    (hfree : ∀ r, S r → ∀ j, j ≠ i → owner j = owner i → ¬cl.Busy j r) : cl'.Coherent owner := by
  have hother : ∀ {j}, j ≠ i → cl'.connections j = cl.connections j := connections_other hconnections
  have hwritten : ∀ r, W r → S r := fun r hW => (htracked r).elim (fun hkept => absurd hW hkept.1) And.left
  have hexclusive : ∀ j, j ≠ i → owner j = owner i → ∀ r, cl'.Busy i r → ¬cl'.Busy j r := by
    intro j hj howner r hi hbusy
    rw [busy_same (hother hj)] at hbusy
    rcases busy_replaced hconnections hlog hwritten hreturning hi with hold | hS
    · exact h.exclusive i j r (Ne.symm hj) howner.symm hold hbusy
    · exact hfree r hS j hj howner hbusy
  refine ⟨?_, ?_, ?_⟩
  · intro p r v hv
    by_cases hp : p = owner i
    · subst hp
      rw [hrevisions, Function.update_self] at hv
      rcases htracked r with ⟨hnot, hsame⟩ | ⟨hS, row, hrow, hset | ⟨hfresh, hsame⟩⟩
      · rw [hsame] at hv
        exact (h.remembered _ r v hv).replaced hcommitted hconnections hlog (fun _ => hnot) (hview r)
      · rw [hset, Option.some.injEq] at hv
        subst hv
        exact current_of_view hconnections hrow (hfree r hS)
      · -- the process has not remembered a Run that was not there
        rw [hsame] at hv
        obtain ⟨u, hu, _⟩ := h.seen (hfree r hS) hv
        rw [hfresh] at hu
        cases hu
    · rw [hrevisions, Function.update_of_ne hp] at hv
      exact (h.remembered p r v hv).replaced hcommitted hconnections hlog (fun howner => absurd howner.symm hp) (hview r)
  · intro j log after hj d
    by_cases hji : j = i
    · subst hji
      intro r
      rw [hconnections, Function.update_self] at hj
      rcases hreturning log after hj d r with hsame | ⟨_, row, hrow, hset⟩
      · exact .inl hsame
      · exact .inr ⟨trivial, row, hrow, hset⟩
    · rw [hother hji] at hj
      have hviewOther : cl'.view j = cl.view j := by
        unfold view
        rw [hother hji, hcommitted]
      rw [hviewOther]
      exact h.returning j log after hj d
  · intro j k r hjk howner hj hk
    by_cases hji : j = i
    · subst hji
      exact hexclusive k (Ne.symm hjk) howner.symm r hj hk
    · by_cases hki : k = i
      · subst hki
        exact hexclusive j hji howner r hk hj
      · rw [busy_same (hother hji)] at hj
        rw [busy_same (hother hki)] at hk
        exact h.exclusive j k r hjk howner hj hk

/-- One connection has committed, and nobody else knows the Runs that it has written. -/
theorem Coherent.committedBy {cl cl' : PgCluster ι π} (h : cl.Coherent owner) {i : ι} (hcommitted : cl'.committed = cl.view i)
    (hconnections : cl'.connections = Function.update cl.connections i .idle)
    (hrevisions : cl'.runRevisions = Function.update cl.runRevisions (owner i) revisions)
    (htracked : ∀ r, revisions.get? r = (cl.runRevisions (owner i)).get? r ∨
      cl.Busy i r ∧ ∃ row, (cl.view i).runsSemantic.get? r = some row ∧ revisions.get? r = some row.revision)
    (hunseen : cl.Unseen owner i) : cl'.Coherent owner := by
  refine ⟨?_, ?_, ?_⟩
  · intro p r v hv
    by_cases hp : p = owner i
    · subst hp
      rw [hrevisions, Function.update_self] at hv
      rcases htracked r with hsame | ⟨hbusy, row, hrow, hset⟩
      · rw [hsame] at hv
        by_cases hchanges : cl.Changes i r
        · rcases h.remembered _ r v hv with ⟨j, howner, hj, row, hrow, rfl⟩ | ⟨hnone, _⟩
          · by_cases hji : j = i
            · subst hji
              exact current_of_committed hcommitted hconnections h (.inl hchanges) hrow
            · exact absurd (.inl hj) (h.exclusive i j r (Ne.symm hji) howner.symm (.inl hchanges))
          · exact absurd hchanges (hnone i rfl)
        · exact (h.remembered _ r v hv).committedBy hcommitted hconnections hchanges
      · rw [hset, Option.some.injEq] at hv
        subst hv
        exact current_of_committed hcommitted hconnections h hbusy hrow
    · rw [hrevisions, Function.update_of_ne hp] at hv
      by_cases hchanges : cl.Changes i r
      · rw [(hunseen r hchanges).1 p hp] at hv
        cases hv
      · exact (h.remembered p r v hv).committedBy hcommitted hconnections hchanges
  · intro j log after hj d
    have hji : j ≠ i := by
      rintro rfl
      rw [hconnections, Function.update_self] at hj
      cases hj
    rw [connections_other hconnections hji] at hj
    exact remembers_committed hcommitted hconnections h hunseen hji hj d
  · intro j k r hjk howner hj hk
    have hne : ∀ {j}, cl'.Busy j r → j ≠ i := by
      rintro j hbusy rfl
      exact not_busy_committed hconnections r hbusy
    have hji := hne hj
    have hki := hne hk
    rw [busy_same (connections_other hconnections hji)] at hj
    rw [busy_same (connections_other hconnections hki)] at hk
    exact h.exclusive j k r hjk howner hj hk

/-! ## What a step can do -/

/-- The connection has gone on by some statements, none of which is committed. -/
structure Advanced (owner : ι → π) (cl cl' : PgCluster ι π) (i : ι) (S : RunId → Prop) (c : PgConnection)
    (revisions : InsertionDict RunId ℤ) (ws : List RowWrite) : Prop where
  committed : cl'.committed = cl.committed
  connections : cl'.connections = Function.update cl.connections i c
  runRevisions : cl'.runRevisions = Function.update cl.runRevisions (owner i) revisions
  log : c.log = (cl.connections i).log ++ ws
  readable : (cl.view i).Readable → ∀ row, RowWrite.run row ∈ ws → row.Readable
  tracked : ∀ r, (¬WritesRun ws r ∧ revisions.get? r = (cl.runRevisions (owner i)).get? r) ∨
    S r ∧ ∃ row, (cl'.view i).runsSemantic.get? r = some row ∧ (revisions.get? r = some row.revision ∨
      ((cl.view i).runsSemantic.get? r = none ∧ revisions.get? r = (cl.runRevisions (owner i)).get? r))
  returning : ∀ log after, c = .returning log after → ∀ d, Remembers S (cl'.view i) d (after d).state

/-- The transaction of the connection is committed, and what follows the commit is done. -/
structure Committed (owner : ι → π) (cl cl' : PgCluster ι π) (i : ι) (revisions : InsertionDict RunId ℤ) : Prop where
  committed : cl'.committed = cl.view i
  connections : cl'.connections = Function.update cl.connections i .idle
  runRevisions : cl'.runRevisions = Function.update cl.runRevisions (owner i) revisions
  tracked : revisions = cl.runRevisions (owner i) ∨ ∃ log after, cl.connections i = .returning log after ∧
    revisions = (after (cl.runRevisions (owner i))).state

structure RolledBack (cl cl' : PgCluster ι π) (i : ι) : Prop where
  committed : cl'.committed = cl.committed
  connections : cl'.connections = Function.update cl.connections i .idle
  runRevisions : cl'.runRevisions = cl.runRevisions

theorem view_moved (cl : PgCluster ι π) (i : ι) (c : PgConnection) (held : List RowKey) (d : InsertionDict RunId ℤ) :
    (cl.moved owner i c held d).view i = cl.committed.replay c.log := by
  change cl.committed.replay (Function.update cl.connections i c i).log = _
  rw [Function.update_self]

theorem connections_closed (cl : PgCluster ι π) (i : ι) (db : Database) (d : InsertionDict RunId ℤ) :
    (cl.closed owner i db d).connections i = .idle := by
  change Function.update cl.connections i _ i = _
  rw [Function.update_self]

theorem advanced_callOutside (owner : ι → π) {cl : PgCluster ι π} {i : ι} (hidle : cl.connections i = .idle) (op : StoreOp)
    (env : Supply) (server : PgServer) : cl.callOutside owner i op env server = cl ∨ ∃ c revisions ws,
      Advanced owner cl (cl.callOutside owner i op env server) i (fun r => op.ConcernsRun (cl.view i) r) c revisions ws := by
  have heffect := hasEffect_postgres (cl.seenBy i server) env op (cl.session owner i)
  unfold Ends at heffect
  unfold callOutside
  dsimp only
  cases hrun : (op.postgres (cl.seenBy i server) env).connection (cl.session owner i) with
  | ok row p =>
    rw [hrun] at heffect
    dsimp only
    split
    · exact .inl rfl
    · right
      obtain ⟨⟨ws, hlog, hdb, hreadable, htracked⟩, hafter⟩ := heffect
      have hview : (cl.moved owner i (.returning p.log (discard ((op.postgres (cl.seenBy i server) env).after row)))
          p.held p.runRevisions).view i = p.db := by
        rw [view_moved, hdb]
        change cl.committed.replay p.log = (cl.view i).replay ws
        have hnil : (cl.session owner i).log = [] := by
          unfold session
          rw [hidle]
          rfl
        rw [hlog, hnil, view_idle hidle, List.nil_append]
      refine ⟨_, p.runRevisions, ws, rfl, rfl, rfl, hlog, hreadable, ?_, ?_⟩
      · intro r
        rw [hview]
        rcases htracked r with hkept | ⟨hS, u, hu, hset | ⟨hfresh, hsame, _⟩⟩
        · exact .inl hkept
        · exact .inr ⟨hS, u, hu, .inl hset⟩
        · exact .inr ⟨hS, u, hu, .inr ⟨hfresh, hsame⟩⟩
      · rintro log after hc d
        cases hc
        rw [hview]
        exact hafter d
  | error e p =>
    rw [hrun] at heffect
    dsimp only
    split
    · exact .inl rfl
    · right
      have hview : (cl.closed owner i cl.committed p.runRevisions).view i = cl.view i := by
        rw [view_idle hidle]
        exact view_idle (connections_closed cl i cl.committed p.runRevisions)
      refine ⟨.idle, p.runRevisions, [], rfl, rfl, rfl, by rw [hidle]; rfl, fun _ _ hu => absurd hu List.not_mem_nil, ?_, ?_⟩
      · intro r
        rw [hview]
        rcases heffect.remembers r with hsame | ⟨hS, row, hrow, hset⟩
        · exact .inl ⟨not_writesRun_nil r, hsame⟩
        · exact .inr ⟨hS, row, hrow, .inl hset⟩
      · rintro log after hc
        cases hc

theorem advanced_callInside (owner : ι → π) (cl : PgCluster ι π) (i : ι) (op : StoreOp) (env : Supply) (server : PgServer) :
    cl.callInside owner i op env server = cl ∨ ∃ c revisions ws,
      Advanced owner cl (cl.callInside owner i op env server) i (fun r => op.ConcernsRun (cl.view i) r) c revisions ws := by
  have hsettled := (hasEffect_postgres (cl.seenBy i server) env op).exec (cl.session owner i)
  unfold callInside
  dsimp only
  generalize ((op.postgres (cl.seenBy i server) env).exec (cl.session owner i)).state = p at hsettled
  split
  · exact .inl rfl
  · right
    obtain ⟨ws, hlog, hdb, hreadable, htracked⟩ := hsettled
    have hview : (cl.moved owner i (.batch p.log p.aborted) p.held p.runRevisions).view i = p.db := by
      rw [view_moved, hdb]
      change cl.committed.replay p.log = (cl.view i).replay ws
      rw [hlog]
      exact replay_append _ _ _
    refine ⟨_, p.runRevisions, ws, rfl, rfl, rfl, hlog, hreadable, ?_, ?_⟩
    · intro r
      rw [hview]
      rcases htracked r with hkept | ⟨hS, u, hu, hset⟩
      · exact .inl hkept
      · exact .inr ⟨hS, u, hu, .inl hset⟩
    · rintro log after hc
      cases hc

theorem advanced_enterBatch (owner : ι → π) {cl : PgCluster ι π} {i : ι} (hidle : cl.connections i = .idle) :
    Advanced owner cl { cl with connections := Function.update cl.connections i (.batch [] false), autonomy := some i } i
      (fun _ => False) (.batch [] false) (cl.runRevisions (owner i)) [] where
  committed := rfl
  connections := rfl
  runRevisions := (Function.update_eq_self _ _).symm
  log := by
    rw [hidle]
    rfl
  readable := fun _ _ hrow => absurd hrow List.not_mem_nil
  tracked := fun r => .inl ⟨not_writesRun_nil r, rfl⟩
  returning := by
    intro log after hc
    cases hc

theorem rolledBack_closed (owner : ι → π) (cl : PgCluster ι π) (i : ι) :
    RolledBack cl (cl.closed owner i cl.committed (cl.runRevisions (owner i))) i where
  committed := rfl
  connections := rfl
  runRevisions := Function.update_eq_self _ _

/-! ## Coherent runs -/

/-- Every step, with what it may rely on in an undisturbed run. -/
theorem step_cases (owner : ι → π) (cl : PgCluster ι π) (i : ι) (a : PgStep) : cl.step owner i a = cl ∨
    (∃ S c revisions ws, Advanced owner cl (cl.step owner i a) i S c revisions ws ∧
      (cl.Undisturbed owner (i, a) → ∀ r, S r → ∀ j, j ≠ i → owner j = owner i → ¬cl.Busy j r)) ∨
    (∃ revisions, Committed owner cl (cl.step owner i a) i revisions ∧ (cl.Undisturbed owner (i, a) → cl.Unseen owner i)) ∨
    RolledBack cl (cl.step owner i a) i ∧ (cl.Undisturbed owner (i, a) → ∀ r, ¬cl.Changes i r) := by
  unfold step Undisturbed
  cases hconnection : cl.connections i with
  | idle =>
    cases a with
    | call op env server =>
      rcases advanced_callOutside owner hconnection op env server with hsame | ⟨c, revisions, ws, hadvanced⟩
      · exact .inl hsame
      · exact .inr (.inl ⟨_, c, revisions, ws, hadvanced, And.left⟩)
    | enterBatch =>
      cases cl.autonomy with
      | some j => exact .inl rfl
      | none => exact .inr (.inl ⟨_, _, _, _, advanced_enterBatch owner hconnection, fun _ _ hS => hS.elim⟩)
    | finish => exact .inl rfl
    | leaveBatch => exact .inl rfl
    | raiseInBatch => exact .inl rfl
  | returning log after =>
    cases a with
    | finish =>
      refine .inr (.inr (.inl ⟨_, ⟨?_, rfl, rfl, .inr ⟨log, after, hconnection, rfl⟩⟩, id⟩))
      unfold view
      rw [hconnection]
      rfl
    | call op env server => exact .inl rfl
    | enterBatch => exact .inl rfl
    | leaveBatch => exact .inl rfl
    | raiseInBatch => exact .inl rfl
  | batch log aborted =>
    cases a with
    | call op env server =>
      rcases advanced_callInside owner cl i op env server with hsame | ⟨c, revisions, ws, hadvanced⟩
      · exact .inl hsame
      · exact .inr (.inl ⟨_, c, revisions, ws, hadvanced, And.left⟩)
    | leaveBatch =>
      cases aborted with
      | true => exact .inr (.inr (.inr ⟨rolledBack_closed owner cl i, id⟩))
      | false =>
        refine .inr (.inr (.inl ⟨_, ⟨?_, rfl, rfl, .inl rfl⟩, id⟩))
        unfold view
        rw [hconnection]
        rfl
    | raiseInBatch => exact .inr (.inr (.inr ⟨rolledBack_closed owner cl i, id⟩))
    | finish => exact .inl rfl
    | enterBatch => exact .inl rfl

theorem Advanced.coherent {cl cl' : PgCluster ι π} {i : ι} {S : RunId → Prop} {ws : List RowWrite} (h : Advanced owner cl cl' i S c revisions ws)
    (hcl : cl.Coherent owner) (hfree : ∀ r, S r → ∀ j, j ≠ i → owner j = owner i → ¬cl.Busy j r) : cl'.Coherent owner := by
  apply hcl.replaced h.committed h.connections h.runRevisions _ _ h.tracked h.returning hfree
  · intro r
    rw [h.log]
    exact writesRun_append
  · intro r hnot
    have hself : cl'.connections i = c := by rw [h.connections, Function.update_self]
    unfold view
    rw [hself, h.committed, h.log, replay_append]
    exact runs_replay_of_not_writes _ hnot

theorem RolledBack.coherent {cl cl' : PgCluster ι π} {i : ι} (h : RolledBack cl cl' i) (hcl : cl.Coherent owner)
    (hnone : ∀ r, ¬cl.Changes i r) : cl'.Coherent owner := by
  have hself : cl'.connections i = .idle := by rw [h.connections, Function.update_self]
  have hrevisions : cl'.runRevisions = Function.update cl.runRevisions (owner i) (cl.runRevisions (owner i)) := by
    rw [h.runRevisions, Function.update_eq_self]
  apply hcl.replaced (S := fun _ => False) (W := fun _ => False) h.committed h.connections hrevisions
  · intro r
    constructor
    · exact fun hr => absurd hr (not_writesRun_nil r)
    · rintro (hr | hr)
      · exact absurd hr (hnone r)
      · exact hr.elim
  · intro r _
    rw [view_idle hself, h.committed, view_of_not_changes (hnone r)]
  · exact fun r => .inl ⟨id, rfl⟩
  · rintro log after hc
    cases hc
  · exact fun _ hS => hS.elim

theorem Committed.coherent {cl cl' : PgCluster ι π} {i : ι}
    (h : Committed owner cl cl' i revisions) (hcl : cl.Coherent owner) (hunseen : cl.Unseen owner i) :
    cl'.Coherent owner := by
  apply hcl.committedBy h.committed h.connections h.runRevisions _ hunseen
  intro r
  rcases h.tracked with hsame | ⟨log, after, hconnection, hsettled⟩
  · exact .inl (by rw [hsame])
  · rw [hsettled]
    by_cases hsame : (after (cl.runRevisions (owner i))).state.get? r = (cl.runRevisions (owner i)).get? r
    · exact .inl hsame
    · rcases hcl.returning i log after hconnection (cl.runRevisions (owner i)) r with heq | ⟨_, row, hrow, hset⟩
      · exact absurd heq hsame
      · refine .inr ⟨.inr ?_, row, hrow, hset⟩
        rw [hconnection]
        exact ⟨_, hsame⟩

theorem coherent_step (cl : PgCluster ι π) (s : ι × PgStep) (h : cl.Coherent owner) (hs : cl.Undisturbed owner s) :
    (clusterStep owner cl s).Coherent owner := by
  obtain ⟨i, a⟩ := s
  unfold clusterStep
  rcases step_cases owner cl i a with hsame | ⟨S, c, revisions, ws, hadvanced, hfree⟩ | ⟨revisions, hcommitted, hunseen⟩ |
    ⟨hrolled, hnone⟩
  · dsimp only
    rw [hsame]
    exact h
  · exact hadvanced.coherent h (hfree hs)
  · exact hcommitted.coherent h (hunseen hs)
  · exact hrolled.coherent h (hnone hs)

theorem legible_step (owner : ι → π) (cl : PgCluster ι π) (s : ι × PgStep) (h : cl.Legible) :
    (clusterStep owner cl s).Legible := by
  obtain ⟨i, a⟩ := s
  unfold clusterStep
  have hnil : ∀ row, RowWrite.run row ∈ PgConnection.idle.log → row.Readable :=
    fun _ hrow => absurd hrow List.not_mem_nil
  rcases step_cases owner cl i a with hsame | ⟨S, c, revisions, ws, hadvanced, _⟩ | ⟨revisions, hcommitted, _⟩ |
    ⟨hrolled, _⟩
  · dsimp only
    rw [hsame]
    exact h
  · apply h.replaced hadvanced.connections (hadvanced.committed ▸ h.committed)
    intro row hrow
    rw [hadvanced.log, List.mem_append] at hrow
    rcases hrow with hold | hnew
    · exact h.written i row hold
    · exact hadvanced.readable (h.view i) row hnew
  · exact h.replaced hcommitted.connections (hcommitted.committed ▸ h.view i) hnil
  · exact h.replaced hrolled.connections (hrolled.committed ▸ h.committed) hnil

theorem Alone.replaced {cl cl' : PgCluster ι π} {i : ι} (h : cl.Alone owner i) (hconnections : cl'.connections = Function.update cl.connections i c)
    (hrevisions : cl'.runRevisions = Function.update cl.runRevisions (owner i) revisions) : cl'.Alone owner i := by
  constructor
  · intro p hp
    rw [hrevisions, Function.update_of_ne hp]
    exact h.forgotten p hp
  · intro j hj
    rw [hconnections, Function.update_of_ne hj]
    exact h.idle j hj

theorem Alone.step {cl : PgCluster ι π} {i : ι} (h : cl.Alone owner i) (a : PgStep) :
    (clusterStep owner cl (i, a)).Alone owner i := by
  unfold clusterStep
  rcases step_cases owner cl i a with hsame | ⟨S, c, revisions, ws, hadvanced, _⟩ | ⟨revisions, hcommitted, _⟩ |
    ⟨hrolled, _⟩
  · dsimp only
    rw [hsame]
    exact h
  · exact h.replaced hadvanced.connections hadvanced.runRevisions
  · exact h.replaced hcommitted.connections hcommitted.runRevisions
  · have hrevisions : (cl.step owner i a).runRevisions =
        Function.update cl.runRevisions (owner i) (cl.runRevisions (owner i)) := by
      rw [hrolled.runRevisions, Function.update_eq_self]
    exact h.replaced hrolled.connections hrevisions

end PgCluster

/-- In every interleaving whose steps are undisturbed, `current_run_revision` returns the revision that is
stored when it is called. -/
theorem returnsStored_of_undisturbed [DecidableEq ι] [DecidableEq π] {db : Database} (hdb : db.Readable) {steps : List (ι × PgStep)}
    (h : EveryStep (clusterStep owner) (PgCluster.Undisturbed owner) (.start db) steps) :
    EveryStep (clusterStep owner) (PgCluster.ReturnsStored owner) (.start db) steps := by
  intro before s after hsteps
  have hbefore : EveryStep (clusterStep owner) (PgCluster.Undisturbed owner) (.start db) before := by
    rw [hsteps] at h
    exact MachineRuns.everyStep_append_left h
  have hcoherent := MachineRuns.invariant_of_everyStep PgCluster.coherent_step (PgCluster.coherent_start owner db) hbefore
  have hlegible := MachineRuns.invariant_run (PgCluster.legible_step owner) (PgCluster.legible_start hdb) before
  exact PgCluster.returnsStored_of_coherent hcoherent hlegible (h before s after hsteps)

end Coherence

def numberedEvent (n : String) : SemanticEvent := { sampleEvent with eventId := ⟨n⟩ }

def heapServer : PgServer := ⟨fun rows => rows, fun rows => .refl rows, fun _ => false⟩

def wholeCall (process : ℕ) (op : StoreOp) : List (ℕ × PgStep) :=
  [(process, .call op frozenSupply heapServer), (process, .finish)]

def creatingRun : List (ℕ × PgStep) :=
  wholeCall 0 (.createGoal sampleGoal (numberedEvent "evt_1")) ++
    wholeCall 0 (.createWork sampleWork (numberedEvent "evt_2")) ++
    wholeCall 0 (.createRun sampleRun (numberedEvent "evt_3"))

def runMovedByOther : List (ℕ × PgStep) :=
  creatingRun ++ wholeCall 1 (.transitionRunStatus sampleRun.runId .running 1 (numberedEvent "evt_4") none)

def askedRevision : ℕ × PgStep := (0, .call (.runRevision sampleRun.runId) frozenSupply heapServer)

/-- The first process has created a Run at revision 1, another one has started it, and the first process
still returns 1 where the row has 2. -/
theorem stale_revision_of_other_process :
    ¬EveryStep (clusterStep id) (PgCluster.ReturnsStored id) (.start .empty : PgCluster ℕ ℕ)
      (runMovedByOther ++ [askedRevision]) := by
  intro h
  have hcached : ((MachineRuns.run (clusterStep id) (.start .empty : PgCluster ℕ ℕ) runMovedByOther).runRevisions
      0).get? sampleRun.runId = some 1 := by
    decide +kernel
  have hstored : (((MachineRuns.run (clusterStep id) (.start .empty : PgCluster ℕ ℕ) runMovedByOther).view
      0).runsSemantic.get? sampleRun.runId).map RunRow.revision = some 2 := by
    decide +kernel
  obtain ⟨row, hrow, hrevision⟩ := (h runMovedByOther askedRevision [] rfl).of_cached hcached
  rw [hrow, Option.map_some, Option.some.injEq] at hstored
  have himpossible : (2 : ℤ) = 1 := hstored.symm.trans hrevision
  cases himpossible

/-- One process alone creates a Run and asks for its revision. -/
theorem returnsStored_of_one_process :
    EveryStep (clusterStep id) (PgCluster.ReturnsStored id) (.start .empty : PgCluster ℕ ℕ)
      (creatingRun ++ [askedRevision]) := by
  apply returnsStored_of_undisturbed
  · intro r row hrow
    cases hrow
  have halone : (.start .empty : PgCluster ℕ ℕ).Alone id 0 := ⟨fun _ _ => rfl, fun _ _ => rfl⟩
  have hgoal := halone.step (.call (.createGoal sampleGoal (numberedEvent "evt_1")) frozenSupply heapServer)
  have hwork := (hgoal.step .finish).step
    (.call (.createWork sampleWork (numberedEvent "evt_2")) frozenSupply heapServer)
  have hrun := (hwork.step .finish).step
    (.call (.createRun sampleRun (numberedEvent "evt_3")) frozenSupply heapServer)
  simp only [creatingRun, wholeCall, List.cons_append, List.nil_append, MachineRuns.everyStep_cons]
  refine ⟨halone.undisturbed_call rfl, hgoal.undisturbed_finish, (hgoal.step .finish).undisturbed_call ?_,
    hwork.undisturbed_finish, (hwork.step .finish).undisturbed_call ?_, hrun.undisturbed_finish,
    (hrun.step .finish).undisturbed_call ?_, MachineRuns.everyStep_nil⟩
  · decide +kernel
  · decide +kernel
  · decide +kernel

end AllTomorrow
