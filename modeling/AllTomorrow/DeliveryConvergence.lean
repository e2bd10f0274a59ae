import AllTomorrow.DeliveryStore
import AllTomorrow.DeliveryProgress
import AllTomorrow.InterferenceTriples

/-!
# Workers that reconcile one delivery at the same time

A worker holds a record that it has read some time ago. As long as the stored record has
the same revision it is the same record, so a compare-and-set that wins writes a successor
of what is stored; the others find a later revision.
-/

namespace AllTomorrow

open MachineRuns (EveryStep everyStep_append_left everyStep_cons run_append run_cons run_nil)

open DeliveryReconciler Prog

/-! ## What a reconciler returns -/

/-- The record that `reconcile` returns for a given one. -/
def Succeeds (record updated : DeliveryRecord) : Prop :=
  (record.isTerminal = true ∧ updated = record) ∨
    record.isTerminal = false ∧ ∃ made status error deliveredAt now, updated = record.next made status error deliveredAt now

section Returns

variable (record : DeliveryRecord)

def ReturnsNext (x : DeliveryTask DeliveryRecord) : Prop :=
  OnlyReturns (fun r : Except Raised DeliveryRecord =>
    ∀ updated, r = .ok updated → ∃ made status error deliveredAt now,
      updated = record.next made status error deliveredAt now) x.run

variable {record}

theorem returnsNext_pure {made : ℕ} {status : DeliveryStatus} {error : Option CanonicalError}
    {deliveredAt : Option Datetime} {now : Datetime} :
    ReturnsNext record (pure (record.next made status error deliveredAt now)) := by
  intro updated h
  cases h
  exact ⟨made, status, error, deliveredAt, now, rfl⟩

theorem returnsNext_await {a : DeliveryAction} {f : a.Value → DeliveryTask DeliveryRecord}
    (hf : ∀ v, ReturnsNext record (f v)) : ReturnsNext record (a.await >>= f) := by
  intro answer
  cases answer with
  | ok v => exact hf v
  | error exc =>
    intro updated h
    cases h

variable (now : Datetime)

theorem returnsNext_dispatchRunStart : ReturnsNext record (dispatchRunStart record now) := by
  apply returnsNext_await
  exact fun _ => returnsNext_pure

theorem returnsNext_dispatchQuestionSignal (env : Supply) (now : Datetime) :
    ReturnsNext record (dispatchQuestionSignal env record now) := by
  unfold dispatchQuestionSignal
  cases href : signalRef env record with
  | error exc =>
    intro updated h
    cases h
  | ok ref =>
    have hsignal : ReturnsNext record (do
        let sigRes ← (DeliveryAction.signal ref ((record.payload.get? "signal_name").getD (.str "user_answer"))
          ((record.subjectRefs.get? "signal_id").getD record.idempotencyKey)
          ((record.payload.get? "signal_payload").getD (.dict []))).await
        if sigRes.outcome = .delivered ∨ sigRes.outcome = .duplicateIgnored then
          return record.next 1 .delivered none (some now) now
        else return record.next 1 .failed sigRes.error none now) := by
      apply returnsNext_await
      intro res
      split <;> exact returnsNext_pure
    exact hsignal

variable (reconciler : DeliveryReconciler)

theorem returnsNext_dispatch (env : Supply) (now : Datetime) : ReturnsNext record (reconciler.dispatch env record now) := by
  have hhandler : ∀ kind, ReturnsNext record (if reconciler.handles kind then do
      let answer ← (DeliveryAction.handleDelivery record).await
      if answer.1 then return record.next 1 .delivered answer.2 (some now) now
      else return record.next 1 .failed answer.2 none now
    else return record.next 1 .failed (some (unsupportedKind record)) none now) := by
    intro kind
    split
    · apply returnsNext_await
      intro answer
      split <;> exact returnsNext_pure
    · exact returnsNext_pure
  unfold dispatch
  cases record.kind with
  | runStart => exact returnsNext_dispatchRunStart now
  | questionSignal => exact returnsNext_dispatchQuestionSignal env now
  | _ => exact hhandler _

theorem returnsNext_executionFound (res : ExecutionStatusResult) :
    ReturnsNext record (pure (executionFound record now res)) := by
  unfold executionFound
  split <;> exact returnsNext_pure

theorem returnsNext_probe : ReturnsNext record (probe record now) := by
  apply returnsNext_await
  intro found
  cases found with
  | none => exact returnsNext_dispatchRunStart now
  | some ref =>
    apply returnsNext_await
    intro res
    split
    · split
      · exact returnsNext_dispatchRunStart now
      · split
        · exact returnsNext_pure
        · exact returnsNext_executionFound now res
    · exact returnsNext_executionFound now res

/-- Whatever it is answered, `reconcile` returns the record itself or a successor. -/
theorem onlyReturns_reconcile (env : Supply) (record : DeliveryRecord) :
    OnlyReturns (Succeeds record) (reconciler.reconcile env record) := by
  unfold reconcile
  split
  · next hterminal => exact .inl ⟨hterminal, rfl⟩
  · next hopen =>
    rw [Bool.not_eq_true] at hopen
    have hnext : ∀ made status error deliveredAt now,
        Succeeds record (record.next made status error deliveredAt now) :=
      fun made status error deliveredAt now => .inr ⟨hopen, made, status, error, deliveredAt, now, rfl⟩
    dsimp only
    split
    · exact hnext ..
    · split
      · unfold reconcileAmbiguous
        dsimp only
        split
        · apply OnlyReturns.bind (returnsNext_probe (env.sub 1).utcNow)
          intro r hr
          cases r with
          | ok updated => exact .inr ⟨hopen, hr updated rfl⟩
          | error exc => exact hnext ..
        · exact hnext ..
      · split
        · exact hnext ..
        · apply OnlyReturns.bind (returnsNext_dispatch reconciler (env.sub 1) (env.sub 0).utcNow)
          intro r hr
          cases r with
          | ok updated => exact .inr ⟨hopen, hr updated rfl⟩
          | error exc => exact hnext ..

end Returns

/-! ## One step of the store -/

/-- Every record is filed under its identifier, and the index has its key and no others. -/
structure DeliveryStore.Indexed (s : DeliveryStore) : Prop where
  keyed : ∀ id r, s.recordsById.get? id = some r →
    r.deliveryId = id ∧ s.recordsByIdempotencyKey.get? r.idempotencyKey = some id
  indexed : ∀ key id, s.recordsByIdempotencyKey.get? key = some id →
    ∃ r, s.recordsById.get? id = some r ∧ r.idempotencyKey = key

/-- No record is lost, and one that changes was open and has the next revision. -/
def DeliveryStore.Succeeded (s s' : DeliveryStore) : Prop :=
  ∀ id r, s.recordsById.get? id = some r → ∃ r', s'.recordsById.get? id = some r' ∧
    (r' = r ∨ r'.revision = r.revision + 1 ∧ r.isTerminal = false)

def DeliveryStore.Seen (s : DeliveryStore) (r : DeliveryRecord) : Prop :=
  ∃ current, s.recordsById.get? r.deliveryId = some current ∧ (current = r ∨ r.revision < current.revision)

/-- `create_delivery` and `atomic_app_transaction` use identifiers that are not in use. -/
def UsesFreshId (s : DeliveryStore) : DeliveryRequest → Prop
  | .createDelivery _ record => s.recordsById.get? record.deliveryId = none
  | .atomicAppTransaction _ intent _ => s.recordsById.get? intent.deliveryId = none
  | _ => True

/-- A compare-and-set writes the successor of a record that was stored, for its revision. -/
def WritesSuccessor (s : DeliveryStore) : DeliveryRequest → Prop
  | .updateCas expectedRevision updated => ∃ r, s.Seen r ∧ expectedRevision = r.revision ∧ Succeeds r updated
  | _ => True

namespace DeliveryStore

variable {s s' : DeliveryStore} {r : DeliveryRecord}

theorem Succeeded.refl (s : DeliveryStore) : s.Succeeded s := fun _ r hr => ⟨r, hr, .inl rfl⟩

theorem Seen.succeeded (h : s.Seen r) (hs : s.Succeeded s') : s'.Seen r := by
  obtain ⟨current, hcurrent, hrev⟩ := h
  obtain ⟨next, hnext, hsame | ⟨hlater, _⟩⟩ := hs _ current hcurrent
  · subst hsame
    exact ⟨next, hnext, hrev⟩
  · refine ⟨next, hnext, .inr ?_⟩
    rcases hrev with rfl | hlt
    · omega
    · omega

theorem Seen.eq_of_revision (h : s.Seen r) {current : DeliveryRecord}
    (hcurrent : s.recordsById.get? r.deliveryId = some current) (hrev : current.revision = r.revision) : current = r := by
  obtain ⟨stored, hstored, hsame | hlt⟩ := h
  · rw [hcurrent, Option.some.injEq] at hstored
    exact hstored.trans hsame
  · rw [hcurrent, Option.some.injEq] at hstored
    subst hstored
    omega

def inserted (s : DeliveryStore) (record : DeliveryRecord) : DeliveryStore where
  recordsById := s.recordsById.set record.deliveryId record
  recordsByIdempotencyKey := s.recordsByIdempotencyKey.set record.idempotencyKey record.deliveryId

variable {record : DeliveryRecord}

theorem succeeded_inserted (hfresh : s.recordsById.get? record.deliveryId = none) : s.Succeeded (s.inserted record) := by
  intro id r hr
  refine ⟨r, ?_, .inl rfl⟩
  have hne : id ≠ record.deliveryId := by
    rintro rfl
    rw [hfresh] at hr
    cases hr
  exact (s.recordsById.get?_set_of_ne record hne).trans hr

theorem Indexed.inserted (h : s.Indexed) (hfresh : s.recordsById.get? record.deliveryId = none)
    (hkey : s.recordsByIdempotencyKey.get? record.idempotencyKey = none) : (s.inserted record).Indexed := by
  constructor
  · intro id r hr
    change (s.recordsById.set record.deliveryId record).get? id = some r at hr
    change _ ∧ (s.recordsByIdempotencyKey.set record.idempotencyKey record.deliveryId).get? r.idempotencyKey = some id
    rcases s.recordsById.get?_set_cases record.deliveryId record id with ⟨rfl, hset⟩ | ⟨_, hset⟩
    · rw [hset, Option.some.injEq] at hr
      subst hr
      exact ⟨rfl, InsertionDict.get?_set_self _ _ _⟩
    · rw [hset] at hr
      obtain ⟨hid, hindex⟩ := h.keyed id r hr
      refine ⟨hid, ?_⟩
      rw [InsertionDict.get?_set_of_ne]
      · exact hindex
      · intro hsame
        rw [hsame, hkey] at hindex
        cases hindex
  · intro key id hindex
    change (s.recordsByIdempotencyKey.set record.idempotencyKey record.deliveryId).get? key = some id at hindex
    change ∃ r, (s.recordsById.set record.deliveryId record).get? id = some r ∧ _
    rcases s.recordsByIdempotencyKey.get?_set_cases record.idempotencyKey record.deliveryId key with
      ⟨rfl, hset⟩ | ⟨_, hset⟩
    · rw [hset, Option.some.injEq] at hindex
      subst hindex
      exact ⟨record, InsertionDict.get?_set_self _ _ _, rfl⟩
    · rw [hset] at hindex
      obtain ⟨r, hr, hrkey⟩ := h.indexed key id hindex
      refine ⟨r, ?_, hrkey⟩
      rw [InsertionDict.get?_set_of_ne]
      · exact hr
      · rintro rfl
        rw [hfresh] at hr
        cases hr

open EStateM

/-- A new record was inserted under a key that was free, or nothing has happened. -/
def InsertedOrSame (s : DeliveryStore) (record : DeliveryRecord) (s' : DeliveryStore) : Prop :=
  s' = s ∨ s.recordsByIdempotencyKey.get? record.idempotencyKey = none ∧ s' = s.inserted record

theorem ends_existingFor (str : Datetime → String) (now : Datetime) (key : String) (id : DeliveryId) :
    Ends (existingFor str now key id) s (fun _ s' => s' = s) fun _ s' => s' = s := by
  unfold existingFor
  apply Ends.bind (Q := fun found s' => s' = s)
  · exact rfl
  · rintro found s' rfl
    split
    · exact ends_throw rfl
    · split
      · exact ends_throw rfl
      · exact ends_pure rfl

theorem ends_createDelivery (str : Datetime → String) (env : Supply) (record : DeliveryRecord) :
    Ends (createDelivery str env record) s (fun _ => s.InsertedOrSame record) fun _ => s.InsertedOrSame record := by
  unfold createDelivery
  apply Ends.bind (Q := fun found s' => found = s ∧ s' = s)
  · exact ⟨rfl, rfl⟩
  · rintro found s' ⟨rfl, rfl⟩
    split
    · exact (ends_existingFor str _ _ _).mono (fun _ _ h => .inl h) fun _ _ h => .inl h
    · next hkey =>
      split
      · exact ends_throw (.inl rfl)
      · exact .inr ⟨hkey, rfl⟩

theorem ends_atomicAppTransaction (str : Datetime → String) (env : Supply) (intent : DeliveryRecord)
    (action : Except Exn PyValue) : Ends (atomicAppTransaction str env intent action) s (fun _ => s.InsertedOrSame intent)
      fun _ => s.InsertedOrSame intent := by
  unfold atomicAppTransaction
  dsimp only
  split
  · exact ends_throw (.inl rfl)
  · apply Ends.bind (Q := fun found s' => found = s ∧ s' = s)
    · exact ⟨rfl, rfl⟩
    · rintro found s' ⟨rfl, rfl⟩
      split
      · apply ((ends_existingFor str _ _ _).mono (fun _ _ h => h) fun _ _ h => .inl h).bind
        rintro existing s' rfl
        split
        · exact ends_throw (.inl rfl)
        · exact ends_pure (.inl rfl)
      · next hkey =>
        apply Ends.bind (Q := fun _ t => t = s')
        · exact ends_ofExcept (fun _ _ => rfl) fun _ _ => .inl rfl
        · rintro value s' rfl
          exact .inr ⟨hkey, rfl⟩

theorem InsertedOrSame.keeps (h : s.InsertedOrSame record s') (hs : s.Indexed)
    (hfresh : s.recordsById.get? record.deliveryId = none) : s'.Indexed ∧ s.Succeeded s' := by
  rcases h with rfl | ⟨hkey, rfl⟩
  · exact ⟨hs, .refl s'⟩
  · exact ⟨hs.inserted hfresh hkey, succeeded_inserted hfresh⟩

variable {updated : DeliveryRecord}

theorem Succeeds.identity (h : Succeeds r updated) :
    updated.deliveryId = r.deliveryId ∧ updated.idempotencyKey = r.idempotencyKey := by
  rcases h with ⟨_, rfl⟩ | ⟨_, made, status, error, deliveredAt, now, rfl⟩
  · exact ⟨rfl, rfl⟩
  · exact ⟨rfl, rfl⟩

/-- A record is replaced by one with the same identifier and key. -/
theorem Indexed.replaced (h : s.Indexed) (hget : s.recordsById.get? r.deliveryId = some r)
    (hid : updated.deliveryId = r.deliveryId) (hkey : updated.idempotencyKey = r.idempotencyKey) :
    ({ s with recordsById := s.recordsById.set updated.deliveryId updated } : DeliveryStore).Indexed := by
  rw [hid]
  constructor
  · intro id x hx
    change (s.recordsById.set r.deliveryId updated).get? id = some x at hx
    rcases s.recordsById.get?_set_cases r.deliveryId updated id with ⟨rfl, hset⟩ | ⟨_, hset⟩
    · rw [hset, Option.some.injEq] at hx
      subst hx
      rw [hkey]
      exact ⟨hid, (h.keyed _ r hget).2⟩
    · rw [hset] at hx
      exact h.keyed id x hx
  · intro key id hindex
    change ∃ x, (s.recordsById.set r.deliveryId updated).get? id = some x ∧ _
    obtain ⟨x, hx, hxkey⟩ := h.indexed key id hindex
    rcases s.recordsById.get?_set_cases r.deliveryId updated id with ⟨rfl, hset⟩ | ⟨_, hset⟩
    · rw [hget, Option.some.injEq] at hx
      subst hx
      exact ⟨updated, hset, hkey.trans hxkey⟩
    · exact ⟨x, hset.trans hx, hxkey⟩

theorem succeeded_replaced (hget : s.recordsById.get? r.deliveryId = some r) (h : Succeeds r updated) :
    s.Succeeded { s with recordsById := s.recordsById.set updated.deliveryId updated } := by
  rw [(Succeeds.identity h).1]
  intro id x hx
  change ∃ r', (s.recordsById.set r.deliveryId updated).get? id = some r' ∧ _
  rcases s.recordsById.get?_set_cases r.deliveryId updated id with ⟨rfl, hset⟩ | ⟨_, hset⟩
  · rw [hget, Option.some.injEq] at hx
    subst hx
    refine ⟨updated, hset, ?_⟩
    rcases h with ⟨_, hsame⟩ | ⟨hopen, made, status, error, deliveredAt, now, rfl⟩
    · exact .inl hsame
    · exact .inr ⟨rfl, hopen⟩
  · exact ⟨x, hset.trans hx, .inl rfl⟩

theorem updateCas_keeps (hs : s.Indexed) {expectedRevision : ℤ}
    (h : WritesSuccessor s (.updateCas expectedRevision updated)) :
    (s.updateCas expectedRevision updated).2.Indexed ∧ s.Succeeded (s.updateCas expectedRevision updated).2 := by
  obtain ⟨r, hseen, rfl, hsucceeds⟩ := h
  obtain ⟨hid, hkey⟩ := Succeeds.identity hsucceeds
  unfold updateCas
  split
  · exact ⟨hs, .refl s⟩
  · next current hcurrent =>
    split
    · exact ⟨hs, .refl s⟩
    · next hrev =>
      rw [not_not] at hrev
      rw [hid] at hcurrent
      have hsame := hseen.eq_of_revision hcurrent hrev
      subst hsame
      exact ⟨hs.replaced hcurrent hid hkey, succeeded_replaced hcurrent hsucceeds⟩

end DeliveryStore

/-! ## Interleavings -/

section Interleavings

variable {ι π : Type} {out : DeliveryOutside π}

theorem handler_keeps (a : DeliveryRequest) (w : DeliveryWorld π) (hs : w.store.Indexed)
    (hfresh : UsesFreshId w.store a) (hwrites : WritesSuccessor w.store a) :
    (DeliveryWorld.handler out a w).2.store.Indexed ∧ w.store.Succeeded (DeliveryWorld.handler out a w).2.store := by
  cases a with
  | createDelivery env record => exact (DeliveryStore.ends_createDelivery out.str env record).state.keeps hs hfresh
  | atomicAppTransaction env intent action =>
    exact (DeliveryStore.ends_atomicAppTransaction out.str env intent action).state.keeps hs hfresh
  | getDelivery id => exact ⟨hs, .refl _⟩
  | updateCas expectedRevision updated => exact DeliveryStore.updateCas_keeps hs hwrites
  | outside a => exact ⟨hs, .refl _⟩

/-- Every client sees records advance, and writes successors of records that were stored. -/
def deliveryContract (π : Type) : Contract DeliveryRequest (DeliveryWorld π) where
  rely w w' := w.store.Succeeded w'.store
  assume w a := w.store.Indexed ∧ UsesFreshId w.store a
  guar w a := WritesSuccessor w.store a

theorem stable_seen (r : DeliveryRecord) : Stable (deliveryContract π) fun w => w.store.Seen r :=
  fun _ _ hs h => h.succeeded hs

variable {r : DeliveryRecord}

theorem meets_relabel {α : Type} {ok : α → Prop} {p : DeliveryProg α} (hp : OnlyReturns ok p)
    {w : DeliveryWorld π} (hw : w.store.Seen r) :
    Meets (DeliveryWorld.handler out) (deliveryContract π) (fun a w => ok a ∧ w.store.Seen r)
      (p.relabel DeliveryRequest.outside fun _ answer => answer) w := by
  induction p generalizing w with
  | done a => exact fun w' hw' => ⟨hp, (stable_seen r).relied hw' hw⟩
  | act a rest ih =>
    intro w' hw' _
    have hseen : w'.store.Seen r := (stable_seen r).relied hw' hw
    exact ⟨trivial, ih _ (hp _) hseen⟩

theorem meets_program (client : DeliveryClient) (env : Supply) (w : DeliveryWorld π) :
    Meets (DeliveryWorld.handler out) (deliveryContract π) (fun _ _ => True) (client.program env) w := by
  cases client with
  | createDelivery record => exact fun _ _ _ => ⟨trivial, fun _ _ => trivial⟩
  | atomicAppTransaction intent action => exact fun _ _ _ => ⟨trivial, fun _ _ => trivial⟩
  | worker reconciler id =>
    intro w₁ _ hassume
    refine ⟨trivial, ?_⟩
    have hanswer : DeliveryWorld.handler out (.getDelivery id) w₁ = (w₁.store.recordsById.get? id, w₁) := rfl
    rw [hanswer]
    cases hget : w₁.store.recordsById.get? id with
    | none => exact fun _ _ => trivial
    | some r =>
      have hid := (hassume.1.keyed id r hget).1
      have hseen : w₁.store.Seen r := ⟨r, by rw [hid, hget], .inl rfl⟩
      apply (meets_relabel (onlyReturns_reconcile reconciler env r) hseen).bind
      rintro updated w₂ ⟨hsucceeds, hstill⟩ w₃ hrelied _
      exact ⟨⟨r, (stable_seen r).relied hrelied hstill, rfl, hsucceeds⟩, fun _ _ => trivial⟩

abbrev DeliveryPool (ι π : Type) := Pool ι DeliveryRequest DeliveryRequest.Answer Unit (DeliveryWorld π)

/-- The next request of client `i` uses a fresh identifier if it creates a record. -/
def FreshIds (p : DeliveryPool ι π) (i : ι) : Prop :=
  ∀ a rest, p.threads i = .act a rest → UsesFreshId p.state.store a

def Orderly (out : DeliveryOutside π) (p : DeliveryPool ι π) : Prop :=
  p.state.store.Indexed ∧
    ∀ i, Meets (DeliveryWorld.handler out) (deliveryContract π) (fun _ _ => True) (p.threads i) p.state

theorem orderly_pool (out : DeliveryOutside π) (clients : DeliveryClients ι) (outside : π) :
    Orderly out (clients.pool ⟨.empty, outside⟩) := by
  refine ⟨⟨?_, ?_⟩, fun i => meets_program _ _ _⟩
  · intro id r hr
    cases hr
  · intro key id hid
    cases hid

variable [DecidableEq ι] {p : DeliveryPool ι π} {schedule : List ι}

theorem orderly_run (h : Orderly out p) (hfresh : EveryStep (Pool.step (DeliveryWorld.handler out)) FreshIds p schedule) :
    Orderly out (MachineRuns.run (Pool.step (DeliveryWorld.handler out)) p schedule) := by
  refine Pool.parallel (J := fun w => w.store.Indexed) ?_ ?_ h.1 h.2 hfresh
  · intro q i a rest hJ hP hthread
    exact ⟨hJ, hP a rest hthread⟩
  · intro i a w hJ hassume hguar
    obtain ⟨hindexed, hsucceeded⟩ := handler_keeps a w hJ hassume.2 hguar
    exact ⟨hindexed, fun _ _ => hsucceeded⟩

theorem succeeded_step (h : Orderly out p) {i : ι} (hfresh : FreshIds p i) :
    p.state.store.Succeeded (p.step (DeliveryWorld.handler out) i).state.store := by
  cases hthread : p.threads i with
  | done r =>
    simp only [Pool.step, hthread, advance]
    exact .refl _
  | act a rest =>
    have hi := h.2 i
    rw [hthread] at hi
    have hguar := (hi.act ⟨h.1, hfresh a rest hthread⟩).1
    simp only [Pool.step, hthread, advance]
    exact (handler_keeps a p.state h.1 (hfresh a rest hthread) hguar).2

theorem everyStep_succeeded (h : Orderly out p)
    (hfresh : EveryStep (Pool.step (DeliveryWorld.handler out)) FreshIds p schedule) :
    EveryStep (Pool.step (DeliveryWorld.handler out))
      (fun q i => q.state.store.Succeeded (q.step (DeliveryWorld.handler out) i).state.store) p schedule := by
  intro before i after hsplit
  have hbefore : EveryStep (Pool.step (DeliveryWorld.handler out)) FreshIds p before := by
    rw [hsplit] at hfresh
    exact everyStep_append_left hfresh
  exact succeeded_step (orderly_run h hbefore) (hfresh before i after hsplit)

theorem terminal_kept (h : EveryStep (Pool.step (DeliveryWorld.handler out))
      (fun q i => q.state.store.Succeeded (q.step (DeliveryWorld.handler out) i).state.store) p schedule)
    {id : DeliveryId} (hr : p.state.store.recordsById.get? id = some r) (hterminal : r.isTerminal = true) :
    (MachineRuns.run (Pool.step (DeliveryWorld.handler out)) p schedule).state.store.recordsById.get? id = some r := by
  apply MachineRuns.invariant_of_everyStep (I := fun q : DeliveryPool ι π => q.state.store.recordsById.get? id = some r) _
    hr h
  intro q i hq hstep
  obtain ⟨r', hr', rfl | ⟨_, hopen⟩⟩ := hstep id r hq
  · exact hr'
  · rw [hterminal] at hopen
    cases hopen

def storedRecord (id : DeliveryId) (p : DeliveryPool ι π) : Option DeliveryRecord :=
  p.state.store.recordsById.get? id

/-- One record a key in every state, and each revision is written by one step. -/
structure Convergent (out : DeliveryOutside π) (start : DeliveryPool ι π) (schedule : List ι) : Prop where
  /-- in every state one record a key, with the index pointing to it -/
  indexed : ∀ before after, schedule = before ++ after →
    (MachineRuns.run (Pool.step (DeliveryWorld.handler out)) start before).state.store.Indexed
  /-- a step that changes a record finds it open and writes the next revision -/
  advances : EveryStep (Pool.step (DeliveryWorld.handler out))
    (fun q i => q.state.store.Succeeded (q.step (DeliveryWorld.handler out) i).state.store) start schedule
  /-- between two states that a revision separates, exactly one step has raised that revision -/
  one_winner : ∀ before between after, schedule = before ++ (between ++ after) → ∀ id n r r',
    storedRecord id (MachineRuns.run (Pool.step (DeliveryWorld.handler out)) start before) = some r → r.revision ≤ n →
    storedRecord id (MachineRuns.run (Pool.step (DeliveryWorld.handler out)) start (before ++ between)) = some r' →
    n < r'.revision →
    ∃! won, ∃ i rest, between = won ++ i :: rest ∧ MachineRuns.Raises (storedRecord id) DeliveryRecord.revision n
        (MachineRuns.run (Pool.step (DeliveryWorld.handler out)) start (before ++ won))
        (MachineRuns.run (Pool.step (DeliveryWorld.handler out)) start (before ++ won ++ [i]))
  terminal : ∀ before between after, schedule = before ++ (between ++ after) → ∀ id r,
    storedRecord id (MachineRuns.run (Pool.step (DeliveryWorld.handler out)) start before) = some r →
    r.isTerminal = true →
    storedRecord id (MachineRuns.run (Pool.step (DeliveryWorld.handler out)) start (before ++ between)) = some r

/-- Concurrent reconcilers converge. -/
theorem deliveries_converge (out : DeliveryOutside π) (clients : DeliveryClients ι) (outside : π) {schedule : List ι}
    (hfresh : EveryStep (Pool.step (DeliveryWorld.handler out)) FreshIds
      (clients.pool ⟨.empty, outside⟩) schedule) :
    Convergent out (clients.pool ⟨.empty, outside⟩) schedule := by
  have hsucceeded := everyStep_succeeded (orderly_pool out clients outside) hfresh
  have hpart : ∀ before between after, schedule = before ++ (between ++ after) →
      EveryStep (Pool.step (DeliveryWorld.handler out))
        (fun q i => q.state.store.Succeeded (q.step (DeliveryWorld.handler out) i).state.store)
        (MachineRuns.run (Pool.step (DeliveryWorld.handler out)) (clients.pool ⟨.empty, outside⟩) before) between := by
    intro before between after hsplit
    rw [hsplit] at hsucceeded
    exact everyStep_append_left (MachineRuns.everyStep_append_right hsucceeded)
  refine ⟨?_, hsucceeded, ?_, ?_⟩
  · intro before after hsplit
    rw [hsplit] at hfresh
    exact (orderly_run (orderly_pool out clients outside) (everyStep_append_left hfresh)).1
  · intro before between after hsplit id n r r' hr hle hr' hlt
    have hadvances : EveryStep (Pool.step (DeliveryWorld.handler out))
        (fun q i => MachineRuns.Advances (storedRecord id) DeliveryRecord.revision q
          (q.step (DeliveryWorld.handler out) i))
        (MachineRuns.run (Pool.step (DeliveryWorld.handler out)) (clients.pool ⟨.empty, outside⟩) before) between := by
      intro b i a hb x hx
      obtain ⟨y, hy, hsame | ⟨hnext, _⟩⟩ := hpart before between after hsplit b i a hb id x hx
      · exact ⟨y, hy, .inl hsame⟩
      · exact ⟨y, hy, .inr hnext⟩
    rw [run_append] at hr'
    simpa only [run_append, run_cons, run_nil] using
      MachineRuns.existsUnique_raises hadvances hr hle hr' hlt
  · intro before between after hsplit id r hr hterminal
    rw [run_append]
    exact terminal_kept (hpart before between after hsplit) hr hterminal

end Interleavings

/-- One client that creates a record and two workers that reconcile it. -/
def twoWorkers : DeliveryClients (Fin 3) where
  client
    | 0 => .createDelivery (runStartRecord 0)
    | _ => .worker plainReconciler ⟨"deliv_1"⟩
  env _ := frozenSupply

def timingOut : DeliveryOutside Unit := ⟨fun _ u => (.error timedOut, u), fun _ => ""⟩

/-- Both workers read the record and call the port before the first of them writes. -/
theorem twoWorkers_converge : Convergent timingOut (twoWorkers.pool ⟨.empty, ()⟩) [0, 1, 2, 1, 2, 1, 2] := by
  apply deliveries_converge
  have hfresh : ∀ a rest, (twoWorkers.pool (⟨.empty, ()⟩ : DeliveryWorld Unit)).threads 0 = .act a rest →
      UsesFreshId DeliveryStore.empty a := by
    intro a rest h
    cases h
    rfl
  rw [everyStep_cons]
  refine ⟨hfresh, ?_⟩
  simp only [everyStep_cons]
  refine ⟨?_, ?_, ?_, ?_, ?_, ?_, MachineRuns.everyStep_nil⟩ <;>
  · intro a rest h
    cases h
    trivial

end AllTomorrow
