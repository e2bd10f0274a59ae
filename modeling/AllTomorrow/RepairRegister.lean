import AllTomorrow.RaisingState
import AllTomorrow.MachineRuns
import AllTomorrow.ServiceActions

/-!
# The repair register

The operator actions on the items of `RepairService`, and what every sequence of them keeps of an
item: what it was recorded with, its provenance as a beginning, and that it has left
`REPAIR_REQUIRED`.
-/

namespace AllTomorrow

open EStateM MachineRuns

namespace RepairService

def reconcile (env : Supply) (repairId operator outcomeRef : String) : RepairM RepairItem := do
  let item ← act env repairId operator "reconcile"
  let updated := { item with status := .reconciled, provenanceRefs := item.provenanceRefs ++ [outcomeRef] }
  modify fun r => { r with items := r.items.set repairId updated }
  return updated

def resolve (env : Supply) (repairId operator : String) : RepairM RepairItem := do
  let item ← act env repairId operator "resolve"
  let updated := { item with status := .resolved }
  modify fun r => { r with items := r.items.set repairId updated }
  return updated

end RepairService

inductive RepairOp where
  | authorize (operator : String)
  | recordRepairRequired (item : RepairItem)
  | retry (repairId operator : String)
  | reconcile (repairId operator outcomeRef : String)
  | resolve (repairId operator : String)
  | abandon (repairId operator : String)
  /-- `list_required` or `audit_trail` -/
  | read

structure RepairCall where
  op : RepairOp
  env : Supply

namespace RepairService

def call (c : RepairCall) : RepairM Unit :=
  match c.op with
  | .authorize operator => authorize operator
  | .recordRepairRequired item => do let _ ← recordRepairRequired item
  | .retry repairId operator => do let _ ← retry c.env repairId operator
  | .reconcile repairId operator outcomeRef => do let _ ← reconcile c.env repairId operator outcomeRef
  | .resolve repairId operator => do let _ ← resolve c.env repairId operator
  | .abandon repairId operator => do let _ ← abandon c.env repairId operator
  | .read => return ()

def step (r : RepairService) (c : RepairCall) : RepairService := (call c r).state

end RepairService

structure RepairItem.Continues (item item' : RepairItem) : Prop where
  recorded : item'.repairId = item.repairId ∧ item'.safeToRetry = item.safeToRetry
  provenance : item.provenanceRefs <+: item'.provenanceRefs
  /-- `REPAIR_REQUIRED` is left for good. -/
  left : item.status ≠ .repairRequired → item'.status ≠ .repairRequired

/-- Every item is still there, with its provenance. -/
def RepairService.Continues (r r' : RepairService) : Prop :=
  ∀ k item, r.items.get? k = some item → ∃ item', r'.items.get? k = some item' ∧ item.Continues item'

/-- An item that is not safe to retry is not retried. -/
def RepairService.RetryRefused (r : RepairService) (c : RepairCall) : Prop :=
  ∀ repairId operator item, c.op = .retry repairId operator → r.items.get? repairId = some item →
    item.safeToRetry = false → (∃ e, (call c r).outcome = .error e) ∧ (r.step c).items = r.items

namespace RepairService

variable {r : RepairService}

theorem continues_refl (r : RepairService) : Continues r r :=
  fun _ item h => ⟨item, h, ⟨rfl, rfl⟩, List.prefix_refl _, id⟩

theorem Continues.trans {r' r'' : RepairService} (h : Continues r r') (h' : Continues r' r'') : Continues r r'' := by
  intro k item hget
  obtain ⟨item', hget', hc⟩ := h k item hget
  obtain ⟨item'', hget'', hc'⟩ := h' k item' hget'
  refine ⟨item'', hget'', ⟨hc'.recorded.1.trans hc.recorded.1, hc'.recorded.2.trans hc.recorded.2⟩,
    hc.provenance.trans hc'.provenance, fun hleft => hc'.left (hc.left hleft)⟩

variable {r' : RepairService} {item : RepairItem}

theorem continues_set {k : String} (hitems : r'.items = r.items.set k item)
    (hold : ∀ old, r.items.get? k = some old → old.Continues item) : Continues r r' := by
  intro j old hget
  rw [hitems]
  rcases InsertionDict.get?_set_cases r.items k item j with ⟨rfl, hj⟩ | ⟨hne, hj⟩
  · exact ⟨item, hj, hold old hget⟩
  · exact ⟨old, hj.trans hget, ⟨rfl, rfl⟩, List.prefix_refl _, id⟩

theorem continues_acted {k : String} (hget : r.items.get? k = some item)
    {provenance : List String} (status : RepairStatus) (hstatus : status ≠ .repairRequired)
    (hprovenance : item.provenanceRefs <+: provenance)
    (hitems : r'.items = r.items.set k { item with status := status, provenanceRefs := provenance }) :
    Continues r r' := by
  refine continues_set hitems ?_
  intro old hold
  cases hget.symm.trans hold
  exact ⟨⟨rfl, rfl⟩, hprovenance, fun _ => hstatus⟩

variable (env : Supply)

theorem ends_act (repairId operator action : String) : Ends (act env repairId operator action) r
      (fun item r' => r.items.get? repairId = some item ∧ operator ∈ r.operators ∧
        r' = { r with audit := r.audit ++ [⟨repairId, action, operator, env.utcNow⟩] })
      fun _ r' => r' = r ∧ (r.items.get? repairId = none ∨ operator ∉ r.operators) := by
  unfold act
  refine ends_get_bind ?_
  by_cases hoperator : operator ∈ r.operators
  · rw [if_neg (not_not.mpr hoperator)]
    cases hget : r.items.get? repairId with
    | none => exact ends_throw ⟨rfl, .inl rfl⟩
    | some item => exact ends_modify_bind (ends_pure ⟨rfl, hoperator, rfl⟩)
  · rw [if_pos hoperator]
    exact ends_throw_bind ⟨rfl, .inr hoperator⟩

def Quiet (r r' : RepairService) : Prop := ∃ new, r'.audit = r.audit ++ new ∧ ∀ a ∈ new, a.action ≠ "abandon"

theorem quiet_of_audit_eq (h : r'.audit = r.audit) : Quiet r r' :=
  ⟨[], by rw [h, List.append_nil], by simp⟩

theorem quiet_entry {k action operator : String} {at_ : Datetime}
    (h : r'.audit = r.audit ++ [⟨k, action, operator, at_⟩]) (ha : action ≠ "abandon") : Quiet r r' :=
  ⟨_, h, by simpa using ha⟩

theorem ends_retry (repairId operator : String) : Ends (retry env repairId operator) r
      (fun _ r' => (∃ item, r.items.get? repairId = some item ∧ item.safeToRetry = true) ∧ Quiet r r' ∧ Continues r r')
      fun _ r' => r'.items = r.items ∧ Quiet r r' ∧ ∀ item, r.items.get? repairId = some item →
        operator ∈ r.operators → item.safeToRetry = false := by
  unfold retry
  refine Ends.bind ((ends_act env repairId operator "retry").mono (fun _ _ h => h) ?_) ?_
  · rintro _ r' ⟨rfl, hno⟩
    refine ⟨rfl, quiet_of_audit_eq rfl, fun item hget hoperator => ?_⟩
    rcases hno with hnone | hunknown
    · cases hnone.symm.trans hget
    · exact absurd hoperator hunknown
  · rintro item r' ⟨hget, -, rfl⟩
    by_cases hsafe : item.safeToRetry = true
    · rw [if_neg (by simp [hsafe])]
      refine ends_modify_bind (ends_pure ⟨⟨item, hget, hsafe⟩, quiet_entry rfl (by decide), ?_⟩)
      exact continues_acted hget .resolved (by decide) (List.prefix_refl _) rfl
    · rw [Bool.not_eq_true] at hsafe
      rw [if_pos (by simp [hsafe])]
      refine ends_throw_bind ⟨rfl, quiet_entry rfl (by decide), fun item' hget' _ => ?_⟩
      cases hget.symm.trans hget'
      exact hsafe

theorem ends_reconcile (repairId operator outcomeRef : String) :
    Ends (reconcile env repairId operator outcomeRef) r (fun _ r' => Quiet r r' ∧ Continues r r') fun _ r' => r' = r := by
  unfold reconcile
  refine Ends.bind ((ends_act env repairId operator "reconcile").mono (fun _ _ h => h) fun _ _ h => h.1) ?_
  rintro item r' ⟨hget, -, rfl⟩
  refine ends_modify_bind (ends_pure ⟨quiet_entry rfl (by decide), ?_⟩)
  exact continues_acted hget .reconciled (by decide) (List.prefix_append _ _) rfl

theorem ends_resolve (repairId operator : String) :
    Ends (resolve env repairId operator) r (fun _ r' => Quiet r r' ∧ Continues r r') fun _ r' => r' = r := by
  unfold resolve
  refine Ends.bind ((ends_act env repairId operator "resolve").mono (fun _ _ h => h) fun _ _ h => h.1) ?_
  rintro item r' ⟨hget, -, rfl⟩
  refine ends_modify_bind (ends_pure ⟨quiet_entry rfl (by decide), ?_⟩)
  exact continues_acted hget .resolved (by decide) (List.prefix_refl _) rfl

theorem ends_abandon (repairId operator : String) : Ends (abandon env repairId operator) r
      (fun _ r' => r'.audit = r.audit ++ [⟨repairId, "abandon", operator, env.utcNow⟩] ∧ Continues r r')
      fun _ r' => r' = r ∧ (r.items.get? repairId = none ∨ operator ∉ r.operators) := by
  unfold abandon
  refine Ends.bind (ends_act env repairId operator "abandon") ?_
  rintro item r' ⟨hget, -, rfl⟩
  exact ends_modify_bind (ends_pure ⟨rfl, continues_acted hget .abandoned (by decide) (List.prefix_refl _) rfl⟩)

theorem ends_recordRepairRequired (item : RepairItem) : Ends (recordRepairRequired item) r
      (fun _ r' => r.items.get? item.repairId = none ∧ r' = { r with items := r.items.set item.repairId item })
      fun _ r' => r' = r ∧ r.items.contains item.repairId = true := by
  unfold recordRepairRequired
  refine ends_get_bind ?_
  by_cases hheld : r.items.contains item.repairId = true
  · rw [if_pos hheld]
    exact ends_throw_bind ⟨rfl, hheld⟩
  · rw [if_neg hheld]
    refine ends_modify_bind (ends_pure ⟨?_, rfl⟩)
    rwa [Bool.not_eq_true, InsertionDict.contains_eq_false_iff] at hheld

theorem continues_record (hnew : r.items.get? item.repairId = none) :
    Continues r { r with items := r.items.set item.repairId item } := by
  refine continues_set rfl ?_
  intro old hold
  cases hnew.symm.trans hold

/-- What a call does to the register. -/
theorem ends_call (c : RepairCall) :
    Ends (call c) r (fun _ r' => Continues r r' ∧ match c.op with
        | .abandon repairId operator => r'.audit = r.audit ++ [⟨repairId, "abandon", operator, c.env.utcNow⟩]
        | _ => Quiet r r')
      fun _ r' => Quiet r r' ∧ r'.items = r.items := by
  have hraised {r' : RepairService} (h : r' = r) : Quiet r r' ∧ r'.items = r.items := by
    rw [h]
    exact ⟨quiet_of_audit_eq rfl, rfl⟩
  obtain ⟨op, env⟩ := c
  unfold call
  cases op with
  | authorize operator => exact ends_modify ⟨fun k item h => continues_refl r k item h, quiet_of_audit_eq rfl⟩
  | recordRepairRequired item =>
    refine Ends.bind ((ends_recordRepairRequired item).mono (fun _ _ h => h) fun _ _ h => hraised h.1) ?_
    rintro _ r' ⟨hnew, rfl⟩
    exact ends_pure ⟨continues_record hnew, quiet_of_audit_eq rfl⟩
  | retry repairId operator =>
    refine Ends.bind ((ends_retry env repairId operator).mono (fun _ _ h => h) fun _ _ h => ⟨h.2.1, h.1⟩) ?_
    exact fun _ r' h => ends_pure ⟨h.2.2, h.2.1⟩
  | reconcile repairId operator outcomeRef =>
    refine Ends.bind ((ends_reconcile env repairId operator outcomeRef).mono (fun _ _ h => h) fun _ _ h => hraised h) ?_
    exact fun _ r' h => ends_pure ⟨h.2, h.1⟩
  | resolve repairId operator =>
    refine Ends.bind ((ends_resolve env repairId operator).mono (fun _ _ h => h) fun _ _ h => hraised h) ?_
    exact fun _ r' h => ends_pure ⟨h.2, h.1⟩
  | abandon repairId operator =>
    refine Ends.bind ((ends_abandon env repairId operator).mono (fun _ _ h => h) fun _ _ h => hraised h.1) ?_
    exact fun _ r' h => ends_pure ⟨h.2, h.1⟩
  | read => exact ends_pure ⟨continues_refl r, quiet_of_audit_eq rfl⟩

theorem continues_of_items (h : r'.items = r.items) : Continues r r' := by
  intro k item hget
  exact ⟨item, by rw [h, hget], ⟨rfl, rfl⟩, List.prefix_refl _, id⟩

theorem continues_step (r : RepairService) (c : RepairCall) : Continues r (r.step c) :=
  Ends.state ((ends_call c).mono (fun _ _ h => h.1) fun _ _ h => continues_of_items h.2)

theorem continues_run (r : RepairService) (calls : List RepairCall) : Continues r (run step r calls) := by
  induction calls generalizing r with
  | nil => exact continues_refl r
  | cons c rest ih => exact (continues_step r c).trans (ih (r.step c))

theorem retryRefused (r : RepairService) (c : RepairCall) : RetryRefused r c := by
  intro repairId operator item hop hget hunsafe
  have h : Ends (call c) r (fun _ _ => False) fun _ r' => r'.items = r.items := by
    obtain ⟨op, env⟩ := c
    cases hop
    refine Ends.bind ((ends_retry env repairId operator).mono (fun _ _ h => h) fun _ _ h => h.1) ?_
    rintro _ r' ⟨⟨item', hget', hsafe⟩, -⟩
    cases hget.symm.trans hget'
    cases hunsafe.symm.trans hsafe
  obtain ⟨e, r', hrun, hitems⟩ := h.raises
  change call c r = _ at hrun
  unfold step
  rw [hrun]
  exact ⟨⟨e, rfl⟩, hitems⟩

/-! ## The two parts that the web layer uses -/

theorem mem_authorized (operator : String) : operator ∈ ((authorize operator).run r).state.operators := by
  change operator ∈ if operator ∈ r.operators then r.operators else r.operators ++ [operator]
  by_cases h : operator ∈ r.operators
  · rwa [if_pos h]
  · rw [if_neg h]
    simp

theorem Quiet.trans {r' r'' : RepairService} (h : Quiet r r') (h' : Quiet r' r'') : Quiet r r'' := by
  obtain ⟨new, hnew, hquiet⟩ := h
  obtain ⟨new', hnew', hquiet'⟩ := h'
  refine ⟨new ++ new', by rw [hnew', hnew, List.append_assoc], fun a ha => ?_⟩
  exact (List.mem_append.mp ha).elim (hquiet a) (hquiet' a)

/-- The register with an item for the Work, and the operator authorized. -/
structure Opened (workId operator : String) (safeToRetry : Bool) (r r' : RepairService) : Prop where
  audit : r'.audit = r.audit
  continues : Continues r r'
  authorized : operator ∈ r'.operators
  item : ∃ item, r'.items.get? ("repair:" ++ workId) = some item ∧ (r.items.get? ("repair:" ++ workId) = some item ∨
      r.items.get? ("repair:" ++ workId) = none ∧ item.safeToRetry = safeToRetry)

variable {workId operator : String} {safeToRetry : Bool}

theorem opened_authorize {r₁ : RepairService} (haudit : r₁.audit = r.audit)
    (hcontinues : Continues r r₁) (hitem : ∃ item, r₁.items.get? ("repair:" ++ workId) = some item ∧
      (r.items.get? ("repair:" ++ workId) = some item ∨
        r.items.get? ("repair:" ++ workId) = none ∧ item.safeToRetry = safeToRetry)) :
    Opened workId operator safeToRetry r ((authorize operator).run r₁).state where
  audit := haudit
  continues := hcontinues
  authorized := mem_authorized operator
  item := hitem

/-- Both parts begin with the item and the authorization. -/
theorem ends_opened {β : Type} {f : Unit → RepairM β}
    {Q : β → RepairService → Prop} {E : Exn → RepairService → Prop}
    (hf : ∀ r', Opened workId operator safeToRetry r r' → Ends (f ()) r' Q E) :
    Ends (do
      let r ← get
      if !r.items.contains ("repair:" ++ workId) then
        let _ ← recordRepairRequired (brokenWork env workId safeToRetry)
      authorize operator
      f ()) r Q E := by
  refine ends_get_bind ?_
  by_cases hheld : r.items.contains ("repair:" ++ workId) = true
  · obtain ⟨item, hget⟩ := InsertionDict.contains_iff.mp hheld
    rw [if_neg (by simp [hheld])]
    exact hf _ (opened_authorize rfl (continues_refl r) ⟨item, hget, .inl hget⟩)
  · have hnew : r.items.get? ("repair:" ++ workId) = none := by
      rwa [Bool.not_eq_true, InsertionDict.contains_eq_false_iff] at hheld
    rw [if_pos (by simpa using hheld)]
    refine Ends.bind ((ends_recordRepairRequired (brokenWork env workId safeToRetry)).mono (fun _ _ h => h) ?_) ?_
    · rintro e r' ⟨rfl, hagain⟩
      exact absurd hagain hheld
    · rintro _ r' ⟨-, rfl⟩
      refine hf _ (opened_authorize rfl (continues_record hnew) ?_)
      exact ⟨_, InsertionDict.get?_set_self _ _ _, .inr ⟨hnew, rfl⟩⟩

theorem ends_retryBroken (workId operator : String) : Ends (retryBroken env workId operator) r
      (fun _ r' => Quiet r r' ∧ Continues r r' ∧
        ∀ item, r.items.get? ("repair:" ++ workId) = some item → item.safeToRetry = true)
      fun _ r' => Quiet r r' ∧ Continues r r' ∧
        ∃ item, r.items.get? ("repair:" ++ workId) = some item ∧ item.safeToRetry = false := by
  unfold retryBroken
  refine ends_opened (env.sub 0) (f := fun _ => do let _ ← retry (env.sub 1) ("repair:" ++ workId) operator) ?_
  intro r' hopened
  have hquiet {r'' : RepairService} (h : Quiet r' r'') : Quiet r r'' := (quiet_of_audit_eq hopened.audit).trans h
  obtain ⟨item, hget, hitem⟩ := hopened.item
  refine Ends.bind ((ends_retry (env.sub 1) ("repair:" ++ workId) operator).mono (fun _ _ h => h) ?_) ?_
  · rintro e r'' ⟨hitems, hq, hrefused⟩
    have hunsafe := hrefused item hget hopened.authorized
    refine ⟨hquiet hq, hopened.continues.trans (continues_of_items hitems), item, ?_, hunsafe⟩
    rcases hitem with hold | ⟨-, hsafe⟩
    · exact hold
    · cases hunsafe.symm.trans hsafe
  · rintro _ r'' ⟨⟨item', hget', hsafe⟩, hq, hcontinues⟩
    cases hget.symm.trans hget'
    refine ends_pure ⟨hquiet hq, hopened.continues.trans hcontinues, fun old hold => ?_⟩
    rcases hitem with hsame | ⟨hnone, -⟩
    · cases hsame.symm.trans hold
      exact hsafe
    · cases hnone.symm.trans hold

theorem ends_abandonBroken (workId operator : String) : Ends (abandonBroken env workId operator) r
      (fun _ r' => r'.audit = r.audit ++ [⟨"repair:" ++ workId, "abandon", operator, (env.sub 1).utcNow⟩] ∧ Continues r r')
      fun _ _ => False := by
  unfold abandonBroken
  refine ends_opened (env.sub 0) (f := fun _ => do let _ ← abandon (env.sub 1) ("repair:" ++ workId) operator) ?_
  intro r' hopened
  obtain ⟨item, hget, -⟩ := hopened.item
  refine Ends.bind ((ends_abandon (env.sub 1) ("repair:" ++ workId) operator).mono (fun _ _ h => h) ?_) ?_
  · rintro e r'' ⟨-, hno⟩
    rcases hno with hnone | hunknown
    · cases hnone.symm.trans hget
    · exact hunknown hopened.authorized
  · rintro _ r'' ⟨haudit, hcontinues⟩
    exact ends_pure ⟨by rw [haudit, hopened.audit], hopened.continues.trans hcontinues⟩

end RepairService

end AllTomorrow
