import Mathlib.Data.List.Count
import Mathlib.Data.List.Perm.Basic
import AllTomorrow.ShopPayments

/-!
# Recorded payments

What a confirmation and its undoing leave of the two lists of supporters, and what a confirmation adds
that had to be retried because git failed.
-/

namespace AllTomorrow.ShopPay

open Prog

/-! ## The merge -/

theorem count_mergePublic (manual rows : List Supporter) (x : Supporter) :
    (mergePublic manual rows).count x =
      manual.count x + if x.isBmc = true ∧ x ∉ manual then rows.count x else 0 := by
  unfold mergePublic
  rw [(List.perm_insertionSort _ _).count_eq, List.count_append]
  congr 1
  by_cases hx : x.isBmc = true ∧ x ∉ manual
  · rw [if_pos hx, List.count_filter (by simp [hx.1, hx.2])]
  · rw [if_neg hx, List.count_eq_zero]
    intro hmem
    have hp := (List.mem_filter.mp hmem).2
    rw [Bool.and_eq_true, decide_eq_true_eq] at hp
    exact hx hp

/-- The public rows come from a merge with the manual ones. -/
def Merged (manual publicRows : List Supporter) : Prop := ∃ rows, publicRows = mergePublic manual rows

variable {manual publicRows : List Supporter}

theorem Merged.count_of_mem (h : Merged manual publicRows) {x : Supporter}
    (hx : x ∈ manual ∨ x.isBmc = false) : publicRows.count x = manual.count x := by
  obtain ⟨rows, rfl⟩ := h
  rw [count_mergePublic, if_neg (by rcases hx with hmem | hbank <;> simp [*]), Nat.add_zero]

/-! ## Lists after a confirmation and after its undoing -/

theorem count_confirmed (row x : Supporter) :
    (mergePublic (manual ++ [row]) publicRows).count x = manual.count x + (if row = x then 1 else 0) +
      if x.isBmc = true ∧ x ∉ manual ∧ x ≠ row then publicRows.count x else 0 := by
  rw [count_mergePublic, List.count_append, List.count_singleton]
  simp only [List.mem_append, List.mem_singleton, not_or, beq_iff_eq]

theorem perm_erase_append (manual : List Supporter) (row : Supporter) : ((manual ++ [row]).erase row).Perm manual := by
  refine List.perm_iff_count.mpr fun x => ?_
  rw [List.count_erase, List.count_append, List.count_singleton]
  simp only [beq_iff_eq]
  split <;> omega

/-- The public list is restored exactly if the row is no row of BMC, was manual before, or was public once. -/
theorem perm_undone_iff (h : Merged manual publicRows) (row : Supporter) :
    (mergePublic ((manual ++ [row]).erase row) (mergePublic (manual ++ [row]) publicRows)).Perm publicRows ↔
      row.isBmc = false ∨ row ∈ manual ∨ publicRows.count row = 1 := by
  have hmem (x : Supporter) : x ∈ (manual ++ [row]).erase row ↔ x ∈ manual := (perm_erase_append manual row).mem_iff
  have hcount (x : Supporter) :
      (mergePublic ((manual ++ [row]).erase row) (mergePublic (manual ++ [row]) publicRows)).count x =
        if x = row ∧ x.isBmc = true ∧ x ∉ manual then 1 else publicRows.count x := by
    rw [count_mergePublic, count_confirmed, (perm_erase_append manual row).count_eq]
    simp only [hmem]
    by_cases hx : x.isBmc = true ∧ x ∉ manual
    · have hzero : manual.count x = 0 := List.count_eq_zero.mpr hx.2
      by_cases hrow : x = row
      · subst hrow
        simp [hx, hzero]
      · have hrow' : ¬row = x := fun he => hrow he.symm
        simp [hx, hrow, hrow', hzero]
    · have hx' : x ∈ manual ∨ x.isBmc = false := by
        by_cases hm : x ∈ manual
        · exact .inl hm
        · exact .inr (Bool.eq_false_of_not_eq_true fun hb => hx ⟨hb, hm⟩)
      rw [if_neg hx, if_neg (fun he => hx he.2), h.count_of_mem hx', Nat.add_zero]
  rw [List.perm_iff_count]
  simp only [hcount]
  constructor
  · intro hall
    have hrow := hall row
    by_cases hcond : row = row ∧ row.isBmc = true ∧ row ∉ manual
    · rw [if_pos hcond] at hrow
      exact .inr (.inr hrow.symm)
    · by_cases hm : row ∈ manual
      · exact .inr (.inl hm)
      · exact .inl (Bool.eq_false_of_not_eq_true fun hb => hcond ⟨rfl, hb, hm⟩)
  · intro hcond x
    split
    · next hx =>
      obtain ⟨rfl, hbmc, hm⟩ := hx
      rcases hcond with hbank | hmem | hone
      · rw [hbmc] at hbank
        cases hbank
      · exact absurd hmem hm
      · exact hone.symm
    · rfl

/-- The public list gets the row once exactly if it did not have it from BMC. -/
theorem perm_confirmed_iff (h : Merged manual publicRows) (row : Supporter) :
    (mergePublic (manual ++ [row]) publicRows).Perm (row :: publicRows) ↔
      row.isBmc = false ∨ row ∈ manual ∨ row ∉ publicRows := by
  rw [List.perm_iff_count]
  simp only [count_confirmed, List.count_cons, beq_iff_eq]
  constructor
  · intro hall
    have hrow := hall row
    simp only [if_true, ne_eq, not_true_eq_false, and_false, if_false, Nat.add_zero] at hrow
    by_cases hm : row ∈ manual
    · exact .inr (.inl hm)
    · refine .inr (.inr (List.count_eq_zero.mp ?_))
      have hzero : manual.count row = 0 := List.count_eq_zero.mpr hm
      omega
  · intro hcond x
    by_cases hrow : row = x
    · subst hrow
      have hsame : manual.count row = publicRows.count row := by
        rcases hcond with hbank | hmem | hno
        · exact (h.count_of_mem (.inr hbank)).symm
        · exact (h.count_of_mem (.inl hmem)).symm
        · obtain ⟨rows, rfl⟩ := h
          have hzero := List.count_eq_zero.mpr hno
          rw [hzero]
          rw [count_mergePublic] at hzero
          omega
      simp [hsame]
    · have hne : x ≠ row := fun he => hrow he.symm
      by_cases hx : x.isBmc = true ∧ x ∉ manual
      · have hzero : manual.count x = 0 := List.count_eq_zero.mpr hx.2
        simp [hx, hne, hrow, hzero]
      · have hx' : x ∈ manual ∨ x.isBmc = false := by
          by_cases hm : x ∈ manual
          · exact .inl hm
          · exact .inr (Bool.eq_false_of_not_eq_true fun hb => hx ⟨hb, hm⟩)
        rw [if_neg hrow, if_neg (fun he => hx ⟨he.1, he.2.1⟩), h.count_of_mem hx', Nat.add_zero]

/-! ## The handlers -/

section Handlers

variable {π : Type} (ext : ShopExternals π)

def SameFiles (w w' : ShopWorld π) : Prop :=
  w'.ledger = w.ledger ∧ w'.manual = w.manual ∧ w'.publicRows = w.publicRows

theorem takePending_leaves (data : Ledger) (pendingId : String) (w : ShopWorld π) :
    SameFiles w (evalTask (ShopWorld.handler ext) (takePending data pendingId) w).2 ∧
      ∀ taken, (evalTask (ShopWorld.handler ext) (takePending data pendingId) w).1 = .ok taken →
        taken.paid = data.paid ∧ taken.access = data.access := by
  unfold takePending
  split
  · have hack : evalTask (ShopWorld.handler ext) (ShopTask.ack [String.ofList (pendingId.toList.drop 4)]) w =
        ((ext.ack [String.ofList (pendingId.toList.drop 4)] w.outside).1,
          { w with outside := (ext.ack [String.ofList (pendingId.toList.drop 4)] w.outside).2 }) := rfl
    cases hresult : (ext.ack [String.ofList (pendingId.toList.drop 4)] w.outside).1 with
    | ok _ =>
      rw [hresult] at hack
      rw [evalTask_bind_ok hack]
      refine ⟨⟨rfl, rfl, rfl⟩, fun taken htaken => ?_⟩
      cases htaken
      exact ⟨rfl, rfl⟩
    | error e =>
      rw [hresult] at hack
      rw [evalTask_bind_error hack]
      exact ⟨⟨rfl, rfl, rfl⟩, fun _ h => by cases h⟩
  · refine ⟨⟨rfl, rfl, rfl⟩, fun taken htaken => ?_⟩
    cases htaken
    exact ⟨rfl, rfl⟩

def takenFor (recorded : Ledger) (pendingId : String) : ShopTask (Except Exn Ledger) :=
  if pendingId = "" then pure (.ok recorded) else Prog.attempt (takePending recorded pendingId)

theorem takenFor_leaves (recorded : Ledger) (pendingId : String) (w : ShopWorld π) :
    ∃ taken w', evalTask (ShopWorld.handler ext) (takenFor recorded pendingId) w = (.ok taken, w') ∧ SameFiles w w' ∧
      ∀ data, taken = .ok data → data.paid = recorded.paid ∧ data.access = recorded.access := by
  unfold takenFor
  by_cases hid : pendingId = ""
  · rw [if_pos hid]
    refine ⟨.ok recorded, w, rfl, ⟨rfl, rfl, rfl⟩, fun data hdata => ?_⟩
    cases hdata
    exact ⟨rfl, rfl⟩
  · rw [if_neg hid]
    obtain ⟨hfiles, htaken⟩ := takePending_leaves ext recorded pendingId w
    exact ⟨_, _, evalTask_attempt _ _ _, hfiles, htaken⟩

def Payment.recordedLedger (p : Payment) (env : Supply) (recorded : Ledger) (taken : Except Exn Ledger) : Ledger :=
  let data := match taken with
    | .ok data => data
    | .error _ => recorded
  if p.dmUserId = "" then data else data.addRequest (newRequest p.dmUserId .unlock p.orderId (env.sub 2))

variable (p : Payment)

theorem recordedLedger_paid (env : Supply) (recorded : Ledger) {taken : Except Exn Ledger}
    (htaken : ∀ data, taken = .ok data → data.paid = recorded.paid ∧ data.access = recorded.access) :
    (p.recordedLedger env recorded taken).paid = recorded.paid := by
  unfold Payment.recordedLedger
  cases taken with
  | ok data =>
    have hpaid := (htaken data rfl).1
    dsimp only
    split
    · exact hpaid
    · exact hpaid
  | error e =>
    dsimp only
    split <;> rfl

/-- A confirmation is refused, fails in git, or is recorded. -/
theorem confirm_cases (env : Supply) (w : ShopWorld π) :
    ((∃ e, evalTask (ShopWorld.handler ext) (confirm p env) w = (.error e, w)) ∧ ∃ x ∈ w.ledger.paid, x.orderId = p.orderId) ∨
      (∃ result, result = w.change ext (.append (p.row (env.sub 0).utcNow)) ("상점: 입금 확인 " ++ p.orderId) ∧
        (∀ x ∈ w.ledger.paid, x.orderId ≠ p.orderId) ∧
        ((∃ e, evalTask (ShopWorld.handler ext) (confirm p env) w = (.error e, result.2)) ∨
          ∃ commit w', evalTask (ShopWorld.handler ext) (confirm p env) w =
              (.ok (.confirmed commit (p.row (env.sub 0).utcNow)), w') ∧
            w'.manual = result.2.manual ∧ w'.publicRows = result.2.publicRows ∧
            w'.ledger.paid = w.ledger.paid ++ [p.entry (p.row (env.sub 0).utcNow) commit (env.sub 1).utcNow])) := by
  have hload : evalTask (ShopWorld.handler ext) ShopTask.load w = (.ok w.ledger, w) := rfl
  unfold confirm
  rw [evalTask_bind_ok hload]
  by_cases hpaid : (w.ledger.paid.any fun x => x.orderId = p.orderId) = true
  · rw [if_pos hpaid]
    obtain ⟨x, hx, horder⟩ := List.any_eq_true.mp hpaid
    exact .inl ⟨⟨_, rfl⟩, x, hx, of_decide_eq_true horder⟩
  rw [if_neg hpaid]
  refine .inr ⟨_, rfl, fun x hx horder => hpaid (List.any_eq_true.mpr ⟨x, hx, decide_eq_true horder⟩), ?_⟩
  dsimp only
  generalize p.row (env.sub 0).utcNow = row
  have hchange : evalTask (ShopWorld.handler ext) (ShopTask.change (.append row) ("상점: 입금 확인 " ++ p.orderId)) w =
      w.change ext (.append row) ("상점: 입금 확인 " ++ p.orderId) := rfl
  cases hresult : w.change ext (.append row) ("상점: 입금 확인 " ++ p.orderId) with
  | mk outcome w₁ =>
    rw [hresult] at hchange
    cases outcome with
    | error e =>
      rw [evalTask_bind_error hchange]
      exact .inl ⟨e, rfl⟩
    | ok commit =>
      rw [evalTask_bind_ok hchange]
      generalize hrecorded : ({ w.ledger with paid := w.ledger.paid ++ [p.entry row commit (env.sub 1).utcNow] } : Ledger) = recorded
      obtain ⟨taken, w₂, htakenRun, ⟨-, hmanual, hpublic⟩, htaken⟩ := takenFor_leaves ext recorded p.pendingId w₁
      have hpaidAfter : (p.recordedLedger env recorded taken).paid = w.ledger.paid ++ [p.entry row commit (env.sub 1).utcNow] :=
        (recordedLedger_paid p env recorded htaken).trans (by rw [← hrecorded])
      have hsave : evalTask (ShopWorld.handler ext) (ShopTask.save w.ledger (p.recordedLedger env recorded taken)) w₂ =
          (.ok (), { w₂ with ledger := p.recordedLedger env recorded taken }) := rfl
      refine .inr ⟨commit, { w₂ with ledger := p.recordedLedger env recorded taken }, ?_, hmanual, hpublic, hpaidAfter⟩
      unfold takenFor at htakenRun
      by_cases hid : p.pendingId = ""
      · rw [if_pos hid] at htakenRun ⊢
        rw [evalTask_bind_ok htakenRun]
        exact (evalTask_bind_ok hsave _).trans rfl
      · rw [if_neg hid] at htakenRun ⊢
        rw [evalTask_bind_ok htakenRun]
        exact (evalTask_bind_ok hsave _).trans rfl

/-- An undoing changes nothing, or takes the recorded row out of both lists. -/
theorem undo_cases (orderId : String) (w : ShopWorld π) :
    ((∃ e, evalTask (ShopWorld.handler ext) (undo orderId) w = (.error e, w)) ∧ ∀ x ∈ w.ledger.paid, x.orderId ≠ orderId) ∨
      ∃ found ∈ w.ledger.paid, found.orderId = orderId ∧ w.ledger.paid.find? (fun x => x.orderId = orderId) = some found ∧
        (evalTask (ShopWorld.handler ext) (undo orderId) w).2.manual = w.manual.erase found.row ∧
        (evalTask (ShopWorld.handler ext) (undo orderId) w).2.publicRows = mergePublic (w.manual.erase found.row) w.publicRows := by
  have hload : evalTask (ShopWorld.handler ext) ShopTask.load w = (.ok w.ledger, w) := rfl
  unfold undo
  rw [evalTask_bind_ok hload]
  cases hfind : w.ledger.paid.find? fun x => x.orderId = orderId with
  | none =>
    refine .inl ⟨⟨_, rfl⟩, fun x hx horder => ?_⟩
    have hno := List.find?_eq_none.mp hfind x hx
    exact hno (decide_eq_true horder)
  | some found =>
    have horder := List.find?_some hfind
    refine .inr ⟨found, List.mem_of_find?_eq_some hfind, of_decide_eq_true horder, rfl, ?_⟩
    have hchange : evalTask (ShopWorld.handler ext) (ShopTask.change (.drop found.row) ("상점: 입금 확인 취소 " ++ orderId)) w =
        w.change ext (.drop found.row) ("상점: 입금 확인 취소 " ++ orderId) := rfl
    cases hresult : (w.change ext (.drop found.row) ("상점: 입금 확인 취소 " ++ orderId)).1 with
    | error e =>
      have hchange' : evalTask (ShopWorld.handler ext) (ShopTask.change (.drop found.row) ("상점: 입금 확인 취소 " ++ orderId)) w =
          (.error e, (w.change ext (.drop found.row) ("상점: 입금 확인 취소 " ++ orderId)).2) := hchange.trans (Prod.ext hresult rfl)
      dsimp only
      rw [evalTask_bind_error hchange']
      exact ⟨rfl, rfl⟩
    | ok commit =>
      have hchange' : evalTask (ShopWorld.handler ext) (ShopTask.change (.drop found.row) ("상점: 입금 확인 취소 " ++ orderId)) w =
          (.ok commit, (w.change ext (.drop found.row) ("상점: 입금 확인 취소 " ++ orderId)).2) := hchange.trans (Prod.ext hresult rfl)
      dsimp only
      rw [evalTask_bind_ok hchange']
      exact ⟨rfl, rfl⟩

theorem change_append (w : ShopWorld π) (row : Supporter) (message : String) :
    (w.change ext (.append row) message).2.manual = w.manual ++ [row] ∧
      (w.change ext (.append row) message).2.publicRows = mergePublic (w.manual ++ [row]) w.publicRows ∧
      (w.change ext (.append row) message).2.ledger = w.ledger := ⟨rfl, rfl, rfl⟩

/-- Confirmations of the payment, all of which raise. -/
inductive Fails (p : Payment) : List Supply → ShopWorld π → ShopWorld π → Prop where
  | nil (w) : Fails p [] w w
  | cons {env envs e w w₁ w₂} (hraises : evalTask (ShopWorld.handler ext) (confirm p env) w = (.error e, w₁))
      (hrest : Fails p envs w₁ w₂) : Fails p (env :: envs) w w₂

/-- Failed confirmations do not change the ledger, and each one of an order that is not recorded leaves its row. -/
theorem Fails.leaves {p : Payment} {envs : List Supply} {w w' : ShopWorld π} (h : Fails ext p envs w w') :
    w'.ledger = w.ledger ∧ ((∀ x ∈ w.ledger.paid, x.orderId ≠ p.orderId) →
      w'.manual = w.manual ++ envs.map fun env => p.row (env.sub 0).utcNow) := by
  induction h with
  | nil w => exact ⟨rfl, fun _ => by rw [List.map_nil, List.append_nil]⟩
  | @cons env envs e w w₁ w₂ hraises hrest ih =>
    obtain ⟨hledger, hmanual⟩ := ih
    have hstep : w₁.ledger = w.ledger ∧ ((∀ x ∈ w.ledger.paid, x.orderId ≠ p.orderId) →
        w₁.manual = w.manual ++ [p.row (env.sub 0).utcNow]) := by
      rcases confirm_cases ext p env w with ⟨⟨e', hrefused⟩, x, hx, horder⟩ |
        ⟨result, hresult, -, ⟨e', hfailed⟩ | ⟨commit, w', hok, -⟩⟩
      · rw [hrefused] at hraises
        cases hraises
        exact ⟨rfl, fun hfresh => absurd horder (hfresh x hx)⟩
      · obtain ⟨hadded, -, hsame⟩ := change_append ext w (p.row (env.sub 0).utcNow) ("상점: 입금 확인 " ++ p.orderId)
        rw [hfailed] at hraises
        cases hraises
        rw [hresult]
        exact ⟨hsame, fun _ => hadded⟩
      · rw [hok] at hraises
        cases hraises
    obtain ⟨hledger₁, hmanual₁⟩ := hstep
    refine ⟨hledger.trans hledger₁, fun hfresh => ?_⟩
    rw [hmanual (by rw [hledger₁]; exact hfresh), hmanual₁ hfresh, List.append_assoc, List.map_cons, List.singleton_append]

/-! ## What confirmations and undoings leave -/

/-- Both lists have the rows they had. -/
def Restored (w w' : ShopWorld π) : Prop := w'.manual.Perm w.manual ∧ w'.publicRows.Perm w.publicRows

/-- The row has been added once to both lists. -/
def AddedOnce (row : Supporter) (w w' : ShopWorld π) : Prop :=
  w'.manual.Perm (row :: w.manual) ∧ w'.publicRows.Perm (row :: w.publicRows)

theorem isBmc_row (now : Datetime) : (p.row now).isBmc = false ↔ p.method = .bank := by
  cases hmethod : p.method <;> simp [Supporter.isBmc, Payment.row, hmethod, PayMethod.value]

variable {ext} {reply : ShopReply}

/-- A confirmation that returned, and its undoing. -/
theorem restored_iff {w w₁ : ShopWorld π} (hmerged : Merged w.manual w.publicRows) {p : Payment} {env : Supply}
    (hconfirm : evalTask (ShopWorld.handler ext) (confirm p env) w = (.ok reply, w₁)) :
    Restored w (evalTask (ShopWorld.handler ext) (undo p.orderId) w₁).2 ↔
      p.method = .bank ∨ p.row (env.sub 0).utcNow ∈ w.manual ∨ w.publicRows.count (p.row (env.sub 0).utcNow) = 1 := by
  rcases confirm_cases ext p env w with ⟨⟨e', hrefused⟩, -⟩ | ⟨result, hresult, hfresh, ⟨e', hfailed⟩ |
    ⟨commit, w', hok, hmanual, hpublic, hpaid⟩⟩
  · rw [hrefused] at hconfirm
    cases hconfirm
  · rw [hfailed] at hconfirm
    cases hconfirm
  rw [hok] at hconfirm
  cases hconfirm
  generalize hrow : p.row (env.sub 0).utcNow = row at *
  obtain ⟨hadded, hshown, -⟩ := change_append ext w row ("상점: 입금 확인 " ++ p.orderId)
  rw [hresult, hadded] at hmanual
  rw [hresult, hshown] at hpublic
  rcases undo_cases ext p.orderId w₁ with ⟨-, hnone⟩ | ⟨found, hmem, horder, -, hundone, hshownAgain⟩
  · refine absurd rfl (hnone (p.entry row commit (env.sub 1).utcNow) ?_)
    rw [hpaid]
    exact List.mem_append_right _ (List.mem_singleton_self _)
  -- the order is recorded by this confirmation only
  have hfound : found.row = row := by
    rw [hpaid, List.mem_append, List.mem_singleton] at hmem
    rcases hmem with hold | rfl
    · exact absurd horder (hfresh found hold)
    · rfl
  rw [hfound, hmanual] at hundone hshownAgain
  rw [hpublic] at hshownAgain
  unfold Restored
  rw [hundone, hshownAgain, perm_undone_iff hmerged, ← hrow, isBmc_row]
  exact and_iff_right (perm_erase_append _ _)

/-- Confirmations that raised, and one that returned. -/
theorem addedOnce_iff {w w₁ w₂ : ShopWorld π} (hmerged : Merged w.manual w.publicRows) {p : Payment} {failed : List Supply}
    (hfails : Fails ext p failed w w₁) {env : Supply}
    (hconfirm : evalTask (ShopWorld.handler ext) (confirm p env) w₁ = (.ok reply, w₂)) :
    AddedOnce (p.row (env.sub 0).utcNow) w w₂ ↔ failed = [] ∧
      (p.method = .bank ∨ p.row (env.sub 0).utcNow ∈ w.manual ∨ p.row (env.sub 0).utcNow ∉ w.publicRows) := by
  rcases confirm_cases ext p env w₁ with ⟨⟨e', hrefused⟩, -⟩ | ⟨result, hresult, hfresh, ⟨e', hfailed⟩ |
    ⟨commit, w', hok, hmanual, hpublic, -⟩⟩
  · rw [hrefused] at hconfirm
    cases hconfirm
  · rw [hfailed] at hconfirm
    cases hconfirm
  rw [hok] at hconfirm
  cases hconfirm
  obtain ⟨hadded, hshown, -⟩ := change_append ext w₁ (p.row (env.sub 0).utcNow) ("상점: 입금 확인 " ++ p.orderId)
  rw [hresult, hadded] at hmanual
  rw [hresult, hshown] at hpublic
  obtain ⟨hledger, hleft⟩ := hfails.leaves
  have hleft := hleft (by rw [← hledger]; exact hfresh)
  constructor
  · rintro ⟨hrows, hshownRows⟩
    have hnone : failed = [] := by
      have hlength := hrows.length_eq
      rw [hmanual, hleft, List.length_append, List.length_append, List.length_map, List.length_singleton, List.length_cons] at hlength
      exact List.length_eq_zero_iff.mp (by omega)
    subst hnone
    cases hfails
    rw [hpublic, perm_confirmed_iff hmerged, isBmc_row] at hshownRows
    exact ⟨rfl, hshownRows⟩
  · rintro ⟨rfl, hcond⟩
    cases hfails
    refine ⟨?_, ?_⟩
    · rw [hmanual]
      exact List.perm_append_singleton _ _
    · rw [hpublic, perm_confirmed_iff hmerged, isBmc_row]
      exact hcond

end Handlers

/-- Payments are restored by their undoing exactly if they are of the bank, or an equal row was manual before or
public once, and recorded once exactly if no confirmation raised and an equal row of BMC was not public before. -/
theorem payment_recorded_iff {π : Type} (ext : ShopExternals π) (w : ShopWorld π) (hmerged : Merged w.manual w.publicRows)
    (p : Payment) :
    (∀ env reply w₁, evalTask (ShopWorld.handler ext) (confirm p env) w = (.ok reply, w₁) →
      (Restored w (evalTask (ShopWorld.handler ext) (undo p.orderId) w₁).2 ↔
        p.method = .bank ∨ p.row (env.sub 0).utcNow ∈ w.manual ∨ w.publicRows.count (p.row (env.sub 0).utcNow) = 1)) ∧
    ∀ failed w₁ env reply w₂, Fails ext p failed w w₁ →
      evalTask (ShopWorld.handler ext) (confirm p env) w₁ = (.ok reply, w₂) →
      (AddedOnce (p.row (env.sub 0).utcNow) w w₂ ↔ failed = [] ∧
        (p.method = .bank ∨ p.row (env.sub 0).utcNow ∈ w.manual ∨ p.row (env.sub 0).utcNow ∉ w.publicRows)) :=
  ⟨fun _ _ _ hconfirm => restored_iff hmerged hconfirm,
    fun _ _ _ _ _ hfails hconfirm => addedOnce_iff hmerged hfails hconfirm⟩

def rejectedPushes : ShopExternals ℕ where
  git args n :=
    match args, n with
    | "push" :: _, n + 1 => (.error "rejected", n)
    | _, n => (.ok "", n)
  pending n := (.ok [], n)
  ack _ n := (.ok (), n)

def stillTime : Supply := fun _ => ⟨0, "0"⟩

def emptyShop (n : ℕ) : ShopWorld ℕ := ⟨Ledger.empty, [], [], n⟩

theorem coffee_orderId : isOrderId "가나다라마바사아자차" = true := by decide

theorem coffee_texts : (1 ≤ "n".length ∧ "n".length ≤ 100) ∧ "".length ≤ 40 ∧ "".length ≤ 80 ∧ isDmUserId "" = true ∧
    "".length ≤ 100 := by decide

theorem coffee_amount : (0 : ℤ) < 5000 ∧ (5000 : ℤ) ≤ 10000000 := by decide

def coffee (method : PayMethod) : Payment where
  orderId := "가나다라마바사아자차"
  nickname := "n"
  amount := 5000
  method := method
  orderId_pattern := coffee_orderId
  nickname_length := coffee_texts.1
  amount_range := coffee_amount
  publicName_length := coffee_texts.2.1
  note_length := coffee_texts.2.2.1
  dmUserId_pattern := coffee_texts.2.2.2.1
  pendingId_length := coffee_texts.2.2.2.2

theorem payment_of_bank_recorded : AddedOnce ((coffee .bank).row (stillTime.sub 0).utcNow) (emptyShop 0)
        (evalTask (ShopWorld.handler rejectedPushes) (confirm (coffee .bank) stillTime) (emptyShop 0)).2 ∧
      Restored (emptyShop 0) (evalTask (ShopWorld.handler rejectedPushes) (undo "가나다라마바사아자차")
        (evalTask (ShopWorld.handler rejectedPushes) (confirm (coffee .bank) stillTime) (emptyShop 0)).2).2 := by
  have hrecorded := payment_recorded_iff rejectedPushes (emptyShop 0) ⟨[], rfl⟩ (coffee .bank)
  exact ⟨(hrecorded.2 [] _ stillTime _ _ (.nil _) rfl).mpr ⟨rfl, .inl rfl⟩,
    (hrecorded.1 stillTime _ _ rfl).mpr (.inl rfl)⟩

/-- A row of BMC stays public after its undoing, and a rejected push leaves a row that the retry adds again. -/
theorem coffee_stays_public : Merged (emptyShop 0).manual (emptyShop 0).publicRows ∧
      (∃ reply w₁, evalTask (ShopWorld.handler rejectedPushes) (confirm (coffee .bmc) stillTime) (emptyShop 0) = (.ok reply, w₁) ∧
        ¬Restored (emptyShop 0) (evalTask (ShopWorld.handler rejectedPushes) (undo "가나다라마바사아자차") w₁).2) ∧
      ∃ w₁ reply w₂, Fails rejectedPushes (coffee .bank) [stillTime] (emptyShop 1) w₁ ∧
        evalTask (ShopWorld.handler rejectedPushes) (confirm (coffee .bank) stillTime) w₁ = (.ok reply, w₂) ∧
        ¬AddedOnce ((coffee .bank).row (stillTime.sub 0).utcNow) (emptyShop 1) w₂ := by
  have hmerged : Merged [] [] := ⟨[], rfl⟩
  obtain ⟨reply, w₁, hconfirm⟩ : ∃ reply w₁,
      evalTask (ShopWorld.handler rejectedPushes) (confirm (coffee .bmc) stillTime) (emptyShop 0) = (.ok reply, w₁) := ⟨_, _, rfl⟩
  obtain ⟨w₂, hfails⟩ : ∃ w₂, Fails rejectedPushes (coffee .bank) [stillTime] (emptyShop 1) w₂ ∧
      ∃ reply w₃, evalTask (ShopWorld.handler rejectedPushes) (confirm (coffee .bank) stillTime) w₂ = (.ok reply, w₃) :=
    ⟨_, .cons rfl (.nil _), _, _, rfl⟩
  obtain ⟨hfails, reply', w₃, hretried⟩ := hfails
  refine ⟨hmerged, ⟨reply, w₁, hconfirm, fun hrestored => ?_⟩, w₂, reply', w₃, hfails, hretried, fun hadded => ?_⟩
  · rcases (restored_iff (w := emptyShop 0) hmerged hconfirm).mp hrestored with hbank | hmanual | hone
    · cases hbank
    · cases hmanual
    · cases hone
  · cases ((addedOnce_iff (w := emptyShop 1) hmerged hfails hretried).mp hadded).1

end AllTomorrow.ShopPay
