import AllTomorrow.DeliveryStore
import AllTomorrow.DeliveryProgress

/-!
# Two ways to commit a delivery intent

`create_delivery` and `atomic_app_transaction` of the delivery store apply the same
idempotency rule with checks of their own. What each of them does with an intent is said
once, by cases on what the store holds under its key; comparing the two lists of cases
gives the states in which they part.
-/

namespace AllTomorrow

namespace DeliveryStore

variable {str : Datetime → String} {env : Supply} {s : DeliveryStore} {intent : DeliveryRecord}

/-- Both calls commit, find or reject the intent, and leave the same store. -/
def SameCommit : EStateM.Result Exn DeliveryStore DeliveryRecord →
    EStateM.Result Exn DeliveryStore (PyValue × DeliveryRecord) → Prop
  | .ok record s, .ok (_, record') s' => record = record' ∧ s = s'
  | .error _ s, .error _ s' => s = s'
  | _, _ => False

/-- The record that the store has under the intent's key and that has not expired. -/
def Holds (s : DeliveryStore) (now : Datetime) (intent existing : DeliveryRecord) : Prop :=
  ∃ existingId, s.recordsByIdempotencyKey.get? intent.idempotencyKey = some existingId ∧
    s.recordsById.get? existingId = some existing ∧ existing.isExpired now = false

/-- The record is bound for the same place and about the same subjects. -/
def SameSubject (existing intent : DeliveryRecord) : Prop :=
  existing.destinationAdapter = intent.destinationAdapter ∧ sameSubjects existing.subjectRefs intent.subjectRefs = true

def committed (s : DeliveryStore) (intent : DeliveryRecord) : DeliveryStore where
  recordsById := s.recordsById.set intent.deliveryId intent
  recordsByIdempotencyKey := s.recordsByIdempotencyKey.set intent.idempotencyKey intent.deliveryId

theorem run_existingFor_of_holds {now : Datetime} {existing : DeliveryRecord} {existingId : DeliveryId}
    (hget : s.recordsById.get? existingId = some existing) (hlive : existing.isExpired now = false) :
    (existingFor str now intent.idempotencyKey existingId).run s = .ok existing s := by
  simp [existingFor, hget, hlive]

theorem run_existingFor_of_dead {now : Datetime} {existingId : DeliveryId}
    (hdead : ∀ existing, s.recordsById.get? existingId = some existing → existing.isExpired now = true) :
    ∃ e, (existingFor str now intent.idempotencyKey existingId).run s = .error e s := by
  cases hget : s.recordsById.get? existingId with
  | none => simp [existingFor, hget]
  | some existing =>
    simp only [existingFor, EStateM.run_bind, EStateM.run_get, hget, hdead existing hget, ↓reduceIte,
      EStateM.run_throw_any]
    exact ⟨_, rfl⟩

section NewKey

variable (hnew : s.recordsByIdempotencyKey.get? intent.idempotencyKey = none)

include hnew

theorem sameCommit_of_newKey (result : PyValue) :
    SameCommit ((createDelivery str env intent).run s) ((atomicAppTransaction str env intent (.ok result)).run s) := by
  by_cases hexpired : intent.isExpired env.utcNow = true
  · have hcreate : ∃ e, (createDelivery str env intent).run s = .error e s := by
      simp [createDelivery, hnew, hexpired]
    have hatomic : ∃ e, (atomicAppTransaction str env intent (.ok result)).run s = .error e s := by
      simp [atomicAppTransaction, hexpired]
    obtain ⟨e, he⟩ := hcreate
    obtain ⟨e', he'⟩ := hatomic
    rw [he, he']
    rfl
  · have hcreate : (createDelivery str env intent).run s = .ok intent (s.committed intent) := by
      simp only [createDelivery, EStateM.run_bind, EStateM.run_get, hnew, hexpired, Bool.false_eq_true, ↓reduceIte]
      rfl
    have hatomic : (atomicAppTransaction str env intent (.ok result)).run s =
        .ok (result, intent) (s.committed intent) := by
      simp only [atomicAppTransaction, EStateM.run_bind, EStateM.run_get, hnew, hexpired, Bool.false_eq_true, ↓reduceIte]
      rfl
    rw [hcreate, hatomic]
    exact ⟨rfl, rfl⟩

end NewKey

section KnownKey

variable {existingId : DeliveryId} (hknown : s.recordsByIdempotencyKey.get? intent.idempotencyKey = some existingId)

include hknown

theorem sameCommit_of_dead (result : PyValue)
    (hdead : ∀ existing, s.recordsById.get? existingId = some existing → existing.isExpired env.utcNow = true) :
    SameCommit ((createDelivery str env intent).run s) ((atomicAppTransaction str env intent (.ok result)).run s) := by
  obtain ⟨e, he⟩ : ∃ e, (existingFor str env.utcNow intent.idempotencyKey existingId).run s = .error e s :=
    run_existingFor_of_dead hdead
  have hcreate : (createDelivery str env intent).run s = .error e s := by
    simp [createDelivery, hknown, he]
  have hatomic : ∃ e', (atomicAppTransaction str env intent (.ok result)).run s = .error e' s := by
    by_cases hexpired : intent.isExpired env.utcNow = true
    · simp [atomicAppTransaction, hexpired]
    · simp [atomicAppTransaction, hexpired, hknown, he]
  obtain ⟨e', he'⟩ := hatomic
  rw [hcreate, he']
  rfl

/-- `create_delivery` returns the live record whatever the intent says; the transaction looks at the
intent first. -/
theorem sameCommit_of_live_iff (result : PyValue) {existing : DeliveryRecord}
    (hget : s.recordsById.get? existingId = some existing) (hlive : existing.isExpired env.utcNow = false) :
    SameCommit ((createDelivery str env intent).run s) ((atomicAppTransaction str env intent (.ok result)).run s) ↔
      intent.isExpired env.utcNow = false ∧ SameSubject existing intent := by
  have hfound : (existingFor str env.utcNow intent.idempotencyKey existingId).run s = .ok existing s :=
    run_existingFor_of_holds hget hlive
  have hcreate : (createDelivery str env intent).run s = .ok existing s := by
    simp [createDelivery, hknown, hfound]
  rw [hcreate]
  by_cases hexpired : intent.isExpired env.utcNow = true
  · have hatomic : ∃ e, (atomicAppTransaction str env intent (.ok result)).run s = .error e s := by
      simp [atomicAppTransaction, hexpired]
    obtain ⟨e, he⟩ := hatomic
    rw [he]
    simp [SameCommit, hexpired]
  · by_cases hsame : SameSubject existing intent
    · have hatomic : (atomicAppTransaction str env intent (.ok result)).run s = .ok (.none, existing) s := by
        simp [atomicAppTransaction, hexpired, hknown, hfound, hsame.1, hsame.2]
      rw [hatomic]
      simp [SameCommit, hexpired, hsame]
    · have hatomic : ∃ e, (atomicAppTransaction str env intent (.ok result)).run s = .error e s := by
        have hdiffer : existing.destinationAdapter ≠ intent.destinationAdapter ∨
            ¬sameSubjects existing.subjectRefs intent.subjectRefs = true := by
          by_contra hboth
          rw [not_or, not_not, not_not] at hboth
          exact hsame hboth
        simp only [atomicAppTransaction, EStateM.run_bind, EStateM.run_get, hexpired, hknown, hfound, hdiffer,
          Bool.false_eq_true, ↓reduceIte, EStateM.run_throw_any]
        exact ⟨_, rfl⟩
      obtain ⟨e, he⟩ := hatomic
      rw [he]
      simp [SameCommit, hsame]

end KnownKey

/-- The two ways of committing agree exactly if a live record under the key belongs to an intent that has
not expired itself and names the same destination and subjects. -/
theorem sameCommit_iff (str : Datetime → String) (env : Supply) (s : DeliveryStore) (intent : DeliveryRecord)
    (result : PyValue) :
    SameCommit ((createDelivery str env intent).run s) ((atomicAppTransaction str env intent (.ok result)).run s) ↔
      ∀ existing, s.Holds env.utcNow intent existing →
        intent.isExpired env.utcNow = false ∧ SameSubject existing intent := by
  cases hkey : s.recordsByIdempotencyKey.get? intent.idempotencyKey with
  | none =>
    refine iff_of_true (sameCommit_of_newKey hkey result) ?_
    rintro existing ⟨existingId, hknown, _⟩
    rw [hkey] at hknown
    cases hknown
  | some existingId =>
    by_cases hlive : ∃ existing, s.recordsById.get? existingId = some existing ∧ existing.isExpired env.utcNow = false
    · obtain ⟨existing, hget, hvalid⟩ := hlive
      rw [sameCommit_of_live_iff hkey result hget hvalid]
      constructor
      · rintro hagree other ⟨otherId, hother, hrecord, _⟩
        rw [hkey, Option.some.injEq] at hother
        subst hother
        rw [hget, Option.some.injEq] at hrecord
        subst hrecord
        exact hagree
      · exact fun hall => hall existing ⟨existingId, hkey, hget, hvalid⟩
    · refine iff_of_true (sameCommit_of_dead hkey result ?_) ?_
      · intro existing hget
        by_contra hvalid
        exact hlive ⟨existing, hget, Bool.eq_false_of_not_eq_true hvalid⟩
      · rintro existing ⟨otherId, hother, hget, hvalid⟩
        rw [hkey, Option.some.injEq] at hother
        subst hother
        exact absurd ⟨existing, hget, hvalid⟩ hlive

end DeliveryStore

theorem otherAdapter_nonempty : PyText.isBlank "other" = false := by decide

/-- An intent for another adapter under the key of `runStartRecord`. -/
def redirectedIntent : DeliveryRecord :=
  { runStartRecord 0 with destinationAdapter := "other", destinationAdapter_nonempty := otherAdapter_nonempty }

/-- `create_delivery` returns the record for the first adapter, the transaction raises. -/
theorem redirected_intent_differs :
    ¬DeliveryStore.SameCommit
      ((DeliveryStore.createDelivery (fun _ => "") frozenSupply redirectedIntent).run
        (DeliveryStore.empty.committed (runStartRecord 0)))
      ((DeliveryStore.atomicAppTransaction (fun _ => "") frozenSupply redirectedIntent (.ok .none)).run
        (DeliveryStore.empty.committed (runStartRecord 0))) := by
  intro h
  exact h

end AllTomorrow
