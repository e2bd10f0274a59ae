import AllTomorrow.AnsweredPrograms
import AllTomorrow.MachineRuns
import AllTomorrow.PaymentRecords

/-!
# Updates of the ledger

The handlers that load and save the ledger of the shop, interleaved at their requests. An update is kept as
long as no handler saves a ledger that was made from another one than that on disk.
-/

namespace AllTomorrow.ShopPay

open Prog MachineRuns

/-! ## Requests -/

inductive ShopRequest where
  | listing
  | dismiss (pendingId : String)
  | confirm (p : Payment) (env : Supply)
  | dm (orderId : String) (action : DmAction) (env : Supply)
  | accessAck (ack : AccessAck) (env : Supply)
  | undo (orderId : String)

namespace ShopRequest

def program : ShopRequest → ShopTask ShopReply
  | .listing => ShopPay.listing
  | .dismiss pendingId => ShopPay.dismiss pendingId
  | .confirm p env => ShopPay.confirm p env
  | .dm orderId action env => ShopPay.dm orderId action env
  | .accessAck ack env => ShopPay.accessAck ack env
  | .undo orderId => ShopPay.undo orderId

def orders : ShopRequest → List String → List String
  | .confirm p _, recorded => recorded ++ [p.orderId]
  | .undo orderId, recorded => recorded.filter fun o => o ≠ orderId
  | _, recorded => recorded

/-- Whether the order is confirmed and not undone after the request, from whether it was before. -/
def confirms (orderId : String) (before : Bool) : ShopRequest → Bool
  | .confirm p _ => before || p.orderId = orderId
  | .undo undone => before && undone ≠ orderId
  | _ => before

def ChangesPaid : ShopRequest → Prop
  | .confirm .. | .undo _ => True
  | _ => False

end ShopRequest

def Payment.unlock (p : Payment) (env : Supply) : List AccessRequest :=
  if p.dmUserId = "" then [] else [newRequest p.dmUserId .unlock p.orderId (env.sub 2)]

def ShopRequest.added (q : ShopRequest) (reply : ShopReply) : List AccessRequest :=
  match q, reply with
  | .confirm p env, _ => p.unlock env
  | .dm .., .request req => [req]
  | _, _ => []

def AccessRequest.asAdded (r : AccessRequest) : AccessRequest := { r with done := false, ack := none }

def Ledger.isDone (data : Ledger) (requestId : String) : Bool :=
  (data.access.find? fun r => r.requestId = requestId).any (·.done)

def Ledger.orderIds (data : Ledger) : List String := data.paid.map (·.orderId)

def Ledger.addedAccess (data : Ledger) : List AccessRequest := data.access.map (·.asAdded)

/-- The handlers at work, and those that have saved the ledger, in this order. -/
structure ShopRun (ι π : Type) where
  pool : Pool ι ShopAction ShopAction.Answer (Except Exn ShopReply) (ShopWorld π)
  saved : List ι

section

variable {ι π : Type} [DecidableEq ι]

def ShopRun.start (requests : ι → ShopRequest) (w : ShopWorld π) : ShopRun ι π :=
  ⟨⟨fun i => (requests i).program.run, w⟩, []⟩

/-- Handler `i` makes its next request. -/
def shopStep (ext : ShopExternals π) (s : ShopRun ι π) (i : ι) : ShopRun ι π where
  pool := s.pool.step (ShopWorld.handler ext) i
  saved := match s.pool.threads i with
    | .act (.save ..) _ => s.saved ++ [i]
    | _ => s.saved

/-- If handler `i` is about to save, the ledger on disk still has the payments and the requests that it loaded. -/
def SavesLoaded (s : ShopRun ι π) (i : ι) : Prop :=
  match s.pool.threads i with
  | .act (.save loaded _) _ => s.pool.state.ledger.paid = loaded.paid ∧ s.pool.state.ledger.access = loaded.access
  | _ => True

/-- The payments are those of the orders confirmed and not undone, each once, and the requests for Eve those that were
added, done once they are acknowledged. -/
structure LedgerKept (requests : ι → ShopRequest) (initial : Ledger) (s : ShopRun ι π) : Prop where
  noOrderTwice : s.pool.state.ledger.orderIds.Nodup
  paid_iff : ∀ orderId, orderId ∈ s.pool.state.ledger.orderIds ↔
    (s.saved.map requests).foldl (ShopRequest.confirms orderId) (orderId ∈ initial.orderIds) = true
  savedOnce : s.saved.Nodup
  saved_iff : ∀ i, (requests i).ChangesPaid → (i ∈ s.saved ↔ ∃ reply, s.pool.threads i = .done (.ok reply))
  initialAccess : ∀ r ∈ initial.addedAccess, r ∈ s.pool.state.ledger.addedAccess
  added : ∀ i reply, s.pool.threads i = .done (.ok reply) → ∀ r ∈ (requests i).added reply, r ∈ s.pool.state.ledger.addedAccess
  initialDone : ∀ requestId, initial.isDone requestId = true → s.pool.state.ledger.isDone requestId = true
  acknowledged : ∀ i ack env reply, requests i = .accessAck ack env → s.pool.threads i = .done (.ok reply) →
    s.pool.state.ledger.isDone ack.requestId = true

end

section

variable {data loaded : Ledger} {ack : AccessAck} {now : Datetime} {requestId : String}

theorem isDone_append (h : loaded.isDone requestId = true) {rest : List AccessRequest}
    (haccess : data.access = loaded.access ++ rest) : data.isDone requestId = true := by
  unfold Ledger.isDone at h ⊢
  rw [haccess, List.find?_append]
  cases hfind : loaded.access.find? fun r => r.requestId = requestId with
  | none =>
    rw [hfind] at h
    cases h
  | some r =>
    rw [hfind] at h
    exact h

variable (access : List AccessRequest)

theorem asAdded_markDone : (markDone ack now access).map (·.asAdded) = access.map (·.asAdded) := by
  induction access with
  | nil => rfl
  | cons r rest ih =>
    unfold markDone
    split
    · rfl
    · rw [List.map_cons, List.map_cons, ih]

theorem any_done_markDone (h : ((access.find? fun r => r.requestId = requestId).any (·.done)) = true ∨
      requestId = ack.requestId ∧ (access.find? fun r => r.requestId = requestId).isSome = true) :
    (((markDone ack now access).find? fun r => r.requestId = requestId).any (·.done)) = true := by
  induction access with
  | nil =>
    rcases h with h | ⟨-, h⟩
    · cases h
    · cases h
  | cons r rest ih =>
    unfold markDone
    by_cases hid : r.requestId = requestId
    · split
      · rw [List.find?_cons_of_pos (by simpa using hid)]
        rfl
      · next hother =>
        rw [List.find?_cons_of_pos (by simpa using hid)] at h ⊢
        rcases h with h | ⟨heq, -⟩
        · exact h
        · exact absurd (hid.trans heq) hother
    · rw [List.find?_cons_of_neg (by simpa using hid)] at h
      split
      · next hmarked =>
        rw [List.find?_cons_of_neg (by simpa using hid)]
        rcases h with h | ⟨heq, -⟩
        · exact h
        · exact absurd (hmarked.trans heq.symm) hid
      · rw [List.find?_cons_of_neg (by simpa using hid)]
        exact ih h

end

/-! ## What a request saves -/

structure SavedFrom (q : ShopRequest) (loaded data : Ledger) (reply : ShopReply) : Prop where
  orders : data.orderIds = q.orders loaded.orderIds
  fresh : loaded.orderIds.Nodup → data.orderIds.Nodup
  access : data.addedAccess = loaded.addedAccess ++ q.added reply
  done : ∀ requestId, loaded.isDone requestId = true → data.isDone requestId = true
  acknowledged : ∀ ack env, q = .accessAck ack env → data.isDone ack.requestId = true

structure UnsavedFrom (q : ShopRequest) (loaded : Ledger) (reply : ShopReply) : Prop where
  unchanged : ¬q.ChangesPaid
  access : q.added reply = []
  acknowledged : ∀ ack env, q = .accessAck ack env → loaded.isDone ack.requestId = true

def ShopAction.IsSave : ShopAction → Prop
  | .save .. => True
  | _ => False

/-- The save is the last request, and what it saves was made from what was loaded. -/
def ClosesFrom (q : ShopRequest) (loaded : Ledger) (x : ShopTask ShopReply) : Prop :=
  TaskCloses ShopAction.IsSave (fun a reply => ∃ data, a = .save loaded data ∧ SavedFrom q loaded data reply)
    (UnsavedFrom q loaded) x

section

variable {q : ShopRequest} {loaded data : Ledger} {reply : ShopReply} {α : Type}

theorem closesFrom_save (h : SavedFrom q loaded data reply) :
    ClosesFrom q loaded (do ShopTask.save loaded data; return reply) :=
  ⟨fun _ _ => ⟨_, rfl, reply, rfl, data, rfl, h⟩, fun hno => absurd trivial hno⟩

theorem closesFrom_bind {x : ShopTask α} {Q : α → Prop} {f : α → ShopTask ShopReply}
    (hx : TaskRequests (fun a => ¬a.IsSave) x) (hQ : TaskReturns Q x) (hf : ∀ a, Q a → ClosesFrom q loaded (f a)) :
    ClosesFrom q loaded (x >>= f) := taskCloses_bind hx hQ hf

theorem savedFrom_same (hpaid : data.paid = loaded.paid) (haccess : data.access = loaded.access)
    (horders : q.orders loaded.orderIds = loaded.orderIds) (hadded : q.added reply = [])
    (hack : ∀ ack env, q ≠ .accessAck ack env) : SavedFrom q loaded data reply := by
  have hsame : data.orderIds = loaded.orderIds := by rw [Ledger.orderIds, hpaid, Ledger.orderIds]
  refine ⟨hsame.trans horders.symm, fun h => hsame ▸ h, ?_, fun requestId h => ?_, fun ack env h => absurd h (hack ack env)⟩
  · rw [Ledger.addedAccess, haccess, hadded, List.append_nil, Ledger.addedAccess]
  · exact isDone_append h (by rw [haccess, List.append_nil])

variable (recorded : Ledger)

theorem requests_takePending (pendingId : String) : TaskRequests (fun a => ¬a.IsSave) (takePending recorded pendingId) := by
  unfold takePending
  split
  · exact TaskRequests.bind ⟨id, fun _ => trivial⟩ fun _ => trivial
  · trivial

theorem returns_takePending (pendingId : String) :
    TaskReturns (fun taken => taken.paid = recorded.paid ∧ taken.access = recorded.access) (takePending recorded pendingId) := by
  unfold takePending
  split
  · exact (taskReturns_true _).bind fun _ _ => taskReturns_pure ⟨rfl, rfl⟩
  · exact taskReturns_pure ⟨rfl, rfl⟩

theorem orderIds_filter (orderId : String) (paid : List PaidEntry) :
    (paid.filter fun x => x.orderId ≠ orderId).map (·.orderId) = (paid.map (·.orderId)).filter fun o => o ≠ orderId := by
  rw [List.filter_map]
  rfl

theorem requests_takenFor (pendingId : String) : TaskRequests (fun a => ¬a.IsSave) (takenFor recorded pendingId) := by
  unfold takenFor
  split
  · trivial
  · exact (requests_takePending recorded pendingId).attempt

theorem returns_takenFor (pendingId : String) :
    TaskReturns (fun taken => ∀ data, taken = .ok data → data.paid = recorded.paid ∧ data.access = recorded.access)
      (takenFor recorded pendingId) := by
  unfold takenFor
  split
  · refine taskReturns_pure ?_
    rintro data ⟨⟩
    exact ⟨rfl, rfl⟩
  · refine OnlyReturns.bind (returns_takePending recorded pendingId) fun result hresult => ?_
    rintro taken ⟨⟩
    exact hresult

variable {taken : Except Exn Ledger}

theorem recordedLedger_access (p : Payment) (env : Supply) (recorded : Ledger)
    (htaken : ∀ data, taken = .ok data → data.paid = recorded.paid ∧ data.access = recorded.access) :
    (p.recordedLedger env recorded taken).access = recorded.access ++ p.unlock env := by
  have hadd (data : Ledger) (h : data.access = recorded.access) :
      (if p.dmUserId = "" then data else data.addRequest (newRequest p.dmUserId .unlock p.orderId (env.sub 2))).access =
        recorded.access ++ p.unlock env := by
    unfold Payment.unlock
    split
    · rw [h, List.append_nil]
    · rw [Ledger.addRequest, h]
  unfold Payment.recordedLedger
  cases taken with
  | ok data => exact hadd data (htaken data rfl).2
  | error e => exact hadd recorded rfl

theorem asAdded_unlock (p : Payment) (env : Supply) : (p.unlock env).map (·.asAdded) = p.unlock env := by
  unfold Payment.unlock
  split <;> rfl

theorem savedFrom_confirm {p : Payment} {env : Supply} (hfresh : p.orderId ∉ loaded.orderIds) (row : Supporter) (commit : String)
    (now : Datetime) (htaken : ∀ data, taken = .ok data →
      data.paid = loaded.paid ++ [p.entry row commit now] ∧ data.access = loaded.access) : SavedFrom (.confirm p env) loaded
      (p.recordedLedger env { loaded with paid := loaded.paid ++ [p.entry row commit now] } taken) reply := by
  have hpaid := recordedLedger_paid p env { loaded with paid := loaded.paid ++ [p.entry row commit now] } htaken
  have haccess := recordedLedger_access p env { loaded with paid := loaded.paid ++ [p.entry row commit now] } htaken
  have horders : (p.recordedLedger env { loaded with paid := loaded.paid ++ [p.entry row commit now] } taken).orderIds =
      loaded.orderIds ++ [p.orderId] := by
    rw [Ledger.orderIds, hpaid, List.map_append]
    rfl
  refine ⟨horders, fun hnodup => ?_, ?_, fun requestId h => isDone_append h haccess, nofun⟩
  · rw [horders]
    refine List.nodup_append.mpr ⟨hnodup, List.nodup_singleton _, ?_⟩
    intro o ho o' ho' heq
    rw [List.mem_singleton.mp ho'] at heq
    exact hfresh (heq ▸ ho)
  · rw [Ledger.addedAccess, haccess, List.map_append, asAdded_unlock]
    rfl

/-- Every request loads first. -/
theorem program_closes (q : ShopRequest) :
    ∃ after : Ledger → ShopTask ShopReply, q.program = ShopTask.load >>= after ∧ ∀ loaded, ClosesFrom q loaded (after loaded) := by
  cases q with
  | listing =>
    refine ⟨_, rfl, fun loaded => ?_⟩
    refine closesFrom_bind (Q := fun _ => True) ⟨id, fun _ => trivial⟩ (taskReturns_true _) fun answer _ => ?_
    cases answer with
    | ok fresh => exact closesFrom_save (savedFrom_same rfl rfl rfl rfl nofun)
    | error text => exact taskCloses_pure ⟨id, rfl, nofun⟩
  | dismiss pendingId =>
    refine ⟨_, rfl, fun loaded => ?_⟩
    refine closesFrom_bind (requests_takePending loaded pendingId) (returns_takePending loaded pendingId) fun taken htaken => ?_
    exact closesFrom_save (savedFrom_same htaken.1 htaken.2 rfl rfl nofun)
  | confirm p env =>
    refine ⟨_, rfl, fun loaded => ?_⟩
    by_cases hpaid : (loaded.paid.any fun x => x.orderId = p.orderId) = true
    · rw [if_pos hpaid]
      exact taskCloses_throw
    rw [if_neg hpaid]
    have hfresh : p.orderId ∉ loaded.orderIds := by
      intro hmem
      obtain ⟨x, hx, horder⟩ := List.mem_map.mp hmem
      exact hpaid (List.any_eq_true.mpr ⟨x, hx, decide_eq_true horder⟩)
    refine closesFrom_bind (Q := fun _ => True) ⟨id, fun _ => trivial⟩ (taskReturns_true _) fun commit _ => ?_
    have hrequests := requests_takenFor { loaded with paid := loaded.paid ++
      [p.entry (p.row (env.sub 0).utcNow) commit (env.sub 1).utcNow] } p.pendingId
    have hreturns := returns_takenFor { loaded with paid := loaded.paid ++
      [p.entry (p.row (env.sub 0).utcNow) commit (env.sub 1).utcNow] } p.pendingId
    unfold takenFor at hrequests hreturns
    by_cases hid : p.pendingId = ""
    · rw [if_pos hid] at hrequests hreturns ⊢
      exact closesFrom_bind hrequests hreturns fun taken htaken => closesFrom_save (savedFrom_confirm hfresh _ _ _ htaken)
    · rw [if_neg hid] at hrequests hreturns ⊢
      exact closesFrom_bind hrequests hreturns fun taken htaken => closesFrom_save (savedFrom_confirm hfresh _ _ _ htaken)
  | dm orderId action env =>
    refine ⟨_, rfl, fun loaded => ?_⟩
    cases loaded.paid.find? fun x => x.orderId = orderId with
    | none => exact taskCloses_throw
    | some found =>
      dsimp only
      split
      · exact taskCloses_throw
      · refine closesFrom_save ⟨rfl, id, ?_, fun requestId h => isDone_append h rfl, nofun⟩
        exact List.map_append
  | accessAck ack env =>
    refine ⟨_, rfl, fun loaded => ?_⟩
    cases hfind : loaded.access.find? fun r => r.requestId = ack.requestId with
    | none => exact taskCloses_throw
    | some req =>
      dsimp only
      split
      · next hdone =>
        refine taskCloses_pure ⟨id, rfl, ?_⟩
        rintro ack' env' ⟨⟩
        rw [Ledger.isDone, hfind]
        exact hdone
      · refine closesFrom_save ⟨rfl, id, ?_, fun requestId h => any_done_markDone _ (.inl h), ?_⟩
        · exact (asAdded_markDone _).trans (List.append_nil _).symm
        · rintro ack' env' ⟨⟩
          exact any_done_markDone _ (.inr ⟨rfl, by rw [hfind]; rfl⟩)
  | undo orderId =>
    refine ⟨_, rfl, fun loaded => ?_⟩
    cases loaded.paid.find? fun x => x.orderId = orderId with
    | none => exact taskCloses_throw
    | some found =>
      refine closesFrom_bind (Q := fun _ => True) ⟨id, fun _ => trivial⟩ (taskReturns_true _) fun commit _ => ?_
      refine closesFrom_save ⟨?_, ?_, (List.append_nil _).symm, fun _ h => h, nofun⟩
      · exact orderIds_filter orderId loaded.paid
      · intro hnodup
        have hfiltered : (loaded.orderIds.filter fun o => o ≠ orderId).Nodup := hnodup.filter _
        rwa [Ledger.orderIds, ← orderIds_filter] at hfiltered

end

/-! ## Runs -/

structure Grown (old new : Ledger) : Prop where
  access : ∀ r ∈ old.addedAccess, r ∈ new.addedAccess
  done : ∀ requestId, old.isDone requestId = true → new.isDone requestId = true

theorem Grown.refl (data : Ledger) : Grown data data := ⟨fun _ h => h, fun _ h => h⟩

theorem Grown.trans {a b c : Ledger} (hab : Grown a b) (hbc : Grown b c) : Grown a c :=
  ⟨fun r h => hbc.access r (hab.access r h), fun requestId h => hbc.done requestId (hab.done requestId h)⟩

theorem SavedFrom.grown {q : ShopRequest} {loaded data : Ledger} {reply : ShopReply} (h : SavedFrom q loaded data reply) :
    Grown loaded data := by
  refine ⟨fun r hr => ?_, h.done⟩
  rw [h.access]
  exact List.mem_append_left _ hr

/-- Where a handler stands: before its first request, after it, or after its save. -/
inductive StandsAt (q : ShopRequest) (disk : Ledger) :
    Bool → Prog ShopAction ShopAction.Answer (Except Exn ShopReply) → Prop where
  | fresh : StandsAt q disk false q.program.run
  | working {x : ShopTask ShopReply} (loaded : Ledger) (hgrown : Grown loaded disk) (hcloses : ClosesFrom q loaded x) :
      StandsAt q disk false x.run
  | saved (reply : ShopReply) (hadded : ∀ r ∈ q.added reply, r ∈ disk.addedAccess)
      (hacknowledged : ∀ ack env, q = .accessAck ack env → disk.isDone ack.requestId = true) :
      StandsAt q disk true (.done (.ok reply))

section

variable {q : ShopRequest} {disk disk' : Ledger} {saved : Bool}
  {rest : {a : ShopAction} → a.Answer → Prog ShopAction ShopAction.Answer (Except Exn ShopReply)}
  {p : Prog ShopAction ShopAction.Answer (Except Exn ShopReply)}

theorem StandsAt.mono (h : StandsAt q disk saved p) (hgrown : Grown disk disk') : StandsAt q disk' saved p := by
  cases h with
  | fresh => exact .fresh
  | working loaded hold hcloses => exact .working loaded (hold.trans hgrown) hcloses
  | saved reply hadded hacknowledged =>
    exact .saved reply (fun r hr => hgrown.access r (hadded r hr)) fun ack env hq => hgrown.done _ (hacknowledged ack env hq)

theorem ledger_handler {π : Type} (ext : ShopExternals π) (ha : ¬a.IsSave) (w : ShopWorld π) :
    (ShopWorld.handler ext a w).2.ledger = w.ledger := by
  cases a with
  | save => exact absurd trivial ha
  | _ => rfl

theorem StandsAt.advance_of_not_save {π : Type} {ext : ShopExternals π} {w : ShopWorld π}
    {rest : a.Answer → Prog ShopAction ShopAction.Answer (Except Exn ShopReply)} (ha : ¬a.IsSave)
    (h : StandsAt q w.ledger saved (.act a rest)) : StandsAt q w.ledger saved (rest (ShopWorld.handler ext a w).1) := by
  generalize hp : Prog.act a rest = p at h
  cases h with
  | fresh =>
    obtain ⟨after, hprogram, hcloses⟩ := program_closes q
    rw [hprogram] at hp
    cases hp
    exact .working w.ledger (.refl _) (hcloses w.ledger)
  | @working x loaded hgrown hcloses =>
    unfold ClosesFrom TaskCloses at hcloses
    rw [← hp] at hcloses
    exact .working loaded hgrown (hcloses.2 ha _)
  | saved reply => cases hp

theorem StandsAt.advance_of_save {loaded data : Ledger}
    {rest : Unit → Prog ShopAction ShopAction.Answer (Except Exn ShopReply)}
    (h : StandsAt q disk saved (.act (.save loaded data) rest)) :
    saved = false ∧ ∃ reply, rest () = .done (.ok reply) ∧ SavedFrom q loaded data reply := by
  generalize hp : (Prog.act (.save loaded data) rest : Prog ShopAction ShopAction.Answer (Except Exn ShopReply)) = p at h
  cases h with
  | fresh =>
    obtain ⟨after, hprogram, -⟩ := program_closes q
    rw [hprogram] at hp
    cases hp
  | @working x loaded' hgrown hcloses =>
    unfold ClosesFrom TaskCloses at hcloses
    rw [← hp] at hcloses
    obtain ⟨value, hrest, reply, rfl, data', hsave, hsaved⟩ := hcloses.1 trivial ()
    cases hsave
    exact ⟨rfl, reply, hrest, hsaved⟩
  | saved reply => cases hp

theorem StandsAt.of_saved (h : StandsAt q disk true p) : ∃ reply, p = .done (.ok reply) := by
  cases h with
  | saved reply => exact ⟨reply, rfl⟩

theorem StandsAt.returned {reply : ShopReply} (h : StandsAt q disk saved (.done (.ok reply))) :
    (q.ChangesPaid → saved = true) ∧ (∀ r ∈ q.added reply, r ∈ disk.addedAccess) ∧
      ∀ ack env, q = .accessAck ack env → disk.isDone ack.requestId = true := by
  generalize hp : (Prog.done (.ok reply) : Prog ShopAction ShopAction.Answer (Except Exn ShopReply)) = p at h
  cases h with
  | fresh =>
    obtain ⟨after, hprogram, -⟩ := program_closes q
    rw [hprogram] at hp
    cases hp
  | @working x loaded hgrown hcloses =>
    unfold ClosesFrom TaskCloses at hcloses
    rw [← hp] at hcloses
    have hunsaved := hcloses reply rfl
    refine ⟨fun hpaid => absurd hpaid hunsaved.unchanged, fun r hr => ?_, fun ack env hq => ?_⟩
    · rw [hunsaved.access] at hr
      cases hr
    · exact hgrown.done _ (hunsaved.acknowledged ack env hq)
  | saved reply' hadded hacknowledged =>
    cases hp
    exact ⟨fun _ => rfl, hadded, hacknowledged⟩

end

section

variable {ι π : Type} [DecidableEq ι] {ext : ShopExternals π} {requests : ι → ShopRequest} {initial : Ledger}

/-- What the steps keep that save what was made from the ledger on disk. -/
structure Keeping (requests : ι → ShopRequest) (initial : Ledger) (s : ShopRun ι π) : Prop where
  noOrderTwice : s.pool.state.ledger.orderIds.Nodup
  orders : s.pool.state.ledger.orderIds =
    (s.saved.map requests).foldl (fun recorded q => q.orders recorded) initial.orderIds
  savedOnce : s.saved.Nodup
  grown : Grown initial s.pool.state.ledger
  threads : ∀ i, StandsAt (requests i) s.pool.state.ledger (decide (i ∈ s.saved)) (s.pool.threads i)

theorem keeping_start {w : ShopWorld π} (h : w.ledger.orderIds.Nodup) :
    Keeping requests w.ledger (ShopRun.start requests w) :=
  ⟨h, rfl, List.nodup_nil, .refl _, fun _ => .fresh⟩

variable {s : ShopRun ι π}

/-- Nothing is saved. -/
theorem Keeping.step_of_not_save {i : ι} (h : Keeping requests initial s) {a : ShopAction}
    {rest : a.Answer → Prog ShopAction ShopAction.Answer (Except Exn ShopReply)} (hthread : s.pool.threads i = .act a rest)
    (ha : ¬a.IsSave) : Keeping requests initial (shopStep ext s i) := by
  have hsaved : (shopStep ext s i).saved = s.saved := by
    unfold shopStep
    rw [hthread]
    cases a with
    | save => exact absurd trivial ha
    | _ => rfl
  have hstate : (shopStep ext s i).pool.state = (ShopWorld.handler ext a s.pool.state).2 := by
    change (advance (ShopWorld.handler ext) (s.pool.threads i) s.pool.state).2 = _
    rw [hthread]
    rfl
  have hledger : (shopStep ext s i).pool.state.ledger = s.pool.state.ledger := by
    rw [hstate, ledger_handler ext ha]
  refine ⟨?_, ?_, ?_, ?_, fun j => ?_⟩
  · rw [hledger]
    exact h.noOrderTwice
  · rw [hledger, hsaved]
    exact h.orders
  · rw [hsaved]
    exact h.savedOnce
  · rw [hledger]
    exact h.grown
  · rw [hledger, hsaved]
    change StandsAt _ _ _ (Function.update s.pool.threads i (advance (ShopWorld.handler ext) (s.pool.threads i) s.pool.state).1 j)
    by_cases hij : j = i
    · subst hij
      rw [Function.update_self, hthread]
      have hj := h.threads j
      rw [hthread] at hj
      exact hj.advance_of_not_save ha
    · rw [Function.update_of_ne hij]
      exact h.threads j

theorem Keeping.step_of_save {i : ι} (h : Keeping requests initial s) {loaded data : Ledger}
    {rest : Unit → Prog ShopAction ShopAction.Answer (Except Exn ShopReply)}
    (hthread : s.pool.threads i = .act (.save loaded data) rest) (hpaid : s.pool.state.ledger.paid = loaded.paid)
    (haccess : s.pool.state.ledger.access = loaded.access) : Keeping requests initial (shopStep ext s i) := by
  have hi := h.threads i
  rw [hthread] at hi
  obtain ⟨hunsaved, reply, hreturns, hfrom⟩ := hi.advance_of_save
  have hfresh : i ∉ s.saved := of_decide_eq_false hunsaved
  have hsaved : (shopStep ext s i).saved = s.saved ++ [i] := by
    unfold shopStep
    rw [hthread]
  have hledger : (shopStep ext s i).pool.state.ledger = data := by
    change (advance (ShopWorld.handler ext) (s.pool.threads i) s.pool.state).2.ledger = _
    rw [hthread]
    rfl
  -- the ledger on disk agrees with the one that was loaded
  have hids : s.pool.state.ledger.orderIds = loaded.orderIds := by rw [Ledger.orderIds, hpaid, Ledger.orderIds]
  have hgrown : Grown s.pool.state.ledger data := by
    refine Grown.trans ⟨fun r hr => ?_, fun requestId hdone => ?_⟩ hfrom.grown
    · rwa [Ledger.addedAccess, haccess] at hr
    · rwa [Ledger.isDone, haccess] at hdone
  refine ⟨?_, ?_, ?_, ?_, fun j => ?_⟩
  · rw [hledger]
    exact hfrom.fresh (hids ▸ h.noOrderTwice)
  · rw [hledger, hsaved, hfrom.orders, List.map_append, List.foldl_append, ← h.orders, hids]
    rfl
  · rw [hsaved]
    rw [← List.concat_eq_append]
    exact h.savedOnce.concat hfresh
  · rw [hledger]
    exact h.grown.trans hgrown
  · rw [hledger, hsaved]
    change StandsAt _ _ _ (Function.update s.pool.threads i (advance (ShopWorld.handler ext) (s.pool.threads i) s.pool.state).1 j)
    by_cases hij : j = i
    · subst hij
      rw [Function.update_self, hthread, decide_eq_true (List.mem_append_right _ (List.mem_singleton_self j))]
      change StandsAt _ _ _ (rest ())
      rw [hreturns]
      refine .saved reply (fun r hr => ?_) hfrom.acknowledged
      rw [hfrom.access]
      exact List.mem_append_right _ hr
    · have hmem : (j ∈ s.saved ++ [i]) ↔ j ∈ s.saved := by simp [hij]
      rw [Function.update_of_ne hij, decide_eq_decide.mpr hmem]
      exact (h.threads j).mono hgrown

theorem Keeping.step {i : ι} (h : Keeping requests initial s) (hloaded : SavesLoaded s i) :
    Keeping requests initial (shopStep ext s i) := by
  cases hthread : s.pool.threads i with
  | done result =>
    have hsame : shopStep ext s i = s := by
      have hpool : s.pool.step (ShopWorld.handler ext) i = s.pool := by
        unfold Pool.step
        rw [hthread, advance, ← hthread, Function.update_eq_self]
      unfold shopStep
      rw [hpool, hthread]
    rw [hsame]
    exact h
  | act a rest =>
    by_cases ha : a.IsSave
    · cases a with
      | save loaded data =>
        unfold SavesLoaded at hloaded
        rw [hthread] at hloaded
        exact h.step_of_save hthread hloaded.1 hloaded.2
      | _ => exact absurd ha id
    · exact h.step_of_not_save hthread ha

theorem keeping_run (h : Keeping requests initial s) (schedule : List ι)
    (hloaded : EveryStep (shopStep ext) SavesLoaded s schedule) : Keeping requests initial (run (shopStep ext) s schedule) := by
  induction schedule generalizing s with
  | nil => exact h
  | cons i schedule ih =>
    obtain ⟨hi, hrest⟩ := everyStep_cons.mp hloaded
    exact ih (h.step hi) hrest

theorem mem_orders_iff (q : ShopRequest) (orderId : String) (recorded : List String) :
    orderId ∈ q.orders recorded ↔ q.confirms orderId (orderId ∈ recorded) = true := by
  cases q with
  | confirm p env =>
    rw [ShopRequest.orders, ShopRequest.confirms, List.mem_append, List.mem_singleton, Bool.or_eq_true, decide_eq_true_iff,
      decide_eq_true_iff, eq_comm (a := p.orderId)]
  | undo undone =>
    rw [ShopRequest.orders, ShopRequest.confirms, List.mem_filter, Bool.and_eq_true, decide_eq_true_iff, decide_eq_true_iff,
      decide_eq_true_iff, ne_comm]
  | _ => exact (decide_eq_true_iff).symm

theorem mem_foldl_orders (qs : List ShopRequest) (orderId : String) (recorded : List String) :
    orderId ∈ qs.foldl (fun recorded q => q.orders recorded) recorded ↔
      qs.foldl (ShopRequest.confirms orderId) (orderId ∈ recorded) = true := by
  induction qs generalizing recorded with
  | nil => exact (decide_eq_true_iff).symm
  | cons q qs ih =>
    have hsame : decide (orderId ∈ q.orders recorded) = q.confirms orderId (orderId ∈ recorded) :=
      Bool.eq_iff_iff.mpr (decide_eq_true_iff.trans (mem_orders_iff q orderId recorded))
    rw [List.foldl_cons, List.foldl_cons, ih, hsame]

theorem Keeping.kept (h : Keeping requests initial s) : LedgerKept requests initial s := by
  have hreturned (i : ι) (reply : ShopReply) (hdone : s.pool.threads i = .done (.ok reply)) :=
    (hdone ▸ h.threads i).returned
  refine ⟨h.noOrderTwice, fun orderId => ?_, h.savedOnce, fun i hpaid => ⟨fun hmem => ?_, ?_⟩, h.grown.access, ?_, h.grown.done, ?_⟩
  · rw [h.orders, mem_foldl_orders]
  · have hi := h.threads i
    rw [decide_eq_true hmem] at hi
    exact hi.of_saved
  · rintro ⟨reply, hdone⟩
    exact of_decide_eq_true ((hreturned i reply hdone).1 hpaid)
  · exact fun i reply hdone => (hreturned i reply hdone).2.1
  · exact fun i ack env reply hq hdone => (hreturned i reply hdone).2.2 ack env hq

end

/-- No update is lost where every handler saves what was made from the ledger on disk. -/
theorem ledgerKept_of_savesLoaded {ι π : Type} [DecidableEq ι] (ext : ShopExternals π) (requests : ι → ShopRequest)
    (w : ShopWorld π) (hnodup : w.ledger.orderIds.Nodup) (schedule : List ι)
    (hloaded : EveryStep (shopStep ext) SavesLoaded (ShopRun.start requests w) schedule) :
    LedgerKept requests w.ledger (run (shopStep ext) (ShopRun.start requests w) schedule) :=
  (keeping_run (keeping_start hnodup) schedule hloaded).kept

theorem otherOrder_pattern : isOrderId "하늘바다사과나무구름" = true := by decide

def twoConfirmations (second : Bool) : ShopRequest :=
  if second then
    .confirm { coffee .bank with orderId := "하늘바다사과나무구름", orderId_pattern := otherOrder_pattern } stillTime
  else .confirm (coffee .bank) stillTime

def confirmedRun (schedule : List Bool) : ShopRun Bool ℕ :=
  run (shopStep rejectedPushes) (ShopRun.start twoConfirmations (emptyShop 0)) schedule

/-- One after the other. -/
theorem confirmed_in_turn :
    LedgerKept twoConfirmations Ledger.empty (confirmedRun [false, false, false, true, true, true]) := by
  refine ledgerKept_of_savesLoaded rejectedPushes twoConfirmations (emptyShop 0) List.nodup_nil _ ?_
  simp only [everyStep_cons]
  exact ⟨trivial, trivial, ⟨rfl, rfl⟩, trivial, trivial, ⟨rfl, rfl⟩, everyStep_nil⟩

/-- Both load before either saves, and both return. -/
theorem first_confirmation_lost : ∃ first second,
    (confirmedRun [false, true, false, true, false, true]).pool.threads false = .done (.ok first) ∧
    (confirmedRun [false, true, false, true, false, true]).pool.threads true = .done (.ok second) ∧
    (confirmedRun [false, true, false, true, false, true]).pool.state.ledger.orderIds = ["하늘바다사과나무구름"] ∧
    ¬LedgerKept twoConfirmations Ledger.empty (confirmedRun [false, true, false, true, false, true]) := by
  refine ⟨_, _, rfl, rfl, rfl, fun hkept => ?_⟩
  have hsaved : (confirmedRun [false, true, false, true, false, true]).saved = [false, true] := rfl
  have hids : (confirmedRun [false, true, false, true, false, true]).pool.state.ledger.orderIds = ["하늘바다사과나무구름"] := rfl
  have hfirst := hkept.paid_iff "가나다라마바사아자차"
  rw [hsaved, hids] at hfirst
  exact absurd (hfirst.mpr (by decide)) (by decide)

end AllTomorrow.ShopPay
