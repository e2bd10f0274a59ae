import Mathlib.Data.Rat.Defs
import Mathlib.Data.List.Sort
import AllTomorrow.DomainRecords
import AllTomorrow.IsoTimestamps
import AllTomorrow.ResumptionPrograms

/-!
# Payments of the shop

`console/shop_pay.py`: the two lists of supporters in the repository of the shop, the ledger of the
console, and the handlers as programs that load and save the ledger and change the lists.
-/

namespace AllTomorrow.ShopPay

/-! ## Supporters -/

structure Supporter where
  name : String
  amount : ℚ
  currency : String
  note : String
  date : Option String
  source : Option String
  deriving DecidableEq

/-- `row.get("source") == "bmc"` -/
def Supporter.isBmc (row : Supporter) : Bool := row.source = some "bmc"

/-- `row.get("date", "")` -/
def Supporter.day (row : Supporter) : String := row.date.getD ""

/-- The public list: the manual rows and the other rows of BMC, the latest first. -/
def mergePublic (manual rows : List Supporter) : List Supporter :=
  (manual ++ rows.filter fun r => r.isBmc && r ∉ manual).insertionSort fun r s => s.day ≤ r.day

inductive SupporterEdit where
  | append (row : Supporter)
  | drop (row : Supporter)

def SupporterEdit.apply : SupporterEdit → List Supporter → List Supporter
  | .append row, rows => rows ++ [row]
  | .drop row, rows => rows.erase row

/-! ## Payments and the ledger -/

inductive PayMethod where
  | bank | bmc
  deriving DecidableEq, Repr

def PayMethod.value : PayMethod → String
  | .bank => "bank"
  | .bmc => "bmc"

/-- `^[가-힣]{10}$` -/
def isOrderId (text : String) : Bool := text.length = 10 && text.toList.all fun c => '가' ≤ c && c ≤ '힣'

/-- `^([0-9]{1,32})?$` -/
def isDmUserId (text : String) : Bool := text.length ≤ 32 && text.toList.all Char.isDigit

/-- The body of a confirmation, with what the endpoint has checked of it. -/
structure Payment where
  orderId : String
  nickname : String
  amount : ℤ
  method : PayMethod
  publicName : String := ""
  note : String := ""
  dmUserId : String := ""
  pendingId : String := ""
  orderId_pattern : isOrderId orderId = true
  nickname_length : 1 ≤ nickname.length ∧ nickname.length ≤ 100
  amount_range : 0 < amount ∧ amount ≤ 10000000
  publicName_length : publicName.length ≤ 40
  note_length : note.length ≤ 80
  dmUserId_pattern : isDmUserId dmUserId = true
  pendingId_length : pendingId.length ≤ 100
  deriving DecidableEq

structure PaidEntry where
  orderId : String
  nickname : String
  amount : ℤ
  method : PayMethod
  publicName : String
  note : String
  dmUserId : String
  row : Supporter
  commit : String
  /-- `at` -/
  recordedAt : Datetime
  deriving DecidableEq

structure PendingSupport where
  id : String
  name : String
  amount : Option ℚ
  currency : String
  note : String
  live : Bool
  receivedAt : String
  deriving DecidableEq

inductive DmAction where
  | unlock | revoke
  deriving DecidableEq, Repr

inductive DmState where
  | unlocked | revoked
  deriving DecidableEq, Repr

structure AccessAck where
  requestId : String
  ok : Bool
  state : Option DmState := none
  error : String := ""
  requestId_length : 1 ≤ requestId.length ∧ requestId.length ≤ 64
  error_length : error.length ≤ 500
  deriving DecidableEq

structure AccessRequest where
  requestId : String
  userId : String
  action : DmAction
  orderId : String
  requestedAt : Datetime
  done : Bool := false
  /-- `ok`, `state`, `error` and `acked_at`, once it is done -/
  ack : Option (AccessAck × Datetime) := none
  deriving DecidableEq

structure Ledger where
  paid : List PaidEntry
  pending : List PendingSupport
  access : List AccessRequest
  deriving DecidableEq

def Ledger.empty : Ledger := ⟨[], [], []⟩

inductive ShopAction where
  | load
  /-- The second ledger is written; the first is the one it was made from. -/
  | save (loaded data : Ledger)
  | change (edit : SupporterEdit) (message : String)
  | pending
  | ack (ids : List String)

@[reducible] def ShopAction.Answer : ShopAction → Type
  | .load => Ledger
  | .save .. => Unit
  | .change .. => Except Exn String
  /- or the text of what was raised -/
  | .pending => Except String (List PendingSupport)
  | .ack _ => Except Exn Unit

abbrev ShopTask (α : Type) := ExceptT Exn (Prog ShopAction ShopAction.Answer) α

namespace ShopTask

def load : ShopTask Ledger := ExceptT.lift (.act .load .done)

def save (loaded data : Ledger) : ShopTask Unit := ExceptT.lift (.act (.save loaded data) .done)

def change (edit : SupporterEdit) (message : String) : ShopTask String := ExceptT.mk (.act (.change edit message) .done)

def pending : ShopTask (Except String (List PendingSupport)) := ExceptT.lift (.act .pending .done)

def ack (ids : List String) : ShopTask Unit := ExceptT.mk (.act (.ack ids) .done)

end ShopTask

/-! ## Handlers -/

def civilDate (day : ℤ) : ℤ × ℤ × ℤ :=
  let shifted := day + 719468
  let era := shifted / 146097
  let dayOfEra := shifted % 146097
  let yearOfEra := (dayOfEra - dayOfEra / 1460 + dayOfEra / 36524 - dayOfEra / 146096) / 365
  let dayOfYear := dayOfEra - (365 * yearOfEra + yearOfEra / 4 - yearOfEra / 100)
  let month := (5 * dayOfYear + 2) / 153
  (yearOfEra + era * 400 + if month < 10 then 0 else 1, if month < 10 then month + 3 else month - 9,
    dayOfYear - (153 * month + 2) / 5 + 1)

/-- `datetime.now(KST).date().isoformat()`. -/
def koreanDate (now : Datetime) : String :=
  let date := civilDate ((now + 9 * 3600000000) / 86400000000)
  String.ofList (IsoTimestamps.pad 4 date.1.toNat ++ '-' :: IsoTimestamps.pad 2 date.2.1.toNat ++ '-' :: IsoTimestamps.pad 2 date.2.2.toNat)

example : koreanDate 1793199600000000 = "2026-10-29" := by decide

inductive ShopReply where
  | ok
  | listing (data : Ledger) (eveError : String)
  | confirmed (commit : String) (row : Supporter)
  | request (req : AccessRequest)
  | undone (commit : String)
  deriving DecidableEq

def httpException (status : ℕ) (detail : String) : Exn := .foreign "HTTPException" (toString status ++ ": " ++ detail)

def listing : ShopTask ShopReply := do
  let data ← ShopTask.load
  match ← ShopTask.pending with
  | .ok fresh =>
    let renewed := { data with pending := (data.pending.filter fun x => !x.id.startsWith "eve:") ++ fresh }
    ShopTask.save data renewed
    return .listing renewed ""
  | .error text => return .listing data (String.ofList (text.toList.take 200))

def takePending (data : Ledger) (pendingId : String) : ShopTask Ledger := do
  if pendingId.startsWith "eve:" then ShopTask.ack [String.ofList (pendingId.toList.drop 4)]
  return { data with pending := data.pending.filter fun x => x.id ≠ pendingId }

def dismiss (pendingId : String) : ShopTask ShopReply := do
  let data ← ShopTask.load
  let taken ← takePending data pendingId
  ShopTask.save data taken
  return .ok

def Payment.row (p : Payment) (now : Datetime) : Supporter where
  name := let name := PyText.strip p.publicName; if name = "" then "익명" else name
  amount := p.amount
  currency := "KRW"
  note := PyText.strip p.note
  date := some (koreanDate now)
  source := some p.method.value

def newRequest (userId : String) (action : DmAction) (orderId : String) (env : Supply) : AccessRequest where
  requestId := String.ofList ((env []).uuid.toList.take 16)
  userId := userId
  action := action
  orderId := orderId
  requestedAt := env.utcNow

/-- `add_request` -/
def Ledger.addRequest (data : Ledger) (req : AccessRequest) : Ledger := { data with access := data.access ++ [req] }

def Payment.entry (p : Payment) (row : Supporter) (commit : String) (now : Datetime) : PaidEntry :=
  ⟨p.orderId, p.nickname, p.amount, p.method, p.publicName, p.note, p.dmUserId, row, commit, now⟩

def confirm (p : Payment) (env : Supply) : ShopTask ShopReply := do
  let data ← ShopTask.load
  if data.paid.any fun x => x.orderId = p.orderId then throw (httpException 409 "이미 확인한 주문")
  else
    let row := p.row (env.sub 0).utcNow
    let commit ← ShopTask.change (.append row) ("상점: 입금 확인 " ++ p.orderId)
    let recorded := { data with paid := data.paid ++ [p.entry row commit (env.sub 1).utcNow] }
    let taken ← if p.pendingId = "" then pure (.ok recorded) else Prog.attempt (takePending recorded p.pendingId)
    let taken := match taken with
      | .ok data => data
      | .error _ => recorded
    let final := if p.dmUserId = "" then taken else taken.addRequest (newRequest p.dmUserId .unlock p.orderId (env.sub 2))
    ShopTask.save data final
    return .confirmed commit row

def dm (orderId : String) (action : DmAction) (env : Supply) : ShopTask ShopReply := do
  let data ← ShopTask.load
  match data.paid.find? fun x => x.orderId = orderId with
  | none => throw (httpException 404 "해금 대상이 있는 확인 기록 없음")
  | some found =>
    if found.dmUserId = "" then throw (httpException 404 "해금 대상이 있는 확인 기록 없음")
    else
      let req := newRequest found.dmUserId action orderId env
      ShopTask.save data (data.addRequest req)
      return .request req

def markDone (ack : AccessAck) (now : Datetime) : List AccessRequest → List AccessRequest
  | [] => []
  | r :: rest => if r.requestId = ack.requestId then { r with done := true, ack := some (ack, now) } :: rest
    else r :: markDone ack now rest

def accessAck (ack : AccessAck) (env : Supply) : ShopTask ShopReply := do
  let data ← ShopTask.load
  match data.access.find? fun r => r.requestId = ack.requestId with
  | none => throw (httpException 404 "no such request")
  | some req =>
    if req.done then return .ok
    else
      ShopTask.save data { data with access := markDone ack env.utcNow data.access }
      return .ok

def undo (orderId : String) : ShopTask ShopReply := do
  let data ← ShopTask.load
  match data.paid.find? fun x => x.orderId = orderId with
  | none => throw (httpException 404 "확인 기록 없음")
  | some found =>
    let commit ← ShopTask.change (.drop found.row) ("상점: 입금 확인 취소 " ++ orderId)
    ShopTask.save data { data with paid := data.paid.filter fun x => x.orderId ≠ orderId }
    return .undone commit

/-- What git, with the standard output or the text of its failure, and Eve do. -/
structure ShopExternals (π : Type) where
  git : List String → π → Except String String × π
  pending : π → Except String (List PendingSupport) × π
  ack : List String → π → Except Exn Unit × π

structure ShopWorld (π : Type) where
  ledger : Ledger
  manual : List Supporter
  publicRows : List Supporter
  outside : π

namespace ShopWorld

variable {π : Type}

/-- `MANUAL` and `PUBLIC` -/
def paths : List String := ["static/shop/supporters_manual.json", "static/shop/supporters.json"]

def git (ext : ShopExternals π) (args : List String) (o : π) : Except Exn String × π :=
  match ext.git args o with
  | (.ok out, o') => (.ok out, o')
  | (.error text, o') =>
    let text := (PyText.strip text).toList
    (.error (httpException 502 ("git " ++ args.headD "" ++ " 실패: " ++ String.ofList (text.drop (text.length - 300)))), o')

/-- Commands up to the first that fails, with the output of the last one. -/
def gitEach (ext : ShopExternals π) : List (List String) → String → π → Except Exn String × π
  | [], out, o => (.ok out, o)
  | args :: rest, _, o =>
    match git ext args o with
    | (.ok out, o') => gitEach ext rest out o'
    | (.error e, o') => (.error e, o')

/-- `ShopRepo.change`, under its lock: both files are written before git is called. -/
def change (ext : ShopExternals π) (w : ShopWorld π) (edit : SupporterEdit) (message : String) :
    Except Exn String × ShopWorld π :=
  let manual := edit.apply w.manual
  let result := gitEach ext [["add", "--"] ++ paths, ["commit", "-m", message, "--"] ++ paths, ["push", "origin", "HEAD:main"],
    ["rev-parse", "--short", "HEAD"]] "" w.outside
  (PyText.strip <$> result.1,
    { w with manual := manual, publicRows := mergePublic manual w.publicRows, outside := result.2 })

def handler (ext : ShopExternals π) : Prog.Handler ShopAction ShopAction.Answer (ShopWorld π)
  | .load, w => (w.ledger, w)
  | .save _ data, w => ((), { w with ledger := data })
  | .change edit message, w => w.change ext edit message
  | .pending, w => ((ext.pending w.outside).1, { w with outside := (ext.pending w.outside).2 })
  | .ack ids, w => ((ext.ack ids w.outside).1, { w with outside := (ext.ack ids w.outside).2 })

end ShopWorld

end AllTomorrow.ShopPay
