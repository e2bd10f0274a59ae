import AllTomorrow.PostgresStore
import AllTomorrow.PostgresRunEffects

/-!
# Processes that share one database

Several processes use connections to one database, each process with its own
`_RUN_REVISIONS`. A method has two steps: its statements, and the commit after which its
connection is given back. A batch keeps its connection until it is left or raises.
Committed rows are what every connection sees, each with its own writes on top.
-/

namespace AllTomorrow

open PostgresStore

inductive PgConnection where
  | idle
  /-- a method has run its statements; its commit and what follows it are to come -/
  | returning (log : List RowWrite) (after : LocalM Unit)
  /-- inside of `autonomous_batch` -/
  | batch (log : List RowWrite) (aborted : Bool)

def PgConnection.log : PgConnection → List RowWrite
  | .idle => []
  | .returning log _ => log
  | .batch log _ => log

structure PgCluster (ι π : Type) where
  committed : Database
  runRevisions : π → InsertionDict RunId ℤ
  connections : ι → PgConnection
  locks : List (ι × RowKey)
  /-- the connection that has the advisory lock of `autonomous_batch` -/
  autonomy : Option ι

inductive PgStep where
  | call (op : StoreOp) (env : Supply) (server : PgServer)
  | finish
  | enterBatch
  | leaveBatch
  | raiseInBatch

section Machine

variable {ι π : Type} [DecidableEq ι] [DecidableEq π] (owner : ι → π)

namespace PgCluster

variable (cl : PgCluster ι π) (i : ι)

def view : Database := cl.committed.replay (cl.connections i).log

def session : PgState where
  db := cl.view i
  log := (cl.connections i).log
  held := (cl.locks.filter fun l => l.1 = i).map Prod.snd
  asked := []
  aborted := match cl.connections i with
    | .batch _ aborted => aborted
    | _ => false
  runRevisions := cl.runRevisions (owner i)

def waits (p : PgState) : Bool := cl.locks.any fun l => l.1 ≠ i && p.asked.contains l.2

/-- `SKIP LOCKED` passes over the rows that other transactions hold. -/
def seenBy (server : PgServer) : PgServer :=
  { server with locked := fun workId => cl.locks.any fun l => l.1 ≠ i && l.2 = .work workId }

/-- The connection has gone on to `connection` and holds the given keys. -/
def moved (connection : PgConnection) (held : List RowKey) (runRevisions : InsertionDict RunId ℤ) : PgCluster ι π :=
  { cl with
    connections := Function.update cl.connections i connection
    locks := (cl.locks.filter fun l => l.1 ≠ i) ++ held.map fun k => (i, k)
    runRevisions := Function.update cl.runRevisions (owner i) runRevisions }

/-- The transaction of the connection is over, and the connection free. -/
def closed (committed : Database) (runRevisions : InsertionDict RunId ℤ) : PgCluster ι π :=
  { cl.moved owner i .idle [] runRevisions with
    committed := committed
    autonomy := if cl.autonomy = some i then none else cl.autonomy }

/-- The statements of a method on a free connection. A method that raises gives it back at once. -/
def callOutside (op : StoreOp) (env : Supply) (server : PgServer) : PgCluster ι π :=
  let method := op.postgres (cl.seenBy i server) env
  match method.connection (cl.session owner i) with
  | .ok row p =>
    if cl.waits i p then cl
    else cl.moved owner i (.returning p.log (discard (method.after row))) p.held p.runRevisions
  | .error _ p => if cl.waits i p then cl else cl.closed owner i cl.committed p.runRevisions

def callInside (op : StoreOp) (env : Supply) (server : PgServer) : PgCluster ι π :=
  let p := ((op.postgres (cl.seenBy i server) env).exec (cl.session owner i)).state
  if cl.waits i p then cl else cl.moved owner i (.batch p.log p.aborted) p.held p.runRevisions

def step : PgStep → PgCluster ι π
  | .call op env server =>
    match cl.connections i with
    | .idle => cl.callOutside owner i op env server
    | .batch _ _ => cl.callInside owner i op env server
    | .returning _ _ => cl
  | .finish =>
    match cl.connections i with
    | .returning log after =>
      cl.closed owner i (cl.committed.replay log) (after (cl.runRevisions (owner i))).state
    | _ => cl
  | .enterBatch =>
    match cl.connections i, cl.autonomy with
    | .idle, none =>
      { cl with connections := Function.update cl.connections i (.batch [] false), autonomy := some i }
    -- another batch is open: this one waits for the advisory lock
    | _, _ => cl
  | .leaveBatch =>
    match cl.connections i with
    | .batch log aborted =>
      -- the commit of an aborted transaction rolls it back
      cl.closed owner i (if aborted then cl.committed else cl.committed.replay log) (cl.runRevisions (owner i))
    | _ => cl
  | .raiseInBatch =>
    match cl.connections i with
    | .batch _ _ => cl.closed owner i cl.committed (cl.runRevisions (owner i))
    | _ => cl

end PgCluster

def clusterStep (cl : PgCluster ι π) (s : ι × PgStep) : PgCluster ι π := cl.step owner s.1 s.2

def PgCluster.start (db : Database) : PgCluster ι π := ⟨db, fun _ => .empty, fun _ => .idle, [], none⟩

end Machine

end AllTomorrow
