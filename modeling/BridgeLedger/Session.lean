import BridgeLedger.Store
import BridgeLedger.Store.Direct

namespace BridgeLedger

/-- A request of a session: a call on the store or an action of the connection's owner. Arguments
are caller values, checked by the call. -/
inductive Step where
  | recordPhase (phase start stop l1 : Value)
  | lifecycle (block : Value)
  | phaseLookup (phase hash : Value) (index : Option Value)
  | ingest (descriptions : List (List (Value × Value)))
  | finalize (keys : List (Value × Value))
  | pending (limit : Option Operand)
  | getWithdrawal (hash index : Value)
  | highestObserved
  | highestCommitted
  | reopen (fields : Option (List (Value × Value)))
  | begin
  | commit
  | rollback
  | inTransaction
  | close
  | guard (table : GuardedTable) (block : Int)
  | clearGuards
  | overwriteWithdrawal (hash index : Value) (column : WithdrawalColumn) (value : Value)
  | overwriteBlock (block : Value) (phase : Phase) (value : Value)
  | dump

/-- The answer to a step that succeeded. -/
inductive Reply where
  | done
  | block (x : Option (Word .w64))
  | flag (b : Bool)
  | withdrawal (w : Option StoredWithdrawal)
  | withdrawals (ws : List StoredWithdrawal)
  | lifecycle (l : Option Lifecycle)
  | tables (blocks : List BlockRow) (withdrawals : List WithdrawalRow)

namespace Store

def phaseOf (v : Value) : Except Fault Phase :=
  match Phase.ofValue v with
  | .ok p => .ok p
  | .error v => .error (.phase v)

def withdrawalsOf (descriptions : List (List (Value × Value))) :
    Except Fault (List StoredWithdrawal) :=
  descriptions.mapM fun fields => match StoredWithdrawal.ofFields fields with
    | .ok w => .ok w
    | .error e => .error (.invalid e)

/-- The block number of a block row written directly: an integer after integer affinity, or none
for a null, which asks for the next number. -/
def blockKey (c : Cell) : Except Violation (Option Int) :=
  match Affinity.integer.apply c with
  | .integer n => pure (some n)
  | .null => pure none
  | _ => throw .datatypeMismatch

def onConnection (s : Store) (change : Connection → Except Fault Connection) :
    Except Fault Store :=
  (change s.connection).map fun c => { s with connection := c }

/-- Answers one step and gives the store after it; a failed step keeps the tables. -/
def step (s : Store) : Step → Except Fault Reply × Store
  | .recordPhase phase start stop l1 =>
    s.checked (phaseOf phase) fun p => answer (fun _ => .done) (s.recordPhase p start stop l1)
  | .lifecycle block => answer .lifecycle (s.lifecycle block)
  | .phaseLookup phase hash index =>
    s.checked (phaseOf phase) fun p => answer .block (s.phaseL1Block p hash index)
  | .ingest descriptions =>
    s.checked (withdrawalsOf descriptions) fun ws => answer (fun _ => .done) (s.ingest ws)
  | .finalize keys => answer (fun _ => .done) (s.finalize keys)
  | .pending limit => answer .withdrawals (s.pending limit)
  | .getWithdrawal hash index => answer .withdrawal (s.getWithdrawal hash index)
  | .highestObserved => answer .block s.highestObserved
  | .highestCommitted => answer .block s.highestCommitted
  | .reopen fields =>
    match s.reopen fields with
    | .ok s' => (.ok .done, s')
    | .error e => (.error e, s)
  | .begin => byOwner s.connection.begin
  | .commit => changed (s.onConnection Connection.commit)
  | .rollback => changed (s.onConnection Connection.rollback)
  | .inTransaction => ((s.connection.usable).map fun _ => .flag s.connection.inTransaction, s)
  | .close => (.ok .done, { s with connection := s.connection.close })
  | .guard table block => byOwner (s.connection.addGuard ⟨table, block⟩)
  | .clearGuards => byOwner s.connection.dropGuards
  | .overwriteWithdrawal hash index column value =>
    byOwner <| s.connection.directly (.overwriteWithdrawal column) true
      (do pure (← Cell.bind 1 value, ← Cell.bind 2 hash, ← Cell.bind 3 index))
      fun (v, h, i) t => t.overwriteWithdrawal h i column v
  | .overwriteBlock block phase value =>
    byOwner <| s.connection.directly (.overwriteBlock phase) true
      (do pure (← Cell.bind 1 block, ← Cell.bind 2 value))
      fun (b, v) t => do t.overwriteBlock (← blockKey b) phase v
  | .dump =>
    match s.connection.usable with
    | .ok t =>
      (.ok (.tables t.blocksInOrder t.withdrawalsInOrder),
        s.withEngine (·.runAll [.dumpBlocks, .dumpWithdrawals]))
    | .error e => (.error e, s)
where
  /-- The answer of a call on the store, and the store after it. -/
  answer {α : Type} (reply : α → Reply) (after : Except Fault α × Store) : Except Fault Reply × Store :=
    (after.1.map reply, after.2)
  /-- The answer and the store after an action of the owner's on the connection. -/
  byOwner (after : Except Fault Unit × Connection) : Except Fault Reply × Store :=
    (after.1.map fun _ => .done, { s with connection := after.2 })
  /-- A step that answers nothing but changes the store. -/
  changed (result : Except Fault Store) : Except Fault Reply × Store :=
    match result with
    | .ok s' => (.ok .done, s')
    | .error e => (.error e, s)

def run (s : Store) : List Step → List (Except Fault Reply)
  | [] => []
  | st :: rest =>
    let (r, s') := s.step st
    r :: run s' rest

def after (s : Store) : List Step → Store
  | [] => s
  | st :: rest => (s.step st).2.after rest

/-- The steps of a run that succeeded, in order. -/
def succeeded (s : Store) : List Step → List Step
  | [] => []
  | st :: rest =>
    let next := s.step st
    (if next.1.isOk then [st] else []) ++ next.2.succeeded rest

end Store

namespace Step

def callsStore : Step → Bool
  | .recordPhase .. | .lifecycle _ | .phaseLookup .. | .ingest _ | .finalize _ | .pending _
  | .getWithdrawal .. | .highestObserved | .highestCommitted => true
  | _ => false

def reads : Step → Bool
  | .lifecycle _ | .phaseLookup .. | .pending _ | .getWithdrawal .. | .highestObserved
  | .highestCommitted => true
  | _ => false

/-- Whether a step writes rows past the store: the owner's overwrites of cells. -/
def overwrites : Step → Bool
  | .overwriteWithdrawal .. | .overwriteBlock .. => true
  | _ => false

end Step

/-- Opens a store on a fresh connection, with settings built from fields or the defaults. -/
def Store.start (fields : Option (List (Value × Value))) : Except Fault Store := do
  Store.create (← Store.settingsOf fields) Connection.fresh

end BridgeLedger
