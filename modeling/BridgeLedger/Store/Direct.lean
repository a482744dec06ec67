import BridgeLedger.Connection
import BridgeLedger.Store.Lifecycle

namespace BridgeLedger

namespace Tables

def addGuard (t : Tables) (g : Guard) : Tables := { t with guards := t.guards ++ [g] }

def clearGuards (t : Tables) : Tables := { t with guards := [] }

def sharesKey (rows : List WithdrawalRow) : Bool :=
  match rows with
  | [] => false
  | r :: rest => rest.any (·.hasKey r.txHash r.index) || sharesKey rest

/-- Overwrites one cell of the withdrawal row with a key, stored after the column's affinity; the
cell may not become null, nor two rows come to share a key. -/
def overwriteWithdrawal (t : Tables) (hash index : Cell) (column : WithdrawalColumn) (value : Cell) :
    Except Violation Tables :=
  let index := Affinity.integer.apply index
  if !t.withdrawals.any (·.hasKey hash index) then .ok t
  else
    let stored := column.affinity.apply value
    match stored with
    | .null => .error (.missingCell column.name)
    | _ =>
      let rows := t.withdrawals.map fun r => if r.hasKey hash index then r.set column stored else r
      if (column == .txHash || column == .index) && sharesKey rows then .error .uniqueKey
      else .ok { t with withdrawals := rows }

def nextBlockNumber (t : Tables) : Int :=
  match (t.blocks.map (·.number)).max? with
  | some n => n + 1
  | none => 1

/-- Overwrites the phase cell of a block row, adding the row if there is none. A guard on the
block refuses it; a row without a number gets the one after the largest, and a guard sees it as
`-1`, the number being chosen only after the guards run. -/
def overwriteBlock (t : Tables) (n : Option Int) (p : Phase) (value : Cell) :
    Except Violation Tables :=
  if t.refusesBlock (n.getD (-1)) then .error .rejected
  else .ok (t.upsertPhase p (n.getD t.nextBlockNumber) (Affinity.integer.apply value))

end Tables

namespace Connection

/-- The owner asks for a guard: the request is counted first, then the guard is created. -/
def addGuard (c : Connection) (g : Guard) : Except Fault Unit × Connection :=
  { c with guardRequests := c.guardRequests + 1 }.directly (.addGuard g) false (.ok ())
    fun _ t => .ok (t.addGuard g)

/-- The owner drops, one statement each, every guard it has ever asked for, which it keeps no
record of having dropped; when it never asked for one, nothing happens at all. -/
def dropGuards (c : Connection) : Except Fault Unit × Connection :=
  if c.guardRequests = 0 then (.ok (), c)
  else if c.closed then (.error .closedConnection, c)
  else
    let engine := c.engine.runAll ((List.range c.guardRequests).map .dropGuard)
    (.ok (), { c.write c.tables.clearGuards with engine }.settle)

end Connection

/-- The cell of a value bound at a position of a statement, or why it cannot be bound. -/
def Cell.bind (position : Nat) (v : Value) : Except Unbound Cell :=
  match Cell.ofValue v with
  | .ok c => .ok c
  | .error e => .error ⟨position, match e with
    | .tooWide => .tooWideToBind
    | .unencodable gap => .unencodable gap
    | .unsupported kind => .unbindable position kind⟩

end BridgeLedger
