import BridgeLedger.Fault
import BridgeLedger.Table.Rows

namespace BridgeLedger

namespace Tables

def upsertPhase (t : Tables) (p : Phase) (n : Int) (c : Cell) : Tables :=
  if t.blocks.any (·.number == n) then
    { t with blocks := t.blocks.map fun r => if r.number == n then r.setPhase p c else r }
  else { t with blocks := BlockRow.fresh n p c :: t.blocks }

/-- Sets one phase of block `n` to the L1 block `l1`, as one row of a phase record: a guard on the
block refuses it, also when the block has a row and would only be updated. -/
def recordBlock (t : Tables) (p : Phase) (l1 : Nat) (n : Nat) : Except Violation Tables :=
  if t.refusesBlock n then .error .rejected else .ok (t.upsertPhase p n (.integer l1))

/-- The block row of a withdrawal row, if its block cell names one. The row is looked up by its
number, so the cell is first made an integer as a key must be: a real with no fraction or a text
of an integer names its block, and any other cell names none. -/
def blockOf? (t : Tables) (r : WithdrawalRow) : Option BlockRow :=
  match Affinity.integer.apply r.block with
  | .integer n => t.blocks.find? (·.number == n)
  | _ => none

/-- The phase cell of the lowest-positioned withdrawal with the hash (and the position, when one
is given) whose block has a row. -/
def phaseCell? (t : Tables) (p : Phase) (hash : Cell) (index : Option Cell) : Option Cell :=
  let rows := t.withdrawals.filter fun r =>
    r.txHash.same hash && index.all (r.index.same ·)
  let joined := rows.filterMap fun r => (t.blockOf? r).map (r, ·)
  match joined.mergeSort (fun a b => a.1.index.le b.1.index) with
  | (_, b) :: _ => some (b.phase p)
  | [] => none

end Tables

end BridgeLedger
