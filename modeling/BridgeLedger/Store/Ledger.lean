import BridgeLedger.Fault
import BridgeLedger.Store.Read

namespace BridgeLedger

def WithdrawalRow.isPending (r : WithdrawalRow) : Bool := r.finalized.truth == some false

namespace Tables

def holdsKey (t : Tables) (r : WithdrawalRow) : Bool :=
  t.withdrawals.any (·.hasKey r.txHash r.index)

def insertNew (t : Tables) (r : WithdrawalRow) : Tables :=
  if t.holdsKey r then t else { t with withdrawals := t.withdrawals ++ [r] }

/-- Inserts the row of a withdrawal unless its key is stored, so the first row of a key wins, also
within one batch; a guard on its block refuses the insert even when the row would be skipped. -/
def ingestOne (t : Tables) (w : StoredWithdrawal) : Except Violation Tables :=
  if t.refusesWithdrawal (.integer w.event.blockNumber.toNat) then .error .rejected
  else .ok (t.insertNew w.toRow)

/-- Sets the flag of the row with a key, if its flag is false. -/
def finalizeKey (t : Tables) (key : WithdrawalKey) : Tables :=
  { t with withdrawals := t.withdrawals.map fun r =>
      if r.hasKey (.blob key.1.data) (.integer key.2.toNat) && WithdrawalRow.isPending r then
        { r with finalized := .integer 1 }
      else r }

/-- The order of the pending scan: block, then hash, then position. -/
def pendingOrder (a b : WithdrawalRow) : Bool :=
  match a.block.compare b.block with
  | .lt => true
  | .gt => false
  | .eq => match a.txHash.compare b.txHash with
    | .lt => true
    | .gt => false
    | .eq => a.index.le b.index

def pendingRows (t : Tables) (limit : Nat) : List WithdrawalRow :=
  ((t.withdrawals.filter WithdrawalRow.isPending).mergeSort pendingOrder).take limit

def withdrawal? (t : Tables) (key : WithdrawalKey) : Option WithdrawalRow :=
  t.withdrawals.find? (·.hasKey (.blob key.1.data) (.integer key.2.toNat))

end Tables

/-- The greatest cell that is not null, or null when there is none. Of cells that are equal in the
order of cells the first one stays, or the last one when `lastOfEqual` holds. -/
def greatestCell (lastOfEqual : Bool) (cs : List Cell) : Cell :=
  cs.foldl (fun best c => match c, best with
    | .null, _ => best
    | _, .null => c
    | _, _ => match best.compare c with
      | .lt => c
      | .eq => if lastOfEqual then c else best
      | .gt => best) .null

namespace Tables

/-- The greatest L2 block of a withdrawal. It is read from the end of the index on the block
column, which orders equal cells by their rows, so of equal cells the latest row's wins. -/
def highestObserved (t : Tables) : Cell := greatestCell true (t.withdrawals.map (·.block))

/-- The greatest L1 block of a commit. The block rows are scanned in order of their numbers and
of equal cells the first one stays. -/
def highestCommitted (t : Tables) : Cell := greatestCell false (t.blocksInOrder.map (·.commit))

end Tables

end BridgeLedger
