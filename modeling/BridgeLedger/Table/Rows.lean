import BridgeLedger.Table.Cell
import BridgeLedger.Record.Phase

namespace BridgeLedger

/-- A row of the block table. -/
structure BlockRow where
  number : Int
  commit : Cell
  verify : Cell
  execute : Cell
  deriving Inhabited

namespace BlockRow

def phase (r : BlockRow) : Phase → Cell
  | .commit => r.commit
  | .verify => r.verify
  | .execute => r.execute

def setPhase (r : BlockRow) : Phase → Cell → BlockRow
  | .commit, c => { r with commit := c }
  | .verify, c => { r with verify := c }
  | .execute, c => { r with execute := c }

/-- A new row for a block with only one phase set. -/
def fresh (number : Int) (p : Phase) (c : Cell) : BlockRow :=
  (BlockRow.mk number .null .null .null).setPhase p c

end BlockRow

/-- The columns of the withdrawal table. -/
inductive WithdrawalColumn where
  | txHash
  | block
  | token
  | amount
  | index
  | finalized
  deriving DecidableEq

namespace WithdrawalColumn

def name : WithdrawalColumn → String
  | .txHash => "tx_hash"
  | .block => "l2_block_number"
  | .token => "token"
  | .amount => "amount"
  | .index => "event_index_in_tx"
  | .finalized => "is_finalized"

def affinity : WithdrawalColumn → Affinity
  | .txHash => .blob
  | .block => .integer
  | .token => .blob
  | .amount => .text
  | .index => .integer
  | .finalized => .integer

end WithdrawalColumn

/-- A row of the withdrawal table. -/
structure WithdrawalRow where
  txHash : Cell
  block : Cell
  token : Cell
  amount : Cell
  index : Cell
  finalized : Cell
  deriving Inhabited

namespace WithdrawalRow

def get (r : WithdrawalRow) : WithdrawalColumn → Cell
  | .txHash => r.txHash
  | .block => r.block
  | .token => r.token
  | .amount => r.amount
  | .index => r.index
  | .finalized => r.finalized

def set (r : WithdrawalRow) : WithdrawalColumn → Cell → WithdrawalRow
  | .txHash, c => { r with txHash := c }
  | .block, c => { r with block := c }
  | .token, c => { r with token := c }
  | .amount, c => { r with amount := c }
  | .index, c => { r with index := c }
  | .finalized, c => { r with finalized := c }

/-- Whether the row has a key: the hash and position cells are equal to the given ones. -/
def hasKey (r : WithdrawalRow) (hash index : Cell) : Bool :=
  r.txHash.same hash && r.index.same index

end WithdrawalRow

inductive GuardedTable where
  | blocks
  | withdrawals
  deriving DecidableEq

/-- A guard that refuses inserting, into `table`, any row of L2 block `block`. -/
structure Guard where
  table : GuardedTable
  block : Int
  deriving DecidableEq

/-- The contents of the database; the guards belong to it, so they are kept and undone with it. -/
structure Tables where
  blocks : List BlockRow
  withdrawals : List WithdrawalRow
  guards : List Guard
  deriving Inhabited

namespace Tables

def empty : Tables := ⟨[], [], []⟩

/-- Whether a guard refuses inserting a block row of that number. -/
def refusesBlock (t : Tables) (n : Int) : Bool :=
  t.guards.any fun g => g.table == .blocks && g.block == n

def refusesWithdrawal (t : Tables) (block : Cell) : Bool :=
  t.guards.any fun g => g.table == .withdrawals && block.same (.integer g.block)

def block? (t : Tables) (n : Int) : Option BlockRow := t.blocks.find? (·.number == n)

/-- The block rows in order of their numbers. -/
def blocksInOrder (t : Tables) : List BlockRow :=
  t.blocks.mergeSort fun a b => decide (a.number ≤ b.number)

/-- The withdrawal rows in order of hash cell, then position cell. -/
def withdrawalsInOrder (t : Tables) : List WithdrawalRow :=
  t.withdrawals.mergeSort fun a b =>
    match a.txHash.compare b.txHash with
    | .lt => true
    | .gt => false
    | .eq => a.index.le b.index

end Tables

end BridgeLedger
