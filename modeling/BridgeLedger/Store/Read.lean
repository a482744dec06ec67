import BridgeLedger.Amount
import BridgeLedger.Record.Lifecycle
import BridgeLedger.Record.Withdrawal
import BridgeLedger.Table.Rows

namespace BridgeLedger

namespace Cell

def loadWord (w : Width) (column : String) (c : Cell) : Except ConversionError (Word w) :=
  match Word.ofValue w c.toValue with
  | .ok x => .ok x
  | .error _ => .error ⟨.value c.toValue, w.name, .invalidColumn column⟩

/-- An optional 64-bit word read from a cell of a column: null reads as none. -/
def loadOptionalWord (column : String) : Cell → Except ConversionError (Option (Word .w64))
  | .null => .ok none
  | c => (c.loadWord .w64 column).map some

def loadBytes (n : Nat) (column : String) (c : Cell) : Except ConversionError (FixedBytes n) :=
  match FixedBytes.ofValue n c.toValue with
  | .ok x => .ok x
  | .error _ => .error ⟨.value c.toValue, FixedBytes.typeName n, .invalidColumn column⟩

/-- The amount of a stored cell: a text, an integer or a double read as a decimal number, then
checked as an amount. -/
def loadAmount (c : Cell) : Except ConversionError (Word .w256) :=
  let number? : Option Decimal := match c with
    | .text s => Decimal.ofString? s
    | .integer n => some (Decimal.ofInt n)
    | .real x => some (Decimal.ofFloat x)
    | _ => none
  match number? with
  | some d => Amount.decode d
  | none => .error ⟨.value c.toValue, "Uint256", .notDecimal⟩

end Cell

/-- The truth of a value: zero, empty texts and byte strings, and the absent value are false. -/
def Value.truthy : Value → Bool
  | .int n => n != 0
  | .float x => x != 0.0
  | .str s => !s.isEmpty
  | .points codes => !codes.isEmpty
  | .bytes b => !b.isEmpty
  | .bool b => b
  | .none => false
  | .list items => !items.isEmpty
  | .dict entries => !entries.isEmpty

/-- A withdrawal row read back, its cells checked in order (hash, block, token, amount, position,
then the flag by its truth); the first that fails is a conversion error naming its column. -/
def WithdrawalRow.decode (r : WithdrawalRow) : Except ConversionError StoredWithdrawal := do
  let hash ← r.txHash.loadBytes 32 "tx_hash"
  let block ← r.block.loadWord .w64 "l2_block_number"
  let token ← r.token.loadBytes 20 "token"
  let amount ← r.amount.loadAmount
  let index ← r.index.loadWord .w32 "event_index_in_tx"
  pure ⟨⟨hash, block, token, amount⟩, index, r.finalized.toValue.truthy⟩

def BlockRow.decode (r : BlockRow) : Except ConversionError Lifecycle := do
  let block ← (Cell.integer r.number).loadWord .w64 "l2_block_number"
  let commit ← r.commit.loadOptionalWord (Phase.column .commit)
  let verify ← r.verify.loadOptionalWord (Phase.column .verify)
  let execute ← r.execute.loadOptionalWord (Phase.column .execute)
  pure ⟨block, commit, verify, execute⟩

/-- The row that stores a withdrawal: the amount as its decimal text and the flag as 0 or 1. -/
def StoredWithdrawal.toRow (w : StoredWithdrawal) : WithdrawalRow where
  txHash := .blob w.event.txHash.data
  block := .integer w.event.blockNumber.toNat
  token := .blob w.event.token.data
  amount := .text (Amount.encode w.event.amount)
  index := .integer w.indexInTx.toNat
  finalized := .integer (if w.isFinalized then 1 else 0)

namespace Cell

theorem loadWord_integer {w : Width} (column : String) (x : Word w) :
    (Cell.integer x.toNat).loadWord w column = .ok x := by
  unfold loadWord
  rw [toValue, Word.ofValue_int]

theorem loadBytes_blob {n : Nat} (column : String) (x : FixedBytes n) :
    (Cell.blob x.data).loadBytes n column = .ok x := by
  unfold loadBytes
  rw [toValue, FixedBytes.ofValue_bytes]

theorem loadAmount_encode (a : Word .w256) : (Cell.text (Amount.encode a)).loadAmount = .ok a := by
  unfold loadAmount
  simp only [Amount.ofString?_encode]
  exact Amount.decode_whole a.isLt

end Cell

/-- Reading the row of a withdrawal gives the withdrawal back, flag and full amount included. -/
theorem StoredWithdrawal.decode_toRow (w : StoredWithdrawal) : w.toRow.decode = .ok w := by
  obtain ⟨⟨hash, block, token, amount⟩, index, flag⟩ := w
  simp only [WithdrawalRow.decode, toRow, Cell.loadBytes_blob, Cell.loadWord_integer,
    Cell.loadAmount_encode]
  cases flag <;> rfl

end BridgeLedger
