import BridgeLedger.Record.Fields
import BridgeLedger.FixedBytes
import BridgeLedger.Word

namespace BridgeLedger

/-- A withdrawal emitted on L2. -/
structure WithdrawalEvent where
  txHash : TxHash
  blockNumber : Word .w64
  token : TokenAddress
  amount : Word .w256

/-- A withdrawal event with its position in the transaction and its finalization flag. -/
structure StoredWithdrawal where
  event : WithdrawalEvent
  indexInTx : Word .w32
  isFinalized : Bool

/-- The identity of a stored withdrawal: its hash with its position. -/
abbrev WithdrawalKey := TxHash × Word .w32

def StoredWithdrawal.key (w : StoredWithdrawal) : WithdrawalKey := (w.event.txHash, w.indexInTx)

namespace WithdrawalEvent

def fieldNames : List String := ["tx_hash", "block_number", "token", "amount"]

/-- Builds an event from its fields; only values of exactly the field's type are accepted. -/
def ofFields (fields : List (String × Value)) : Except Invalid WithdrawalEvent :=
  let txHash := Validated.required fields "tx_hash" fun v => (FixedBytes.ofValue 32 v).toOption
  let block := Validated.required fields "block_number" fun v => (Word.ofValue .w64 v).toOption
  let token := Validated.required fields "token" fun v => (FixedBytes.ofValue 20 v).toOption
  let amount := Validated.required fields "amount" fun v => (Word.ofValue .w256 v).toOption
  let extra := Validated.onlyKnown fields fieldNames
  Validated.toInvalid .withdrawalEvent <|
    ((((txHash.both block).both token).both amount).both extra).map
      fun ((((h, b), t), a), _) => ⟨h, b, t, a⟩

end WithdrawalEvent

namespace StoredWithdrawal

/-- A value given for a field of a stored withdrawal: a built event, or a caller's value. -/
inductive FieldValue where
  | event (e : WithdrawalEvent)
  | value (v : Value)

def FieldValue.event? : FieldValue → Option WithdrawalEvent
  | .event e => some e
  | .value _ => none

def FieldValue.value? : FieldValue → Option Value
  | .event _ => none
  | .value v => some v

def fieldNames : List String := ["event", "index_in_tx", "is_finalized"]

/-- Builds a stored withdrawal from its fields: the event must be a built event and the position a
32-bit word, both required, and the flag a truth value, false when absent; any other field is
refused. -/
def ofMapping (fields : List (String × FieldValue)) : Except Invalid StoredWithdrawal :=
  let event := Validated.required fields "event" FieldValue.event?
  let index := Validated.required fields "index_in_tx" fun g => g.value?.bind fun v => (Word.ofValue .w32 v).toOption
  let flag := Validated.optional fields "is_finalized" false fun g => g.value?.bind fun
    | .bool b => some b
    | _ => none
  let extra := Validated.onlyKnown fields fieldNames
  Validated.toInvalid .storedWithdrawal <|
    (((event.both index).both flag).both extra).map fun (((e, i), f), _) => ⟨e, i, f⟩

def besideEvent : List String := ["index_in_tx", "is_finalized"]

/-- Builds a stored withdrawal from a description holding the event's fields and the position
and flag: the event first, and only an event that builds is given as the event field, with the
position and flag. Other fields of the description are not read. -/
def ofFields (fields : List (Value × Value)) : Except Invalid StoredWithdrawal := do
  let event ← WithdrawalEvent.ofFields (Validated.select fields WithdrawalEvent.fieldNames)
  ofMapping (("event", .event event) :: (Validated.select fields besideEvent).map fun f => (f.1, .value f.2))

end StoredWithdrawal

end BridgeLedger
