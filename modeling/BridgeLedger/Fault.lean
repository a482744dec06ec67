import BridgeLedger.Conversion
import BridgeLedger.Decimal.Value
import BridgeLedger.Text.Escaped
import BridgeLedger.FixedBytes
import BridgeLedger.Record.Fields
import BridgeLedger.Record.Phase
import BridgeLedger.Settings
import BridgeLedger.Word
import BridgeLedger.Word.Compare

namespace BridgeLedger

/-- The operations of the store, as failures name them. -/
inductive Operation where
  | recordPhase (p : Phase)
  | lifecycle
  | phaseLookup (p : Phase)
  | ingest
  | finalize
  | pending
  | getWithdrawal
  | highestObserved
  | highestCommitted
  | openStore
  deriving DecidableEq

def Operation.name : Operation → String
  | .recordPhase p => "record_phase(" ++ p.word ++ ")"
  | .lifecycle => "get_block_lifecycle"
  | .phaseLookup p => "phase_l1_block(" ++ p.word ++ ")"
  | .ingest => "ingest"
  | .finalize => "finalize"
  | .pending => "pending_finalization"
  | .getWithdrawal => "get_withdrawal"
  | .highestObserved => "highest_observed_l2_block"
  | .highestCommitted => "highest_committed_l1_block"
  | .openStore => "open"

/-- Why an argument has the wrong type. -/
inductive ArgumentError where
  | word (e : WordError)
  | bytes (e : BytesError)

def ArgumentError.message : ArgumentError → String
  | .word e => e.message
  | .bytes e => e.message

def Operand.display : Operand → String
  | .word _ x => x.display
  | .plain v => v.display

/-- A broken constraint of the store. -/
inductive Violation where
  | badArgument (name : String) (e : ArgumentError)
  | startAfterEnd (start stop : Nat)
  | beyondStorable (name : String) (value : Nat)
  | badLimit (limit : Operand)
  | integerTooWide
  | rejected
  | uniqueKey
  | missingCell (column : String)
  | datatypeMismatch

def Violation.text : Violation → String
  | .badArgument name e => "invalid " ++ name ++ ": " ++ e.message
  | .startAfterEnd start stop => "start " ++ toString start ++ " is after end " ++ toString stop
  | .beyondStorable name value => name ++ " " ++ toString value ++ " exceeds the storable maximum"
  | .badLimit limit => "limit must be a positive int, got " ++ limit.display
  | .integerTooWide => "Python int too large to convert to SQLite INTEGER"
  | .rejected => "rejected"
  | .uniqueKey => "UNIQUE constraint failed: withdrawals.tx_hash, withdrawals.event_index_in_tx"
  | .missingCell column => "NOT NULL constraint failed: withdrawals." ++ column
  | .datatypeMismatch => "datatype mismatch"

def nestedText : String := "cannot start a transaction within a transaction"

/-- Why a statement failed in the engine: a constraint of a table or a guard refused a row, or a
transaction was begun while one was open. The engine keeps the last such failure. -/
inductive EngineFailure where
  | violation (v : Violation)
  | nestedTransaction

def EngineFailure.message : EngineFailure → String
  | .violation v => v.text
  | .nestedTransaction => nestedText

/-- Why the store could not use its connection: the connection is closed, or the engine failed in
a way that breaks no constraint. -/
inductive Outage where
  | closed
  | nestedTransaction

/-- A failed call: its cause with the data that `Fault.message` words. A broken constraint and an
unavailable store name the operation that was running. -/
inductive Fault where
  | word (e : WordError)
  | bytes (e : BytesError)
  | phase (v : Value)
  | invalid (e : Invalid)
  | environment (e : EnvironmentError)
  | infiniteTimeout
  | constraint (op : Operation) (v : Violation)
  | unavailable (op : Operation) (cause : Outage)
  | conversion (e : ConversionError)
  | partTooLarge (holder : Decimal.Holder)
  | engine (f : EngineFailure)
  | closedConnection
  | unbindable (position : Nat) (kind : String)
  | tooWideToBind
  | unencodable (gap : Text.EncodingGap)
  | refused (r : Refusal)

def closedText : String := "Cannot operate on a closed database."

def Outage.message : Outage → String
  | .closed => closedText
  | .nestedTransaction => nestedText

def Fault.message : Fault → String
  | .word e => e.message
  | .bytes e => e.message
  | .phase v => Phase.refusal v
  | .invalid e => e.message
  | .environment e => e.message
  | .infiniteTimeout => "cannot convert float infinity to integer"
  | .constraint op v => "Constraint violated during " ++ op.name ++ ": " ++ v.text
  | .unavailable op cause => "Store unavailable during " ++ op.name ++ ": " ++ cause.message
  | .conversion e => e.message
  | .partTooLarge .long => "Python int too large to convert to C long"
  | .partTooLarge .size => "Python int too large to convert to C ssize_t"
  | .engine f => f.message
  | .closedConnection => closedText
  | .unbindable position kind =>
    "Error binding parameter " ++ toString position ++ ": type " ++ Text.quoteText kind ++ " is not supported"
  | .tooWideToBind => "Python int too large to convert to SQLite INTEGER"
  | .unencodable gap => gap.message
  | .refused r => r.message

/-- A failure of the engine as a call of the store reports it: a refused row breaks a constraint,
and any other failure makes the store unavailable. -/
def EngineFailure.during (op : Operation) : EngineFailure → Fault
  | .violation v => .constraint op v
  | .nestedTransaction => .unavailable op .nestedTransaction

end BridgeLedger
