import BridgeLedger.Amount
import BridgeLedger.Connection
import BridgeLedger.Conversion
import BridgeLedger.Decimal.Basic
import BridgeLedger.Decimal.Text
import BridgeLedger.Decimal.Value
import BridgeLedger.Display
import BridgeLedger.Engine
import BridgeLedger.Fault
import BridgeLedger.FixedBytes
import BridgeLedger.Numeral.Binary
import BridgeLedger.Numeral.BinaryFraction
import BridgeLedger.Numeral.Notation
import BridgeLedger.Numeral.Power
import BridgeLedger.Numeral.Reading
import BridgeLedger.Numeral.Shortest
import BridgeLedger.Proofs.Amount.RoundTrip
import BridgeLedger.Proofs.Amount.Checks
import BridgeLedger.Proofs.Store.Atomicity
import BridgeLedger.Proofs.Store.Rows
import BridgeLedger.Proofs.Store.Steps
import BridgeLedger.Record.Fields
import BridgeLedger.Record.Lifecycle
import BridgeLedger.Record.Phase
import BridgeLedger.Record.Withdrawal
import BridgeLedger.Session
import BridgeLedger.Settings
import BridgeLedger.Store
import BridgeLedger.Store.Direct
import BridgeLedger.Store.Ledger
import BridgeLedger.Store.Lifecycle
import BridgeLedger.Store.Read
import BridgeLedger.Table.Cell
import BridgeLedger.Table.NumericText
import BridgeLedger.Table.RealText
import BridgeLedger.Table.Rows
import BridgeLedger.Text.Blank
import BridgeLedger.Text.Digit
import BridgeLedger.Text.Escaped
import BridgeLedger.Text.Hex
import BridgeLedger.Text.Printable
import BridgeLedger.Text.Quoted
import BridgeLedger.Value
import BridgeLedger.Word
import BridgeLedger.Word.Compare
import BridgeLedger.Proofs.Store.Ledger
import BridgeLedger.Proofs.Store.Lifecycle
import BridgeLedger.Proofs.Store.Transactions
import BridgeLedger.Proofs.Store.Replay
import BridgeLedger.Proofs.Store.CallOrder
import BridgeLedger.Proofs.Store.Backlog
import BridgeLedger.Proofs.Store.Drain
import BridgeLedger.Proofs.Store.Reads
import BridgeLedger.Proofs.Store.Arguments
import BridgeLedger.Proofs.Store.PhaseLookup
import BridgeLedger.Proofs.Store.Opening
import BridgeLedger.Proofs.Store.Decoding
import BridgeLedger.Proofs.Store.Watermarks
import BridgeLedger.Proofs.Word.Comparisons
import BridgeLedger.Proofs.Record.Building
