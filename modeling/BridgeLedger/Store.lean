import BridgeLedger.Connection
import BridgeLedger.Numeral.BinaryFraction
import BridgeLedger.Store.Ledger
import BridgeLedger.Store.Lifecycle

namespace BridgeLedger

/-- Runs one statement over a batch of rows in order, each row written to the tables that the rows
before it left. The first row refused ends the run: the tables are then those the rows before it
left, with the refusal. -/
def Tables.executeMany {ρ : Type} (write : Tables → ρ → Except Violation Tables) :
    List ρ → Tables → Tables × Option Violation
  | [], t => (t, none)
  | r :: rest, t =>
    match write t r with
    | .ok t' => executeMany write rest t'
    | .error v => (t, some v)

/-- Runs one statement over the `count` rows numbered from `start`, as `executeMany` runs it over
the list of those numbers; the numbers are made one at a time, so a refused row ends the run
without the rest being made. -/
def Tables.executeRange (write : Tables → Nat → Except Violation Tables) (start : Nat) :
    Nat → Tables → Tables × Option Violation
  | 0, t => (t, none)
  | count + 1, t =>
    match write t start with
    | .ok t' => executeRange write (start + 1) count t'
    | .error v => (t, some v)

structure Store where
  settings : Settings
  connection : Connection

/-- The largest integer that a cell holds. -/
def storableMaximum : Nat := 2 ^ (63 : Nat) - 1

namespace Store

/-- The busy timeout in whole milliseconds: the product with a thousand, truncated. -/
def timeoutMilliseconds (settings : Settings) : Nat :=
  match Numeral.BinaryFraction.ofFloat? (settings.busyTimeout * 1000.0) with
  | some a => a.truncate
  | none => 0

def schema : List Statement := (List.range 4).map Statement.schema

/-- Opens a store on a connection: the busy timeout is set, then the schema is created as one
write. The busy timeout must convert to milliseconds before the connection is touched. -/
def create (settings : Settings) (c : Connection) : Except Fault Store :=
  if !settings.timeoutFits then .error .infiniteTimeout
  else if c.closed then .error (.unavailable .openStore .closed)
  else
    let e := c.engine.run (.setTimeout (timeoutMilliseconds settings))
    let e := if c.inTransaction then ((e.run .savepoint).runAll schema).run .releaseSavepoint
      else (e.run .begin).runAll schema
    .ok ⟨settings, { c with engine := e }⟩

/-- Goes on with a call whose arguments passed their checks; a failed check leaves the store as
it was. -/
def checked {α β : Type} (s : Store) (args : Except Fault β) (k : β → Except Fault α × Store) :
    Except Fault α × Store :=
  match args with
  | .ok b => k b
  | .error e => (.error e, s)

def withEngine (s : Store) (f : Engine → Engine) : Store :=
  { s with connection := { s.connection with engine := f s.connection.engine } }

/-- A read by one statement: unless the connection is closed, the statement is fetched and, when
its values fit their cells, runs and answers from the tables; a value too wide for a cell stops
it, and the engine's kept failure is reported in the value's place. -/
def read {α : Type} (s : Store) (op : Operation) (st : Statement) (fits : Bool)
    (answer : Tables → Except Fault α) : Except Fault α × Store :=
  if s.connection.closed then (.error (.unavailable op .closed), s)
  else
    let s := s.withEngine (·.fetch st)
    if fits then (answer s.connection.tables, s.withEngine Engine.clear)
    else (.error (s.connection.engine.unbound (.constraint op .integerTooWide) (·.during op)), s)

/-- A write of a batch of rows by one statement, the first refused row stopping the batch: as a
transaction of its own, committed or rolled back, or inside the open one as a savepoint, released
or rolled back to and released. Every statement but a refused one runs to its end. -/
def mutate (s : Store) (op : Operation) (st : Statement)
    (batch : Tables → Tables × Option Violation) : Except Fault Unit × Store :=
  if s.connection.closed then (.error (.unavailable op .closed), s)
  else
    let c := s.connection
    match c.working with
    | some saved =>
      let e := (c.engine.run .savepoint).fetch st
      let run := batch saved
      let c := { c with working := some run.1 }
      match run.2 with
      | none => (.ok (), { s with connection := { c with engine := e.run .releaseSavepoint } })
      | some v =>
        let c := { c with working := some saved }
        (.error (.constraint op v),
          { s with connection := { c with engine := (e.run .rollbackToSavepoint).run .releaseSavepoint } })
    | none =>
      let e := (c.engine.run .begin).fetch st
      let run := batch c.committed
      let c := { c with working := some run.1 }
      match run.2 with
      | none =>
        (.ok (), { s with connection := { c with committed := run.1, working := none, engine := e.clear } })
      | some v =>
        (.error (.constraint op v), { s with connection := { c with working := none, engine := e.clear } })

def wordArgument (op : Operation) (name : String) (w : Width) (v : Value) : Except Fault (Word w) :=
  match Word.ofValue w v with
  | .ok x => .ok x
  | .error e => .error (.constraint op (.badArgument name (.word e)))

def bytesArgument (op : Operation) (name : String) (n : Nat) (v : Value) :
    Except Fault (FixedBytes n) :=
  match FixedBytes.ofValue n v with
  | .ok x => .ok x
  | .error e => .error (.constraint op (.badArgument name (.bytes e)))

def storable (op : Operation) (name : String) (x : Word .w64) : Except Fault Unit :=
  if x.toNat ≤ storableMaximum then .ok () else .error (.constraint op (.beyondStorable name x.toNat))

/-- The key of a withdrawal named by a hash and a position: a 32-byte string, then a 32-bit word. -/
def keyArgument (op : Operation) (hash index : Value) : Except Fault WithdrawalKey := do
  let h ← bytesArgument op "tx_hash" 32 hash
  let i ← wordArgument op "index_in_tx" .w32 index
  pure (h, i)

def converted {α : Type} : Except ConversionError α → Except Fault α
  | .ok a => .ok a
  | .error e => .error (.conversion e)

/-- The checked arguments of a phase record: the first and the last block and the L1 block, each
a 64-bit word, the first no later than the last, and the last and the L1 block numbers that a cell
holds, checked in that order. -/
def recordArguments (op : Operation) (start stop l1 : Value) :
    Except Fault (Word .w64 × Word .w64 × Word .w64) := do
  let first ← wordArgument op "start" .w64 start
  let last ← wordArgument op "end" .w64 stop
  let block ← wordArgument op "l1_block_number" .w64 l1
  if last.toNat < first.toNat then
    throw (.constraint op (.startAfterEnd first.toNat last.toNat))
  storable op "end" last
  storable op "l1_block_number" block
  pure (first, last, block)

/-- Records that the L2 blocks from `start` to `stop` went through a phase in L1 block `l1`. -/
def recordPhase (s : Store) (p : Phase) (start stop l1 : Value) : Except Fault Unit × Store :=
  let op := Operation.recordPhase p
  s.checked (recordArguments op start stop l1) fun (first, last, block) =>
    s.mutate op (.recordPhase p)
      (Tables.executeRange (fun t => t.recordBlock p block.toNat) first.toNat (last.toNat + 1 - first.toNat))

def lifecycle (s : Store) (block : Value) : Except Fault (Option Lifecycle) × Store :=
  s.checked (wordArgument .lifecycle "l2_block_number" .w64 block) fun n =>
    s.read .lifecycle .lifecycle (n.toNat ≤ storableMaximum) fun t =>
      match t.block? n.toNat with
      | some r => converted (r.decode.map some)
      | none => pure none

/-- The L1 block in which the block of a withdrawal went through a phase. Without a position,
the lowest position with a block row is used. -/
def phaseL1Block (s : Store) (p : Phase) (hash : Value) (index : Option Value) :
    Except Fault (Option (Word .w64)) × Store :=
  let op := Operation.phaseLookup p
  let args := do
    let h ← bytesArgument op "tx_hash" 32 hash
    let i ← match index with
      | some v => some <$> wordArgument op "index_in_tx" .w32 v
      | none => pure none
    pure (h, i)
  s.checked args fun (h, i) =>
    s.read op (.phaseLookup p i.isSome) true fun t =>
      match t.phaseCell? p (.blob h.data) (i.map fun x => Cell.integer x.toNat) with
      | some c => converted (c.loadOptionalWord p.column)
      | none => pure none

/-- Stores withdrawals whose keys are new. -/
def ingest (s : Store) (ws : List StoredWithdrawal) : Except Fault Unit × Store :=
  if ws.isEmpty then (.ok (), s)
  else
    s.checked (ws.forM fun w => storable .ingest "block_number" w.event.blockNumber) fun _ =>
      s.mutate .ingest .ingest (Tables.executeMany Tables.ingestOne ws)

def finalizeKeys (keys : List (Value × Value)) : Except Fault (List WithdrawalKey) :=
  keys.mapM fun (hash, index) => keyArgument .finalize hash index

/-- Marks withdrawals as finalized; unknown keys are ignored. -/
def finalize (s : Store) (keys : List (Value × Value)) : Except Fault Unit × Store :=
  if keys.isEmpty then (.ok (), s)
  else
    s.checked (finalizeKeys keys) fun ks =>
      s.mutate .finalize .finalize (Tables.executeMany (fun t k => .ok (t.finalizeKey k)) ks)

/-- The limit of a pending scan: the settings' limit, or a given integer, never a truth value,
above zero. A word is an integer, so it is tested against zero by the word's own comparison, and
a word refuses to order a plain integer. -/
def pendingLimit (s : Store) : Option Operand → Except Fault Nat
  | none => .ok s.settings.pendingLimit
  | some (.plain (.int n)) => if 0 < n then .ok n.toNat else .error (.constraint .pending (.badLimit (.plain (.int n))))
  | some (.word w x) =>
    match Operand.compare .le (.word w x) (.plain (.int 0)) with
    | .ok false => .ok x.toNat
    | .ok true => .error (.constraint .pending (.badLimit (.word w x)))
    | .error r => .error (.refused r)
  | some v => .error (.constraint .pending (.badLimit v))

/-- The oldest withdrawals not yet finalized, at most a limit of them. -/
def pending (s : Store) (limit : Option Operand) : Except Fault (List StoredWithdrawal) × Store :=
  s.checked (s.pendingLimit limit) fun n =>
    s.read .pending .pending (n ≤ storableMaximum) fun t =>
      converted ((t.pendingRows n).mapM WithdrawalRow.decode)

def getWithdrawal (s : Store) (hash index : Value) :
    Except Fault (Option StoredWithdrawal) × Store :=
  s.checked (keyArgument .getWithdrawal hash index) fun key =>
    s.read .getWithdrawal .getWithdrawal true fun t =>
      match t.withdrawal? key with
      | some r => converted (r.decode.map some)
      | none => pure none

/-- The highest L2 block of a stored withdrawal. -/
def highestObserved (s : Store) : Except Fault (Option (Word .w64)) × Store :=
  s.read .highestObserved .highestObserved true fun t =>
    converted (t.highestObserved.loadOptionalWord "l2_block_number")

/-- The highest L1 block recorded for a commit. -/
def highestCommitted (s : Store) : Except Fault (Option (Word .w64)) × Store :=
  s.read .highestCommitted .highestCommitted true fun t =>
    converted (t.highestCommitted.loadOptionalWord (Phase.column .commit))

def settingsOf : Option (List (Value × Value)) → Except Fault Settings
  | some fields => match Settings.ofFields fields with
    | .ok settings => .ok settings
    | .error e => .error (.invalid e)
  | none => .ok Settings.default

def reopen (s : Store) (fields : Option (List (Value × Value))) : Except Fault Store := do
  Store.create (← settingsOf fields) s.connection

end Store

end BridgeLedger
