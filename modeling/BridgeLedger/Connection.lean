import BridgeLedger.Engine

namespace BridgeLedger

/-- A connection and the state of its database. Reads and writes see the tables of the open
transaction, if any; committing makes them the committed tables, and rolling back or closing
drops them. -/
structure Connection where
  committed : Tables
  working : Option Tables
  /-- Whether the open transaction was begun by the owner's own `BEGIN`. -/
  owned : Bool
  /-- How many guards the owner has asked for; dropping guards does not reset the count. -/
  guardRequests : Nat
  closed : Bool
  engine : Engine

namespace Connection

def fresh : Connection := ⟨Tables.empty, none, false, 0, false, Engine.fresh⟩

/-- The tables that reads and writes see. -/
def tables (c : Connection) : Tables := c.working.getD c.committed

def inTransaction (c : Connection) : Bool := c.working.isSome

/-- The connection after writing tables: into the open transaction, or committed at once. -/
def write (c : Connection) (t : Tables) : Connection :=
  match c.working with
  | some _ => { c with working := some t }
  | none => { c with committed := t }

def usable (c : Connection) : Except Fault Tables :=
  if c.closed then .error .closedConnection else .ok c.tables

/-- The owner runs `BEGIN`, which opens the owner's transaction; while one is open it fails, and
the engine keeps that failure. -/
def begin (c : Connection) : Except Fault Unit × Connection :=
  if c.closed then (.error .closedConnection, c)
  else
    let engine := c.engine.fetch .begin
    match c.working with
    | some _ =>
      (.error (.engine .nestedTransaction), { c with engine := engine.failed .nestedTransaction })
    | none => (.ok (), { c with working := some c.committed, owned := true, engine := engine.clear })

def commit (c : Connection) : Except Fault Connection :=
  if c.closed then .error .closedConnection
  else match c.working with
    | some t => .ok { c with committed := t, working := none, owned := false, engine := c.engine.clear }
    | none => .ok c

def rollback (c : Connection) : Except Fault Connection :=
  if c.closed then .error .closedConnection
  else match c.working with
    | some _ => .ok { c with working := none, owned := false, engine := c.engine.clear }
    | none => .ok c

/-- Closes the connection; what an open transaction wrote is lost. -/
def close (c : Connection) : Connection := { c with working := none, owned := false, closed := true }

def beginImplicitly (c : Connection) : Connection :=
  match c.working with
  | some _ => c
  | none => { c with working := some c.committed, engine := c.engine.clear }

/-- Commits the open transaction, unless the owner began it. -/
def settle (c : Connection) : Connection :=
  if c.owned then c
  else match c.working with
    | some t => { c with committed := t, working := none, engine := c.engine.clear }
    | none => c

/-- A statement that the owner runs directly, past the store. One that changes rows begins a
transaction when none is open; a refused row leaves that transaction open, and success settles.
-/
def directly {α : Type} (c : Connection) (s : Statement) (changesRows : Bool)
    (bound : Except Unbound α) (change : α → Tables → Except Violation Tables) :
    Except Fault Unit × Connection :=
  if c.closed then (.error .closedConnection, c)
  else
    let c := { c with engine := c.engine.fetch s }
    let c := if changesRows then c.beginImplicitly else c
    match bound with
    | .error u =>
      -- binding a value clears the engine's kept failure, so only the first value can meet one
      if u.position = 1 then (.error (c.engine.unbound u.fault .engine), c)
      else (.error u.fault, { c with engine := c.engine.clear })
    | .ok a =>
      match change a c.tables with
      | .ok t => (.ok (), { c.write t with engine := c.engine.clear }.settle)
      | .error v =>
        (.error (.engine (.violation v)), { c with engine := c.engine.failed (.violation v) })

end Connection

end BridgeLedger
