import BridgeLedger.Fault
import BridgeLedger.Table.Rows

namespace BridgeLedger

/-- The statements that run on a connection, told apart as their texts are. -/
inductive Statement where
  | setTimeout (milliseconds : Nat)
  | schema (part : Nat)
  | begin
  | savepoint
  | rollbackToSavepoint
  | releaseSavepoint
  | recordPhase (p : Phase)
  | lifecycle
  | phaseLookup (p : Phase) (positioned : Bool)
  | ingest
  | finalize
  | pending
  | getWithdrawal
  | highestObserved
  | highestCommitted
  | addGuard (g : Guard)
  | dropGuard (request : Nat)
  | overwriteWithdrawal (column : WithdrawalColumn)
  | overwriteBlock (p : Phase)
  | dumpBlocks
  | dumpWithdrawals
  deriving DecidableEq

/-- A value that could not be bound to a statement: its position, from 1, and the complaint. -/
structure Unbound where
  position : Nat
  fault : Fault

/-- The statements the engine keeps prepared, the most recently used first, and its kept
failure. -/
structure Engine where
  prepared : List Statement
  failure : Option EngineFailure

namespace Engine

def capacity : Nat := 128

def fresh : Engine := ⟨[], none⟩

/-- Fetches a statement to run: a kept one moves to the front, and a new one is prepared there,
which clears the kept failure; beyond `capacity` the least recently used is dropped. -/
def fetch (e : Engine) (s : Statement) : Engine :=
  if e.prepared.contains s then { e with prepared := s :: e.prepared.erase s }
  else ⟨(s :: e.prepared).take capacity, none⟩

/-- Clears the kept failure, as preparing a statement, binding a value to one and running one to
its end each do. -/
def clear (e : Engine) : Engine := { e with failure := none }

def failed (e : Engine) (f : EngineFailure) : Engine := { e with failure := some f }

def run (e : Engine) (s : Statement) : Engine := (e.fetch s).clear

def runAll (e : Engine) (ss : List Statement) : Engine := ss.foldl run e

/-- What a statement reports when one of its values cannot be bound: the kept failure, as `kept`
words it, in place of the binding's own complaint. -/
def unbound {α : Type} (e : Engine) (own : α) (kept : EngineFailure → α) : α :=
  match e.failure with
  | some f => kept f
  | none => own

end Engine

end BridgeLedger
