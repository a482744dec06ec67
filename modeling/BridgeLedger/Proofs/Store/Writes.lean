import BridgeLedger.Proofs.Store.Lifecycle

namespace BridgeLedger

namespace Connection

theorem write_write (c : Connection) (t t' : Tables) : (c.write t).write t' = c.write t' := by
  obtain ⟨committed, working, owned, requests, closed, engine⟩ := c
  cases working <;> rfl

theorem write_tables (c : Connection) : c.write c.tables = c := by
  obtain ⟨committed, working, owned, requests, closed, engine⟩ := c
  cases working <;> rfl

theorem inTransaction_write (c : Connection) (t : Tables) :
    (c.write t).inTransaction = c.inTransaction := by
  obtain ⟨committed, working, owned, requests, closed, engine⟩ := c
  cases working <;> rfl

theorem write_of_none {c : Connection} (none : c.working = none) (t : Tables) :
    c.write t = { c with committed := t } := by
  obtain ⟨committed, working, owned, requests, closed, engine⟩ := c
  cases none
  rfl

theorem write_of_some {c : Connection} {w : Tables} (opened : c.working = some w) (t : Tables) :
    c.write t = { c with working := some t } := by
  obtain ⟨committed, working, owned, requests, closed, engine⟩ := c
  cases opened
  rfl

end Connection

/-- The batch of a phase record: the phase of each block from the first to the last set to the
record's L1 block. -/
def PhaseRecord.batch (r : PhaseRecord) : Tables → Tables × Option Violation :=
  Tables.executeRange (fun t => t.recordBlock r.phase r.l1.toNat) r.first.toNat (r.last.toNat + 1 - r.first.toNat)

namespace Store

/-- The store with tables written where its connection shows them: into the open transaction,
or as the committed tables. -/
def writeTables (s : Store) (t : Tables) : Store := { s with connection := s.connection.write t }

@[simp] theorem withEngine_withEngine (s : Store) (f : Engine → Engine) (e : Engine) :
    (s.withEngine f).withEngine (fun _ => e) = s.withEngine fun _ => e := rfl

@[simp] theorem withEngine_own (s : Store) : s.withEngine (fun _ => s.connection.engine) = s := rfl

@[simp] theorem closed_withEngine (s : Store) (f : Engine → Engine) :
    (s.withEngine f).connection.closed = s.connection.closed := rfl

@[simp] theorem tables_withEngine (s : Store) (f : Engine → Engine) :
    (s.withEngine f).connection.tables = s.connection.tables := rfl

@[simp] theorem writeTables_withEngine (s : Store) (f : Engine → Engine) (t : Tables) :
    (s.withEngine f).writeTables t = (s.writeTables t).withEngine f := by
  obtain ⟨settings, committed, working, owned, requests, closed, engine⟩ := s
  cases working <;> rfl

@[simp] theorem writeTables_writeTables (s : Store) (t t' : Tables) :
    (s.writeTables t).writeTables t' = s.writeTables t' := by
  unfold writeTables
  rw [Connection.write_write]

@[simp] theorem writeTables_tables (s : Store) : s.writeTables s.connection.tables = s := by
  unfold writeTables
  rw [Connection.write_tables]

@[simp] theorem tables_writeTables (s : Store) (t : Tables) : (s.writeTables t).connection.tables = t :=
  Connection.tables_write _ _

@[simp] theorem closed_writeTables (s : Store) (t : Tables) :
    (s.writeTables t).connection.closed = s.connection.closed :=
  Connection.closed_write _ _

/-- A call that writes by a batch as the store's writes do: it succeeds exactly when `allowed` holds
of the connection's closed flag and the batch runs to its end on the tables it shows, then leaves
what the batch wrote there; a call that fails leaves the store but for the engine's record. -/
structure Writes (call : Store → Except Fault Unit × Store) (allowed : Bool → Prop)
    (batch : Tables → Tables × Option Violation) : Prop where
  ok_iff : ∀ s, (call s).1 = .ok () ↔ allowed s.connection.closed ∧ (batch s.connection.tables).2 = none
  written : ∀ s, (call s).1 = .ok () →
    ∃ e, (call s).2 = (s.writeTables (batch s.connection.tables).1).withEngine fun _ => e
  kept : ∀ s, (call s).1 ≠ .ok () → ∃ e, (call s).2 = s.withEngine fun _ => e

namespace Writes

variable {call call' : Store → Except Fault Unit × Store} {allowed allowed' : Bool → Prop}
  {batch batch' : Tables → Tables × Option Violation}

/-- Whether a write succeeds does not depend on the engine's record. -/
theorem ok_withEngine (w : Writes call allowed batch) (s : Store) (f : Engine → Engine) :
    (call (s.withEngine f)).1 = .ok () ↔ (call s).1 = .ok () := by
  rw [w.ok_iff, w.ok_iff, closed_withEngine, tables_withEngine]

/-- A write after one that succeeded sees what the first wrote, on a connection as open as
before; so it succeeds as its batch runs on what the first batch left, and the two leave what
the two batches wrote one after the other. -/
theorem after_written (w : Writes call allowed batch) (w' : Writes call' allowed' batch') {s : Store}
    (done : (call s).1 = .ok ()) :
    ((call' (call s).2).1 = .ok () ↔
        allowed' s.connection.closed ∧ (batch' (batch s.connection.tables).1).2 = none) ∧
      ((call' (call s).2).1 = .ok () → ∃ e, (call' (call s).2).2 =
        (s.writeTables (batch' (batch s.connection.tables).1).1).withEngine fun _ => e) := by
  obtain ⟨e, after⟩ := w.written s done
  rw [after]
  refine ⟨?_, fun done' => ?_⟩
  · rw [w'.ok_iff, closed_withEngine, tables_withEngine, closed_writeTables, tables_writeTables]
  · obtain ⟨e', after'⟩ := w'.written _ done'
    refine ⟨e', ?_⟩
    rw [after', tables_withEngine, tables_writeTables, writeTables_withEngine, writeTables_writeTables,
      withEngine_withEngine]

end Writes

theorem mutate_ok_iff (s : Store) (op : Operation) (st : Statement)
    (batch : Tables → Tables × Option Violation) :
    (s.mutate op st batch).1 = .ok () ↔ s.connection.closed = false ∧ (batch s.connection.tables).2 = none := by
  obtain ⟨settings, committed, working, owned, requests, closed, engine⟩ := s
  cases closed with
  | true => simp [mutate]
  | false =>
    -- the write's bracket does not matter: it succeeds when its batch runs to its end
    cases working with
    | some saved =>
      cases ran : (batch saved).2 <;> simp [mutate, ran, Connection.tables]
    | none =>
      cases ran : (batch committed).2 <;> simp [mutate, ran, Connection.tables]

/-- Every write of the store runs its batch in the bracket of `mutate`. -/
theorem writes_mutate (op : Operation) (st : Statement) (batch : Tables → Tables × Option Violation) :
    Writes (·.mutate op st batch) (· = false) batch where
  ok_iff s := s.mutate_ok_iff op st batch
  written s done := by
    obtain ⟨-, -, e, written⟩ := ((mutate_cases s op st batch).resolve_left fun ⟨f, e, failed, _⟩ => by
      rw [failed] at done
      cases done)
    exact ⟨e, by rw [written]; rfl⟩
  kept s failed := by
    rcases mutate_cases s op st batch with ⟨f, e, written, -⟩ | ⟨-, -, e, written⟩
    · exact ⟨e, by rw [written]⟩
    · rw [written] at failed
      exact absurd rfl failed

theorem recordPhase_checks {s : Store} {p : Phase} {start stop l1 : Value}
    (done : (s.recordPhase p start stop l1).1 = .ok ()) :
    ∃ first last block, recordArguments (.recordPhase p) start stop l1 = .ok (first, last, block) := by
  obtain ⟨⟨first, last, block⟩, checks, -⟩ := checked_ok done
  exact ⟨first, last, block, checks⟩

/-- A phase record whose arguments pass their checks writes by its batch. -/
theorem writes_recordPhase {p : Phase} {start stop l1 : Value} {first last block : Word .w64}
    (checks : recordArguments (.recordPhase p) start stop l1 = .ok (first, last, block)) :
    Writes (·.recordPhase p start stop l1) (· = false) (⟨p, first, last, block⟩ : PhaseRecord).batch := by
  have same : (fun s : Store => s.recordPhase p start stop l1) =
      (fun s : Store => s.mutate (.recordPhase p) (.recordPhase p) (⟨p, first, last, block⟩ : PhaseRecord).batch) := by
    funext s
    simp only [recordPhase, checks, checked]
    rfl
  rw [same]
  exact writes_mutate _ _ _

theorem forM_storable {op : Operation} {name : String} :
    ∀ {ws : List StoredWithdrawal}, (∀ w ∈ ws, w.event.blockNumber.toNat ≤ storableMaximum) →
      ws.forM (fun w => storable op name w.event.blockNumber) = .ok ()
  | [], _ => rfl
  | w :: rest, fits => by
    have first : storable op name w.event.blockNumber = .ok () := by
      rw [storable, if_pos (fits w List.mem_cons_self)]
    show (storable op name w.event.blockNumber >>= fun _ => rest.forM _) = .ok ()
    rw [first]
    exact forM_storable fun w' member => fits w' (List.mem_cons_of_mem w member)

theorem ingest_checks {s : Store} {ws : List StoredWithdrawal} (done : (s.ingest ws).1 = .ok ()) :
    ∀ w ∈ ws, w.event.blockNumber.toNat ≤ storableMaximum := by
  unfold ingest at done
  split at done
  · rename_i empty
    rw [List.isEmpty_iff.mp empty]
    intro w absent
    cases absent
  · obtain ⟨_, checks, -⟩ := checked_ok done
    intro w member
    obtain ⟨_, fits⟩ := forM_ok checks w member
    exact storable_ok fits

/-- An ingest whose block numbers all fit a cell writes by its batch; an empty one touches
nothing, not even a closed connection. -/
theorem writes_ingest {ws : List StoredWithdrawal}
    (fits : ∀ w ∈ ws, w.event.blockNumber.toNat ≤ storableMaximum) :
    Writes (·.ingest ws) (fun closed => ws = [] ∨ closed = false) (Tables.executeMany Tables.ingestOne ws) := by
  cases ws with
  | nil =>
    refine ⟨fun s => ?_, fun s _ => ⟨s.connection.engine, ?_⟩, fun s failed => absurd rfl failed⟩
    · exact ⟨fun _ => ⟨.inl rfl, rfl⟩, fun _ => rfl⟩
    · show s = (s.writeTables s.connection.tables).withEngine _
      rw [writeTables_tables, withEngine_own]
  | cons w rest =>
    have same : (fun s : Store => s.ingest (w :: rest)) =
        (fun s : Store => s.mutate .ingest .ingest (Tables.executeMany Tables.ingestOne (w :: rest))) := by
      funext s
      simp only [ingest, List.isEmpty_cons, Bool.false_eq_true, if_false, forM_storable fits, checked]
    rw [same]
    have mutating := writes_mutate .ingest .ingest (Tables.executeMany Tables.ingestOne (w :: rest))
    refine ⟨fun s => ?_, mutating.written, mutating.kept⟩
    rw [mutating.ok_iff]
    simp only [reduceCtorEq, false_or]

theorem finalize_checks {s : Store} {keys : List (Value × Value)} (done : (s.finalize keys).1 = .ok ()) :
    ∃ ks, finalizeKeys keys = .ok ks := by
  unfold finalize at done
  split at done
  · rename_i empty
    rw [List.isEmpty_iff.mp empty]
    exact ⟨[], rfl⟩
  · obtain ⟨ks, named, -⟩ := checked_ok done
    exact ⟨ks, named⟩

/-- A finalize whose keys pass their checks writes by its batch; an empty one touches nothing. -/
theorem writes_finalize {keys : List (Value × Value)} {ks : List WithdrawalKey}
    (named : finalizeKeys keys = .ok ks) :
    Writes (·.finalize keys) (fun closed => keys = [] ∨ closed = false)
      (Tables.executeMany (fun t k => .ok (t.finalizeKey k)) ks) := by
  cases keys with
  | nil =>
    cases named
    refine ⟨fun s => ?_, fun s _ => ⟨s.connection.engine, ?_⟩, fun s failed => absurd rfl failed⟩
    · exact ⟨fun _ => ⟨.inl rfl, rfl⟩, fun _ => rfl⟩
    · show s = (s.writeTables s.connection.tables).withEngine _
      rw [writeTables_tables, withEngine_own]
  | cons key rest =>
    have same : (fun s : Store => s.finalize (key :: rest)) =
        (fun s : Store => s.mutate .finalize .finalize (Tables.executeMany (fun t k => .ok (t.finalizeKey k)) ks)) := by
      funext s
      simp only [finalize, List.isEmpty_cons, Bool.false_eq_true, if_false, named, checked]
    rw [same]
    have mutating := writes_mutate .finalize .finalize (Tables.executeMany (fun t k => .ok (t.finalizeKey k)) ks)
    refine ⟨fun s => ?_, mutating.written, mutating.kept⟩
    rw [mutating.ok_iff]
    simp only [reduceCtorEq, false_or]

end Store

end BridgeLedger
