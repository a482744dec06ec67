import BridgeLedger.Proofs.Store.Writes

namespace BridgeLedger

/-- The tables a call of the store leaves when it succeeds on tables `t`: a phase record sets its
phase in each block of its range, an ingest inserts the withdrawals of its batch whose keys are
new, a finalize flags the rows of its keys, and a read leaves the tables. -/
def Step.effect : Step → Tables → Tables
  | st@(.recordPhase ..), t => (st.phaseRecord?.map fun r => (r.batch t).1).getD t
  | st@(.ingest _), t => (Tables.executeMany Tables.ingestOne st.ingested t).1
  | .finalize keys, t =>
    (Tables.executeMany (fun t k => .ok (t.finalizeKey k)) ((Store.finalizeKeys keys).toOption.getD []) t).1
  | _, t => t

theorem Step.effect_of_reads {st : Step} (reading : st.reads = true) (t : Tables) : st.effect t = t := by
  cases st <;> first | rfl | cases reading

namespace Connection

theorem commit_of_some {c : Connection} {t : Tables} (connected : c.closed = false) (opened : c.working = some t) :
    c.commit = .ok { c with committed := t, working := none, owned := false, engine := c.engine.clear } := by
  simp only [commit, connected, opened, Bool.false_eq_true, if_false]

theorem rollback_of_some {c : Connection} {t : Tables} (connected : c.closed = false) (opened : c.working = some t) :
    c.rollback = .ok { c with working := none, owned := false, engine := c.engine.clear } := by
  simp only [rollback, connected, opened, Bool.false_eq_true, if_false]

/-- With no transaction open a rollback has nothing to undo. -/
theorem rollback_tables_of_none (c : Connection) (noTransaction : c.working = none) :
    ∀ c', c.rollback = .ok c' → c'.committed = c.committed ∧ c'.working = none := by
  intro c' rolledBack
  unfold rollback at rolledBack
  split at rolledBack
  · cases rolledBack
  · rw [noTransaction] at rolledBack
    cases rolledBack
    exact ⟨rfl, noTransaction⟩

end Connection

namespace Store

theorem isOk_iff_ok {x : Except Fault Unit} : x.isOk = true ↔ x = .ok () := by
  cases x with
  | error f => exact ⟨fun failed => (by cases failed), fun failed => (by cases failed)⟩
  | ok u => exact ⟨fun _ => rfl, fun _ => rfl⟩

theorem isOk_answer {α : Type} (reply : α → Reply) (after : Except Fault α × Store) :
    (step.answer reply after).1.isOk = after.1.isOk := by
  obtain ⟨result, s⟩ := after
  cases result <;> rfl

theorem step_commit {s : Store} {c : Connection} (committed : s.connection.commit = .ok c) :
    s.step .commit = (.ok .done, { s with connection := c }) := by
  simp only [step, step.changed, onConnection, committed]
  rfl

theorem step_rollback {s : Store} {c : Connection} (rolledBack : s.connection.rollback = .ok c) :
    s.step .rollback = (.ok .done, { s with connection := c }) := by
  simp only [step, step.changed, onConnection, rolledBack]
  rfl

theorem step_rollback_failed {s : Store} {f : Fault} (failed : s.connection.rollback = .error f) :
    s.step .rollback = (.error f, s) := by
  simp only [step, step.changed, onConnection, failed]
  rfl

/-- A call of the store that succeeds leaves, where its connection shows the tables, what it
writes there, and changes nothing else but the engine's record. -/
theorem call_written (s : Store) {st : Step} (isCall : st.callsStore = true)
    (done : (s.step st).1.isOk = true) :
    ∃ e, (s.step st).2 = (s.writeTables (st.effect s.connection.tables)).withEngine fun _ => e := by
  rcases call_cases s isCall with ⟨quiet, e, same⟩ | ⟨-, recorded | ingested | finalized⟩
  · have reading : st.reads = true := quiet.resolve_left (by rw [done]; exact Bool.noConfusion)
    exact ⟨e, by rw [same, Step.effect_of_reads reading, writeTables_tables]⟩
  · obtain ⟨phase, start, stop, l1, p, first, last, block, rfl, parsed, checks, -⟩ := recorded
    have called : s.step (.recordPhase phase start stop l1) =
        step.answer (fun _ => .done) (s.recordPhase p start stop l1) := by
      simp only [step, parsed, checked]
    rw [called, isOk_answer, isOk_iff_ok] at done
    obtain ⟨e, after⟩ := (writes_recordPhase checks).written s done
    refine ⟨e, ?_⟩
    rw [called]
    simp only [Step.effect, Step.phaseRecord?_recordPhase parsed checks, Option.map_some, Option.getD_some]
    exact after
  · obtain ⟨descriptions, ws, rfl, built, -⟩ := ingested
    have called : s.step (.ingest descriptions) = step.answer (fun _ => .done) (s.ingest ws) := by
      simp only [step, built, checked]
    rw [called, isOk_answer, isOk_iff_ok] at done
    obtain ⟨e, after⟩ := (writes_ingest (ingest_checks done)).written s done
    refine ⟨e, ?_⟩
    rw [called, Step.effect, Step.ingested_ingest built]
    exact after
  · obtain ⟨keys, ks, rfl, named, -⟩ := finalized
    have called : s.step (.finalize keys) = step.answer (fun _ => .done) (s.finalize keys) := rfl
    rw [called, isOk_answer, isOk_iff_ok] at done
    obtain ⟨e, after⟩ := (writes_finalize named).written s done
    refine ⟨e, ?_⟩
    rw [called, Step.effect, named]
    exact after

/-- A call of the store that fails changes nothing but the engine's record. -/
theorem call_failed (s : Store) {st : Step} (isCall : st.callsStore = true)
    (failed : (s.step st).1.isOk = false) : ∃ e, (s.step st).2 = s.withEngine fun _ => e := by
  rcases call_cases s isCall with ⟨-, kept⟩ | ⟨done, -⟩
  · exact kept
  · rw [done] at failed
    cases failed

/-- A call of the store neither opens nor closes a transaction, nor the connection. -/
theorem call_keeps_transaction (s : Store) {st : Step} (isCall : st.callsStore = true) :
    (s.step st).2.connection.inTransaction = s.connection.inTransaction ∧
      (s.step st).2.connection.closed = s.connection.closed := by
  cases done : (s.step st).1.isOk with
  | true =>
    obtain ⟨e, after⟩ := call_written s isCall done
    rw [after]
    exact ⟨Connection.inTransaction_write _ _, Connection.closed_write _ _⟩
  | false =>
    obtain ⟨e, after⟩ := call_failed s isCall done
    rw [after]
    exact ⟨rfl, rfl⟩

theorem after_append (s : Store) (pre post : List Step) : s.after (pre ++ post) = (s.after pre).after post := by
  induction pre generalizing s with
  | nil => rfl
  | cons st rest ih => exact ih _

/-- Calls of the store, however many, leave whether a transaction is open as they found it. -/
theorem after_calls_keep_transaction (s : Store) {calls : List Step}
    (only : ∀ st ∈ calls, st.callsStore = true) :
    (s.after calls).connection.inTransaction = s.connection.inTransaction ∧
      (s.after calls).connection.closed = s.connection.closed := by
  induction calls generalizing s with
  | nil => exact ⟨rfl, rfl⟩
  | cons st rest ih =>
    obtain ⟨kept, connected⟩ := call_keeps_transaction s (only st List.mem_cons_self)
    obtain ⟨kept', connected'⟩ := ih (s.step st).2 fun st' member => only st' (List.mem_cons_of_mem st member)
    exact ⟨kept'.trans kept, connected'.trans connected⟩

/-- The owner's `BEGIN` fails with the engine's refusal of a nested transaction exactly when the
connection is open and a transaction is open on it. -/
theorem begin_nested_iff (s : Store) :
    (s.step .begin).1 = .error (.engine .nestedTransaction) ↔
      s.connection.closed = false ∧ s.connection.inTransaction = true := by
  obtain ⟨settings, committed, working, owned, requests, closed, engine⟩ := s
  cases closed with
  | true => exact ⟨fun failed => (by cases failed), fun ⟨connected, _⟩ => (by cases connected)⟩
  | false =>
    cases working with
    | none => exact ⟨fun failed => (by cases failed), fun ⟨_, opened⟩ => (by cases opened)⟩
    | some t => exact ⟨fun _ => ⟨rfl, rfl⟩, fun _ => rfl⟩

/-- With no transaction open, a call of the store that succeeds commits what it writes and leaves
no transaction open, and a rollback of the owner after it leaves it committed. -/
theorem call_commits {s : Store} {st : Step} (isCall : st.callsStore = true)
    (noTransaction : s.connection.working = none) (done : (s.step st).1.isOk = true) :
    (s.step st).2.connection.committed = st.effect s.connection.committed ∧
      (s.step st).2.connection.working = none ∧
      ((s.step st).2.step .rollback).2.connection.committed = st.effect s.connection.committed ∧
      ((s.step st).2.step .rollback).2.connection.working = none := by
  obtain ⟨e, after⟩ := call_written s isCall done
  have seen : s.connection.tables = s.connection.committed := by
    rw [Connection.tables, noTransaction, Option.getD_none]
  have written : (s.step st).2.connection = { s.connection with committed := st.effect s.connection.committed, engine := e } := by
    rw [after, seen]
    show { s.connection.write _ with engine := e } = _
    rw [Connection.write_of_none noTransaction]
  have nothingOpen : (s.step st).2.connection.working = none := by
    rw [written]
    exact noTransaction
  refine ⟨by rw [written], nothingOpen, ?_⟩
  -- the owner's rollback finds no transaction: it does nothing, or fails on a closed connection
  cases rolledBack : (s.step st).2.connection.rollback with
  | error f =>
    rw [step_rollback_failed rolledBack, written]
    exact ⟨rfl, noTransaction⟩
  | ok c' =>
    obtain ⟨sameCommitted, nothing⟩ := Connection.rollback_tables_of_none _ nothingOpen c' rolledBack
    rw [step_rollback rolledBack]
    refine ⟨?_, nothing⟩
    rw [show c'.committed = _ from sameCommitted, written]

/-- Inside an open transaction, a call of the store that succeeds writes into that transaction
only; the owner's commit then makes what the transaction holds committed, and the owner's rollback
drops it and keeps the tables committed before. -/
theorem call_joins_transaction {s : Store} {st : Step} {w : Tables} (isCall : st.callsStore = true)
    (connected : s.connection.closed = false) (opened : s.connection.working = some w)
    (done : (s.step st).1.isOk = true) :
    (s.step st).2.connection.committed = s.connection.committed ∧
      (s.step st).2.connection.working = some (st.effect w) ∧
      ((s.step st).2.step .commit).1.isOk = true ∧
      ((s.step st).2.step .commit).2.connection.committed = st.effect w ∧
      ((s.step st).2.step .commit).2.connection.working = none ∧
      ((s.step st).2.step .rollback).1.isOk = true ∧
      ((s.step st).2.step .rollback).2.connection.committed = s.connection.committed ∧
      ((s.step st).2.step .rollback).2.connection.working = none := by
  obtain ⟨e, after⟩ := call_written s isCall done
  have seen : s.connection.tables = w := by
    rw [Connection.tables, opened, Option.getD_some]
  have written : (s.step st).2.connection = { s.connection with working := some (st.effect w), engine := e } := by
    rw [after, seen]
    show { s.connection.write _ with engine := e } = _
    rw [Connection.write_of_some opened]
  have stillConnected : (s.step st).2.connection.closed = false := by
    rw [written]
    exact connected
  have stillOpen : (s.step st).2.connection.working = some (st.effect w) := by
    rw [written]
  rw [step_commit (Connection.commit_of_some stillConnected stillOpen),
    step_rollback (Connection.rollback_of_some stillConnected stillOpen)]
  exact ⟨by rw [written], stillOpen, rfl, rfl, rfl, rfl, by rw [written], rfl⟩

/-- A call of the store that fails leaves the committed tables and the open transaction, with
the owner's writes in it, as they were. -/
theorem call_failed_keeps_tables {s : Store} {st : Step} (isCall : st.callsStore = true)
    (failed : (s.step st).1.isOk = false) :
    (s.step st).2.connection.committed = s.connection.committed ∧
      (s.step st).2.connection.working = s.connection.working := by
  obtain ⟨e, after⟩ := call_failed s isCall failed
  rw [after]
  exact ⟨rfl, rfl⟩

/-- No call of the store opens or closes a transaction: with none open a successful call commits
its writes, inside one it writes into that one only, and a failed call keeps both tables; so the
owner's `BEGIN` fails after a run of calls exactly when the owner's own steps left one open. -/
theorem calls_keep_owner_transaction :
    (∀ (s : Store) (st : Step), st.callsStore = true →
      (s.step st).2.connection.inTransaction = s.connection.inTransaction) ∧
    (∀ (s : Store) (st : Step), st.callsStore = true → s.connection.working = none →
      (s.step st).1.isOk = true →
        (s.step st).2.connection.committed = st.effect s.connection.committed ∧
        (s.step st).2.connection.working = none ∧
        ((s.step st).2.step .rollback).2.connection.committed = st.effect s.connection.committed ∧
        ((s.step st).2.step .rollback).2.connection.working = none) ∧
    (∀ (s : Store) (st : Step) (w : Tables), st.callsStore = true → s.connection.closed = false →
      s.connection.working = some w → (s.step st).1.isOk = true →
        (s.step st).2.connection.committed = s.connection.committed ∧
        (s.step st).2.connection.working = some (st.effect w) ∧
        ((s.step st).2.step .commit).1.isOk = true ∧
        ((s.step st).2.step .commit).2.connection.committed = st.effect w ∧
        ((s.step st).2.step .commit).2.connection.working = none ∧
        ((s.step st).2.step .rollback).1.isOk = true ∧
        ((s.step st).2.step .rollback).2.connection.committed = s.connection.committed ∧
        ((s.step st).2.step .rollback).2.connection.working = none) ∧
    (∀ (s : Store) (st : Step), st.callsStore = true → (s.step st).1.isOk = false →
      (s.step st).2.connection.committed = s.connection.committed ∧
        (s.step st).2.connection.working = s.connection.working) ∧
    (∀ s : Store, (s.step .begin).1 = .error (.engine .nestedTransaction) ↔
      s.connection.closed = false ∧ s.connection.inTransaction = true) ∧
    ∀ (s : Store) (pre calls : List Step), (∀ st ∈ calls, st.callsStore = true) →
      (((s.after (pre ++ calls)).step .begin).1 = .error (.engine .nestedTransaction) ↔
        (s.after pre).connection.closed = false ∧ (s.after pre).connection.inTransaction = true) := by
  refine ⟨fun s st isCall => (call_keeps_transaction s isCall).1,
    fun s st isCall noTransaction done => call_commits isCall noTransaction done,
    fun s st w isCall connected opened done => call_joins_transaction isCall connected opened done,
    fun s st isCall failed => call_failed_keeps_tables isCall failed, begin_nested_iff, ?_⟩
  intro s pre calls only
  obtain ⟨kept, connected⟩ := after_calls_keep_transaction (s.after pre) only
  rw [begin_nested_iff, after_append, kept, connected]

/-- Inside the owner's transaction, holding a guard of its own, a phase record over blocks 1 to 3
succeeds and joins the transaction. -/
theorem calls_keep_owner_transaction_inside :
    Step.callsStore (.recordPhase (.str "commit") (.int 1) (.int 3) (.int 7)) = true ∧
      Connection.closed { Connection.fresh with working := some ⟨[], [], [⟨.withdrawals, 9⟩]⟩, owned := true } = false ∧
      Connection.working { Connection.fresh with working := some ⟨[], [], [⟨.withdrawals, 9⟩]⟩, owned := true } =
        some ⟨[], [], [⟨.withdrawals, 9⟩]⟩ ∧
      (Store.step ⟨Settings.default,
          { Connection.fresh with working := some ⟨[], [], [⟨.withdrawals, 9⟩]⟩, owned := true }⟩
        (.recordPhase (.str "commit") (.int 1) (.int 3) (.int 7))).1.isOk = true ∧
      ((Store.step ⟨Settings.default,
          { Connection.fresh with working := some ⟨[], [], [⟨.withdrawals, 9⟩]⟩, owned := true }⟩
        (.recordPhase (.str "commit") (.int 1) (.int 3) (.int 7))).2.step .commit).2.connection.committed =
        Step.effect (.recordPhase (.str "commit") (.int 1) (.int 3) (.int 7)) ⟨[], [], [⟨.withdrawals, 9⟩]⟩ :=
  ⟨rfl, rfl, rfl, rfl,
    (calls_keep_owner_transaction.2.2.1 ⟨Settings.default,
      { Connection.fresh with working := some ⟨[], [], [⟨.withdrawals, 9⟩]⟩, owned := true }⟩
      (.recordPhase (.str "commit") (.int 1) (.int 3) (.int 7)) ⟨[], [], [⟨.withdrawals, 9⟩]⟩
      rfl rfl rfl rfl).2.2.2.1⟩

end Store

end BridgeLedger
