import BridgeLedger.Proofs.Store.Steps

namespace BridgeLedger

/-- A withdrawal row as the store writes it. -/
structure WithdrawalRow.Stored (r : WithdrawalRow) : Prop where
  txHash : ∃ h : TxHash, r.txHash = .blob h.data
  block : ∃ n : Nat, n ≤ storableMaximum ∧ r.block = .integer n
  token : ∃ a : TokenAddress, r.token = .blob a.data
  amount : ∃ a : Word .w256, r.amount = .text (Amount.encode a)
  index : ∃ i : Word .w32, r.index = .integer i.toNat
  finalized : r.finalized = .integer 0 ∨ r.finalized = .integer 1

/-- A phase cell as the store writes it: null, or an L1 block number that a cell holds. -/
def Cell.StoredBlock (c : Cell) : Prop := c = .null ∨ ∃ n : Nat, n ≤ storableMaximum ∧ c = .integer n

/-- A block row as the store writes it. -/
structure BlockRow.Stored (r : BlockRow) : Prop where
  number : 0 ≤ r.number ∧ r.number ≤ storableMaximum
  phase : ∀ p, (r.phase p).StoredBlock

/-- The rows of both tables as the store writes them, no two withdrawal rows sharing a key. -/
structure Tables.WellFormed (t : Tables) : Prop where
  withdrawals : ∀ r ∈ t.withdrawals, r.Stored
  keys : t.withdrawals.Pairwise fun a b => ¬(a.txHash = b.txHash ∧ a.index = b.index)
  blocks : ∀ r ∈ t.blocks, r.Stored

/-- The committed tables and those of the open transaction, if one is open, are well formed. -/
structure Connection.WellFormed (c : Connection) : Prop where
  committed : c.committed.WellFormed
  working : ∀ t, c.working = some t → t.WellFormed

namespace Cell

theorem compareBytes_eq_iff : ∀ {a b : List UInt8}, Value.compareBytes a b = .eq ↔ a = b
  | [], [] => ⟨fun _ => rfl, fun _ => rfl⟩
  | [], _ :: _ => Iff.intro (fun order => by cases order) (fun same => by cases same)
  | _ :: _, [] => Iff.intro (fun order => by cases order) (fun same => by cases same)
  | x :: xs, y :: ys => by
    unfold Value.compareBytes
    split
    · rename_i heads
      rw [compareBytes_eq_iff, Std.LawfulEqOrd.compare_eq_iff_eq.mp heads, List.cons.injEq]
      exact ⟨fun rest => ⟨rfl, rest⟩, fun both => both.2⟩
    · rename_i order differ
      refine ⟨fun first => absurd first differ, fun same => ?_⟩
      obtain ⟨rfl, rfl⟩ := List.cons.inj same
      exact absurd (Std.LawfulEqOrd.compare_eq_iff_eq.mpr rfl) differ

theorem same_blob {a b : List UInt8} : (Cell.blob a).same (.blob b) = true ↔ a = b := by
  simp only [same, compare, beq_iff_eq]
  exact compareBytes_eq_iff

theorem same_integer {m n : Int} : (Cell.integer m).same (.integer n) = true ↔ m = n := by
  simp only [same, compare, beq_iff_eq]
  exact Std.LawfulEqOrd.compare_eq_iff_eq

end Cell

namespace WithdrawalRow

/-- A stored row has a key exactly when its key cells are the given ones, when those are a blob
and an integer. -/
theorem Stored.hasKey_iff {r : WithdrawalRow} (stored : r.Stored) (hash : List UInt8) (index : Int) :
    r.hasKey (.blob hash) (.integer index) = true ↔
      r.txHash = .blob hash ∧ r.index = .integer index := by
  obtain ⟨h, atHash⟩ := stored.txHash
  obtain ⟨i, atIndex⟩ := stored.index
  rw [hasKey, atHash, atIndex, Bool.and_eq_true, Cell.same_blob, Cell.same_integer]
  simp only [Cell.blob.injEq, Cell.integer.injEq]

end WithdrawalRow

theorem stored_toRow {w : StoredWithdrawal} (fits : w.event.blockNumber.toNat ≤ storableMaximum) :
    w.toRow.Stored := by
  obtain ⟨⟨hash, block, token, amount⟩, index, flag⟩ := w
  refine ⟨⟨hash, rfl⟩, ⟨block.toNat, fits, rfl⟩, ⟨token, rfl⟩, ⟨amount, rfl⟩, ⟨index, rfl⟩, ?_⟩
  cases flag with
  | false => exact .inl rfl
  | true => exact .inr rfl

namespace BlockRow

@[simp] theorem number_setPhase (r : BlockRow) (p : Phase) (c : Cell) :
    (r.setPhase p c).number = r.number := by
  cases p <;> rfl

theorem phase_setPhase (r : BlockRow) (p q : Phase) (c : Cell) :
    (r.setPhase p c).phase q = if q = p then c else r.phase q := by
  cases p <;> cases q <;> rfl

theorem Stored.setPhase {r : BlockRow} (stored : r.Stored) (p : Phase) {c : Cell}
    (cell : c.StoredBlock) : (r.setPhase p c).Stored := by
  refine ⟨by simpa only [number_setPhase] using stored.number, fun q => ?_⟩
  rw [phase_setPhase]
  split
  · exact cell
  · exact stored.phase q

theorem stored_fresh {n : Int} (number : 0 ≤ n ∧ n ≤ storableMaximum) (p : Phase) {c : Cell}
    (cell : c.StoredBlock) : (fresh n p c).Stored := by
  have empty : (BlockRow.mk n .null .null .null).Stored := ⟨number, fun q => by cases q <;> exact .inl rfl⟩
  exact empty.setPhase p cell

end BlockRow

namespace Tables

theorem wellFormed_empty : Tables.empty.WellFormed := by
  refine ⟨fun _ absent => ?_, .nil, fun _ absent => ?_⟩ <;> cases absent

/-- Only the rows count: tables with the rows of well-formed tables are well formed, whatever
their guards. -/
theorem WellFormed.of_rows {t t' : Tables} (wf : t.WellFormed) (withdrawals : t'.withdrawals = t.withdrawals)
    (blocks : t'.blocks = t.blocks) : t'.WellFormed := by
  obtain ⟨stored, keys, blockRows⟩ := wf
  rw [← withdrawals] at stored keys
  rw [← blocks] at blockRows
  exact ⟨stored, keys, blockRows⟩

theorem WellFormed.upsertPhase {t : Tables} (wf : t.WellFormed) (p : Phase) {n : Int}
    (number : 0 ≤ n ∧ n ≤ storableMaximum) {c : Cell} (cell : c.StoredBlock) :
    (t.upsertPhase p n c).WellFormed := by
  unfold Tables.upsertPhase
  split
  · refine ⟨wf.withdrawals, wf.keys, fun r member => ?_⟩
    obtain ⟨old, kept, rfl⟩ := List.mem_map.mp member
    split
    · exact (wf.blocks old kept).setPhase p cell
    · exact wf.blocks old kept
  · refine ⟨wf.withdrawals, wf.keys, fun r member => ?_⟩
    rcases List.mem_cons.mp member with rfl | kept
    · exact BlockRow.stored_fresh number p cell
    · exact wf.blocks r kept

/-- A row is inserted only when no row has its key, so keys stay apart. -/
theorem WellFormed.insertNew {t : Tables} (wf : t.WellFormed) {r : WithdrawalRow} (stored : r.Stored) :
    (t.insertNew r).WellFormed := by
  unfold Tables.insertNew
  split
  · exact wf
  · rename_i absent
    refine ⟨fun r' member => ?_, ?_, wf.blocks⟩
    · rcases List.mem_append.mp member with kept | added
      · exact wf.withdrawals r' kept
      · rw [List.mem_singleton.mp added]
        exact stored
    · refine List.pairwise_append.mpr ⟨wf.keys, List.pairwise_singleton _ r, fun a kept b added => ?_⟩
      rw [List.mem_singleton.mp added]
      rintro ⟨sameHash, sameIndex⟩
      -- a row with the same key cells holds the new row's key
      obtain ⟨h, atHash⟩ := stored.txHash
      obtain ⟨i, atIndex⟩ := stored.index
      apply absent
      refine List.any_eq_true.mpr ⟨a, kept, ?_⟩
      rw [atHash, atIndex, (wf.withdrawals a kept).hasKey_iff]
      exact ⟨sameHash.trans atHash, sameIndex.trans atIndex⟩

theorem WellFormed.finalizeKey {t : Tables} (wf : t.WellFormed) (key : WithdrawalKey) :
    (t.finalizeKey key).WellFormed := by
  unfold Tables.finalizeKey
  refine ⟨fun r member => ?_, List.pairwise_map.mpr (wf.keys.imp fun distinct => ?_), wf.blocks⟩
  · obtain ⟨old, kept, rfl⟩ := List.mem_map.mp member
    have stored := wf.withdrawals old kept
    split
    · exact { stored with finalized := .inr rfl }
    · exact stored
  · split <;> split <;> exact distinct

theorem WellFormed.recordBlock {t t' : Tables} (wf : t.WellFormed) {p : Phase} {l1 n : Nat}
    (fitsBlock : l1 ≤ storableMaximum) (fitsNumber : n ≤ storableMaximum)
    (written : t.recordBlock p l1 n = .ok t') : t'.WellFormed := by
  unfold Tables.recordBlock at written
  split at written
  · cases written
  · cases written
    exact wf.upsertPhase p ⟨by omega, by omega⟩ (.inr ⟨l1, fitsBlock, rfl⟩)

theorem WellFormed.ingestOne {t t' : Tables} (wf : t.WellFormed) {w : StoredWithdrawal}
    (fits : w.event.blockNumber.toNat ≤ storableMaximum) (written : t.ingestOne w = .ok t') :
    t'.WellFormed := by
  unfold Tables.ingestOne at written
  split at written
  · cases written
  · cases written
    exact wf.insertNew (stored_toRow fits)

theorem WellFormed.recordRange {t : Tables} (wf : t.WellFormed) (p : Phase) {first last l1 : Nat}
    (fitsLast : last ≤ storableMaximum) (fitsBlock : l1 ≤ storableMaximum) :
    (executeRange (fun t => t.recordBlock p l1) first (last + 1 - first) t).1.WellFormed := by
  rw [executeRange_eq]
  refine executeMany_keeps _ _ _ (fun t n t' member wf' written => ?_) wf
  -- every block of the range is at most its last one, so it fits a cell
  have within := List.mem_range'_1.mp member
  exact wf'.recordBlock fitsBlock (by omega) written

end Tables

namespace Connection

theorem WellFormed.tables {c : Connection} (wf : c.WellFormed) : c.tables.WellFormed := by
  unfold Connection.tables
  cases seen : c.working with
  | none =>
    rw [Option.getD_none]
    exact wf.committed
  | some t =>
    rw [Option.getD_some]
    exact wf.working t seen

theorem wellFormed_engine {c : Connection} (e : Engine) :
    ({ c with engine := e } : Connection).WellFormed ↔ c.WellFormed :=
  ⟨fun wf => ⟨wf.committed, wf.working⟩, fun wf => ⟨wf.committed, wf.working⟩⟩

theorem WellFormed.write {c : Connection} (wf : c.WellFormed) {t : Tables} (written : t.WellFormed) :
    (c.write t).WellFormed := by
  unfold Connection.write
  split
  · exact ⟨wf.committed, fun t' same => by cases same; exact written⟩
  · rename_i closedOver
    refine ⟨written, fun t' same => ?_⟩
    rw [closedOver] at same
    cases same

theorem WellFormed.settle {c : Connection} (wf : c.WellFormed) : c.settle.WellFormed := by
  unfold Connection.settle
  split
  · exact wf
  · split
    · rename_i t pending
      exact ⟨wf.working t pending, fun _ absent => by cases absent⟩
    · exact wf

theorem WellFormed.begin {c : Connection} (wf : c.WellFormed) : c.begin.2.WellFormed := by
  unfold Connection.begin
  split
  · exact wf
  · split
    · exact (wellFormed_engine _).mpr wf
    · exact ⟨wf.committed, fun t opened => by cases opened; exact wf.committed⟩

theorem WellFormed.commit {c c' : Connection} (wf : c.WellFormed) (committed : c.commit = .ok c') :
    c'.WellFormed := by
  unfold Connection.commit at committed
  split at committed
  · cases committed
  · split at committed
    · rename_i t pending
      cases committed
      exact ⟨wf.working t pending, fun _ absent => by cases absent⟩
    · cases committed
      exact wf

theorem WellFormed.rollback {c c' : Connection} (wf : c.WellFormed) (rolledBack : c.rollback = .ok c') :
    c'.WellFormed := by
  unfold Connection.rollback at rolledBack
  split at rolledBack
  · cases rolledBack
  · split at rolledBack
    · cases rolledBack
      exact ⟨wf.committed, fun _ absent => by cases absent⟩
    · cases rolledBack
      exact wf

theorem WellFormed.close {c : Connection} (wf : c.WellFormed) : c.close.WellFormed :=
  ⟨wf.committed, fun _ absent => by cases absent⟩

/-- A statement the owner runs directly that binds its values and writes no row, as creating a
guard does, keeps the rows when its change keeps them. -/
theorem WellFormed.directly {α : Type} {c : Connection} (wf : c.WellFormed) (st : Statement) (a : α)
    {change : α → Tables → Except Violation Tables}
    (keeps : ∀ t t', t.WellFormed → change a t = .ok t' → t'.WellFormed) :
    (c.directly st false (.ok a) change).2.WellFormed := by
  unfold Connection.directly
  split
  · exact wf
  · have fetched : ({ c with engine := c.engine.fetch st } : Connection).WellFormed :=
      (wellFormed_engine _).mpr wf
    simp only [Bool.false_eq_true, if_false]
    split
    · rename_i t changed
      exact ((wellFormed_engine _).mpr (fetched.write (keeps _ _ fetched.tables changed))).settle
    · exact (wellFormed_engine _).mpr wf

theorem WellFormed.addGuard {c : Connection} (wf : c.WellFormed) (g : Guard) :
    (c.addGuard g).2.WellFormed := by
  unfold Connection.addGuard
  have counted : ({ c with guardRequests := c.guardRequests + 1 } : Connection).WellFormed :=
    ⟨wf.committed, wf.working⟩
  refine counted.directly _ () fun t t' wf' added => ?_
  cases added
  exact wf'.of_rows rfl rfl

theorem WellFormed.dropGuards {c : Connection} (wf : c.WellFormed) : c.dropGuards.2.WellFormed := by
  unfold Connection.dropGuards
  split
  · exact wf
  · split
    · exact wf
    · dsimp only
      have cleared : c.tables.clearGuards.WellFormed := wf.tables.of_rows rfl rfl
      exact ((wellFormed_engine _).mpr (wf.write cleared)).settle

end Connection

namespace Store

theorem Opened.wellFormed {s : Store} (opened : s.Opened) : s.connection.WellFormed := by
  refine ⟨?_, fun t pending => ?_⟩
  · rw [opened.committed]
    exact Tables.wellFormed_empty
  · rw [opened.working] at pending
    cases pending

theorem wellFormed_of_engine {s s' : Store} (wf : s.connection.WellFormed)
    (same : ∃ e, s' = s.withEngine fun _ => e) : s'.connection.WellFormed := by
  obtain ⟨e, rfl⟩ := same
  exact (Connection.wellFormed_engine e).mpr wf

theorem checked_wellFormed {α β : Type} {s : Store} {args : Except Fault β}
    {k : β → Except Fault α × Store} (wf : s.connection.WellFormed)
    (rest : ∀ b, args = .ok b → (k b).2.connection.WellFormed) : (s.checked args k).2.connection.WellFormed :=
  checked_keeps (P := fun s' => s'.connection.WellFormed) wf rest

theorem mutate_wellFormed {s : Store} (wf : s.connection.WellFormed) {op : Operation} {st : Statement}
    {batch : Tables → Tables × Option Violation} (written : (batch s.connection.tables).1.WellFormed) :
    (s.mutate op st batch).2.connection.WellFormed := by
  rcases mutate_cases s op st batch with ⟨f, e, failed, -⟩ | ⟨-, -, e, done⟩
  · rw [failed]
    exact wellFormed_of_engine wf ⟨e, rfl⟩
  · rw [done]
    exact (Connection.wellFormed_engine e).mpr (wf.write written)

theorem recordPhase_wellFormed {s : Store} (wf : s.connection.WellFormed) (p : Phase)
    (start stop l1 : Value) : (s.recordPhase p start stop l1).2.connection.WellFormed := by
  refine checked_wellFormed wf fun ⟨first, last, block⟩ checks => ?_
  obtain ⟨-, lastFits, blockFits⟩ := recordArguments_ok checks
  exact mutate_wellFormed wf (wf.tables.recordRange p lastFits blockFits)

theorem ingest_wellFormed {s : Store} (wf : s.connection.WellFormed) (ws : List StoredWithdrawal) :
    (s.ingest ws).2.connection.WellFormed := by
  unfold ingest
  split
  · exact wf
  · refine checked_wellFormed wf fun _ checks => mutate_wellFormed wf ?_
    -- the batch was checked whole before it ran, so every block number of it fits a cell
    have fits := forM_ok checks
    refine Tables.executeMany_keeps _ ws _ (fun t w t' member wf' written => ?_) wf.tables
    obtain ⟨_, fit⟩ := fits w member
    exact wf'.ingestOne (storable_ok fit) written

theorem finalize_wellFormed {s : Store} (wf : s.connection.WellFormed) (keys : List (Value × Value)) :
    (s.finalize keys).2.connection.WellFormed := by
  unfold finalize
  split
  · exact wf
  · refine checked_wellFormed wf fun ks _ => mutate_wellFormed wf ?_
    refine Tables.executeMany_keeps _ ks _ (fun t k t' _ wf' written => ?_) wf.tables
    cases written
    exact wf'.finalizeKey k

/-- One step other than an owner's overwrite keeps every row as the store writes it. -/
theorem step_wellFormed {s : Store} (wf : s.connection.WellFormed) {st : Step}
    (through : st.overwrites = false) : (s.step st).2.connection.WellFormed := by
  cases st with
  | recordPhase phase start stop l1 =>
    exact checked_wellFormed wf fun p _ => recordPhase_wellFormed wf p start stop l1
  | lifecycle block => exact wellFormed_of_engine wf (lifecycle_engine s block)
  | phaseLookup phase hash index =>
    exact checked_wellFormed wf fun p _ => wellFormed_of_engine wf (phaseL1Block_engine s p hash index)
  | ingest descriptions => exact checked_wellFormed wf fun ws _ => ingest_wellFormed wf ws
  | finalize keys => exact finalize_wellFormed wf keys
  | pending limit => exact wellFormed_of_engine wf (pending_engine s limit)
  | getWithdrawal hash index => exact wellFormed_of_engine wf (getWithdrawal_engine s hash index)
  | highestObserved => exact wellFormed_of_engine wf (highestObserved_engine s)
  | highestCommitted => exact wellFormed_of_engine wf (highestCommitted_engine s)
  | reopen fields =>
    simp only [step]
    split
    · rename_i s' reopened
      obtain ⟨e, same⟩ := reopen_connection reopened
      rw [same]
      exact (Connection.wellFormed_engine e).mpr wf
    · exact wf
  | begin => exact wf.begin
  | commit =>
    simp only [step, step.changed, onConnection]
    cases committed : s.connection.commit with
    | error f => exact wf
    | ok c' => exact wf.commit committed
  | rollback =>
    simp only [step, step.changed, onConnection]
    cases rolledBack : s.connection.rollback with
    | error f => exact wf
    | ok c' => exact wf.rollback rolledBack
  | inTransaction => exact wf
  | close => exact wf.close
  | guard table block => exact wf.addGuard _
  | clearGuards => exact wf.dropGuards
  | overwriteWithdrawal => cases through
  | overwriteBlock => cases through
  | dump =>
    simp only [step]
    split
    · exact wellFormed_of_engine wf ⟨_, rfl⟩
    · exact wf

theorem after_wellFormed {s : Store} (wf : s.connection.WellFormed) {steps : List Step}
    (through : ∀ st ∈ steps, st.overwrites = false) : (s.after steps).connection.WellFormed := by
  induction steps generalizing s with
  | nil => exact wf
  | cons st rest ih =>
    have first := step_wellFormed wf (through st List.mem_cons_self)
    exact ih first fun st' member => through st' (List.mem_cons_of_mem st member)

theorem Opened.after_tables {s : Store} (opened : s.Opened) {steps : List Step}
    (through : ∀ st ∈ steps, st.overwrites = false) : (s.after steps).connection.tables.WellFormed :=
  (after_wellFormed opened.wellFormed through).tables

/-- Opened on an empty connection, the store keeps every row of both tables, committed or in an
open transaction, in the shape it writes them through every run of steps but the owner's
overwrites of cells: calls with any arguments, transactions, guards, reopenings and closing. -/
theorem rows_stay_wellFormed {s : Store} (opened : s.Opened) {steps : List Step}
    (through : ∀ st ∈ steps, st.overwrites = false) : (s.after steps).connection.WellFormed :=
  after_wellFormed opened.wellFormed through

/-- Inside the owner's transaction a phase is recorded and a record with the start after the end
fails; the owner rolls back, a guard refuses a later record, and the connection is closed. -/
theorem rows_stay_wellFormed_session :
    Store.Opened ⟨Settings.default, Connection.fresh⟩ ∧
      (∀ st ∈ [Step.begin, .recordPhase (.str "commit") (.int 1) (.int 3) (.int 9),
        .recordPhase (.str "verify") (.int 5) (.int 2) (.int 9), .rollback, .guard .blocks 2,
        .recordPhase (.str "execute") (.int 1) (.int 3) (.int 9), .close], st.overwrites = false) ∧
      (Store.after ⟨Settings.default, Connection.fresh⟩
        [.begin, .recordPhase (.str "commit") (.int 1) (.int 3) (.int 9),
          .recordPhase (.str "verify") (.int 5) (.int 2) (.int 9), .rollback, .guard .blocks 2,
          .recordPhase (.str "execute") (.int 1) (.int 3) (.int 9), .close]).connection.WellFormed :=
  ⟨⟨rfl, rfl, rfl⟩, by decide, rows_stay_wellFormed ⟨rfl, rfl, rfl⟩ (by decide)⟩

end Store

end BridgeLedger
