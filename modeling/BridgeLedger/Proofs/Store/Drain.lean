import BridgeLedger.Proofs.Store.Backlog

namespace BridgeLedger

/-- The key of a withdrawal as a caller passes it: the bytes of its hash and its position. -/
def StoredWithdrawal.keyValues (w : StoredWithdrawal) : Value × Value :=
  (.bytes w.event.txHash.data, .int w.indexInTx.toNat)

theorem StoredWithdrawal.mapM_decode_toRow :
    ∀ ws : List StoredWithdrawal, (ws.map toRow).mapM WithdrawalRow.decode = .ok ws
  | [] => rfl
  | w :: rest => by
    rw [List.map_cons, List.mapM_cons, decode_toRow, mapM_decode_toRow rest]
    rfl

namespace Store

/-- The caller's loop that drains the backlog: ask for at most `limit` pending withdrawals, stop at
an empty answer, and otherwise finalize the answer's keys and ask again. A failed call ends the
loop with its failure; the loop has no result when its `fuel` rounds run out first. -/
def drain (limit : Value) : Nat → Store → Option (Except Fault (List (List StoredWithdrawal)) × Store)
  | 0, _ => none
  | fuel + 1, s =>
    match s.pending (some (.plain limit)) with
    | (.error f, s₁) => some (.error f, s₁)
    | (.ok [], s₁) => some (.ok [], s₁)
    | (.ok (w :: ws), s₁) =>
      match s₁.finalize ((w :: ws).map StoredWithdrawal.keyValues) with
      | (.error f, s₂) => some (.error f, s₂)
      | (.ok (), s₂) => (drain limit fuel s₂).map fun (answers, s₃) => (answers.map ((w :: ws) :: ·), s₃)

theorem finalizeKeys_keyValues :
    ∀ ws : List StoredWithdrawal, finalizeKeys (ws.map StoredWithdrawal.keyValues) = .ok (ws.map StoredWithdrawal.key)
  | [] => rfl
  | w :: rest => by
    have tail := finalizeKeys_keyValues rest
    unfold finalizeKeys at tail ⊢
    rw [List.map_cons, List.mapM_cons, tail]
    show (keyArgument .finalize (.bytes w.event.txHash.data) (.int w.indexInTx.toNat) >>= _) = _
    rw [keyArgument_key]
    rfl

/-- A pending scan whose limit passes its check and fits a cell answers, on an open store holding
withdrawals, the first withdrawals of the backlog. -/
theorem pending_answer {s : Store} {ws : List StoredWithdrawal} (holds : s.connection.tables.Holds ws)
    (connected : s.connection.closed = false) {limit : Option Operand} {L : Nat}
    (limited : s.pendingLimit limit = .ok L) (bounded : L ≤ storableMaximum) :
    (s.pending limit).1 = .ok ((StoredWithdrawal.backlog ws).take L) := by
  unfold pending
  rw [limited]
  simp only [checked]
  rw [read_answer connected (decide_eq_true bounded), Tables.pendingRows_of_holds holds,
    StoredWithdrawal.mapM_decode_toRow]
  rfl

/-- On an open store holding withdrawals, a scan with a limit from one to the greatest cell value
answers the first withdrawals of the backlog and changes nothing but the engine. -/
theorem pending_of_holds {s : Store} {ws : List StoredWithdrawal} (holds : s.connection.tables.Holds ws)
    (connected : s.connection.closed = false) {L : Nat} (positive : 0 < L) (bounded : L ≤ storableMaximum) :
    ∃ e, s.pending (some (.plain (.int L))) = (.ok ((StoredWithdrawal.backlog ws).take L), s.withEngine fun _ => e) := by
  obtain ⟨e, asked⟩ := pending_engine s (some (.plain (.int L)))
  have limit : s.pendingLimit (some (.plain (.int L))) = .ok L := by
    rw [pendingLimit, if_pos (by omega), Int.toNat_natCast]
  exact ⟨e, Prod.ext (pending_answer holds connected limit bounded) asked⟩

/-- Finalizing the keys of withdrawals on an open store finalizes them one key after another. -/
theorem finalize_keyValues {s : Store} (connected : s.connection.closed = false) (ws : List StoredWithdrawal) :
    ∃ e, s.finalize (ws.map StoredWithdrawal.keyValues) =
      (.ok (), (s.writeTables ((ws.map StoredWithdrawal.key).foldl Tables.finalizeKey s.connection.tables)).withEngine
        fun _ => e) := by
  have writes := writes_finalize (finalizeKeys_keyValues ws)
  have done : (s.finalize (ws.map StoredWithdrawal.keyValues)).1 = .ok () := by
    refine (writes.ok_iff s).mpr ⟨.inr connected, ?_⟩
    exact (Tables.guarded_finalizeKey.completes_iff _ _).mpr fun _ _ => rfl
  obtain ⟨e, after⟩ := writes.written s done
  rw [Tables.guarded_finalizeKey.result _ _ ((writes.ok_iff s).mp done).2] at after
  exact ⟨e, Prod.ext done after⟩

section Rounds

variable {L : Nat} (positive : 0 < L) (bounded : L ≤ storableMaximum)
  {s : Store} {ws : List StoredWithdrawal} (holds : s.connection.tables.Holds ws) (connected : s.connection.closed = false)

include positive bounded holds connected

/-- A round whose scan answers nothing ends the loop, changing nothing but the engine. -/
theorem drain_of_empty (empty : StoredWithdrawal.backlog ws = []) (fuel : Nat) :
    ∃ e, s.drain (.int L) (fuel + 1) = some (.ok [], s.withEngine fun _ => e) := by
  obtain ⟨e, pending⟩ := pending_of_holds holds connected positive bounded
  rw [empty, List.take_nil] at pending
  exact ⟨e, by rw [drain, pending]⟩

/-- A round whose scan answers some withdrawals finalizes their keys and goes on from there. -/
theorem drain_of_answer {w : StoredWithdrawal} {rest : List StoredWithdrawal}
    (answer : (StoredWithdrawal.backlog ws).take L = w :: rest) (fuel : Nat) :
    ∃ e, s.drain (.int L) (fuel + 1) =
      (((s.writeTables (((w :: rest).map StoredWithdrawal.key).foldl Tables.finalizeKey s.connection.tables)).withEngine
        fun _ => e).drain (.int L) fuel).map fun (answers, s₃) => (answers.map ((w :: rest) :: ·), s₃) := by
  obtain ⟨e₁, pending⟩ := pending_of_holds holds connected positive bounded
  rw [answer] at pending
  obtain ⟨e₂, finalized⟩ := finalize_keyValues (s := s.withEngine fun _ => e₁) connected (w :: rest)
  rw [tables_withEngine, writeTables_withEngine, withEngine_withEngine] at finalized
  refine ⟨e₂, ?_⟩
  rw [drain, pending]
  simp only
  rw [finalized]

end Rounds

theorem rounds_drop {n L : Nat} (positive : 0 < L) (nonempty : 0 < n) :
    (n - L + L - 1) / L + 1 = (n + L - 1) / L := by
  by_cases enough : L ≤ n
  · have shifted : n + L - 1 = (n - L + L - 1) + L := by omega
    rw [shifted, Nat.add_div_right _ positive]
  · have small : n - L + L - 1 < L := by omega
    rw [Nat.div_eq_of_lt small, Nat.div_eq_of_lt_le (k := 1) (by omega) (by omega)]

/-- The loop on an open store holding withdrawals, with rounds to spare: it answers the backlog in
⌈n / L⌉ parts of at most `L` withdrawals each, and sets the flag of every pending row. -/
theorem drain_of_holds {L : Nat} (positive : 0 < L) (bounded : L ≤ storableMaximum) :
    ∀ (fuel : Nat) {s : Store} {ws : List StoredWithdrawal}, s.connection.tables.Holds ws →
      s.connection.closed = false → ((StoredWithdrawal.backlog ws).length + L - 1) / L < fuel →
      ∃ batches e, s.drain (.int L) fuel =
          some (.ok batches, (s.writeTables s.connection.tables.settle).withEngine fun _ => e) ∧
        batches.length = ((StoredWithdrawal.backlog ws).length + L - 1) / L ∧
        (∀ b ∈ batches, b ≠ [] ∧ b.length ≤ L) ∧ batches.flatten = StoredWithdrawal.backlog ws
  | 0, _, _, _, _, enough => absurd enough (Nat.not_lt_zero _)
  | fuel + 1, s, ws, holds, connected, enough => by
    cases answer : (StoredWithdrawal.backlog ws).take L with
    | nil =>
      have empty : StoredWithdrawal.backlog ws = [] := (List.take_eq_nil_iff.mp answer).resolve_left (by omega)
      obtain ⟨e, run⟩ := drain_of_empty positive bounded holds connected empty fuel
      refine ⟨[], e, ?_, ?_, (fun _ absent => nomatch absent), empty.symm⟩
      · rw [run, Tables.settle_of_empty holds empty, writeTables_tables]
      · rw [empty, List.length_nil, List.length_nil, Nat.zero_add, Nat.div_eq_of_lt (by omega)]
    | cons w rest =>
      -- finalizing the answer leaves the rest of the backlog, which the rounds left drain
      obtain ⟨e₂, round⟩ := drain_of_answer positive bounded holds connected answer fuel
      have holds' := holds.foldl_finalizeKey ((w :: rest).map StoredWithdrawal.key)
      have remaining : StoredWithdrawal.backlog (StoredWithdrawal.finalizeAll ((w :: rest).map StoredWithdrawal.key) ws) =
          (StoredWithdrawal.backlog ws).drop L := by
        rw [← answer]
        exact StoredWithdrawal.backlog_finalizeAll holds.keys L
      have nonempty : 0 < (StoredWithdrawal.backlog ws).length := by
        cases backlogged : StoredWithdrawal.backlog ws with
        | nil => rw [backlogged, List.take_nil] at answer; cases answer
        | cons _ _ => exact Nat.succ_pos _
      have counted := rounds_drop positive nonempty
      obtain ⟨batches, e₃, run, count, sizes, flat⟩ := drain_of_holds positive bounded fuel
        (s := (s.writeTables (((w :: rest).map StoredWithdrawal.key).foldl Tables.finalizeKey s.connection.tables)).withEngine
          fun _ => e₂)
        (by rw [tables_withEngine, tables_writeTables]; exact holds')
        (by rw [closed_withEngine, closed_writeTables]; exact connected)
        (by rw [remaining, List.length_drop]; omega)
      refine ⟨(w :: rest) :: batches, e₃, ?_, ?_, ?_, ?_⟩
      · rw [round, run, tables_withEngine, tables_writeTables, Tables.settle_foldl_finalizeKey holds, writeTables_withEngine,
          writeTables_writeTables, withEngine_withEngine]
        rfl
      · rw [List.length_cons, count, remaining, List.length_drop, counted]
      · intro b member
        rcases List.mem_cons.mp member with rfl | later
        · refine ⟨List.cons_ne_nil w rest, ?_⟩
          rw [← answer]
          exact List.length_take_le L _
        · exact sizes b later
      · rw [List.flatten_cons, flat, remaining, ← answer, List.take_append_drop]

/-- Draining an open, well-formed store with a limit `L` from one to the greatest cell value stops
after ⌈n / L⌉ nonempty answers for the `n` pending rows, which list every pending withdrawal once
in the scan's order; the store ends with just their flags set, but for the engine's record. -/
theorem drain_finalizes_backlog {s : Store} (wf : s.connection.tables.WellFormed)
    (connected : s.connection.closed = false) {L : Nat} (positive : 1 ≤ L) (bounded : L ≤ storableMaximum)
    {fuel : Nat} (enough : ((s.connection.tables.withdrawals.filter WithdrawalRow.isPending).length + L - 1) / L < fuel) :
    ∃ batches e, s.drain (.int L) fuel =
        some (.ok batches, (s.writeTables s.connection.tables.settle).withEngine fun _ => e) ∧
      batches.length = ((s.connection.tables.withdrawals.filter WithdrawalRow.isPending).length + L - 1) / L ∧
      (∀ b ∈ batches, b ≠ []) ∧
      (batches.flatten.map StoredWithdrawal.toRow).Perm (s.connection.tables.withdrawals.filter WithdrawalRow.isPending) ∧
      batches.flatten.Pairwise fun a b => a.scanCompare b = .lt := by
  obtain ⟨ws, holds⟩ := wf.holds
  rw [holds.pending_length] at enough ⊢
  obtain ⟨batches, e, run, count, sizes, flat⟩ := drain_of_holds positive bounded fuel holds connected enough
  refine ⟨batches, e, run, count, fun b member => (sizes b member).1, ?_, ?_⟩
  · rw [flat, holds.pending]
    exact (StoredWithdrawal.backlog_perm ws).map _
  · rw [flat]
    exact StoredWithdrawal.backlog_ascending holds.keys

/-- A store given four withdrawals out of the scan's order, one of them finalized: the three
pending ones are drained two at a time, in two answers that together list them once in order. -/
theorem drain_finalizes_backlog_ingested :
    let s := Store.after ⟨Settings.default, Connection.fresh⟩
      [.ingest [[(.str "tx_hash", .bytes (List.replicate 32 2)), (.str "block_number", .int 1),
          (.str "token", .bytes (List.replicate 20 7)), (.str "amount", .int 100), (.str "index_in_tx", .int 0)],
        [(.str "tx_hash", .bytes (List.replicate 32 1)), (.str "block_number", .int 2),
          (.str "token", .bytes (List.replicate 20 7)), (.str "amount", .int 200), (.str "index_in_tx", .int 1)],
        [(.str "tx_hash", .bytes (List.replicate 32 1)), (.str "block_number", .int 1),
          (.str "token", .bytes (List.replicate 20 7)), (.str "amount", .int 300), (.str "index_in_tx", .int 3),
          (.str "is_finalized", .bool true)],
        [(.str "tx_hash", .bytes (List.replicate 32 1)), (.str "block_number", .int 1),
          (.str "token", .bytes (List.replicate 20 7)), (.str "amount", .int 400), (.str "index_in_tx", .int 0)]]]
    ∃ batches e, s.drain (.int 2) 3 =
        some (.ok batches, (s.writeTables s.connection.tables.settle).withEngine fun _ => e) ∧
      batches.length = 2 ∧ (∀ b ∈ batches, b ≠ []) ∧
      (batches.flatten.map StoredWithdrawal.toRow).Perm (s.connection.tables.withdrawals.filter WithdrawalRow.isPending) ∧
      batches.flatten.Pairwise fun a b => a.scanCompare b = .lt := by
  intro s
  have rows : s.connection.tables.WellFormed := Opened.after_tables ⟨rfl, rfl, rfl⟩ (by decide)
  have pending : (s.connection.tables.withdrawals.filter WithdrawalRow.isPending).length = 3 := by decide +kernel
  obtain ⟨batches, e, run, count, nonempty, listed, ascending⟩ :=
    @drain_finalizes_backlog s rows (by decide +kernel) 2 (by decide) (by decide) 3 (by rw [pending]; decide)
  rw [pending] at count
  exact ⟨batches, e, run, count, nonempty, listed, ascending⟩

end Store

end BridgeLedger
