import BridgeLedger.Proofs.Store.Drain

namespace BridgeLedger

namespace Cell

/-- A phase cell as the store writes it holds an L1 block, or none. -/
theorem StoredBlock.exists_ofBlock {c : Cell} (stored : c.StoredBlock) : ∃ b, Cell.ofBlock? b = c := by
  rcases stored with null | ⟨n, fits, atN⟩
  · exact ⟨none, null.symm⟩
  · have bounded : n < 2 ^ Width.w64.bits := Nat.lt_of_le_of_lt fits (by decide)
    exact ⟨some ⟨n, bounded⟩, atN.symm⟩

theorem StoredBlock.loadOptionalWord {c : Cell} (stored : c.StoredBlock) (column : String) :
    ∃ b, c.loadOptionalWord column = .ok b ∧ Cell.ofBlock? b = c := by
  obtain ⟨b, rfl⟩ := stored.exists_ofBlock
  exact ⟨b, Lifecycle.loadOptionalWord_ofBlock column b, rfl⟩

theorem ofBlock?_inj {a b : Option (Word .w64)} (same : Cell.ofBlock? a = Cell.ofBlock? b) : a = b := by
  cases a with
  | none => cases b with
    | none => rfl
    | some y => cases same
  | some x => cases b with
    | none => cases same
    | some y =>
      have numbers : (x.toNat : Int) = y.toNat := Cell.integer.inj same
      rw [Word.ext (Int.ofNat_inj.mp numbers)]

end Cell

namespace BlockRow

/-- A block row as the store writes it is the row of a lifecycle. -/
theorem Stored.exists_toRow {r : BlockRow} (stored : r.Stored) : ∃ l : Lifecycle, l.toRow = r := by
  obtain ⟨commit, atCommit⟩ := (stored.phase .commit).exists_ofBlock
  obtain ⟨verify, atVerify⟩ := (stored.phase .verify).exists_ofBlock
  obtain ⟨execute, atExecute⟩ := (stored.phase .execute).exists_ofBlock
  obtain ⟨low, high⟩ := stored.number
  have within : storableMaximum < 2 ^ Width.w64.bits := by decide
  have bounded : r.number.toNat < 2 ^ Width.w64.bits := by omega
  refine ⟨⟨⟨r.number.toNat, bounded⟩, commit, verify, execute⟩, BlockRow.ext_phase (Int.toNat_of_nonneg low) ?_⟩
  intro p
  rw [Lifecycle.phase_toRow]
  cases p
  · exact atCommit
  · exact atVerify
  · exact atExecute

end BlockRow

theorem List.foldl_of_forall {α : Type} {step : α → α → α} {P : α → Prop}
    (picks : ∀ a b, step a b = a ∨ step a b = b) :
    ∀ (xs : List α) (start : α), P start → (∀ x ∈ xs, P x) → P (xs.foldl step start)
  | [], _, holds, _ => holds
  | x :: rest, start, holds, each => by
    rw [List.foldl_cons]
    refine List.foldl_of_forall picks rest (step start x) ?_ fun y member => each y (List.mem_cons_of_mem x member)
    rcases picks start x with kept | taken
    · rw [kept]
      exact holds
    · rw [taken]
      exact each x List.mem_cons_self

/-- One step of `greatestCell`: the greater of the best cell so far and the next one, a null cell
being passed over. -/
def greaterCell (lastOfEqual : Bool) (best c : Cell) : Cell :=
  match c, best with
  | .null, _ => best
  | _, .null => c
  | _, _ => match best.compare c with
    | .lt => c
    | .eq => if lastOfEqual then c else best
    | .gt => best

theorem greatestCell_eq_foldl (lastOfEqual : Bool) (cs : List Cell) :
    greatestCell lastOfEqual cs = cs.foldl (greaterCell lastOfEqual) .null := rfl

theorem greaterCell_picks (lastOfEqual : Bool) (best c : Cell) :
    greaterCell lastOfEqual best c = best ∨ greaterCell lastOfEqual best c = c := by
  unfold greaterCell
  split
  · exact .inl rfl
  · exact .inr rfl
  · split
    · exact .inr rfl
    · split
      · exact .inr rfl
      · exact .inl rfl
    · exact .inl rfl

theorem greatestCell_of_forall {P : Cell → Prop} (null : P .null) (lastOfEqual : Bool) (cs : List Cell)
    (each : ∀ c ∈ cs, P c) : P (greatestCell lastOfEqual cs) := by
  rw [greatestCell_eq_foldl]
  exact List.foldl_of_forall (greaterCell_picks lastOfEqual) cs .null null each

namespace Tables

theorem WellFormed.block?_stored {t : Tables} (wf : t.WellFormed) {n : Int} {r : BlockRow}
    (found : t.block? n = some r) : r.Stored :=
  wf.blocks r (List.mem_of_find?_eq_some found)

/-- On tables holding withdrawals, the row with a key is the row of the withdrawal with the key. -/
theorem Holds.withdrawal? {t : Tables} {ws : List StoredWithdrawal} (holds : t.Holds ws) (k : WithdrawalKey) :
    t.withdrawal? k = (ws.find? fun w => decide (w.key = k)).map StoredWithdrawal.toRow := by
  unfold Tables.withdrawal?
  rw [holds.rows, List.find?_map]
  congr 2
  funext w
  exact w.hasKey_toRow k

theorem phaseCell?_mem {t : Tables} {p : Phase} {hash : Cell} {index : Option Cell} {c : Cell}
    (found : t.phaseCell? p hash index = some c) : ∃ b ∈ t.blocks, c = b.phase p := by
  unfold phaseCell? at found
  dsimp only at found
  split at found
  · rename_i w b rest sorted
    cases found
    have joined : (w, b) ∈ (t.withdrawals.filter _).filterMap fun r => (t.blockOf? r).map (r, ·) :=
      (List.mergeSort_perm _ _).mem_iff.mp (sorted ▸ List.mem_cons_self)
    obtain ⟨r, -, named⟩ := List.mem_filterMap.mp joined
    obtain ⟨b', atBlock, same⟩ := Option.map_eq_some_iff.mp named
    have atB : b' = b := (Prod.mk.inj same).2
    subst atB
    unfold blockOf? at atBlock
    split at atBlock
    · exact ⟨_, List.mem_of_find?_eq_some atBlock, rfl⟩
    · cases atBlock
  · cases found

/-- A phase cell that a lookup finds in well-formed tables holds an L1 block or none. -/
theorem WellFormed.phaseCell?_stored {t : Tables} (wf : t.WellFormed) {p : Phase} {hash : Cell}
    {index : Option Cell} {c : Cell} (found : t.phaseCell? p hash index = some c) : c.StoredBlock := by
  obtain ⟨b, member, rfl⟩ := phaseCell?_mem found
  exact (wf.blocks b member).phase p

theorem WellFormed.highestObserved {t : Tables} (wf : t.WellFormed) : t.highestObserved.StoredBlock := by
  refine greatestCell_of_forall (.inl rfl) true _ fun c member => ?_
  obtain ⟨r, row, rfl⟩ := List.mem_map.mp member
  obtain ⟨n, fits, atN⟩ := (wf.withdrawals r row).block
  exact .inr ⟨n, fits, atN⟩

theorem WellFormed.highestCommitted {t : Tables} (wf : t.WellFormed) : t.highestCommitted.StoredBlock := by
  refine greatestCell_of_forall (.inl rfl) false _ fun c member => ?_
  obtain ⟨r, row, rfl⟩ := List.mem_map.mp member
  -- the block rows in order are the block rows
  have kept : r ∈ t.blocks := (List.mergeSort_perm _ _).mem_iff.mp row
  exact (wf.blocks r kept).phase .commit

end Tables

theorem StoredWithdrawal.find?_key_of_mem {ws : List StoredWithdrawal} (keys : (ws.map key).Nodup)
    {w : StoredWithdrawal} (member : w ∈ ws) : ws.find? (fun w' => decide (w'.key = w.key)) = some w := by
  have named : (ws.find? fun w' => decide (w'.key = w.key)).isSome :=
    List.find?_isSome.mpr ⟨w, member, decide_eq_true rfl⟩
  obtain ⟨w', found⟩ := Option.isSome_iff_exists.mp named
  have same : w'.key = w.key := by simpa using List.find?_some found
  rw [found, eq_of_key_eq keys (List.mem_of_find?_eq_some found) member same]

/-- Lists strictly ascending in the order of the pending scan that hold the unfinalized
withdrawals are one list, the backlog. -/
theorem StoredWithdrawal.eq_backlog_of_ascending {ws B : List StoredWithdrawal} (keys : (ws.map key).Nodup)
    (same : B.Perm (ws.filter fun w => !w.isFinalized)) (ascending : B.Pairwise fun a b => a.scanCompare b = .lt) :
    B = backlog ws := by
  refine List.Perm.eq_of_pairwise (fun a b _ _ before after => ?_) ascending (backlog_ascending keys)
    (same.trans (backlog_perm ws).symm)
  -- no two withdrawals are each before the other
  have swapped : a.scanCompare b = (b.scanCompare a).swap := Std.OrientedCmp.eq_swap
  rw [before, after] at swapped
  cases swapped

namespace Store

/-- A lookup of a phase by a hash, and maybe a position, that pass their checks reads the phase
cell that the tables hold for them. -/
theorem phaseL1Block_checked (s : Store) (p : Phase) (h : TxHash) (index : Option (Word .w32)) :
    s.phaseL1Block p (.bytes h.data) (index.map fun i => .int i.toNat) =
      s.read (.phaseLookup p) (.phaseLookup p index.isSome) true fun t =>
        match t.phaseCell? p (.blob h.data) (index.map fun i => .integer i.toNat) with
        | some c => converted (c.loadOptionalWord p.column)
        | none => pure none := by
  unfold phaseL1Block
  cases index with
  | none =>
    simp only [Option.map_none, bytesArgument_bytes]
    rfl
  | some i =>
    simp only [Option.map_some, bytesArgument_bytes, wordArgument_int]
    rfl

section Answers

variable {s : Store} (rows : s.connection.tables.WellFormed) (connected : s.connection.closed = false)

include rows connected

/-- The watermark of L2 blocks answers on an open store with well-formed tables. -/
theorem highestObserved_ok : ∃ x, s.highestObserved.1 = .ok x := by
  obtain ⟨x, loaded, -⟩ := rows.highestObserved.loadOptionalWord "l2_block_number"
  refine ⟨x, ?_⟩
  unfold highestObserved
  rw [read_answer connected rfl, loaded]
  rfl

theorem highestCommitted_ok : ∃ x, s.highestCommitted.1 = .ok x := by
  obtain ⟨x, loaded, -⟩ := rows.highestCommitted.loadOptionalWord (Phase.column .commit)
  refine ⟨x, ?_⟩
  unfold highestCommitted
  rw [read_answer connected rfl, loaded]
  rfl

/-- The lifecycle of a block that a cell holds answers, with the lifecycle whose row is the
block's row, or none when the block has no row. -/
theorem lifecycle_answer (n : Word .w64) (fits : n.toNat ≤ storableMaximum) :
    ∃ answer, (s.lifecycle (.int n.toNat)).1 = .ok answer ∧
      answer.map Lifecycle.toRow = s.connection.tables.block? n.toNat := by
  unfold lifecycle
  simp only [wordArgument_int, checked]
  rw [read_answer connected (decide_eq_true fits)]
  cases found : s.connection.tables.block? n.toNat with
  | none => exact ⟨none, rfl, rfl⟩
  | some r =>
    obtain ⟨l, rfl⟩ := (rows.block?_stored found).exists_toRow
    refine ⟨some l, ?_, rfl⟩
    simp only [Lifecycle.decode_toRow]
    rfl

/-- A lookup of a phase by a hash, and maybe a position, answers the L1 block that the phase
cell it finds holds; none when it finds no cell. -/
theorem phaseL1Block_answer (p : Phase) (h : TxHash) (index : Option (Word .w32)) :
    ∃ answer, (s.phaseL1Block p (.bytes h.data) (index.map fun i => .int i.toNat)).1 = .ok answer ∧
      (s.connection.tables.phaseCell? p (.blob h.data) (index.map fun i => .integer i.toNat)).getD .null =
        Cell.ofBlock? answer := by
  rw [phaseL1Block_checked, read_answer connected rfl]
  cases found : s.connection.tables.phaseCell? p (.blob h.data) (index.map fun i => .integer i.toNat) with
  | none => exact ⟨none, rfl, rfl⟩
  | some c =>
    obtain ⟨b, loaded, atB⟩ := (rows.phaseCell?_stored found).loadOptionalWord p.column
    refine ⟨b, ?_, atB.symm⟩
    simp only [loaded]
    rfl

end Answers

/-- The withdrawal with a key answers, on an open store holding withdrawals, the withdrawal with
the key. -/
theorem getWithdrawal_answer {s : Store} {ws : List StoredWithdrawal} (holds : s.connection.tables.Holds ws)
    (connected : s.connection.closed = false) (h : TxHash) (i : Word .w32) :
    (s.getWithdrawal (.bytes h.data) (.int i.toNat)).1 = .ok (ws.find? fun w => decide (w.key = (h, i))) := by
  unfold getWithdrawal
  simp only [keyArgument_key, checked]
  rw [read_answer connected rfl, holds.withdrawal?]
  cases ws.find? fun w => decide (w.key = (h, i)) with
  | none => rfl
  | some w =>
    simp only [Option.map_some, StoredWithdrawal.decode_toRow]
    rfl

/-- The limit of a pending scan, given or taken from the settings, is the positive integer it
names. -/
theorem pendingLimit_of_getD {s : Store} {limit : Option Operand} {L : Nat}
    (given : limit.getD (.plain (.int s.settings.pendingLimit)) = .plain (.int L)) (positive : 1 ≤ L) :
    s.pendingLimit limit = .ok L := by
  cases limit with
  | none =>
    have same : s.settings.pendingLimit = L := Int.ofNat_inj.mp (Value.int.inj (Operand.plain.inj given))
    rw [pendingLimit, same]
  | some v =>
    rw [Option.getD_some] at given
    rw [given, pendingLimit, if_pos (by omega), Int.toNat_natCast]

/-- A pending scan whose limit, given or the settings', is an integer from one to the greatest cell
value answers, on an open, well-formed store, the first `L` unfinalized withdrawals in the scan's
order of block, hash bytes and position, each what a lookup of its key answers. -/
theorem pending_takes_oldest {s : Store} (rows : s.connection.tables.WellFormed)
    (connected : s.connection.closed = false) {limit : Option Operand} {L : Nat}
    (given : limit.getD (.plain (.int s.settings.pendingLimit)) = .plain (.int L)) (positive : 1 ≤ L)
    (bounded : L ≤ storableMaximum) :
    ∃ answer, (s.pending limit).1 = .ok answer ∧
      ∃ ws : List StoredWithdrawal, s.connection.tables.withdrawals = ws.map StoredWithdrawal.toRow ∧
        (∃ B : List StoredWithdrawal, B.Perm (ws.filter fun w => !w.isFinalized) ∧
          B.Pairwise fun a b => a.scanCompare b = .lt) ∧
        (∀ B : List StoredWithdrawal, B.Perm (ws.filter fun w => !w.isFinalized) →
          (B.Pairwise fun a b => a.scanCompare b = .lt) → answer = B.take L) ∧
        answer.length = min L (ws.filter fun w => !w.isFinalized).length ∧
        ∀ w ∈ answer, w.isFinalized = false ∧
          (s.getWithdrawal (.bytes w.event.txHash.data) (.int w.indexInTx.toNat)).1 = .ok (some w) := by
  obtain ⟨ws, holds⟩ := rows.holds
  refine ⟨_, pending_answer holds connected (pendingLimit_of_getD given positive) bounded, ws, holds.rows,
    ⟨_, StoredWithdrawal.backlog_perm ws, StoredWithdrawal.backlog_ascending holds.keys⟩,
    fun B same ascending => ?_, ?_, fun w member => ?_⟩
  · rw [StoredWithdrawal.eq_backlog_of_ascending holds.keys same ascending]
  · rw [List.length_take, (StoredWithdrawal.backlog_perm ws).length_eq]
  · obtain ⟨stored, unfinalized⟩ := StoredWithdrawal.mem_backlog (List.mem_of_mem_take member)
    refine ⟨unfinalized, ?_⟩
    rw [getWithdrawal_answer holds connected]
    exact congrArg Except.ok (StoredWithdrawal.find?_key_of_mem holds.keys stored)

/-- A store given four withdrawals out of the scan's order, one of them finalized: a scan limited to
two answers two of the three pending ones, the first two in the scan's order, each unfinalized and
what a lookup of its key answers. -/
theorem pending_takes_oldest_ingested :
    let s := Store.after ⟨Settings.default, Connection.fresh⟩
      [.ingest [[(.str "tx_hash", .bytes (List.replicate 32 2)), (.str "block_number", .int 1),
          (.str "token", .bytes (List.replicate 20 7)), (.str "amount", .int 100), (.str "index_in_tx", .int 0)],
        [(.str "tx_hash", .bytes (List.replicate 32 1)), (.str "block_number", .int 2),
          (.str "token", .bytes (List.replicate 20 7)), (.str "amount", .int 200), (.str "index_in_tx", .int 1)],
        [(.str "tx_hash", .bytes (List.replicate 32 1)), (.str "block_number", .int 1),
          (.str "token", .bytes (List.replicate 20 7)), (.str "amount", .int 300), (.str "index_in_tx", .int 3),
          (.str "is_finalized", .bool true)],
        [(.str "tx_hash", .bytes (List.replicate 32 1)), (.str "block_number", .int 1),
          (.str "token", .bytes (List.replicate 20 7)), (.str "amount", .int 400), (.str "index_in_tx", .int 0)]]]
    ∃ answer, (s.pending (some (.plain (.int 2)))).1 = .ok answer ∧ answer.length = 2 ∧
      ∃ ws : List StoredWithdrawal, s.connection.tables.withdrawals = ws.map StoredWithdrawal.toRow ∧
        (ws.filter fun w => !w.isFinalized).length = 3 ∧
        (∀ B : List StoredWithdrawal, B.Perm (ws.filter fun w => !w.isFinalized) →
          (B.Pairwise fun a b => a.scanCompare b = .lt) → answer = B.take 2) ∧
        ∀ w ∈ answer, w.isFinalized = false ∧
          (s.getWithdrawal (.bytes w.event.txHash.data) (.int w.indexInTx.toNat)).1 = .ok (some w) := by
  intro s
  have rows : s.connection.tables.WellFormed := Opened.after_tables ⟨rfl, rfl, rfl⟩ (by decide)
  obtain ⟨answer, done, ws, stored, -, taken, length, found⟩ :=
    @pending_takes_oldest s rows (by decide +kernel) (some (.plain (.int 2))) 2 rfl (by decide) (by decide)
  -- three rows are pending, and a row is pending exactly when its withdrawal is not finalized
  have pending : (ws.filter fun w => !w.isFinalized).length = 3 := by
    have counted : (s.connection.tables.withdrawals.filter WithdrawalRow.isPending).length = 3 := by decide +kernel
    rw [stored, List.filter_map, List.length_map] at counted
    simpa only [Function.comp_def, StoredWithdrawal.isPending_toRow] using counted
  exact ⟨answer, done, by rw [length, pending]; rfl, ws, stored, pending, taken, found⟩

end Store

end BridgeLedger
