import BridgeLedger.Proofs.Store.Arguments

namespace BridgeLedger

namespace List

/-- The head of a list sorted by a total preorder is a least element of the list. -/
theorem head?_mergeSort_least {α : Type} {le : α → α → Bool} (trans : ∀ a b c, le a b → le b c → le a c)
    (total : ∀ a b, (le a b || le b a) = true) {l : List α} {x : α} (first : (l.mergeSort le).head? = some x) :
    x ∈ l ∧ ∀ y ∈ l, le x y = true := by
  obtain ⟨rest, sorted⟩ := List.head?_eq_some_iff.mp first
  have same := List.mergeSort_perm l le
  have ordered := List.pairwise_mergeSort trans total l
  rw [sorted] at same ordered
  refine ⟨same.mem_iff.mp List.mem_cons_self, fun y member => ?_⟩
  rcases List.mem_cons.mp (same.mem_iff.mpr member) with rfl | later
  · have reflexive := total y y
    rwa [Bool.or_self] at reflexive
  · exact List.rel_of_pairwise_cons ordered later

theorem head?_mergeSort_eq_none {α : Type} {le : α → α → Bool} {l : List α} :
    (l.mergeSort le).head? = none ↔ l = [] := by
  rw [List.head?_eq_none_iff]
  constructor
  · intro empty
    have same := List.mergeSort_perm l le
    rw [empty] at same
    exact same.symm.eq_nil
  · rintro rfl
    exact List.mergeSort_nil

end List

theorem Cell.le_integer_natCast (m n : Nat) : (Cell.integer m).le (.integer n) = decide (m ≤ n) := by
  rw [Cell.le, Cell.compare_integer_natCast, Bool.eq_iff_iff, bne_iff_ne, decide_eq_true_iff]
  exact Nat.compare_ne_gt

namespace StoredWithdrawal

/-- Withdrawals joined with block rows, in the order of their positions. -/
def byPosition (a b : StoredWithdrawal × BlockRow) : Bool := decide (a.1.indexInTx.toNat ≤ b.1.indexInTx.toNat)

theorem byPosition_trans (a b c : StoredWithdrawal × BlockRow) (first : byPosition a b = true)
    (second : byPosition b c = true) : byPosition a c = true := by
  simp only [byPosition, decide_eq_true_eq] at first second ⊢
  omega

theorem byPosition_total (a b : StoredWithdrawal × BlockRow) : (byPosition a b || byPosition b a) = true := by
  simp only [byPosition, Bool.or_eq_true, decide_eq_true_eq]
  omega

/-- A withdrawal's row passes the lookup's filter exactly when the withdrawal has the hash, and
the position when one is given. -/
theorem picked_toRow (w : StoredWithdrawal) (h : TxHash) (index : Option (Word .w32)) :
    (w.toRow.txHash.same (.blob h.data) && (index.map fun i => Cell.integer i.toNat).all (w.toRow.index.same ·)) =
      (decide (w.event.txHash = h) && index.all fun i => decide (w.indexInTx = i)) := by
  have hashes : w.toRow.txHash.same (.blob h.data) = decide (w.event.txHash = h) := by
    rw [Bool.eq_iff_iff, decide_eq_true_iff, toRow, Cell.same_blob, FixedBytes.ext_iff]
  rw [hashes]
  cases index with
  | none => rfl
  | some i =>
    have positions : w.toRow.index.same (.integer i.toNat) = decide (w.indexInTx = i) := by
      rw [Bool.eq_iff_iff, decide_eq_true_iff, toRow, Cell.same_integer, Int.natCast_inj, Word.ext_iff]
    simp only [Option.map_some, Option.all_some, positions]

end StoredWithdrawal

namespace Tables

/-- The stored withdrawals of a hash, and of a position when one is given, whose block has a row,
each with that row: what the phase lookup joins. -/
def phaseCandidates (t : Tables) (ws : List StoredWithdrawal) (h : TxHash) (index : Option (Word .w32)) :
    List (StoredWithdrawal × BlockRow) :=
  (ws.filter fun w => decide (w.event.txHash = h) && index.all fun i => decide (w.indexInTx = i)).filterMap
    fun w => (t.block? w.event.blockNumber.toNat).map (w, ·)

theorem mem_phaseCandidates {t : Tables} {ws : List StoredWithdrawal} {h : TxHash} {index : Option (Word .w32)}
    {x : StoredWithdrawal × BlockRow} :
    x ∈ t.phaseCandidates ws h index ↔ x.1 ∈ ws ∧ x.1.event.txHash = h ∧ (∀ i ∈ index, x.1.indexInTx = i) ∧
      t.block? x.1.event.blockNumber.toNat = some x.2 := by
  obtain ⟨w, b⟩ := x
  simp only [phaseCandidates, List.mem_filterMap, List.mem_filter, Option.map_eq_some_iff, Prod.mk.injEq,
    Bool.and_eq_true, decide_eq_true_eq, Option.all_eq_true]
  constructor
  · rintro ⟨w', ⟨member, hashed, positioned⟩, b', found, rfl, rfl⟩
    exact ⟨member, hashed, positioned, found⟩
  · rintro ⟨member, hashed, positioned, found⟩
    exact ⟨w, ⟨member, hashed, positioned⟩, b, found, rfl, rfl⟩

/-- On tables holding withdrawals, the lookup finds the phase cell of the block row of the first
candidate by position. -/
theorem Holds.phaseCell? {t : Tables} {ws : List StoredWithdrawal} (holds : t.Holds ws) (p : Phase) (h : TxHash)
    (index : Option (Word .w32)) :
    t.phaseCell? p (.blob h.data) (index.map fun i => .integer i.toNat) =
      ((t.phaseCandidates ws h index).mergeSort StoredWithdrawal.byPosition).head?.map (·.2.phase p) := by
  -- the joined rows are the rows of the candidates, and the order of their position cells is
  -- the order of the positions
  have joined : ((t.withdrawals.filter fun r => r.txHash.same (.blob h.data) &&
        (index.map fun i => Cell.integer i.toNat).all (r.index.same ·)).filterMap
        fun r => (t.blockOf? r).map (r, ·)) =
      (t.phaseCandidates ws h index).map fun x => (x.1.toRow, x.2) := by
    rw [holds.rows, List.filter_map, List.filterMap_map, phaseCandidates, List.map_filterMap]
    have picked : ((fun r : WithdrawalRow => r.txHash.same (.blob h.data) &&
          (index.map fun i => Cell.integer i.toNat).all (r.index.same ·)) ∘ StoredWithdrawal.toRow) =
        fun w => decide (w.event.txHash = h) && index.all fun i => decide (w.indexInTx = i) := by
      funext w
      exact w.picked_toRow h index
    rw [picked]
    congr 1
    funext w
    rw [Option.map_map]
    rfl
  have ordered : ∀ a ∈ t.phaseCandidates ws h index, ∀ b ∈ t.phaseCandidates ws h index,
      StoredWithdrawal.byPosition a b = (a.1.toRow, a.2).1.index.le (b.1.toRow, b.2).1.index :=
    fun a _ b _ => (Cell.le_integer_natCast _ _).symm
  have sorted := @List.map_mergeSort _ _ StoredWithdrawal.byPosition
    (fun a b : WithdrawalRow × BlockRow => a.1.index.le b.1.index) (fun x => (x.1.toRow, x.2)) _ ordered
  unfold Tables.phaseCell?
  dsimp only
  rw [joined, ← sorted]
  cases (t.phaseCandidates ws h index).mergeSort StoredWithdrawal.byPosition with
  | nil => rfl
  | cons x rest => rfl

section Candidates

variable {t : Tables} {ws : List StoredWithdrawal} (holds : t.Holds ws) (p : Phase) (h : TxHash)
  (index : Option (Word .w32))

include holds

theorem Holds.phaseCell?_of_none (nothing : ∀ x, x ∉ t.phaseCandidates ws h index) :
    t.phaseCell? p (.blob h.data) (index.map fun i => .integer i.toNat) = none := by
  rw [holds.phaseCell?, List.head?_mergeSort_eq_none.mpr (List.eq_nil_iff_forall_not_mem.mpr nothing)]
  rfl

/-- The lookup finds the phase cell of a candidate's block row when every candidate that comes
first by position is that candidate's withdrawal. -/
theorem Holds.phaseCell?_of_first {w : StoredWithdrawal} {b : BlockRow}
    (candidate : (w, b) ∈ t.phaseCandidates ws h index)
    (first : ∀ x ∈ t.phaseCandidates ws h index,
      (∀ y ∈ t.phaseCandidates ws h index, StoredWithdrawal.byPosition x y = true) → x.1 = w) :
    t.phaseCell? p (.blob h.data) (index.map fun i => .integer i.toNat) = some (b.phase p) := by
  rw [holds.phaseCell?]
  cases found : ((t.phaseCandidates ws h index).mergeSort StoredWithdrawal.byPosition).head? with
  | none =>
    rw [List.head?_mergeSort_eq_none.mp found] at candidate
    cases candidate
  | some x =>
    obtain ⟨member, least⟩ :=
      List.head?_mergeSort_least StoredWithdrawal.byPosition_trans StoredWithdrawal.byPosition_total found
    have atW := first x member least
    -- both rows are the block row of `w`'s block
    have rowX := (mem_phaseCandidates.mp member).2.2.2
    have rowB := (mem_phaseCandidates.mp candidate).2.2.2
    rw [atW] at rowX
    rw [rowX] at rowB
    cases rowB
    rfl

end Candidates

theorem Holds.find?_of_phaseCandidate {t : Tables} {ws : List StoredWithdrawal} (holds : t.Holds ws) {h : TxHash}
    {i : Word .w32} {x : StoredWithdrawal × BlockRow} (member : x ∈ t.phaseCandidates ws h (some i)) :
    ws.find? (fun w => decide (w.key = (h, i))) = some x.1 := by
  obtain ⟨stored, hashed, positioned, -⟩ := mem_phaseCandidates.mp member
  have key : x.1.key = (h, i) := by rw [StoredWithdrawal.key, hashed, positioned i rfl]
  rw [← key]
  exact StoredWithdrawal.find?_key_of_mem holds.keys stored

/-- With a position, the lookup finds the phase cell of the block row of the withdrawal with the
key, when the withdrawal and its block row exist. -/
theorem Holds.phaseCell?_some {t : Tables} {ws : List StoredWithdrawal} (holds : t.Holds ws) (p : Phase)
    (h : TxHash) (i : Word .w32) :
    t.phaseCell? p (.blob h.data) ((some i).map fun i => .integer i.toNat) =
      ((ws.find? fun w => decide (w.key = (h, i))).bind fun w => t.block? w.event.blockNumber.toNat).map
        (·.phase p) := by
  -- every candidate is the withdrawal with the key
  cases found : ws.find? fun w => decide (w.key = (h, i)) with
  | none =>
    refine holds.phaseCell?_of_none p h (some i) fun x member => ?_
    rw [holds.find?_of_phaseCandidate member] at found
    cases found
  | some w =>
    rw [Option.bind_some]
    cases recorded : t.block? w.event.blockNumber.toNat with
    | none =>
      refine holds.phaseCell?_of_none p h (some i) fun x member => ?_
      have atW : x.1 = w := Option.some.inj ((holds.find?_of_phaseCandidate member).symm.trans found)
      have row := (mem_phaseCandidates.mp member).2.2.2
      rw [atW, recorded] at row
      cases row
    | some b =>
      have stored := List.mem_of_find?_eq_some found
      have key : w.key = (h, i) := by simpa using List.find?_some found
      have candidate : (w, b) ∈ t.phaseCandidates ws h (some i) := by
        refine mem_phaseCandidates.mpr ⟨stored, congrArg Prod.fst key, fun j atJ => ?_, recorded⟩
        cases atJ
        exact congrArg Prod.snd key
      exact holds.phaseCell?_of_first p h (some i) candidate fun x member _ =>
        Option.some.inj ((holds.find?_of_phaseCandidate member).symm.trans found)

/-- Without a position, the lookup finds nothing when no withdrawal of the hash has a block row. -/
theorem Holds.phaseCell?_none_of_unrecorded {t : Tables} {ws : List StoredWithdrawal} (holds : t.Holds ws)
    (p : Phase) (h : TxHash) (unrecorded : ∀ w ∈ ws, w.event.txHash = h → t.block? w.event.blockNumber.toNat = none) :
    t.phaseCell? p (.blob h.data) ((none : Option (Word .w32)).map fun i => .integer i.toNat) = none := by
  refine holds.phaseCell?_of_none p h none fun x member => ?_
  obtain ⟨stored, hashed, -, row⟩ := mem_phaseCandidates.mp member
  rw [unrecorded x.1 stored hashed] at row
  cases row

/-- Without a position, the lookup finds what it finds at the lowest position of the hash whose
block has a row. -/
theorem Holds.phaseCell?_none_of_lowest {t : Tables} {ws : List StoredWithdrawal} (holds : t.Holds ws)
    (p : Phase) (h : TxHash) {w : StoredWithdrawal} (stored : w ∈ ws) (hashed : w.event.txHash = h)
    (recorded : (t.block? w.event.blockNumber.toNat).isSome)
    (lowest : ∀ w' ∈ ws, w'.event.txHash = h → (t.block? w'.event.blockNumber.toNat).isSome →
      w.indexInTx.toNat ≤ w'.indexInTx.toNat) :
    t.phaseCell? p (.blob h.data) ((none : Option (Word .w32)).map fun i => .integer i.toNat) =
      t.phaseCell? p (.blob h.data) ((some w.indexInTx).map fun i => .integer i.toNat) := by
  obtain ⟨b, row⟩ := Option.isSome_iff_exists.mp recorded
  have candidate : (w, b) ∈ t.phaseCandidates ws h none :=
    mem_phaseCandidates.mpr ⟨stored, hashed, fun _ absent => (by cases absent), row⟩
  have found : ws.find? (fun w' => decide (w'.key = (h, w.indexInTx))) = some w := by
    rw [← hashed]
    exact StoredWithdrawal.find?_key_of_mem holds.keys stored
  rw [holds.phaseCell?_some p h w.indexInTx, found]
  simp only [Option.bind_some, row, Option.map_some]
  -- the first candidate by position is at a position no higher than `w`'s, and none is lower
  refine holds.phaseCell?_of_first p h none candidate fun x member least => ?_
  obtain ⟨storedX, hashedX, -, rowX⟩ := mem_phaseCandidates.mp member
  have below : x.1.indexInTx.toNat ≤ w.indexInTx.toNat := of_decide_eq_true (least (w, b) candidate)
  have above := lowest x.1 storedX hashedX (by rw [rowX]; rfl)
  have samePosition : x.1.indexInTx = w.indexInTx := Word.ext (by omega)
  refine StoredWithdrawal.eq_of_key_eq holds.keys storedX stored ?_
  rw [StoredWithdrawal.key, StoredWithdrawal.key, hashedX, hashed, samePosition]

theorem WellFormed.block_fits {t : Tables} (wf : t.WellFormed) {ws : List StoredWithdrawal} (holds : t.Holds ws)
    {w : StoredWithdrawal} (stored : w ∈ ws) : w.event.blockNumber.toNat ≤ storableMaximum := by
  have row : w.toRow ∈ t.withdrawals := by
    rw [holds.rows]
    exact List.mem_map_of_mem stored
  obtain ⟨n, fits, atN⟩ := (wf.withdrawals w.toRow row).block
  have same : (w.event.blockNumber.toNat : Int) = n := Cell.integer.inj atN
  omega

end Tables

theorem Lifecycle.getD_phase (l? : Option Lifecycle) (p : Phase) :
    ((l?.map Lifecycle.toRow).map (·.phase p)).getD .null = Cell.ofBlock? (l?.bind (·.l1Block p)) := by
  cases l? with
  | none => rfl
  | some l => exact l.phase_toRow p

namespace Store

/-- The L1 block in which the block of the withdrawal with a key went through a phase, read
through the point lookups: the withdrawal, then the lifecycle of its L2 block; none when either
is missing. -/
def phaseByLookups (s : Store) (p : Phase) (h : TxHash) (i : Word .w32) : Except Fault (Option (Word .w64)) :=
  (s.getWithdrawal (.bytes h.data) (.int i.toNat)).1 >>= fun
    | none => pure none
    | some w => (s.lifecycle (.int w.event.blockNumber.toNat)).1 >>= fun l => pure (l.bind (·.l1Block p))

section Lookups

variable {s : Store} (rows : s.connection.tables.WellFormed) (connected : s.connection.closed = false)

include rows connected

theorem phaseL1Block_of_cell (p : Phase) (h : TxHash) (index : Option (Word .w32)) {b : Option (Word .w64)}
    (cell : (s.connection.tables.phaseCell? p (.blob h.data) (index.map fun i => .integer i.toNat)).getD .null =
      Cell.ofBlock? b) :
    (s.phaseL1Block p (.bytes h.data) (index.map fun i => .int i.toNat)).1 = .ok b := by
  obtain ⟨answer, done, found⟩ := phaseL1Block_answer rows connected p h index
  rw [done, Cell.ofBlock?_inj (found.symm.trans cell)]

theorem block?_of_lifecycle {n : Word .w64} (fits : n.toNat ≤ storableMaximum) {l? : Option Lifecycle}
    (asked : (s.lifecycle (.int n.toNat)).1 = .ok l?) :
    s.connection.tables.block? n.toNat = l?.map Lifecycle.toRow := by
  obtain ⟨answer, done, mapped⟩ := lifecycle_answer rows connected n fits
  rw [done] at asked
  cases asked
  exact mapped.symm

/-- A block has a lifecycle exactly when it has a row. -/
theorem lifecycle_some_iff {n : Word .w64} (fits : n.toNat ≤ storableMaximum) :
    (∃ l, (s.lifecycle (.int n.toNat)).1 = .ok (some l)) ↔ (s.connection.tables.block? n.toNat).isSome := by
  obtain ⟨answer, done, mapped⟩ := lifecycle_answer rows connected n fits
  rw [done, ← mapped]
  cases answer with
  | none => exact ⟨fun ⟨_, same⟩ => (by cases same), fun present => (by cases present)⟩
  | some l => exact ⟨fun _ => rfl, fun _ => ⟨l, rfl⟩⟩

/-- With a position, the phase lookup answers what the lookup of the withdrawal and then of the
lifecycle of its block answer. -/
theorem phaseL1Block_eq_phaseByLookups (p : Phase) (h : TxHash) (i : Word .w32) :
    (s.phaseL1Block p (.bytes h.data) (some (.int i.toNat))).1 = s.phaseByLookups p h i := by
  obtain ⟨ws, holds⟩ := rows.holds
  have cell := holds.phaseCell?_some p h i
  unfold phaseByLookups
  rw [getWithdrawal_answer holds connected h i]
  cases found : ws.find? fun w => decide (w.key = (h, i)) with
  | none =>
    rw [found] at cell
    exact phaseL1Block_of_cell rows connected p h (some i) (by rw [cell]; rfl)
  | some w =>
    have fits := rows.block_fits holds (List.mem_of_find?_eq_some found)
    obtain ⟨l?, asked, mapped⟩ := lifecycle_answer rows connected w.event.blockNumber fits
    rw [found, Option.bind_some, ← mapped] at cell
    have lookups : (Except.ok (some w) >>= fun
        | none => pure none
        | some w => (s.lifecycle (.int w.event.blockNumber.toNat)).1 >>= fun l => pure (l.bind (·.l1Block p)) :
          Except Fault (Option (Word .w64))) = .ok (l?.bind (·.l1Block p)) := by
      show (s.lifecycle (.int w.event.blockNumber.toNat)).1 >>= _ = _
      rw [asked]
      rfl
    rw [lookups]
    exact phaseL1Block_of_cell rows connected p h (some i) (by rw [cell]; exact Lifecycle.getD_phase l? p)

/-- For every hash, the phase lookup with a position answers what the point lookups answer, and
without a position it answers what it answers at the lowest position among the withdrawals of the
hash whose block has a lifecycle row, or none when no withdrawal of the hash has one. -/
theorem phaseL1Block_lowest_recorded (p : Phase) (h : TxHash) :
    (∀ i : Word .w32, (s.phaseL1Block p (.bytes h.data) (some (.int i.toNat))).1 = s.phaseByLookups p h i) ∧
    ∃ ws : List StoredWithdrawal, s.connection.tables.withdrawals = ws.map StoredWithdrawal.toRow ∧
      ((∀ w ∈ ws, w.event.txHash = h → (s.lifecycle (.int w.event.blockNumber.toNat)).1 = .ok none) →
        (s.phaseL1Block p (.bytes h.data) none).1 = .ok none) ∧
      ∀ w ∈ ws, w.event.txHash = h → (∃ l, (s.lifecycle (.int w.event.blockNumber.toNat)).1 = .ok (some l)) →
        (∀ w' ∈ ws, w'.event.txHash = h → (∃ l, (s.lifecycle (.int w'.event.blockNumber.toNat)).1 = .ok (some l)) →
          w.indexInTx.toNat ≤ w'.indexInTx.toNat) →
        (s.phaseL1Block p (.bytes h.data) none).1 = (s.phaseL1Block p (.bytes h.data) (some (.int w.indexInTx.toNat))).1 := by
  obtain ⟨ws, holds⟩ := rows.holds
  have fits := fun {w} (stored : w ∈ ws) => rows.block_fits holds stored
  refine ⟨phaseL1Block_eq_phaseByLookups rows connected p h, ws, holds.rows, fun unrecorded => ?_,
    fun w stored hashed recorded lowest => ?_⟩
  · have nothing := holds.phaseCell?_none_of_unrecorded p h fun w stored hashed => by
      rw [block?_of_lifecycle rows connected (fits stored) (unrecorded w stored hashed)]
      rfl
    exact phaseL1Block_of_cell rows connected p h none (by rw [nothing]; rfl)
  · have cells := holds.phaseCell?_none_of_lowest p h stored hashed
      ((lifecycle_some_iff rows connected (fits stored)).mp recorded)
      fun w' stored' hashed' recorded' => lowest w' stored' hashed' ((lifecycle_some_iff rows connected (fits stored')).mpr recorded')
    obtain ⟨answer, done, cell⟩ := phaseL1Block_answer rows connected p h (some w.indexInTx)
    exact (phaseL1Block_of_cell rows connected p h none (by rw [cells]; exact cell)).trans done.symm

end Lookups

/-- Two withdrawals of one hash, at positions zero and one in L2 blocks one and two, and a commit
recorded for block two only: without a position the lookup answers as at position one, the lowest
position whose block has a lifecycle, not as at position zero. -/
theorem phaseL1Block_lowest_recorded_split :
    let s := Store.after ⟨Settings.default, Connection.fresh⟩
      [.ingest [[(.str "tx_hash", .bytes (List.replicate 31 0 ++ [1])), (.str "block_number", .int 1),
          (.str "token", .bytes (List.replicate 20 187)), (.str "amount", .int 100), (.str "index_in_tx", .int 0)],
        [(.str "tx_hash", .bytes (List.replicate 31 0 ++ [1])), (.str "block_number", .int 2),
          (.str "token", .bytes (List.replicate 20 187)), (.str "amount", .int 100), (.str "index_in_tx", .int 1)]],
       .recordPhase (.str "commit") (.int 2) (.int 2) (.int 7)]
    (s.phaseL1Block .commit (.bytes (List.replicate 31 0 ++ [1])) none).1 =
      (s.phaseL1Block .commit (.bytes (List.replicate 31 0 ++ [1])) (some (.int 1))).1 := by
  intro s
  have rows : s.connection.tables.WellFormed := Opened.after_tables ⟨rfl, rfl, rfl⟩ (by decide)
  have connected : s.connection.closed = false := by decide +kernel
  obtain ⟨-, ws, stored, -, lowest⟩ :=
    phaseL1Block_lowest_recorded rows connected .commit ⟨List.replicate 31 0 ++ [1], rfl⟩
  -- the rows decode to the two withdrawals of the hash, by hash, block and position
  have decoded : (s.connection.tables.withdrawals.mapM WithdrawalRow.decode).toOption.map
      (List.map fun w => (w.event.txHash.data, w.event.blockNumber.toNat, w.indexInTx.toNat)) =
      some [(List.replicate 31 0 ++ [1], 1, 0), (List.replicate 31 0 ++ [1], 2, 1)] := by
    decide +kernel
  rw [stored, StoredWithdrawal.mapM_decode_toRow] at decoded
  have keys := Option.some.inj decoded
  have blockOne : (s.connection.tables.block? ((1 : Nat) : Int)).isSome = false := by decide +kernel
  have blockTwo : (s.connection.tables.block? ((2 : Nat) : Int)).isSome = true := by decide +kernel
  obtain ⟨w, member, atOne⟩ := List.mem_map.mp (keys ▸ List.mem_cons_of_mem _ List.mem_cons_self)
  simp only [Prod.mk.injEq] at atOne
  obtain ⟨hash, two, one⟩ := atOne
  have fits : w.event.blockNumber.toNat ≤ storableMaximum := by rw [two]; decide
  have recorded := (lifecycle_some_iff rows connected fits).mpr (by rw [two]; exact blockTwo)
  have minimal : ∀ w' ∈ ws, w'.event.txHash = ⟨List.replicate 31 0 ++ [1], rfl⟩ →
      (∃ l, (s.lifecycle (.int w'.event.blockNumber.toNat)).1 = .ok (some l)) →
      w.indexInTx.toNat ≤ w'.indexInTx.toNat := by
    intro w' member' _ recorded'
    -- the other withdrawal of the hash sits in block one, which has no lifecycle
    have listed : (w'.event.txHash.data, w'.event.blockNumber.toNat, w'.indexInTx.toNat) ∈
        [(List.replicate 31 0 ++ [1], 1, 0), (List.replicate 31 0 ++ [1], 2, 1)] :=
      keys ▸ List.mem_map_of_mem member'
    simp only [List.mem_cons, List.not_mem_nil, or_false, Prod.mk.injEq] at listed
    rcases listed with ⟨-, first, -⟩ | ⟨-, -, same⟩
    · have fits' : w'.event.blockNumber.toNat ≤ storableMaximum := by rw [first]; decide
      have present := (lifecycle_some_iff rows connected fits').mp recorded'
      rw [first, blockOne] at present
      cases present
    · omega
  have answered := lowest w member (FixedBytes.ext hash) recorded minimal
  rw [one] at answered
  exact answered

/-- Two withdrawals of one transaction, at positions zero and one, in L2 blocks one and two, and a
commit recorded for block two only: without a position the lookup answers the commit of block two,
while at position zero, the lowest of the hash, it answers none. -/
theorem phaseL1Block_skips_lowest_unrecorded :
    let s := Store.after ⟨Settings.default, Connection.fresh⟩
      [.ingest [[(.str "tx_hash", .bytes (List.replicate 31 0 ++ [1])), (.str "block_number", .int 1),
          (.str "token", .bytes (List.replicate 20 187)), (.str "amount", .int 100), (.str "index_in_tx", .int 0)],
        [(.str "tx_hash", .bytes (List.replicate 31 0 ++ [1])), (.str "block_number", .int 2),
          (.str "token", .bytes (List.replicate 20 187)), (.str "amount", .int 100), (.str "index_in_tx", .int 1)]],
       .recordPhase (.str "commit") (.int 2) (.int 2) (.int 7)]
    (s.getWithdrawal (.bytes (List.replicate 31 0 ++ [1])) (.int 0)).1.toOption.map Option.isSome = some true ∧
      (s.phaseL1Block .commit (.bytes (List.replicate 31 0 ++ [1])) (some (.int 0))).1.toOption.map
        (·.map Word.toNat) = some none ∧
      (s.phaseL1Block .commit (.bytes (List.replicate 31 0 ++ [1])) none).1.toOption.map (·.map Word.toNat) =
        some (some 7) := by
  decide +kernel

end Store

end BridgeLedger
