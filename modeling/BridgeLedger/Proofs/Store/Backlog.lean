import BridgeLedger.Proofs.Store.Commute

namespace BridgeLedger

namespace Cell

theorem compare_integer_natCast (m n : Nat) : (Cell.integer m).compare (.integer n) = Ord.compare m n := by
  simp only [Cell.compare, Ord.compare, compareOfLessAndEq, Int.ofNat_lt, Int.natCast_inj]

theorem compareBytes_eq_compare : ∀ a b : List UInt8, Value.compareBytes a b = Ord.compare a b
  | [], [] => rfl
  | [], _ :: _ => rfl
  | _ :: _, [] => rfl
  | x :: xs, y :: ys => by
    rw [List.compare_eq_compareLex, List.compareLex_cons_cons, Value.compareBytes, compareBytes_eq_compare xs ys,
      List.compare_eq_compareLex]
    cases Ord.compare x y <;> rfl

theorem compare_blob (a b : List UInt8) : (Cell.blob a).compare (.blob b) = Ord.compare a b :=
  compareBytes_eq_compare a b

end Cell

namespace StoredWithdrawal

/-- The order of the pending scan on withdrawals: by L2 block, then by the bytes of the hash in
lexicographic order, then by position. -/
def scanCompare : StoredWithdrawal → StoredWithdrawal → Ordering :=
  compareLex (compareOn fun w => w.event.blockNumber.toNat)
    (compareLex (compareOn fun w => w.event.txHash.data) (compareOn fun w => w.indexInTx.toNat))

instance : Std.TransCmp scanCompare := inferInstanceAs (Std.TransCmp (compareLex _ _))

theorem scanCompare_total (a b : StoredWithdrawal) : ((a.scanCompare b).isLE || (b.scanCompare a).isLE) = true := by
  by_cases before : (a.scanCompare b).isLE = true
  · rw [before, Bool.true_or]
  · rw [Std.OrientedCmp.lt_of_not_isLE before, Ordering.isLE_lt, Bool.or_true]

/-- Only withdrawals of one key tie in the scan's order. -/
theorem key_of_scanCompare_eq {a b : StoredWithdrawal} (tie : a.scanCompare b = .eq) : a.key = b.key := by
  simp only [scanCompare, compareLex_eq_eq, compareOn, Std.LawfulEqOrd.compare_eq_iff_eq] at tie
  obtain ⟨-, hashes, indices⟩ := tie
  have hash : a.event.txHash = b.event.txHash := FixedBytes.ext hashes
  have index : a.indexInTx = b.indexInTx := Word.ext indices
  rw [key, key, hash, index]

/-- On the rows of withdrawals the scan's order is the order of the withdrawals. -/
theorem pendingOrder_toRow (a b : StoredWithdrawal) :
    Tables.pendingOrder a.toRow b.toRow = (a.scanCompare b).isLE := by
  simp only [Tables.pendingOrder, toRow, Cell.le, Cell.compare_integer_natCast, Cell.compare_blob, scanCompare,
    compareLex, compareOn]
  cases compare a.event.blockNumber.toNat b.event.blockNumber.toNat <;>
    cases compare a.event.txHash.data b.event.txHash.data <;> cases compare a.indexInTx.toNat b.indexInTx.toNat <;> rfl

theorem isPending_toRow (w : StoredWithdrawal) : w.toRow.isPending = !w.isFinalized := by
  cases flag : w.isFinalized <;> simp [toRow, WithdrawalRow.isPending, Cell.truth, flag]

/-- The withdrawals not yet finalized, in the order of the pending scan. -/
def backlog (ws : List StoredWithdrawal) : List StoredWithdrawal :=
  (ws.filter fun w => !w.isFinalized).mergeSort fun a b => (a.scanCompare b).isLE

theorem backlog_perm (ws : List StoredWithdrawal) : (backlog ws).Perm (ws.filter fun w => !w.isFinalized) :=
  List.mergeSort_perm _ _

theorem backlog_pairwise (ws : List StoredWithdrawal) :
    (backlog ws).Pairwise fun a b => (a.scanCompare b).isLE = true :=
  List.pairwise_mergeSort (fun _ _ _ => Std.TransCmp.isLE_trans) scanCompare_total _

theorem mem_backlog {ws : List StoredWithdrawal} {w : StoredWithdrawal} (member : w ∈ backlog ws) :
    w ∈ ws ∧ w.isFinalized = false := by
  have filtered := List.mem_filter.mp ((backlog_perm ws).mem_iff.mp member)
  exact ⟨filtered.1, by simpa using filtered.2⟩

theorem backlog_keys {ws : List StoredWithdrawal} (keys : (ws.map key).Nodup) : ((backlog ws).map key).Nodup :=
  ((backlog_perm ws).map key).nodup_iff.mpr (keys.sublist ((List.filter_sublist).map key))

/-- The backlog is in strictly ascending order, its keys being distinct. -/
theorem backlog_ascending {ws : List StoredWithdrawal} (keys : (ws.map key).Nodup) :
    (backlog ws).Pairwise fun a b => a.scanCompare b = .lt := by
  have distinct := List.pairwise_map.mp (backlog_keys keys)
  refine ((backlog_pairwise ws).and distinct).imp fun {a b} ⟨before, other⟩ => ?_
  cases order : a.scanCompare b with
  | lt => rfl
  | eq => exact absurd (key_of_scanCompare_eq order) other
  | gt => rw [order] at before; cases before

/-- The withdrawals after finalizing some keys. -/
def finalizeAll (ks : List WithdrawalKey) (ws : List StoredWithdrawal) : List StoredWithdrawal :=
  ws.map fun w => w.finalizedWhen (decide (w.key ∈ ks))

theorem keys_finalizeAll (ks : List WithdrawalKey) (ws : List StoredWithdrawal) :
    (finalizeAll ks ws).map key = ws.map key := by
  rw [finalizeAll, List.map_map]
  rfl

/-- Finalizing keys leaves unfinalized exactly the unfinalized withdrawals of other keys, as they
were. -/
theorem unfinalized_finalizeAll (ks : List WithdrawalKey) (ws : List StoredWithdrawal) :
    (finalizeAll ks ws).filter (fun w => !w.isFinalized) =
      (ws.filter fun w => !w.isFinalized).filter fun w => !decide (w.key ∈ ks) := by
  rw [finalizeAll, List.filter_map, List.filter_filter]
  have same : ((fun w : StoredWithdrawal => !w.isFinalized) ∘
      fun w : StoredWithdrawal => w.finalizedWhen (decide (w.key ∈ ks))) =
      fun w => !decide (w.key ∈ ks) && !w.isFinalized := by
    funext w
    simp only [Function.comp_apply, finalizedWhen]
    cases w.isFinalized <;> cases decide (w.key ∈ ks) <;> rfl
  have kept : ∀ w ∈ ws.filter (fun w => !decide (w.key ∈ ks) && !w.isFinalized),
      w.finalizedWhen (decide (w.key ∈ ks)) = w := by
    intro w member
    simp only [List.mem_filter, Bool.and_eq_true, Bool.not_eq_true'] at member
    rw [member.2.1, finalizedWhen_false]
  rw [same, List.map_congr_left kept, List.map_id']

/-- Withdrawals with distinct keys are told apart by their keys. -/
theorem eq_of_key_eq {ws : List StoredWithdrawal} (keys : (ws.map key).Nodup) {a b : StoredWithdrawal}
    (first : a ∈ ws) (second : b ∈ ws) (same : a.key = b.key) : a = b := by
  induction ws with
  | nil => cases first
  | cons w rest ih =>
    rw [List.map_cons, List.nodup_cons] at keys
    rcases List.mem_cons.mp first with atHead | inRest
    · rcases List.mem_cons.mp second with atHead' | inRest'
      · rw [atHead, atHead']
      · rw [atHead] at same
        exact absurd (by rw [same]; exact List.mem_map_of_mem inRest') keys.1
    · rcases List.mem_cons.mp second with atHead' | inRest'
      · rw [atHead'] at same
        exact absurd (by rw [← same]; exact List.mem_map_of_mem inRest) keys.1
      · exact ih keys.2 inRest inRest'

/-- Of withdrawals with distinct keys, those whose key is none of the first `L` are the rest. -/
theorem filter_keys_take {B : List StoredWithdrawal} (keys : (B.map key).Nodup) (L : Nat) :
    B.filter (fun w => !decide (w.key ∈ (B.take L).map key)) = B.drop L := by
  have apart : ∀ a ∈ B.take L, ∀ b ∈ B.drop L, a.key ≠ b.key := by
    have split := List.pairwise_map.mp keys
    rw [← List.take_append_drop L B, List.pairwise_append] at split
    exact split.2.2
  have whole : B.filter (fun w => !decide (w.key ∈ (B.take L).map key)) =
      (B.take L ++ B.drop L).filter (fun w => !decide (w.key ∈ (B.take L).map key)) := by
    rw [List.take_append_drop]
  rw [whole, List.filter_append, List.filter_eq_nil_iff.mpr, List.filter_eq_self.mpr, List.nil_append]
  · intro b member
    simp only [Bool.not_eq_true', decide_eq_false_iff_not, List.mem_map, not_exists, not_and]
    exact fun a first same => apart a first b member same
  · intro a member
    simp only [Bool.not_eq_true', decide_eq_false_iff_not, Decidable.not_not]
    exact List.mem_map_of_mem member

/-- Finalizing the keys of the first `L` withdrawals of the backlog leaves the rest of the backlog
as the backlog. -/
theorem backlog_finalizeAll {ws : List StoredWithdrawal} (keys : (ws.map key).Nodup) (L : Nat) :
    backlog (finalizeAll (((backlog ws).take L).map key) ws) = (backlog ws).drop L := by
  have perm : (backlog (finalizeAll (((backlog ws).take L).map key) ws)).Perm ((backlog ws).drop L) := by
    refine (backlog_perm _).trans ?_
    rw [unfinalized_finalizeAll, ← filter_keys_take (backlog_keys keys) L]
    exact ((backlog_perm ws).filter _).symm
  -- both lists are in the scan's order, in which only withdrawals of one key tie
  refine List.Perm.eq_of_pairwise ?_ (backlog_pairwise _)
    ((backlog_pairwise ws).sublist (List.drop_sublist L _)) perm
  intro a b first second before after
  have tie := Std.OrientedCmp.isLE_antisymm before after
  have inA := (mem_backlog first).1
  rw [finalizeAll, List.mem_map] at inA
  obtain ⟨a', inWs, rfl⟩ := inA
  have rest : b ∈ (backlog ws).filter (fun w => !decide (w.key ∈ ((backlog ws).take L).map key)) := by
    rwa [filter_keys_take (backlog_keys keys) L]
  have inB := (mem_backlog (List.mem_filter.mp rest).1).1
  have same : a' = b := eq_of_key_eq keys inWs inB (key_of_scanCompare_eq tie)
  subst same
  have other : decide (a'.key ∈ ((backlog ws).take L).map key) = false := by
    simpa using (List.mem_filter.mp rest).2
  rw [other, finalizedWhen_false]

end StoredWithdrawal

/-- Withdrawals whose rows are the withdrawal rows of tables, no two of one key. -/
structure Tables.Holds (t : Tables) (ws : List StoredWithdrawal) : Prop where
  rows : t.withdrawals = ws.map StoredWithdrawal.toRow
  keys : (ws.map StoredWithdrawal.key).Nodup

attribute [ext] WithdrawalRow

namespace WithdrawalRow

/-- A row as the store writes it is the row of a withdrawal. -/
theorem Stored.exists_toRow {r : WithdrawalRow} (stored : r.Stored) : ∃ w : StoredWithdrawal, w.toRow = r := by
  obtain ⟨hash, atHash⟩ := stored.txHash
  obtain ⟨n, fits, atBlock⟩ := stored.block
  obtain ⟨token, atToken⟩ := stored.token
  obtain ⟨amount, atAmount⟩ := stored.amount
  obtain ⟨index, atIndex⟩ := stored.index
  have flag : ∃ b : Bool, r.finalized = .integer (if b then 1 else 0) := by
    rcases stored.finalized with zero | one
    · exact ⟨false, zero⟩
    · exact ⟨true, one⟩
  obtain ⟨b, atFlag⟩ := flag
  have bounded : n < 2 ^ Width.w64.bits := Nat.lt_of_le_of_lt fits (by decide)
  refine ⟨⟨⟨hash, ⟨n, bounded⟩, token, amount⟩, index, b⟩, ?_⟩
  ext1
  · exact atHash.symm
  · exact atBlock.symm
  · exact atToken.symm
  · exact atAmount.symm
  · exact atIndex.symm
  · exact atFlag.symm

end WithdrawalRow

/-- The row with its flag set, if its flag is false. -/
def WithdrawalRow.settled (r : WithdrawalRow) : WithdrawalRow :=
  if r.isPending then { r with finalized := .integer 1 } else r

/-- The tables with the flag of every pending row set. -/
def Tables.settle (t : Tables) : Tables :=
  { t with withdrawals := t.withdrawals.map WithdrawalRow.settled }

theorem StoredWithdrawal.finalizedWhen_of_finalized {w : StoredWithdrawal} (finalized : w.isFinalized = true) (b : Bool) :
    w.finalizedWhen b = w := by
  obtain ⟨event, index, flag⟩ := w
  simp only at finalized
  subst finalized
  rfl

theorem StoredWithdrawal.settled_toRow (w : StoredWithdrawal) : w.toRow.settled = (w.finalizedWhen true).toRow := by
  unfold WithdrawalRow.settled
  rw [isPending_toRow]
  cases flag : w.isFinalized <;> simp [finalizedWhen, toRow, flag]

namespace Tables

theorem exists_holds_of_stored :
    ∀ {rows : List WithdrawalRow}, (∀ r ∈ rows, r.Stored) → ∃ ws : List StoredWithdrawal, rows = ws.map StoredWithdrawal.toRow
  | [], _ => ⟨[], rfl⟩
  | r :: rest, stored => by
    obtain ⟨w, rfl⟩ := (stored r List.mem_cons_self).exists_toRow
    obtain ⟨ws, rfl⟩ := exists_holds_of_stored fun r' member => stored r' (List.mem_cons_of_mem _ member)
    exact ⟨w :: ws, rfl⟩

/-- Tables as the store writes them hold withdrawals: a key cell pair fixes the key. -/
theorem WellFormed.holds {t : Tables} (wf : t.WellFormed) : ∃ ws, t.Holds ws := by
  obtain ⟨ws, rows⟩ := exists_holds_of_stored wf.withdrawals
  refine ⟨ws, rows, List.pairwise_map.mpr ?_⟩
  have distinct := wf.keys
  rw [rows, List.pairwise_map] at distinct
  refine distinct.imp fun {a b} cells same => cells ⟨?_, ?_⟩
  · show Cell.blob a.key.1.data = .blob b.key.1.data
    rw [same]
  · show Cell.integer a.key.2.toNat = .integer b.key.2.toNat
    rw [same]

/-- The pending rows are the rows of the unfinalized withdrawals. -/
theorem Holds.pending {t : Tables} {ws : List StoredWithdrawal} (holds : t.Holds ws) :
    t.withdrawals.filter WithdrawalRow.isPending = (ws.filter fun w => !w.isFinalized).map StoredWithdrawal.toRow := by
  have pending : (WithdrawalRow.isPending ∘ StoredWithdrawal.toRow) = fun w => !w.isFinalized := by
    funext w
    exact w.isPending_toRow
  rw [holds.rows, List.filter_map, pending]

theorem pendingRows_of_holds {t : Tables} {ws : List StoredWithdrawal} (holds : t.Holds ws) (L : Nat) :
    t.pendingRows L = ((StoredWithdrawal.backlog ws).take L).map StoredWithdrawal.toRow := by
  rw [Tables.pendingRows, holds.pending, List.map_take, StoredWithdrawal.backlog]
  congr 1
  exact (List.map_mergeSort fun a _ b _ => (StoredWithdrawal.pendingOrder_toRow a b).symm).symm

/-- The number of pending rows is the length of the backlog. -/
theorem Holds.pending_length {t : Tables} {ws : List StoredWithdrawal} (holds : t.Holds ws) :
    (t.withdrawals.filter WithdrawalRow.isPending).length = (StoredWithdrawal.backlog ws).length := by
  rw [holds.pending, List.length_map, (StoredWithdrawal.backlog_perm ws).length_eq]

theorem finalizeKey_of_holds {t : Tables} {ws : List StoredWithdrawal} (rows : t.withdrawals = ws.map StoredWithdrawal.toRow)
    (k : WithdrawalKey) :
    t.finalizeKey k = { t with withdrawals := (StoredWithdrawal.finalizeAll [k] ws).map StoredWithdrawal.toRow } := by
  ext1
  · rfl
  · rw [withdrawals_finalizeKey, rows, StoredWithdrawal.finalizeAll, List.map_map, List.map_map]
    refine List.map_congr_left fun w _ => ?_
    simp only [Function.comp_apply, List.mem_singleton]
    exact StoredWithdrawal.finalize_toRow w k
  · rfl

/-- Finalizing keys one after another finalizes the withdrawals of any of them. -/
theorem foldl_finalizeKey_of_holds :
    ∀ (ks : List WithdrawalKey) {t : Tables} {ws : List StoredWithdrawal}, t.withdrawals = ws.map StoredWithdrawal.toRow →
      ks.foldl finalizeKey t = { t with withdrawals := (StoredWithdrawal.finalizeAll ks ws).map StoredWithdrawal.toRow }
  | [], t, ws, rows => by
    ext1
    · rfl
    · rw [List.foldl_nil, rows, StoredWithdrawal.finalizeAll]
      simp only [List.not_mem_nil, decide_false, StoredWithdrawal.finalizedWhen_false, List.map_id']
    · rfl
  | k :: rest, t, ws, rows => by
    rw [List.foldl_cons, finalizeKey_of_holds rows k, foldl_finalizeKey_of_holds rest rfl]
    congr 2
    rw [StoredWithdrawal.finalizeAll, StoredWithdrawal.finalizeAll, StoredWithdrawal.finalizeAll, List.map_map]
    refine List.map_congr_left fun w _ => ?_
    rw [Function.comp_apply, StoredWithdrawal.finalizedWhen_finalizedWhen, StoredWithdrawal.key_finalizedWhen]
    congr 1
    rw [Bool.eq_iff_iff]
    simp only [Bool.or_eq_true, decide_eq_true_eq, List.mem_cons, List.not_mem_nil, or_false]

theorem Holds.foldl_finalizeKey {t : Tables} {ws : List StoredWithdrawal} (holds : t.Holds ws) (ks : List WithdrawalKey) :
    (ks.foldl finalizeKey t).Holds (StoredWithdrawal.finalizeAll ks ws) := by
  rw [foldl_finalizeKey_of_holds ks holds.rows]
  exact ⟨rfl, by rw [StoredWithdrawal.keys_finalizeAll]; exact holds.keys⟩

theorem settle_of_holds {t : Tables} {ws : List StoredWithdrawal} (rows : t.withdrawals = ws.map StoredWithdrawal.toRow) :
    t.settle = { t with withdrawals := (ws.map (·.finalizedWhen true)).map StoredWithdrawal.toRow } := by
  ext1
  · rfl
  · show t.withdrawals.map WithdrawalRow.settled = _
    rw [rows, List.map_map, List.map_map]
    exact List.map_congr_left fun w _ => w.settled_toRow
  · rfl

/-- Setting every pending flag after finalizing some keys sets the same flags as setting them at
once. -/
theorem settle_foldl_finalizeKey {t : Tables} {ws : List StoredWithdrawal} (holds : t.Holds ws) (ks : List WithdrawalKey) :
    (ks.foldl finalizeKey t).settle = t.settle := by
  rw [settle_of_holds (holds.foldl_finalizeKey ks).rows, settle_of_holds holds.rows, foldl_finalizeKey_of_holds ks holds.rows]
  congr 2
  rw [StoredWithdrawal.finalizeAll, List.map_map]
  refine List.map_congr_left fun w _ => ?_
  simp only [Function.comp_apply, StoredWithdrawal.finalizedWhen_finalizedWhen, Bool.or_true]

/-- With no backlog no flag is to be set. -/
theorem settle_of_empty {t : Tables} {ws : List StoredWithdrawal} (holds : t.Holds ws)
    (empty : StoredWithdrawal.backlog ws = []) : t.settle = t := by
  have filtered : ws.filter (fun w => !w.isFinalized) = [] := by
    have perm := (StoredWithdrawal.backlog_perm ws).symm
    rw [empty] at perm
    exact perm.eq_nil
  have finalized : ∀ w ∈ ws, w.isFinalized = true := fun w member => by
    simpa using List.filter_eq_nil_iff.mp filtered w member
  ext1
  · rfl
  · show t.withdrawals.map WithdrawalRow.settled = t.withdrawals
    rw [holds.rows, List.map_map]
    refine List.map_congr_left fun w member => ?_
    rw [Function.comp_apply, w.settled_toRow, StoredWithdrawal.finalizedWhen_of_finalized (finalized w member)]
  · rfl

end Tables

end BridgeLedger
