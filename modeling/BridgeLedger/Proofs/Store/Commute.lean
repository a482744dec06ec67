import BridgeLedger.Proofs.Store.Replay

namespace BridgeLedger

attribute [ext] Tables

namespace BlockRow

theorem setPhase_comm (r : BlockRow) {p q : Phase} {c d : Cell} (independent : p ≠ q ∨ c = d) :
    (r.setPhase p c).setPhase q d = (r.setPhase q d).setPhase p c := by
  by_cases same : p = q
  · subst same
    obtain rfl := independent.resolve_left (not_not_intro rfl)
    rfl
  · cases p <;> cases q <;> first | rfl | exact absurd rfl same

/-- The row with phase `p` set to `c` if it is the row of block `n`, as setting a phase of a block
that has a row maps its rows. -/
def setPhaseAt (p : Phase) (n : Int) (c : Cell) (r : BlockRow) : BlockRow :=
  if r.number == n then r.setPhase p c else r

theorem setPhaseAt_self {r : BlockRow} {n : Int} (atN : r.number = n) (p : Phase) (c : Cell) :
    r.setPhaseAt p n c = r.setPhase p c := by
  rw [setPhaseAt, if_pos (beq_iff_eq.mpr atN)]

theorem setPhaseAt_other {r : BlockRow} {n : Int} (other : r.number ≠ n) (p : Phase) (c : Cell) :
    r.setPhaseAt p n c = r := by
  rw [setPhaseAt, if_neg (by simpa only [beq_iff_eq] using other)]

theorem number_fresh (n : Int) (p : Phase) (c : Cell) : (fresh n p c).number = n :=
  number_setPhase _ _ _

/-- Two rows of one block that are new but for one phase each come out the same whichever is
set first. -/
theorem fresh_setPhase_comm (n : Int) {p q : Phase} {c d : Cell} (independent : p ≠ q ∨ c = d) :
    (fresh n p c).setPhase q d = (fresh n q d).setPhase p c :=
  setPhase_comm _ independent

theorem setPhaseAt_comm (r : BlockRow) {p q : Phase} {n m : Int} {c d : Cell}
    (independent : p ≠ q ∨ n ≠ m ∨ c = d) :
    (r.setPhaseAt p n c).setPhaseAt q m d = (r.setPhaseAt q m d).setPhaseAt p n c := by
  by_cases atN : r.number = n <;> by_cases atM : r.number = m
  · -- the row of both blocks: two phases of one row, or one phase set to one value
    have same : n = m := atN.symm.trans atM
    have phases : p ≠ q ∨ c = d := independent.imp_right (·.resolve_left (not_not_intro same))
    rw [setPhaseAt_self atN, setPhaseAt_self atM, setPhaseAt_self (by rw [number_setPhase, atM]),
      setPhaseAt_self (by rw [number_setPhase, atN]), setPhase_comm r phases]
  · rw [setPhaseAt_self atN, setPhaseAt_other atM, setPhaseAt_other (by rw [number_setPhase]; exact atM),
      setPhaseAt_self atN]
  · rw [setPhaseAt_other atN, setPhaseAt_self atM, setPhaseAt_other (by rw [number_setPhase]; exact atN)]
  · rw [setPhaseAt_other atN, setPhaseAt_other atM, setPhaseAt_other atN]

theorem map_setPhaseAt_of_absent {rows : List BlockRow} {n : Int} (absent : rows.any (·.number == n) = false)
    (p : Phase) (c : Cell) : rows.map (setPhaseAt p n c) = rows := by
  have unchanged : ∀ r ∈ rows, r.setPhaseAt p n c = r := fun r member =>
    setPhaseAt_other (fun atN => List.any_eq_false.mp absent r member (beq_iff_eq.mpr atN)) p c
  rw [List.map_congr_left unchanged, List.map_id']

end BlockRow

namespace WithdrawalRow

/-- The row with its flag set if it has the key and its flag is false, as finalizing a key maps
the rows. -/
def finalizeAt (k : WithdrawalKey) (r : WithdrawalRow) : WithdrawalRow :=
  if r.hasKey (.blob k.1.data) (.integer k.2.toNat) && r.isPending then { r with finalized := .integer 1 }
  else r

@[simp] theorem hasKey_withFinalized (r : WithdrawalRow) (c hash index : Cell) :
    ({ r with finalized := c } : WithdrawalRow).hasKey hash index = r.hasKey hash index :=
  rfl

@[simp] theorem isPending_finalizedOne (r : WithdrawalRow) :
    ({ r with finalized := .integer 1 } : WithdrawalRow).isPending = false :=
  rfl

/-- A row is finalized by whichever of two keys it has; finalizing it again leaves it. -/
theorem finalizeAt_comm (r : WithdrawalRow) (k k' : WithdrawalKey) :
    (r.finalizeAt k).finalizeAt k' = (r.finalizeAt k').finalizeAt k := by
  unfold finalizeAt
  cases pending : r.isPending
  · simp [pending]
  · cases held : r.hasKey (.blob k.1.data) (.integer k.2.toNat) <;>
      cases held' : r.hasKey (.blob k'.1.data) (.integer k'.2.toNat) <;> simp [pending, held, held']

end WithdrawalRow

namespace Tables

/-- Tables with the same rows, perhaps in another order, and the same guards. -/
structure Alike (t t' : Tables) : Prop where
  blocks : t.blocks.Perm t'.blocks
  withdrawals : t.withdrawals.Perm t'.withdrawals
  guards : t.guards = t'.guards

namespace Alike

theorem refl (t : Tables) : t.Alike t := ⟨.refl _, .refl _, rfl⟩

theorem symm {t t' : Tables} (alike : t.Alike t') : t'.Alike t :=
  ⟨alike.blocks.symm, alike.withdrawals.symm, alike.guards.symm⟩

theorem trans {t t' t'' : Tables} (alike : t.Alike t') (alike' : t'.Alike t'') : t.Alike t'' :=
  ⟨alike.blocks.trans alike'.blocks, alike.withdrawals.trans alike'.withdrawals, alike.guards.trans alike'.guards⟩

theorem of_eq {t t' : Tables} (same : t = t') : t.Alike t' := same ▸ refl t

end Alike

theorem blocks_upsertPhase_of_present {t : Tables} {n : Int} (present : t.blocks.any (·.number == n) = true)
    (p : Phase) (c : Cell) : (t.upsertPhase p n c).blocks = t.blocks.map (BlockRow.setPhaseAt p n c) := by
  unfold upsertPhase
  rw [if_pos present]
  rfl

theorem blocks_upsertPhase_of_absent {t : Tables} {n : Int} (absent : t.blocks.any (·.number == n) = false)
    (p : Phase) (c : Cell) : (t.upsertPhase p n c).blocks = BlockRow.fresh n p c :: t.blocks := by
  unfold upsertPhase
  rw [if_neg (by rw [absent]; exact Bool.false_ne_true)]

theorem blocks_upsertPhase_of_blocks {t t' : Tables} (same : t.blocks = t'.blocks) (p : Phase) (n : Int)
    (c : Cell) : (t.upsertPhase p n c).blocks = (t'.upsertPhase p n c).blocks := by
  cases present : t.blocks.any (·.number == n)
  · rw [blocks_upsertPhase_of_absent present, blocks_upsertPhase_of_absent (same ▸ present), same]
  · rw [blocks_upsertPhase_of_present present, blocks_upsertPhase_of_present (same ▸ present), same]

theorem withdrawals_upsertPhase (t : Tables) (p : Phase) (n : Int) (c : Cell) :
    (t.upsertPhase p n c).withdrawals = t.withdrawals := by
  unfold upsertPhase
  split <;> rfl

/-- Adding the row of a block without one and setting a phase of a block with a row come out the
same in either order: the new row is not of the other block. -/
theorem blocks_upsertPhase_absent_present (t : Tables) {p q : Phase} {n m : Int} {c d : Cell}
    (absent : t.blocks.any (·.number == n) = false) (present : t.blocks.any (·.number == m) = true) :
    ((t.upsertPhase p n c).upsertPhase q m d).blocks = ((t.upsertPhase q m d).upsertPhase p n c).blocks := by
  have other : n ≠ m := fun same => by rw [same, present] at absent; cases absent
  have afterN := any_number_upsertPhase t q m n d
  have afterM := any_number_upsertPhase t p n m c
  rw [present, Bool.true_or] at afterM
  rw [absent, beq_eq_false_iff_ne.mpr (Ne.symm other), Bool.or_false] at afterN
  rw [blocks_upsertPhase_of_present afterM, blocks_upsertPhase_of_absent afterN,
    blocks_upsertPhase_of_absent absent, blocks_upsertPhase_of_present present, List.map_cons,
    BlockRow.setPhaseAt_other (by rw [BlockRow.number_fresh]; exact other)]

/-- Setting phases of two blocks, two phases of one block, or one phase of one block to one value
gives the same rows in either order; only two new rows may come in the other order. -/
theorem blocks_upsertPhase_comm (t : Tables) {p q : Phase} {n m : Int} {c d : Cell}
    (independent : p ≠ q ∨ n ≠ m ∨ c = d) :
    ((t.upsertPhase p n c).upsertPhase q m d).blocks.Perm ((t.upsertPhase q m d).upsertPhase p n c).blocks := by
  have afterN := any_number_upsertPhase t q m n d
  have afterM := any_number_upsertPhase t p n m c
  cases presentN : t.blocks.any (·.number == n) <;> cases presentM : t.blocks.any (·.number == m)
  case false.false =>
    by_cases same : n = m
    · -- one new row, set in either order
      subst same
      have phases : p ≠ q ∨ c = d := independent.imp_right (·.resolve_left (not_not_intro rfl))
      rw [presentN, beq_self_eq_true, Bool.or_true] at afterN afterM
      rw [blocks_upsertPhase_of_present afterM, blocks_upsertPhase_of_present afterN,
        blocks_upsertPhase_of_absent presentN, blocks_upsertPhase_of_absent presentN, List.map_cons,
        List.map_cons, BlockRow.map_setPhaseAt_of_absent presentN, BlockRow.map_setPhaseAt_of_absent presentN,
        BlockRow.setPhaseAt_self (BlockRow.number_fresh _ _ _), BlockRow.setPhaseAt_self (BlockRow.number_fresh _ _ _),
        BlockRow.fresh_setPhase_comm n phases]
    · -- two new rows, added in either order
      have other : (n == m) = false := beq_eq_false_iff_ne.mpr same
      have other' : (m == n) = false := beq_eq_false_iff_ne.mpr (Ne.symm same)
      rw [presentN, other'] at afterN
      rw [presentM, other] at afterM
      rw [blocks_upsertPhase_of_absent afterM, blocks_upsertPhase_of_absent afterN,
        blocks_upsertPhase_of_absent presentN, blocks_upsertPhase_of_absent presentM]
      exact .swap _ _ _
  case false.true => exact .of_eq (blocks_upsertPhase_absent_present t presentN presentM)
  case true.false => exact .of_eq (blocks_upsertPhase_absent_present t presentM presentN).symm
  case true.true =>
    -- both blocks have rows: the two maps commute row by row
    rw [presentM, Bool.true_or] at afterM
    rw [presentN, Bool.true_or] at afterN
    rw [blocks_upsertPhase_of_present afterM, blocks_upsertPhase_of_present afterN,
      blocks_upsertPhase_of_present presentN, blocks_upsertPhase_of_present presentM, List.map_map,
      List.map_map]
    exact .of_eq (List.map_congr_left fun r _ => r.setPhaseAt_comm independent)

theorem upsertPhase_comm (t : Tables) {p q : Phase} {n m : Int} {c d : Cell}
    (independent : p ≠ q ∨ n ≠ m ∨ c = d) :
    ((t.upsertPhase p n c).upsertPhase q m d).Alike ((t.upsertPhase q m d).upsertPhase p n c) := by
  refine ⟨blocks_upsertPhase_comm t independent, ?_, ?_⟩
  · rw [withdrawals_upsertPhase, withdrawals_upsertPhase, withdrawals_upsertPhase, withdrawals_upsertPhase]
  · rw [guards_upsertPhase, guards_upsertPhase, guards_upsertPhase, guards_upsertPhase]

theorem Alike.upsertPhase {t t' : Tables} (alike : t.Alike t') (p : Phase) (n : Int) (c : Cell) :
    (t.upsertPhase p n c).Alike (t'.upsertPhase p n c) := by
  have same : t.blocks.any (·.number == n) = t'.blocks.any (·.number == n) := alike.blocks.any_eq
  refine ⟨?_, ?_, ?_⟩
  · cases present : t.blocks.any (·.number == n)
    · rw [blocks_upsertPhase_of_absent present, blocks_upsertPhase_of_absent (same ▸ present)]
      exact alike.blocks.cons _
    · rw [blocks_upsertPhase_of_present present, blocks_upsertPhase_of_present (same ▸ present)]
      exact alike.blocks.map _
  · rw [withdrawals_upsertPhase, withdrawals_upsertPhase]
    exact alike.withdrawals
  · rw [guards_upsertPhase, guards_upsertPhase]
    exact alike.guards

theorem withdrawals_insertNew_of_absent {t : Tables} {r : WithdrawalRow} (absent : t.holdsKey r = false) :
    (t.insertNew r).withdrawals = t.withdrawals ++ [r] := by
  unfold insertNew
  rw [if_neg (by rw [absent]; exact Bool.false_ne_true)]

theorem blocks_insertNew (t : Tables) (r : WithdrawalRow) : (t.insertNew r).blocks = t.blocks := by
  unfold insertNew
  split <;> rfl

theorem withdrawals_insertNew_of_withdrawals {t t' : Tables} (same : t.withdrawals = t'.withdrawals)
    (r : WithdrawalRow) : (t.insertNew r).withdrawals = (t'.insertNew r).withdrawals := by
  have held : t.holdsKey r = t'.holdsKey r := by
    unfold holdsKey
    rw [same]
  cases absent : t.holdsKey r
  · rw [withdrawals_insertNew_of_absent absent, withdrawals_insertNew_of_absent (held ▸ absent), same]
  · rw [insertNew_of_holdsKey absent, insertNew_of_holdsKey (held ▸ absent), same]

theorem holdsKey_insertNew_of_ne (t : Tables) {w w' : StoredWithdrawal} (distinct : w.key ≠ w'.key) :
    (t.insertNew w.toRow).holdsKey w'.toRow = t.holdsKey w'.toRow := by
  unfold insertNew
  split
  · rfl
  · unfold holdsKey
    have other : w.toRow.hasKey w'.toRow.txHash w'.toRow.index = false := by
      show w.toRow.hasKey (.blob w'.key.1.data) (.integer w'.key.2.toNat) = false
      rw [StoredWithdrawal.hasKey_toRow, decide_eq_false_iff_not]
      exact distinct
    rw [List.any_append, List.any_cons, List.any_nil, other, Bool.or_false, Bool.or_false]

/-- Rows of two keys are inserted in either order: a stored key skips its row either way, and
two new rows are appended in the other order. -/
theorem insertNew_comm (t : Tables) {w w' : StoredWithdrawal} (distinct : w.key ≠ w'.key) :
    ((t.insertNew w.toRow).insertNew w'.toRow).Alike ((t.insertNew w'.toRow).insertNew w.toRow) := by
  cases held : t.holdsKey w.toRow <;> cases held' : t.holdsKey w'.toRow
  case false.false =>
    have after : (t.insertNew w.toRow).holdsKey w'.toRow = false := by
      rw [holdsKey_insertNew_of_ne t distinct, held']
    have after' : (t.insertNew w'.toRow).holdsKey w.toRow = false := by
      rw [holdsKey_insertNew_of_ne t (Ne.symm distinct), held]
    refine ⟨?_, ?_, ?_⟩
    · rw [blocks_insertNew, blocks_insertNew, blocks_insertNew, blocks_insertNew]
    · rw [withdrawals_insertNew_of_absent after, withdrawals_insertNew_of_absent after',
        withdrawals_insertNew_of_absent held, withdrawals_insertNew_of_absent held', List.append_assoc,
        List.append_assoc]
      exact .append_left _ (.swap _ _ _)
    · rw [guards_insertNew, guards_insertNew, guards_insertNew, guards_insertNew]
  case false.true =>
    rw [insertNew_of_holdsKey held', insertNew_of_holdsKey (holdsKey_insertNew held' w.toRow)]
    exact .refl _
  case true.false =>
    rw [insertNew_of_holdsKey held, insertNew_of_holdsKey (holdsKey_insertNew held w'.toRow)]
    exact .refl _
  case true.true =>
    rw [insertNew_of_holdsKey held, insertNew_of_holdsKey held', insertNew_of_holdsKey held]
    exact .refl _

theorem Alike.insertNew {t t' : Tables} (alike : t.Alike t') (r : WithdrawalRow) :
    (t.insertNew r).Alike (t'.insertNew r) := by
  have same : t.holdsKey r = t'.holdsKey r := alike.withdrawals.any_eq
  cases absent : t.holdsKey r
  · refine ⟨?_, ?_, ?_⟩
    · rw [blocks_insertNew, blocks_insertNew]
      exact alike.blocks
    · rw [withdrawals_insertNew_of_absent absent, withdrawals_insertNew_of_absent (same ▸ absent)]
      exact alike.withdrawals.append_right _
    · rw [guards_insertNew, guards_insertNew]
      exact alike.guards
  · rw [insertNew_of_holdsKey absent, insertNew_of_holdsKey (same ▸ absent)]
    exact alike

theorem withdrawals_finalizeKey (t : Tables) (k : WithdrawalKey) :
    (t.finalizeKey k).withdrawals = t.withdrawals.map (WithdrawalRow.finalizeAt k) :=
  rfl

theorem finalizeKey_comm (t : Tables) (k k' : WithdrawalKey) :
    (t.finalizeKey k).finalizeKey k' = (t.finalizeKey k').finalizeKey k := by
  ext1
  · rfl
  · rw [withdrawals_finalizeKey, withdrawals_finalizeKey, withdrawals_finalizeKey, withdrawals_finalizeKey,
      List.map_map, List.map_map]
    exact List.map_congr_left fun r _ => r.finalizeAt_comm k k'
  · rfl

theorem Alike.finalizeKey {t t' : Tables} (alike : t.Alike t') (k : WithdrawalKey) :
    (t.finalizeKey k).Alike (t'.finalizeKey k) :=
  ⟨alike.blocks, alike.withdrawals.map _, alike.guards⟩

theorem upsertPhase_insertNew (t : Tables) (p : Phase) (n : Int) (c : Cell) (r : WithdrawalRow) :
    (t.upsertPhase p n c).insertNew r = (t.insertNew r).upsertPhase p n c := by
  ext1
  · rw [blocks_insertNew, blocks_upsertPhase_of_blocks (blocks_insertNew t r).symm]
  · rw [withdrawals_upsertPhase, withdrawals_insertNew_of_withdrawals (withdrawals_upsertPhase t p n c)]
  · rw [guards_insertNew, guards_upsertPhase, guards_upsertPhase, guards_insertNew]

theorem upsertPhase_finalizeKey (t : Tables) (p : Phase) (n : Int) (c : Cell) (k : WithdrawalKey) :
    (t.upsertPhase p n c).finalizeKey k = (t.finalizeKey k).upsertPhase p n c := by
  ext1
  · exact blocks_upsertPhase_of_blocks (show t.blocks = (t.finalizeKey k).blocks from rfl) p n c
  · rw [withdrawals_upsertPhase, withdrawals_finalizeKey, withdrawals_finalizeKey, withdrawals_upsertPhase]
  · rw [guards_upsertPhase]
    exact guards_upsertPhase t p n c

section Batches

variable {ρ σ : Type}

/-- A row write that a guard refuses by the row alone and that otherwise changes the tables by
`change`, which keeps the guards. -/
structure Guarded (write : Tables → ρ → Except Violation Tables) (refused : List Guard → ρ → Bool)
    (change : Tables → ρ → Tables) : Prop where
  write_eq : ∀ t r, write t r = if refused t.guards r then .error .rejected else .ok (change t r)
  guards : ∀ t r, (change t r).guards = t.guards

/-- A change by a row that keeps tables alike. -/
def Respects (change : Tables → ρ → Tables) : Prop :=
  ∀ t t' r, t.Alike t' → (change t r).Alike (change t' r)

/-- Two batches that commute: the one runs to its end after the other exactly when both do in
the other order, and the two orders then leave alike tables. -/
def Commutes (batch₁ batch₂ : Tables → Tables × Option Violation) : Prop :=
  ∀ t, ((batch₁ t).2 = none ∧ (batch₂ (batch₁ t).1).2 = none ↔
      (batch₂ t).2 = none ∧ (batch₁ (batch₂ t).1).2 = none) ∧
    ((batch₁ t).2 = none → (batch₂ (batch₁ t).1).2 = none →
      (batch₂ (batch₁ t).1).1.Alike (batch₁ (batch₂ t).1).1)

theorem executeMany_append (write : Tables → ρ → Except Violation Tables) :
    ∀ (rows₁ rows₂ : List ρ) (t : Tables), (executeMany write rows₁ t).2 = none →
      executeMany write (rows₁ ++ rows₂) t = executeMany write rows₂ (executeMany write rows₁ t).1
  | [], _, _, _ => rfl
  | r :: rest, rows₂, t, completed => by
    cases written : write t r with
    | ok t' =>
      rw [executeMany_cons_ok write written] at completed ⊢
      rw [List.cons_append, executeMany_cons_ok write written]
      exact executeMany_append write rest rows₂ t' completed
    | error v =>
      rw [executeMany_cons_error write written] at completed
      cases completed

theorem executeMany_append_refused (write : Tables → ρ → Except Violation Tables) :
    ∀ (rows₁ rows₂ : List ρ) (t : Tables), (executeMany write rows₁ t).2 ≠ none →
      executeMany write (rows₁ ++ rows₂) t = executeMany write rows₁ t
  | [], _, _, refused => absurd rfl refused
  | r :: rest, rows₂, t, refused => by
    cases written : write t r with
    | ok t' =>
      rw [executeMany_cons_ok write written] at refused ⊢
      rw [List.cons_append, executeMany_cons_ok write written]
      exact executeMany_append_refused write rest rows₂ t' refused
    | error v => rw [List.cons_append, executeMany_cons_error write written, executeMany_cons_error write written]

/-- A batch over two lists of rows runs to its end exactly when it does over the first list and
then over the second. -/
theorem executeMany_append_completes (write : Tables → ρ → Except Violation Tables) (rows₁ rows₂ : List ρ)
    (t : Tables) : (executeMany write (rows₁ ++ rows₂) t).2 = none ↔
      (executeMany write rows₁ t).2 = none ∧ (executeMany write rows₂ (executeMany write rows₁ t).1).2 = none := by
  by_cases completed : (executeMany write rows₁ t).2 = none
  · rw [executeMany_append write rows₁ rows₂ t completed]
    exact ⟨fun done => ⟨completed, done⟩, And.right⟩
  · rw [executeMany_append_refused write rows₁ rows₂ t completed]
    exact ⟨fun done => absurd done completed, fun done => absurd done.1 completed⟩

theorem executeMany_append_result (write : Tables → ρ → Except Violation Tables) (rows₁ rows₂ : List ρ)
    (t : Tables) (completed : (executeMany write (rows₁ ++ rows₂) t).2 = none) :
    (executeMany write (rows₁ ++ rows₂) t).1 = (executeMany write rows₂ (executeMany write rows₁ t).1).1 := by
  rw [executeMany_append write rows₁ rows₂ t ((executeMany_append_completes write rows₁ rows₂ t).mp completed).1]

theorem foldl_alike {change : Tables → ρ → Tables} (respects : Respects change) :
    ∀ (rows : List ρ) {t t' : Tables}, t.Alike t' → (rows.foldl change t).Alike (rows.foldl change t')
  | [], _, _, alike => alike
  | r :: rest, _, _, alike => foldl_alike respects rest (respects _ _ r alike)

/-- A change that commutes with every row of a batch commutes with the whole batch. -/
theorem foldl_comm_one {change : Tables → ρ → Tables} (respects : Respects change) (g : Tables → Tables) :
    ∀ (rows : List ρ), (∀ r ∈ rows, ∀ t, (g (change t r)).Alike (change (g t) r)) →
      ∀ t, (g (rows.foldl change t)).Alike (rows.foldl change (g t))
  | [], _, _ => .refl _
  | r :: rest, comm, t =>
    -- past the rest of the batch, then past its first row
    (foldl_comm_one respects g rest (fun r' member => comm r' (List.mem_cons_of_mem r member)) (change t r)).trans
      (foldl_alike respects rest (comm r List.mem_cons_self t))

/-- Two batches whose rows commute pairwise leave alike tables in either order. -/
theorem foldl_comm {change₁ : Tables → ρ → Tables} {change₂ : Tables → σ → Tables}
    (respects₁ : Respects change₁) (respects₂ : Respects change₂) (rows₁ : List ρ) :
    ∀ (rows₂ : List σ), (∀ r₁ ∈ rows₁, ∀ r₂ ∈ rows₂, ∀ t, (change₂ (change₁ t r₁) r₂).Alike (change₁ (change₂ t r₂) r₁)) →
      ∀ t, (rows₂.foldl change₂ (rows₁.foldl change₁ t)).Alike (rows₁.foldl change₁ (rows₂.foldl change₂ t))
  | [], _, _ => .refl _
  | r₂ :: rest, comm, t =>
    -- the first row of the second batch moves in front of the whole first batch
    have front := foldl_comm_one respects₁ (change₂ · r₂) rows₁
      (fun r₁ member t => comm r₁ member r₂ List.mem_cons_self t) t
    (foldl_alike respects₂ rest front).trans (foldl_comm respects₁ respects₂ rows₁ rest
      (fun r₁ member r₂' member' => comm r₁ member r₂' (List.mem_cons_of_mem r₂ member')) (change₂ t r₂))

namespace Guarded

variable {write : Tables → ρ → Except Violation Tables} {refused : List Guard → ρ → Bool}
  {change : Tables → ρ → Tables}

theorem write_of_free (guarded : Guarded write refused change) {t : Tables} {r : ρ}
    (free : refused t.guards r = false) : write t r = .ok (change t r) := by
  rw [guarded.write_eq, free, if_neg Bool.false_ne_true]

theorem write_of_refused (guarded : Guarded write refused change) {t : Tables} {r : ρ}
    (refusal : refused t.guards r = true) : write t r = .error .rejected := by
  rw [guarded.write_eq, refusal, if_pos rfl]

/-- A guarded batch runs to its end exactly when the guards refuse none of its rows. -/
theorem completes_iff (guarded : Guarded write refused change) :
    ∀ (rows : List ρ) (t : Tables), (executeMany write rows t).2 = none ↔ ∀ r ∈ rows, refused t.guards r = false
  | [], _ => by simp [executeMany]
  | r :: rest, t => by
    cases refusal : refused t.guards r
    · rw [executeMany_cons_ok write (guarded.write_of_free refusal), completes_iff guarded rest,
        guarded.guards, List.forall_mem_cons, refusal]
      exact (and_iff_right rfl).symm
    · rw [executeMany_cons_error write (guarded.write_of_refused refusal)]
      simp [refusal]

/-- A guarded batch that runs to its end applies its change row by row. -/
theorem result (guarded : Guarded write refused change) :
    ∀ (rows : List ρ) (t : Tables), (executeMany write rows t).2 = none →
      (executeMany write rows t).1 = rows.foldl change t
  | [], _, _ => rfl
  | r :: rest, t, completed => by
    cases refusal : refused t.guards r
    · rw [executeMany_cons_ok write (guarded.write_of_free refusal)] at completed ⊢
      exact result guarded rest (change t r) completed
    · rw [executeMany_cons_error write (guarded.write_of_refused refusal)] at completed
      cases completed

theorem guards_executeMany (guarded : Guarded write refused change) :
    ∀ (rows : List ρ) (t : Tables), (executeMany write rows t).1.guards = t.guards
  | [], _ => rfl
  | r :: rest, t => by
    cases refusal : refused t.guards r
    · rw [executeMany_cons_ok write (guarded.write_of_free refusal), guards_executeMany guarded rest,
        guarded.guards]
    · rw [executeMany_cons_error write (guarded.write_of_refused refusal)]

/-- Two guarded batches whose rows commute pairwise commute: the guards, which decide every
refusal, are written by neither. -/
theorem commutes {write₂ : Tables → σ → Except Violation Tables} {refused₂ : List Guard → σ → Bool}
    {change₂ : Tables → σ → Tables} (guarded : Guarded write refused change)
    (guarded₂ : Guarded write₂ refused₂ change₂) (respects : Respects change) (respects₂ : Respects change₂)
    {rows : List ρ} {rows₂ : List σ}
    (comm : ∀ r ∈ rows, ∀ r₂ ∈ rows₂, ∀ t, (change₂ (change t r) r₂).Alike (change (change₂ t r₂) r)) :
    Commutes (executeMany write rows) (executeMany write₂ rows₂) := by
  intro t
  refine ⟨?_, fun done done₂ => ?_⟩
  · rw [guarded.completes_iff, guarded₂.completes_iff, guarded₂.completes_iff, guarded.completes_iff,
      guarded.guards_executeMany, guarded₂.guards_executeMany]
    exact and_comm
  · have done₂' : (executeMany write₂ rows₂ t).2 = none := by
      rw [guarded₂.completes_iff] at done₂ ⊢
      rwa [guarded.guards_executeMany] at done₂
    have done' : (executeMany write rows (executeMany write₂ rows₂ t).1).2 = none := by
      rw [guarded.completes_iff] at done ⊢
      rwa [guarded₂.guards_executeMany]
    rw [guarded₂.result _ _ done₂, guarded.result _ _ done, guarded.result _ _ done',
      guarded₂.result _ _ done₂']
    exact foldl_comm respects respects₂ rows rows₂ comm t

end Guarded

end Batches

theorem guarded_recordBlock (p : Phase) (l1 : Nat) :
    Guarded (fun t => t.recordBlock p l1) (fun guards (n : Nat) => guards.any fun g => g.table == .blocks && g.block == n)
      (fun t n => t.upsertPhase p n (.integer l1)) :=
  ⟨fun _ _ => rfl, fun t n => guards_upsertPhase t p n _⟩

theorem guarded_ingestOne :
    Guarded ingestOne (fun guards (w : StoredWithdrawal) => guards.any fun g =>
        g.table == .withdrawals && (Cell.integer w.event.blockNumber.toNat).same (.integer g.block))
      (fun t w => t.insertNew w.toRow) :=
  ⟨fun _ _ => rfl, fun t _ => guards_insertNew t _⟩

theorem guarded_finalizeKey : Guarded (fun t k => .ok (t.finalizeKey k)) (fun _ _ => false) finalizeKey :=
  ⟨fun _ _ => rfl, fun _ _ => rfl⟩

theorem respects_upsertPhase (p : Phase) (l1 : Nat) :
    Respects fun (t : Tables) (n : Nat) => t.upsertPhase p n (.integer l1) :=
  fun _ _ n alike => alike.upsertPhase p n _

theorem respects_insertNew : Respects fun (t : Tables) (w : StoredWithdrawal) => t.insertNew w.toRow :=
  fun _ _ _ alike => alike.insertNew _

theorem respects_finalizeKey : Respects finalizeKey :=
  fun _ _ k alike => alike.finalizeKey k

theorem finalize_batches_commute (ks ks' : List WithdrawalKey) :
    Commutes (executeMany (fun t k => .ok (t.finalizeKey k)) ks) (executeMany (fun t k => .ok (t.finalizeKey k)) ks') :=
  guarded_finalizeKey.commutes guarded_finalizeKey respects_finalizeKey respects_finalizeKey
    fun k _ k' _ t => .of_eq (finalizeKey_comm t k k')

/-- Ingesting two lists with no key in common gives the same rows in either order. -/
theorem ingest_batches_commute {ws ws' : List StoredWithdrawal} (distinct : ∀ w ∈ ws, ∀ w' ∈ ws', w.key ≠ w'.key) :
    Commutes (executeMany ingestOne ws) (executeMany ingestOne ws') :=
  guarded_ingestOne.commutes guarded_ingestOne respects_insertNew respects_insertNew
    fun w member w' member' t => insertNew_comm t (distinct w member w' member')

end Tables

/-- Two phase records that commute: of other phases, over disjoint ranges, or to one L1 block. -/
def PhaseRecord.Independent (r r' : PhaseRecord) : Prop :=
  r.phase ≠ r'.phase ∨ r.last.toNat < r'.first.toNat ∨ r'.last.toNat < r.first.toNat ∨ r.l1 = r'.l1

namespace PhaseRecord

theorem batch_eq (r : PhaseRecord) :
    r.batch = Tables.executeMany (fun t => t.recordBlock r.phase r.l1.toNat)
      (List.range' r.first.toNat (r.last.toNat + 1 - r.first.toNat)) :=
  funext (Tables.executeRange_eq _ _ _)

theorem batches_commute {r r' : PhaseRecord} (independent : r.Independent r') :
    Tables.Commutes r.batch r'.batch := by
  rw [batch_eq, batch_eq]
  refine (Tables.guarded_recordBlock _ _).commutes (Tables.guarded_recordBlock _ _)
    (Tables.respects_upsertPhase _ _) (Tables.respects_upsertPhase _ _) fun n member m member' t => ?_
  -- a block of each range: of other phases, other blocks, or set to one value
  refine t.upsertPhase_comm ?_
  rw [List.mem_range'_1] at member member'
  rcases independent with phases | before | after | same
  · exact .inl phases
  · exact .inr (.inl (by omega))
  · exact .inr (.inl (by omega))
  · exact .inr (.inr (by rw [same]))

theorem ingest_batches_commute (r : PhaseRecord) (ws : List StoredWithdrawal) :
    Tables.Commutes r.batch (Tables.executeMany Tables.ingestOne ws) := by
  rw [batch_eq]
  exact (Tables.guarded_recordBlock _ _).commutes Tables.guarded_ingestOne (Tables.respects_upsertPhase _ _)
    Tables.respects_insertNew fun n _ w _ t => .of_eq (t.upsertPhase_insertNew _ n _ _)

theorem finalize_batches_commute (r : PhaseRecord) (ks : List WithdrawalKey) :
    Tables.Commutes r.batch (Tables.executeMany (fun t k => .ok (t.finalizeKey k)) ks) := by
  rw [batch_eq]
  exact (Tables.guarded_recordBlock _ _).commutes Tables.guarded_finalizeKey (Tables.respects_upsertPhase _ _)
    Tables.respects_finalizeKey fun n _ k _ t => .of_eq (t.upsertPhase_finalizeKey _ n _ k)

end PhaseRecord

end BridgeLedger
