import BridgeLedger.Proofs.Store.Transactions

namespace BridgeLedger

theorem StoredWithdrawal.hasKey_toRow_self (w : StoredWithdrawal) :
    w.toRow.hasKey w.toRow.txHash w.toRow.index = true := by
  show w.toRow.hasKey (.blob w.key.1.data) (.integer w.key.2.toNat) = true
  rw [StoredWithdrawal.hasKey_toRow, decide_eq_true_iff]

theorem BlockRow.setPhase_of_phase {r : BlockRow} {p : Phase} {c : Cell} (holds : r.phase p = c) :
    r.setPhase p c = r := by
  obtain ⟨n, commit, verify, execute⟩ := r
  cases p <;> (subst holds; rfl)

namespace Tables

section Fixed

variable {ρ : Type} (write : Tables → ρ → Except Violation Tables)

/-- A batch whose every row's write leaves `t` as it is runs to its end on `t` and leaves it. -/
theorem executeMany_fixed : ∀ {rows : List ρ} {t : Tables}, (∀ r ∈ rows, write t r = .ok t) →
    executeMany write rows t = (t, none)
  | [], _, _ => rfl
  | r :: rest, t, fixed => by
    rw [executeMany_cons_ok write (fixed r List.mem_cons_self)]
    exact executeMany_fixed fun r' member => fixed r' (List.mem_cons_of_mem r member)

/-- What a row's write makes true of its own row, and every later write keeps, holds of every row
after a batch that ran to its end. -/
theorem executeMany_establishes {Q : Tables → ρ → Prop}
    (establish : ∀ t r t', write t r = .ok t' → Q t' r)
    (keep : ∀ t r r' t', write t r = .ok t' → Q t r' → Q t' r') :
    ∀ (rows : List ρ) (t : Tables), (executeMany write rows t).2 = none →
      ∀ r ∈ rows, Q (executeMany write rows t).1 r
  | [], _, _ => fun _ absent => by cases absent
  | r :: rest, t, completed => by
    cases written : write t r with
    | error v =>
      rw [executeMany_cons_error write written] at completed
      cases completed
    | ok t' =>
      rw [executeMany_cons_ok write written] at completed ⊢
      intro r' member
      rcases List.mem_cons.mp member with rfl | later
      · -- the row's own write makes it true, and the rest of the batch keeps it
        exact executeMany_keeps write rest t' (P := fun t => Q t r')
          (fun t r'' t'' _ holds written' => keep t r'' r' t'' written' holds) (establish t r' t' written)
      · exact executeMany_establishes establish keep rest t' completed r' later

/-- A batch settles when each row's write makes its row a fixed point that the other rows' writes
keep: run again after it ran to its end, it runs to its end and writes nothing. -/
theorem executeMany_again {Q : Tables → ρ → Prop}
    (establish : ∀ t r t', write t r = .ok t' → Q t' r)
    (keep : ∀ t r r' t', write t r = .ok t' → Q t r' → Q t' r')
    (fixed : ∀ t r, Q t r → write t r = .ok t) {rows : List ρ} {t : Tables}
    (completed : (executeMany write rows t).2 = none) :
    executeMany write rows (executeMany write rows t).1 = ((executeMany write rows t).1, none) :=
  executeMany_fixed write fun r member =>
    fixed _ r (executeMany_establishes write establish keep rows t completed r member)

/-- A batch whose rows are never refused runs to its end. -/
theorem executeMany_completes {change : Tables → ρ → Tables} :
    ∀ (rows : List ρ) (t : Tables), (executeMany (fun t r => .ok (change t r)) rows t).2 = none
  | [], _ => rfl
  | r :: rest, t => by
    rw [executeMany_cons_ok _ rfl]
    exact executeMany_completes rest _

end Fixed

theorem guards_upsertPhase (t : Tables) (p : Phase) (n : Int) (c : Cell) :
    (t.upsertPhase p n c).guards = t.guards := by
  unfold upsertPhase
  split <;> rfl

/-- After setting a phase of block `n`, a row is an old row of another block, or a row of block
`n` that holds the value in that phase. -/
theorem mem_upsertPhase {t : Tables} {p : Phase} {n : Int} {c : Cell} {r : BlockRow}
    (member : r ∈ (t.upsertPhase p n c).blocks) :
    (r ∈ t.blocks ∧ r.number ≠ n) ∨ (r.number = n ∧ r.phase p = c) := by
  unfold upsertPhase at member
  split at member
  · obtain ⟨old, kept, rfl⟩ := List.mem_map.mp member
    by_cases atN : old.number = n
    · rw [if_pos (beq_iff_eq.mpr atN)]
      exact .inr ⟨by rw [BlockRow.number_setPhase, atN], by rw [BlockRow.phase_setPhase, if_pos rfl]⟩
    · rw [if_neg (by simpa only [beq_iff_eq] using atN)]
      exact .inl ⟨kept, atN⟩
  · rename_i absent
    rcases List.mem_cons.mp member with rfl | kept
    · exact .inr ⟨BlockRow.number_setPhase _ _ _, by rw [BlockRow.fresh, BlockRow.phase_setPhase, if_pos rfl]⟩
    · refine .inl ⟨kept, fun atN => absent (List.any_eq_true.mpr ⟨r, kept, by simp [atN]⟩)⟩

theorem any_number_upsertPhase (t : Tables) (p : Phase) (n m : Int) (c : Cell) :
    (t.upsertPhase p n c).blocks.any (·.number == m) = (t.blocks.any (·.number == m) || n == m) := by
  unfold upsertPhase
  split
  · rename_i present
    -- setting a phase keeps every number, and block `n` already has a row
    rw [List.any_map]
    have numbers : ((fun r : BlockRow => r.number == m) ∘ fun r => if r.number == n then r.setPhase p c else r) =
        fun r => r.number == m := by
      funext r
      simp only [Function.comp_apply]
      split <;> simp only [BlockRow.number_setPhase]
    rw [numbers]
    by_cases same : n = m
    · subst same
      rw [present]
      rfl
    · simp [same]
  · rw [List.any_cons, Bool.or_comm]
    simp [BlockRow.fresh]

theorem recordBlock_free {t t' : Tables} {p : Phase} {l1 n : Nat} (written : t.recordBlock p l1 n = .ok t') :
    t.refusesBlock n = false := by
  unfold recordBlock at written
  split at written
  · cases written
  · rename_i free
    exact Bool.eq_false_iff.mpr free

/-- Block `n` has a row, and every row of it holds `c` in phase `p`. -/
def Records (t : Tables) (p : Phase) (c : Cell) (n : Int) : Prop :=
  t.blocks.any (·.number == n) = true ∧ ∀ r ∈ t.blocks, r.number = n → r.phase p = c

theorem records_upsertPhase (t : Tables) (p : Phase) (n : Int) (c : Cell) :
    (t.upsertPhase p n c).Records p c n := by
  refine ⟨by rw [any_number_upsertPhase, beq_self_eq_true, Bool.or_true], fun r member atN => ?_⟩
  rcases mem_upsertPhase member with ⟨-, other⟩ | ⟨-, holds⟩
  · exact absurd atN other
  · exact holds

theorem Records.upsertPhase {t : Tables} {p : Phase} {c : Cell} {m : Int} (records : t.Records p c m)
    (n : Int) : (t.upsertPhase p n c).Records p c m := by
  refine ⟨by rw [any_number_upsertPhase, records.1, Bool.true_or], fun r member atM => ?_⟩
  rcases mem_upsertPhase member with ⟨kept, -⟩ | ⟨-, holds⟩
  · exact records.2 r kept atM
  · exact holds

theorem upsertPhase_of_records {t : Tables} {p : Phase} {c : Cell} {n : Int} (records : t.Records p c n) :
    t.upsertPhase p n c = t := by
  unfold upsertPhase
  rw [if_pos records.1]
  have unchanged : ∀ r ∈ t.blocks, (if r.number == n then r.setPhase p c else r) = r := by
    intro r member
    split
    · rename_i atN
      exact BlockRow.setPhase_of_phase (records.2 r member (beq_iff_eq.mp atN))
    · rfl
  rw [List.map_congr_left unchanged, List.map_id']

theorem guards_insertNew (t : Tables) (r : WithdrawalRow) : (t.insertNew r).guards = t.guards := by
  unfold insertNew
  split <;> rfl

theorem holdsKey_insertNew {t : Tables} {r' : WithdrawalRow} (held : t.holdsKey r' = true) (r : WithdrawalRow) :
    (t.insertNew r).holdsKey r' = true := by
  unfold insertNew
  split
  · exact held
  · unfold holdsKey at held ⊢
    rw [List.any_append, held, Bool.true_or]

theorem holdsKey_insertNew_self (t : Tables) (w : StoredWithdrawal) :
    (t.insertNew w.toRow).holdsKey w.toRow = true := by
  unfold insertNew
  split
  · assumption
  · unfold holdsKey
    rw [List.any_append, List.any_cons, List.any_nil, Bool.or_false, StoredWithdrawal.hasKey_toRow_self,
      Bool.or_true]

theorem insertNew_of_holdsKey {t : Tables} {r : WithdrawalRow} (held : t.holdsKey r = true) :
    t.insertNew r = t := by
  unfold insertNew
  rw [if_pos held]

theorem ingestOne_free {t t' : Tables} {w : StoredWithdrawal} (written : t.ingestOne w = .ok t') :
    t.refusesWithdrawal (.integer w.event.blockNumber.toNat) = false := by
  unfold ingestOne at written
  split at written
  · cases written
  · rename_i free
    exact Bool.eq_false_iff.mpr free

/-- An ingest, once it ran to its end, runs again to its end and inserts nothing. -/
theorem ingest_again {ws : List StoredWithdrawal} {t : Tables} (completed : (executeMany ingestOne ws t).2 = none) :
    executeMany ingestOne ws (executeMany ingestOne ws t).1 = ((executeMany ingestOne ws t).1, none) := by
  -- a withdrawal is a fixed point once no guard refuses its block and its key is stored
  refine executeMany_again _ (Q := fun t (w : StoredWithdrawal) =>
      t.refusesWithdrawal (.integer w.event.blockNumber.toNat) = false ∧ t.holdsKey w.toRow = true)
    (fun t w t' written => ?_) (fun t w w' t' written fixed => ?_) (fun t w fixed => ?_) completed
  · have free := ingestOne_free written
    rw [ingestOne_ok written]
    exact ⟨by rw [refusesWithdrawal, guards_insertNew]; exact free, holdsKey_insertNew_self _ _⟩
  · rw [ingestOne_ok written]
    exact ⟨by rw [refusesWithdrawal, guards_insertNew]; exact fixed.1, holdsKey_insertNew fixed.2 _⟩
  · rw [ingestOne, if_neg (by rw [fixed.1]; exact Bool.false_ne_true), insertNew_of_holdsKey fixed.2]

/-- No row with the key waits to be finalized. -/
def Settled (t : Tables) (k : WithdrawalKey) : Prop :=
  ∀ r ∈ t.withdrawals, r.hasKey (.blob k.1.data) (.integer k.2.toNat) = true → r.isPending = false

/-- After finalizing a key a row is an old row, or a row that was pending, with the same key
cells, that is finalized now. -/
theorem mem_finalizeKey {t : Tables} {k : WithdrawalKey} {r : WithdrawalRow} (member : r ∈ (t.finalizeKey k).withdrawals) :
    ∃ old ∈ t.withdrawals, old.txHash = r.txHash ∧ old.index = r.index ∧
      ((r = old ∧ (old.hasKey (.blob k.1.data) (.integer k.2.toNat) && old.isPending) = false) ∨ r.isPending = false) := by
  obtain ⟨old, kept, rfl⟩ := List.mem_map.mp member
  refine ⟨old, kept, ?_⟩
  split
  · exact ⟨rfl, rfl, .inr rfl⟩
  · rename_i untouched
    exact ⟨rfl, rfl, .inl ⟨rfl, Bool.eq_false_iff.mpr untouched⟩⟩

theorem settled_finalizeKey (t : Tables) (k : WithdrawalKey) : (t.finalizeKey k).Settled k := by
  intro r member keyed
  obtain ⟨old, -, sameHash, sameIndex, ⟨rfl, untouched⟩ | finalized⟩ := mem_finalizeKey member
  · rw [keyed, Bool.true_and] at untouched
    exact untouched
  · exact finalized

theorem Settled.finalizeKey {t : Tables} {k : WithdrawalKey} (settled : t.Settled k) (k' : WithdrawalKey) :
    (t.finalizeKey k').Settled k := by
  intro r member keyed
  obtain ⟨old, kept, sameHash, sameIndex, ⟨rfl, -⟩ | finalized⟩ := mem_finalizeKey member
  · exact settled r kept keyed
  · exact finalized

theorem finalizeKey_of_settled {t : Tables} {k : WithdrawalKey} (settled : t.Settled k) : t.finalizeKey k = t := by
  unfold finalizeKey
  have unchanged : ∀ r ∈ t.withdrawals,
      (if r.hasKey (.blob k.1.data) (.integer k.2.toNat) && WithdrawalRow.isPending r then
        { r with finalized := .integer 1 } else r) = r := by
    intro r member
    split
    · rename_i pending
      rw [Bool.and_eq_true] at pending
      rw [settled r member pending.1] at pending
      cases pending.2
    · rfl
  rw [List.map_congr_left unchanged, List.map_id']

/-- A finalize, run again, flags nothing more. -/
theorem finalize_again (ks : List WithdrawalKey) (t : Tables) :
    executeMany (fun t k => .ok (t.finalizeKey k)) ks (executeMany (fun t k => .ok (t.finalizeKey k)) ks t).1 =
      ((executeMany (fun t k => .ok (t.finalizeKey k)) ks t).1, none) := by
  refine executeMany_again _ (Q := Settled) (fun t k t' written => ?_) (fun t k k' t' written settled => ?_)
    (fun t k settled => ?_) (executeMany_completes ks t)
  · cases written
    exact settled_finalizeKey t k
  · cases written
    exact settled.finalizeKey k
  · rw [finalizeKey_of_settled settled]

end Tables

/-- A batch that, once it has run to its end, runs to its end again and writes nothing more. -/
def Settles (batch : Tables → Tables × Option Violation) : Prop :=
  ∀ t, (batch t).2 = none → batch (batch t).1 = ((batch t).1, none)

/-- A phase record, once it ran to its end, runs again to its end and writes nothing. -/
theorem PhaseRecord.batch_again (r : PhaseRecord) {t : Tables} (completed : (r.batch t).2 = none) :
    r.batch (r.batch t).1 = ((r.batch t).1, none) := by
  unfold PhaseRecord.batch at completed ⊢
  simp only [Tables.executeRange_eq] at completed ⊢
  -- a block is a fixed point once no guard refuses it and it holds the L1 block in the phase
  refine Tables.executeMany_again _ (Q := fun t (n : Nat) => t.refusesBlock n = false ∧ t.Records r.phase (.integer r.l1.toNat) n)
    (fun t n t' written => ?_) (fun t n n' t' written fixed => ?_) (fun t n fixed => ?_) completed
  · have free := Tables.recordBlock_free written
    rw [Tables.recordBlock_ok written]
    exact ⟨by rw [Tables.refusesBlock, Tables.guards_upsertPhase]; exact free, Tables.records_upsertPhase _ _ _ _⟩
  · rw [Tables.recordBlock_ok written]
    exact ⟨by rw [Tables.refusesBlock, Tables.guards_upsertPhase]; exact fixed.1, fixed.2.upsertPhase n⟩
  · rw [Tables.recordBlock, if_neg (by rw [fixed.1]; exact Bool.false_ne_true), Tables.upsertPhase_of_records fixed.2]

namespace Store

/-- A call made `k` times in a row, each time on the store that the last attempt left: the outcomes
in order, and the store after them. -/
def attempts (call : Store → Except Fault Unit × Store) : Nat → Store → List (Except Fault Unit) × Store
  | 0, s => ([], s)
  | k + 1, s => ((call s).1 :: (attempts call k (call s).2).1, (attempts call k (call s).2).2)

/-- What replaying a write does to a store `s`: once it succeeded on `s` it succeeds again on what
it left and changes nothing more, and attempts of it whose last one succeeds leave what one
successful attempt on `s` leaves, in both cases but for the engine's record. -/
structure Replays (call : Store → Except Fault Unit × Store) (s : Store) : Prop where
  again : (call s).1 = .ok () →
    (call (call s).2).1 = .ok () ∧ ∃ e, (call (call s).2).2 = (call s).2.withEngine fun _ => e
  retried : ∀ k, (attempts call (k + 1) s).1.getLast? = some (.ok ()) →
    (call s).1 = .ok () ∧ ∃ e, (attempts call (k + 1) s).2 = (call s).2.withEngine fun _ => e

namespace Writes

variable {call : Store → Except Fault Unit × Store} {allowed : Bool → Prop}
  {batch : Tables → Tables × Option Violation}

/-- A call that fails on every store, leaving it, writes by any batch. -/
theorem failing (refuses : ∀ s, ∃ f, call s = (.error f, s)) (batch : Tables → Tables × Option Violation) :
    Writes call (fun _ => False) batch where
  ok_iff s := by
    obtain ⟨f, failed⟩ := refuses s
    rw [failed]
    exact ⟨fun done => (by cases done), fun ⟨never, _⟩ => never.elim⟩
  written s done := by
    obtain ⟨f, failed⟩ := refuses s
    rw [failed] at done
    cases done
  kept s _ := by
    obtain ⟨f, failed⟩ := refuses s
    exact ⟨s.connection.engine, by rw [failed, withEngine_own]⟩

/-- A write whose batch settles succeeds again on what it left, and writes nothing more. -/
theorem again (w : Writes call allowed batch) (settles : Settles batch) {s : Store}
    (done : (call s).1 = .ok ()) :
    (call (call s).2).1 = .ok () ∧ ∃ e, (call (call s).2).2 = (call s).2.withEngine fun _ => e := by
  obtain ⟨okIff, after⟩ := w.after_written w done
  obtain ⟨allows, completed⟩ := (w.ok_iff s).mp done
  have settled := settles _ completed
  have done' : (call (call s).2).1 = .ok () := okIff.mpr ⟨allows, by rw [settled]⟩
  obtain ⟨e, written⟩ := w.written s done
  obtain ⟨e', written'⟩ := after done'
  refine ⟨done', e', ?_⟩
  rw [written', settled, written, withEngine_withEngine]

theorem replays (w : Writes call allowed batch) (settles : Settles batch) (s : Store) : Replays call s := by
  refine ⟨w.again settles, fun k => ?_⟩
  -- on the number of attempts after the first, for every store the first is made on
  induction k generalizing s with
  | zero =>
    intro last
    have done : (call s).1 = .ok () := by
      simpa only [attempts, List.getLast?_singleton, Option.some.injEq] using last
    exact ⟨done, (call s).2.connection.engine, by rw [withEngine_own]; rfl⟩
  | succ k ih =>
    intro last
    have later : (attempts call (k + 1) (call s).2).1.getLast? = some (.ok ()) := by
      have unfolded : (attempts call (k + 2) s).1 =
          (call s).1 :: (call (call s).2).1 :: (attempts call k (call (call s).2).2).1 := rfl
      rw [unfolded, List.getLast?_cons_cons] at last
      exact last
    obtain ⟨done', e, after⟩ := ih (call s).2 later
    by_cases done : (call s).1 = .ok ()
    · -- the first attempt succeeded, so the later ones write nothing more
      obtain ⟨-, e', again⟩ := w.again settles done
      refine ⟨done, e, ?_⟩
      show (attempts call (k + 1) (call s).2).2 = _
      rw [after, again, withEngine_withEngine]
    · -- a failed first attempt left the store, so the next one would have failed too
      obtain ⟨e', kept⟩ := w.kept s done
      rw [kept, w.ok_withEngine] at done'
      exact absurd done' done

end Writes

theorem recordPhase_replays (s : Store) (p : Phase) (start stop l1 : Value) :
    Replays (·.recordPhase p start stop l1) s := by
  cases checks : recordArguments (.recordPhase p) start stop l1 with
  | ok args =>
    obtain ⟨first, last, block⟩ := args
    exact (writes_recordPhase checks).replays (fun _ completed => PhaseRecord.batch_again _ completed) s
  | error f =>
    refine (Writes.failing (fun s => ⟨f, ?_⟩) fun t => (t, none)).replays (fun _ _ => rfl) s
    simp only [recordPhase, checks, checked]

theorem forM_storable_failed {op : Operation} {name : String} {ws : List StoredWithdrawal}
    (tooLarge : ¬∀ w ∈ ws, w.event.blockNumber.toNat ≤ storableMaximum) :
    ∃ f, ws.forM (fun w => storable op name w.event.blockNumber) = .error f := by
  cases checked : ws.forM (fun w => storable op name w.event.blockNumber) with
  | error f => exact ⟨f, rfl⟩
  | ok u =>
    refine absurd (fun w member => ?_) tooLarge
    obtain ⟨_, fits⟩ := forM_ok checked w member
    exact storable_ok fits

/-- An ingest whose block numbers fail their check stops there, on every store. -/
theorem ingest_of_error {s : Store} {ws : List StoredWithdrawal} {f : Fault}
    (failed : ws.forM (fun w => storable .ingest "block_number" w.event.blockNumber) = .error f) :
    s.ingest ws = (.error f, s) := by
  have nonempty : ws.isEmpty = false := by
    cases ws with
    | nil => cases failed
    | cons w rest => rfl
  simp only [ingest, nonempty, Bool.false_eq_true, if_false, failed, checked]

/-- A finalize whose keys fail their check stops there, on every store. -/
theorem finalize_of_error {s : Store} {keys : List (Value × Value)} {f : Fault} (failed : finalizeKeys keys = .error f) :
    s.finalize keys = (.error f, s) := by
  have nonempty : keys.isEmpty = false := by
    cases keys with
    | nil => cases failed
    | cons key rest => rfl
  simp only [finalize, nonempty, Bool.false_eq_true, if_false, failed, checked]

theorem ingest_replays (s : Store) (ws : List StoredWithdrawal) : Replays (·.ingest ws) s := by
  by_cases fits : ∀ w ∈ ws, w.event.blockNumber.toNat ≤ storableMaximum
  · exact (writes_ingest fits).replays (fun _ completed => Tables.ingest_again completed) s
  · -- a block number beyond a cell fails the check before anything runs, on every store
    obtain ⟨f, failed⟩ := @forM_storable_failed .ingest "block_number" ws fits
    refine (Writes.failing (fun s => ⟨f, ?_⟩) fun t => (t, none)).replays (fun _ _ => rfl) s
    rw [ingest_of_error failed]

theorem finalize_replays (s : Store) (keys : List (Value × Value)) : Replays (·.finalize keys) s := by
  cases named : finalizeKeys keys with
  | ok ks => exact (writes_finalize named).replays (fun t _ => Tables.finalize_again ks t) s
  | error f =>
    -- a key that fails its check fails the call before anything runs, on every store
    refine (Writes.failing (fun s => ⟨f, ?_⟩) fun t => (t, none)).replays (fun _ _ => rfl) s
    rw [finalize_of_error named]

/-- On every store, inside the owner's transaction or not, a phase record, an ingest or a finalize
that succeeded succeeds again and leaves every row as it was, and attempts of it ending in a
success leave what one success does, in both cases but for the engine's record. -/
theorem writes_replay_idempotent (s : Store) :
    (∀ p start stop l1, Replays (·.recordPhase p start stop l1) s) ∧
      (∀ ws, Replays (·.ingest ws) s) ∧ ∀ keys, Replays (·.finalize keys) s :=
  ⟨recordPhase_replays s, ingest_replays s, finalize_replays s⟩

end Store

end BridgeLedger
