import BridgeLedger.Proofs.Store.Reads

namespace BridgeLedger

namespace Cell

def natural? : Cell → Option Nat
  | .integer (.ofNat n) => some n
  | _ => none

@[simp] theorem natural?_natCast (n : Nat) : (Cell.integer n).natural? = some n := rfl

@[simp] theorem natural?_null : Cell.null.natural? = none := rfl

theorem natural?_ofBlock? (b : Option (Word .w64)) : (Cell.ofBlock? b).natural? = b.map Word.toNat := by
  cases b <;> rfl

/-- A phase cell as the store writes it reads as the number it holds. -/
theorem StoredBlock.loadOptionalWord_natural? {c : Cell} (stored : c.StoredBlock) (column : String) :
    ∃ x, c.loadOptionalWord column = .ok x ∧ x.map Word.toNat = c.natural? := by
  obtain ⟨x, loaded, rfl⟩ := stored.loadOptionalWord column
  exact ⟨x, loaded, (natural?_ofBlock? x).symm⟩

end Cell

theorem natural?_greaterCell_integer (lastOfEqual : Bool) (m n : Nat) :
    (greaterCell lastOfEqual (.integer m) (.integer n)).natural? = some (max m n) := by
  simp only [greaterCell, Cell.compare_integer_natCast]
  cases order : compare m n with
  | lt =>
    have below := Nat.compare_eq_lt.mp order
    rw [Cell.natural?_natCast, Nat.max_eq_right (Nat.le_of_lt below)]
  | eq =>
    have same := Nat.compare_eq_eq.mp order
    subst same
    cases lastOfEqual <;> simp
  | gt =>
    have above := Nat.compare_eq_gt.mp order
    rw [Cell.natural?_natCast, Nat.max_eq_left (Nat.le_of_lt above)]

/-- Folding `greaterCell` over phase cells as the store writes them keeps the largest number among
the best cell and the cells folded. -/
theorem natural?_foldl_greaterCell (lastOfEqual : Bool) :
    ∀ (cs : List Cell) (best : Cell), best.StoredBlock → (∀ c ∈ cs, c.StoredBlock) →
      (cs.foldl (greaterCell lastOfEqual) best).natural? =
        (best.natural?.toList ++ cs.filterMap Cell.natural?).max?
  | [], best, stored, _ => by
    rcases stored with rfl | ⟨m, -, rfl⟩ <;> rfl
  | c :: rest, best, stored, each => by
    have next : (greaterCell lastOfEqual best c).StoredBlock := by
      rcases greaterCell_picks lastOfEqual best c with kept | taken
      · rw [kept]
        exact stored
      · rw [taken]
        exact each c List.mem_cons_self
    rw [List.foldl_cons, natural?_foldl_greaterCell lastOfEqual rest _ next
      fun c' member => each c' (List.mem_cons_of_mem c member)]
    -- the step keeps the larger of the two numbers, and the list's largest is unchanged by that
    rcases each c List.mem_cons_self with rfl | ⟨n, -, rfl⟩
    · cases stored with
      | inl null => subst null; rfl
      | inr integer => obtain ⟨m, -, rfl⟩ := integer; rfl
    · rcases stored with rfl | ⟨m, -, rfl⟩
      · rfl
      · rw [natural?_greaterCell_integer]
        rfl

/-- Of phase cells as the store writes them, the greatest holds the largest number they hold, and
is null when they hold none. -/
theorem natural?_greatestCell (lastOfEqual : Bool) {cs : List Cell} (stored : ∀ c ∈ cs, c.StoredBlock) :
    (greatestCell lastOfEqual cs).natural? = (cs.filterMap Cell.natural?).max? := by
  rw [greatestCell_eq_foldl, natural?_foldl_greaterCell lastOfEqual cs .null (.inl rfl) stored]
  rfl

theorem List.max?_eq_of_mem_iff {xs ys : List Nat} (same : ∀ a, a ∈ xs ↔ a ∈ ys) : xs.max? = ys.max? := by
  cases largest : xs.max? with
  | none =>
    have empty : ys = [] := List.eq_nil_iff_forall_not_mem.mpr fun a member =>
      by simp only [List.max?_eq_none_iff.mp largest, List.not_mem_nil] at same; exact (same a).mpr member
    rw [empty, List.max?_nil]
  | some m =>
    obtain ⟨member, above⟩ := List.max?_eq_some_iff.mp largest
    exact (List.max?_eq_some_iff.mpr ⟨(same m).mp member, fun b inY => above b ((same b).mpr inY)⟩).symm

theorem List.max?_le_of_subset {xs ys : List Nat} (sub : ∀ a ∈ xs, a ∈ ys) {m : Nat} (largest : xs.max? = some m) :
    ∃ m', ys.max? = some m' ∧ m ≤ m' := by
  have member := sub m (List.max?_mem largest)
  obtain ⟨m', top⟩ := Option.isSome_iff_exists.mp (List.isSome_max?_of_mem member)
  exact ⟨m', top, (List.max?_eq_some_iff.mp top).2 m member⟩

namespace Tables

/-- The L2 blocks of the withdrawal rows, as numbers. -/
def observedBlocks (t : Tables) : List Nat := t.withdrawals.filterMap (·.block.natural?)

/-- The L1 blocks recorded for a commit, one for each block row that has one, as numbers. -/
def committedBlocks (t : Tables) : List Nat := t.blocks.filterMap (·.commit.natural?)

theorem WellFormed.natural?_highestObserved {t : Tables} (wf : t.WellFormed) :
    t.highestObserved.natural? = t.observedBlocks.max? := by
  have stored : ∀ c ∈ t.withdrawals.map (·.block), c.StoredBlock := by
    intro c member
    obtain ⟨r, row, rfl⟩ := List.mem_map.mp member
    obtain ⟨n, fits, atN⟩ := (wf.withdrawals r row).block
    exact .inr ⟨n, fits, atN⟩
  rw [Tables.highestObserved, natural?_greatestCell true stored, List.filterMap_map]
  rfl

theorem WellFormed.natural?_highestCommitted {t : Tables} (wf : t.WellFormed) :
    t.highestCommitted.natural? = t.committedBlocks.max? := by
  -- the block rows in order are the block rows
  have sorted : ∀ r, r ∈ t.blocksInOrder ↔ r ∈ t.blocks := fun r => (List.mergeSort_perm _ _).mem_iff
  have stored : ∀ c ∈ t.blocksInOrder.map (·.commit), c.StoredBlock := by
    intro c member
    obtain ⟨r, row, rfl⟩ := List.mem_map.mp member
    exact (wf.blocks r ((sorted r).mp row)).phase .commit
  rw [Tables.highestCommitted, natural?_greatestCell false stored, List.filterMap_map]
  refine List.max?_eq_of_mem_iff fun n => ?_
  simp only [committedBlocks, List.mem_filterMap, Function.comp_apply, sorted]

theorem Holds.observedBlocks {t : Tables} {ws : List StoredWithdrawal} (holds : t.Holds ws) :
    t.observedBlocks = ws.map fun w => w.event.blockNumber.toNat := by
  have each : (fun r : WithdrawalRow => r.block.natural?) ∘ StoredWithdrawal.toRow =
      some ∘ fun w => w.event.blockNumber.toNat := rfl
  rw [Tables.observedBlocks, holds.rows, List.filterMap_map, each, List.filterMap_eq_map]

theorem committedBlocks_of_rows {t : Tables} {ls : List Lifecycle} (rows : t.blocks = ls.map Lifecycle.toRow) :
    t.committedBlocks = ls.filterMap fun l => l.commit.map Word.toNat := by
  rw [committedBlocks, rows, List.filterMap_map]
  congr 1
  funext l
  exact Cell.natural?_ofBlock? l.commit

theorem WellFormed.exists_lifecycles {t : Tables} (wf : t.WellFormed) :
    ∃ ls : List Lifecycle, t.blocks = ls.map Lifecycle.toRow := by
  suffices lifted : ∀ rows : List BlockRow, (∀ r ∈ rows, r.Stored) → ∃ ls : List Lifecycle, rows = ls.map Lifecycle.toRow from
    lifted t.blocks wf.blocks
  intro rows
  induction rows with
  | nil => exact fun _ => ⟨[], rfl⟩
  | cons r rest ih =>
    intro stored
    obtain ⟨l, rfl⟩ := (stored r List.mem_cons_self).exists_toRow
    obtain ⟨ls, rfl⟩ := ih fun r' member => stored r' (List.mem_cons_of_mem _ member)
    exact ⟨l :: ls, rfl⟩

end Tables

namespace Store

theorem watermark_natural? {s : Store} {op : Operation} {st : Statement} {cell : Tables → Cell}
    (stored : (cell s.connection.tables).StoredBlock) (connected : s.connection.closed = false) (column : String) :
    ∃ x, (s.read op st true fun t => converted ((cell t).loadOptionalWord column)).1 = .ok x ∧
      x.map Word.toNat = (cell s.connection.tables).natural? := by
  obtain ⟨x, loaded, value⟩ := stored.loadOptionalWord_natural? column
  refine ⟨x, ?_, value⟩
  rw [read_answer connected rfl, loaded]
  rfl

variable {s : Store} (wf : s.connection.tables.WellFormed) (connected : s.connection.closed = false)

include wf connected

/-- On an open store whose rows are as the store writes them, the highest observed block is the
largest block of a withdrawal row. -/
theorem highestObserved_max? : ∃ x, s.highestObserved.1 = .ok x ∧
    x.map Word.toNat = s.connection.tables.observedBlocks.max? := by
  obtain ⟨x, answer, value⟩ := watermark_natural? wf.highestObserved connected "l2_block_number"
  exact ⟨x, answer, value.trans wf.natural?_highestObserved⟩

/-- And the highest committed block is the largest L1 block recorded for a commit. -/
theorem highestCommitted_max? : ∃ y, s.highestCommitted.1 = .ok y ∧
    y.map Word.toNat = s.connection.tables.committedBlocks.max? := by
  obtain ⟨y, answer, value⟩ := watermark_natural? wf.highestCommitted connected (Phase.column .commit)
  exact ⟨y, answer, value.trans wf.natural?_highestCommitted⟩

end Store

namespace Tables

theorem observedBlocks_recordRange (t : Tables) (p : Phase) (l1 first count : Nat) :
    (executeRange (fun t => t.recordBlock p l1) first count t).1.observedBlocks = t.observedBlocks := by
  rw [observedBlocks, recordRange_withdrawals]
  rfl

theorem withdrawals_ingest (ws : List StoredWithdrawal) (t : Tables) :
    ∀ r ∈ t.withdrawals, r ∈ (executeMany ingestOne ws t).1.withdrawals := by
  refine executeMany_keeps _ ws t (P := fun t' => ∀ r ∈ t.withdrawals, r ∈ t'.withdrawals) ?_ fun _ kept => kept
  intro t₁ w t₂ _ kept written r member
  rw [ingestOne_ok written]
  unfold insertNew
  split
  · exact kept r member
  · exact List.mem_append_left _ (kept r member)

theorem observedBlocks_ingest (ws : List StoredWithdrawal) (t : Tables) :
    ∀ n ∈ t.observedBlocks, n ∈ (executeMany ingestOne ws t).1.observedBlocks := by
  intro n member
  obtain ⟨r, row, atR⟩ := List.mem_filterMap.mp member
  exact List.mem_filterMap.mpr ⟨r, withdrawals_ingest ws t r row, atR⟩

/-- Finalizing changes only flags, so every row keeps its block. -/
theorem observedBlocks_finalize (ks : List WithdrawalKey) (t : Tables) :
    (executeMany (fun t k => .ok (t.finalizeKey k)) ks t).1.observedBlocks = t.observedBlocks := by
  refine executeMany_keeps _ ks t (P := fun t' => t'.observedBlocks = t.observedBlocks) ?_ rfl
  intro t₁ k t₂ _ same written
  cases written
  rw [← same, observedBlocks, observedBlocks, finalizeKey, List.filterMap_map]
  congr 1
  funext r
  simp only [Function.comp_apply]
  split <;> rfl

theorem committedBlocks_upsertPhase {p : Phase} (other : p ≠ .commit) (t : Tables) (n : Int) (c : Cell) :
    (t.upsertPhase p n c).committedBlocks = t.committedBlocks := by
  have kept (r : BlockRow) : (r.setPhase p c).commit = r.commit := by
    rw [← BlockRow.phase, BlockRow.phase_setPhase, if_neg (Ne.symm other)]
    rfl
  cases present : t.blocks.any (·.number == n)
  · rw [committedBlocks, blocks_upsertPhase_of_absent present, List.filterMap_cons, BlockRow.fresh, kept]
    rfl
  · rw [committedBlocks, blocks_upsertPhase_of_present present, List.filterMap_map]
    congr 1
    funext r
    simp only [Function.comp_apply, BlockRow.setPhaseAt]
    split
    · rw [kept]
    · rfl

/-- Recording a phase other than a commit leaves every commit as it was. -/
theorem committedBlocks_recordRange {p : Phase} (other : p ≠ .commit) (t : Tables) (l1 first count : Nat) :
    (executeRange (fun t => t.recordBlock p l1) first count t).1.committedBlocks = t.committedBlocks := by
  rw [executeRange_eq]
  refine executeMany_keeps _ _ t (P := fun t' => t'.committedBlocks = t.committedBlocks) ?_ rfl
  intro t₁ n t₂ _ same written
  rw [recordBlock_ok written, committedBlocks_upsertPhase other, same]

end Tables

namespace Connection

/-- A connection as open as `c` that shows the rows `c` shows. -/
structure Shows (c c' : Connection) : Prop where
  closed : c'.closed = c.closed
  withdrawals : c'.tables.withdrawals = c.tables.withdrawals
  blocks : c'.tables.blocks = c.tables.blocks

theorem Shows.refl (c : Connection) : c.Shows c := ⟨rfl, rfl, rfl⟩

theorem Shows.trans {c c' c'' : Connection} (first : c.Shows c') (second : c'.Shows c'') : c.Shows c'' :=
  ⟨second.closed.trans first.closed, second.withdrawals.trans first.withdrawals, second.blocks.trans first.blocks⟩

theorem Shows.of_tables {c c' : Connection} (closed : c'.closed = c.closed) (seen : c'.tables = c.tables) :
    c.Shows c' :=
  ⟨closed, by rw [seen], by rw [seen]⟩

theorem shows_engine (c : Connection) (e : Engine) : c.Shows { c with engine := e } := ⟨rfl, rfl, rfl⟩

theorem shows_settle (c : Connection) : c.Shows c.settle := by
  unfold settle
  split
  · exact Shows.refl c
  · split
    · rename_i t pending
      exact Shows.of_tables rfl (by simp only [tables, pending, Option.getD_some, Option.getD_none])
    · exact Shows.refl c

theorem shows_write {c : Connection} {t : Tables} (withdrawals : t.withdrawals = c.tables.withdrawals)
    (blocks : t.blocks = c.tables.blocks) : c.Shows (c.write t) :=
  ⟨closed_write c t, by rw [tables_write, withdrawals], by rw [tables_write, blocks]⟩

theorem shows_begin (c : Connection) : c.Shows c.begin.2 := by
  unfold «begin»
  split
  · exact Shows.refl c
  · split
    · exact shows_engine c _
    · rename_i noTransaction
      exact Shows.of_tables rfl (by simp only [tables, noTransaction, Option.getD_some, Option.getD_none])

theorem shows_commit {c c' : Connection} (committed : c.commit = .ok c') : c.Shows c' := by
  unfold commit at committed
  split at committed
  · cases committed
  · split at committed
    · rename_i t pending
      cases committed
      exact Shows.of_tables rfl (by simp only [tables, pending, Option.getD_some, Option.getD_none])
    · cases committed
      exact Shows.refl c

/-- A statement the owner runs directly that writes no row, as a guard's creation or removal, shows
the same rows when its change keeps them. -/
theorem shows_directly {α : Type} (c : Connection) (st : Statement) (a : α) {change : α → Tables → Except Violation Tables}
    (keeps : ∀ t t', change a t = .ok t' → t'.withdrawals = t.withdrawals ∧ t'.blocks = t.blocks) :
    c.Shows (c.directly st false (.ok a) change).2 := by
  unfold directly
  split
  · exact Shows.refl c
  · simp only [Bool.false_eq_true, if_false]
    split
    · rename_i t changed
      obtain ⟨withdrawals, blocks⟩ := keeps _ _ changed
      exact ((shows_engine c _).trans (shows_write withdrawals blocks)).trans
        ((shows_engine _ _).trans (shows_settle _))
    · exact shows_engine c _

theorem shows_addGuard (c : Connection) (g : Guard) : c.Shows (c.addGuard g).2 := by
  unfold addGuard
  have counted : c.Shows { c with guardRequests := c.guardRequests + 1 } := ⟨rfl, rfl, rfl⟩
  refine counted.trans (shows_directly _ _ () fun t t' added => ?_)
  cases added
  exact ⟨rfl, rfl⟩

theorem shows_dropGuards (c : Connection) : c.Shows c.dropGuards.2 := by
  unfold dropGuards
  split
  · exact Shows.refl c
  · split
    · exact Shows.refl c
    · dsimp only
      have cleared : c.Shows (c.write c.tables.clearGuards) := shows_write rfl rfl
      exact (cleared.trans (shows_engine _ _)).trans (shows_settle _)

end Connection

namespace Store

/-- A step of the owner's that is no call on the store, no overwrite and no rollback closes the
store or shows the same rows: beginning and committing a transaction, guards, a new store on the
connection, and reading the tables write no row. -/
theorem step_shows_of_owner {s : Store} {st : Step} (owner : st.callsStore = false) (through : st.overwrites = false)
    (kept : st ≠ .rollback) :
    (s.step st).2.connection.closed = true ∨ s.connection.Shows (s.step st).2.connection := by
  cases st with
  | reopen fields =>
    simp only [step]
    split
    · rename_i s' reopened
      obtain ⟨e, same⟩ := reopen_connection reopened
      rw [same]
      exact .inr (Connection.shows_engine _ e)
    · exact .inr (Connection.Shows.refl _)
  | «begin» => exact .inr (Connection.shows_begin _)
  | commit =>
    simp only [step, step.changed, onConnection]
    cases committed : s.connection.commit with
    | error f => exact .inr (Connection.Shows.refl _)
    | ok c' => exact .inr (Connection.shows_commit committed)
  | rollback => exact absurd rfl kept
  | inTransaction => exact .inr (Connection.Shows.refl _)
  | close => exact .inl rfl
  | guard table block => exact .inr (Connection.shows_addGuard _ _)
  | clearGuards => exact .inr (Connection.shows_dropGuards _)
  | dump =>
    simp only [step]
    split
    · exact .inr (Connection.shows_engine _ _)
    · exact .inr (Connection.Shows.refl _)
  | overwriteWithdrawal => cases through
  | overwriteBlock => cases through
  | _ => cases owner

end Store

theorem Word.eq_of_map_toNat {w : Width} : ∀ {x y : Option (Word w)}, x.map Word.toNat = y.map Word.toNat → x = y
  | none, none, _ => rfl
  | some a, some b, same => by
    have numbers : a.toNat = b.toNat := Option.some.inj same
    rw [Word.ext numbers]
  | none, some _, same => by cases same
  | some _, none, same => by cases same

namespace Store

/-- A store that is closed, or as open as another with tables that stand in `Q` to the other's. -/
def ClosedOr (Q : Tables → Tables → Prop) (s s' : Store) : Prop :=
  s'.connection.closed = true ∨ (s'.connection.closed = s.connection.closed ∧ Q s.connection.tables s'.connection.tables)

theorem closedOr_of_shows {Q : Tables → Tables → Prop}
    (keeps : ∀ t t', t'.withdrawals = t.withdrawals → t'.blocks = t.blocks → Q t t') {s s' : Store} :
    s'.connection.closed = true ∨ s.connection.Shows s'.connection → ClosedOr Q s s'
  | .inl closed => .inl closed
  | .inr shows => .inr ⟨shows.closed, keeps _ _ shows.withdrawals shows.blocks⟩

theorem ClosedOr.of_connected {Q : Tables → Tables → Prop} {s s' : Store} (kept : ClosedOr Q s s')
    (connected : s'.connection.closed = false) : Q s.connection.tables s'.connection.tables := by
  rcases kept with closed | ⟨-, held⟩
  · rw [connected] at closed
    cases closed
  · exact held

/-- What each step of a run keeps of its store unless it closes the store, the run keeps. -/
theorem closedOr_after (Q : Tables → Tables → Prop) (Good : Store → List Step → Prop) (refl : ∀ t, Q t t)
    (trans : ∀ t t' t'', Q t t' → Q t' t'' → Q t t'')
    (step : ∀ s st rest, Good s (st :: rest) → ClosedOr Q s (s.step st).2 ∧ Good (s.step st).2 rest) :
    ∀ {s : Store} {post : List Step}, Good s post → ClosedOr Q s (s.after post)
  | _, [], _ => .inr ⟨rfl, refl _⟩
  | s, st :: rest, good => by
    obtain ⟨first, later⟩ := step s st rest good
    -- a closed store stays closed, so only the steps that leave it open need composing
    rcases closedOr_after Q Good refl trans step later with closed | ⟨same, kept⟩
    · exact .inl closed
    · rcases first with closed | ⟨same', kept'⟩
      · exact .inl (same.trans closed)
      · exact .inr ⟨same.trans same', trans _ _ _ kept' kept⟩

/-- No step but a rollback or an overwrite takes a block away from the withdrawal rows: a write
adds rows or changes flags, and the owner's other steps show the same rows. -/
theorem step_observedBlocks {s : Store} {st : Step} (through : st.overwrites = false) (kept : st ≠ .rollback) :
    ClosedOr (fun t t' => ∀ n ∈ t.observedBlocks, n ∈ t'.observedBlocks) s (s.step st).2 := by
  cases isCall : st.callsStore with
  | false =>
    refine closedOr_of_shows (fun t t' withdrawals _ => ?_) (step_shows_of_owner isCall through kept)
    unfold Tables.observedBlocks
    rw [withdrawals]
    exact fun n member => member
  | true =>
    rcases call_cases s isCall with ⟨-, e, same⟩ |
      ⟨-, ⟨_, _, _, _, p, first, last, block, -, -, -, wrote⟩ | ⟨_, ws, -, -, wrote⟩ | ⟨_, ks, -, -, wrote⟩⟩
    · rw [same]
      exact .inr ⟨rfl, fun n member => member⟩
    · refine .inr ⟨wrote.connected, ?_⟩
      dsimp only
      rw [wrote.tables, Tables.observedBlocks_recordRange]
      exact fun n member => member
    · exact .inr ⟨wrote.connected, by rw [wrote.tables]; exact Tables.observedBlocks_ingest ws _⟩
    · refine .inr ⟨wrote.connected, ?_⟩
      dsimp only
      rw [wrote.tables, Tables.observedBlocks_finalize]
      exact fun n member => member

/-- No step but a rollback, an overwrite or a successful record of a commit changes a commit. -/
theorem step_committedBlocks {s : Store} {st : Step} (through : st.overwrites = false) (kept : st ≠ .rollback)
    (uncommitted : (s.step st).1.isOk = true → ∀ r, st.phaseRecord? = some r → r.phase ≠ .commit) :
    ClosedOr (fun t t' => t'.committedBlocks = t.committedBlocks) s (s.step st).2 := by
  cases isCall : st.callsStore with
  | false =>
    refine closedOr_of_shows (fun t t' _ blocks => ?_) (step_shows_of_owner isCall through kept)
    unfold Tables.committedBlocks
    rw [blocks]
  | true =>
    rcases call_cases s isCall with ⟨-, e, same⟩ |
      ⟨ok, ⟨phase, start, stop, l1, p, first, last, block, rfl, parsed, checks, wrote⟩ | ⟨_, ws, -, -, wrote⟩ |
        ⟨_, ks, -, -, wrote⟩⟩
    · rw [same]
      exact .inr ⟨rfl, rfl⟩
    · have recorded : (Step.recordPhase phase start stop l1).phaseRecord? = some ⟨p, first, last, block⟩ := by
        simp only [Step.phaseRecord?, parsed, checks]
      have other : p ≠ .commit := uncommitted ok _ recorded
      refine .inr ⟨wrote.connected, ?_⟩
      dsimp only
      rw [wrote.tables, Tables.committedBlocks_recordRange other]
    · refine .inr ⟨wrote.connected, ?_⟩
      dsimp only
      rw [wrote.tables]
      unfold Tables.committedBlocks
      rw [Tables.ingest_blocks]
    · refine .inr ⟨wrote.connected, ?_⟩
      dsimp only
      rw [wrote.tables]
      unfold Tables.committedBlocks
      rw [Tables.finalize_blocks]

theorem after_observedBlocks {s : Store} {post : List Step}
    (allowed : ∀ st ∈ post, st.overwrites = false ∧ st ≠ .rollback) :
    ClosedOr (fun t t' => ∀ n ∈ t.observedBlocks, n ∈ t'.observedBlocks) s (s.after post) := by
  refine closedOr_after (fun t t' => ∀ n ∈ t.observedBlocks, n ∈ t'.observedBlocks)
    (fun _ post => ∀ st ∈ post, st.overwrites = false ∧ st ≠ .rollback)
    (fun _ _ member => member) (fun _ _ _ first second n member => second n (first n member)) ?_ allowed
  intro s st rest allowed
  obtain ⟨through, kept⟩ := allowed st List.mem_cons_self
  exact ⟨step_observedBlocks through kept, fun st' member => allowed st' (List.mem_cons_of_mem st member)⟩

theorem after_committedBlocks {s : Store} {post : List Step}
    (allowed : ∀ st ∈ post, st.overwrites = false ∧ st ≠ .rollback)
    (uncommitted : ∀ st ∈ s.succeeded post, ∀ r, st.phaseRecord? = some r → r.phase ≠ .commit) :
    ClosedOr (fun t t' => t'.committedBlocks = t.committedBlocks) s (s.after post) := by
  refine closedOr_after (fun t t' => t'.committedBlocks = t.committedBlocks) (fun s post => (∀ st ∈ post, st.overwrites = false ∧ st ≠ .rollback) ∧
      ∀ st ∈ s.succeeded post, ∀ r, st.phaseRecord? = some r → r.phase ≠ .commit)
    (fun _ => rfl) (fun _ _ _ first second => second.trans first) ?_ ⟨allowed, uncommitted⟩
  intro s st rest ⟨allowed, uncommitted⟩
  -- the successful steps of the run are this one, if it succeeded, then those of the rest
  have succeeded : s.succeeded (st :: rest) =
      (if (s.step st).1.isOk then [st] else []) ++ (s.step st).2.succeeded rest := rfl
  obtain ⟨through, kept⟩ := allowed st List.mem_cons_self
  refine ⟨step_committedBlocks through kept fun ok => uncommitted st ?_,
    fun st' member => allowed st' (List.mem_cons_of_mem st member), fun st' member => uncommitted st' ?_⟩
  · rw [succeeded, if_pos ok]
    exact List.mem_cons_self
  · rw [succeeded]
    exact List.mem_append_right _ member

theorem connected_of_read_ok {α : Type} {s : Store} {op : Operation} {st : Statement} {fits : Bool}
    {answer : Tables → Except Fault α} {a : α} (done : (s.read op st fits answer).1 = .ok a) :
    s.connection.closed = false := by
  cases closed : s.connection.closed with
  | false => rfl
  | true =>
    rw [read_closed closed] at done
    cases done

theorem highestObserved_value {s : Store} (wf : s.connection.tables.WellFormed) {x : Option (Word .w64)}
    (answer : s.highestObserved.1 = .ok x) : x.map Word.toNat = s.connection.tables.observedBlocks.max? := by
  obtain ⟨z, found, value⟩ := highestObserved_max? wf (connected_of_read_ok answer)
  rw [answer, Except.ok.injEq] at found
  rw [found]
  exact value

theorem highestCommitted_value {s : Store} (wf : s.connection.tables.WellFormed) {y : Option (Word .w64)}
    (answer : s.highestCommitted.1 = .ok y) : y.map Word.toNat = s.connection.tables.committedBlocks.max? := by
  obtain ⟨z, found, value⟩ := highestCommitted_max? wf (connected_of_read_ok answer)
  rw [answer, Except.ok.injEq] at found
  rw [found]
  exact value

/-- Over a stretch of steps that only add withdrawal rows, the highest observed block never goes
down. -/
theorem highestObserved_grows {s s' : Store} (wf : s.connection.tables.WellFormed)
    (wf' : s'.connection.tables.WellFormed)
    (kept : ClosedOr (fun t t' => ∀ n ∈ t.observedBlocks, n ∈ t'.observedBlocks) s s') {b : Word .w64}
    {x : Option (Word .w64)} (before : s.highestObserved.1 = .ok (some b)) (after : s'.highestObserved.1 = .ok x) :
    ∃ b', x = some b' ∧ b.toNat ≤ b'.toNat := by
  have grows := kept.of_connected (connected_of_read_ok after)
  obtain ⟨m, largest, above⟩ := List.max?_le_of_subset grows (highestObserved_value wf before).symm
  obtain ⟨b', rfl, atB⟩ := Option.map_eq_some_iff.mp ((highestObserved_value wf' after).trans largest)
  exact ⟨b', rfl, atB ▸ above⟩

/-- Over a stretch of steps that change no commit, the highest committed block stays. -/
theorem highestCommitted_kept {s s' : Store} (wf : s.connection.tables.WellFormed)
    (wf' : s'.connection.tables.WellFormed)
    (kept : ClosedOr (fun t t' => t'.committedBlocks = t.committedBlocks) s s') {y y' : Option (Word .w64)}
    (before : s.highestCommitted.1 = .ok y) (after : s'.highestCommitted.1 = .ok y') : y = y' := by
  have same := kept.of_connected (connected_of_read_ok after)
  refine Word.eq_of_map_toNat ?_
  rw [highestCommitted_value wf before, highestCommitted_value wf' after, same]

section Values

variable {s : Store} (wf : s.connection.tables.WellFormed) (connected : s.connection.closed = false)

include wf connected

/-- The highest observed block is the largest block of a stored withdrawal, finalized or not, and
none exactly when no withdrawal is stored. -/
theorem highestObserved_of_holds {ws : List StoredWithdrawal} (holds : s.connection.tables.Holds ws) :
    ∃ x, s.highestObserved.1 = .ok x ∧ x.map Word.toNat = (ws.map fun w => w.event.blockNumber.toNat).max? ∧
      (x = none ↔ ws = []) := by
  obtain ⟨x, answer, value⟩ := highestObserved_max? wf connected
  rw [holds.observedBlocks] at value
  refine ⟨x, answer, value, ?_⟩
  rw [← Option.map_eq_none_iff, value, List.max?_eq_none_iff, List.map_eq_nil_iff]

/-- The highest committed block is the largest L1 block recorded for a commit, over the lifecycles
that have one, and none exactly when none has. -/
theorem highestCommitted_of_rows {ls : List Lifecycle} (rows : s.connection.tables.blocks = ls.map Lifecycle.toRow) :
    ∃ y, s.highestCommitted.1 = .ok y ∧ y.map Word.toNat = (ls.filterMap fun l => l.commit.map Word.toNat).max? ∧
      (y = none ↔ ∀ l ∈ ls, l.commit = none) := by
  obtain ⟨y, answer, value⟩ := highestCommitted_max? wf connected
  rw [Tables.committedBlocks_of_rows rows] at value
  refine ⟨y, answer, value, ?_⟩
  rw [← Option.map_eq_none_iff, value, List.max?_eq_none_iff, List.filterMap_eq_nil_iff]
  simp only [Option.map_eq_none_iff]

end Values

/-- On every state reached from a new connection without overwrites, the watermarks are the largest
L2 block of a stored withdrawal and the largest L1 block of a commit, or none; after it, without a
rollback, the first never goes down and the second changes only by a commit's phase record. -/
theorem watermarks_follow_the_rows {s : Store} (opened : s.Opened) {pre : List Step}
    (through : ∀ st ∈ pre, st.overwrites = false) :
    ((s.after pre).connection.closed = false →
      (∃ ws, (s.after pre).connection.tables.Holds ws ∧ ∃ x, (s.after pre).highestObserved.1 = .ok x ∧
        x.map Word.toNat = (ws.map fun w => w.event.blockNumber.toNat).max? ∧ (x = none ↔ ws = [])) ∧
      ∃ ls : List Lifecycle, (s.after pre).connection.tables.blocks = ls.map Lifecycle.toRow ∧
        ∃ y, (s.after pre).highestCommitted.1 = .ok y ∧
          y.map Word.toNat = (ls.filterMap fun l => l.commit.map Word.toNat).max? ∧
          (y = none ↔ ∀ l ∈ ls, l.commit = none)) ∧
    ∀ post, (∀ st ∈ post, st.overwrites = false ∧ st ≠ .rollback) →
      (∀ b x, (s.after pre).highestObserved.1 = .ok (some b) → (s.after (pre ++ post)).highestObserved.1 = .ok x →
        ∃ b', x = some b' ∧ b.toNat ≤ b'.toNat) ∧
      ((∀ st ∈ (s.after pre).succeeded post, ∀ r, st.phaseRecord? = some r → r.phase ≠ .commit) →
        ∀ y y', (s.after pre).highestCommitted.1 = .ok y → (s.after (pre ++ post)).highestCommitted.1 = .ok y' →
          y = y') := by
  have wf : (s.after pre).connection.WellFormed := after_wellFormed opened.wellFormed through
  refine ⟨fun connected => ⟨?_, ?_⟩, fun post allowed => ⟨?_, ?_⟩⟩
  · obtain ⟨ws, holds⟩ := wf.tables.holds
    exact ⟨ws, holds, highestObserved_of_holds wf.tables connected holds⟩
  · obtain ⟨ls, rows⟩ := wf.tables.exists_lifecycles
    exact ⟨ls, rows, highestCommitted_of_rows wf.tables connected rows⟩
  all_goals
    have wf' : ((s.after pre).after post).connection.WellFormed :=
      after_wellFormed wf fun st member => (allowed st member).1
    rw [after_append]
  · exact fun b x before after => highestObserved_grows wf.tables wf'.tables (after_observedBlocks allowed) before after
  · exact fun uncommitted y y' before after =>
      highestCommitted_kept wf.tables wf'.tables (after_committedBlocks allowed uncommitted) before after

/-- A commit recorded for blocks 1 to 3 in L1 block 9 on a fresh store. -/
theorem watermarks_follow_the_rows_commit :
    Store.Opened ⟨Settings.default, Connection.fresh⟩ ∧
      (∀ st ∈ [Step.recordPhase (.str "commit") (.int 1) (.int 3) (.int 9)], st.overwrites = false) ∧
      (Store.after ⟨Settings.default, Connection.fresh⟩
        [.recordPhase (.str "commit") (.int 1) (.int 3) (.int 9)]).connection.closed = false ∧
      ∃ ls : List Lifecycle, (Store.after ⟨Settings.default, Connection.fresh⟩
          [.recordPhase (.str "commit") (.int 1) (.int 3) (.int 9)]).connection.tables.blocks = ls.map Lifecycle.toRow ∧
        ∃ y, (Store.after ⟨Settings.default, Connection.fresh⟩
            [.recordPhase (.str "commit") (.int 1) (.int 3) (.int 9)]).highestCommitted.1 = .ok y ∧
          y.map Word.toNat = (ls.filterMap fun l => l.commit.map Word.toNat).max? ∧
          (y = none ↔ ∀ l ∈ ls, l.commit = none) :=
  ⟨⟨rfl, rfl, rfl⟩, by decide, rfl, ((watermarks_follow_the_rows ⟨rfl, rfl, rfl⟩ (by decide)).1 rfl).2⟩

end Store

end BridgeLedger
