import BridgeLedger.Proofs.Store.Ledger

namespace BridgeLedger

/-- A phase record: the L2 blocks from `first` to `last` went through `phase` in L1 block `l1`. -/
structure PhaseRecord where
  phase : Phase
  first : Word .w64
  last : Word .w64
  l1 : Word .w64

/-- Whether the range of a record holds a block, both ends included. -/
def PhaseRecord.covers (r : PhaseRecord) (n : Nat) : Bool :=
  decide (r.first.toNat ≤ n ∧ n ≤ r.last.toNat)

/-- The phase record of a call that records a phase, as its arguments are read. -/
def Step.phaseRecord? : Step → Option PhaseRecord
  | .recordPhase phase start stop l1 =>
    match Store.phaseOf phase with
    | .ok p =>
      match Store.recordArguments (.recordPhase p) start stop l1 with
      | .ok (first, last, block) => some ⟨p, first, last, block⟩
      | .error _ => none
    | .error _ => none
  | _ => none

/-- The L1 block of the last record of phase `p` whose range holds block `n`. -/
def lastL1 (records : List PhaseRecord) (p : Phase) (n : Nat) : Option (Word .w64) :=
  ((records.filter fun r => decide (r.phase = p) && r.covers n).getLast?).map (·.l1)

/-- The lifecycle that records give block `n`: for each phase, the L1 block of its last record
over the block. -/
def recordedLifecycle (records : List PhaseRecord) (n : Word .w64) : Lifecycle :=
  ⟨n, lastL1 records .commit n.toNat, lastL1 records .verify n.toNat, lastL1 records .execute n.toNat⟩

/-- The lifecycle that successful calls describe for block `n`: none unless a phase record's range
holds the block. -/
def lifecycleView (calls : List Step) (n : Word .w64) : Option Lifecycle :=
  if (calls.filterMap Step.phaseRecord?).any (·.covers n.toNat) then
    some (recordedLifecycle (calls.filterMap Step.phaseRecord?) n)
  else none

/-- The cell that holds an L1 block, null when there is none. -/
def Cell.ofBlock? : Option (Word .w64) → Cell
  | some b => .integer b.toNat
  | none => .null

/-- The row that stores a lifecycle. -/
def Lifecycle.toRow (l : Lifecycle) : BlockRow :=
  ⟨l.block.toNat, Cell.ofBlock? l.commit, Cell.ofBlock? l.verify, Cell.ofBlock? l.execute⟩

namespace Lifecycle

theorem phase_toRow (l : Lifecycle) (p : Phase) : l.toRow.phase p = Cell.ofBlock? (l.l1Block p) := by
  cases p <;> rfl

theorem l1Block_recordedLifecycle (records : List PhaseRecord) (n : Word .w64) (p : Phase) :
    (recordedLifecycle records n).l1Block p = lastL1 records p n.toNat := by
  cases p <;> rfl

theorem loadOptionalWord_ofBlock (column : String) (b : Option (Word .w64)) :
    (Cell.ofBlock? b).loadOptionalWord column = .ok b := by
  cases b with
  | none => rfl
  | some w =>
    simp only [Cell.ofBlock?, Cell.loadOptionalWord, Cell.loadWord_integer]
    rfl

theorem decode_toRow (l : Lifecycle) : l.toRow.decode = .ok l := by
  obtain ⟨block, commit, verify, execute⟩ := l
  simp only [BlockRow.decode, toRow, Cell.loadWord_integer, loadOptionalWord_ofBlock]
  rfl

end Lifecycle

namespace BlockRow

theorem ext_phase {r r' : BlockRow} (number : r.number = r'.number) (phases : ∀ p, r.phase p = r'.phase p) :
    r = r' := by
  obtain ⟨n, commit, verify, execute⟩ := r
  obtain ⟨n', commit', verify', execute'⟩ := r'
  have atCommit := phases .commit
  have atVerify := phases .verify
  have atExecute := phases .execute
  simp only [phase] at atCommit atVerify atExecute
  simp only at number
  rw [number, atCommit, atVerify, atExecute]

end BlockRow

theorem lastL1_append (records : List PhaseRecord) (r : PhaseRecord) (p : Phase) (n : Nat) :
    lastL1 (records ++ [r]) p n = if r.phase = p ∧ r.covers n = true then some r.l1 else lastL1 records p n := by
  unfold lastL1
  rw [List.filter_append, List.getLast?_append, List.filter_cons, List.filter_nil]
  by_cases last : r.phase = p ∧ r.covers n = true
  · have kept : (decide (r.phase = p) && r.covers n) = true := by simp [last.1, last.2]
    rw [if_pos kept, if_pos last, List.getLast?_singleton, Option.some_or]
    rfl
  · have dropped : (decide (r.phase = p) && r.covers n) = false :=
      Bool.eq_false_iff.mpr fun kept => last (by simpa only [Bool.and_eq_true, decide_eq_true_eq] using kept)
    rw [if_neg (by simp [dropped]), if_neg last, List.getLast?_nil, Option.none_or]

theorem lastL1_of_uncovered {records : List PhaseRecord} {n : Nat}
    (uncovered : records.any (·.covers n) = false) (p : Phase) : lastL1 records p n = none := by
  unfold lastL1
  rw [Option.map_eq_none_iff, List.getLast?_eq_none_iff, List.filter_eq_nil_iff]
  intro r member
  have outside := List.any_eq_false.mp uncovered r member
  simp only [Bool.and_eq_true, decide_eq_true_eq, not_and]
  exact fun _ => outside

theorem recordedLifecycle_append {records : List PhaseRecord} {r : PhaseRecord} {n : Word .w64}
    (covered : r.covers n.toNat = true) :
    (recordedLifecycle (records ++ [r]) n).toRow =
      (recordedLifecycle records n).toRow.setPhase r.phase (.integer r.l1.toNat) := by
  refine BlockRow.ext_phase (by simp only [BlockRow.number_setPhase]; rfl) fun q => ?_
  rw [BlockRow.phase_setPhase, Lifecycle.phase_toRow, Lifecycle.phase_toRow,
    Lifecycle.l1Block_recordedLifecycle, Lifecycle.l1Block_recordedLifecycle, lastL1_append]
  by_cases same : q = r.phase
  · subst same
    simp only [covered, and_self, if_true]
    rfl
  · have other : ¬(r.phase = q ∧ r.covers n.toNat = true) := fun both => same both.1.symm
    rw [if_neg other, if_neg same]

theorem lifecycleView_toRow_getD (calls : List Step) (n : Word .w64) :
    ((lifecycleView calls n).map Lifecycle.toRow).getD ⟨n.toNat, .null, .null, .null⟩ =
      (recordedLifecycle (calls.filterMap Step.phaseRecord?) n).toRow := by
  unfold lifecycleView
  split
  · rfl
  · rename_i uncovered
    rw [Bool.not_eq_true] at uncovered
    simp only [Option.map_none, Option.getD_none, recordedLifecycle, Lifecycle.toRow,
      lastL1_of_uncovered uncovered, Cell.ofBlock?]

namespace Step

theorem phaseRecord?_recordPhase {phase start stop l1 : Value} {p : Phase} {first last block : Word .w64}
    (parsed : Store.phaseOf phase = .ok p)
    (checks : Store.recordArguments (.recordPhase p) start stop l1 = .ok (first, last, block)) :
    (Step.recordPhase phase start stop l1).phaseRecord? = some ⟨p, first, last, block⟩ := by
  simp only [phaseRecord?, parsed, checks]

theorem phaseRecord?_of_reads {st : Step} (reading : st.reads = true) : st.phaseRecord? = none := by
  cases st <;> first | rfl | cases reading

end Step

theorem filterMap_append_record {calls : List Step} {call : Step} {r : PhaseRecord}
    (recorded : call.phaseRecord? = some r) :
    (calls ++ [call]).filterMap Step.phaseRecord? = calls.filterMap Step.phaseRecord? ++ [r] := by
  rw [List.filterMap_append, List.filterMap_cons, recorded, List.filterMap_nil]

theorem lifecycleView_append_quiet (calls : List Step) {call : Step} (none : call.phaseRecord? = none)
    (n : Word .w64) : lifecycleView (calls ++ [call]) n = lifecycleView calls n := by
  unfold lifecycleView
  rw [List.filterMap_append, List.filterMap_cons, none, List.filterMap_nil, List.append_nil]

/-- A record at the end of the run sets its phase in the lifecycle of each block of its range, and
leaves the other blocks' lifecycles. -/
theorem lifecycleView_append_record (calls : List Step) {call : Step} {r : PhaseRecord}
    (recorded : call.phaseRecord? = some r) (n : Word .w64) :
    (lifecycleView (calls ++ [call]) n).map Lifecycle.toRow =
      if r.covers n.toNat then
        some ((((lifecycleView calls n).map Lifecycle.toRow).getD ⟨n.toNat, .null, .null, .null⟩).setPhase
          r.phase (.integer r.l1.toNat))
      else (lifecycleView calls n).map Lifecycle.toRow := by
  rw [lifecycleView_toRow_getD]
  split
  · rename_i covered
    have anyCovers : ((calls ++ [call]).filterMap Step.phaseRecord?).any (·.covers n.toNat) = true := by
      rw [filterMap_append_record recorded, List.any_append, List.any_cons, covered]
      simp
    unfold lifecycleView
    rw [if_pos anyCovers, filterMap_append_record recorded, Option.map_some,
      recordedLifecycle_append covered]
  · rename_i uncovered
    rw [Bool.not_eq_true] at uncovered
    -- the record's range misses the block: no cell of it changes
    have same : recordedLifecycle (calls.filterMap Step.phaseRecord? ++ [r]) n =
        recordedLifecycle (calls.filterMap Step.phaseRecord?) n := by
      simp only [recordedLifecycle, lastL1_append, uncovered, Bool.false_eq_true, and_false, if_false]
    unfold lifecycleView
    rw [filterMap_append_record recorded, List.any_append, List.any_cons, uncovered, List.any_nil,
      Bool.false_or, Bool.or_false, same]

theorem lifecycleView_eq_none_iff {calls : List Step} {n : Word .w64} :
    lifecycleView calls n = none ↔
      ∀ call ∈ calls, ∀ r, call.phaseRecord? = some r → r.covers n.toNat = false := by
  unfold lifecycleView
  split
  · rename_i covered
    obtain ⟨r, member, covers⟩ := List.any_eq_true.mp covered
    obtain ⟨call, inCalls, recorded⟩ := List.mem_filterMap.mp member
    constructor
    · intro found
      cases found
    · intro uncovered
      rw [uncovered call inCalls r recorded] at covers
      cases covers
  · rename_i uncovered
    rw [Bool.not_eq_true] at uncovered
    refine ⟨fun _ call inCalls r recorded => ?_, fun _ => rfl⟩
    exact Bool.eq_false_iff.mpr (List.any_eq_false.mp uncovered r (List.mem_filterMap.mpr ⟨call, inCalls, recorded⟩))

theorem lifecycleView_eq_some {calls : List Step} {n : Word .w64} {l : Lifecycle}
    (described : lifecycleView calls n = some l) :
    l.block = n ∧ ∀ p, l.l1Block p = lastL1 (calls.filterMap Step.phaseRecord?) p n.toNat := by
  unfold lifecycleView at described
  split at described
  · cases described
    exact ⟨rfl, Lifecycle.l1Block_recordedLifecycle _ n⟩
  · cases described

namespace Tables

theorem block?_upsertPhase (t : Tables) (p : Phase) (m n : Int) (c : Cell) :
    (t.upsertPhase p m c).block? n =
      if m = n then some (((t.block? n).getD ⟨n, .null, .null, .null⟩).setPhase p c) else t.block? n := by
  unfold upsertPhase block?
  split
  · rename_i present
    rw [List.find?_map]
    -- the update keeps every row's number, so the lookup sees the same rows
    have numbered : ((fun r : BlockRow => r.number == n) ∘
        fun r => if r.number == m then r.setPhase p c else r) = fun r => r.number == n := by
      funext r
      simp only [Function.comp_apply]
      split <;> simp only [BlockRow.number_setPhase]
    rw [numbered]
    by_cases same : m = n
    · subst same
      obtain ⟨r, found⟩ := Option.isSome_iff_exists.mp (List.find?_isSome.mpr (List.any_eq_true.mp present))
      have atM : r.number = m := by simpa using List.find?_some found
      rw [found, if_pos rfl, Option.map_some, Option.getD_some, if_pos (by simp [atM])]
    · rw [if_neg same]
      cases found : t.blocks.find? (·.number == n) with
      | none => rfl
      | some r =>
        have atN : r.number = n := by simpa using List.find?_some found
        have other : (r.number == m) = false := by simpa [atN] using Ne.symm same
        rw [Option.map_some, other]
        rfl
  · rename_i absent
    have none : t.blocks.find? (·.number == m) = none :=
      List.find?_eq_none.mpr fun r member atM => absent (List.any_eq_true.mpr ⟨r, member, atM⟩)
    rw [List.find?_cons]
    by_cases same : m = n
    · subst same
      simp [none, BlockRow.fresh]
    · have other : ((BlockRow.fresh m p c).number == n) = false := by
        simpa [BlockRow.fresh] using same
      rw [other, if_neg same]

theorem recordBlock_ok {t t' : Tables} {p : Phase} {l1 n : Nat} (written : t.recordBlock p l1 n = .ok t') :
    t' = t.upsertPhase p n (.integer l1) := by
  unfold recordBlock at written
  split at written
  · cases written
  · cases written
    rfl

theorem block?_recordRange (p : Phase) (l1 n : Nat) :
    ∀ (first count : Nat) (t : Tables), (executeRange (fun t => t.recordBlock p l1) first count t).2 = none →
      (executeRange (fun t => t.recordBlock p l1) first count t).1.block? n =
        if first ≤ n ∧ n < first + count then
          some (((t.block? n).getD ⟨n, .null, .null, .null⟩).setPhase p (.integer l1))
        else t.block? n
  | first, 0, t, _ => by
    rw [if_neg (by omega)]
    rfl
  | first, count + 1, t, completed => by
    cases written : t.recordBlock p l1 first with
    | error v =>
      simp only [executeRange, written] at completed
      cases completed
    | ok t' =>
      have next : executeRange (fun t => t.recordBlock p l1) first (count + 1) t =
          executeRange (fun t => t.recordBlock p l1) (first + 1) count t' := by
        simp only [executeRange, written]
      rw [next] at completed ⊢
      rw [block?_recordRange p l1 n (first + 1) count t' completed, recordBlock_ok written,
        block?_upsertPhase]
      by_cases atFirst : n = first
      · subst atFirst
        rw [if_neg (by omega), if_pos rfl, if_pos (by omega)]
      · have other : ¬((first : Int) = n) := by omega
        rw [if_neg other]
        by_cases inRange : first ≤ n ∧ n < first + (count + 1)
        · rw [if_pos (by omega), if_pos inRange]
        · rw [if_neg (by omega), if_neg inRange]

theorem ingest_blocks (ws : List StoredWithdrawal) (t : Tables) :
    (executeMany ingestOne ws t).1.blocks = t.blocks := by
  refine executeMany_keeps _ ws t (P := fun t' => t'.blocks = t.blocks) ?_ rfl
  intro t₁ w t₂ _ same written
  rw [ingestOne_ok written, ← same]
  unfold insertNew
  split <;> rfl

theorem finalize_blocks (ks : List WithdrawalKey) (t : Tables) :
    (executeMany (fun t k => .ok (t.finalizeKey k)) ks t).1.blocks = t.blocks := by
  refine executeMany_keeps _ ks t (P := fun t' => t'.blocks = t.blocks) ?_ rfl
  intro t₁ k t₂ _ same written
  cases written
  exact same

end Tables

namespace Store

/-- The store answers lifecycles from tables that hold, for every block, the row of the lifecycle
that the successful calls describe. -/
structure Lifecycles (s : Store) (calls : List Step) : Prop where
  connected : s.connection.closed = false
  rows : ∀ n : Word .w64, s.connection.tables.block? n.toNat = (lifecycleView calls n).map Lifecycle.toRow

theorem Opened.lifecycles {s : Store} (opened : s.Opened) : s.Lifecycles [] := by
  refine ⟨opened.connected, fun n => ?_⟩
  rw [Connection.tables, opened.working, Option.getD_none, opened.committed]
  rfl

/-- Each call keeps the tables in step with the lifecycles: a read or a failed call changes no row
and adds no record, an ingest or a finalize adds no record and leaves the block rows, and a phase
record that succeeded sets its phase in the row of each block it covers. -/
theorem Lifecycles.step {s : Store} {calls : List Step} (held : s.Lifecycles calls) {st : Step}
    (isCall : st.callsStore = true) :
    (s.step st).2.Lifecycles (calls ++ if (s.step st).1.isOk then [st] else []) := by
  rcases call_cases s isCall with ⟨quiet, e, same⟩ | ⟨ok, recorded | ingested | finalized⟩
  · have view (n : Word .w64) := append_unless_counted (lifecycleView · n) quiet fun reading =>
      lifecycleView_append_quiet calls (Step.phaseRecord?_of_reads reading) n
    rw [same]
    exact ⟨held.connected, fun n => by rw [view]; exact held.rows n⟩
  · obtain ⟨phase, start, stop, l1, p, first, last, block, rfl, parsed, checks, wrote⟩ := recorded
    rw [ok, if_pos rfl]
    obtain ⟨ordered, -, -⟩ := recordArguments_ok checks
    refine ⟨wrote.connected.trans held.connected, fun n => ?_⟩
    rw [wrote.tables, Tables.block?_recordRange p block.toNat n.toNat _ _ _ wrote.completed,
      lifecycleView_append_record calls (Step.phaseRecord?_recordPhase parsed checks), held.rows n]
    -- the batch runs from the first block to the last, so it holds the blocks the record covers
    have covers : (first.toNat ≤ n.toNat ∧ n.toNat < first.toNat + (last.toNat + 1 - first.toNat)) ↔
        (⟨p, first, last, block⟩ : PhaseRecord).covers n.toNat = true := by
      simp only [PhaseRecord.covers, decide_eq_true_iff]
      omega
    by_cases inRange : (⟨p, first, last, block⟩ : PhaseRecord).covers n.toNat = true
    · rw [if_pos (covers.mpr inRange), if_pos inRange]
    · rw [if_neg (mt covers.mp inRange), if_neg inRange]
  · obtain ⟨descriptions, ws, rfl, -, wrote⟩ := ingested
    rw [ok, if_pos rfl]
    refine ⟨wrote.connected.trans held.connected, fun n => ?_⟩
    rw [lifecycleView_append_quiet calls rfl, ← held.rows n, Tables.block?, Tables.block?, wrote.tables,
      Tables.ingest_blocks]
  · obtain ⟨keys, ks, rfl, -, wrote⟩ := finalized
    rw [ok, if_pos rfl]
    refine ⟨wrote.connected.trans held.connected, fun n => ?_⟩
    rw [lifecycleView_append_quiet calls rfl, ← held.rows n, Tables.block?, Tables.block?, wrote.tables,
      Tables.finalize_blocks]

theorem after_lifecycles {s : Store} (opened : s.Opened) {steps : List Step}
    (only : ∀ st ∈ steps, st.callsStore = true) : (s.after steps).Lifecycles (s.succeeded steps) := by
  have run := after_calls (R := Lifecycles) (fun s calls st isCall held => held.step isCall) only
    opened.lifecycles
  rwa [List.nil_append] at run

theorem Lifecycles.lifecycle {s : Store} {calls : List Step} (held : s.Lifecycles calls) (n : Word .w64)
    (fits : n.toNat ≤ storableMaximum) :
    (s.lifecycle (.int n.toNat)).1 = .ok (lifecycleView calls n) := by
  unfold Store.lifecycle
  simp only [wordArgument_int, checked, read_answer held.connected (decide_eq_true fits), held.rows]
  cases lifecycleView calls n with
  | none => rfl
  | some l =>
    simp only [Option.map_some, Lifecycle.decode_toRow]
    rfl

theorem lifecycle_congr {s s' : Store} (connected : s'.connection.closed = s.connection.closed)
    (rows : s'.connection.tables.blocks = s.connection.tables.blocks) (n : Word .w64)
    (fits : n.toNat ≤ storableMaximum) :
    (s'.lifecycle (.int n.toNat)).1 = (s.lifecycle (.int n.toNat)).1 := by
  unfold Store.lifecycle
  have found : s'.connection.tables.block? n.toNat = s.connection.tables.block? n.toNat := by
    unfold Tables.block?
    rw [rows]
  simp only [wordArgument_int, checked]
  exact read_congr connected (decide_eq_true fits) (by simp only [found])

theorem lifecycle_after_unrecorded (s : Store) {st : Step} (isCall : st.callsStore = true)
    (unrecorded : st.phaseRecord? = none ∧ ∀ phase start stop l1, st ≠ .recordPhase phase start stop l1)
    (n : Word .w64) (fits : n.toNat ≤ storableMaximum) :
    ((s.step st).2.lifecycle (.int n.toNat)).1 = (s.lifecycle (.int n.toNat)).1 := by
  rcases call_cases s isCall with ⟨-, e, same⟩ | ⟨-, ⟨phase, start, stop, l1, _, _, _, _, recorded, -⟩ |
      ⟨_, ws, -, -, wrote⟩ | ⟨_, ks, -, -, wrote⟩⟩
  · rw [same]
    refine lifecycle_congr ?_ ?_ n fits <;> rfl
  · exact absurd recorded (unrecorded.2 phase start stop l1)
  · refine lifecycle_congr wrote.connected ?_ n fits
    rw [wrote.tables, Tables.ingest_blocks]
  · refine lifecycle_congr wrote.connected ?_ n fits
    rw [wrote.tables, Tables.finalize_blocks]

/-- Over any run of calls on a store opened on a new connection, reading the lifecycle of an L2
block that a cell holds answers what the successful phase records describe: none when no record
covers the block, and otherwise, for each phase, the L1 block of the last record over it. -/
theorem lifecycle_after_calls {s : Store} (opened : s.Opened) {steps : List Step}
    (only : ∀ st ∈ steps, st.callsStore = true) (n : Word .w64) (fits : n.toNat ≤ storableMaximum) :
    ((s.after steps).lifecycle (.int n.toNat)).1 = .ok (lifecycleView (s.succeeded steps) n) ∧
      (lifecycleView (s.succeeded steps) n = none ↔
        ∀ call ∈ s.succeeded steps, ∀ r, call.phaseRecord? = some r → r.covers n.toNat = false) ∧
      (∀ l, lifecycleView (s.succeeded steps) n = some l →
        l.block = n ∧ ∀ p, l.l1Block p = lastL1 ((s.succeeded steps).filterMap Step.phaseRecord?) p n.toNat) ∧
      (∀ (s' : Store) (st : Step), st.reads = true →
        ((s'.step st).2.lifecycle (.int n.toNat)).1 = (s'.lifecycle (.int n.toNat)).1) ∧
      (∀ (s' : Store) (descriptions : List (List (Value × Value))),
        ((s'.step (.ingest descriptions)).2.lifecycle (.int n.toNat)).1 = (s'.lifecycle (.int n.toNat)).1) ∧
      ∀ (s' : Store) (keys : List (Value × Value)),
        ((s'.step (.finalize keys)).2.lifecycle (.int n.toNat)).1 = (s'.lifecycle (.int n.toNat)).1 := by
  refine ⟨(after_lifecycles opened only).lifecycle n fits, lifecycleView_eq_none_iff, ?_, ?_, ?_, ?_⟩
  · intro l described
    exact lifecycleView_eq_some described
  · intro s' st reading
    refine lifecycle_after_unrecorded s' (Step.callsStore_of_reads reading) ⟨Step.phaseRecord?_of_reads reading, ?_⟩ n fits
    intro phase start stop l1 recording
    subst recording
    cases reading
  · intro s' descriptions
    exact @lifecycle_after_unrecorded s' (.ingest descriptions) rfl ⟨rfl, fun _ _ _ _ same => nomatch same⟩ n fits
  · intro s' keys
    exact @lifecycle_after_unrecorded s' (.finalize keys) rfl ⟨rfl, fun _ _ _ _ same => nomatch same⟩ n fits

/-- Blocks 1 to 3 are committed in L1 block 9, block 2 again in L1 block 10, and a record with a
start after its end fails; the lifecycle of block 2 is read. -/
theorem lifecycle_after_calls_overwrite :
    Store.Opened ⟨Settings.default, Connection.fresh⟩ ∧
      (∀ st ∈ [Step.recordPhase (.str "commit") (.int 1) (.int 3) (.int 9),
        .recordPhase (.str "commit") (.int 2) (.int 2) (.int 10),
        .recordPhase (.str "verify") (.int 3) (.int 2) (.int 11)], st.callsStore = true) ∧
      (⟨2, by decide⟩ : Word .w64).toNat ≤ storableMaximum ∧
      ((Store.after ⟨Settings.default, Connection.fresh⟩
        [Step.recordPhase (.str "commit") (.int 1) (.int 3) (.int 9),
          .recordPhase (.str "commit") (.int 2) (.int 2) (.int 10),
          .recordPhase (.str "verify") (.int 3) (.int 2) (.int 11)]).lifecycle
          (.int (⟨2, by decide⟩ : Word .w64).toNat)).1 =
        .ok (lifecycleView (Store.succeeded ⟨Settings.default, Connection.fresh⟩
          [Step.recordPhase (.str "commit") (.int 1) (.int 3) (.int 9),
            .recordPhase (.str "commit") (.int 2) (.int 2) (.int 10),
            .recordPhase (.str "verify") (.int 3) (.int 2) (.int 11)]) ⟨2, by decide⟩) :=
  ⟨⟨rfl, rfl, rfl⟩, by decide, by decide,
    (lifecycle_after_calls ⟨rfl, rfl, rfl⟩ (by decide) ⟨2, by decide⟩ (by decide)).1⟩

/- The later commit of block 2 overwrites the earlier one, and the verify over 2 to 5 sets its own
cell of the same row. -/
example :
    ((Store.after ⟨Settings.default, Connection.fresh⟩
        [Step.recordPhase (.str "commit") (.int 1) (.int 3) (.int 9),
          .recordPhase (.str "verify") (.int 2) (.int 5) (.int 11),
          .recordPhase (.str "commit") (.int 2) (.int 2) (.int 10)]).lifecycle (.int 2)).1 =
      .ok (some ⟨⟨2, by decide⟩, some ⟨10, by decide⟩, some ⟨11, by decide⟩, none⟩) := by
  rfl

end Store

end BridgeLedger
