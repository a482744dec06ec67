import BridgeLedger.Proofs.Store.Rows

namespace BridgeLedger

/-- A withdrawal, finalized also when `b` holds. -/
def StoredWithdrawal.finalizedWhen (w : StoredWithdrawal) (b : Bool) : StoredWithdrawal :=
  { w with isFinalized := w.isFinalized || b }

namespace StoredWithdrawal

@[simp] theorem finalizedWhen_false (w : StoredWithdrawal) : w.finalizedWhen false = w := by
  simp only [finalizedWhen, Bool.or_false]

@[simp] theorem finalizedWhen_finalizedWhen (w : StoredWithdrawal) (a b : Bool) :
    (w.finalizedWhen a).finalizedWhen b = w.finalizedWhen (a || b) := by
  simp only [finalizedWhen, Bool.or_assoc]

@[simp] theorem key_finalizedWhen (w : StoredWithdrawal) (b : Bool) : (w.finalizedWhen b).key = w.key :=
  rfl

theorem hasKey_toRow (w : StoredWithdrawal) (k : WithdrawalKey) :
    w.toRow.hasKey (.blob k.1.data) (.integer k.2.toNat) = decide (w.key = k) := by
  obtain ⟨hash, index⟩ := k
  rw [Bool.eq_iff_iff, WithdrawalRow.hasKey, Bool.and_eq_true, decide_eq_true_iff]
  simp only [toRow, Cell.same_blob, Cell.same_integer, key, Prod.mk.injEq, FixedBytes.ext_iff,
    Word.ext_iff, Int.natCast_inj]

theorem finalize_toRow (w : StoredWithdrawal) (k : WithdrawalKey) :
    (if w.toRow.hasKey (.blob k.1.data) (.integer k.2.toNat) && w.toRow.isPending then
        { w.toRow with finalized := .integer 1 } else w.toRow) =
      (w.finalizedWhen (decide (w.key = k))).toRow := by
  rw [hasKey_toRow]
  obtain ⟨event, index, flag⟩ := w
  by_cases same : (⟨event, index, flag⟩ : StoredWithdrawal).key = k <;> cases flag <;>
    simp [same, finalizedWhen, toRow, WithdrawalRow.isPending, Cell.truth]

end StoredWithdrawal

namespace Step

/-- The withdrawals an ingest call stores, as its descriptions build them. -/
def ingested : Step → List StoredWithdrawal
  | .ingest descriptions => (Store.withdrawalsOf descriptions).toOption.getD []
  | _ => []

/-- Whether a finalize call names a key among its keys. -/
def finalizes (k : WithdrawalKey) : Step → Bool
  | .finalize keys =>
    keys.any fun (hash, index) => decide ((Store.keyArgument .finalize hash index).toOption = some k)
  | _ => false

theorem ingested_ingest {descriptions : List (List (Value × Value))} {ws : List StoredWithdrawal}
    (built : Store.withdrawalsOf descriptions = .ok ws) : (Step.ingest descriptions).ingested = ws := by
  rw [ingested, built]
  rfl

theorem finalizes_finalize {keys : List (Value × Value)} {ks : List WithdrawalKey}
    (named : Store.finalizeKeys keys = .ok ks) (k : WithdrawalKey) :
    (Step.finalize keys).finalizes k = decide (k ∈ ks) := by
  have toOption_eq {x : Except Fault WithdrawalKey} : x.toOption = some k ↔ x = .ok k := by
    cases x with
    | error f => exact ⟨nofun, nofun⟩
    | ok k' => exact ⟨fun found => by cases found; rfl, fun found => by cases found; rfl⟩
  unfold Store.finalizeKeys at named
  rw [Bool.eq_iff_iff, finalizes, List.any_eq_true, decide_eq_true_iff, Store.mapM_ok_mem_iff named]
  constructor
  · rintro ⟨⟨hash, index⟩, member, converted⟩
    exact ⟨(hash, index), member, toOption_eq.mp (of_decide_eq_true converted)⟩
  · rintro ⟨⟨hash, index⟩, member, converted⟩
    exact ⟨(hash, index), member, decide_eq_true (toOption_eq.mpr converted)⟩

theorem ingested_of_reads {st : Step} (reading : st.reads = true) : st.ingested = [] := by
  cases st <;> first | rfl | cases reading

theorem finalizes_of_reads {st : Step} (reading : st.reads = true) (k : WithdrawalKey) :
    st.finalizes k = false := by
  cases st <;> first | rfl | cases reading

end Step

/-- The ledger that successful calls describe, at one key: the first withdrawal ingested with the
key, from the earliest call and the earliest place in its batch, finalized when it came finalized
or when a later call finalizes the key. -/
def ledgerView : List Step → WithdrawalKey → Option StoredWithdrawal
  | [], _ => none
  | call :: later, k =>
    ((call.ingested.find? fun w => decide (w.key = k)).map
      (·.finalizedWhen (later.any (·.finalizes k)))).or (ledgerView later k)

theorem ledgerView_key {calls : List Step} {k : WithdrawalKey} {w : StoredWithdrawal}
    (found : ledgerView calls k = some w) : w.key = k := by
  induction calls with
  | nil => cases found
  | cons call later ih =>
    rw [ledgerView, Option.or_eq_some_iff] at found
    rcases found with first | ⟨-, rest⟩
    · obtain ⟨w', inBatch, rfl⟩ := Option.map_eq_some_iff.mp first
      have keyed := List.find?_some inBatch
      rw [decide_eq_true_iff] at keyed
      rw [StoredWithdrawal.key_finalizedWhen, keyed]
    · exact ih rest

/-- A call at the end of the run finalizes what the ledger holds when it finalizes the key, and
otherwise adds what it ingests with the key. -/
theorem ledgerView_append_call (calls : List Step) (call : Step) (k : WithdrawalKey) :
    ledgerView (calls ++ [call]) k =
      ((ledgerView calls k).map (·.finalizedWhen (call.finalizes k))).or
        (call.ingested.find? fun w => decide (w.key = k)) := by
  induction calls with
  | nil => simp [ledgerView]
  | cons first calls ih =>
    simp only [List.cons_append, ledgerView, ih, List.any_append, List.any_cons, List.any_nil,
      Bool.or_false, Option.map_or, Option.map_map, Option.or_assoc]
    congr 2
    funext w
    simp only [Function.comp_apply, StoredWithdrawal.finalizedWhen_finalizedWhen]

theorem ledgerView_append_quiet (calls : List Step) {call : Step} (none : call.ingested = [])
    (unfinalized : ∀ k, call.finalizes k = false) (k : WithdrawalKey) :
    ledgerView (calls ++ [call]) k = ledgerView calls k := by
  rw [ledgerView_append_call, none, unfinalized, List.find?_nil, Option.or_none]
  simp only [StoredWithdrawal.finalizedWhen_false, Option.map_id']

theorem ledgerView_eq_none_iff {calls : List Step} {k : WithdrawalKey} :
    ledgerView calls k = none ↔ ∀ call ∈ calls, ∀ w ∈ call.ingested, w.key ≠ k := by
  induction calls with
  | nil => simp [ledgerView]
  | cons call later ih =>
    simp only [ledgerView, Option.or_eq_none_iff, Option.map_eq_none_iff, List.find?_eq_none,
      decide_eq_true_iff, ih, List.forall_mem_cons]

/-- What the ledger holds at a key is the first withdrawal with the key: of the earliest call that
ingested one, the first of its batch, finalized when a call after it finalizes the key. -/
theorem ledgerView_eq_some_iff {calls : List Step} {k : WithdrawalKey} {w : StoredWithdrawal} :
    ledgerView calls k = some w ↔
      ∃ before call later first, calls = before ++ call :: later ∧
        (∀ c ∈ before, ∀ w' ∈ c.ingested, w'.key ≠ k) ∧
        call.ingested.find? (fun w' => decide (w'.key = k)) = some first ∧
        w = first.finalizedWhen (later.any (·.finalizes k)) := by
  induction calls with
  | nil =>
    constructor
    · intro found
      cases found
    · rintro ⟨before, call, later, first, split, -⟩
      exact absurd split.symm (by simp)
  | cons c calls ih =>
    rw [ledgerView]
    cases found : c.ingested.find? fun w' => decide (w'.key = k) with
    | some first =>
      -- the first call ingests the key, so it is the call the ledger reads
      rw [Option.map_some, Option.some_or, Option.some.injEq]
      constructor
      · rintro rfl
        exact ⟨[], c, calls, first, rfl, by simp, found, rfl⟩
      · rintro ⟨before, call, later, first', split, absent, found', rfl⟩
        rcases before with _ | ⟨b, before⟩
        · obtain ⟨rfl, rfl⟩ := List.cons.inj split
          rw [found] at found'
          cases found'
          rfl
        · obtain ⟨rfl, -⟩ := List.cons.inj split
          have keyed := List.find?_some found
          rw [decide_eq_true_iff] at keyed
          exact absurd keyed (absent _ List.mem_cons_self first (List.mem_of_find?_eq_some found))
    | none =>
      rw [Option.map_none, Option.none_or, ih]
      constructor
      · rintro ⟨before, call, later, first, rfl, absent, found', rfl⟩
        refine ⟨c :: before, call, later, first, rfl, ?_, found', rfl⟩
        intro c' member w' ingested
        rcases List.mem_cons.mp member with rfl | member
        · have := List.find?_eq_none.mp found w' ingested
          simpa using this
        · exact absent c' member w' ingested
      · rintro ⟨before, call, later, first, split, absent, found', rfl⟩
        rcases before with _ | ⟨b, before⟩
        · obtain ⟨rfl, rfl⟩ := List.cons.inj split
          rw [found] at found'
          cases found'
        · obtain ⟨rfl, rest⟩ := List.cons.inj split
          exact ⟨before, call, later, first, rest,
            fun c' member => absent c' (List.mem_cons_of_mem _ member), found', rfl⟩

namespace Tables

theorem withdrawal?_insertNew (t : Tables) (w : StoredWithdrawal) (k : WithdrawalKey) :
    (t.insertNew w.toRow).withdrawal? k = (t.withdrawal? k).or (if w.key = k then some w.toRow else none) := by
  unfold insertNew
  split
  · rename_i held
    by_cases same : w.key = k
    · -- the row of the key is stored already, so the lookup finds it before the new one
      subst same
      have found : (t.withdrawal? w.key).isSome := List.find?_isSome.mpr (List.any_eq_true.mp held)
      obtain ⟨r, atKey⟩ := Option.isSome_iff_exists.mp found
      rw [atKey, Option.some_or]
    · rw [if_neg same, Option.or_none]
  · rw [withdrawal?, List.find?_append, List.find?_singleton, StoredWithdrawal.hasKey_toRow]
    simp only [decide_eq_true_eq]
    rfl

theorem ingestOne_ok {t t' : Tables} {w : StoredWithdrawal} (written : t.ingestOne w = .ok t') :
    t' = t.insertNew w.toRow := by
  unfold ingestOne at written
  split at written
  · cases written
  · cases written
    rfl

theorem withdrawal?_ingest (k : WithdrawalKey) :
    ∀ (ws : List StoredWithdrawal) (t : Tables), (executeMany ingestOne ws t).2 = none →
      (executeMany ingestOne ws t).1.withdrawal? k =
        (t.withdrawal? k).or ((ws.find? fun w => decide (w.key = k)).map StoredWithdrawal.toRow)
  | [], t, _ => by
    rw [List.find?_nil, Option.map_none, Option.or_none]
    rfl
  | w :: rest, t, completed => by
    cases written : t.ingestOne w with
    | error v =>
      rw [executeMany_cons_error _ written] at completed
      cases completed
    | ok t' =>
      rw [executeMany_cons_ok _ written] at completed ⊢
      rw [withdrawal?_ingest k rest t' completed, ingestOne_ok written, withdrawal?_insertNew,
        List.find?_cons]
      by_cases same : w.key = k
      · simp only [same, if_true, decide_true, Option.map_some, Option.or_assoc, Option.some_or]
      · simp only [same, if_false, decide_false, Option.or_none]

theorem withdrawal?_finalizeKey (t : Tables) (k k' : WithdrawalKey) :
    (t.finalizeKey k').withdrawal? k = (t.withdrawal? k).map fun r =>
      if r.hasKey (.blob k'.1.data) (.integer k'.2.toNat) && WithdrawalRow.isPending r then
        { r with finalized := .integer 1 }
      else r := by
  unfold finalizeKey withdrawal?
  rw [List.find?_map]
  -- finalizing changes only the flag, so the lookup sees the same keys
  congr 2
  funext r
  simp only [Function.comp_apply]
  split <;> rfl

theorem withdrawal?_finalize {k : WithdrawalKey} :
    ∀ (ks : List WithdrawalKey) (t : Tables) (found : Option StoredWithdrawal),
      (∀ w, found = some w → w.key = k) → t.withdrawal? k = found.map StoredWithdrawal.toRow →
      (executeMany (fun t k' => .ok (t.finalizeKey k')) ks t).1.withdrawal? k =
        (found.map (·.finalizedWhen (decide (k ∈ ks)))).map StoredWithdrawal.toRow
  | [], t, found, _, rows => by
    simp only [List.not_mem_nil, decide_false, StoredWithdrawal.finalizedWhen_false, Option.map_id']
    exact rows
  | k' :: rest, t, found, keyed, rows => by
    rw [executeMany_cons_ok _ rfl]
    have once : (t.finalizeKey k').withdrawal? k =
        (found.map (·.finalizedWhen (decide (k = k')))).map StoredWithdrawal.toRow := by
      rw [withdrawal?_finalizeKey, rows]
      cases found with
      | none => rfl
      | some w =>
        rw [← keyed w rfl]
        simp only [Option.map_some, StoredWithdrawal.finalize_toRow]
    have keyed' : ∀ w, found.map (·.finalizedWhen (decide (k = k'))) = some w → w.key = k := by
      intro w finalized
      obtain ⟨w', atKey, rfl⟩ := Option.map_eq_some_iff.mp finalized
      exact keyed w' atKey
    rw [withdrawal?_finalize rest _ _ keyed' once]
    congr 1
    rw [Option.map_map]
    congr 1
    funext w
    simp only [Function.comp_apply, StoredWithdrawal.finalizedWhen_finalizedWhen, List.mem_cons,
      Bool.decide_or]

theorem recordBlock_withdrawals {t t' : Tables} {p : Phase} {l1 n : Nat}
    (written : t.recordBlock p l1 n = .ok t') : t'.withdrawals = t.withdrawals := by
  unfold recordBlock at written
  split at written
  · cases written
  · cases written
    unfold upsertPhase
    split <;> rfl

theorem recordRange_withdrawals (t : Tables) (p : Phase) (l1 first count : Nat) :
    (executeRange (fun t => t.recordBlock p l1) first count t).1.withdrawals = t.withdrawals := by
  rw [executeRange_eq]
  refine executeMany_keeps _ _ t (P := fun t' => t'.withdrawals = t.withdrawals) ?_ rfl
  intro t₁ n t₂ _ same written
  rw [recordBlock_withdrawals written, same]

end Tables

namespace Store

/-- The store answers reads of withdrawals from tables that hold, at every key, the row of what the
ledger of the successful calls holds there. -/
structure Ledgers (s : Store) (calls : List Step) : Prop where
  connected : s.connection.closed = false
  rows : ∀ k, s.connection.tables.withdrawal? k = (ledgerView calls k).map StoredWithdrawal.toRow

theorem Opened.ledgers {s : Store} (opened : s.Opened) : s.Ledgers [] := by
  refine ⟨opened.connected, fun k => ?_⟩
  rw [Connection.tables, opened.working, Option.getD_none, opened.committed]
  rfl

/-- Each call keeps the tables in step with the ledger: a read or a failed call changes no row and
adds no call to the ledger, and a write that succeeded writes at each key what it adds there. -/
theorem Ledgers.step {s : Store} {calls : List Step} (held : s.Ledgers calls) {st : Step}
    (isCall : st.callsStore = true) :
    (s.step st).2.Ledgers (calls ++ if (s.step st).1.isOk then [st] else []) := by
  rcases call_cases s isCall with ⟨quiet, e, same⟩ | ⟨ok, recorded | ingested | finalized⟩
  · have view (k : WithdrawalKey) := append_unless_counted (ledgerView · k) quiet fun reading =>
      ledgerView_append_quiet calls (Step.ingested_of_reads reading) (Step.finalizes_of_reads reading) k
    rw [same]
    exact ⟨held.connected, fun k => by rw [view]; exact held.rows k⟩
  · obtain ⟨phase, start, stop, l1, p, first, last, block, rfl, -, -, wrote⟩ := recorded
    rw [ok, if_pos rfl]
    refine ⟨wrote.connected.trans held.connected, fun k => ?_⟩
    rw [ledgerView_append_quiet calls rfl (fun _ => rfl), ← held.rows k, Tables.withdrawal?,
      Tables.withdrawal?, wrote.tables, Tables.recordRange_withdrawals]
  · obtain ⟨descriptions, ws, rfl, built, wrote⟩ := ingested
    rw [ok, if_pos rfl]
    refine ⟨wrote.connected.trans held.connected, fun k => ?_⟩
    rw [wrote.tables, Tables.withdrawal?_ingest k ws _ wrote.completed, held.rows k,
      ledgerView_append_call, Step.ingested_ingest built]
    simp only [Step.finalizes, StoredWithdrawal.finalizedWhen_false, Option.map_id', Option.map_or]
  · obtain ⟨keys, ks, rfl, named, wrote⟩ := finalized
    rw [ok, if_pos rfl]
    refine ⟨wrote.connected.trans held.connected, fun k => ?_⟩
    rw [wrote.tables, Tables.withdrawal?_finalize ks _ _ (fun w => ledgerView_key) (held.rows k),
      ledgerView_append_call, Step.finalizes_finalize named]
    simp only [Step.ingested, List.find?_nil, Option.or_none]

theorem after_ledgers {s : Store} (opened : s.Opened) {steps : List Step}
    (only : ∀ st ∈ steps, st.callsStore = true) : (s.after steps).Ledgers (s.succeeded steps) := by
  have run := after_calls (R := Ledgers) (fun s calls st isCall held => held.step isCall) only
    opened.ledgers
  rwa [List.nil_append] at run

theorem keyArgument_key (op : Operation) (hash : TxHash) (index : Word .w32) :
    keyArgument op (.bytes hash.data) (.int index.toNat) = .ok (hash, index) := by
  unfold keyArgument
  rw [bytesArgument_bytes, wordArgument_int]
  rfl

theorem Ledgers.getWithdrawal {s : Store} {calls : List Step} (held : s.Ledgers calls) (hash : TxHash)
    (index : Word .w32) :
    (s.getWithdrawal (.bytes hash.data) (.int index.toNat)).1 = .ok (ledgerView calls (hash, index)) := by
  unfold Store.getWithdrawal
  simp only [keyArgument_key, checked, read_answer held.connected, held.rows]
  cases ledgerView calls (hash, index) with
  | none => rfl
  | some w =>
    simp only [Option.map_some, StoredWithdrawal.decode_toRow]
    rfl

theorem getWithdrawal_congr {s s' : Store} (connected : s'.connection.closed = s.connection.closed)
    (rows : s'.connection.tables.withdrawals = s.connection.tables.withdrawals) (hash index : Value) :
    (s'.getWithdrawal hash index).1 = (s.getWithdrawal hash index).1 := by
  unfold getWithdrawal
  cases keyArgument .getWithdrawal hash index with
  | error f => rfl
  | ok key =>
    have found : s'.connection.tables.withdrawal? key = s.connection.tables.withdrawal? key := by
      unfold Tables.withdrawal?
      rw [rows]
    simp only [checked]
    exact read_congr connected rfl (by simp only [found])

theorem getWithdrawal_after_read (s : Store) {st : Step} (reading : st.reads = true) (hash index : Value) :
    ((s.step st).2.getWithdrawal hash index).1 = (s.getWithdrawal hash index).1 := by
  rcases call_cases s (Step.callsStore_of_reads reading) with
    ⟨-, e, same⟩ | ⟨-, ⟨_, _, _, _, _, _, _, _, rfl, -⟩ | ⟨_, _, rfl, -⟩ | ⟨_, _, rfl, -⟩⟩
  · rw [same]
    refine getWithdrawal_congr ?_ ?_ hash index <;> rfl
  all_goals cases reading

theorem getWithdrawal_after_recordPhase (s : Store) (phase start stop l1 hash index : Value) :
    ((s.step (.recordPhase phase start stop l1)).2.getWithdrawal hash index).1 =
      (s.getWithdrawal hash index).1 := by
  rcases @call_cases s (.recordPhase phase start stop l1) rfl with
    ⟨-, e, same⟩ | ⟨-, ⟨_, _, _, _, p, first, last, block, -, -, -, wrote⟩ | ⟨_, _, other, -⟩ |
      ⟨_, _, other, -⟩⟩
  · rw [same]
    refine getWithdrawal_congr ?_ ?_ hash index <;> rfl
  · refine getWithdrawal_congr wrote.connected ?_ hash index
    rw [wrote.tables, Tables.recordRange_withdrawals]
  · cases other
  · cases other

/-- Over any run of calls on a store opened on a new connection, reading a withdrawal by a 32-byte
hash and a 32-bit position answers what the ledger of the successful calls holds at that key: the
first withdrawal ingested with it, finalized when it came so or a later finalize named the key. -/
theorem getWithdrawal_after_calls {s : Store} (opened : s.Opened) {steps : List Step}
    (only : ∀ st ∈ steps, st.callsStore = true) (hash : TxHash) (index : Word .w32) :
    ((s.after steps).getWithdrawal (.bytes hash.data) (.int index.toNat)).1 =
        .ok (ledgerView (s.succeeded steps) (hash, index)) ∧
      (ledgerView (s.succeeded steps) (hash, index) = none ↔
        ∀ call ∈ s.succeeded steps, ∀ w ∈ call.ingested, w.key ≠ (hash, index)) ∧
      (∀ w, ledgerView (s.succeeded steps) (hash, index) = some w ↔
        ∃ before call later first, s.succeeded steps = before ++ call :: later ∧
          (∀ c ∈ before, ∀ w' ∈ c.ingested, w'.key ≠ (hash, index)) ∧
          call.ingested.find? (fun w' => decide (w'.key = (hash, index))) = some first ∧
          w = first.finalizedWhen (later.any (·.finalizes (hash, index)))) ∧
      (∀ (s' : Store) (st : Step) (hash' index' : Value), st.reads = true →
        ((s'.step st).2.getWithdrawal hash' index').1 = (s'.getWithdrawal hash' index').1) ∧
      ∀ (s' : Store) (phase start stop l1 hash' index' : Value),
        ((s'.step (.recordPhase phase start stop l1)).2.getWithdrawal hash' index').1 =
          (s'.getWithdrawal hash' index').1 :=
  ⟨(after_ledgers opened only).getWithdrawal hash index, ledgerView_eq_none_iff,
    fun _ => ledgerView_eq_some_iff, fun s' _ _ _ reading => getWithdrawal_after_read s' reading _ _,
    getWithdrawal_after_recordPhase⟩

/-- One batch ingests a withdrawal and a replay of it with another amount, and a later call
finalizes their key. -/
theorem getWithdrawal_after_calls_replay :
    Store.Opened ⟨Settings.default, Connection.fresh⟩ ∧
      (∀ st ∈ [Step.ingest
          [[(.str "tx_hash", .bytes (List.replicate 32 7)), (.str "block_number", .int 5),
            (.str "token", .bytes (List.replicate 20 1)), (.str "amount", .int 100),
            (.str "index_in_tx", .int 0)],
           [(.str "tx_hash", .bytes (List.replicate 32 7)), (.str "block_number", .int 5),
            (.str "token", .bytes (List.replicate 20 1)), (.str "amount", .int 200),
            (.str "index_in_tx", .int 0)]],
        .finalize [(.bytes (List.replicate 32 7), .int 0)]], st.callsStore = true) ∧
      ((Store.after ⟨Settings.default, Connection.fresh⟩ [Step.ingest
          [[(.str "tx_hash", .bytes (List.replicate 32 7)), (.str "block_number", .int 5),
            (.str "token", .bytes (List.replicate 20 1)), (.str "amount", .int 100),
            (.str "index_in_tx", .int 0)],
           [(.str "tx_hash", .bytes (List.replicate 32 7)), (.str "block_number", .int 5),
            (.str "token", .bytes (List.replicate 20 1)), (.str "amount", .int 200),
            (.str "index_in_tx", .int 0)]],
        .finalize [(.bytes (List.replicate 32 7), .int 0)]]).getWithdrawal
          (.bytes (⟨List.replicate 32 7, rfl⟩ : TxHash).data) (.int (⟨0, by decide⟩ : Word .w32).toNat)).1 =
        .ok (ledgerView (Store.succeeded ⟨Settings.default, Connection.fresh⟩ [Step.ingest
          [[(.str "tx_hash", .bytes (List.replicate 32 7)), (.str "block_number", .int 5),
            (.str "token", .bytes (List.replicate 20 1)), (.str "amount", .int 100),
            (.str "index_in_tx", .int 0)],
           [(.str "tx_hash", .bytes (List.replicate 32 7)), (.str "block_number", .int 5),
            (.str "token", .bytes (List.replicate 20 1)), (.str "amount", .int 200),
            (.str "index_in_tx", .int 0)]],
        .finalize [(.bytes (List.replicate 32 7), .int 0)]]) (⟨List.replicate 32 7, rfl⟩, ⟨0, by decide⟩)) :=
  ⟨⟨rfl, rfl, rfl⟩, by decide,
    (getWithdrawal_after_calls ⟨rfl, rfl, rfl⟩ (by decide) ⟨List.replicate 32 7, rfl⟩ ⟨0, by decide⟩).1⟩

/- The replay in the batch is skipped: the first amount stays, finalized by the later call. -/
example :
    ((Store.after ⟨Settings.default, Connection.fresh⟩ [Step.ingest
          [[(.str "tx_hash", .bytes (List.replicate 32 7)), (.str "block_number", .int 5),
            (.str "token", .bytes (List.replicate 20 1)), (.str "amount", .int 100),
            (.str "index_in_tx", .int 0)],
           [(.str "tx_hash", .bytes (List.replicate 32 7)), (.str "block_number", .int 5),
            (.str "token", .bytes (List.replicate 20 1)), (.str "amount", .int 200),
            (.str "index_in_tx", .int 0)]],
        .finalize [(.bytes (List.replicate 32 7), .int 0)]]).getWithdrawal
          (.bytes (List.replicate 32 7)) (.int 0)).1 =
      .ok (some ⟨⟨⟨List.replicate 32 7, rfl⟩, ⟨5, by decide⟩, ⟨List.replicate 20 1, rfl⟩,
        ⟨100, by decide⟩⟩, ⟨0, by decide⟩, true⟩) := by
  rfl

end Store

end BridgeLedger
