import BridgeLedger.Proofs.Store.Atomicity

namespace BridgeLedger

namespace Store

/-- A store as opening it on a new connection leaves it: no row and no guard in the committed
tables, no transaction open and the connection open. Its settings and the engine's record of
statements may be any. -/
structure Opened (s : Store) : Prop where
  committed : s.connection.committed = Tables.empty
  working : s.connection.working = none
  connected : s.connection.closed = false

theorem start_opened {fields : Option (List (Value × Value))} {s : Store}
    (started : Store.start fields = .ok s) : s.Opened := by
  obtain ⟨settings, -, created⟩ := bind_eq_ok.mp started
  unfold Store.create at created
  split at created
  · cases created
  · split at created
    · cases created
    · cases created
      exact ⟨rfl, rfl, rfl⟩

theorem checked_keeps {α β : Type} {P : Store → Prop} {s : Store} {args : Except Fault β}
    {k : β → Except Fault α × Store} (here : P s) (rest : ∀ b, args = .ok b → P (k b).2) :
    P (s.checked args k).2 := by
  cases checks : args with
  | error f => exact here
  | ok b => exact rest b checks

theorem read_engine {α : Type} (s : Store) (op : Operation) (st : Statement) (fits : Bool)
    (answer : Tables → Except Fault α) : ∃ e, (s.read op st fits answer).2 = s.withEngine fun _ => e := by
  unfold read
  split
  · exact ⟨s.connection.engine, rfl⟩
  · split
    · exact ⟨_, rfl⟩
    · exact ⟨_, rfl⟩

theorem read_answer {α : Type} {s : Store} {op : Operation} {st : Statement} {fits : Bool}
    {answer : Tables → Except Fault α} (connected : s.connection.closed = false) (fitting : fits = true) :
    (s.read op st fits answer).1 = answer s.connection.tables := by
  simp only [read, connected, fitting, Bool.false_eq_true, if_false, if_true]
  rfl

theorem read_closed {α : Type} {s : Store} {op : Operation} {st : Statement} {fits : Bool}
    {answer : Tables → Except Fault α} (closed : s.connection.closed = true) :
    (s.read op st fits answer).1 = .error (.unavailable op .closed) := by
  simp only [read, closed, if_true]

theorem read_congr {α : Type} {s s' : Store} {op : Operation} {st : Statement} {fits : Bool}
    {answer : Tables → Except Fault α} (connected : s'.connection.closed = s.connection.closed)
    (fitting : fits = true) (same : answer s'.connection.tables = answer s.connection.tables) :
    (s'.read op st fits answer).1 = (s.read op st fits answer).1 := by
  cases closed : s.connection.closed with
  | true => rw [read_closed closed, read_closed (connected.trans closed)]
  | false => rw [read_answer closed fitting, read_answer (connected.trans closed) fitting, same]

theorem checked_engine {α β : Type} {s : Store} {args : Except Fault β} {k : β → Except Fault α × Store}
    (rest : ∀ b, ∃ e, (k b).2 = s.withEngine fun _ => e) :
    ∃ e, (s.checked args k).2 = s.withEngine fun _ => e :=
  checked_keeps (P := fun s' => ∃ e, s' = s.withEngine fun _ => e) ⟨s.connection.engine, rfl⟩
    fun b _ => rest b

theorem lifecycle_engine (s : Store) (block : Value) :
    ∃ e, (s.lifecycle block).2 = s.withEngine fun _ => e :=
  checked_engine fun _ => read_engine _ _ _ _ _

theorem phaseL1Block_engine (s : Store) (p : Phase) (hash : Value) (index : Option Value) :
    ∃ e, (s.phaseL1Block p hash index).2 = s.withEngine fun _ => e :=
  checked_engine fun _ => read_engine _ _ _ _ _

theorem pending_engine (s : Store) (limit : Option Operand) :
    ∃ e, (s.pending limit).2 = s.withEngine fun _ => e :=
  checked_engine fun _ => read_engine _ _ _ _ _

theorem getWithdrawal_engine (s : Store) (hash index : Value) :
    ∃ e, (s.getWithdrawal hash index).2 = s.withEngine fun _ => e :=
  checked_engine fun _ => read_engine _ _ _ _ _

theorem highestObserved_engine (s : Store) : ∃ e, s.highestObserved.2 = s.withEngine fun _ => e :=
  read_engine _ _ _ _ _

theorem highestCommitted_engine (s : Store) : ∃ e, s.highestCommitted.2 = s.withEngine fun _ => e :=
  read_engine _ _ _ _ _

theorem reopen_connection {s s' : Store} {fields : Option (List (Value × Value))}
    (reopened : s.reopen fields = .ok s') : ∃ e, s'.connection = { s.connection with engine := e } := by
  obtain ⟨settings, -, created⟩ := bind_eq_ok.mp reopened
  unfold Store.create at created
  split at created
  · cases created
  · split at created
    · cases created
    · cases created
      exact ⟨_, rfl⟩

theorem storable_ok {op : Operation} {name : String} {x : Word .w64} {u : Unit}
    (fits : storable op name x = .ok u) : x.toNat ≤ storableMaximum := by
  unfold storable at fits
  split at fits
  · assumption
  · cases fits

theorem recordArguments_ok {op : Operation} {start stop l1 : Value} {first last block : Word .w64}
    (checked : recordArguments op start stop l1 = .ok (first, last, block)) :
    first.toNat ≤ last.toNat ∧ last.toNat ≤ storableMaximum ∧ block.toNat ≤ storableMaximum := by
  unfold recordArguments at checked
  obtain ⟨a, -, checked⟩ := bind_eq_ok.mp checked
  obtain ⟨b, -, checked⟩ := bind_eq_ok.mp checked
  obtain ⟨c, -, checked⟩ := bind_eq_ok.mp checked
  dsimp only at checked
  split at checked
  · obtain ⟨_, thrown, -⟩ := bind_eq_ok.mp checked
    cases thrown
  · rename_i ordered
    obtain ⟨_, lastFits, checked⟩ := bind_eq_ok.mp checked
    obtain ⟨_, blockFits, checked⟩ := bind_eq_ok.mp checked
    cases checked
    exact ⟨by omega, storable_ok lastFits, storable_ok blockFits⟩

theorem forM_ok {α : Type} {f : α → Except Fault Unit} :
    ∀ {xs : List α} {u : Unit}, xs.forM f = .ok u → ∀ x ∈ xs, ∃ v, f x = .ok v
  | [], _, _ => fun _ absent => by cases absent
  | a :: rest, _, done => by
    obtain ⟨v, first, later⟩ := bind_eq_ok.mp done
    intro x member
    rcases List.mem_cons.mp member with rfl | kept
    · exact ⟨v, first⟩
    · exact forM_ok later x kept

theorem mapM_ok_mem_iff {α β : Type} {f : α → Except Fault β} :
    ∀ {xs : List α} {ys : List β}, xs.mapM f = .ok ys → ∀ b, b ∈ ys ↔ ∃ a ∈ xs, f a = .ok b
  | [], _, done, b => by
    cases done
    simp
  | a :: rest, _, done, b => by
    rw [List.mapM_cons] at done
    obtain ⟨y, first, done⟩ := bind_eq_ok.mp done
    obtain ⟨ys, later, done⟩ := bind_eq_ok.mp done
    cases done
    rw [List.mem_cons, mapM_ok_mem_iff later]
    constructor
    · rintro (rfl | ⟨a', member, mapped⟩)
      · exact ⟨a, List.mem_cons_self, first⟩
      · exact ⟨a', List.mem_cons_of_mem a member, mapped⟩
    · rintro ⟨a', member, mapped⟩
      rcases List.mem_cons.mp member with rfl | member
      · rw [first] at mapped
        cases mapped
        exact .inl rfl
      · exact .inr ⟨a', member, mapped⟩

theorem wordArgument_int (op : Operation) (name : String) {w : Width} (x : Word w) :
    wordArgument op name w (.int x.toNat) = .ok x := by
  rw [wordArgument, Word.ofValue_int]

theorem bytesArgument_bytes (op : Operation) (name : String) {n : Nat} (x : FixedBytes n) :
    bytesArgument op name n (.bytes x.data) = .ok x := by
  rw [bytesArgument, FixedBytes.ofValue_bytes]

end Store

theorem Step.callsStore_of_reads {st : Step} (reading : st.reads = true) : st.callsStore = true := by
  cases st <;> first | rfl | cases reading

namespace Connection

theorem closed_write (c : Connection) (t : Tables) : (c.write t).closed = c.closed := by
  unfold write
  split <;> rfl

theorem tables_write (c : Connection) (t : Tables) : (c.write t).tables = t := by
  unfold write
  split
  · rfl
  · rename_i noTransaction
    show c.working.getD t = t
    rw [noTransaction, Option.getD_none]

end Connection

namespace Store

/-- What a write that succeeded did: its batch ran to its end on the tables the call saw, and the
connection sees what the batch left. -/
structure Wrote (s s' : Store) (batch : Tables → Tables × Option Violation) : Prop where
  completed : (batch s.connection.tables).2 = none
  connected : s'.connection.closed = s.connection.closed
  tables : s'.connection.tables = (batch s.connection.tables).1

theorem mutate_ok {s : Store} {op : Operation} {st : Statement}
    {batch : Tables → Tables × Option Violation} {u : Unit} (done : (s.mutate op st batch).1 = .ok u) :
    s.Wrote (s.mutate op st batch).2 batch := by
  rcases mutate_cases s op st batch with ⟨f, e, failed, -⟩ | ⟨-, completed, e, written⟩
  · rw [failed] at done
    cases done
  · rw [written]
    exact ⟨completed, Connection.closed_write _ _, Connection.tables_write _ _⟩

theorem checked_ok {α β : Type} {s : Store} {args : Except Fault β} {k : β → Except Fault α × Store}
    {a : α} (done : (s.checked args k).1 = .ok a) : ∃ b, args = .ok b ∧ s.checked args k = k b := by
  cases args with
  | ok b => exact ⟨b, rfl, rfl⟩
  | error f => cases done

theorem recordPhase_ok {s : Store} {p : Phase} {start stop l1 : Value} {u : Unit}
    (done : (s.recordPhase p start stop l1).1 = .ok u) :
    ∃ first last block, recordArguments (.recordPhase p) start stop l1 = .ok (first, last, block) ∧
      s.Wrote (s.recordPhase p start stop l1).2 (Tables.executeRange
        (fun t => t.recordBlock p block.toNat) first.toNat (last.toNat + 1 - first.toNat)) := by
  unfold recordPhase at done ⊢
  obtain ⟨⟨first, last, block⟩, checks, called⟩ := checked_ok done
  rw [called] at done ⊢
  exact ⟨first, last, block, checks, mutate_ok done⟩

theorem ingest_ok {s : Store} {ws : List StoredWithdrawal} {u : Unit} (done : (s.ingest ws).1 = .ok u) :
    s.Wrote (s.ingest ws).2 (Tables.executeMany Tables.ingestOne ws) := by
  unfold ingest at done ⊢
  by_cases empty : ws.isEmpty
  · -- an empty batch runs no statement and writes nothing
    rw [if_pos empty, List.isEmpty_iff.mp empty]
    exact ⟨rfl, rfl, rfl⟩
  · rw [if_neg empty] at done ⊢
    obtain ⟨_, -, called⟩ := checked_ok done
    rw [called] at done ⊢
    exact mutate_ok done

theorem finalize_ok {s : Store} {keys : List (Value × Value)} {u : Unit}
    (done : (s.finalize keys).1 = .ok u) :
    ∃ ks, finalizeKeys keys = .ok ks ∧
      s.Wrote (s.finalize keys).2 (Tables.executeMany (fun t k => .ok (t.finalizeKey k)) ks) := by
  unfold finalize at done ⊢
  by_cases empty : keys.isEmpty
  · rw [if_pos empty, List.isEmpty_iff.mp empty]
    exact ⟨[], rfl, rfl, rfl, rfl⟩
  · rw [if_neg empty] at done ⊢
    obtain ⟨ks, named, called⟩ := checked_ok done
    rw [called] at done ⊢
    exact ⟨ks, named, mutate_ok done⟩

theorem FailsCleanly.changes_engine {α : Type} {s : Store} {op : Operation}
    {call : Except Fault α × Store} (clean : s.FailsCleanly op call) {f : Fault}
    (failed : call.1 = .error f) : ∃ e, call.2 = s.withEngine fun _ => e := by
  obtain ⟨-, restored⟩ := clean f failed
  exact ⟨call.2.connection.engine, by rw [← restored]; rfl⟩

/-- What a call on the store does to what later calls see: a read, and a call that fails, change
only the engine's record; a write that succeeds has run its whole batch on the tables it saw. -/
theorem call_cases (s : Store) {st : Step} (isCall : st.callsStore = true) :
    (((s.step st).1.isOk = false ∨ st.reads = true) ∧ ∃ e, (s.step st).2 = s.withEngine fun _ => e) ∨
      (s.step st).1.isOk = true ∧
        ((∃ phase start stop l1 p first last block, st = .recordPhase phase start stop l1 ∧
          phaseOf phase = .ok p ∧ recordArguments (.recordPhase p) start stop l1 = .ok (first, last, block) ∧
          s.Wrote (s.step st).2 (Tables.executeRange (fun t => t.recordBlock p block.toNat) first.toNat
            (last.toNat + 1 - first.toNat))) ∨
        (∃ descriptions ws, st = .ingest descriptions ∧ withdrawalsOf descriptions = .ok ws ∧
          s.Wrote (s.step st).2 (Tables.executeMany Tables.ingestOne ws)) ∨
        (∃ keys ks, st = .finalize keys ∧ finalizeKeys keys = .ok ks ∧
          s.Wrote (s.step st).2 (Tables.executeMany (fun t k => .ok (t.finalizeKey k)) ks))) := by
  cases st with
  | recordPhase phase start stop l1 =>
    cases parsed : phaseOf phase with
    | error f =>
      have unchanged : s.step (.recordPhase phase start stop l1) = (.error f, s) := by
        simp only [step, parsed, checked]
      rw [unchanged]
      exact .inl ⟨.inl rfl, s.connection.engine, rfl⟩
    | ok p =>
      have called : s.step (.recordPhase phase start stop l1) =
          step.answer (fun _ => .done) (s.recordPhase p start stop l1) := by
        simp only [step, parsed, checked]
      rw [called]
      cases result : (s.recordPhase p start stop l1).1 with
      | error f =>
        have changed := (recordPhase_failsCleanly s p start stop l1).changes_engine result
        exact .inl ⟨.inl (by simp only [step.answer, result]; rfl), changed⟩
      | ok u =>
        obtain ⟨first, last, block, checks, wrote⟩ := recordPhase_ok result
        refine .inr ⟨by simp only [step.answer, result]; rfl, .inl ?_⟩
        exact ⟨phase, start, stop, l1, p, first, last, block, rfl, parsed, checks, wrote⟩
  | ingest descriptions =>
    cases built : withdrawalsOf descriptions with
    | error f =>
      have unchanged : s.step (.ingest descriptions) = (.error f, s) := by
        simp only [step, built, checked]
      rw [unchanged]
      exact .inl ⟨.inl rfl, s.connection.engine, rfl⟩
    | ok ws =>
      have called : s.step (.ingest descriptions) = step.answer (fun _ => .done) (s.ingest ws) := by
        simp only [step, built, checked]
      rw [called]
      cases result : (s.ingest ws).1 with
      | error f =>
        have changed := (ingest_failsCleanly s ws).changes_engine result
        exact .inl ⟨.inl (by simp only [step.answer, result]; rfl), changed⟩
      | ok u =>
        refine .inr ⟨by simp only [step.answer, result]; rfl, .inr (.inl ?_)⟩
        exact ⟨descriptions, ws, rfl, built, ingest_ok result⟩
  | finalize keys =>
    have called : s.step (.finalize keys) = step.answer (fun _ => .done) (s.finalize keys) := rfl
    rw [called]
    cases result : (s.finalize keys).1 with
    | error f =>
      have changed := (finalize_failsCleanly s keys).changes_engine result
      exact .inl ⟨.inl (by simp only [step.answer, result]; rfl), changed⟩
    | ok u =>
      obtain ⟨ks, named, wrote⟩ := finalize_ok result
      refine .inr ⟨by simp only [step.answer, result]; rfl, .inr (.inr ?_)⟩
      exact ⟨keys, ks, rfl, named, wrote⟩
  | lifecycle block => exact .inl ⟨.inr rfl, lifecycle_engine s block⟩
  | phaseLookup phase hash index =>
    refine .inl ⟨.inr rfl, checked_engine fun p => phaseL1Block_engine s p hash index⟩
  | pending limit => exact .inl ⟨.inr rfl, pending_engine s limit⟩
  | getWithdrawal hash index => exact .inl ⟨.inr rfl, getWithdrawal_engine s hash index⟩
  | highestObserved => exact .inl ⟨.inr rfl, highestObserved_engine s⟩
  | highestCommitted => exact .inl ⟨.inr rfl, highestCommitted_engine s⟩
  | _ => cases isCall

/-- A view of the successful calls that a read does not change is not changed by a call that
fails or reads. -/
theorem append_unless_counted {β : Type} (view : List Step → β) {calls : List Step} {st : Step}
    {ok : Bool} (quiet : ok = false ∨ st.reads = true) (unread : st.reads = true → view (calls ++ [st]) = view calls) :
    view (calls ++ if ok then [st] else []) = view calls := by
  cases ok with
  | false => rw [if_neg Bool.false_ne_true, List.append_nil]
  | true =>
    rw [if_pos rfl]
    exact unread (quiet.resolve_left Bool.noConfusion)

/-- A property of a store and of the calls that succeeded on the way to it, kept by every call,
holds after every run of calls. -/
theorem after_calls {R : Store → List Step → Prop}
    (kept : ∀ s calls st, st.callsStore = true → R s calls →
      R (s.step st).2 (calls ++ if (s.step st).1.isOk then [st] else [])) :
    ∀ {s : Store} {calls steps : List Step}, (∀ st ∈ steps, st.callsStore = true) → R s calls →
      R (s.after steps) (calls ++ s.succeeded steps)
  | _, _, [], _, holds => by
    rw [after, succeeded, List.append_nil]
    exact holds
  | s, calls, st :: rest, only, holds => by
    have next := kept s calls st (only st List.mem_cons_self) holds
    have later := after_calls kept (fun st' member => only st' (List.mem_cons_of_mem st member)) next
    rw [after, succeeded, ← List.append_assoc]
    exact later

end Store

end BridgeLedger
