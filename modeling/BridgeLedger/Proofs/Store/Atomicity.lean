import BridgeLedger.Session

namespace BridgeLedger

namespace Tables

section Batch

variable {ρ : Type} (write : Tables → ρ → Except Violation Tables)

theorem executeMany_cons_ok {r : ρ} {rest : List ρ} {t t' : Tables} (written : write t r = .ok t') :
    executeMany write (r :: rest) t = executeMany write rest t' := by
  simp only [executeMany, written]

theorem executeMany_cons_error {r : ρ} {rest : List ρ} {t : Tables} {v : Violation}
    (refused : write t r = .error v) : executeMany write (r :: rest) t = (t, some v) := by
  simp only [executeMany, refused]

/-- What every written row of a batch keeps, the batch keeps, whether it ran to its end or
stopped at a refused row. -/
theorem executeMany_keeps {P : Tables → Prop} :
    ∀ (rows : List ρ) (t : Tables), (∀ t r t', r ∈ rows → P t → write t r = .ok t' → P t') →
      P t → P (executeMany write rows t).1
  | [], _, _, holds => holds
  | r :: rest, t, keep, holds => by
    cases written : write t r with
    | ok t' =>
      rw [executeMany_cons_ok write written]
      refine executeMany_keeps rest t' (fun t r' t'' member => keep t r' t'' (List.mem_cons_of_mem r member)) ?_
      exact keep t r t' List.mem_cons_self holds written
    | error v =>
      rw [executeMany_cons_error write written]
      exact holds

end Batch

theorem executeRange_eq (write : Tables → Nat → Except Violation Tables) :
    ∀ (start count : Nat) (t : Tables),
      executeRange write start count t = executeMany write (List.range' start count) t
  | _, 0, _ => rfl
  | start, count + 1, t => by
    rw [List.range'_succ]
    cases written : write t start with
    | ok t' =>
      rw [executeMany_cons_ok write written, ← executeRange_eq write (start + 1) count t']
      simp only [executeRange, written]
    | error v =>
      rw [executeMany_cons_error write written]
      simp only [executeRange, written]

end Tables

/-- Every failure of a computation satisfies `P`. -/
def FailsWith {ε α : Type} (P : ε → Prop) (x : Except ε α) : Prop := ∀ e, x = .error e → P e

section FailsWith

variable {ε α β : Type} {P : ε → Prop}

theorem bind_eq_ok {x : Except ε α} {f : α → Except ε β} {b : β} :
    (x >>= f) = .ok b ↔ ∃ a, x = .ok a ∧ f a = .ok b := by
  cases x with
  | error e => exact Iff.intro (fun bound => by cases bound) (fun ⟨_, failed, _⟩ => by cases failed)
  | ok a =>
    refine ⟨fun bound => ⟨a, rfl, bound⟩, fun ⟨a', same, rest⟩ => ?_⟩
    cases same
    exact rest

theorem failsWith_pure (a : α) : FailsWith P (pure a : Except ε α) := by
  intro e failed
  cases failed

theorem failsWith_throw {e : ε} (holds : P e) : FailsWith P (throw e : Except ε α) := by
  intro e' failed
  cases failed
  exact holds

theorem failsWith_bind {x : Except ε α} {f : α → Except ε β} (first : FailsWith P x)
    (rest : ∀ a, FailsWith P (f a)) : FailsWith P (x >>= f) := by
  intro e failed
  cases x with
  | error e' =>
    cases failed
    exact first _ rfl
  | ok a => exact rest a e failed

theorem failsWith_mapM {f : α → Except ε β} (each : ∀ a, FailsWith P (f a)) :
    ∀ xs : List α, FailsWith P (xs.mapM f)
  | [] => failsWith_pure []
  | a :: rest => by
    rw [List.mapM_cons]
    exact failsWith_bind (each a) fun b =>
      failsWith_bind (failsWith_mapM each rest) fun bs => failsWith_pure (b :: bs)

theorem failsWith_forM {f : α → Except ε PUnit} (each : ∀ a, FailsWith P (f a)) :
    ∀ xs : List α, FailsWith P (xs.forM f)
  | [] => failsWith_pure PUnit.unit
  | a :: rest => failsWith_bind (each a) fun _ => failsWith_forM each rest

theorem FailsWith.mono {Q : ε → Prop} {x : Except ε α} (holds : FailsWith P x)
    (weaker : ∀ e, P e → Q e) : FailsWith Q x :=
  fun e failed => weaker e (holds e failed)

end FailsWith

/-- A failure of the store's own kinds for an operation: a broken constraint or an unavailable
store, naming the operation. -/
def Fault.StorageError (op : Operation) : Fault → Prop
  | .constraint o _ => o = op
  | .unavailable o _ => o = op
  | _ => False

/-- A broken constraint of an operation. -/
def Fault.Breaks (op : Operation) (f : Fault) : Prop := ∃ v, f = .constraint op v

/-- The broken constraint of an operation that refuses the type of its argument `name`. -/
def Fault.NamesArgument (op : Operation) (name : String) (f : Fault) : Prop :=
  ∃ e, f = .constraint op (.badArgument name e)

theorem Fault.NamesArgument.breaks {op : Operation} {name : String} {f : Fault}
    (named : f.NamesArgument op name) : f.Breaks op := by
  obtain ⟨e, rfl⟩ := named
  exact ⟨_, rfl⟩

theorem Fault.Breaks.storageError {op : Operation} {f : Fault} (broken : f.Breaks op) :
    f.StorageError op := by
  obtain ⟨v, rfl⟩ := broken
  rfl

namespace Store

/-- A call that, when it fails, fails with a broken constraint or an unavailable store naming
`op`, and leaves the store as it was but for the engine's record of its statements: the tables,
committed and open, the settings and whether the connection is closed all stay. -/
def FailsCleanly {α : Type} (s : Store) (op : Operation) (call : Except Fault α × Store) : Prop :=
  ∀ f, call.1 = .error f → f.StorageError op ∧ call.2.withEngine (fun _ => s.connection.engine) = s

section Checks

variable {op : Operation} {name : String}

theorem wordArgument_names (w : Width) (v : Value) :
    FailsWith (Fault.NamesArgument op name) (wordArgument op name w v) := by
  intro f failed
  unfold wordArgument at failed
  split at failed
  · cases failed
  · cases failed
    exact ⟨_, rfl⟩

theorem bytesArgument_names (n : Nat) (v : Value) :
    FailsWith (Fault.NamesArgument op name) (bytesArgument op name n v) := by
  intro f failed
  unfold bytesArgument at failed
  split at failed
  · cases failed
  · cases failed
    exact ⟨_, rfl⟩

theorem storable_breaks (x : Word .w64) : FailsWith (Fault.Breaks op) (storable op name x) := by
  intro f failed
  unfold storable at failed
  split at failed
  · cases failed
  · cases failed
    exact ⟨_, rfl⟩

theorem storable_failsWith (x : Word .w64) :
    FailsWith (Fault.StorageError op) (storable op name x) :=
  (storable_breaks x).mono fun _ broken => broken.storageError

end Checks

theorem keyArgument_breaks {op : Operation} {hash index : Value} :
    FailsWith (Fault.Breaks op) (keyArgument op hash index) := by
  unfold keyArgument
  refine failsWith_bind (fun f failed => (bytesArgument_names 32 hash f failed).breaks) fun _ => ?_
  exact failsWith_bind (fun f failed => (wordArgument_names .w32 index f failed).breaks) fun _ => failsWith_pure _

theorem recordArguments_breaks {op : Operation} {start stop l1 : Value} :
    FailsWith (Fault.Breaks op) (recordArguments op start stop l1) := by
  unfold recordArguments
  refine failsWith_bind (fun f failed => (wordArgument_names .w64 start f failed).breaks) fun first => ?_
  refine failsWith_bind (fun f failed => (wordArgument_names .w64 stop f failed).breaks) fun last => ?_
  refine failsWith_bind (fun f failed => (wordArgument_names .w64 l1 f failed).breaks) fun block => ?_
  have stored : FailsWith (Fault.Breaks op) (do
      storable op "end" last
      storable op "l1_block_number" block
      pure (first, last, block)) :=
    failsWith_bind (storable_breaks _) fun _ => failsWith_bind (storable_breaks _) fun _ => failsWith_pure _
  -- the order check sits in a join point that both of its branches run
  dsimp only
  split
  · exact failsWith_bind (failsWith_throw ⟨_, rfl⟩) fun _ => stored
  · exact stored

theorem recordArguments_failsWith (op : Operation) (start stop l1 : Value) :
    FailsWith (Fault.StorageError op) (recordArguments op start stop l1) :=
  recordArguments_breaks.mono fun _ broken => broken.storageError

theorem keyArgument_failsWith (op : Operation) (hash index : Value) :
    FailsWith (Fault.StorageError op) (keyArgument op hash index) :=
  keyArgument_breaks.mono fun _ broken => broken.storageError

/-- What a write does. It fails, naming its operation, and leaves the store as it was but for
the engine; or the connection is open, the batch ran to its end on the tables the write saw, and
the store holds what it wrote where the write saw them: in the open transaction, or committed. -/
theorem mutate_cases (s : Store) (op : Operation) (st : Statement)
    (batch : Tables → Tables × Option Violation) :
    (∃ f e, s.mutate op st batch = (.error f, s.withEngine fun _ => e) ∧ f.StorageError op) ∨
      (s.connection.closed = false ∧ (batch s.connection.tables).2 = none ∧
        ∃ e, s.mutate op st batch =
          (.ok (), { s with connection := { s.connection.write (batch s.connection.tables).1 with engine := e } })) := by
  obtain ⟨settings, committed, working, owned, requests, closed, engine⟩ := s
  cases closed with
  | true => exact .inl ⟨_, engine, rfl, rfl⟩
  | false =>
    -- the two brackets: a savepoint in the owner's transaction, or a transaction of the write's own
    cases working with
    | some saved =>
      cases ran : (batch saved).2 with
      | none =>
        refine .inr ⟨rfl, ran, ((engine.run .savepoint).fetch st).run .releaseSavepoint, ?_⟩
        simp only [mutate, ran, Connection.tables, Connection.write, Option.getD_some,
          Bool.false_eq_true, if_false]
      | some v =>
        refine .inl ⟨.constraint op v,
          (((engine.run .savepoint).fetch st).run .rollbackToSavepoint).run .releaseSavepoint, ?_, rfl⟩
        simp only [mutate, ran, Bool.false_eq_true, if_false]
        rfl
    | none =>
      cases ran : (batch committed).2 with
      | none =>
        refine .inr ⟨rfl, ran, ((engine.run .begin).fetch st).clear, ?_⟩
        simp only [mutate, ran, Connection.tables, Connection.write, Option.getD_none,
          Bool.false_eq_true, if_false]
      | some v =>
        refine .inl ⟨.constraint op v, ((engine.run .begin).fetch st).clear, ?_, rfl⟩
        simp only [mutate, ran, Bool.false_eq_true, if_false]
        rfl

theorem failsCleanly_mutate (s : Store) (op : Operation) (st : Statement)
    (batch : Tables → Tables × Option Violation) : s.FailsCleanly op (s.mutate op st batch) := by
  intro f failed
  rcases mutate_cases s op st batch with ⟨f', e, written, named⟩ | ⟨-, -, e, written⟩
  · rw [written] at failed ⊢
    cases failed
    exact ⟨named, rfl⟩
  · rw [written] at failed
    cases failed

theorem failsCleanly_checked {α β : Type} {s : Store} {op : Operation} {args : Except Fault β}
    {k : β → Except Fault α × Store} (checks : FailsWith (Fault.StorageError op) args)
    (rest : ∀ b, s.FailsCleanly op (k b)) : s.FailsCleanly op (s.checked args k) := by
  cases args with
  | ok b => exact rest b
  | error f' =>
    intro f failed
    cases failed
    exact ⟨checks f' rfl, rfl⟩

theorem recordPhase_failsCleanly (s : Store) (p : Phase) (start stop l1 : Value) :
    s.FailsCleanly (.recordPhase p) (s.recordPhase p start stop l1) :=
  failsCleanly_checked (recordArguments_failsWith _ _ _ _) fun _ => failsCleanly_mutate _ _ _ _

theorem ingest_failsCleanly (s : Store) (ws : List StoredWithdrawal) :
    s.FailsCleanly .ingest (s.ingest ws) := by
  unfold ingest
  split
  · intro f failed
    cases failed
  · exact failsCleanly_checked (failsWith_forM (fun _ => storable_failsWith _) ws)
      fun _ => failsCleanly_mutate _ _ _ _

theorem finalize_failsCleanly (s : Store) (keys : List (Value × Value)) :
    s.FailsCleanly .finalize (s.finalize keys) := by
  unfold finalize
  split
  · intro f failed
    cases failed
  · refine failsCleanly_checked (failsWith_mapM (fun key => ?_) keys) fun _ => failsCleanly_mutate _ _ _ _
    exact keyArgument_failsWith _ _ _

/-- A write that fails, at its checks, on a closed connection or at any row of its batch, names
itself in a broken constraint or an unavailable store and leaves the store as it was but for the
engine's record: no row of it stays, and the owner's transaction stays open with what it wrote. -/
theorem failed_write_leaves_store (s : Store) :
    (∀ p start stop l1, s.FailsCleanly (.recordPhase p) (s.recordPhase p start stop l1)) ∧
      (∀ ws, s.FailsCleanly .ingest (s.ingest ws)) ∧
      ∀ keys, s.FailsCleanly .finalize (s.finalize keys) :=
  ⟨recordPhase_failsCleanly s, ingest_failsCleanly s, finalize_failsCleanly s⟩

/- Inside the owner's transaction, a guard on block 3 refuses the third row of a record of
blocks 1 to 5: the record fails, and the savepoint takes back the two rows written before it. -/
example :
    let s : Store := ⟨Settings.default,
      { Connection.fresh with working := some ⟨[], [], [⟨.blocks, 3⟩]⟩, owned := true }⟩
    (s.recordPhase .commit (.int 1) (.int 5) (.int 7)).2.connection.working =
      some ⟨[], [], [⟨.blocks, 3⟩]⟩ := rfl

end Store

end BridgeLedger
