import BridgeLedger.Proofs.Store.Commute

namespace BridgeLedger

namespace Store

/-- Stores that hold the same: the same settings and flags, and committed and working tables with
the same rows, perhaps in another order. The engine's record of statements may differ. -/
structure Alike (s s' : Store) : Prop where
  settings : s.settings = s'.settings
  committed : s.connection.committed.Alike s'.connection.committed
  working : Option.Rel Tables.Alike s.connection.working s'.connection.working
  owned : s.connection.owned = s'.connection.owned
  guardRequests : s.connection.guardRequests = s'.connection.guardRequests
  closed : s.connection.closed = s'.connection.closed

theorem alike_written (s : Store) {t t' : Tables} (alike : t.Alike t') (e e' : Engine) :
    Alike ((s.writeTables t).withEngine fun _ => e) ((s.writeTables t').withEngine fun _ => e') := by
  obtain ⟨settings, committed, working, owned, requests, closed, engine⟩ := s
  cases working with
  | none => exact ⟨rfl, alike, .none, rfl, rfl, rfl⟩
  | some saved => exact ⟨rfl, .refl _, .some alike, rfl, rfl, rfl⟩

/-- Two calls that commute on a store: one order succeeds call after call exactly when the other
does, and the two orders then leave alike stores. -/
def Commutes (call₁ call₂ : Store → Except Fault Unit × Store) (s : Store) : Prop :=
  ((call₁ s).1 = .ok () ∧ (call₂ (call₁ s).2).1 = .ok () ↔
      (call₂ s).1 = .ok () ∧ (call₁ (call₂ s).2).1 = .ok ()) ∧
    ((call₁ s).1 = .ok () → (call₂ (call₁ s).2).1 = .ok () →
      Alike (call₂ (call₁ s).2).2 (call₁ (call₂ s).2).2)

/-- A call that does on a store what two calls do one after the other: it succeeds exactly when
both do in turn, and then leaves a store alike to theirs. -/
def Merges (call₁ call₂ call : Store → Except Fault Unit × Store) (s : Store) : Prop :=
  ((call₁ s).1 = .ok () ∧ (call₂ (call₁ s).2).1 = .ok () ↔ (call s).1 = .ok ()) ∧
    ((call s).1 = .ok () → Alike (call₂ (call₁ s).2).2 (call s).2)

section Calls

variable {call₁ call₂ call : Store → Except Fault Unit × Store}

theorem commutes_of_fails_left (fails : ∀ s, (call₁ s).1 ≠ .ok ()) (s : Store) : Commutes call₁ call₂ s :=
  ⟨⟨fun done => absurd done.1 (fails s), fun done => absurd done.2 (fails _)⟩, fun done => absurd done (fails s)⟩

theorem commutes_of_fails_right (fails : ∀ s, (call₂ s).1 ≠ .ok ()) (s : Store) : Commutes call₁ call₂ s :=
  ⟨⟨fun done => absurd done.2 (fails _), fun done => absurd done.1 (fails s)⟩, fun _ done => absurd done (fails _)⟩

theorem merges_of_fails (fails : ∀ s, (call s).1 ≠ .ok ())
    (either : (∀ s, (call₁ s).1 ≠ .ok ()) ∨ ∀ s, (call₂ s).1 ≠ .ok ()) (s : Store) : Merges call₁ call₂ call s := by
  refine ⟨⟨fun done => ?_, fun done => absurd done (fails s)⟩, fun done => absurd done (fails s)⟩
  rcases either with fails₁ | fails₂
  · exact absurd done.1 (fails₁ s)
  · exact absurd done.2 (fails₂ _)

end Calls

namespace Writes

variable {call₁ call₂ call : Store → Except Fault Unit × Store} {allowed₁ allowed₂ allowed : Bool → Prop}
  {batch₁ batch₂ batch : Tables → Tables × Option Violation}

/-- Two writes succeed in turn exactly when both are allowed on the connection and their batches
run to their ends in turn. -/
theorem both_ok (w₁ : Writes call₁ allowed₁ batch₁) (w₂ : Writes call₂ allowed₂ batch₂) (s : Store) :
    (call₁ s).1 = .ok () ∧ (call₂ (call₁ s).2).1 = .ok () ↔
      (allowed₁ s.connection.closed ∧ allowed₂ s.connection.closed) ∧
        (batch₁ s.connection.tables).2 = none ∧ (batch₂ (batch₁ s.connection.tables).1).2 = none := by
  constructor
  · rintro ⟨done₁, done₂⟩
    obtain ⟨allows₁, ran₁⟩ := (w₁.ok_iff s).mp done₁
    obtain ⟨allows₂, ran₂⟩ := (w₁.after_written w₂ done₁).1.mp done₂
    exact ⟨⟨allows₁, allows₂⟩, ran₁, ran₂⟩
  · rintro ⟨⟨allows₁, allows₂⟩, ran₁, ran₂⟩
    have done₁ := (w₁.ok_iff s).mpr ⟨allows₁, ran₁⟩
    exact ⟨done₁, (w₁.after_written w₂ done₁).1.mpr ⟨allows₂, ran₂⟩⟩

/-- Two writes commute as their batches do. -/
theorem commutes (w₁ : Writes call₁ allowed₁ batch₁) (w₂ : Writes call₂ allowed₂ batch₂)
    (batches : Tables.Commutes batch₁ batch₂) (s : Store) : Commutes call₁ call₂ s := by
  have orders : (call₁ s).1 = .ok () ∧ (call₂ (call₁ s).2).1 = .ok () ↔
      (call₂ s).1 = .ok () ∧ (call₁ (call₂ s).2).1 = .ok () := by
    rw [w₁.both_ok w₂, w₂.both_ok w₁]
    exact and_congr and_comm (batches _).1
  refine ⟨orders, fun done₁ done₂ => ?_⟩
  obtain ⟨done₂', done₁'⟩ := orders.mp ⟨done₁, done₂⟩
  obtain ⟨e, after⟩ := (w₁.after_written w₂ done₁).2 done₂
  obtain ⟨e', after'⟩ := (w₂.after_written w₁ done₂').2 done₁'
  obtain ⟨ran₁, ran₂⟩ := ((w₁.both_ok w₂ s).mp ⟨done₁, done₂⟩).2
  rw [after, after']
  exact alike_written s ((batches _).2 ran₁ ran₂) e e'

/-- A write whose batch does what two batches do in turn, allowed when both are, merges the two
writes. -/
theorem merges (w₁ : Writes call₁ allowed₁ batch₁) (w₂ : Writes call₂ allowed₂ batch₂) (w : Writes call allowed batch)
    (allows : ∀ closed, allowed₁ closed ∧ allowed₂ closed ↔ allowed closed)
    (joined : ∀ t, (batch t).2 = none ↔ (batch₁ t).2 = none ∧ (batch₂ (batch₁ t).1).2 = none)
    (result : ∀ t, (batch t).2 = none → (batch t).1 = (batch₂ (batch₁ t).1).1) (s : Store) :
    Merges call₁ call₂ call s := by
  have whole : (call₁ s).1 = .ok () ∧ (call₂ (call₁ s).2).1 = .ok () ↔ (call s).1 = .ok () := by
    rw [w₁.both_ok w₂, w.ok_iff, allows, joined]
  refine ⟨whole, fun done => ?_⟩
  obtain ⟨done₁, done₂⟩ := whole.mpr done
  obtain ⟨e, after⟩ := (w₁.after_written w₂ done₁).2 done₂
  obtain ⟨e', after'⟩ := w.written s done
  rw [after, after', result _ ((w.ok_iff s).mp done).2]
  exact alike_written s (.refl _) e e'

end Writes

theorem recordPhase_fails {p : Phase} {start stop l1 : Value} {f : Fault}
    (refused : recordArguments (.recordPhase p) start stop l1 = .error f) (s : Store) :
    (s.recordPhase p start stop l1).1 ≠ .ok () := fun done => by
  obtain ⟨first, last, block, checks⟩ := recordPhase_checks done
  rw [refused] at checks
  cases checks

theorem ingest_fails {ws : List StoredWithdrawal}
    (unfit : ¬ ∀ w ∈ ws, w.event.blockNumber.toNat ≤ storableMaximum) (s : Store) : (s.ingest ws).1 ≠ .ok () :=
  fun done => unfit (ingest_checks done)

theorem finalize_fails {keys : List (Value × Value)} {f : Fault} (refused : finalizeKeys keys = .error f)
    (s : Store) : (s.finalize keys).1 ≠ .ok () := fun done => by
  obtain ⟨ks, named⟩ := finalize_checks done
  rw [refused] at named
  cases named

theorem finalizeKeys_append (keys keys' : List (Value × Value)) :
    finalizeKeys (keys ++ keys') = (do let ks ← finalizeKeys keys; let ks' ← finalizeKeys keys'; pure (ks ++ ks')) := by
  unfold finalizeKeys
  rw [List.mapM_append]

/-- A call over two lists touches a closed connection exactly when a call over either list does. -/
theorem allowed_append {α : Type} (l l' : List α) (closed : Bool) :
    (l = [] ∨ closed = false) ∧ (l' = [] ∨ closed = false) ↔ l ++ l' = [] ∨ closed = false := by
  cases closed <;> simp

theorem recordPhase_commutes {p q : Phase} {start stop l1 start' stop' l1' : Value}
    {first last block first' last' block' : Word .w64}
    (checks : recordArguments (.recordPhase p) start stop l1 = .ok (first, last, block))
    (checks' : recordArguments (.recordPhase q) start' stop' l1' = .ok (first', last', block'))
    (independent : (⟨p, first, last, block⟩ : PhaseRecord).Independent ⟨q, first', last', block'⟩) (s : Store) :
    Commutes (·.recordPhase p start stop l1) (·.recordPhase q start' stop' l1') s :=
  (writes_recordPhase checks).commutes (writes_recordPhase checks') (PhaseRecord.batches_commute independent) s

theorem recordPhase_ingest_commutes (p : Phase) (start stop l1 : Value) (ws : List StoredWithdrawal) (s : Store) :
    Commutes (·.recordPhase p start stop l1) (·.ingest ws) s := by
  rcases checks : recordArguments (.recordPhase p) start stop l1 with f | ⟨first, last, block⟩
  · exact commutes_of_fails_left (recordPhase_fails checks) s
  by_cases fits : ∀ w ∈ ws, w.event.blockNumber.toNat ≤ storableMaximum
  · exact (writes_recordPhase checks).commutes (writes_ingest fits) (PhaseRecord.ingest_batches_commute _ ws) s
  · exact commutes_of_fails_right (ingest_fails fits) s

theorem recordPhase_finalize_commutes (p : Phase) (start stop l1 : Value) (keys : List (Value × Value))
    (s : Store) : Commutes (·.recordPhase p start stop l1) (·.finalize keys) s := by
  rcases checks : recordArguments (.recordPhase p) start stop l1 with f | ⟨first, last, block⟩
  · exact commutes_of_fails_left (recordPhase_fails checks) s
  rcases named : finalizeKeys keys with f | ks
  · exact commutes_of_fails_right (finalize_fails named) s
  · exact (writes_recordPhase checks).commutes (writes_finalize named) (PhaseRecord.finalize_batches_commute _ ks) s

theorem finalize_commutes (keys keys' : List (Value × Value)) (s : Store) :
    Commutes (·.finalize keys) (·.finalize keys') s := by
  rcases named : finalizeKeys keys with f | ks
  · exact commutes_of_fails_left (finalize_fails named) s
  rcases named' : finalizeKeys keys' with f | ks'
  · exact commutes_of_fails_right (finalize_fails named') s
  · exact (writes_finalize named).commutes (writes_finalize named') (Tables.finalize_batches_commute ks ks') s

theorem finalize_merges (keys keys' : List (Value × Value)) (s : Store) :
    Merges (·.finalize keys) (·.finalize keys') (·.finalize (keys ++ keys')) s := by
  rcases named : finalizeKeys keys with f | ks
  · have refused : finalizeKeys (keys ++ keys') = .error f := by
      rw [finalizeKeys_append, named]
      rfl
    exact merges_of_fails (finalize_fails refused) (.inl (finalize_fails named)) s
  rcases named' : finalizeKeys keys' with f | ks'
  · have refused : finalizeKeys (keys ++ keys') = .error f := by
      rw [finalizeKeys_append, named, named']
      rfl
    exact merges_of_fails (finalize_fails refused) (.inr (finalize_fails named')) s
  have joined : finalizeKeys (keys ++ keys') = .ok (ks ++ ks') := by
    rw [finalizeKeys_append, named, named']
    rfl
  exact (writes_finalize named).merges (writes_finalize named') (writes_finalize joined) (allowed_append keys keys')
    (Tables.executeMany_append_completes _ ks ks') (Tables.executeMany_append_result _ ks ks') s

theorem ingest_merges {ws ws' : List StoredWithdrawal}
    (fits : ∀ w ∈ ws ++ ws', w.event.blockNumber.toNat ≤ storableMaximum) (s : Store) :
    Merges (·.ingest ws) (·.ingest ws') (·.ingest (ws ++ ws')) s :=
  (writes_ingest fun w member => fits w (List.mem_append_left ws' member)).merges
    (writes_ingest fun w member => fits w (List.mem_append_right ws member)) (writes_ingest fits)
    (allowed_append ws ws') (Tables.executeMany_append_completes _ ws ws') (Tables.executeMany_append_result _ ws ws') s

theorem ingest_commutes {ws ws' : List StoredWithdrawal} (distinct : ∀ w ∈ ws, ∀ w' ∈ ws', w.key ≠ w'.key)
    (s : Store) : Commutes (·.ingest ws) (·.ingest ws') s := by
  by_cases fits : ∀ w ∈ ws, w.event.blockNumber.toNat ≤ storableMaximum
  · by_cases fits' : ∀ w ∈ ws', w.event.blockNumber.toNat ≤ storableMaximum
    · exact (writes_ingest fits).commutes (writes_ingest fits') (Tables.ingest_batches_commute distinct) s
    · exact commutes_of_fails_right (ingest_fails fits') s
  · exact commutes_of_fails_left (ingest_fails fits) s

/-- Writes that succeed give alike stores in either order: phase records of other phases, disjoint
ranges or one L1 block, finalizes, ingests of no common key, and a phase record with either of the
others; two finalizes, or two ingests, also do what one call with both lists does. -/
theorem writes_commute (s : Store) :
    (∀ (p q : Phase) (start stop l1 start' stop' l1' : Value) (first last block first' last' block' : Word .w64),
      recordArguments (.recordPhase p) start stop l1 = .ok (first, last, block) →
      recordArguments (.recordPhase q) start' stop' l1' = .ok (first', last', block') →
      p ≠ q ∨ last.toNat < first'.toNat ∨ last'.toNat < first.toNat ∨ block = block' →
      Commutes (·.recordPhase p start stop l1) (·.recordPhase q start' stop' l1') s) ∧
    (∀ keys keys' : List (Value × Value), Commutes (·.finalize keys) (·.finalize keys') s ∧
      Merges (·.finalize keys) (·.finalize keys') (·.finalize (keys ++ keys')) s) ∧
    (∀ ws ws' : List StoredWithdrawal, (∀ w ∈ ws ++ ws', w.event.blockNumber.toNat ≤ storableMaximum) →
      Merges (·.ingest ws) (·.ingest ws') (·.ingest (ws ++ ws')) s) ∧
    (∀ ws ws' : List StoredWithdrawal, (∀ w ∈ ws, ∀ w' ∈ ws', w.key ≠ w'.key) →
      Commutes (·.ingest ws) (·.ingest ws') s) ∧
    ∀ (p : Phase) (start stop l1 : Value),
      (∀ ws, Commutes (·.recordPhase p start stop l1) (·.ingest ws) s) ∧
        ∀ keys, Commutes (·.recordPhase p start stop l1) (·.finalize keys) s :=
  ⟨fun _ _ _ _ _ _ _ _ _ _ _ _ _ _ checks checks' independent => recordPhase_commutes checks checks' independent s,
    fun keys keys' => ⟨finalize_commutes keys keys' s, finalize_merges keys keys' s⟩,
    fun _ _ fits => ingest_merges fits s,
    fun _ _ distinct => ingest_commutes distinct s,
    fun p start stop l1 => ⟨fun ws => recordPhase_ingest_commutes p start stop l1 ws s,
      fun keys => recordPhase_finalize_commutes p start stop l1 keys s⟩⟩

theorem writes_commute_disjoint_ranges :
    Commutes (·.recordPhase .commit (.int 1) (.int 3) (.int 7)) (·.recordPhase .commit (.int 5) (.int 8) (.int 9))
      ⟨Settings.default, Connection.fresh⟩ :=
  (writes_commute _).1 .commit .commit (.int 1) (.int 3) (.int 7) (.int 5) (.int 8) (.int 9)
    ⟨1, by decide⟩ ⟨3, by decide⟩ ⟨7, by decide⟩ ⟨5, by decide⟩ ⟨8, by decide⟩ ⟨9, by decide⟩ rfl rfl
    (.inr (.inl (by decide)))

end Store

end BridgeLedger
