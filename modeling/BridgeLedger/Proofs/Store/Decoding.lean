import BridgeLedger.Proofs.Store.Arguments

namespace BridgeLedger

namespace Cell

/-- A cell that reads as a word of a width: an integer from zero to below `2 ^ bits`. -/
def HoldsWord (w : Width) (c : Cell) : Prop := ∃ n : Nat, n < 2 ^ w.bits ∧ c = .integer n

/-- A cell that reads as a byte string of `n` bytes: a blob of exactly that many. -/
def HoldsBytes (n : Nat) (c : Cell) : Prop := ∃ b : List UInt8, b.length = n ∧ c = .blob b

/-- A cell that reads as an L1 block or none: null, or a 64-bit word. -/
def HoldsBlock (c : Cell) : Prop := c = .null ∨ c.HoldsWord .w64

theorem toValue_eq_int_iff {c : Cell} {n : Int} : c.toValue = .int n ↔ c = .integer n := by
  cases c <;> simp [toValue]

theorem toValue_eq_bytes_iff {c : Cell} {b : List UInt8} : c.toValue = .bytes b ↔ c = .blob b := by
  cases c <;> simp [toValue]

theorem loadWord_eq_ok_iff {w : Width} {column : String} {c : Cell} {x : Word w} :
    c.loadWord w column = .ok x ↔ c = .integer x.toNat := by
  unfold loadWord
  rw [← toValue_eq_int_iff, ← Word.ofValue_eq_ok_iff]
  split
  · rename_i y read
    rw [read, Except.ok.injEq, Except.ok.injEq]
  · rename_i e read
    rw [read]
    exact ⟨fun failed => (by cases failed), fun failed => (by cases failed)⟩

theorem exists_loadWord_iff {w : Width} (column : String) {c : Cell} :
    (∃ x, c.loadWord w column = .ok x) ↔ c.HoldsWord w := by
  simp only [loadWord_eq_ok_iff]
  constructor
  · rintro ⟨x, rfl⟩
    exact ⟨x.toNat, x.isLt, rfl⟩
  · rintro ⟨n, fits, rfl⟩
    exact ⟨⟨n, fits⟩, rfl⟩

theorem loadBytes_eq_ok_iff {n : Nat} {column : String} {c : Cell} {x : FixedBytes n} :
    c.loadBytes n column = .ok x ↔ c = .blob x.data := by
  unfold loadBytes
  rw [← toValue_eq_bytes_iff, ← FixedBytes.ofValue_eq_ok_iff]
  split
  · rename_i y read
    rw [read, Except.ok.injEq, Except.ok.injEq]
  · rename_i e read
    rw [read]
    exact ⟨fun failed => (by cases failed), fun failed => (by cases failed)⟩

theorem exists_loadBytes_iff {n : Nat} (column : String) {c : Cell} :
    (∃ x, c.loadBytes n column = .ok x) ↔ c.HoldsBytes n := by
  simp only [loadBytes_eq_ok_iff]
  constructor
  · rintro ⟨x, rfl⟩
    exact ⟨x.data, x.length_eq, rfl⟩
  · rintro ⟨b, sized, rfl⟩
    exact ⟨⟨b, sized⟩, rfl⟩

theorem exists_loadOptionalWord_iff (column : String) {c : Cell} :
    (∃ x, c.loadOptionalWord column = .ok x) ↔ c.HoldsBlock := by
  by_cases null : c = .null
  · subst null
    exact ⟨fun _ => .inl rfl, fun _ => ⟨none, rfl⟩⟩
  · have loaded : c.loadOptionalWord column = (c.loadWord .w64 column).map some := by
      unfold loadOptionalWord
      split
      · exact absurd rfl null
      · rfl
    rw [loaded, HoldsBlock, or_iff_right null, ← exists_loadWord_iff column]
    constructor
    · rintro ⟨x, mapped⟩
      cases found : c.loadWord .w64 column with
      | ok y => exact ⟨y, rfl⟩
      | error e =>
        rw [found] at mapped
        cases mapped
    · rintro ⟨x, found⟩
      rw [found]
      exact ⟨some x, rfl⟩

theorem loadAmount_eq_ok_iff {c : Cell} {a : Word .w256} :
    c.loadAmount = .ok a ↔ Amount.decodeValue c.toValue = .ok a := by
  unfold loadAmount Amount.decodeValue
  cases c with
  | text s =>
    simp only [toValue, Decimal.read]
    cases Decimal.ofString? s with
    | some d => exact Amount.mapError_eq_ok.symm
    | none => exact ⟨fun failed => (by cases failed), fun failed => (by cases failed)⟩
  | integer n => exact Amount.mapError_eq_ok.symm
  | real x => exact Amount.mapError_eq_ok.symm
  | null => exact ⟨fun failed => (by cases failed), fun failed => (by cases failed)⟩
  | blob b => exact ⟨fun failed => (by cases failed), fun failed => (by cases failed)⟩

end Cell

/-- The cells of a withdrawal row pass the checks that reading it back makes: a 32-byte hash, a
64-bit block, a 20-byte token, an amount that reads as one and a 32-bit position. The flag is read
by its truth and never refused. -/
structure WithdrawalRow.Readable (r : WithdrawalRow) : Prop where
  txHash : r.txHash.HoldsBytes 32
  block : r.block.HoldsWord .w64
  token : r.token.HoldsBytes 20
  amount : ∃ a, Amount.decodeValue r.amount.toValue = .ok a
  index : r.index.HoldsWord .w32

/-- The cells of a block row pass the checks that reading it back makes: a 64-bit block, and for
each phase null or a 64-bit L1 block. -/
structure BlockRow.Readable (r : BlockRow) : Prop where
  number : (Cell.integer r.number).HoldsWord .w64
  phase : ∀ p, (r.phase p).HoldsBlock

/-- A withdrawal row reads back exactly when its cells pass their checks. -/
theorem WithdrawalRow.exists_decode_iff {r : WithdrawalRow} : (∃ w, r.decode = .ok w) ↔ r.Readable := by
  constructor
  · rintro ⟨w, decoded⟩
    unfold decode at decoded
    obtain ⟨hash, atHash, decoded⟩ := bind_eq_ok.mp decoded
    obtain ⟨block, atBlock, decoded⟩ := bind_eq_ok.mp decoded
    obtain ⟨token, atToken, decoded⟩ := bind_eq_ok.mp decoded
    obtain ⟨amount, atAmount, decoded⟩ := bind_eq_ok.mp decoded
    obtain ⟨index, atIndex, -⟩ := bind_eq_ok.mp decoded
    exact ⟨(Cell.exists_loadBytes_iff _).mp ⟨hash, atHash⟩, (Cell.exists_loadWord_iff _).mp ⟨block, atBlock⟩,
      (Cell.exists_loadBytes_iff _).mp ⟨token, atToken⟩, ⟨amount, Cell.loadAmount_eq_ok_iff.mp atAmount⟩,
      (Cell.exists_loadWord_iff _).mp ⟨index, atIndex⟩⟩
  · rintro ⟨txHash, block, token, ⟨amount, atAmount⟩, index⟩
    obtain ⟨hash, atHash⟩ := (Cell.exists_loadBytes_iff "tx_hash").mpr txHash
    obtain ⟨number, atBlock⟩ := (Cell.exists_loadWord_iff "l2_block_number").mpr block
    obtain ⟨address, atToken⟩ := (Cell.exists_loadBytes_iff "token").mpr token
    obtain ⟨position, atIndex⟩ := (Cell.exists_loadWord_iff "event_index_in_tx").mpr index
    refine ⟨⟨⟨hash, number, address, amount⟩, position, r.finalized.toValue.truthy⟩, ?_⟩
    unfold decode
    rw [atHash, atBlock, atToken, Cell.loadAmount_eq_ok_iff.mpr atAmount, atIndex]
    rfl

/-- A block row reads back exactly when its cells pass their checks. -/
theorem BlockRow.exists_decode_iff {r : BlockRow} : (∃ l, r.decode = .ok l) ↔ r.Readable := by
  constructor
  · rintro ⟨l, decoded⟩
    unfold decode at decoded
    obtain ⟨block, atBlock, decoded⟩ := bind_eq_ok.mp decoded
    obtain ⟨commit, atCommit, decoded⟩ := bind_eq_ok.mp decoded
    obtain ⟨verify, atVerify, decoded⟩ := bind_eq_ok.mp decoded
    obtain ⟨execute, atExecute, -⟩ := bind_eq_ok.mp decoded
    refine ⟨(Cell.exists_loadWord_iff _).mp ⟨block, atBlock⟩, fun p => ?_⟩
    cases p with
    | commit => exact (Cell.exists_loadOptionalWord_iff _).mp ⟨commit, atCommit⟩
    | verify => exact (Cell.exists_loadOptionalWord_iff _).mp ⟨verify, atVerify⟩
    | execute => exact (Cell.exists_loadOptionalWord_iff _).mp ⟨execute, atExecute⟩
  · rintro ⟨number, phase⟩
    obtain ⟨block, atBlock⟩ := (Cell.exists_loadWord_iff "l2_block_number").mpr number
    obtain ⟨commit, atCommit⟩ : ∃ x, r.commit.loadOptionalWord (Phase.column .commit) = .ok x :=
      (Cell.exists_loadOptionalWord_iff _).mpr (phase .commit)
    obtain ⟨verify, atVerify⟩ : ∃ x, r.verify.loadOptionalWord (Phase.column .verify) = .ok x :=
      (Cell.exists_loadOptionalWord_iff _).mpr (phase .verify)
    obtain ⟨execute, atExecute⟩ : ∃ x, r.execute.loadOptionalWord (Phase.column .execute) = .ok x :=
      (Cell.exists_loadOptionalWord_iff _).mpr (phase .execute)
    refine ⟨⟨block, commit, verify, execute⟩, ?_⟩
    unfold decode
    rw [atBlock, atCommit, atVerify, atExecute]
    rfl

theorem Except.exists_map_ok {ε α β : Type} {f : α → β} {x : Except ε α} :
    (∃ b, x.map f = .ok b) ↔ ∃ a, x = .ok a := by
  cases x with
  | ok a => exact ⟨fun _ => ⟨a, rfl⟩, fun _ => ⟨f a, rfl⟩⟩
  | error e => exact ⟨fun ⟨_, mapped⟩ => (by cases mapped), fun ⟨_, failed⟩ => (by cases failed)⟩

namespace Store

/-- A read answers or fails with a conversion error, and it fails exactly when `bad` holds. -/
structure AnswersUnless {α : Type} (bad : Prop) (result : Except Fault α) : Prop where
  outcome : (∃ a, result = .ok a) ∨ ∃ e, result = .error (.conversion e)
  fails_iff : (∃ e, result = .error (.conversion e)) ↔ bad

theorem answersUnless_converted {β : Type} {x : Except ConversionError β} {bad : Prop}
    (passes : (∃ b, x = .ok b) ↔ ¬bad) : AnswersUnless bad (converted x) := by
  cases x with
  | ok b =>
    refine ⟨.inl ⟨b, rfl⟩, ⟨fun ⟨e, failed⟩ => (by cases failed), fun holds => ?_⟩⟩
    exact absurd holds (passes.mp ⟨b, rfl⟩)
  | error e =>
    refine ⟨.inr ⟨e, rfl⟩, ⟨fun _ => Classical.byContradiction fun fine => ?_, fun _ => ⟨e, rfl⟩⟩⟩
    obtain ⟨b, failed⟩ := passes.mpr fine
    cases failed

theorem answersUnless_none {ρ β : Type} {Bad : ρ → Prop} :
    AnswersUnless (∃ r, (none : Option ρ) = some r ∧ Bad r) (pure none : Except Fault (Option β)) :=
  ⟨.inl ⟨none, rfl⟩, ⟨fun ⟨_, failed⟩ => (by cases failed), fun ⟨_, found, _⟩ => (by cases found)⟩⟩

/-- A read of the row a lookup finds fails exactly when the row fails the check that reading it
back makes. -/
theorem answersUnless_some {ρ β : Type} {Good : ρ → Prop} {r : ρ} {x : Except ConversionError β}
    (passes : (∃ b, x = .ok b) ↔ Good r) :
    AnswersUnless (∃ r', some r = some r' ∧ ¬Good r') (converted x) := by
  have found : (∃ r', some r = some r' ∧ ¬Good r') ↔ ¬Good r :=
    ⟨fun ⟨_, same, bad⟩ => Option.some_inj.mp same ▸ bad, fun bad => ⟨r, rfl, bad⟩⟩
  rw [found]
  exact answersUnless_converted (passes.trans Classical.not_not.symm)

section Reads

variable {s : Store} (connected : s.connection.closed = false)

include connected

theorem getWithdrawal_answersUnless (h : TxHash) (i : Word .w32) :
    AnswersUnless (∃ r, s.connection.tables.withdrawal? (h, i) = some r ∧ ¬r.Readable)
      (s.getWithdrawal (.bytes h.data) (.int i.toNat)).1 := by
  unfold getWithdrawal
  simp only [keyArgument_key, checked]
  rw [read_answer connected rfl]
  cases s.connection.tables.withdrawal? (h, i) with
  | none => exact answersUnless_none
  | some r => exact answersUnless_some (Except.exists_map_ok.trans WithdrawalRow.exists_decode_iff)

theorem pending_answersUnless {limit : Option Operand} {L : Nat} (limited : s.pendingLimit limit = .ok L)
    (bounded : L ≤ storableMaximum) :
    AnswersUnless (∃ r ∈ s.connection.tables.pendingRows L, ¬r.Readable) (s.pending limit).1 := by
  unfold pending
  rw [limited]
  simp only [checked]
  rw [read_answer connected (decide_eq_true bounded)]
  refine answersUnless_converted (mapM_isOk_iff.trans ?_)
  simp only [WithdrawalRow.exists_decode_iff, not_exists, not_and, Classical.not_not]

theorem lifecycle_answersUnless (n : Word .w64) (fits : n.toNat ≤ storableMaximum) :
    AnswersUnless (∃ r, s.connection.tables.block? n.toNat = some r ∧ ¬r.Readable)
      (s.lifecycle (.int n.toNat)).1 := by
  unfold lifecycle
  simp only [wordArgument_int, checked]
  rw [read_answer connected (decide_eq_true fits)]
  cases s.connection.tables.block? n.toNat with
  | none => exact answersUnless_none
  | some r => exact answersUnless_some (Except.exists_map_ok.trans BlockRow.exists_decode_iff)

theorem phaseL1Block_answersUnless (p : Phase) (h : TxHash) (index : Option (Word .w32)) :
    AnswersUnless
      (∃ c, s.connection.tables.phaseCell? p (.blob h.data) (index.map fun i => .integer i.toNat) = some c ∧
        ¬c.HoldsBlock)
      (s.phaseL1Block p (.bytes h.data) (index.map fun i => .int i.toNat)).1 := by
  rw [phaseL1Block_checked, read_answer connected rfl]
  cases s.connection.tables.phaseCell? p (.blob h.data) (index.map fun i => .integer i.toNat) with
  | none => exact answersUnless_none
  | some c => exact answersUnless_some (Cell.exists_loadOptionalWord_iff p.column)

/-- A read of one watermark cell fails exactly when the cell is neither null nor a 64-bit word. -/
theorem watermark_answersUnless {op : Operation} {st : Statement} (cell : Tables → Cell) (column : String) :
    AnswersUnless (¬(cell s.connection.tables).HoldsBlock)
      (s.read op st true fun t => converted ((cell t).loadOptionalWord column)).1 := by
  rw [read_answer connected rfl]
  exact answersUnless_converted ((Cell.exists_loadOptionalWord_iff column).trans Classical.not_not.symm)

theorem highestObserved_answersUnless :
    AnswersUnless (¬s.connection.tables.highestObserved.HoldsBlock) s.highestObserved.1 :=
  watermark_answersUnless connected Tables.highestObserved "l2_block_number"

theorem highestCommitted_answersUnless :
    AnswersUnless (¬s.connection.tables.highestCommitted.HoldsBlock) s.highestCommitted.1 :=
  watermark_answersUnless connected Tables.highestCommitted (Phase.column .commit)

end Reads

/-- On an open store, whatever its cells, every read whose arguments pass their checks answers or
fails with a conversion error, and it fails exactly when a cell it reads back (of a row it finds,
the phase cell looked up or a watermark) fails the check of its column. -/
theorem reads_fail_exactly_on_unreadable_cells {s : Store} (connected : s.connection.closed = false) :
    (∀ (h : TxHash) (i : Word .w32), AnswersUnless (∃ r, s.connection.tables.withdrawal? (h, i) = some r ∧ ¬r.Readable)
        (s.getWithdrawal (.bytes h.data) (.int i.toNat)).1) ∧
    (∀ limit L, s.pendingLimit limit = .ok L → L ≤ storableMaximum →
      AnswersUnless (∃ r ∈ s.connection.tables.pendingRows L, ¬r.Readable) (s.pending limit).1) ∧
    (∀ n : Word .w64, n.toNat ≤ storableMaximum →
      AnswersUnless (∃ r, s.connection.tables.block? n.toNat = some r ∧ ¬r.Readable)
        (s.lifecycle (.int n.toNat)).1) ∧
    (∀ p (h : TxHash) (index : Option (Word .w32)), AnswersUnless
      (∃ c, s.connection.tables.phaseCell? p (.blob h.data) (index.map fun i => .integer i.toNat) = some c ∧
        ¬c.HoldsBlock)
      (s.phaseL1Block p (.bytes h.data) (index.map fun i => .int i.toNat)).1) ∧
    AnswersUnless (¬s.connection.tables.highestObserved.HoldsBlock) s.highestObserved.1 ∧
    AnswersUnless (¬s.connection.tables.highestCommitted.HoldsBlock) s.highestCommitted.1 :=
  ⟨getWithdrawal_answersUnless connected, fun _ _ => pending_answersUnless connected,
    lifecycle_answersUnless connected, phaseL1Block_answersUnless connected,
    highestObserved_answersUnless connected, highestCommitted_answersUnless connected⟩

/-- A block row whose commit cell holds a negative number fails the read of its lifecycle. -/
theorem reads_fail_exactly_on_unreadable_cells_negative_commit :
    ∃ e, (Store.lifecycle ⟨Settings.default,
      { Connection.fresh with committed := ⟨[⟨5, .integer (-1), .null, .null⟩], [], []⟩ }⟩ (.int 5)).1 =
        .error (.conversion e) := by
  refine ((reads_fail_exactly_on_unreadable_cells rfl).2.2.1 ⟨5, by decide⟩ (by decide)).fails_iff.mpr
    ⟨_, rfl, ?_⟩
  rintro ⟨-, phase⟩
  rcases phase .commit with null | ⟨n, -, negative⟩
  · cases null
  · have same := Cell.integer.inj negative
    omega

end Store

end BridgeLedger
