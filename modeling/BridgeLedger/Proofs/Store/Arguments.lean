import BridgeLedger.Proofs.Store.Reads

namespace BridgeLedger

namespace Value

/-- An integer from zero to `bound`; a truth value is not one. -/
def IsIntUpTo (v : Value) (bound : Nat) : Prop := ∃ n : Nat, v = .int n ∧ n ≤ bound

/-- A byte string of exactly `n` bytes. -/
def IsBytesOf (v : Value) (n : Nat) : Prop := ∃ b : List UInt8, v = .bytes b ∧ b.length = n

theorem isIntUpTo_int {n bound : Nat} : (Value.int n).IsIntUpTo bound ↔ n ≤ bound := by
  constructor
  · rintro ⟨m, same, fits⟩
    have atM := Value.int.inj same
    omega
  · intro fits
    exact ⟨n, rfl, fits⟩

end Value

namespace Fault

/-- The failure names the first of a list of checked arguments, each a name and whether its value
is of its type, that is not of its type; once every argument is, it may be any failure. -/
def NamesFirstBad (op : Operation) : List (String × Prop) → Fault → Prop
  | [], _ => True
  | (name, good) :: rest, f => (¬good → f.NamesArgument op name) ∧ (good → f.NamesFirstBad op rest)

theorem namesFirstBad_of_good {op : Operation} {f : Fault} :
    ∀ {checks : List (String × Prop)}, (∀ c ∈ checks, c.2) → f.NamesFirstBad op checks
  | [], _ => trivial
  | (_, _) :: _, good =>
    ⟨fun bad => absurd (good _ List.mem_cons_self) bad,
      fun _ => namesFirstBad_of_good fun c member => good c (List.mem_cons_of_mem _ member)⟩

end Fault

theorem Except.no_ok_of_error {ε α : Type} {x : Except ε α} {e : ε} (failed : x = .error e) :
    ¬∃ a, x = .ok a := by
  rintro ⟨a, done⟩
  rw [failed] at done
  cases done

/-- Checks of named arguments run in order: a failure of the first names it, and once it passes,
a failure of the rest names what the rest names. -/
theorem failsWith_namesFirstBad_cons {α β : Type} {op : Operation} {name : String} {good : Prop}
    {rest : List (String × Prop)} {x : Except Fault α} {k : α → Except Fault β}
    (named : FailsWith (Fault.NamesArgument op name) x) (passes : (∃ a, x = .ok a) ↔ good)
    (later : ∀ a, x = .ok a → FailsWith (Fault.NamesFirstBad op rest) (k a)) :
    FailsWith (Fault.NamesFirstBad op ((name, good) :: rest)) (x >>= k) := by
  intro f failed
  cases x with
  | error e =>
    cases failed
    exact ⟨fun _ => named f rfl, fun holds => absurd (passes.mpr holds) (Except.no_ok_of_error rfl)⟩
  | ok a => exact ⟨fun bad => absurd (passes.mp ⟨a, rfl⟩) bad, fun _ => later a rfl f failed⟩

theorem Engine.failure_fetch {e : Engine} (quiet : e.failure = none) (st : Statement) :
    (e.fetch st).failure = none := by
  unfold Engine.fetch
  split
  · exact quiet
  · rfl

namespace Word

theorem ofValue_eq_ok_iff {w : Width} {v : Value} {x : Word w} : ofValue w v = .ok x ↔ v = .int x.toNat := by
  cases v with
  | int n =>
    rw [ofValue, ofInt_eq_ok_iff, Value.int.injEq]
    omega
  | _ => simp [ofValue]

/-- The values that are some word of a width are the integers that the width holds. -/
theorem exists_int_iff {w : Width} {v : Value} :
    (∃ x : Word w, v = .int x.toNat) ↔ v.IsIntUpTo (2 ^ w.bits - 1) := by
  constructor
  · rintro ⟨x, rfl⟩
    have below := x.isLt
    exact ⟨x.toNat, rfl, by omega⟩
  · rintro ⟨n, rfl, fits⟩
    have positive : 0 < 2 ^ w.bits := Nat.two_pow_pos w.bits
    exact ⟨⟨n, by omega⟩, rfl⟩

end Word

namespace FixedBytes

theorem ofValue_eq_ok_iff {n : Nat} {v : Value} {x : FixedBytes n} : ofValue n v = .ok x ↔ v = .bytes x.data := by
  cases v with
  | bytes b =>
    by_cases sized : b.length = n
    · rw [ofValue, dif_pos sized, Except.ok.injEq, Value.bytes.injEq, FixedBytes.ext_iff]
    · rw [ofValue, dif_neg sized]
      refine ⟨fun failed => (by cases failed), fun same => absurd ?_ sized⟩
      rw [Value.bytes.inj same]
      exact x.length_eq
  | _ => simp [ofValue]

/-- The values that are some byte string of a length are the byte strings of that length. -/
theorem exists_data_iff {n : Nat} {v : Value} : (∃ x : FixedBytes n, v = .bytes x.data) ↔ v.IsBytesOf n := by
  constructor
  · rintro ⟨x, rfl⟩
    exact ⟨x.data, rfl, x.length_eq⟩
  · rintro ⟨b, rfl, sized⟩
    exact ⟨⟨b, sized⟩, rfl⟩

end FixedBytes

namespace Store

section Checks

variable {op : Operation} {name : String}

theorem wordArgument_eq_ok_iff {w : Width} {v : Value} {x : Word w} :
    wordArgument op name w v = .ok x ↔ v = .int x.toNat := by
  rw [← Word.ofValue_eq_ok_iff]
  cases converted : Word.ofValue w v with
  | ok y => simp only [wordArgument, converted, Except.ok.injEq]
  | error e => simp only [wordArgument, converted, reduceCtorEq]

theorem exists_wordArgument_iff {w : Width} {v : Value} :
    (∃ x, wordArgument op name w v = .ok x) ↔ v.IsIntUpTo (2 ^ w.bits - 1) := by
  simp only [wordArgument_eq_ok_iff]
  exact Word.exists_int_iff

theorem bytesArgument_eq_ok_iff {n : Nat} {v : Value} {x : FixedBytes n} :
    bytesArgument op name n v = .ok x ↔ v = .bytes x.data := by
  rw [← FixedBytes.ofValue_eq_ok_iff]
  cases converted : FixedBytes.ofValue n v with
  | ok y => simp only [bytesArgument, converted, Except.ok.injEq]
  | error e => simp only [bytesArgument, converted, reduceCtorEq]

theorem exists_bytesArgument_iff {n : Nat} {v : Value} :
    (∃ x, bytesArgument op name n v = .ok x) ↔ v.IsBytesOf n := by
  simp only [bytesArgument_eq_ok_iff]
  exact FixedBytes.exists_data_iff

theorem storable_of_fits {x : Word .w64} (fits : x.toNat ≤ storableMaximum) : storable op name x = .ok () := by
  rw [storable, if_pos fits]

end Checks

section Keys

variable {op : Operation} {hash index : Value}

theorem keyArgument_eq_ok_iff {k : WithdrawalKey} :
    keyArgument op hash index = .ok k ↔ hash = .bytes k.1.data ∧ index = .int k.2.toNat := by
  obtain ⟨h, i⟩ := k
  constructor
  · intro checked
    obtain ⟨h', hashChecks, checked⟩ := bind_eq_ok.mp checked
    obtain ⟨i', indexChecks, checked⟩ := bind_eq_ok.mp checked
    cases checked
    exact ⟨bytesArgument_eq_ok_iff.mp hashChecks, wordArgument_eq_ok_iff.mp indexChecks⟩
  · rintro ⟨rfl, rfl⟩
    exact keyArgument_key op h i

/-- A key passes its check exactly when its hash is 32 bytes and its position a 32-bit word. -/
theorem exists_keyArgument_iff :
    (∃ k, keyArgument op hash index = .ok k) ↔ hash.IsBytesOf 32 ∧ index.IsIntUpTo (2 ^ (32 : Nat) - 1) := by
  constructor
  · rintro ⟨⟨h, i⟩, checked⟩
    obtain ⟨atHash, atIndex⟩ := keyArgument_eq_ok_iff.mp checked
    exact ⟨FixedBytes.exists_data_iff.mp ⟨h, atHash⟩, Word.exists_int_iff.mp ⟨i, atIndex⟩⟩
  · rintro ⟨hashIs, indexIs⟩
    obtain ⟨h, atHash⟩ := FixedBytes.exists_data_iff.mpr hashIs
    obtain ⟨i, atIndex⟩ := (Word.exists_int_iff (w := .w32)).mpr indexIs
    exact ⟨(h, i), keyArgument_eq_ok_iff.mpr ⟨atHash, atIndex⟩⟩

/-- A key's hash is checked before its position. -/
theorem keyArgument_names :
    FailsWith (Fault.NamesFirstBad op [("tx_hash", hash.IsBytesOf 32), ("index_in_tx", index.IsIntUpTo (2 ^ (32 : Nat) - 1))])
      (keyArgument op hash index) := by
  unfold keyArgument
  refine failsWith_namesFirstBad_cons (bytesArgument_names 32 hash) exists_bytesArgument_iff fun _ _ => ?_
  refine failsWith_namesFirstBad_cons (wordArgument_names .w32 index) exists_wordArgument_iff fun _ _ => ?_
  exact fun _ _ => trivial

end Keys

section Records

variable {op : Operation} {start stop l1 : Value}

theorem recordArguments_values {first last block : Word .w64}
    (checked : recordArguments op start stop l1 = .ok (first, last, block)) :
    start = .int first.toNat ∧ stop = .int last.toNat ∧ l1 = .int block.toNat := by
  unfold recordArguments at checked
  obtain ⟨a, startChecks, checked⟩ := bind_eq_ok.mp checked
  obtain ⟨b, stopChecks, checked⟩ := bind_eq_ok.mp checked
  obtain ⟨c, l1Checks, checked⟩ := bind_eq_ok.mp checked
  dsimp only at checked
  split at checked
  · obtain ⟨_, thrown, -⟩ := bind_eq_ok.mp checked
    cases thrown
  · obtain ⟨_, -, checked⟩ := bind_eq_ok.mp checked
    obtain ⟨_, -, checked⟩ := bind_eq_ok.mp checked
    cases checked
    exact ⟨wordArgument_eq_ok_iff.mp startChecks, wordArgument_eq_ok_iff.mp stopChecks,
      wordArgument_eq_ok_iff.mp l1Checks⟩

theorem recordArguments_words {first last block : Word .w64} (ordered : first.toNat ≤ last.toNat)
    (lastFits : last.toNat ≤ storableMaximum) (blockFits : block.toNat ≤ storableMaximum) :
    recordArguments op (.int first.toNat) (.int last.toNat) (.int block.toNat) = .ok (first, last, block) := by
  have inOrder : ¬last.toNat < first.toNat := by omega
  unfold recordArguments
  refine bind_eq_ok.mpr ⟨first, wordArgument_int op "start" first, ?_⟩
  refine bind_eq_ok.mpr ⟨last, wordArgument_int op "end" last, ?_⟩
  refine bind_eq_ok.mpr ⟨block, wordArgument_int op "l1_block_number" block, ?_⟩
  dsimp only
  rw [if_neg inOrder]
  refine bind_eq_ok.mpr ⟨(), storable_of_fits lastFits, ?_⟩
  exact bind_eq_ok.mpr ⟨(), storable_of_fits blockFits, rfl⟩

/-- The arguments of a phase record pass their checks exactly when they are integers, the first
no later than the last and the last and the L1 block ones that a cell holds. -/
theorem exists_recordArguments_iff :
    (∃ r, recordArguments op start stop l1 = .ok r) ↔
      ∃ a b c : Nat, start = .int a ∧ stop = .int b ∧ l1 = .int c ∧ a ≤ b ∧ b ≤ storableMaximum ∧
        c ≤ storableMaximum := by
  constructor
  · rintro ⟨⟨first, last, block⟩, checked⟩
    obtain ⟨atStart, atStop, atL1⟩ := recordArguments_values checked
    obtain ⟨ordered, lastFits, blockFits⟩ := recordArguments_ok checked
    exact ⟨_, _, _, atStart, atStop, atL1, ordered, lastFits, blockFits⟩
  · rintro ⟨a, b, c, rfl, rfl, rfl, ordered, lastFits, blockFits⟩
    -- every number here is at most the cell maximum, so a 64-bit word holds it
    have wide : storableMaximum < 2 ^ Width.w64.bits := by decide
    obtain ⟨first, rfl⟩ : ∃ x : Word .w64, x.toNat = a := ⟨⟨a, by omega⟩, rfl⟩
    obtain ⟨last, rfl⟩ : ∃ x : Word .w64, x.toNat = b := ⟨⟨b, by omega⟩, rfl⟩
    obtain ⟨block, rfl⟩ : ∃ x : Word .w64, x.toNat = c := ⟨⟨c, by omega⟩, rfl⟩
    exact ⟨_, recordArguments_words ordered lastFits blockFits⟩

/-- The ways a phase record's arguments fail, as its checks list them, are the ways they can fail
to be integers in order that a cell holds. -/
theorem recordRefused_iff :
    (¬start.IsIntUpTo (2 ^ (64 : Nat) - 1) ∨ ¬stop.IsIntUpTo (2 ^ (64 : Nat) - 1) ∨ ¬l1.IsIntUpTo (2 ^ (64 : Nat) - 1) ∨
        (∃ a b : Nat, start = .int a ∧ stop = .int b ∧ b < a) ∨
        (∃ b : Nat, stop = .int b ∧ storableMaximum < b) ∨ (∃ c : Nat, l1 = .int c ∧ storableMaximum < c)) ↔
      ¬∃ a b c : Nat, start = .int a ∧ stop = .int b ∧ l1 = .int c ∧ a ≤ b ∧ b ≤ storableMaximum ∧
        c ≤ storableMaximum := by
  have wide : storableMaximum ≤ 2 ^ (64 : Nat) - 1 := by decide
  constructor
  · rintro refused ⟨a, b, c, rfl, rfl, rfl, ordered, lastFits, blockFits⟩
    simp only [Value.isIntUpTo_int, Value.int.injEq, Int.natCast_inj, exists_eq_left'] at refused
    omega
  · intro refused
    refine Classical.byContradiction fun passes => ?_
    simp only [not_or, Classical.not_not, not_exists, not_and, Nat.not_lt] at passes
    obtain ⟨⟨a, rfl, -⟩, ⟨b, rfl, -⟩, ⟨c, rfl, -⟩, ordered, lastFits, blockFits⟩ := passes
    exact refused ⟨a, b, c, rfl, rfl, rfl, ordered a b rfl rfl, lastFits b rfl, blockFits c rfl⟩

/-- The first three checks of a phase record take its numbers in order: start, end, then the L1
block. -/
theorem recordArguments_names :
    FailsWith (Fault.NamesFirstBad op [("start", start.IsIntUpTo (2 ^ (64 : Nat) - 1)),
        ("end", stop.IsIntUpTo (2 ^ (64 : Nat) - 1)), ("l1_block_number", l1.IsIntUpTo (2 ^ (64 : Nat) - 1))])
      (recordArguments op start stop l1) := by
  unfold recordArguments
  refine failsWith_namesFirstBad_cons (wordArgument_names .w64 start) exists_wordArgument_iff fun _ _ => ?_
  refine failsWith_namesFirstBad_cons (wordArgument_names .w64 stop) exists_wordArgument_iff fun _ _ => ?_
  refine failsWith_namesFirstBad_cons (wordArgument_names .w64 l1) exists_wordArgument_iff fun _ _ => ?_
  exact fun _ _ => trivial

end Records

theorem mapM_isOk_iff {ε α β : Type} {f : α → Except ε β} :
    ∀ {xs : List α}, (∃ ys, xs.mapM f = .ok ys) ↔ ∀ x ∈ xs, ∃ y, f x = .ok y
  | [] => ⟨fun _ _ absent => (by cases absent), fun _ => ⟨[], rfl⟩⟩
  | x :: rest => by
    rw [List.forall_mem_cons, ← mapM_isOk_iff, List.mapM_cons]
    constructor
    · rintro ⟨_, done⟩
      obtain ⟨y, first, done⟩ := bind_eq_ok.mp done
      obtain ⟨ys, later, -⟩ := bind_eq_ok.mp done
      exact ⟨⟨y, first⟩, ys, later⟩
    · rintro ⟨⟨y, first⟩, ys, later⟩
      exact ⟨y :: ys, by rw [first, later]; rfl⟩

/-- A list mapped in order fails with the failure of its first element that fails. -/
theorem mapM_first_error {α β : Type} {f : α → Except Fault β} {x : α} {e : Fault} (failed : f x = .error e) :
    ∀ {before : List α} (after : List α), (∀ y ∈ before, ∃ b, f y = .ok b) →
      (before ++ x :: after).mapM f = .error e
  | [], _, _ => by rw [List.nil_append, List.mapM_cons, failed]; rfl
  | y :: before, after, passed => by
    obtain ⟨b, first⟩ := passed y List.mem_cons_self
    rw [List.cons_append, List.mapM_cons, first,
      mapM_first_error failed after fun z member => passed z (List.mem_cons_of_mem y member)]
    rfl

/-- A lookup of a phase whose hash fails its check stops there. -/
theorem phaseL1Block_of_hash_error {s : Store} {p : Phase} {hash : Value} {index : Option Value} {f : Fault}
    (failed : bytesArgument (.phaseLookup p) "tx_hash" 32 hash = .error f) :
    s.phaseL1Block p hash index = (.error f, s) := by
  unfold phaseL1Block
  simp only [failed]
  rfl

/-- A lookup of a phase whose hash passes and whose position fails its check stops there. -/
theorem phaseL1Block_of_index_error {s : Store} {p : Phase} {h : TxHash} {v : Value} {f : Fault}
    (failed : wordArgument (.phaseLookup p) "index_in_tx" .w32 v = .error f) :
    s.phaseL1Block p (.bytes h.data) (some v) = (.error f, s) := by
  unfold phaseL1Block
  simp only [bytesArgument_bytes, failed]
  rfl

/-- A call refuses exactly on `bad`: it fails if and only if `bad` holds, only with a broken
constraint of `op`, and a failure leaves the store as it was but for the engine's record of its
statements. -/
structure Refuses {α : Type} (s : Store) (op : Operation) (bad : Prop) (call : Except Fault α × Store) : Prop where
  fails_iff : (∃ f, call.1 = .error f) ↔ bad
  breaks : ∀ f, call.1 = .error f → f.Breaks op
  unwritten : ∀ f, call.1 = .error f → ∃ e, call.2 = s.withEngine fun _ => e

namespace Refuses

variable {α : Type} {s : Store} {op : Operation} {bad : Prop} {call : Except Fault α × Store}

theorem of_error {f : Fault} (failed : call.1 = .error f) (breaks : f.Breaks op)
    (unwritten : ∃ e, call.2 = s.withEngine fun _ => e) (refused : bad) : s.Refuses op bad call where
  fails_iff := ⟨fun _ => refused, fun _ => ⟨f, failed⟩⟩
  breaks f' failed' := by
    rw [failed] at failed'
    cases failed'
    exact breaks
  unwritten _ _ := unwritten

/-- A call that a failed check stops leaves the store as it was. -/
theorem of_stopped {f : Fault} (stopped : call = (.error f, s)) (breaks : f.Breaks op) (refused : bad) :
    s.Refuses op bad call := by
  subst stopped
  exact of_error rfl breaks ⟨s.connection.engine, (withEngine_own s).symm⟩ refused

theorem of_checked {β : Type} {f : Fault} {k : β → Except Fault α × Store} (breaks : f.Breaks op)
    (refused : bad) : s.Refuses op bad (s.checked (.error f) k) :=
  of_stopped rfl breaks refused

theorem of_ok {a : α} (done : call.1 = .ok a) (passes : ¬bad) : s.Refuses op bad call where
  fails_iff := ⟨fun ⟨_, failed⟩ => (by rw [done] at failed; cases failed), fun refused => absurd refused passes⟩
  breaks _ failed := by
    rw [done] at failed
    cases failed
  unwritten _ failed := by
    rw [done] at failed
    cases failed

end Refuses

/-- A store whose engine fails no statement of a call: the connection is open, the engine keeps no
failure of an earlier statement, and no guard watches the tables calls see. -/
structure Healthy (s : Store) : Prop where
  connected : s.connection.closed = false
  quiet : s.connection.engine.failure = none
  unguarded : s.connection.tables.guards = []

/-- A read whose values do not fit their cells fails, on an open store whose engine keeps no
failure, with the value too wide for a cell. -/
theorem read_unfitting {α : Type} {s : Store} {op : Operation} {st : Statement} {fits : Bool}
    {answer : Tables → Except Fault α} (connected : s.connection.closed = false)
    (quiet : s.connection.engine.failure = none) (unfitting : fits = false) :
    (s.read op st fits answer).1 = .error (.constraint op .integerTooWide) := by
  have fetched := Engine.failure_fetch quiet st
  simp only [read, connected, unfitting, Bool.false_eq_true, if_false, withEngine,
    Engine.unbound, fetched]

/-- A word given as the limit fails its test against zero: the word refuses to order a plain
integer. -/
theorem pendingLimit_word (s : Store) {w : Width} (x : Word w) :
    s.pendingLimit (some (.word w x)) = .error (.refused (.unsupported "<=" w.name "int")) := rfl

/-- A limit that is no word fails its check only with a broken constraint. -/
theorem pendingLimit_breaks (s : Store) {limit : Option Operand} (plain : ∀ w x, limit ≠ some (.word w x)) :
    FailsWith (Fault.Breaks .pending) (s.pendingLimit limit) := by
  intro f failed
  unfold pendingLimit at failed
  split at failed
  · cases failed
  · split at failed
    · cases failed
    · cases failed
      exact ⟨_, rfl⟩
  · rename_i w x
    exact absurd rfl (plain w x)
  · cases failed
    exact ⟨_, rfl⟩

/-- A limit that passes its check is the positive integer given, or the settings' limit. -/
theorem pendingLimit_ok {s : Store} {limit : Option Operand} {L : Nat} (limited : s.pendingLimit limit = .ok L) :
    limit.getD (.plain (.int s.settings.pendingLimit)) = .plain (.int L) ∧ 1 ≤ L := by
  cases limit with
  | none =>
    cases limited
    exact ⟨rfl, s.settings.limit_pos⟩
  | some given =>
    cases given with
    | word w x =>
      rw [pendingLimit_word] at limited
      cases limited
    | plain v =>
      cases v with
      | int n =>
        rw [pendingLimit] at limited
        split at limited
        · cases limited
          rw [Option.getD_some, Int.toNat_of_nonneg (by omega)]
          exact ⟨rfl, by omega⟩
        · cases limited
      | _ => cases limited

/-- A scan whose limit passes its check but fits no cell fails, on an open store whose engine keeps
no failure, with the value too wide for a cell. -/
theorem pending_unfitting {s : Store} {limit : Option Operand} {L : Nat} (connected : s.connection.closed = false)
    (quiet : s.connection.engine.failure = none) (limited : s.pendingLimit limit = .ok L)
    (beyond : ¬L ≤ storableMaximum) :
    (s.pending limit).1 = .error (.constraint .pending .integerTooWide) := by
  rw [pending, limited]
  simp only [checked]
  exact read_unfitting connected quiet (decide_eq_false beyond)

theorem recordPhase_names (s : Store) (p : Phase) (start stop l1 : Value) :
    FailsWith (Fault.NamesFirstBad (.recordPhase p) [("start", start.IsIntUpTo (2 ^ (64 : Nat) - 1)),
        ("end", stop.IsIntUpTo (2 ^ (64 : Nat) - 1)), ("l1_block_number", l1.IsIntUpTo (2 ^ (64 : Nat) - 1))])
      (s.recordPhase p start stop l1).1 := by
  intro f failed
  cases checks : recordArguments (.recordPhase p) start stop l1 with
  | error f' =>
    rw [recordPhase, checks] at failed
    cases failed
    exact recordArguments_names f checks
  | ok r =>
    -- every number passed its type check, so no name is owed
    obtain ⟨first, last, block⟩ := r
    obtain ⟨atStart, atStop, atL1⟩ := recordArguments_values checks
    refine Fault.namesFirstBad_of_good fun c member => ?_
    simp only [List.mem_cons, List.not_mem_nil, or_false] at member
    rcases member with rfl | rfl | rfl
    · exact Word.exists_int_iff.mp ⟨first, atStart⟩
    · exact Word.exists_int_iff.mp ⟨last, atStop⟩
    · exact Word.exists_int_iff.mp ⟨block, atL1⟩

section Writes

variable {s : Store} (healthy : s.Healthy)

include healthy

theorem recordPhase_refuses (p : Phase) (start stop l1 : Value) :
    s.Refuses (.recordPhase p)
      (¬start.IsIntUpTo (2 ^ (64 : Nat) - 1) ∨ ¬stop.IsIntUpTo (2 ^ (64 : Nat) - 1) ∨ ¬l1.IsIntUpTo (2 ^ (64 : Nat) - 1) ∨
        (∃ a b : Nat, start = .int a ∧ stop = .int b ∧ b < a) ∨
        (∃ b : Nat, stop = .int b ∧ storableMaximum < b) ∨ (∃ c : Nat, l1 = .int c ∧ storableMaximum < c))
      (s.recordPhase p start stop l1) := by
  cases checks : recordArguments (.recordPhase p) start stop l1 with
  | error f =>
    rw [recordPhase, checks]
    exact .of_checked (recordArguments_breaks f checks)
      (recordRefused_iff.mpr fun passes => Except.no_ok_of_error checks (exists_recordArguments_iff.mpr passes))
  | ok r =>
    obtain ⟨first, last, block⟩ := r
    -- with no guard every row of the batch is written, so the write goes through
    have completes : (PhaseRecord.batch ⟨p, first, last, block⟩ s.connection.tables).2 = none := by
      rw [PhaseRecord.batch_eq, (Tables.guarded_recordBlock p block.toNat).completes_iff, healthy.unguarded]
      intro _ _
      rfl
    have done := ((writes_recordPhase checks).ok_iff s).mpr ⟨healthy.connected, completes⟩
    exact .of_ok done fun refused => recordRefused_iff.mp refused (exists_recordArguments_iff.mp ⟨_, checks⟩)

theorem ingest_refuses (ws : List StoredWithdrawal) :
    s.Refuses .ingest (∃ w ∈ ws, storableMaximum < w.event.blockNumber.toNat) (s.ingest ws) := by
  by_cases fits : ∀ w ∈ ws, w.event.blockNumber.toNat ≤ storableMaximum
  · have completes : (Tables.executeMany Tables.ingestOne ws s.connection.tables).2 = none := by
      rw [Tables.guarded_ingestOne.completes_iff, healthy.unguarded]
      intro _ _
      rfl
    have done := ((writes_ingest fits).ok_iff s).mpr ⟨.inr healthy.connected, completes⟩
    refine .of_ok done ?_
    rintro ⟨w, member, beyond⟩
    have within := fits w member
    omega
  · obtain ⟨f, failed⟩ := @forM_storable_failed .ingest "block_number" ws fits
    refine .of_stopped (ingest_of_error failed)
      (failsWith_forM (fun w => storable_breaks w.event.blockNumber) ws f failed) ?_
    simp only [Classical.not_forall, Nat.not_le] at fits
    obtain ⟨w, member, beyond⟩ := fits
    exact ⟨w, member, beyond⟩

theorem finalize_refuses (keys : List (Value × Value)) :
    s.Refuses .finalize (∃ k ∈ keys, ¬k.1.IsBytesOf 32 ∨ ¬k.2.IsIntUpTo (2 ^ (32 : Nat) - 1)) (s.finalize keys) := by
  -- a key passes its check exactly when both its parts are of their types
  have passes_iff : (∃ ks, finalizeKeys keys = .ok ks) ↔
      ¬∃ k ∈ keys, ¬k.1.IsBytesOf 32 ∨ ¬k.2.IsIntUpTo (2 ^ (32 : Nat) - 1) := by
    rw [finalizeKeys, mapM_isOk_iff]
    constructor
    · rintro each ⟨⟨hash, index⟩, member, refused⟩
      obtain ⟨hashTyped, indexTyped⟩ := exists_keyArgument_iff.mp (each _ member)
      rcases refused with untyped | untyped
      · exact untyped hashTyped
      · exact untyped indexTyped
    · intro passes ⟨hash, index⟩ member
      refine exists_keyArgument_iff.mpr (Classical.byContradiction fun refused => passes ?_)
      exact ⟨_, member, Classical.not_and_iff_not_or_not.mp refused⟩
  cases named : finalizeKeys keys with
  | error f =>
    refine .of_stopped (finalize_of_error named) (failsWith_mapM (fun k => keyArgument_breaks) keys f named) ?_
    exact Classical.not_not.mp fun passes => Except.no_ok_of_error named (passes_iff.mpr passes)
  | ok ks =>
    have completes : (Tables.executeMany (fun t k => .ok (t.finalizeKey k)) ks s.connection.tables).2 = none :=
      (Tables.guarded_finalizeKey.completes_iff ks _).mpr fun _ _ => rfl
    have done := ((writes_finalize named).ok_iff s).mpr ⟨.inr healthy.connected, completes⟩
    exact .of_ok done (passes_iff.mp ⟨ks, named⟩)

end Writes

section Reads

variable {s : Store} (rows : s.connection.tables.WellFormed) (healthy : s.Healthy)

include rows healthy

theorem lifecycle_refuses (block : Value) :
    s.Refuses .lifecycle (¬block.IsIntUpTo (2 ^ (64 : Nat) - 1) ∨ ∃ n : Nat, block = .int n ∧ storableMaximum < n)
      (s.lifecycle block) := by
  cases checks : wordArgument .lifecycle "l2_block_number" .w64 block with
  | error f =>
    rw [lifecycle, checks]
    exact .of_checked (wordArgument_names .w64 block f checks).breaks
      (.inl fun passes => Except.no_ok_of_error checks (exists_wordArgument_iff.mpr passes))
  | ok n =>
    obtain rfl := wordArgument_eq_ok_iff.mp checks
    have typed : (Value.int n.toNat).IsIntUpTo (2 ^ (64 : Nat) - 1) := exists_wordArgument_iff.mp ⟨n, checks⟩
    by_cases fits : n.toNat ≤ storableMaximum
    · obtain ⟨answer, done, -⟩ := lifecycle_answer rows healthy.connected n fits
      refine .of_ok done ?_
      rintro (untyped | ⟨m, same, beyond⟩)
      · exact untyped typed
      · have atM := Value.int.inj same
        omega
    · have failed : (s.lifecycle (.int n.toNat)).1 = .error (.constraint .lifecycle .integerTooWide) := by
        rw [lifecycle, wordArgument_int]
        simp only [checked]
        exact read_unfitting healthy.connected healthy.quiet (decide_eq_false fits)
      exact .of_error failed ⟨_, rfl⟩ (lifecycle_engine s _) (.inr ⟨n.toNat, rfl, by omega⟩)

theorem phaseL1Block_refuses (p : Phase) (hash : Value) (index : Option Value) :
    s.Refuses (.phaseLookup p) (¬hash.IsBytesOf 32 ∨ ∃ v, index = some v ∧ ¬v.IsIntUpTo (2 ^ (32 : Nat) - 1))
      (s.phaseL1Block p hash index) := by
  cases hashChecks : bytesArgument (.phaseLookup p) "tx_hash" 32 hash with
  | error f =>
    exact .of_stopped (phaseL1Block_of_hash_error hashChecks) (bytesArgument_names 32 hash f hashChecks).breaks
      (.inl fun passes => Except.no_ok_of_error hashChecks (exists_bytesArgument_iff.mpr passes))
  | ok h =>
    obtain rfl := bytesArgument_eq_ok_iff.mp hashChecks
    have hashTyped : (Value.bytes h.data).IsBytesOf 32 := ⟨h.data, rfl, h.length_eq⟩
    cases index with
    | none =>
      obtain ⟨answer, done, -⟩ := phaseL1Block_answer rows healthy.connected p h none
      refine .of_ok done ?_
      rintro (untyped | ⟨v, absent, -⟩)
      · exact untyped hashTyped
      · cases absent
    | some v =>
      cases indexChecks : wordArgument (.phaseLookup p) "index_in_tx" .w32 v with
      | error f =>
        exact .of_stopped (phaseL1Block_of_index_error indexChecks) (wordArgument_names .w32 v f indexChecks).breaks
          (.inr ⟨v, rfl, fun passes => Except.no_ok_of_error indexChecks (exists_wordArgument_iff.mpr passes)⟩)
      | ok i =>
        obtain rfl := wordArgument_eq_ok_iff.mp indexChecks
        obtain ⟨answer, done, -⟩ := phaseL1Block_answer rows healthy.connected p h (some i)
        refine .of_ok done ?_
        rintro (untyped | ⟨v, same, untyped⟩)
        · exact untyped hashTyped
        · cases same
          exact untyped (exists_wordArgument_iff.mp ⟨i, indexChecks⟩)

theorem getWithdrawal_refuses (hash index : Value) :
    s.Refuses .getWithdrawal (¬hash.IsBytesOf 32 ∨ ¬index.IsIntUpTo (2 ^ (32 : Nat) - 1)) (s.getWithdrawal hash index) := by
  cases checks : keyArgument .getWithdrawal hash index with
  | error f =>
    rw [getWithdrawal, checks]
    exact .of_checked (keyArgument_breaks f checks)
      (Classical.not_and_iff_not_or_not.mp fun passes => Except.no_ok_of_error checks (exists_keyArgument_iff.mpr passes))
  | ok k =>
    obtain ⟨rfl, rfl⟩ := keyArgument_eq_ok_iff.mp checks
    obtain ⟨ws, holds⟩ := rows.holds
    refine .of_ok (getWithdrawal_answer holds healthy.connected k.1 k.2) ?_
    obtain ⟨hashTyped, indexTyped⟩ := exists_keyArgument_iff.mp ⟨k, checks⟩
    rintro (untyped | untyped)
    · exact untyped hashTyped
    · exact untyped indexTyped

theorem pending_refuses {limit : Option Operand} (plain : ∀ w x, limit ≠ some (.word w x)) :
    s.Refuses .pending
      (¬∃ n : Nat, limit.getD (.plain (.int s.settings.pendingLimit)) = .plain (.int n) ∧ 1 ≤ n ∧ n ≤ storableMaximum)
      (s.pending limit) := by
  cases limited : s.pendingLimit limit with
  | error f =>
    rw [pending, limited]
    refine .of_checked (pendingLimit_breaks s plain f limited) ?_
    rintro ⟨n, given, positive, -⟩
    rw [pendingLimit_of_getD given positive] at limited
    cases limited
  | ok L =>
    obtain ⟨given, positive⟩ := pendingLimit_ok limited
    by_cases bounded : L ≤ storableMaximum
    · obtain ⟨ws, holds⟩ := rows.holds
      exact .of_ok (pending_answer holds healthy.connected limited bounded) (Classical.not_not.mpr ⟨L, given, positive, bounded⟩)
    · refine .of_error (pending_unfitting healthy.connected healthy.quiet limited bounded) ⟨_, rfl⟩
        (pending_engine s limit) ?_
      rintro ⟨n, same, -, fits⟩
      rw [given] at same
      have atN := Value.int.inj (Operand.plain.inj same)
      omega

theorem highestObserved_refuses : s.Refuses .highestObserved False s.highestObserved := by
  obtain ⟨x, done⟩ := highestObserved_ok rows healthy.connected
  exact .of_ok done id

theorem highestCommitted_refuses : s.Refuses .highestCommitted False s.highestCommitted := by
  obtain ⟨x, done⟩ := highestCommitted_ok rows healthy.connected
  exact .of_ok done id

end Reads

/-- A word given as the limit makes the scan fail with the refused comparison of the word with
zero, which is no broken constraint, leaving the store as it was. -/
theorem pending_word (s : Store) {w : Width} (x : Word w) :
    s.pending (some (.word w x)) = (.error (.refused (.unsupported "<=" w.name "int")), s) := by
  rw [pending, pendingLimit_word]
  rfl

/-- A finalize call whose first key that fails its check is `(hash, index)` fails with that key's
failure, which names its hash when the hash is not 32 bytes and its position otherwise. -/
theorem finalize_names (s : Store) {before after : List (Value × Value)} {hash index : Value}
    (passed : ∀ k ∈ before, k.1.IsBytesOf 32 ∧ k.2.IsIntUpTo (2 ^ (32 : Nat) - 1))
    (refused : ¬(hash.IsBytesOf 32 ∧ index.IsIntUpTo (2 ^ (32 : Nat) - 1))) :
    ∃ f, (s.finalize (before ++ (hash, index) :: after)).1 = .error f ∧
      keyArgument .finalize hash index = .error f ∧
      f.NamesFirstBad .finalize [("tx_hash", hash.IsBytesOf 32), ("index_in_tx", index.IsIntUpTo (2 ^ (32 : Nat) - 1))] := by
  cases checks : keyArgument .finalize hash index with
  | ok k => exact absurd (exists_keyArgument_iff.mp ⟨k, checks⟩) refused
  | error f =>
    have named : finalizeKeys (before ++ (hash, index) :: after) = .error f := by
      unfold finalizeKeys
      refine mapM_first_error ?_ after fun ⟨h, i⟩ member => exists_keyArgument_iff.mpr (passed (h, i) member)
      exact checks
    refine ⟨f, ?_, rfl, keyArgument_names f checks⟩
    rw [finalize_of_error named]

/-- On an open, well-formed store whose engine fails no statement, every call refuses exactly the
arguments its checks refuse, with a broken constraint of its own and before writing anything; a
word given as a scan's limit escapes, refused instead by its comparison with zero. -/
theorem calls_refuse_exactly_bad_arguments {s : Store} (rows : s.connection.tables.WellFormed)
    (healthy : s.Healthy) :
    (∀ p start stop l1, s.Refuses (.recordPhase p)
        (¬start.IsIntUpTo (2 ^ (64 : Nat) - 1) ∨ ¬stop.IsIntUpTo (2 ^ (64 : Nat) - 1) ∨ ¬l1.IsIntUpTo (2 ^ (64 : Nat) - 1) ∨
          (∃ a b : Nat, start = .int a ∧ stop = .int b ∧ b < a) ∨
          (∃ b : Nat, stop = .int b ∧ storableMaximum < b) ∨ (∃ c : Nat, l1 = .int c ∧ storableMaximum < c))
        (s.recordPhase p start stop l1) ∧
      FailsWith (Fault.NamesFirstBad (.recordPhase p) [("start", start.IsIntUpTo (2 ^ (64 : Nat) - 1)),
          ("end", stop.IsIntUpTo (2 ^ (64 : Nat) - 1)), ("l1_block_number", l1.IsIntUpTo (2 ^ (64 : Nat) - 1))])
        (s.recordPhase p start stop l1).1) ∧
    (∀ block, s.Refuses .lifecycle
      (¬block.IsIntUpTo (2 ^ (64 : Nat) - 1) ∨ ∃ n : Nat, block = .int n ∧ storableMaximum < n) (s.lifecycle block)) ∧
    (∀ p hash index, s.Refuses (.phaseLookup p)
      (¬hash.IsBytesOf 32 ∨ ∃ v, index = some v ∧ ¬v.IsIntUpTo (2 ^ (32 : Nat) - 1)) (s.phaseL1Block p hash index)) ∧
    (∀ hash index, s.Refuses .getWithdrawal
      (¬hash.IsBytesOf 32 ∨ ¬index.IsIntUpTo (2 ^ (32 : Nat) - 1)) (s.getWithdrawal hash index)) ∧
    (∀ ws, s.Refuses .ingest (∃ w ∈ ws, storableMaximum < w.event.blockNumber.toNat) (s.ingest ws)) ∧
    (∀ keys, s.Refuses .finalize
      (∃ k ∈ keys, ¬k.1.IsBytesOf 32 ∨ ¬k.2.IsIntUpTo (2 ^ (32 : Nat) - 1)) (s.finalize keys)) ∧
    (∀ before hash index after, (∀ k ∈ before, k.1.IsBytesOf 32 ∧ k.2.IsIntUpTo (2 ^ (32 : Nat) - 1)) →
      ¬(hash.IsBytesOf 32 ∧ index.IsIntUpTo (2 ^ (32 : Nat) - 1)) →
      ∃ f, (s.finalize (before ++ (hash, index) :: after)).1 = .error f ∧
        keyArgument .finalize hash index = .error f ∧
        f.NamesFirstBad .finalize [("tx_hash", hash.IsBytesOf 32), ("index_in_tx", index.IsIntUpTo (2 ^ (32 : Nat) - 1))]) ∧
    (∀ limit, (∀ w x, limit ≠ some (.word w x)) → s.Refuses .pending
      (¬∃ n : Nat, limit.getD (.plain (.int s.settings.pendingLimit)) = .plain (.int n) ∧ 1 ≤ n ∧ n ≤ storableMaximum)
      (s.pending limit)) ∧
    (∀ w (x : Word w), s.pending (some (.word w x)) = (.error (.refused (.unsupported "<=" w.name "int")), s)) ∧
    s.Refuses .highestObserved False s.highestObserved ∧
    s.Refuses .highestCommitted False s.highestCommitted :=
  ⟨fun p start stop l1 => ⟨recordPhase_refuses healthy p start stop l1, recordPhase_names s p start stop l1⟩,
    lifecycle_refuses rows healthy, phaseL1Block_refuses rows healthy, getWithdrawal_refuses rows healthy,
    ingest_refuses healthy, finalize_refuses healthy, fun _ _ _ _ => finalize_names s,
    fun _ plain => pending_refuses rows healthy plain, fun _ => pending_word s, highestObserved_refuses rows healthy,
    highestCommitted_refuses rows healthy⟩

/-- After a withdrawal is ingested, the rows are well formed and the store healthy; a truth value
given as the limit of a pending scan is refused as a broken constraint, and a 64-bit word is
refused by its comparison with zero. -/
theorem calls_refuse_exactly_bad_arguments_word_limit :
    let s := Store.after ⟨Settings.default, Connection.fresh⟩
      [.ingest [[(.str "tx_hash", .bytes (List.replicate 32 1)), (.str "block_number", .int 4),
        (.str "token", .bytes (List.replicate 20 2)), (.str "amount", .int 100), (.str "index_in_tx", .int 0)]]]
    s.connection.tables.WellFormed ∧ s.Healthy ∧
      s.Refuses .pending (¬∃ n : Nat, (some (Operand.plain (.bool true))).getD (.plain (.int s.settings.pendingLimit)) =
        .plain (.int n) ∧ 1 ≤ n ∧ n ≤ storableMaximum) (s.pending (some (.plain (.bool true)))) ∧
      s.pending (some (.word .w64 ⟨5, by decide⟩)) = (.error (.refused (.unsupported "<=" "Uint64" "int")), s) := by
  intro s
  have rows : s.connection.tables.WellFormed := Opened.after_tables ⟨rfl, rfl, rfl⟩ (by decide)
  have healthy : s.Healthy :=
    ⟨by decide +kernel, Option.isNone_iff_eq_none.mp (by decide +kernel), List.isEmpty_iff.mp (by decide +kernel)⟩
  have refuses := calls_refuse_exactly_bad_arguments rows healthy
  exact ⟨rows, healthy, refuses.2.2.2.2.2.2.2.1 (some (.plain (.bool true))) fun _ _ same => (by cases same),
    refuses.2.2.2.2.2.2.2.2.1 .w64 _⟩

/-- On a fresh store a scan limited to the 64-bit word 5, a positive integer, fails with the refused
comparison, whose message is that of an unsupported operand and names no constraint. -/
theorem pending_word_limit_escapes :
    (Store.pending ⟨Settings.default, Connection.fresh⟩ (some (.word .w64 ⟨5, by decide⟩))).1 =
        .error (.refused (.unsupported "<=" "Uint64" "int")) ∧
      (Fault.refused (.unsupported "<=" "Uint64" "int")).message = "Unsupported operand type(s) for <=: 'Uint64' and 'int'" :=
  ⟨rfl, rfl⟩

end Store

end BridgeLedger
