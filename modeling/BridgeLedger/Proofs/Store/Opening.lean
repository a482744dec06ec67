import BridgeLedger.Proofs.Store.Arguments

namespace BridgeLedger

theorem Engine.failure_runAll_run (e : Engine) (st : Statement) :
    ∀ ss : List Statement, ((e.run st).runAll ss).failure = none
  | [] => rfl
  | s :: rest => Engine.failure_runAll_run (e.run st) s rest

namespace Settings

/-- The validator admits every positive pending limit, and keeps the defaults of the other
settings. -/
theorem ofFields_limit {n : Int} (positive : 0 < n) :
    ofFields [(.str "pending_finalization_limit", .int n)] =
      .ok ⟨default.databasePath, n.toNat, Int.lt_toNat.mpr positive, default.busyTimeout⟩ := by
  have checked : limitOf? (.int n) = some ⟨n.toNat, by omega⟩ := by rw [limitOf?, dif_pos positive]
  have named : Validated.named .storageSettings [(.str "pending_finalization_limit", .int n)] =
      .ok [("pending_finalization_limit", .int n)] := rfl
  -- each field is read from the one given, or keeps its default
  have path : Validated.optional [("pending_finalization_limit", .int n)] "database_path"
      default.databasePath Value.codePoints? = .ok default.databasePath := rfl
  have limit : Validated.optional [("pending_finalization_limit", .int n)] "pending_finalization_limit"
      ⟨30, by decide⟩ limitOf? = .ok ⟨n.toNat, by omega⟩ := by
    unfold Validated.optional
    rw [show Validated.lookup [("pending_finalization_limit", Value.int n)] "pending_finalization_limit" = some (.int n)
      from rfl]
    dsimp only
    rw [checked]
  have timeout : Validated.optional [("pending_finalization_limit", .int n)] "busy_timeout_secs"
      default.busyTimeout timeoutOf? = .ok default.busyTimeout := rfl
  have extra : Validated.onlyKnown [("pending_finalization_limit", Value.int n)] fieldNames = .ok () := rfl
  unfold ofFields
  refine bind_eq_ok.mpr ⟨_, named, ?_⟩
  dsimp only
  rw [path, limit, timeout, extra]
  rfl

end Settings

theorem Fault.not_storageError_infiniteTimeout (op : Operation) : ¬Fault.StorageError op .infiniteTimeout :=
  fun impossible => impossible

namespace Store

/-- A store opens on a fresh connection exactly when its busy timeout converts to milliseconds. -/
theorem create_fresh_ok_iff (settings : Settings) :
    (∃ s, Store.create settings Connection.fresh = .ok s) ↔ settings.timeoutFits = true := by
  unfold create
  cases settings.timeoutFits with
  | false => exact ⟨fun ⟨_, created⟩ => (by cases created), fun converts => (by cases converts)⟩
  | true => exact ⟨fun _ => rfl, fun _ => ⟨_, rfl⟩⟩

theorem create_fresh_infinite {settings : Settings} (infinite : settings.timeoutFits = false) :
    Store.create settings Connection.fresh = .error .infiniteTimeout := by
  unfold create
  rw [infinite]
  rfl

/-- A store that opens on a fresh connection has its settings and no rows, and its engine keeps no
failure. -/
theorem create_fresh {settings : Settings} {s : Store} (created : Store.create settings Connection.fresh = .ok s) :
    s.settings = settings ∧ s.connection.tables = Tables.empty ∧ s.Healthy := by
  unfold create at created
  split at created
  · cases created
  · split at created
    · cases created
    · cases created
      refine ⟨rfl, rfl, rfl, ?_, rfl⟩
      -- with no transaction open the schema runs after a BEGIN, and running clears a failure
      exact Engine.failure_runAll_run (Connection.fresh.engine.run (.setTimeout (timeoutMilliseconds settings)))
        .begin schema

theorem read_refuses_unfitting {α : Type} {s : Store} {op : Operation} {st : Statement}
    {answer : Tables → Except Fault α} (connected : s.connection.closed = false) :
    ∃ f, (s.read op st false answer).1 = .error f := by
  simp only [read, connected, Bool.false_eq_true, if_false]
  exact ⟨_, rfl⟩

/-- The scan with the settings' limit, on an open store with well-formed rows, answers exactly
when the limit fits a cell. -/
theorem pending_default_ok_iff {s : Store} (rows : s.connection.tables.WellFormed)
    (connected : s.connection.closed = false) :
    (∃ ws, (s.pending none).1 = .ok ws) ↔ s.settings.pendingLimit ≤ storableMaximum := by
  obtain ⟨ws, holds⟩ := rows.holds
  have limited : s.pendingLimit none = .ok s.settings.pendingLimit := rfl
  constructor
  · rintro ⟨answer, done⟩
    refine Classical.byContradiction fun beyond => ?_
    -- a limit that no cell holds cannot be bound, so the read fails before it answers
    have failed : ∃ f, (s.pending none).1 = .error f := by
      rw [pending, limited]
      simp only [checked]
      rw [decide_eq_false beyond]
      exact read_refuses_unfitting connected
    obtain ⟨f, failed⟩ := failed
    rw [failed] at done
    cases done
  · intro bounded
    exact ⟨_, pending_answer holds connected limited bounded⟩

theorem pending_default_beyond_cell {s : Store} (connected : s.connection.closed = false)
    (quiet : s.connection.engine.failure = none) (beyond : storableMaximum < s.settings.pendingLimit) :
    (s.pending none).1 = .error (.constraint .pending .integerTooWide) :=
  pending_unfitting connected quiet rfl (Nat.not_le.mpr beyond)

/-- A store opens on a fresh connection exactly when its busy timeout converts, with its settings,
well-formed rows and an engine that fails nothing, and otherwise fails with no storage error; the
scan with the settings' limit answers exactly when that limit fits a cell. -/
theorem settings_usable_exactly (settings : Settings) :
    ((∃ s, Store.create settings Connection.fresh = .ok s) ↔ settings.timeoutFits = true) ∧
    (settings.timeoutFits = false →
      Store.create settings Connection.fresh = .error .infiniteTimeout ∧ ∀ op, ¬Fault.StorageError op .infiniteTimeout) ∧
    (∀ s, Store.create settings Connection.fresh = .ok s →
      s.settings = settings ∧ s.connection.tables.WellFormed ∧ s.Healthy) ∧
    ∀ s : Store, s.settings = settings → s.connection.tables.WellFormed → s.connection.closed = false →
      ((∃ ws, (s.pending none).1 = .ok ws) ↔ settings.pendingLimit ≤ storableMaximum) ∧
      (s.connection.engine.failure = none → storableMaximum < settings.pendingLimit →
        (s.pending none).1 = .error (.constraint .pending .integerTooWide)) := by
  refine ⟨create_fresh_ok_iff settings,
    fun infinite => ⟨create_fresh_infinite infinite, Fault.not_storageError_infiniteTimeout⟩,
    fun s created => ?_, fun s atSettings rows connected => ?_⟩
  · obtain ⟨atSettings, empty, healthy⟩ := create_fresh created
    rw [empty]
    exact ⟨atSettings, Tables.wellFormed_empty, healthy⟩
  · subst atSettings
    exact ⟨pending_default_ok_iff rows connected, fun quiet beyond => pending_default_beyond_cell connected quiet beyond⟩

/-- The validator admits a pending limit one past the greatest cell value, and a store that opens
with it cannot scan with its own limit. -/
theorem configured_limit_beyond_cell :
    ∃ settings, Settings.ofFields [(.str "pending_finalization_limit", .int (2 ^ (63 : Nat) : Nat))] = .ok settings ∧
      ∀ s, Store.create settings Connection.fresh = .ok s →
        (s.pending none).1 = .error (.constraint .pending .integerTooWide) := by
  refine ⟨_, Settings.ofFields_limit (by decide), fun s created => ?_⟩
  obtain ⟨atSettings, -, healthy⟩ := create_fresh created
  refine pending_default_beyond_cell healthy.connected healthy.quiet ?_
  rw [atSettings]
  decide

/-- The validator admits a busy timeout of `1e306` seconds, whose milliseconds overflow a double,
and a store given it fails to open with a fault that is no storage error. -/
theorem configured_timeout_overflows :
    ∃ settings, Settings.ofFields [(.str "busy_timeout_secs", .float (Float.ofBits 0x7f76c8e5ca239029))] = .ok settings ∧
      Store.create settings Connection.fresh = .error .infiniteTimeout ∧ ∀ op, ¬Fault.StorageError op .infiniteTimeout := by
  refine ⟨⟨Settings.default.databasePath, 30, by decide, Float.ofBits 0x7f76c8e5ca239029⟩, rfl, ?_,
    Fault.not_storageError_infiniteTimeout⟩
  exact create_fresh_infinite (by decide +kernel)

end Store

end BridgeLedger
