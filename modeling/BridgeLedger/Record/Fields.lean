import BridgeLedger.Value

namespace BridgeLedger

/-- The records that are built from fields. -/
inductive Model where
  | withdrawalEvent
  | storedWithdrawal
  | blockLifecycle
  | storageSettings
  deriving DecidableEq

def Model.name : Model → String
  | .withdrawalEvent => "WithdrawalEvent"
  | .storedWithdrawal => "StoredWithdrawal"
  | .blockLifecycle => "BlockLifecycle"
  | .storageSettings => "StorageConfig"

/-- A failed build: the record and the fields that failed, sorted and without repeats. -/
structure Invalid where
  model : Model
  fields : List String

def Invalid.message (e : Invalid) : String :=
  e.model.name ++ ": " ++ ", ".intercalate e.fields

/-- A value built from fields, or the names of the fields that failed. -/
abbrev Validated (α : Type) := Except (List String) α

namespace Validated

def both {α β : Type} : Validated α → Validated β → Validated (α × β)
  | .ok a, .ok b => .ok (a, b)
  | .error x, .ok _ => .error x
  | .ok _, .error y => .error y
  | .error x, .error y => .error (x ++ y)

/-- The value given for a name; the first field with the name is the one seen. -/
def lookup {β : Type} (fields : List (String × β)) (name : String) : Option β :=
  (fields.find? (·.1 == name)).map (·.2)

def required {α β : Type} (fields : List (String × β)) (name : String)
    (check : β → Option α) : Validated α :=
  match lookup fields name with
  | some v => match check v with
    | some a => .ok a
    | none => .error [name]
  | none => .error [name]

/-- A field that takes `default` when it is absent. -/
def optional {α β : Type} (fields : List (String × β)) (name : String) (default : α)
    (check : β → Option α) : Validated α :=
  match lookup fields name with
  | some v => match check v with
    | some a => .ok a
    | none => .error [name]
  | none => .ok default

def onlyKnown {β : Type} (fields : List (String × β)) (known : List String) : Validated Unit :=
  match fields.filter (fun f => !known.contains f.1) with
  | [] => .ok ()
  | extra => .error (extra.map (·.1))

/-- The fields of a caller's map by their names. A field whose name holds half of a surrogate pair
standing alone stops the build before any field is checked, and the failure names no field. -/
def named (model : Model) (fields : List (Value × Value)) : Except Invalid (List (String × Value)) :=
  fields.mapM fun (k, v) => match k with
    | .str s => .ok (s, v)
    | _ => .error ⟨model, []⟩

/-- The fields of a caller's map that have one of the names; the others are not read. -/
def select (fields : List (Value × Value)) (names : List String) : List (String × Value) :=
  fields.filterMap fun (k, v) => match k with
    | .str s => if names.contains s then some (s, v) else none
    | _ => none

/-- The failed fields as a build failure of a record: sorted, repeats removed. -/
def toInvalid {α : Type} (model : Model) : Validated α → Except Invalid α
  | .ok a => .ok a
  | .error names =>
    .error ⟨model, (names.mergeSort (fun a b => decide (a ≤ b))).eraseDups⟩

end Validated

end BridgeLedger
