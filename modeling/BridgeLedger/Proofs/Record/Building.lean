import BridgeLedger.Record.Withdrawal
import BridgeLedger.Record.Lifecycle
import BridgeLedger.Proofs.Store.Arguments

namespace BridgeLedger

namespace StoredWithdrawal.FieldValue

end StoredWithdrawal.FieldValue

namespace FieldSpec

variable {β : Type}

end FieldSpec

namespace Validated

variable {β : Type} {fields : List (String × β)} {n : String} {v : β}

end Validated

namespace FieldSpec

variable {β : Type} {fields : List (String × β)} {name : String} {takes : β → Prop} {required : Bool}

end FieldSpec

namespace Validated

def Names {α : Type} (checked : Validated α) : Prop := ∀ names, checked = .error names → names ≠ []

variable {α β γ : Type} {fields : List (String × γ)}

theorem Names.both {a : Validated α} {b : Validated β} (left : a.Names) (right : b.Names) : (a.both b).Names := by
  intro names failed
  cases a with
  | ok x =>
    cases b with
    | ok y => cases failed
    | error y =>
      cases failed
      exact right _ rfl
  | error x =>
    cases b with
    | ok y =>
      cases failed
      exact left _ rfl
    | error y =>
      cases failed
      exact fun empty => left x rfl (List.append_eq_nil_iff.mp empty).1

variable {name n : String}

variable (nodup : (fields.map Prod.fst).Nodup)

end Validated

namespace FieldKind

end FieldKind

namespace Validated

variable {α β γ : Type} {name : String}

end Validated

namespace WithdrawalEvent

end WithdrawalEvent

namespace StoredWithdrawal.FieldValue

end StoredWithdrawal.FieldValue

namespace StoredWithdrawal

end StoredWithdrawal

namespace Lifecycle

variable {fields : List (String × Value)} (nodup : (fields.map Prod.fst).Nodup) {name n : String}

end Lifecycle

end BridgeLedger
