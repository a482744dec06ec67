import BridgeLedger.Record.Fields
import BridgeLedger.Record.Phase
import BridgeLedger.Word

namespace BridgeLedger

/-- The L1 blocks in which an L2 block was committed, verified and executed. -/
structure Lifecycle where
  block : Word .w64
  commit : Option (Word .w64)
  verify : Option (Word .w64)
  execute : Option (Word .w64)

namespace Lifecycle

def l1Block (l : Lifecycle) : Phase → Option (Word .w64)
  | .commit => l.commit
  | .verify => l.verify
  | .execute => l.execute

def fieldNames : List String :=
  ["l2_block_number", "commit_l1_block_number", "verify_l1_block_number", "execute_l1_block_number"]

/-- A phase field: absent or the absent value for none, else a 64-bit word. -/
def phaseField (fields : List (String × Value)) (name : String) : Validated (Option (Word .w64)) :=
  Validated.optional fields name none fun
    | .none => some none
    | v => (Word.ofValue .w64 v).toOption.map some

/-- Builds a lifecycle from its fields; unknown fields are refused. -/
def ofFields (fields : List (Value × Value)) : Except Invalid Lifecycle := do
  let fields ← Validated.named .blockLifecycle fields
  let block := Validated.required fields "l2_block_number" fun v => (Word.ofValue .w64 v).toOption
  let commit := phaseField fields "commit_l1_block_number"
  let verify := phaseField fields "verify_l1_block_number"
  let execute := phaseField fields "execute_l1_block_number"
  let extra := Validated.onlyKnown fields fieldNames
  Validated.toInvalid .blockLifecycle <|
    ((((block.both commit).both verify).both execute).both extra).map
      fun ((((b, c), v), e), _) => ⟨b, c, v, e⟩

end Lifecycle

end BridgeLedger
