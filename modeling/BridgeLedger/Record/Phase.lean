import BridgeLedger.Display

namespace BridgeLedger

/-- An L1 phase of an L2 block: commit, verify and execute, in that order. -/
inductive Phase where
  | commit
  | verify
  | execute
  deriving DecidableEq, Repr

namespace Phase

def word : Phase → String
  | .commit => "commit"
  | .verify => "verify"
  | .execute => "execute"

/-- The name of the block column that holds a phase's L1 block number. -/
def column (p : Phase) : String := p.word ++ "_l1_block_number"

/-- The phase named by a caller value, or the value itself when it names none. -/
def ofValue : Value → Except Value Phase
  | .str "commit" => .ok .commit
  | .str "verify" => .ok .verify
  | .str "execute" => .ok .execute
  | v => .error v

end Phase

def Phase.refusal (v : Value) : String := v.display ++ " is not a valid Phase"

end BridgeLedger
