/-!
# Script errors
-/
namespace UtxoLedger

/-- The words that need an open conditional. -/
inductive ScopeWord
  | orElse
  | endIf
  deriving DecidableEq, Repr

def ScopeWord.text : ScopeWord → String
  | .orElse => "ELSE"
  | .endIf => "ENDIF"

/-- Why a script stops. An item that is not pushed is reported with the limits it met. -/
inductive ScriptError
  | stackOverflow (item : Nat) (used maxTotal maxItem : UInt64)
  | stackUnderflow
  | unbalanced (word : ScopeWord)
  | unknownLockType (code : UInt8)
  deriving DecidableEq, Repr

def ScriptError.message : ScriptError → String
  | .stackOverflow item used maxTotal maxItem =>
    s!"Stack overflow: cannot push {item} bytes ({used}/{maxTotal} used, item limit {maxItem})"
  | .stackUnderflow => "Stack underflow"
  | .unbalanced word => "Unbalanced conditional: " ++ word.text ++ " without a matching IF"
  | .unknownLockType code => s!"Unknown lock type: {code}"

end UtxoLedger
