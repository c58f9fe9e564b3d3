import UtxoLedger.Command.Response
import UtxoLedger.Key.Secp256k1

/-!
# The command line

Reads the files that the arguments name, draws random bytes, and prints the
response.
-/
namespace UtxoLedger.Command

/-- The files that can be read, with their content. -/
def loadFiles (names : List String) : IO (List (String × String)) :=
  names.filterMapM fun (name : String) => do
    try
      let content ← IO.FS.readFile name
      return some (name, content)
    catch _ => return none

/-- One invocation: the bytes drawn from the system are stretched by hashing,
a different number with each request. -/
def answer (arguments : List String) : IO UInt32 := do
  let invocation := Invocation.ofArguments arguments
  let contents ← loadFiles invocation.files
  let seed ← IO.getRandomBytes 32
  let entropy : Entropy := fun index =>
    let number := Bytes.littleEndian 8 index
    Sha256.hash (0 :: seed.toList ++ number) ++ Sha256.hash (1 :: seed.toList ++ number)
  let response := invocation.respond secp256k1 (contents.lookup ·) entropy
  IO.print response.output
  if let some complaint := response.complaint then IO.eprintln ("Error: " ++ complaint)
  return response.exit

end UtxoLedger.Command

def main (arguments : List String) : IO UInt32 :=
  UtxoLedger.Command.answer arguments
