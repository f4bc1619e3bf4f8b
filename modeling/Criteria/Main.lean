import Criteria.CommandLine

/-!
The program `fscript`.
-/

def main (arguments : List String) : IO UInt32 := do
  let result := Criteria.CommandLine.run (arguments.map String.toList)
  IO.print result.stdout
  IO.eprint result.stderr
  return UInt32.ofNat result.exitCode
