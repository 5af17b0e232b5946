import ResourceTypes.CommandLine.Run

/-!
The program: it reads files from disk, prints the answer to its arguments and
exits with the answer's code.
-/

namespace ResourceTypes

/-- The number of an error of the system, which may come with a minus. -/
def errorNumber (code : UInt32) : Nat :=
  if code < 0x80000000 then code.toNat else (-code).toNat

/-- Why the system could not read a file. -/
def ReadFault.ofError : IO.Error → ReadFault
  | .noFileOrDirectory .. => .missing
  | .inappropriateType _ code _ => if errorNumber code = 21 then .isDirectory else .notDirectory
  | .permissionDenied .. => .other "Permission denied" 13
  | error => .other error.toString 5

/-- Reads a file of text from disk. -/
def readFile (name : String) : IO (Except ReadFault String) := do
  try
    let octets ← IO.FS.readBinFile name
    return (String.fromUTF8? octets).elim (.error .notText) .ok
  catch error => return .error (.ofError error)

end ResourceTypes

def main (arguments : List String) : IO UInt32 := do
  let answer ← ResourceTypes.CommandLine.run ResourceTypes.readFile arguments
  IO.print answer.output
  if let some problem := answer.problem? then
    IO.eprintln ("Error: " ++ problem.message)
  return answer.code.toUInt32
