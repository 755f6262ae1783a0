import Segue.Command.Run

/-!
# The program

Reads the command line and carries it out on the files of this machine. There is no device for
drawing, no reader or writer of image formats and no way to a host: commands that need them fail and
say so.
-/

namespace Segue

/-- The files of this machine. What cannot be read counts as not there. -/
instance : FileSystem IO where
  kind p := do
    try return if ← (← IO.FS.realPath p).isDir then .directory else .file
    catch _ => return .absent
  read? p := do
    try return some (.bytes (← IO.FS.readBinFile p))
    catch _ => return none
  names? p := do
    try return some ((← (← IO.FS.realPath p).readDir).toList.map fun e => e.fileName)
    catch _ => return none
  makeDirectory p := do
    try
      IO.FS.createDirAll p
      return true
    catch _ => return false
  write p c := do
    match c with
    | .image _ _ => return false
    | .bytes b =>
      try
        IO.FS.writeBinFile p b
        return true
      catch _ => return false

instance : Command.Console IO where
  print s := do
    try
      IO.print s
      (← IO.getStdout).flush
      return true
    catch _ => return false

/-- No host can be reached. -/
instance : Hosts IO := ⟨fun _ _ _ => return (0, .refused)⟩

def Command.Failure.report (f : Command.Failure) : String :=
  match f.chain with
  | [] => ""
  | e :: causes =>
    s!"Error: {e}\n" ++
      (if causes.isEmpty then "" else "\nCaused by:\n") ++
      String.join (causes.map fun c => s!"    {c}\n")

end Segue

open Segue.Command in
def main (args : List String) : IO UInt32 := do
  match Invocation.read (← IO.getEnv "BLENDPACK_CONFIG") args with
  | .error e =>
    IO.print e.output
    return e.status.toUInt32
  | .ok i =>
    let o ← (i.run none : IO Outcome)
    if let some f := o.failure? then IO.eprint f.report
    return o.status.toUInt32
