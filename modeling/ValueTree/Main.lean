import ValueTree.CommandLine

/-!
# The program

Reads the file that a command line names, and prints what the run leaves behind. From here no way
leads to an authority.
-/

open ValueTree CommandLine

/-- What a path of this machine leads to. -/
def readContent (path : String) : IO (Except FileFault String) := do
  try
    let bytes ← IO.FS.readBinFile path
    match Utf8.toString? bytes.toList with
    | some text => pure (.ok text)
    | none => pure (.error .notUtf8)
  catch
    | .noFileOrDirectory .. => pure (.error .notFound)
    | _ => pure (.error .isADirectory)

/-- The content of the file to check, if there is one. -/
def contentFor (words : List String) : IO (Except FileFault String) := do
  match Invocation.parse words with
  | .ok { task := .checkFragment path, .. } => readContent path
  | _ => pure (.error .notFound)

def main (words : List String) : IO UInt32 := do
  let content ← contentFor words
  let report := run (fun _ => content) none words
  report.log.forM IO.println
  IO.print report.output
  IO.eprint report.errors
  pure report.code.toUInt32
