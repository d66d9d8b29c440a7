import Lalr.CommandLine

set_option autoImplicit false

/-!
The program: reads the files a command needs, carries it out, and prints and writes
what it leads to.
-/

open Lalr

/-- Reads a file; one that cannot be read is taken for absent. -/
def loadFile (path : String) : IO (String × Except FileError (List UInt8)) := do
  try
    let content ← IO.FS.readBinFile path
    pure (path, .ok content.toList)
  catch _ => pure (path, .error .notFound)

/-- Runs the program; the exit code is 1 if sources have errors and 2 on failure. -/
def main (words : List String) : IO UInt32 := do
  let start ← IO.monoMsNow
  match ({} : Arguments).read? words with
  | none =>
      IO.eprint usage
      pure 2
  | some arguments =>
      let files ← arguments.inputs.mapM loadFile
      let outcome := runCommand arguments fun path =>
        (files.lookup path).getD (.error .notFound)
      for (path, content) in outcome.files do
        IO.FS.writeBinFile path (ByteArray.mk content.toArray)
      IO.eprint outcome.errors
      IO.print (outcome.output ⟨(← IO.monoMsNow) - start⟩)
      pure outcome.exitCode
