import Dialogue.Demo

/-!
# The command line

The program runs the demonstration. Its first argument, if any, is the path of a configuration,
whose extension tells the format.
-/

open Dialogue

/-- Runs the demonstration and answers its exit code. -/
def main (args : List String) : IO UInt32 := do
  let bytes ← IO.getRandomBytes 8
  let seed : UInt64 := bytes.foldl (fun n b => n <<< 8 ||| b.toUInt64) 0
  let document ← args.head?.mapM fun (path : String) => do
    return (Format.ofExtension (extensionOf path), ← IO.FS.readFile path)
  let output := Demo.run (.random seed) document
  output.lines.forM IO.println
  output.fault.forM fun f => IO.eprintln f.report
  return UInt32.ofNat output.exitCode
