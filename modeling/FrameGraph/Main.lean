/-
  FrameGraph.Main: the program.

  Artifacts go to standard output, errors to standard error.
-/

import FrameGraph.CommandLine

def readFileIfAny (path : String) : IO (Option ByteArray) := do
  try
    return some (← IO.FS.readBinFile path)
  catch _ =>
    return none

def main (args : List String) : IO UInt32 := do
  let report ← FrameGraph.CommandLine.run readFileIfAny args
  IO.print report.output
  report.errors.forM fun e => IO.eprintln e
  return report.exit.toUInt32
