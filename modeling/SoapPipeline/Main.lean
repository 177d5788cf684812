/-
  SoapPipeline.Main

  The command line of the demonstration.
-/

import SoapPipeline.Demo

namespace SoapPipeline.Demo

/-- Reads the configuration, runs the demonstration and prints how it ended. -/
def runCommand (words : List String) : IO UInt32 := do
  match read? words with
  | none =>
    IO.eprintln "error: unexpected argument"
    return 2
  | some a =>
    let path := a.config <|> (← IO.getEnv "SOAPFLOW_CONFIG")
    let config ← match path with
      | none => pure none
      | some path => do
        let text ← IO.FS.readFile path
        pure (some text)
    let ended := run a config
    IO.print ended.output
    IO.eprint ended.errors
    return ended.exitCode

end SoapPipeline.Demo

/-- The command line. -/
def main (words : List String) : IO UInt32 :=
  SoapPipeline.Demo.runCommand words
