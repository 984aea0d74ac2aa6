import Pcfg.CommandLine
import Pcfg.Conversion
import Pcfg.RuleFile.Read
/-!
# The converter's entry point

Reads the listing, converts it, writes the rule file and, when asked, reads the rule file back
and checks it. A failure is reported on standard error with what was being done and why, and
the program then exits with status 1; a wrong command line exits with status 2.
-/

open Pcfg

/-- Reports a failure with its context and cause. -/
def reportFailure (context cause : String) : IO UInt32 := do
  IO.eprintln ("Error: " ++ context ++ "\n\nCaused by:\n    " ++ cause)
  return 1

/-- Converts the input file into the output file, and checks it when asked. -/
def runConversion (o : Options) : IO UInt32 := do
  if o.debug then IO.println "Debug mode"
  let input ← try IO.FS.readBinFile o.input catch e =>
    return ← reportFailure ("failed to open `" ++ o.input ++ "`") (toString e)
  try IO.FS.writeFile o.output "" catch e =>
    return ← reportFailure ("failed to create `" ++ o.output ++ "`") (toString e)
  match Conversion.convert input with
  | .error e => reportFailure ("failed to convert `" ++ o.input ++ "`") e.message
  | .ok (text, _) =>
    try IO.FS.writeFile o.output text catch e =>
      return ← reportFailure ("failed to write `" ++ o.output ++ "`") (toString e)
    if !o.verify then return 0
    let written ← try IO.FS.readBinFile o.output catch e =>
      return ← reportFailure ("failed to open `" ++ o.output ++ "`") (toString e)
    match RuleFile.read written with
    | .error e => reportFailure ("failed to read rules from `" ++ o.output ++ "`") e.message
    | .ok rules =>
      match RuleFile.check rules with
      | .error e => reportFailure ("`" ++ o.output ++ "` failed verification") e.message
      | .ok () => return 0

def main (args : List String) : IO UInt32 := do
  match Command.ofArgs? args with
  | .error msg =>
    IO.eprintln msg
    return 2
  | .ok .version =>
    IO.println Command.versionText
    return 0
  | .ok .help =>
    IO.println Command.helpText
    return 0
  | .ok (.convert o) => runConversion o
