import Pcfg.Decimal.Read
/-!
# The command line

The converter is run with options and two file names, `IN_FILE` and `OUT_FILE`: it converts
the listing `IN_FILE` into the rule file `OUT_FILE`, and with `--verify` reads the rule file
back and checks every tag's distribution. `-o`/`--option` takes an integer that has no effect,
`-d`/`--debug` announces the debugging mode, `-v`/`--version` prints the version and
`-h`/`--help` the help.

`Command.ofArgs?` reads the arguments; a wrong command line is reported with the usage line.
-/

namespace Pcfg

/-- The settings of a conversion run. -/
structure Options where
  /-- The listing to read. -/
  input : String
  /-- The rule file to write. -/
  output : String
  /-- The reserved integer option. -/
  option : Int := 0
  /-- Debugging mode. -/
  debug : Bool := false
  /-- Read the rule file back and check it. -/
  verify : Bool := false
deriving DecidableEq, Repr

/-- What the command line asks for. -/
inductive Command where
  /-- Convert a listing. -/
  | convert (o : Options)
  /-- Print the version. -/
  | version
  /-- Print the help. -/
  | help
deriving DecidableEq, Repr

namespace Command

/-- The program's name and version. -/
def versionText : String := "lt2grammar 1.0.0"

/-- The usage line. -/
def usage : String := "Usage: lt2grammar [OPTIONS] <IN_FILE> <OUT_FILE>"

/-- The help text. -/
def helpText : String :=
  "Converts a flat treebank grammar listing into a PCFG rule file, giving every distinct " ++
  "expansion of a tag the same probability\n\n" ++ usage ++ "\n\nArguments:\n" ++
  "  <IN_FILE>   Grammar listing to read\n" ++
  "  <OUT_FILE>  Rule file to write\n\nOptions:\n" ++
  "  -o, --option <OPT>  Reserved, has no effect on the conversion [default: 0]\n" ++
  "  -d, --debug         Enable debugging mode\n" ++
  "      --verify        Read the rule file back after writing it and check each tag's " ++
  "distribution\n" ++
  "  -v, --version       Print version information\n" ++
  "  -h, --help          Print help"

/-- A refused command line, reported with the usage line. -/
def refusal (msg : String) : String :=
  "error: " ++ msg ++ "\n\n" ++ usage ++ "\n\nFor more information, try '--help'."

/-- The value of a nonempty string of ASCII digits. -/
def digits? (ds : List Char) : Option Nat :=
  if ds ≠ [] ∧ ds.all Char.isDigit then some (Decimal.digitsValue ds) else none

/-- Reads an integer with an optional sign. -/
def readInt? (t : String) : Option Int :=
  match t.toList with
  | '-' :: ds => (digits? ds).map fun n => -(n : Int)
  | '+' :: ds => (digits? ds).map fun n => (n : Int)
  | ds => (digits? ds).map fun n => (n : Int)

/-- The state of reading the arguments: positional arguments so far (reversed) and flags. -/
structure Reading where
  /-- Positional arguments, last first. -/
  positional : List String := []
  /-- The reserved integer option. -/
  option : Int := 0
  /-- Debugging mode. -/
  debug : Bool := false
  /-- Read back and check. -/
  verify : Bool := false

/-- The value of `-o`/`--option`. -/
def optionValue (t : String) (r : Reading) : Except String Reading :=
  match readInt? t with
  | some n => .ok { r with option := n }
  | none => .error (refusal ("invalid value '" ++ t ++
      "' for '--option <OPT>': invalid digit found in string"))

/-- The start of the report of missing arguments. -/
def missing : String := "the following required arguments were not provided:"

/-- The command once every argument is read: exactly two positional arguments. -/
def Reading.finish (r : Reading) : Except String Command :=
  match r.positional.reverse with
  | [i, o] => .ok (.convert ⟨i, o, r.option, r.debug, r.verify⟩)
  | [] => .error (refusal (missing ++ "\n  <IN_FILE>\n  <OUT_FILE>"))
  | [_] => .error (refusal (missing ++ "\n  <OUT_FILE>"))
  | _ :: _ :: extra :: _ => .error (refusal ("unexpected argument '" ++ extra ++ "' found"))

/-- Reads the arguments after the program name. -/
def readArgs : List String → Reading → Except String Command
  | [], r => r.finish
  | a :: rest, r =>
    if a = "-v" ∨ a = "--version" then .ok .version
    else if a = "-h" ∨ a = "--help" then .ok .help
    else if a = "-d" ∨ a = "--debug" then readArgs rest { r with debug := true }
    else if a = "--verify" then readArgs rest { r with verify := true }
    else if a = "-o" ∨ a = "--option" then
      match rest with
      | v :: rest' => (optionValue v r).bind (readArgs rest')
      | [] => .error (refusal "a value is required for '--option <OPT>' but none was supplied")
    else if "--option=".isPrefixOf a then
      (optionValue (String.ofList (a.toList.drop 9)) r).bind (readArgs rest)
    else if "-o".isPrefixOf a then
      (optionValue (String.ofList (a.toList.drop 2)) r).bind (readArgs rest)
    else if a = "--" then Reading.finish { r with positional := rest.reverse ++ r.positional }
    else if "-".isPrefixOf a ∧ a ≠ "-" then
      .error (refusal ("unexpected argument '" ++ a ++ "' found"))
    else readArgs rest { r with positional := a :: r.positional }

/-- Reads a command line, the program name left out. -/
def ofArgs? (args : List String) : Except String Command := readArgs args {}

end Command

end Pcfg
