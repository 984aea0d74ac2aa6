import Pcfg.Production
import Pcfg.Decimal.Read
import Pcfg.Listing.Line
/-!
# Reading one rule of a rule file

A line of a rule file is read after the blanks at both of its ends are dropped. Its tag runs up
to the first `->[`, its children up to the first `] : ` after that, and its probability is the
rest. It is refused, for the first reason that applies in this order, when

* it has no `->[`, or no `] : ` after it;
* the tag is empty;
* the probability has a character other than an ASCII digit, a point, `e`, `E`, `+` or `-`, or
  is no decimal literal;
* the probability is below zero (`-0` is not);
* there are no children (words of the part between the brackets);
* the children mix words with non-terminals.

Children are read as rule file tokens (`Symbol.ofRuleToken`); the tag is kept as written.
-/

namespace Pcfg

namespace RuleFile

/-- A rule of a rule file: a production and its probability. -/
structure Rule where
  /-- The production. -/
  production : Production
  /-- Its probability. -/
  prob : Binary64
deriving DecidableEq, Repr

/-- Why a line of a rule file is refused. -/
inductive RuleError where
  /-- No `->[` after the tag. -/
  | noOpen
  /-- No `] : ` after the children. -/
  | noClose
  /-- Nothing before the `->[`. -/
  | emptyTag
  /-- The probability is not a decimal literal. -/
  | notNumber
  /-- The probability is below zero. -/
  | negative
  /-- Nothing between the brackets. -/
  | noChildren
  /-- Words and non-terminals between the brackets. -/
  | mixedChildren
deriving DecidableEq, Repr

/-- The reason as it is reported. -/
def RuleError.reason : RuleError → String
  | .noOpen => "did not find \"->[\" after the tag"
  | .noClose => "did not find \"] : \" after the children"
  | .emptyTag => "empty tag"
  | .notNumber => "probability is not a number"
  | .negative => "probability is negative"
  | .noChildren => "no children"
  | .mixedChildren => "children mix terminals and non-terminals"

/-- The text before the first occurrence of a nonempty `sep`, and the text after it. -/
def splitFirst? (sep : List Char) : List Char → Option (List Char × List Char)
  | [] => none
  | c :: cs =>
    if sep.isPrefixOf (c :: cs) then some ([], (c :: cs).drop sep.length)
    else (splitFirst? sep cs).map fun (a, b) => (c :: a, b)

/-- The probability of a rule, from its text. -/
def readProb (t : String) : Except RuleError Binary64 :=
  if Listing.NumberLike t then
    match Binary64.ofString? t with
    | some p => if p.lt (Binary64.zero false) then .error .negative else .ok p
    | none => .error .notNumber
  else .error .notNumber

/-- Reads a line of a rule file. -/
def Rule.ofLine? (line : String) : Except RuleError Rule :=
  match splitFirst? "->[".toList (Text.trimChars line.toList) with
  | none => .error .noOpen
  | some (tag, rest) =>
    match splitFirst? "] : ".toList rest with
    | none => .error .noClose
    | some (children, prob) =>
      if tag = [] then .error .emptyTag
      else
        match readProb (String.ofList prob) with
        | .error e => .error e
        | .ok p =>
          let rhs := (Text.words (String.ofList children)).map Symbol.ofRuleToken
          if rhs = [] then .error .noChildren
          else
            let production : Production := ⟨String.ofList tag, rhs⟩
            if production.Homogeneous then .ok ⟨production, p⟩ else .error .mixedChildren

end RuleFile

end Pcfg
