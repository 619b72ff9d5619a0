/-!
# Pattern errors

The ways in which a pattern source can fail to be a pattern, with their messages. The last one is
not about its form: the program of the pattern would be too large.
-/

namespace PairGrep.Pattern

inductive Error where
  | groupUnclosed
  | groupUnopened
  | classUnclosed
  | countUnclosed
  | rangeInvalid
  | rangeBoundary
  | classEscape
  | operandMissing
  | countMissing
  | countOrder
  | decimalInvalid
  | escapeUnfinished
  | escapeUnknown
  | hexEmpty
  | hexNoCharacter
  | hexDigit
  | negationDangling
  | flagDuplicate
  | negationRepeated
  | flagUnfinished
  | flagUnknown
  | nameDuplicate
  | nameEmpty
  | nameCharacter
  | nameUnclosed
  | nestingTooDeep
  | boundaryUnclosed
  | boundaryUnknown
  | boundaryOrCount
  | propertyForm
  | propertyUnknown
  | propertyValueUnknown
  | unicodeOff
  | invalidUtf8
  | backreference
  | lookAround
  | tooLarge
  deriving DecidableEq, Repr

def nestLimit : Nat := 250

/-- How many bytes the program of a pattern may take. -/
def sizeLimit : Nat := 10485760

namespace Error

def message : Error → String
  | groupUnclosed => "unclosed group"
  | groupUnopened => "unopened group"
  | classUnclosed => "unclosed character class"
  | countUnclosed => "unclosed counted repetition"
  | rangeInvalid => "invalid character class range, the start must be <= the end"
  | rangeBoundary => "invalid range boundary, must be a literal"
  | classEscape => "invalid escape sequence found in character class"
  | operandMissing => "repetition operator missing expression"
  | countMissing => "repetition quantifier expects a valid decimal"
  | countOrder => "invalid repetition count range, the start must be <= the end"
  | decimalInvalid => "decimal literal invalid"
  | escapeUnfinished => "incomplete escape sequence, reached end of pattern prematurely"
  | escapeUnknown => "unrecognized escape sequence"
  | hexEmpty => "hexadecimal literal empty"
  | hexNoCharacter => "hexadecimal literal is not a Unicode scalar value"
  | hexDigit => "invalid hexadecimal digit"
  | negationDangling => "dangling flag negation operator"
  | flagDuplicate => "duplicate flag"
  | negationRepeated => "flag negation operator repeated"
  | flagUnfinished => "expected flag but got end of regex"
  | flagUnknown => "unrecognized flag"
  | nameDuplicate => "duplicate capture group name"
  | nameEmpty => "empty capture group name"
  | nameCharacter => "invalid capture group character"
  | nameUnclosed => "unclosed capture group name"
  | nestingTooDeep =>
    "exceed the maximum number of nested parentheses/brackets (" ++ toString nestLimit ++ ")"
  | boundaryUnclosed =>
    "special word boundary assertion is either unclosed or contains an invalid character"
  | boundaryUnknown =>
    "unrecognized special word boundary assertion, valid choices are: start, end, start-half or " ++
      "end-half"
  | boundaryOrCount =>
    "found either the beginning of a special word boundary or a bounded repetition on a \\b " ++
      "with an opening brace, but no closing brace"
  | propertyForm => "invalid Unicode character class"
  | propertyUnknown => "Unicode property not found"
  | propertyValueUnknown => "Unicode property value not found"
  | unicodeOff => "Unicode not allowed here"
  | invalidUtf8 => "pattern can match invalid UTF-8"
  | backreference => "backreferences are not supported"
  | lookAround => "look-around, including look-ahead and look-behind, is not supported"
  | tooLarge => "Compiled regex exceeds size limit of " ++ toString sizeLimit ++ " bytes."

end Error

end PairGrep.Pattern
