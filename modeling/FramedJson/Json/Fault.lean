/-!
What can be wrong with JSON text, and where. While reading, a fault says how many bytes lie behind
its place; the place itself is a line and the number of bytes since that line began.
-/
namespace FramedJson.Json

inductive Cause
  | endInValue
  | endInList
  | endInObject
  | endInString
  | expectedValue
  | expectedWord
  | invalidNumber
  | numberOutOfRange
  | expectedListEnd
  | expectedObjectEnd
  | expectedColon
  | keyNotString
  | trailingComma
  | trailingCharacters
  | controlCharacter
  | invalidEscape
  | loneSurrogate
  | unpairedEscape
  | invalidUnicode
  | tooDeep
  deriving DecidableEq

def Cause.message : Cause → String
  | .endInValue => "EOF while parsing a value"
  | .endInList => "EOF while parsing a list"
  | .endInObject => "EOF while parsing an object"
  | .endInString => "EOF while parsing a string"
  | .expectedValue => "expected value"
  | .expectedWord => "expected ident"
  | .invalidNumber => "invalid number"
  | .numberOutOfRange => "number out of range"
  | .expectedListEnd => "expected `,` or `]`"
  | .expectedObjectEnd => "expected `,` or `\x7d`"
  | .expectedColon => "expected `:`"
  | .keyNotString => "key must be a string"
  | .trailingComma => "trailing comma"
  | .trailingCharacters => "trailing characters"
  | .controlCharacter => "control character (\\u0000-\\u001F) found while parsing a string"
  | .invalidEscape => "invalid escape"
  | .loneSurrogate => "lone leading surrogate in hex escape"
  | .unpairedEscape => "unexpected end of hex escape"
  | .invalidUnicode => "invalid unicode code point"
  | .tooDeep => "recursion limit exceeded"

/-- A fault met while reading, with the number of bytes behind its place. -/
structure Fault where
  cause : Cause
  left : Nat
  deriving DecidableEq

/-- A reading step; one that yields a value also yields the bytes behind it. -/
abbrev Scan := Except Fault

def Fault.at (cause : Cause) (bytes : List UInt8) : Fault := ⟨cause, bytes.length - 1⟩

structure SyntaxError where
  cause : Cause
  line : Nat
  column : Nat
  deriving DecidableEq

def SyntaxError.message (e : SyntaxError) : String :=
  s!"{e.cause.message} at line {e.line} column {e.column}"

def Fault.place (cause : Cause) (passed : List UInt8) : SyntaxError :=
  { cause := cause
    line := 1 + passed.count 0x0A
    column := (passed.reverse.takeWhile (· ≠ 0x0A)).length }

def Fault.locate (fault : Fault) (bytes : List UInt8) : SyntaxError :=
  place fault.cause (bytes.take (bytes.length - fault.left))

end FramedJson.Json
