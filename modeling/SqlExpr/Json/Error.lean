/-! # Errors of JSON texts

A text may end too early, may not be JSON where JSON was needed, or may be JSON that does not have the
expected form. An error knows its cause and, once that is settled, its place: the line, counted from
one, and the number of bytes of that line up to the place.
-/
namespace SqlExpr.Json

structure Position where
  line : Nat
  column : Nat
deriving DecidableEq

inductive Category where
  | eof
  | grammar
  | data
deriving DecidableEq

inductive Cause where
  | endOfList
  | endOfObject
  | endOfString
  | endOfValue
  | expectedColon
  | expectedListEnd
  | expectedObjectEnd
  | expectedWord
  | expectedValue
  | invalidEscape
  | invalidNumber
  | numberOutOfRange
  | controlCharacter
  | keyNotString
  | loneSurrogate
  | unfinishedSurrogate
  | nestedTooDeeply
  | trailingComma
  | trailingCharacters
  | wrongType (found expected : String)
  | wrongValue (expected : String)
  | wrongLength (length : Nat) (expected : String)
  | unknownVariant (name : String) (names : List String)
  | duplicateField (name : String)
  | missingField (name : String)
deriving DecidableEq

namespace Cause

def category : Cause → Category
  | endOfList | endOfObject | endOfString | endOfValue => .eof
  | wrongType .. | wrongValue _ | wrongLength .. | unknownVariant .. | duplicateField _
  | missingField _ => .data
  | _ => .grammar

def quotedName (name : String) : String := "`" ++ name ++ "`"

def message : Cause → String
  | endOfList => "EOF while parsing a list"
  | endOfObject => "EOF while parsing an object"
  | endOfString => "EOF while parsing a string"
  | endOfValue => "EOF while parsing a value"
  | expectedColon => "expected " ++ quotedName ":"
  | expectedListEnd => "expected " ++ quotedName "," ++ " or " ++ quotedName "]"
  | expectedObjectEnd => "expected " ++ quotedName "," ++ " or " ++ quotedName "\x7d"
  | expectedWord => "expected ident"
  | expectedValue => "expected value"
  | invalidEscape => "invalid escape"
  | invalidNumber => "invalid number"
  | numberOutOfRange => "number out of range"
  | controlCharacter =>
    "control character (\\u0000-\\u001F) found while parsing a string"
  | keyNotString => "key must be a string"
  | loneSurrogate => "lone leading surrogate in hex escape"
  | unfinishedSurrogate => "unexpected end of hex escape"
  | nestedTooDeeply => "recursion limit exceeded"
  | trailingComma => "trailing comma"
  | trailingCharacters => "trailing characters"
  | wrongType found expected => "invalid type: " ++ found ++ ", expected " ++ expected
  | wrongValue expected => "invalid value: expected " ++ expected
  | wrongLength length expected =>
    "invalid length " ++ length.repr ++ ", expected " ++ expected
  | unknownVariant name names =>
    "unknown variant " ++ quotedName name ++ ", expected one of " ++
      ", ".intercalate (names.map quotedName)
  | duplicateField name => "duplicate field " ++ quotedName name
  | missingField name => "missing field " ++ quotedName name

end Cause

structure Error where
  cause : Cause
  position : Option Position
deriving DecidableEq

namespace Error

def category (e : Error) : Category := e.cause.category

/-- An error without a place gets this one. -/
def locate (p : Position) (e : Error) : Error := { e with position := some (e.position.getD p) }

def message (e : Error) : String :=
  match e.position with
  | none => e.cause.message
  | some p =>
    e.cause.message ++ " at line " ++ p.line.repr ++ " column " ++ p.column.repr

end Error

end SqlExpr.Json
