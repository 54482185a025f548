import SqlExpr.Json.Numbers
import SqlExpr.Json.Strings

/-! # Values passed over

The value of a field that is not known may be any JSON value. It is read only as far as it takes to
find its end.
-/
namespace SqlExpr.Json.Skip
open Reader

inductive Bracket where
  | list
  | object
deriving DecidableEq

def Bracket.closing : Bracket → Char
  | list => ']'
  | object => '}'

def Bracket.expectedEnd : Bracket → Cause
  | list => .expectedListEnd
  | object => .expectedObjectEnd

def Bracket.endOfText : Bracket → Cause
  | list => .endOfList
  | object => .endOfObject

/-- Passes over a value that is no list and no object; gives the bracket of one that is. -/
def scalarOrBracket : Reader (Option Bracket) := do
  match ← token with
  | none => failHere .endOfValue
  | some c =>
    if c = '[' then
      advance 1
      return some .list
    if c = '{' then
      advance 1
      return some .object
    if c = 'n' then
      advance 1
      word ['u', 'l', 'l']
    else if c = 't' then
      advance 1
      word ['r', 'u', 'e']
    else if c = 'f' then
      advance 1
      word ['a', 'l', 's', 'e']
    else if c = '-' then
      advance 1
      Number.skipUnsigned
    else if c.isDigit then Number.skipUnsigned
    else if c = '"' then
      advance 1
      skipChars
    else failHere .expectedValue
    return none

/-- Closes brackets, the innermost first, up to a comma or to the start of a value. Gives the brackets
that are open then. A comma may come only behind a value. -/
def closeBrackets (behindValue : Bool) : List Bracket → Reader (List Bracket)
  | [] => return []
  | bracket :: outer => do
    match ← token with
    | none => failHere bracket.endOfText
    | some c =>
      if c = ',' ∧ behindValue then
        advance 1
        return bracket :: outer
      else if c = bracket.closing then
        advance 1
        closeBrackets true outer
      else if behindValue then failHere bracket.expectedEnd
      else return bracket :: outer

def skipKey : Reader Unit := do
  match ← token with
  | none => failHere .endOfObject
  | some c =>
    if c ≠ '"' then failHere .keyNotString
    else
      advance 1
      skipChars
      match ← token with
      | none => failHere .endOfObject
      | some c => if c = ':' then advance 1 else failHere .expectedColon

/-- Passes over a value and what follows it in the open brackets. Each round reads a character at
least, so the length of the rest bounds the rounds. -/
def skipIn : Nat → List Bracket → Reader Unit
  | 0, _ => return
  | fuel + 1, brackets => do
    let opened ← scalarOrBracket
    let brackets ← match opened with
      | some bracket => closeBrackets false (bracket :: brackets)
      | none => closeBrackets true brackets
    match brackets with
    | [] => return
    | bracket :: _ =>
      if bracket = .object then skipKey
      skipIn fuel brackets

def value : Reader Unit := do skipIn ((← rest).length + 1) []

end SqlExpr.Json.Skip
