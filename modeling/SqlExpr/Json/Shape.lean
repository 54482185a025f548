import SqlExpr.Json.Numbers
import SqlExpr.Json.Skip
import SqlExpr.Json.Strings
import SqlExpr.Number.FloatText
import SqlExpr.Text.Shown

/-! # Readers for the shapes of values

A value of a certain type is expected as a JSON value of a certain shape: a word, a number, a string, a
list, a record with named fields, or one of several variants by name. A value of another shape is read
far enough to name it in the error.
-/
namespace SqlExpr.Json
open Reader

/-- So many brackets may be open at once. -/
def greatestNesting : Nat := 127

/-! ## Other shapes -/

def Number.shown : Number → String
  | natural n => "integer " ++ Cause.quotedName n.repr
  | negative n => "integer " ++ Cause.quotedName ("-" ++ n.repr)
  | float x => "floating point " ++ Cause.quotedName (x.text .json)

/-- The error of a value that has not the expected shape. It stands behind the value, but before one
in brackets. -/
def mismatch {α : Type} (expected : String) : Reader α := located do
  let refused {α : Type} (found : String) : Reader α := refuse (.wrongType found expected)
  match ← peek with
  | some 'n' =>
    advance 1
    word ['u', 'l', 'l']
    refused "null"
  | some 't' =>
    advance 1
    word ['r', 'u', 'e']
    refused ("boolean " ++ Cause.quotedName "true")
  | some 'f' =>
    advance 1
    word ['a', 'l', 's', 'e']
    refused ("boolean " ++ Cause.quotedName "false")
  | some '"' =>
    let s ← quotedString
    refused ("string " ++ Text.shown s)
  | some '[' => refused "sequence"
  | some '{' => refused "map"
  | some c =>
    if c = '-' ∨ c.isDigit then
      let n ← Number.read
      refused n.shown
    else failHere .expectedValue
  | none => failHere .expectedValue

def firstOfValue : Reader Char := do
  match ← token with
  | some c => return c
  | none => failHere .endOfValue

/-! ## Words, numbers and strings -/

def null (expected : String) : Reader Unit := do
  if (← firstOfValue) = 'n' then
    advance 1
    word ['u', 'l', 'l']
  else mismatch expected

def boolean : Reader Bool := do
  let c ← firstOfValue
  if c = 't' then
    advance 1
    word ['r', 'u', 'e']
    return true
  else if c = 'f' then
    advance 1
    word ['a', 'l', 's', 'e']
    return false
  else mismatch "a boolean"

def number {α : Type} (expected : String) (accept : Number → Except Cause α) : Reader α := do
  let c ← firstOfValue
  if c = '-' ∨ c.isDigit then located do
    match accept (← Number.read) with
    | .ok a => return a
    | .error cause => refuse cause
  else mismatch expected

def string {α : Type} (expected : String) (accept : String → Except Cause α) : Reader α := do
  if (← firstOfValue) = '"' then located do
    match accept (← quotedString) with
    | .ok a => return a
    | .error cause => refuse cause
  else mismatch expected

/-! ## Lists -/

def nextItem (isFirst : Bool) : Reader Bool := do
  match ← token with
  | none => failHere .endOfList
  | some c =>
    if c = ']' then return false
    else if isFirst then return true
    else if c = ',' then
      advance 1
      match ← token with
      | none => failHere .endOfValue
      | some c => if c = ']' then failHere .trailingComma else return true
    else failHere .expectedListEnd

def closeList : Reader Unit := do
  match ← token with
  | none => failHere .endOfList
  | some c =>
    if c = ']' then advance 1
    else if c = ',' then
      advance 1
      if (← token) = some ']' then failHere .trailingComma else failHere .trailingCharacters
    else failHere .trailingCharacters

/-- All items up to the closing bracket. Each takes a character at least, so the length of the rest
bounds their number. -/
def itemsUpTo {α : Type} (item : Reader α) : Nat → Bool → Reader (List α)
  | 0, _ => return []
  | fuel + 1, isFirst => do
    if ← nextItem isFirst then
      let a ← item
      return a :: (← itemsUpTo item fuel false)
    else return []

def items {α : Type} (item : Reader α) : Reader (List α) := do
  itemsUpTo item ((← rest).length + 1) true

/-- A list whose items the given reader takes, the opening bracket being read. -/
def list {α : Type} (expected : String) (content : Reader α) : Reader α := do
  if (← firstOfValue) = '[' then
    located (closedBy (do advance 1; content) closeList)
  else mismatch expected

/-! ## Records -/

def nextField (isFirst : Bool) : Reader (Option String) := do
  match ← token with
  | none => failHere .endOfObject
  | some c =>
    if c = '}' then return none
    else if isFirst then
      if c = '"' then return some (← quotedString) else failHere .keyNotString
    else if c = ',' then
      advance 1
      match ← token with
      | none => failHere .endOfValue
      | some c =>
        if c = '"' then return some (← quotedString)
        else if c = '}' then failHere .trailingComma
        else failHere .keyNotString
    else failHere .expectedObjectEnd

def closeObject : Reader Unit := do
  match ← token with
  | none => failHere .endOfObject
  | some c =>
    if c = '}' then advance 1
    else if c = ',' then failHere .trailingComma
    else failHere .trailingCharacters

def colon : Reader Unit := do
  match ← token with
  | none => failHere .endOfObject
  | some c => if c = ':' then advance 1 else failHere .expectedColon

def fieldsUpTo {σ : Type} (field : σ → String → Reader σ) : Nat → Bool → σ → Reader σ
  | 0, _, s => return s
  | fuel + 1, isFirst, s => do
    match ← nextField isFirst with
    | some name => fieldsUpTo field fuel false (← field s name)
    | none => return s

def fields {σ : Type} (field : σ → String → Reader σ) (s : σ) : Reader σ := do
  fieldsUpTo field ((← rest).length + 1) true s

def onceField {α : Type} (name : String) (known : Option α) (content : Reader α) : Reader α :=
  if known.isSome then refuse (.duplicateField name)
  else do
    colon
    content

/-- The value of a field that is not known does not matter. -/
def unknownField : Reader Unit := do
  colon
  Skip.value

/-- A record, written as a list of its values in order or as an object of its fields. -/
def record {α : Type} (expected : String) (ofList ofObject : Reader α) : Reader α := do
  let c ← firstOfValue
  if c = '[' then located (closedBy (do advance 1; ofList) closeList)
  else if c = '{' then located (closedBy (do advance 1; ofObject) closeObject)
  else mismatch expected

/-- An object that holds one value under the given key. The key counts only as it stands, without
escapes. -/
def wrapped {α : Type} (expected key : String) (content : Reader α) : Reader α :=
  located (closedBy (do
    advance 1
    let _ ← token
    let written := (stringText key).toList
    if written.isPrefixOf (← rest) then
      advance written.length
      colon
      content
    else refuse (.wrongType "map" expected)) closeObject)

/-! ## Variants -/

def variantName (names : List String) : Reader String :=
  string "variant identifier" fun name =>
    if name ∈ names then .ok name else .error (.unknownVariant name names)

def variantKey (names : List String) : Reader String := do
  match ← token with
  | none => failHere .endOfObject
  | some c =>
    if c = '"' then
      let name ← variantName names
      colon
      return name
    else if c = '}' then failHere .expectedValue
    else failHere .keyNotString

/-- One of several variants: its name alone, or an object with the name as its only key. -/
def variant {α : Type} (names : List String) (alone withContent : String → Reader α) : Reader α := do
  match ← token with
  | none => failHere .endOfValue
  | some c =>
    if c = '{' then
      advance 1
      let a ← withContent (← variantKey names)
      match ← token with
      | none => fail .endOfObject
      | some c =>
        if c = '}' then
          advance 1
          return a
        else fail .expectedValue
    else if c = '"' then alone (← variantName names)
    else failHere .expectedValue

end SqlExpr.Json
