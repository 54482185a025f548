import SqlExpr.Json.Reader

/-! # JSON strings

Writing escapes the quote, the backslash and the control characters and nothing else. Reading
understands every escape; one outside the basic plane is a pair of two, the first half of which may not
stand alone, nor the second.
-/
namespace SqlExpr.Json

/-! ## Writing -/

def escapedChar (c : Char) : List Char :=
  if c = '"' then ['\\', '"']
  else if c = '\\' then ['\\', '\\']
  else if c = '\n' then ['\\', 'n']
  else if c = '\r' then ['\\', 'r']
  else if c = '\t' then ['\\', 't']
  else if c.toNat = 8 then ['\\', 'b']
  else if c.toNat = 12 then ['\\', 'f']
  else if c.toNat < 32 then
    ['\\', 'u', '0', '0', Nat.digitChar (c.toNat / 16), Nat.digitChar (c.toNat % 16)]
  else [c]

def stringText (s : String) : String :=
  String.ofList ('"' :: s.toList.flatMap escapedChar ++ ['"'])

/-! ## Reading -/

def hexValue? (c : Char) : Option Nat :=
  if c.isDigit then some (c.toNat - 48)
  else if 'a' ≤ c ∧ c ≤ 'f' then some (c.toNat - 87)
  else if 'A' ≤ c ∧ c ≤ 'F' then some (c.toNat - 55)
  else none

/-- A reason to stop, with the number of bytes from here to its place. -/
abbrev Fault := Cause × Nat

/-- Four hexadecimal digits at the start of a text, which must have four bytes for them. -/
def hexUnit (cs : List Char) : Except Fault Nat :=
  if Cursor.byteSize (cs.take 4) < 4 then .error (.endOfString, Cursor.byteSize cs)
  else match cs with
    | a :: b :: c :: d :: _ =>
      match hexValue? a, hexValue? b, hexValue? c, hexValue? d with
      | some a, some b, some c, some d => .ok (((a * 16 + b) * 16 + c) * 16 + d)
      | _, _, _, _ => .error (.invalidEscape, 4)
    | _ => .error (.invalidEscape, 4)

def isLeading (unit : Nat) : Bool := 0xD800 ≤ unit && unit ≤ 0xDBFF

def isTrailing (unit : Nat) : Bool := 0xDC00 ≤ unit && unit ≤ 0xDFFF

def pairedChar (leading trailing : Nat) : Char :=
  Char.ofNat (0x10000 + (leading - 0xD800) * 0x400 + (trailing - 0xDC00))

/-- A place counted from `n` characters of one byte earlier on. -/
def faultAfter {α : Type} (n : Nat) : Except Fault α → Except Fault α
  | .ok a => .ok a
  | .error f => .error (f.1, n + f.2)

/-- The escape that the text behind a leading half must start with. -/
def trailingUnit (cs : List Char) : Except Fault Nat :=
  match cs with
  | [] => .error (.endOfString, 0)
  | '\\' :: cs =>
    match cs with
    | [] => .error (.endOfString, 1)
    | 'u' :: cs => do
      let unit ← faultAfter 2 (hexUnit cs)
      if isTrailing unit then .ok unit else .error (.loneSurrogate, 6)
    | _ => .error (.unfinishedSurrogate, 2)
  | _ => .error (.unfinishedSurrogate, 1)

/-- The character of an escape by number and the count of characters that write it, both behind the
`u`. -/
def unicodeEscape (cs : List Char) : Except Fault (Char × Nat) := do
  let unit ← hexUnit cs
  if isTrailing unit then .error (.loneSurrogate, 4)
  else if isLeading unit then
    let trailing ← faultAfter 4 (trailingUnit (cs.drop 4))
    .ok (pairedChar unit trailing, 10)
  else .ok (Char.ofNat unit, 4)

def simpleEscape? (c : Char) : Option Char :=
  match c with
  | '"' => some '"'
  | '\\' => some '\\'
  | '/' => some '/'
  | 'b' => some (Char.ofNat 8)
  | 'f' => some (Char.ofNat 12)
  | 'n' => some '\n'
  | 'r' => some '\r'
  | 't' => some '\t'
  | _ => none

def escape : List Char → Except Fault (Char × Nat)
  | [] => .error (.endOfString, 0)
  | 'u' :: cs => do
    let (c, n) ← faultAfter 1 (unicodeEscape cs)
    .ok (c, n + 1)
  | c :: _ =>
    match simpleEscape? c with
    | some e => .ok (e, 1)
    | none => .error (.invalidEscape, 1)

/-- An escape that is passed over: four digits are enough after a `u`. -/
def skippedEscape : List Char → Except Fault Nat
  | [] => .error (.endOfString, 0)
  | 'u' :: cs => do
    let _ ← faultAfter 1 (hexUnit cs)
    .ok 5
  | c :: _ => if (simpleEscape? c).isSome then .ok 1 else .error (.invalidEscape, 1)

def stringChars (c : Cursor) : EStateM.Result Error Cursor (List Char) :=
  match _h : c.after with
  | [] => Reader.fail .endOfString c
  | '"' :: _ => .ok [] (c.skip 1)
  | '\\' :: cs =>
    match escape cs with
    | .error (cause, bytes) => Reader.failAhead cause (1 + bytes) c
    | .ok (e, n) =>
      match stringChars (c.skip (n + 1)) with
      | .ok s c => .ok (e :: s) c
      | .error e c => .error e c
  | d :: _ =>
    if d.toNat < 32 then Reader.failHere .controlCharacter c
    else
      match stringChars (c.skip 1) with
      | .ok s c => .ok (d :: s) c
      | .error e c => .error e c
termination_by c.after.length
decreasing_by
  · exact Cursor.length_after_skip_succ _h
  · exact Cursor.length_after_skip_succ _h

/-- Passes over the characters of a string and its closing quote. A control character is an error in
front of it. -/
def skipChars (c : Cursor) : EStateM.Result Error Cursor Unit :=
  match _h : c.after with
  | [] => Reader.fail .endOfString c
  | '"' :: _ => .ok () (c.skip 1)
  | '\\' :: cs =>
    match skippedEscape cs with
    | .error (cause, bytes) => Reader.failAhead cause (1 + bytes) c
    | .ok n => skipChars (c.skip (n + 1))
  | d :: _ =>
    if d.toNat < 32 then Reader.fail .controlCharacter c else skipChars (c.skip 1)
termination_by c.after.length
decreasing_by
  · exact Cursor.length_after_skip_succ _h
  · exact Cursor.length_after_skip_succ _h

def quotedString : Reader String := do
  Reader.advance 1
  return String.ofList (← stringChars)

end SqlExpr.Json
