import SqlExpr.Json.Error

/-! # Reading a text

A cursor stands between the characters read and those still to come. A reader moves it and gives a
result or an error; the cursor stays where the error left it, for the place of an error may be settled
only later. Places are counted in bytes of UTF-8.
-/
namespace SqlExpr.Json

structure Cursor where
  /-- The characters read, the last one first. -/
  before : List Char
  after : List Char
deriving DecidableEq

namespace Cursor

def ofText (s : String) : Cursor := ⟨[], s.toList⟩

def byteSize (cs : List Char) : Nat := (String.ofList cs).utf8ByteSize

def position (c : Cursor) : Position where
  line := 1 + c.before.count '\n'
  column := byteSize (c.before.takeWhile (· != '\n'))

/-- The position `bytes` further on, or that of the end; it may fall into a character. -/
def positionAfter : Nat → List Char → Position → Position
  | _, [], p => p
  | bytes, c :: cs, p =>
    if bytes < c.utf8Size then { p with column := p.column + bytes }
    else positionAfter (bytes - c.utf8Size) cs
      (if c = '\n' then ⟨p.line + 1, 0⟩ else { p with column := p.column + c.utf8Size })

def positionAhead (c : Cursor) (bytes : Nat) : Position := positionAfter bytes c.after c.position

def skip : Nat → Cursor → Cursor
  | n + 1, ⟨before, c :: after⟩ => skip n ⟨c :: before, after⟩
  | _, c => c

@[simp] theorem after_skip (n : Nat) (c : Cursor) : (c.skip n).after = c.after.drop n := by
  induction n generalizing c with
  | zero => simp [skip]
  | succ n ih =>
    obtain ⟨before, after⟩ := c
    cases after with
    | nil => simp [skip]
    | cons d after => simp [skip, ih]

theorem length_after_skip_succ {n : Nat} {c : Cursor} {d : Char} {ds : List Char}
    (h : c.after = d :: ds) : (c.skip (n + 1)).after.length < c.after.length := by
  simp only [after_skip, List.length_drop, h, List.length_cons]
  omega

end Cursor

abbrev Reader := EStateM Error Cursor

namespace Reader

def fail {α : Type} (cause : Cause) : Reader α := fun c => .error ⟨cause, some c.position⟩ c

/-- An error at the given number of bytes behind the cursor, or at the end of the text. -/
def failAhead {α : Type} (cause : Cause) (bytes : Nat) : Reader α :=
  fun c => .error ⟨cause, some (c.positionAhead bytes)⟩ c

def failHere {α : Type} (cause : Cause) : Reader α := failAhead cause 1

/-- An error whose place is not settled yet. -/
def refuse {α : Type} (cause : Cause) : Reader α := throw ⟨cause, none⟩

def located {α : Type} (p : Reader α) : Reader α := fun c =>
  match p c with
  | .ok a c => .ok a c
  | .error e c => .error (e.locate c.position) c

def peek : Reader (Option Char) := fun c => .ok c.after.head? c

def advance (n : Nat) : Reader Unit := fun c => .ok () (c.skip n)

def rest : Reader (List Char) := fun c => .ok c.after c

def isSpace (c : Char) : Bool := c == ' ' || c == '\n' || c == '\t' || c == '\r'

/-- The next character that is not white space, left in place. -/
def token : Reader (Option Char) := do
  advance ((← rest).takeWhile isSpace).length
  peek

def word : List Char → Reader Unit
  | [] => pure ()
  | w :: ws => do
    match ← peek with
    | none => fail .endOfValue
    | some c => if c = w then advance 1; word ws else failHere .expectedWord

/-- What closes a bracket is read also behind an error, which stands. -/
def closedBy {α : Type} (p : Reader α) (close : Reader Unit) : Reader α := fun c =>
  match p c with
  | .ok a c => (close.map fun _ => a) c
  | .error e c =>
    match close c with
    | .ok _ c => .error e c
    | .error _ c => .error e c

def finish : Reader Unit := do
  if (← token).isSome then failHere .trailingCharacters

def run {α : Type} (p : Reader α) (s : String) : Except Error α :=
  match (do let a ← p; finish; return a : Reader α) (.ofText s) with
  | .ok a _ => .ok a
  | .error e _ => .error e

end Reader

end SqlExpr.Json
