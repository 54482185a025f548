import SqlExpr.Text.Alphanumeric

/-! # Fragments that stand alone

A fragment of SQL text may be an operand as it is when it is one token, one quoted constant or one
group in parentheses; any other fragment needs parentheses. All three are decided on the text alone,
and quotes are understood as `'` with `''` for a quote inside.
-/
namespace SqlExpr.Fragment
open Text

def isNameChar (c : Char) : Bool :=
  isAlphanumeric c || c == '_' || c == '.' || c == '$' || c == '?'

/-- The text after a minus sign that a digit follows, else the whole text. -/
def unsignedPart : List Char → List Char
  | '-' :: d :: cs => if d.isDigit then d :: cs else '-' :: d :: cs
  | cs => cs

/-- A number, a dotted name or a placeholder, such as `-1.5`, `t.col`, `?` and `$3`. -/
def isName (cs : List Char) : Bool :=
  !(unsignedPart cs).isEmpty && (unsignedPart cs).all isNameChar

/-- Every quote comes with a second one right behind it. -/
def hasPairedQuotes : List Char → Bool
  | [] => true
  | '\'' :: '\'' :: cs => hasPairedQuotes cs
  | c :: cs => c != '\'' && hasPairedQuotes cs

def withoutLetter : List Char → List Char
  | [] => []
  | c :: cs => if c.isAlpha then cs else c :: cs

/-- One quoted constant, with at most one ASCII letter before it, such as `'it''s'` and `X'ff'`. -/
def isConstant (cs : List Char) : Bool :=
  match withoutLetter cs with
  | '\'' :: inner => inner.getLast? == some '\'' && hasPairedQuotes inner.dropLast
  | _ => false

/-- The texts before and after the first double colon. -/
def splitCast : List Char → Option (List Char × List Char)
  | [] => none
  | ':' :: ':' :: cs => some ([], cs)
  | c :: cs => (splitCast cs).map fun p => (c :: p.1, p.2)

def beforeStar? (cs : List Char) : Option (List Char) :=
  match cs.reverse with
  | '*' :: '.' :: base => some base.reverse
  | _ => none

/-- A name, `*`, `t.*`, or a name or quoted constant cast to a named type. A final `.*` is looked for
first and the first double colon next; what is found there settles the answer. -/
def isToken (cs : List Char) : Bool :=
  if cs = ['*'] then true
  else match beforeStar? cs with
    | some base => isName base
    | none =>
      match splitCast cs with
      | some (value, type) => (isName value || isConstant value) && isName type
      | none => isName cs

/-- Reads to the end with the given number of open groups, inside a quoted text or not, and succeeds
when all is closed there and no group that was open at the outside is closed before. -/
def closesAtEnd : Nat → Bool → List Char → Bool
  | depth, inQuote, [] => depth == 0 && !inQuote
  | depth, inQuote, c :: cs =>
    if c = '\'' then closesAtEnd depth (!inQuote) cs
    else if inQuote then closesAtEnd depth true cs
    else if c = '(' then closesAtEnd (depth + 1) false cs
    else if c = ')' then (depth - 1 != 0 || cs.isEmpty) && closesAtEnd (depth - 1) false cs
    else closesAtEnd depth false cs

/-- The parenthesis at the start is closed by the one at the end. -/
def isGroup (cs : List Char) : Bool :=
  cs.head? == some '(' && cs.getLast? == some ')' && closesAtEnd 0 false cs

def standsAlone (cs : List Char) : Bool :=
  cs.isEmpty || isToken cs || isConstant cs || isGroup cs

def parenthesized (s : String) : String := "(" ++ s ++ ")"

/-- The fragment as an operand: in parentheses unless it stands alone. -/
def operand (s : String) : String :=
  if standsAlone s.toList then s else parenthesized s

theorem operand_of_standsAlone {s : String} (h : standsAlone s.toList = true) : operand s = s := by
  simp [operand, h]

theorem operand_of_not_standsAlone {s : String} (h : standsAlone s.toList = false) :
    operand s = parenthesized s := by
  simp [operand, h]

theorem parenthesized_ne_self (s : String) : parenthesized s ≠ s := by
  intro h
  have hl := congrArg String.length h
  have hone : "(".length = 1 := rfl
  simp only [parenthesized, String.length_append] at hl
  omega

theorem operand_eq_self_iff {s : String} : operand s = s ↔ standsAlone s.toList = true := by
  cases hs : standsAlone s.toList with
  | true => simp [operand_of_standsAlone hs]
  | false => simp [operand_of_not_standsAlone hs, parenthesized_ne_self s]

theorem operand_eq_parenthesized_iff {s : String} :
    operand s = parenthesized s ↔ standsAlone s.toList = false := by
  cases hs : standsAlone s.toList with
  | true => simp [operand_of_standsAlone hs, (parenthesized_ne_self s).symm]
  | false => simp [operand_of_not_standsAlone hs]

@[simp] theorem operand_empty : operand "" = "" := rfl

theorem operand_eq_empty_iff {s : String} : operand s = "" ↔ s = "" := by
  constructor
  · intro h
    by_cases hs : standsAlone s.toList = true
    · rwa [operand_of_standsAlone hs] at h
    · rw [operand_of_not_standsAlone (by simpa using hs)] at h
      have := congrArg String.toList h
      simp [parenthesized] at this
  · rintro rfl; rfl

def qualified (qualifier name : String) : String :=
  if qualifier = "" then name else qualifier ++ "." ++ name

def aliased (s label : String) : String :=
  if label = "" then s else s ++ " AS " ++ label

@[simp] theorem qualified_empty (name : String) : qualified "" name = name := rfl

@[simp] theorem aliased_empty (s : String) : aliased s "" = s := rfl

theorem aliased_eq_append (s label : String) : aliased s label = s ++ aliased "" label := by
  unfold aliased
  split
  · exact s.append_empty.symm
  · simp [String.append_assoc]

end SqlExpr.Fragment
