import SqlExpr.Json.Pairs
import SqlExpr.Json.Printer
import SqlExpr.Json.Scalars
import SqlExpr.Value

/-! # Formats

A format offers, for each shape of data, a way to write such data and a reader for what is written. Types
that it does not know bring texts of their own, which are then written as strings. Compact JSON is one
format.
-/
namespace SqlExpr.Json

/-- How the data of a type are written, and the reader of their texts. -/
structure Form (α : Type) where
  text : α → String
  reader : Reader α

namespace Form

variable {α β : Type}

def ofText (f : Form α) (s : String) : Except Error α := f.reader.run s

/-- Data of another type in the form of those that stand for them. -/
def imap (f : Form α) (inside : β → α) (outside : α → β) : Form β :=
  ⟨fun b => f.text (inside b), outside <$> f.reader⟩

end Form

/-- A type with texts of its own. -/
structure Textual (α : Type) where
  text : α → String
  ofText? : String → Option α

structure Format where
  unit : Form Unit
  integer : Form Int64
  float : Form Binary64
  boolean : Form Bool
  byte : Form UInt8
  string : Form String
  /-- A datum in its own text. -/
  textual : {α : Type} → (expected : String) → Textual α → Form α
  /-- A decimal in its own text, with room for so many brackets when it is read. -/
  decimal : (room : Nat) → Textual Decimal → Form Decimal
  list : {α : Type} → (expected : String) → Form α → Form (List α)
  pair : {α β : Type} → (expected : String) → Form α → Form β → Form (α × β)
  /-- A pair as a record of two fields with these names. -/
  record : {α β : Type} → (expected : String) → String × Form α → String × Form β → Form (α × β)
  /-- A datum by the name of its variant, and behind it the text of its content if it has one. -/
  variant : {α : Type} → (names : List String) → (α → String × Option String) →
    (alone withContent : String → Reader α) → Form α

def variantText (name : String) : Option String → String
  | none => stringText name
  | some content => objectText [(name, content)]

/-- JSON without white space. -/
def compact : Format where
  unit := ⟨fun _ => "null", null "unit"⟩
  integer := ⟨Value.intText, integer⟩
  float := ⟨fun x => if x.isFinite then x.text .json else "null", float⟩
  boolean := ⟨fun b => if b then "true" else "false", boolean⟩
  byte := ⟨fun b => b.toNat.repr, byte⟩
  string := ⟨stringText, text⟩
  textual expected t := ⟨fun a => stringText (t.text a), understood expected t.ofText?⟩
  decimal room t := ⟨fun d => stringText (t.text d), decimal t.ofText? room⟩
  list expected f := ⟨fun as => listText (as.map f.text), list expected (items f.reader)⟩
  pair expected f g := ⟨fun p => listText [f.text p.1, g.text p.2], pair expected f.reader g.reader⟩
  record expected f g :=
    ⟨fun p => objectText [(f.1, f.2.text p.1), (g.1, g.2.text p.2)],
      pairRecord expected (f.1, f.2.reader) (g.1, g.2.reader)⟩
  variant names tag alone withContent :=
    ⟨fun a => variantText (tag a).1 (tag a).2, variant names alone withContent⟩

end SqlExpr.Json
