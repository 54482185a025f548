/-! # Texts that are not empty

Raw fragments, qualifiers and aliases are words: where one is missing there is none, never an empty
text.
-/
namespace SqlExpr

structure Word where
  text : String
  ne_empty : text ≠ ""
deriving DecidableEq

namespace Word

theorem toList_inj {w w' : Word} (h : w.text.toList = w'.text.toList) : w = w' := by
  obtain ⟨s, hs⟩ := w
  obtain ⟨t, ht⟩ := w'
  obtain rfl : s = t := String.toList_inj.mp h
  rfl

def ofText? (s : String) : Option Word :=
  if h : s = "" then none else some ⟨s, h⟩

@[simp] theorem ofText?_empty : ofText? "" = none := rfl

theorem ofText?_of_ne {s : String} (h : s ≠ "") : ofText? s = some ⟨s, h⟩ := by
  simp [ofText?, h]

@[simp] theorem ofText?_text (w : Word) : ofText? w.text = some w :=
  ofText?_of_ne w.ne_empty

def textD (w : Option Word) : String := (w.map text).getD ""

@[simp] theorem textD_none : textD none = "" := rfl

@[simp] theorem textD_some (w : Word) : textD (some w) = w.text := rfl

@[simp] theorem textD_ofText? (s : String) : textD (ofText? s) = s := by
  by_cases h : s = ""
  · subst h; rfl
  · simp [ofText?_of_ne h]

end Word

end SqlExpr
