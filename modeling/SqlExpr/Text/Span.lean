/-! # Tables of code points

A property of characters is written as the list of its maximal runs of code points.
-/
namespace SqlExpr.Text

/-- The first and the last code point of a run. -/
abbrev Span := Nat × Nat

def inSpans (spans : List Span) (c : Char) : Bool :=
  spans.any fun s => s.1 ≤ c.toNat && c.toNat ≤ s.2

theorem inSpans_iff {spans : List Span} {c : Char} :
    inSpans spans c = true ↔ ∃ s ∈ spans, s.1 ≤ c.toNat ∧ c.toNat ≤ s.2 := by
  simp [inSpans]

end SqlExpr.Text
