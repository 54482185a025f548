/-! # Doubled characters

Inside a quoted text the delimiter is written twice, and so is every character that would escape the
one after it.
-/
namespace SqlExpr.Text

def doubled (q : Char) : List Char → List Char
  | [] => []
  | c :: cs => if c = q then q :: q :: doubled q cs else c :: doubled q cs

@[simp] theorem doubled_nil (q : Char) : doubled q [] = [] := rfl

@[simp] theorem doubled_append (q : Char) (cs ds : List Char) :
    doubled q (cs ++ ds) = doubled q cs ++ doubled q ds := by
  induction cs with
  | nil => rfl
  | cons c cs ih => by_cases h : c = q <;> simp [doubled, h, ih]

theorem doubled_of_not_mem {q : Char} {cs : List Char} (h : q ∉ cs) : doubled q cs = cs := by
  induction cs with
  | nil => rfl
  | cons c cs ih =>
    obtain ⟨hc, hcs⟩ := not_or.mp fun hm => h (List.mem_cons.mpr hm)
    rw [doubled, if_neg (Ne.symm hc), ih hcs]

theorem count_doubled (q x : Char) (cs : List Char) :
    (doubled q cs).count x = (if x = q then 2 else 1) * cs.count x := by
  induction cs with
  | nil => rfl
  | cons c cs ih => by_cases h : c = q <;> by_cases hx : x = c <;> grind [doubled]

/-- The text `cs` between two `q`, with each inner `q` written twice. -/
def quoted (q : Char) (cs : List Char) : List Char := q :: doubled q cs ++ [q]

end SqlExpr.Text
