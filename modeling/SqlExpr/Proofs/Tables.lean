import SqlExpr.Proofs.Conjunction

/-! # Which tables are collected

Adding names one by one puts behind the names that were known the new ones among them, each where it is
seen first. The walk over an expression therefore adds the qualifiers of its columns in this way, and
the names that it added are known to every later walk.
-/
namespace SqlExpr

/-- The names that are not known, each at its first place. -/
def newNames (known names : List String) : List String := (names.filter (· ∉ known)).eraseDups

theorem newNames_cons_of_mem {known : List String} {name : String} (h : name ∈ known)
    (names : List String) : newNames known (name :: names) = newNames known names := by
  simp [newNames, h]

theorem newNames_cons_of_not_mem {known : List String} {name : String} (h : name ∉ known)
    (names : List String) :
    newNames known (name :: names) = name :: newNames (known ++ [name]) names := by
  have hf : names.filter (· ∉ known ++ [name]) =
      (names.filter (· ∉ known)).filter fun x => !x == name := by
    rw [List.filter_filter]
    apply List.filter_congr
    intro x _
    simp [not_or, and_comm, beq_eq_decide]
  rw [newNames, newNames, hf, List.filter_cons_of_pos (by simpa using h), List.eraseDups_cons]

theorem newNames_of_subset {known names : List String} (h : names ⊆ known) :
    newNames known names = [] := by
  have hf : names.filter (· ∉ known) = [] := by
    rw [List.filter_eq_nil_iff]
    intro x hx
    simpa using h hx
  rw [newNames, hf]
  rfl

theorem mem_append_newNames {known names : List String} {name : String} :
    name ∈ known ++ newNames known names ↔ name ∈ known ∨ name ∈ names := by
  simp only [newNames, List.mem_append, List.mem_eraseDups, List.mem_filter, decide_eq_true_eq]
  tauto

theorem foldl_addName (known names : List String) :
    names.foldl addName known = known ++ newNames known names := by
  induction names generalizing known with
  | nil => simp [newNames]
  | cons name names ih =>
    rw [List.foldl_cons, ih, addName]
    by_cases h : name ∈ known
    · rw [if_pos h, newNames_cons_of_mem h]
    · rw [if_neg h, newNames_cons_of_not_mem h, List.append_assoc]
      rfl

namespace Expr

theorem addTables_eq_append (e : Expr) (known : List String) :
    e.addTables known = known ++ newNames known e.qualifiers := by
  rw [addTables_eq_foldl, foldl_addName]

theorem addTables_addTables (e : Expr) (known : List String) :
    e.addTables (e.addTables known) = e.addTables known := by
  have h : e.qualifiers ⊆ e.addTables known := by
    intro name hn
    rw [addTables_eq_append]
    exact mem_append_newNames.mpr (.inr hn)
  rw [addTables_eq_append e (e.addTables known), newNames_of_subset h, List.append_nil]

/-- The tables of an expression are put behind those known: its qualifiers from left to right, without
the names that were known and without repetitions. Filters by key are walked as the conjunctions that
they stand for, a second walk finds nothing new, and two walks are one over both expressions. -/
theorem addTables_collects_qualifiers :
    (∀ (e : Expr) (known : List String),
      e.addTables known = known ++ (e.qualifiers.filter (· ∉ known)).eraseDups) ∧
    (∀ f : KeyFilter, (keyFilter f).qualifiers = f.conjunction.qualifiers ∧
      ∀ known, (keyFilter f).addTables known = f.conjunction.addTables known) ∧
    (∀ (e : Expr) (known : List String), known <+: e.addTables known ∧
      e.addTables (e.addTables known) = e.addTables known) ∧
    ∀ (e e' : Expr) (known : List String),
      e'.addTables (e.addTables known) = (list [e, e']).addTables known := by
  refine ⟨addTables_eq_append, fun f => ?_, fun e known => ?_, fun e e' known => ?_⟩
  · have h := qualifiers_conjunction f
    exact ⟨h.symm, fun known => by rw [addTables_eq_foldl, addTables_eq_foldl, h]⟩
  · exact ⟨⟨_, (addTables_eq_append e known).symm⟩, addTables_addTables e known⟩
  · simp only [addTables, addItemTables]

/-- Tables known before stay in front, repeated or not, and a new one comes once. -/
example : (binary (qualified "a" "x") "=" (join .plain (qualified "c" "y") (qualified "b" "z")
    (qualified "a" "w"))).addTables ["b", "b"] = ["b", "b", "a", "c"] := by
  decide

end Expr

end SqlExpr
