import SqlExpr.Expr.KeyFilter

/-! # The parts of an expression

The expressions that an expression contains at any depth, and the texts that its caller supplied: raw
SQL, the names of tables and columns, operators and aliases. What is asked of a whole tree is asked of
each of its parts, and then holds of every smaller tree in it.
-/
namespace SqlExpr.Expr

def children : Expr → List Expr
  | computed inner _ => [inner]
  | binary left _ right => [left, right]
  | join _ left right condition => [left, right, condition]
  | list items => items
  | select columns source condition grouping having ordering =>
    [columns, source, condition, grouping, having, ordering]
  | _ => []

mutual
def parts : Expr → List Expr
  | empty => [empty]
  | raw sql => [raw sql]
  | column table name label => [column table name label]
  | computed inner label => computed inner label :: parts inner
  | constant v => [constant v]
  | binary left op right => binary left op right :: (parts left ++ parts right)
  | join kind left right condition =>
    join kind left right condition :: (parts left ++ parts right ++ parts condition)
  | list items => list items :: itemParts items
  | select columns source condition grouping having ordering =>
    select columns source condition grouping having ordering ::
      (parts columns ++ parts source ++ parts condition ++ parts grouping ++ parts having ++
        parts ordering)
  | keyFilter f => [keyFilter f]

def itemParts : List Expr → List Expr
  | [] => []
  | e :: es => parts e ++ itemParts es
end

/-- The texts that the caller gave for one node; a qualifier or an alias that is missing counts as the
empty text. -/
def ownTexts : Expr → List String
  | raw sql => [sql.text]
  | column table name label => [Word.textD table, name, Word.textD label]
  | computed _ label => [Word.textD label]
  | binary _ op _ => [op]
  | keyFilter f => f.key.table :: f.key.columns
  | _ => []

def callerTexts (e : Expr) : List String := e.parts.flatMap ownTexts

theorem mem_itemParts {es : List Expr} {f : Expr} : f ∈ itemParts es ↔ ∃ e ∈ es, f ∈ e.parts := by
  induction es with
  | nil => simp [itemParts]
  | cons e es ih => simp [itemParts, ih]

theorem mem_parts_iff {e f : Expr} : f ∈ e.parts ↔ f = e ∨ ∃ g ∈ e.children, f ∈ g.parts := by
  cases e <;> simp [parts, children, mem_itemParts]

theorem mem_parts_self (e : Expr) : e ∈ e.parts := mem_parts_iff.mpr (.inl rfl)

theorem parts_subset_of_mem_children {e f : Expr} (h : f ∈ e.children) : f.parts ⊆ e.parts := by
  intro g hg
  exact mem_parts_iff.mpr (.inr ⟨f, h, hg⟩)

theorem sizeOf_lt_of_mem_children {e f : Expr} (h : f ∈ e.children) : sizeOf f < sizeOf e := by
  cases e with
  | list items =>
    have hm := List.sizeOf_lt_of_mem (show f ∈ items from h)
    simp only [list.sizeOf_spec]
    omega
  | empty | raw | column | constant | keyFilter => simp [children] at h
  | computed inner label =>
    obtain rfl := List.mem_singleton.mp h
    simp only [computed.sizeOf_spec]
    omega
  | binary left op right =>
    simp only [children, List.mem_cons, List.not_mem_nil, or_false] at h
    simp only [binary.sizeOf_spec]
    rcases h with rfl | rfl <;> omega
  | join kind left right condition =>
    simp only [children, List.mem_cons, List.not_mem_nil, or_false] at h
    simp only [join.sizeOf_spec]
    rcases h with rfl | rfl | rfl <;> omega
  | select columns source condition grouping having ordering =>
    simp only [children, List.mem_cons, List.not_mem_nil, or_false] at h
    simp only [select.sizeOf_spec]
    rcases h with rfl | rfl | rfl | rfl | rfl | rfl <;> omega

/-- What the children hand on to their parent holds of every expression. -/
theorem children_induction {P : Expr → Prop} (h : ∀ e, (∀ f ∈ e.children, P f) → P e) (e : Expr) :
    P e :=
  h e fun f hf =>
    have := sizeOf_lt_of_mem_children hf
    children_induction h f
termination_by sizeOf e

theorem parts_subset_of_mem_parts {e f : Expr} (h : f ∈ e.parts) : f.parts ⊆ e.parts := by
  induction e using children_induction with
  | h e ih =>
    rcases mem_parts_iff.mp h with rfl | ⟨g, hg, hf⟩
    · exact fun _ => id
    · exact List.Subset.trans (ih g hg hf) (parts_subset_of_mem_children hg)

theorem mem_callerTexts {e : Expr} {s : String} :
    s ∈ e.callerTexts ↔ ∃ f ∈ e.parts, s ∈ f.ownTexts := List.mem_flatMap

theorem mem_callerTexts_iff {e : Expr} {s : String} :
    s ∈ e.callerTexts ↔ s ∈ e.ownTexts ∨ ∃ f ∈ e.children, s ∈ f.callerTexts := by
  rw [mem_callerTexts]
  constructor
  · rintro ⟨g, hg, hs⟩
    rcases mem_parts_iff.mp hg with rfl | ⟨f, hf, hg⟩
    · exact .inl hs
    · exact .inr ⟨f, hf, mem_callerTexts.mpr ⟨g, hg, hs⟩⟩
  · rintro (hs | ⟨f, hf, hs⟩)
    · exact ⟨e, e.mem_parts_self, hs⟩
    · obtain ⟨g, hg, hs⟩ := mem_callerTexts.mp hs
      exact ⟨g, parts_subset_of_mem_children hf hg, hs⟩

theorem forall_callerTexts_of_mem_parts {Q : String → Prop} {e f : Expr}
    (hq : ∀ s ∈ e.callerTexts, Q s) (h : f ∈ e.parts) : ∀ s ∈ f.callerTexts, Q s := by
  intro s hs
  obtain ⟨g, hg, hs⟩ := mem_callerTexts.mp hs
  exact hq s (mem_callerTexts.mpr ⟨g, parts_subset_of_mem_parts h hg, hs⟩)

theorem forall_callerTexts {Q : String → Prop} {e f : Expr} (hq : ∀ s ∈ e.callerTexts, Q s)
    (h : f ∈ e.children) : ∀ s ∈ f.callerTexts, Q s :=
  forall_callerTexts_of_mem_parts hq (parts_subset_of_mem_children h f.mem_parts_self)

theorem ownTexts_subset_callerTexts (e : Expr) : e.ownTexts ⊆ e.callerTexts := by
  intro s hs
  exact mem_callerTexts.mpr ⟨e, e.mem_parts_self, hs⟩

/-- A property that goes over to the expressions inside, and from a filter by key to the filters by
some of the parts of that key. -/
structure Hereditary (P : Expr → Prop) : Prop where
  child : ∀ {e f : Expr}, P e → f ∈ e.children → P f
  filter : ∀ {f : KeyFilter}, P (keyFilter f) → ∀ parts (h : parts ≠ []), parts ⊆ f.key.parts →
    P (keyFilter ⟨⟨f.key.table, parts⟩, h⟩)

theorem hereditary_true : Hereditary fun _ => True := ⟨fun _ _ => trivial, fun _ _ _ _ => trivial⟩

end SqlExpr.Expr
