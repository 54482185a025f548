import SqlExpr.Proofs.Parts
import SqlExpr.Render.Text

/-! # The skeleton of a text

A skeleton is a text with holes. The skeleton of an expression has a hole for each of its constants, in
their order; its parentheses are those that the text has when each hole is filled with a question mark.
-/
namespace SqlExpr

/-- Characters, and holes where there is none. -/
abbrev Skeleton := List (Option Char)

namespace Skeleton

def ofText (s : String) : Skeleton := s.toList.map some

def shown (k : Skeleton) : List Char := k.map (·.getD '?')

def holes (k : Skeleton) : Nat := k.count none

/-- The text with the holes filled one after the other; a hole for which there is no text stays
empty. -/
def fill : List (List Char) → Skeleton → List Char
  | _, [] => []
  | ts, some c :: k => c :: fill ts k
  | [], none :: k => fill [] k
  | t :: ts, none :: k => t ++ fill ts k

def parenthesized (k : Skeleton) : Skeleton := ofText "(" ++ k ++ ofText ")"

def operand (k : Skeleton) : Skeleton :=
  if Fragment.standsAlone k.shown then k else k.parenthesized

def infixed (op : String) (left right : Skeleton) : Skeleton :=
  parenthesized (left ++ (ofText (" " ++ op ++ " ") ++ right))

def aliased (k : Skeleton) (label : String) : Skeleton :=
  if label = "" then k else k ++ ofText (" AS " ++ label)

def columns (k : Skeleton) : Skeleton := if k = [] then ofText "*" else k

def clause (keyword : String) (k : Skeleton) : Skeleton :=
  if k = [] then [] else ofText (" " ++ keyword ++ " ") ++ k

def source (e : Expr) (k : Skeleton) : Skeleton := if e.isSelect then k.parenthesized else k

def ofColumn (table column : String) : Skeleton :=
  infixed "=" (operand (ofText (Fragment.qualified table column))) [none]

def ofKey (table : String) : List String → Skeleton
  | [] => []
  | column :: columns =>
    columns.foldl (fun k column => infixed "AND" k.operand (ofColumn table column).operand)
      (ofColumn table column)

end Skeleton

namespace Expr

mutual
def skeleton : Expr → Position → Skeleton
  | empty, _ => []
  | raw sql, _ => .ofText sql.text
  | column table name label, p =>
    .ofText (Fragment.aliased (Fragment.qualified (Word.textD table) name) (p.shownAlias label))
  | computed inner label, p => (skeleton inner .reference).operand.aliased (p.shownAlias label)
  | constant _, _ => [none]
  | binary left op right, _ =>
    .infixed op (skeleton left .reference).operand (skeleton right .reference).operand
  | join kind left right condition, _ =>
    .source left (skeleton left .reference) ++ (.ofText (" " ++ kind.keyword ++ " ") ++
      (.source right (skeleton right .reference) ++ (.ofText " ON " ++
        (skeleton condition .reference).operand)))
  | list items, p => itemsSkeleton items p.ofItems
  | select columns source condition grouping having ordering, _ =>
    .ofText "SELECT " ++ ((skeleton columns .selectList).columns ++
      ((Skeleton.source source (skeleton source .reference)).clause "FROM" ++
        ((skeleton condition .reference).clause "WHERE" ++
          ((skeleton grouping .reference).clause "GROUP BY" ++
            ((skeleton having .reference).clause "HAVING" ++
              (skeleton ordering .reference).clause "ORDER BY")))))
  | keyFilter f, _ => .ofKey f.key.table f.key.columns

def itemsSkeleton : List Expr → Position → Skeleton
  | [], _ => []
  | [e], p => skeleton e p
  | e :: e' :: es, p => skeleton e p ++ (.ofText ", " ++ itemsSkeleton (e' :: es) p)
end

end Expr

namespace Skeleton

@[simp] theorem ofText_append (s t : String) : ofText (s ++ t) = ofText s ++ ofText t := by
  simp [ofText]

@[simp] theorem ofText_empty : ofText "" = [] := rfl

@[simp] theorem shown_ofText (s : String) : (ofText s).shown = s.toList := by
  simp [shown, ofText, Function.comp_def]

@[simp] theorem shown_append (k k' : Skeleton) : (k ++ k').shown = k.shown ++ k'.shown :=
  List.map_append

@[simp] theorem shown_eq_nil_iff {k : Skeleton} : k.shown = [] ↔ k = [] := List.map_eq_nil_iff

@[simp] theorem holes_ofText (s : String) : (ofText s).holes = 0 := by
  simp [holes, ofText, List.count_eq_zero]

@[simp] theorem holes_append (k k' : Skeleton) : (k ++ k').holes = k.holes + k'.holes :=
  List.count_append

theorem operand_eq_or (k : Skeleton) : k.operand = k ∨ k.operand = k.parenthesized := by
  unfold operand
  split
  · exact .inl rfl
  · exact .inr rfl

@[simp] theorem operand_hole : operand [none] = [none] := by decide +kernel

theorem ofKey_concat {table column : String} {columns : List String} (h : columns ≠ []) :
    ofKey table (columns ++ [column]) =
      infixed "AND" (ofKey table columns).operand (ofColumn table column).operand := by
  obtain ⟨c, cs, rfl⟩ := List.exists_cons_of_ne_nil h
  simp [ofKey]

@[simp] theorem fill_ofText_append (ts : List (List Char)) (s : String) (k : Skeleton) :
    fill ts (ofText s ++ k) = s.toList ++ fill ts k := by
  unfold ofText
  induction s.toList with
  | nil => rfl
  | cons c cs ih => simp [fill, ih]

theorem fill_append {ts us : List (List Char)} {k k' : Skeleton} (h : ts.length = k.holes) :
    fill (ts ++ us) (k ++ k') = fill ts k ++ fill us k' := by
  induction k generalizing ts with
  | nil =>
    obtain rfl := List.length_eq_zero_iff.mp h
    rfl
  | cons c k ih =>
    cases c with
    | some c => simp [fill, @ih ts (by simpa [holes] using h)]
    | none =>
      cases ts with
      | nil => simp [holes] at h
      | cons t ts => simp [fill, @ih ts (by simpa [holes] using h)]

theorem fill_eq_nil_iff {ts : List (List Char)} {k : Skeleton} (h : ts.length = k.holes)
    (ht : ∀ t ∈ ts, t ≠ []) : fill ts k = [] ↔ k = [] := by
  cases k with
  | nil => simp [fill]
  | cons c k =>
    cases c with
    | some c => simp [fill]
    | none =>
      cases ts with
      | nil => simp [holes] at h
      | cons t ts => simp [fill, ht t List.mem_cons_self]

/-- The skeleton begins with a character that does not go on a number. -/
def StartsPlain (k : Skeleton) : Prop := ∃ c k', k = some c :: k' ∧ c.isDigit = false

theorem startsPlain_ofText_append {s : String} {c : Char} {cs : List Char} (h : s.toList = c :: cs)
    (hc : c.isDigit = false) (k : Skeleton) : StartsPlain (ofText s ++ k) :=
  ⟨c, cs.map some ++ k, by simp [ofText, h], hc⟩

end Skeleton

end SqlExpr
