import SqlExpr.Failure
import SqlExpr.Proofs.Applications
import SqlExpr.Proofs.Reading
import SqlExpr.Proofs.Tables

/-! # The exact text of a filter by key

Over plain names the conditions of a key and all conjunctions of the first of them are groups, whatever
the values are spelled as, so that none of them gets a second pair of parentheses. The text of the filter
is then the conditions joined from the left.
-/
namespace SqlExpr
open Fragment

/-- The texts joined from the left, each pair in parentheses. -/
def Text.conjoined : List String → String
  | [] => ""
  | s :: ss => ss.foldl (fun joined s => "(" ++ joined ++ " AND " ++ s ++ ")") s

theorem Text.conjoined_concat {ss : List String} (h : ss ≠ []) (s : String) :
    conjoined (ss ++ [s]) = "(" ++ conjoined ss ++ " AND " ++ s ++ ")" := by
  obtain ⟨t, ss, rfl⟩ := List.exists_cons_of_ne_nil h
  simp [conjoined]

theorem IsIdentifier.isBalanced {s : String} (h : IsIdentifier s) : IsBalanced s.toList :=
  .of_plain fun _ hc => isPlain_of_isColumnChar (h.isColumnChar hc)

theorem operand_qualified {table column : String} (ht : table = "" ∨ IsIdentifier table)
    (hc : IsIdentifier column) : operand (qualified table column) = qualified table column := by
  have hw : ∀ w ∈ Word.ofText? table, IsIdentifier w.text := by
    rcases ht with rfl | ht
    · simp
    · rw [Word.ofText?_of_ne ht.1]
      simpa using ht
  have hs := (Prepared.column hw hc).standsAlone_groupedText (d := .ansi) 0
  rw [Expr.groupedText, Word.textD_ofText?] at hs
  exact operand_of_standsAlone hs

namespace Key

def conditionText (spell : Spelling) (table : String) (part : String × Value) (n : Nat) : String :=
  "(" ++ qualified table part.1 ++ " = " ++ spell n part.2 ++ ")"

def conditionTexts (spell : Spelling) (k : Key) (n : Nat) : List String :=
  (k.parts.zipIdx n).map fun p => conditionText spell k.table p.1 p.2

/-- The table and all columns of the key are plain names; the table may be missing. -/
structure IsPlain (k : Key) : Prop where
  table : k.table = "" ∨ IsIdentifier k.table
  columns : ∀ part ∈ k.parts, IsIdentifier part.1

namespace IsPlain

theorem isBalanced_callerTexts {f : KeyFilter} (h : f.key.IsPlain) :
    ∀ s ∈ (Expr.keyFilter f).callerTexts, IsBalanced s.toList := by
  intro s hs
  have hm : s = f.key.table ∨ s ∈ f.key.columns := by
    simpa [Expr.callerTexts, Expr.parts, Expr.ownTexts] using hs
  rcases hm with rfl | hm
  · rcases h.table with ht | ht
    · rw [ht]
      decide
    · exact ht.isBalanced
  · obtain ⟨part, hp, rfl⟩ := List.mem_map.mp hm
    exact (h.columns part hp).isBalanced

variable {table : String} {parts : List (String × Value)} {part : String × Value}
variable (d : Dialect) (mode : Mode) (n : Nat)

theorem of_subset {parts' : List (String × Value)} (h : IsPlain ⟨table, parts⟩)
    (hs : parts' ⊆ parts) : IsPlain ⟨table, parts'⟩ :=
  ⟨h.table, fun p hp => h.columns p (hs hp)⟩

theorem operand_keyText (h : IsPlain ⟨table, parts⟩) (hn : parts ≠ []) :
    operand (Expr.keyText (mode.spelling d) n ⟨table, parts⟩) =
      Expr.keyText (mode.spelling d) n ⟨table, parts⟩ := by
  have hb := isBalanced_callerTexts (f := ⟨⟨table, parts⟩, hn⟩) h
  have hg := Expr.isGroup_textAt hb d mode rfl .reference n
  rw [Expr.textAt] at hg
  exact operand_of_standsAlone (by rw [standsAlone, hg, Bool.or_true])

theorem partText_eq_conditionText (ht : table = "" ∨ IsIdentifier table) (hc : IsIdentifier part.1) :
    Expr.partText (mode.spelling d) table n part = conditionText (mode.spelling d) table part n := by
  simp [Expr.partText, Expr.infixText, conditionText, operand_qualified ht hc, String.append_assoc]

/-- No conjunction of the first conditions is wrapped once more when the next condition joins it. -/
theorem keyText_eq_conjoined (h : IsPlain ⟨table, parts⟩) (hn : parts ≠ []) :
    Expr.keyText (mode.spelling d) n ⟨table, parts⟩ =
      Text.conjoined (conditionTexts (mode.spelling d) ⟨table, parts⟩ n) := by
  induction parts using List.reverseRecOn with
  | nil => exact absurd rfl hn
  | append_singleton parts part ih =>
    have hlast : IsPlain ⟨table, [part]⟩ := h.of_subset (List.subset_append_right _ _)
    have hc := fun m => partText_eq_conditionText d mode m h.table (hlast.columns part (by simp))
    by_cases he : parts = []
    · subst he
      exact hc n
    · have hfirst : IsPlain ⟨table, parts⟩ := h.of_subset (List.subset_append_left _ _)
      have hw : operand (Expr.partText (mode.spelling d) table (n + parts.length) part) =
          conditionText (mode.spelling d) table part (n + parts.length) :=
        (hlast.operand_keyText d mode _ (by simp)).trans (hc _)
      have hs : conditionTexts (mode.spelling d) ⟨table, parts ++ [part]⟩ n =
          conditionTexts (mode.spelling d) ⟨table, parts⟩ n ++
            [conditionText (mode.spelling d) table part (n + parts.length)] := by
        simp [conditionTexts, List.zipIdx_append]
      have hne : conditionTexts (mode.spelling d) ⟨table, parts⟩ n ≠ [] := by
        simpa [conditionTexts] using he
      rw [Expr.keyText_concat _ _ _ he, hfirst.operand_keyText d mode n he, hw, ih hfirst he, hs,
        Text.conjoined_concat hne]
      simp [Expr.infixText, String.append_assoc]

end IsPlain

end Key

namespace KeyFilter

/-- However many conditions there are, their table counts once. -/
theorem foldl_addQualifier {parts : List (String × Value)} (hn : parts ≠ []) (table : Option Word) :
    parts.foldl (fun known _ => addQualifier known table) [] = qualifier table := by
  obtain ⟨part, parts, rfl⟩ := List.exists_cons_of_ne_nil hn
  have hfirst : addQualifier [] table = qualifier table := by cases table <;> rfl
  have hagain : addQualifier (qualifier table) table = qualifier table := by
    cases table <;> simp [addQualifier, addName, qualifier]
  rw [List.foldl_cons, hfirst]
  clear hn
  induction parts with
  | nil => rfl
  | cons p parts ih => rw [List.foldl_cons, hagain, ih]

theorem tables_keyFilter (f : KeyFilter) :
    (Expr.keyFilter f).tables = if f.key.table = "" then [] else [f.key.table] := by
  rw [Expr.tables, Expr.addTables, foldl_addQualifier f.parts_ne_nil]
  by_cases ht : f.key.table = ""
  · simp [ht, qualifier]
  · simp [ht, qualifier, Word.ofText?_of_ne]

/-- A key without parts is refused as a matter of configuration, and any other key has a filter, which
keeps it. The filter and its conjunction name the table of the key if there is one, bind the values of the
key in its order and, over plain names, are written as the conditions on its columns joined from the left. -/
theorem ofKey_exact (k : Key) :
    (∀ failure, (ofKey k).mapError Failure.emptyKey = .error failure ↔
      k.parts = [] ∧ failure = .emptyKey ⟨k.table⟩) ∧
    (k.parts ≠ [] → ∃ f, ofKey k = .ok f ∧ f.key = k ∧ ∀ e ∈ [Expr.keyFilter f, f.conjunction],
      e.tables = (if k.table = "" then [] else [k.table]) ∧
        ∀ (d : Dialect) (mode : Mode), (e.render d mode).mode = mode.extend k.values ∧
          (k.IsPlain → (e.render d mode).sql =
            Text.conjoined (k.conditionTexts (mode.spelling d) mode.sink.length))) := by
  refine ⟨fun failure => ?_, fun hn => ?_⟩
  · by_cases hk : k.parts = [] <;> simp [ofKey, hk, Except.mapError, eq_comm]
  · obtain ⟨table, parts⟩ := k
    refine ⟨⟨⟨table, parts⟩, hn⟩, by simp [ofKey, hn], rfl, fun e he => ?_⟩
    let f : KeyFilter := ⟨⟨table, parts⟩, hn⟩
    -- The conjunction is rendered and walked as the filter is.
    have ht : e.tables = (Expr.keyFilter f).tables := by
      rcases List.mem_pair.mp he with rfl | rfl
      · rfl
      · rw [Expr.tables, Expr.tables, Expr.addTables_eq_foldl, Expr.addTables_eq_foldl,
          Expr.qualifiers_conjunction]
    have hr : ∀ d mode, e.render d mode = (Expr.keyFilter f).render d mode := by
      intro d mode
      rcases List.mem_pair.mp he with rfl | rfl
      · rfl
      · exact Expr.renderTo_conjunction f .reference _
    refine ⟨ht.trans (tables_keyFilter f), fun d mode => ⟨?_, fun hp => ?_⟩⟩
    · rw [hr, Expr.mode_render, Expr.constants]
    · rw [hr, Expr.sql_render, Expr.textAt]
      exact hp.keyText_eq_conjoined d mode _ hn

/-- The quote and the parenthesis of a string do not hide where the first conditions end. -/
theorem ofKey_exact_for_quoted_string :
    let k : Key := ⟨"orders", [("id", .int 5), ("note", .string "it's ("), ("é_2", .null)]⟩
    k.parts ≠ [] ∧ k.IsPlain ∧ ∃ f, ofKey k = .ok f ∧
      ((Expr.keyFilter f).render .mysql .literal).sql =
        "(((orders.id = 5) AND (orders.note = 'it''s (')) AND (orders.é_2 = NULL))" ∧
      ((Expr.keyFilter f).render .postgres (.bind [.null])).sql =
        "(((orders.id = $2) AND (orders.note = $3)) AND (orders.é_2 = $4))" := by
  intro k
  have hn : k.parts ≠ [] := by simp [k]
  have hp : k.IsPlain := by
    refine ⟨.inr ⟨by decide, by decide +kernel⟩, fun part hm => ?_⟩
    simp only [k, List.mem_cons, List.not_mem_nil, or_false] at hm
    rcases hm with rfl | rfl | rfl <;> exact ⟨by decide, by decide +kernel⟩
  obtain ⟨f, hf, _, h⟩ := (ofKey_exact k).2 hn
  have hs := fun d mode => ((h (.keyFilter f) (by simp)).2 d mode).2 hp
  exact ⟨hn, hp, f, hf, (hs .mysql .literal).trans (by decide +kernel),
    (hs .postgres (.bind [.null])).trans (by decide +kernel)⟩

end KeyFilter

end SqlExpr
