import SqlExpr.Proofs.Skeleton
import SqlExpr.Render.Frame

/-! # Texts that fill their skeleton

However constants are spelled, the text of an expression is its skeleton filled with them, as long as
every operand in it gets parentheses exactly when its skeleton does. Both the literals and the
placeholders of a dialect are such spellings, each for the expressions where that can be shown.
-/
namespace SqlExpr

def Spelling.all (spell : Spelling) : Nat → List Value → List (List Char)
  | _, [] => []
  | n, v :: vs => (spell n v).toList :: all spell (n + 1) vs

namespace Spelling

theorem length_all (spell : Spelling) (n : Nat) (vs : List Value) :
    (spell.all n vs).length = vs.length := by
  induction vs generalizing n with
  | nil => rfl
  | cons v vs ih => simp [all, ih]

theorem all_append (spell : Spelling) (n : Nat) (vs ws : List Value) :
    spell.all n (vs ++ ws) = spell.all n vs ++ spell.all (n + vs.length) ws := by
  induction vs generalizing n with
  | nil => rfl
  | cons v vs ih => simp [all, ih, Nat.add_assoc, Nat.add_comm 1]

theorem mem_all {spell : Spelling} {n : Nat} {vs : List Value} {t : List Char}
    (h : t ∈ spell.all n vs) : ∃ i, ∃ v ∈ vs, t = (spell i v).toList := by
  induction vs generalizing n with
  | nil => simp [all] at h
  | cons v vs ih =>
    rcases List.mem_cons.mp h with rfl | h
    · exact ⟨n, v, List.mem_cons_self, rfl⟩
    · obtain ⟨i, w, hw, ht⟩ := ih h
      exact ⟨i, w, List.mem_cons_of_mem _ hw, ht⟩

end Spelling

/-- The text is the skeleton with the values in its holes, the first one at place `n`. -/
structure Fits (spell : Spelling) (n : Nat) (s : String) (k : Skeleton) (vs : List Value) : Prop where
  holes : k.holes = vs.length
  text : s.toList = k.fill (spell.all n vs)

/-- Filling the skeleton does not change whether it stands alone. -/
def Skeleton.DecidesAlike (spell : Spelling) (k : Skeleton) (vs : List Value) : Prop :=
  k.holes = vs.length → ∀ n, Fragment.standsAlone (k.fill (spell.all n vs)) = Fragment.standsAlone k.shown

namespace Fits
open Skeleton

variable {spell : Spelling} {n : Nat} {s t : String} {k k' : Skeleton} {vs ws : List Value}

theorem ofText (spell : Spelling) (n : Nat) (s : String) : Fits spell n s (.ofText s) [] := by
  refine ⟨by simp, ?_⟩
  have h := fill_ofText_append [] s []
  simpa [Spelling.all, fill] using h.symm

theorem nil (spell : Spelling) (n : Nat) : Fits spell n "" [] [] := ofText spell n ""

theorem value (spell : Spelling) (n : Nat) (v : Value) : Fits spell n (spell n v) [none] [v] :=
  ⟨rfl, by simp [Spelling.all, fill]⟩

theorem append (h : Fits spell n s k vs) (h' : Fits spell (n + vs.length) t k' ws) :
    Fits spell n (s ++ t) (k ++ k') (vs ++ ws) := by
  have hl : (spell.all n vs).length = k.holes := by rw [spell.length_all, h.holes]
  refine ⟨by simp [h.holes, h'.holes], ?_⟩
  rw [spell.all_append, fill_append hl, String.toList_append, h.text, h'.text]

theorem textAppend (s : String) (h : Fits spell n t k ws) :
    Fits spell n (s ++ t) (.ofText s ++ k) ws := by
  simpa using (ofText spell n s).append (by simpa using h)

theorem appendText (h : Fits spell n s k vs) (t : String) :
    Fits spell n (s ++ t) (k ++ .ofText t) vs := by
  simpa using h.append (ofText spell _ t)

theorem parenthesized (h : Fits spell n s k vs) :
    Fits spell n (Fragment.parenthesized s) k.parenthesized vs := by
  simpa [Fragment.parenthesized, Skeleton.parenthesized] using (h.textAppend "(").appendText ")"

theorem operand (h : Fits spell n s k vs) (ha : k.DecidesAlike spell vs) :
    Fits spell n (Fragment.operand s) k.operand vs := by
  have hs : Fragment.standsAlone s.toList = Fragment.standsAlone k.shown := by
    rw [h.text, ha h.holes n]
  unfold Fragment.operand Skeleton.operand
  rw [hs]
  split
  · exact h
  · exact h.parenthesized

theorem infixed (op : String) (h : Fits spell n s k vs) (h' : Fits spell (n + vs.length) t k' ws) :
    Fits spell n (Expr.infixText op s t) (.infixed op k k') (vs ++ ws) := by
  have ht := (h.append (h'.textAppend (" " ++ op ++ " "))).parenthesized
  simpa [Expr.infixText, Skeleton.infixed, Fragment.parenthesized, String.append_assoc] using ht

theorem aliased (h : Fits spell n s k vs) (label : String) :
    Fits spell n (Fragment.aliased s label) (k.aliased label) vs := by
  unfold Fragment.aliased Skeleton.aliased
  split
  · exact h
  · simpa [String.append_assoc] using h.appendText (" AS " ++ label)

theorem eq_empty_iff (hs : ∀ n v, spell n v ≠ "") (h : Fits spell n s k vs) : s = "" ↔ k = [] := by
  have hl : (spell.all n vs).length = k.holes := by rw [spell.length_all, h.holes]
  have ht : ∀ t ∈ spell.all n vs, t ≠ [] := by
    intro t ht
    obtain ⟨i, v, _, rfl⟩ := Spelling.mem_all ht
    simpa using hs i v
  rw [← fill_eq_nil_iff hl ht, ← h.text, String.toList_eq_nil_iff]

theorem columns (hs : ∀ n v, spell n v ≠ "") (h : Fits spell n s k vs) :
    Fits spell n (Renderer.columnsText s) k.columns vs := by
  unfold Renderer.columnsText Skeleton.columns
  simp only [h.eq_empty_iff hs]
  split
  · rename_i hk
    obtain rfl : vs = [] := List.length_eq_zero_iff.mp (by rw [← h.holes, hk]; rfl)
    exact ofText spell n "*"
  · exact h

theorem clause (hs : ∀ n v, spell n v ≠ "") (keyword : String) (h : Fits spell n s k vs) :
    Fits spell n (Renderer.clauseText keyword s) (k.clause keyword) vs := by
  unfold Renderer.clauseText Skeleton.clause
  simp only [h.eq_empty_iff hs]
  split
  · rename_i hk
    obtain rfl : vs = [] := List.length_eq_zero_iff.mp (by rw [← h.holes, hk]; rfl)
    exact nil spell n
  · exact h.textAppend _

end Fits

namespace Expr
open Skeleton

/-- The text of a query is never one group, because it begins with its keyword. -/
theorem isGroup_of_select (s : String) : Fragment.isGroup ("SELECT " ++ s).toList = false := by
  simp [Fragment.isGroup]

theorem sourceText_textAt (spell : Spelling) (e : Expr) (n : Nat) :
    Renderer.sourceText e (textAt spell e .reference n) =
      if e.isSelect then Fragment.parenthesized (textAt spell e .reference n)
      else textAt spell e .reference n := by
  cases e with
  | select =>
    simp only [Renderer.sourceText, isSelect, textAt, String.append_assoc, isGroup_of_select]
    rfl
  | _ => rfl

theorem clauseTextOf_eq (keyword : String) {e : Expr} {s : String} (h : e.isEmpty = true → s = "") :
    clauseTextOf keyword e s = Renderer.clauseText keyword s := by
  unfold clauseTextOf
  split
  · rename_i he
    rw [h he]
    rfl
  · rfl

theorem textAt_of_isEmpty (spell : Spelling) {e : Expr} (h : e.isEmpty = true) (n : Nat) :
    textAt spell e .reference n = "" := by
  cases e with
  | empty => rw [textAt]
  | _ => simp [isEmpty] at h

theorem sourceText_of_isEmpty (spell : Spelling) {e : Expr} (h : e.isEmpty = true) (n : Nat) :
    Renderer.sourceText e (textAt spell e .reference n) = "" := by
  cases e with
  | empty => simp [Renderer.sourceText, isSelect, textAt]
  | _ => simp [isEmpty] at h

end Expr

namespace Fits
open Skeleton SqlExpr.Expr

variable {spell : Spelling} {n : Nat} {s : String} {k : Skeleton} {vs : List Value}

theorem source (e : Expr) (h : Fits spell n (textAt spell e .reference n) k vs) :
    Fits spell n (Renderer.sourceText e (textAt spell e .reference n)) (k.source e) vs := by
  rw [sourceText_textAt]
  unfold Skeleton.source
  split
  · exact h.parenthesized
  · exact h

theorem operandText {e : Expr} (h : Fits spell n s (e.skeleton .reference) vs)
    (ha : e.isConstant = false → (e.skeleton .reference).DecidesAlike spell vs) :
    Fits spell n (e.operandText s) (e.skeleton .reference).operand vs := by
  unfold Expr.operandText
  cases hc : e.isConstant with
  | false => exact h.operand (ha hc)
  | true =>
    have hk : e.skeleton .reference = [none] := by
      cases e with
      | constant v => rw [skeleton]
      | _ => simp [isConstant] at hc
    rw [hk] at h ⊢
    simpa using h

theorem part (table : String) (part : String × Value) :
    Fits spell n (partText spell table n part) (.ofColumn table part.1) [part.2] := by
  have hq : (Skeleton.ofText (Fragment.qualified table part.1)).DecidesAlike spell [] := by
    intro _ i
    rw [← (Fits.ofText spell i _).text, shown_ofText]
  exact ((Fits.ofText spell n _).operand hq).infixed "=" (by simpa using Fits.value spell n part.2)

/-- A key fits when the conditions of some of its parts, in any number, are decided alike. -/
theorem conjunctions {table : String} {parts done : List (String × Value)} (hd : done ≠ [])
    (ha : ∀ ps, ps ≠ [] → ps ⊆ done ++ parts →
      (Skeleton.ofKey table (ps.map (·.1))).DecidesAlike spell (ps.map (·.2)))
    (h : Fits spell n s (.ofKey table (done.map (·.1))) (done.map (·.2))) :
    Fits spell n (conjunctionText spell table s (n + done.length) parts)
      (.ofKey table ((done ++ parts).map (·.1))) ((done ++ parts).map (·.2)) := by
  induction parts generalizing done s with
  | nil => simpa [conjunctionText] using h
  | cons p parts ih =>
    have hp : Fits spell (n + (done.map (·.2)).length) _ _ _ :=
      (part table p).operand (ha [p] (by simp) (by simp))
    have hs := h.operand (ha done hd (by simp))
    have hn := hs.infixed "AND" hp
    have hk : Skeleton.infixed "AND" (ofKey table (done.map (·.1))).operand (ofColumn table p.1).operand =
        ofKey table ((done ++ [p]).map (·.1)) := by
      rw [List.map_append, List.map_singleton, ofKey_concat (by simpa using hd)]
    have hv : done.map (·.2) ++ [p.2] = (done ++ [p]).map (·.2) := by simp
    rw [hk, hv] at hn
    have hi := ih (by simp) (by simpa using ha) hn
    simpa [conjunctionText, Nat.add_assoc] using hi

theorem key {k : Key} (ha : ∀ ps, ps ≠ [] → ps ⊆ k.parts →
      (Skeleton.ofKey k.table (ps.map (·.1))).DecidesAlike spell (ps.map (·.2))) :
    Fits spell n (keyText spell n k) (.ofKey k.table k.columns) k.values := by
  obtain ⟨table, parts⟩ := k
  cases parts with
  | nil => exact nil spell n
  | cons p parts => exact conjunctions (List.cons_ne_nil p []) ha (part table p)

end Fits

namespace Expr

variable {spell : Spelling} {P : Expr → Prop}

mutual
/-- The text of an expression fills its skeleton, if all operands in it are decided alike. -/
theorem fits_textAt (hs : ∀ n v, spell n v ≠ "") (hP : Hereditary P)
    (ha : ∀ f, P f → f.isConstant = false →
      (f.skeleton .reference).DecidesAlike spell f.constants) :
    ∀ (e : Expr) (p : Position) (n : Nat), P e →
      Fits spell n (textAt spell e p n) (e.skeleton p) e.constants
  | empty, p, n, _ => by
    rw [textAt, skeleton, constants]
    exact Fits.nil spell n
  | raw sql, p, n, _ => by
    rw [textAt, skeleton, constants]
    exact Fits.ofText spell n _
  | column table name label, p, n, _ => by
    rw [textAt, skeleton, constants]
    exact Fits.ofText spell n _
  | computed inner label, p, n, he => by
    have hi := hP.child (f := inner) he (by simp [children])
    rw [textAt, skeleton, constants]
    exact ((fits_textAt hs hP ha inner .reference n hi).operandText (ha inner hi)).aliased _
  | constant v, p, n, _ => by
    rw [textAt, skeleton, constants]
    exact Fits.value spell n v
  | binary left op right, p, n, he => by
    have hl := hP.child (f := left) he (by simp [children])
    have hr := hP.child (f := right) he (by simp [children])
    rw [textAt, skeleton, constants]
    exact ((fits_textAt hs hP ha left .reference n hl).operandText (ha left hl)).infixed op
      ((fits_textAt hs hP ha right .reference _ hr).operandText (ha right hr))
  | join kind left right condition, p, n, he => by
    have hl := hP.child (f := left) he (by simp [children])
    have hr := hP.child (f := right) he (by simp [children])
    have hc := hP.child (f := condition) he (by simp [children])
    have fl := (fits_textAt hs hP ha left .reference n hl).source left
    have fr := (fits_textAt hs hP ha right .reference (n + left.constants.length) hr).source right
    have fc := (fits_textAt hs hP ha condition .reference
      (n + left.constants.length + right.constants.length) hc).operandText (ha condition hc)
    have ft := fl.append ((fr.append (fc.textAppend " ON ")).textAppend (" " ++ kind.keyword ++ " "))
    simpa [textAt, skeleton, constants, String.append_assoc] using ft
  | list items, p, n, he => by
    rw [textAt, skeleton, constants]
    exact fits_itemsTextAt hs hP ha items p.ofItems n fun f hf =>
      hP.child he (by simpa [children] using hf)
  | select columns source condition grouping having ordering, p, n, he => by
    have hc := hP.child (f := columns) he (by simp [children])
    have hf := hP.child (f := source) he (by simp [children])
    have hw := hP.child (f := condition) he (by simp [children])
    have hg := hP.child (f := grouping) he (by simp [children])
    have hh := hP.child (f := having) he (by simp [children])
    have ho := hP.child (f := ordering) he (by simp [children])
    have fc := (fits_textAt hs hP ha columns .selectList n hc).columns hs
    have ff := fun m =>
      ((fits_textAt hs hP ha source .reference m hf).source source).clause hs "FROM"
    have fw := fun m => (fits_textAt hs hP ha condition .reference m hw).clause hs "WHERE"
    have fg := fun m => (fits_textAt hs hP ha grouping .reference m hg).clause hs "GROUP BY"
    have fh := fun m => (fits_textAt hs hP ha having .reference m hh).clause hs "HAVING"
    have fo := fun m => (fits_textAt hs hP ha ordering .reference m ho).clause hs "ORDER BY"
    have ft := (fc.append ((ff _).append ((fw _).append ((fg _).append ((fh _).append
      (fo _)))))).textAppend "SELECT "
    simp only [textAt, skeleton, constants,
      clauseTextOf_eq _ (fun h => sourceText_of_isEmpty spell h _),
      clauseTextOf_eq _ (fun h => textAt_of_isEmpty spell h _)]
    simpa [String.append_assoc, List.append_assoc] using ft
  | keyFilter f, p, n, he => by
    rw [textAt, skeleton, constants]
    refine Fits.key fun ps hps hsub => ?_
    have hf := ha _ (hP.filter he ps hps hsub) rfl
    rwa [skeleton, constants] at hf

theorem fits_itemsTextAt (hs : ∀ n v, spell n v ≠ "") (hP : Hereditary P)
    (ha : ∀ f, P f → f.isConstant = false →
      (f.skeleton .reference).DecidesAlike spell f.constants) :
    ∀ (es : List Expr) (p : Position) (n : Nat), (∀ f ∈ es, P f) →
      Fits spell n (itemsTextAt spell es p n) (itemsSkeleton es p) (itemConstants es)
  | [], p, n, _ => by
    rw [itemsTextAt, itemsSkeleton, itemConstants]
    exact Fits.nil spell n
  | [e], p, n, he => by
    simpa [itemsTextAt, itemsSkeleton, itemConstants] using
      fits_textAt hs hP ha e p n (he e (by simp))
  | e :: e' :: es, p, n, he => by
    have fe := fits_textAt hs hP ha e p n (he e (by simp))
    have fs := fits_itemsTextAt hs hP ha (e' :: es) p (n + e.constants.length) fun f hf =>
      he f (List.mem_cons_of_mem _ hf)
    have ft := fe.append (fs.textAppend ", ")
    simpa [itemsTextAt, itemsSkeleton, itemConstants, String.append_assoc] using ft
end

end Expr

end SqlExpr
