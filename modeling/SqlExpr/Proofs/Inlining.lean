import SqlExpr.Proofs.Literals
import SqlExpr.Proofs.Placeholders
import SqlExpr.Proofs.Quotes

/-! # Inlined literals

Where all quotes are closed, literals and placeholders fill one skeleton: the reader of groups cannot
tell them apart, and both stand alone, except where a number with a signed exponent is all that an
operand has. It is no name, while a placeholder is one.
-/
namespace SqlExpr
open Fragment

/-- The text with its placeholders replaced one after the other; the digits behind one with a dollar
sign go with it. -/
def Text.replacePlaceholders : Bool → List (List Char) → List Char → List Char
  | _, _, [] => []
  | inNumber, ts, c :: cs =>
    if inNumber && c.isDigit then replacePlaceholders true ts cs
    else if c = '?' then ts.headD [] ++ replacePlaceholders false ts.tail cs
    else if c = '$' then ts.headD [] ++ replacePlaceholders true ts.tail cs
    else c :: replacePlaceholders false ts cs

namespace Text

theorem replacePlaceholders_digits_append {ds cs : List Char} (h : ∀ d ∈ ds, d.isDigit = true)
    (hc : ∀ c, cs.head? = some c → c.isDigit = false) (ts : List (List Char)) :
    replacePlaceholders true ts (ds ++ cs) = replacePlaceholders false ts cs := by
  induction ds with
  | nil =>
    cases cs with
    | nil => rfl
    | cons c cs => simp [replacePlaceholders, hc c rfl]
  | cons d ds ih =>
    have hd := h d List.mem_cons_self
    have hi := ih fun c hm => h c (List.mem_cons_of_mem _ hm)
    simp [replacePlaceholders, hd, hi]

theorem replacePlaceholders_mark_append {m cs : List Char} (hm : IsMark m)
    (hc : ∀ c, cs.head? = some c → c.isDigit = false) (t : List Char) (ts : List (List Char)) :
    replacePlaceholders false (t :: ts) (m ++ cs) = t ++ replacePlaceholders false ts cs := by
  rcases hm with rfl | ⟨ds, rfl, hd⟩
  · rfl
  · have hr := replacePlaceholders_digits_append hd hc ts
    simpa [replacePlaceholders] using hr

end Text

namespace Skeleton

variable {ts : List (List Char)} {k : Skeleton}

theorem replacePlaceholders_fill (hk : Spaced k) {ms : List (List Char)} (hm : ∀ m ∈ ms, IsMark m)
    (hl : ms.length = k.holes) (ht : ts.length = k.holes) :
    Text.replacePlaceholders false ts (fill ms k) = fill ts k := by
  induction k generalizing ms ts with
  | nil => rfl
  | cons c k ih =>
    cases c with
    | some c =>
      obtain ⟨⟨hq, hs⟩, hk⟩ := hk
      have hi := ih hk hm (by simpa [holes] using hl) (by simpa [holes] using ht)
      simp [fill, Text.replacePlaceholders, hq, hs, hi]
    | none =>
      cases ms with
      | nil => simp [holes] at hl
      | cons m ms =>
        cases ts with
        | nil => simp [holes] at ht
        | cons t ts =>
          have hi := ih hk.2 (fun u hu => hm u (List.mem_cons_of_mem _ hu))
            (by simpa [holes] using hl) (by simpa [holes] using ht)
          rw [fill, Text.replacePlaceholders_mark_append (hm m List.mem_cons_self)
            (head?_fill_of_spaced hk ms) t ts, hi, fill]

theorem ofKey_eq_parenthesized (table : String) {columns : List String} (h : columns ≠ []) :
    ∃ k : Skeleton, ofKey table columns = k.parenthesized := by
  induction columns using List.reverseRecOn with
  | nil => exact absurd rfl h
  | append_singleton columns column _ =>
    by_cases hn : columns = []
    · subst hn
      exact ⟨_, rfl⟩
    · exact ⟨_, ofKey_concat hn⟩

theorem fill_of_holes_eq_zero (h : k.holes = 0) : fill [] k = k.shown := by
  have hs := k.shown_eq_fill
  rw [h] at hs
  exact hs.symm

end Skeleton

theorem Mode.spelling_ne_empty (d : Dialect) (mode : Mode) (n : Nat) (v : Value) :
    mode.spelling d n v ≠ "" := by
  cases mode with
  | literal => exact fun he => (d.isSealed_literal v).ne_nil (String.toList_eq_nil_iff.mpr he)
  | bind sink => exact Expr.spelling_ne_empty d sink n v

namespace Expr
open Skeleton

mutual
/-- The value that is all of an expression, behind columns computed from it and lists of one item. -/
def soleConstant? : Expr → Option Value
  | constant v => some v
  | computed inner _ => soleConstant? inner
  | list items => soleItem? items
  | _ => none

def soleItem? : List Expr → Option Value
  | [e] => soleConstant? e
  | _ => none
end

/-- The literals of an expression can take the place of its placeholders: the texts of the caller
close their quotes, and no computed column and no list is merely a number with a signed exponent. -/
structure Inlinable (e : Expr) : Prop where
  quotes : ∀ s ∈ e.callerTexts, s.toList.count '\'' % 2 = 0
  exponents : ∀ f ∈ e.parts, f.isConstant = false →
    ∀ v ∈ f.soleConstant?, v.hasSignedExponent = false

theorem hereditary_inlinable : Hereditary Inlinable where
  child he hf :=
    ⟨forall_callerTexts he.quotes hf, fun g hg => he.exponents g (parts_subset_of_mem_children hf hg)⟩
  filter := by
    intro f he parts hn hsub
    constructor
    · intro s hs
      refine he.quotes s ?_
      simp only [callerTexts, Expr.parts, List.flatMap_cons, List.flatMap_nil, List.append_nil,
        ownTexts, List.mem_cons, Key.columns, List.mem_map] at hs ⊢
      rcases hs with rfl | ⟨part, hp, rfl⟩
      · exact .inl rfl
      · exact .inr ⟨part, hsub hp, rfl⟩
    · intro g hg _ v hv
      obtain rfl := List.mem_singleton.mp hg
      simp [soleConstant?] at hv

theorem quotesClosed_skeleton {e : Expr} (h : ∀ s ∈ e.callerTexts, s.toList.count '\'' % 2 = 0)
    (p : Position) : QuotesClosed false (e.skeleton p) :=
  skeleton_of_composes composes_quotesClosed e p h

variable (d : Dialect)

theorem isSealed_of_mem_literals {n : Nat} {vs : List Value} {t : List Char}
    (h : t ∈ (Mode.literal.spelling d).all n vs) : IsSealed t := by
  obtain ⟨_, v, _, rfl⟩ := Spelling.mem_all h
  exact d.isSealed_literal v

theorem length_literals {n : Nat} {vs : List Value} {k : Skeleton} (h : k.holes = vs.length) :
    ((Mode.literal.spelling d).all n vs).length = k.holes := by
  rw [Spelling.length_all, h]

theorem decidesAlike_of_open {k : Skeleton} (hk : QuotesClosed false k.parenthesized)
    (vs : List Value) : k.parenthesized.DecidesAlike (Mode.literal.spelling d) vs := by
  intro hh n
  exact standsAlone_fill_open hk (fun _ => isSealed_of_mem_literals d) (length_literals d hh)

theorem decidesAlike_of_separated {k k' : Skeleton} {c : Char} (hc : isSeparator c = true)
    (hk : QuotesClosed false k) (hw : QuotesClosed false (k ++ some c :: k')) (vs : List Value) :
    (k ++ some c :: k').DecidesAlike (Mode.literal.spelling d) vs := by
  intro hh n
  exact standsAlone_fill_separated hc hk hw (fun _ => isSealed_of_mem_literals d)
    (length_literals d hh)

theorem decidesAlike_of_text {k : Skeleton} : k.DecidesAlike (Mode.literal.spelling d) [] := by
  intro hh _
  exact congrArg standsAlone (fill_of_holes_eq_zero hh)

mutual
/-- Filled with literals, an operand gets parentheses exactly where one with placeholders does. -/
theorem decidesAlike_literal : ∀ (e : Expr), (∀ s ∈ e.callerTexts, s.toList.count '\'' % 2 = 0) →
    (∀ v, e.soleConstant? = some v → v.hasSignedExponent = false) →
    (e.skeleton .reference).DecidesAlike (Mode.literal.spelling d) e.constants
  | empty, _, _ => by
    rw [constants]
    exact decidesAlike_of_text d
  | raw _, _, _ => by
    rw [constants]
    exact decidesAlike_of_text d
  | column _ _ _, _, _ => by
    rw [constants]
    exact decidesAlike_of_text d
  | computed inner label, hq, hv => by
    have hi := decidesAlike_literal inner (forall_callerTexts hq (by simp [children]))
      (by simpa [soleConstant?] using hv)
    have hw := quotesClosed_skeleton hq .reference
    have hk : (computed inner label).skeleton .reference = (inner.skeleton .reference).operand := by
      rw [skeleton]
      rfl
    rw [hk] at hw ⊢
    rw [constants]
    -- Without parentheses of its own the column is decided as what it is computed from.
    rcases (inner.skeleton .reference).operand_eq_or with he | he
    · rw [he]
      exact hi
    · rw [he] at hw ⊢
      exact decidesAlike_of_open d hw _
  | constant v, _, hv => by
    intro _ n
    have hl := d.standsAlone_literal (hv v (by rw [soleConstant?]))
    have hs : standsAlone ['?'] = true := by decide +kernel
    simpa [skeleton, constants, Spelling.all, fill, shown, Mode.spelling, hs] using hl
  | binary left op right, hq, _ => by
    have hw := quotesClosed_skeleton hq .reference
    rw [skeleton] at hw ⊢
    exact decidesAlike_of_open d hw _
  | join kind left right condition, hq, _ => by
    have hw := quotesClosed_skeleton hq .reference
    have hl := composes_quotesClosed.source left
      (quotesClosed_skeleton (forall_callerTexts hq (f := left) (by simp [children])) .reference)
    -- The keyword separates the sources, so that the whole can only be a group.
    have ht : Skeleton.ofText (" " ++ kind.keyword ++ " ") =
        some ' ' :: Skeleton.ofText (kind.keyword ++ " ") := by
      simp [Skeleton.ofText]
    rw [skeleton, ht, List.cons_append] at hw ⊢
    exact decidesAlike_of_separated d rfl hl hw _
  | list items, hq, hv => by
    rw [skeleton, constants]
    exact decidesAlike_items items (fun e he => forall_callerTexts hq (by simpa [children] using he))
      (by simpa [soleConstant?] using hv)
  | select columns source condition grouping having ordering, hq, _ => by
    have hw := quotesClosed_skeleton hq .reference
    have ht : Skeleton.ofText "SELECT " = Skeleton.ofText "SELECT" ++ [some ' '] := by
      simp [Skeleton.ofText]
    have hs : QuotesClosed false (.ofText "SELECT") := by
      simp [Skeleton.ofText, QuotesClosed]
    rw [skeleton, ht, List.append_assoc, List.singleton_append] at hw ⊢
    exact decidesAlike_of_separated d rfl hs hw _
  | keyFilter f, hq, _ => by
    have hw := quotesClosed_skeleton hq .reference
    have hn : f.key.columns ≠ [] := by simpa [Key.columns] using f.parts_ne_nil
    obtain ⟨k, hk⟩ := ofKey_eq_parenthesized f.key.table hn
    rw [skeleton, hk] at hw ⊢
    exact decidesAlike_of_open d hw _

theorem decidesAlike_items : ∀ (es : List Expr),
    (∀ e ∈ es, ∀ s ∈ e.callerTexts, s.toList.count '\'' % 2 = 0) →
    (∀ v, soleItem? es = some v → v.hasSignedExponent = false) →
    (itemsSkeleton es .reference).DecidesAlike (Mode.literal.spelling d) (itemConstants es)
  | [], _, _ => by
    rw [itemConstants]
    exact decidesAlike_of_text d
  | [e], hq, hv => by
    have he := decidesAlike_literal e (hq e (by simp)) (by simpa [soleItem?] using hv)
    simpa [itemsSkeleton, itemConstants] using he
  | e :: e' :: es, hq, _ => by
    have he := quotesClosed_skeleton (hq e (by simp)) .reference
    have hw := itemsSkeleton_of_composes composes_quotesClosed (e :: e' :: es) .reference hq
    have ht : Skeleton.ofText ", " = some ',' :: Skeleton.ofText " " := by simp [Skeleton.ofText]
    rw [itemsSkeleton, ht, List.cons_append] at hw ⊢
    exact decidesAlike_of_separated d rfl he hw _
end

theorem fits_literal {e : Expr} (h : e.Inlinable) :
    Fits (Mode.literal.spelling d) 0 (e.literalSql d) (e.skeleton .reference) e.constants := by
  have ha : ∀ f, Inlinable f → f.isConstant = false →
      (f.skeleton .reference).DecidesAlike (Mode.literal.spelling d) f.constants := fun f hf hc =>
    decidesAlike_literal d f hf.quotes (hf.exponents f f.mem_parts_self hc)
  have ht : e.literalSql d = textAt (Mode.literal.spelling d) e .reference 0 :=
    sql_render d .literal e
  rw [ht]
  exact fits_textAt (Mode.literal.spelling_ne_empty d) hereditary_inlinable ha e .reference 0 h

theorem all_literal (n : Nat) (vs : List Value) :
    (Mode.literal.spelling d).all n vs = vs.map fun v => (d.literal v).toList := by
  induction vs generalizing n with
  | nil => rfl
  | cons v vs ih => rw [Spelling.all, ih, List.map_cons]; rfl

/-- The text with literals is the bound text with the literal of each parameter in the place of its
placeholder. -/
theorem literalSql_inlines_params {e : Expr} (h : e.Inlinable) :
    let k := e.skeleton .reference
    let params := (e.boundSql d).2
    k.holes = params.length ∧
      (e.boundSql d).1.toList =
        k.fill ((List.range params.length).map fun index => (d.placeholder index).toList) ∧
      (e.literalSql d).toList = k.fill (params.map fun v => (d.literal v).toList) ∧
      ((∀ s ∈ e.callerTexts, ∀ c ∈ s.toList, c ≠ '?' ∧ c ≠ '$') →
        (e.literalSql d).toList = Text.replacePlaceholders false
          (params.map fun v => (d.literal v).toList) (e.boundSql d).1.toList) := by
  intro k params
  have hp : params = e.constants := params_boundSql d e
  have hb : (e.boundSql d).1.toList = _ := sql_render_bind d [] e .reference
  have hf := fits_literal d h
  have hl : (e.literalSql d).toList = k.fill (params.map fun v => (d.literal v).toList) := by
    rw [hf.text, all_literal, hp]
  refine ⟨by rw [hp]; exact hf.holes, ?_, hl, ?_⟩
  · rw [hb, hp, List.range_eq_range']
    rfl
  · intro hq
    have hk := skeleton_of_composes composes_spaced e .reference hq
    have hm : (d.placeholders 0 e.constants.length).length = k.holes := by
      simp [Dialect.placeholders, hf.holes, k]
    have ht : (params.map fun v => (d.literal v).toList).length = k.holes := by
      rw [List.length_map, hp]
      exact hf.holes.symm
    rw [hl, hb]
    exact (replacePlaceholders_fill hk (fun _ => d.isMark_of_mem_placeholders) hm ht).symm

/-- Quotes, parentheses and casts in a string do not disturb the text around it. -/
theorem literalSql_inlines_quoted_string :
    let e := binary (computed (constant (.string "it's (a)::b")) none) "=" (constant (.decimal ⟨1, 9⟩))
    e.Inlinable ∧ (e.literalSql .mysql).toList = Text.replacePlaceholders false
      ["'it''s (a)::b'".toList, "1E-9".toList] (e.boundSql .mysql).1.toList := by
  intro e
  have h : e.Inlinable := ⟨by decide, by decide⟩
  have ha : e.callerTexts.all (·.toList.all fun c => c != '?' && c != '$') = true := by decide
  exact ⟨h, (literalSql_inlines_params .mysql h).2.2.2 (by simpa using ha)⟩

end Expr

end SqlExpr
