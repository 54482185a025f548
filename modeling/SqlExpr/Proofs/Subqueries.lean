import SqlExpr.Proofs.Balance
import SqlExpr.Proofs.Surroundings

/-! # Subqueries

A query that stands as an operand or as a source gets parentheses of its own. What stands around them is
the same for every query with as many constants: no decision taken further out, on a text that contains
the parentheses, can see what is inside of them.
-/
namespace SqlExpr

namespace Fragment

def ClosesQuotes (s : String) : Prop := s.toList.count '\'' % 2 = 0

instance (s : String) : Decidable (ClosesQuotes s) := inferInstanceAs (Decidable (_ = _))

theorem ClosesQuotes.append {s t : String} (hs : ClosesQuotes s) (ht : ClosesQuotes t) :
    ClosesQuotes (s ++ t) := by
  unfold ClosesQuotes at *
  rw [String.toList_append, List.count_append]
  omega

/-- A balanced text that begins with the keyword of a query. -/
structure IsQueryText (s : String) : Prop where
  balanced : IsBalanced s.toList
  keyword : ∃ t, s = "SELECT " ++ t

def around (pre post s : String) : String := pre ++ parenthesized s ++ post

theorem toList_around (pre post s : String) :
    (around pre post s).toList = pre.toList ++ '(' :: (s.toList ++ ')' :: post.toList) := by
  simp [around, parenthesized]

/-- The reader of groups goes over a neutral text in parentheses whatever that text is. -/
theorem closesAtEnd_around {u x y : List Char} (hx : IsNeutral x) (hy : IsNeutral y) (t : List Char)
    {inQuote : Bool} (hu : (u.count '\'' + inQuote.toNat) % 2 = 0) (depth : Nat) :
    closesAtEnd depth inQuote (u ++ '(' :: (x ++ t)) =
      closesAtEnd depth inQuote (u ++ '(' :: (y ++ t)) := by
  induction u generalizing inQuote depth with
  | nil =>
    cases inQuote with
    | true => simp at hu
    | false =>
      rw [List.nil_append, List.nil_append, closesAtEnd_open, closesAtEnd_open, hx, hy]
  | cons c u ih =>
    rw [List.cons_append, List.cons_append]
    by_cases hc : c = '\''
    · subst hc
      rw [count_quote_cons] at hu
      rw [closesAtEnd_quote, closesAtEnd_quote]
      exact ih hu depth
    · rw [List.count_cons_of_ne hc] at hu
      have hi := ih hu
      have he : ∀ z, (u ++ '(' :: z).isEmpty = false := fun z => by cases u <;> rfl
      unfold closesAtEnd
      cases inQuote with
      | true => simpa [hc] using hi depth
      | false => simp only [hc, hi, he, Bool.false_eq_true, if_false]

section Around

variable {pre s t : String} (hp : ClosesQuotes pre) (hs : IsQueryText s)
include hp hs

/-- The keyword of the query has a blank behind it, so that the text can only be a group. -/
theorem standsAlone_around (post : String) :
    standsAlone (around pre post s).toList = isGroup (around pre post s).toList := by
  obtain ⟨t, rfl⟩ := hs.keyword
  have hq : (pre.toList ++ "(SELECT".toList).count '\'' % 2 = 0 := by
    have h : pre.toList.count '\'' % 2 = 0 := hp
    simpa [List.count_append] using h
  have he : (around pre post ("SELECT " ++ t)).toList =
      (pre.toList ++ "(SELECT".toList) ++ ' ' :: (t.toList ++ ')' :: post.toList) := by
    simp [toList_around]
  rw [he]
  exact standsAlone_separated hq (by decide) _

theorem standsAlone_around_eq (ht : IsQueryText t) (post : String) :
    standsAlone (around pre post s).toList = standsAlone (around pre post t).toList := by
  have hc := @closesAtEnd_around pre.toList _ _ hs.balanced.isNeutral ht.balanced.isNeutral
    (')' :: post.toList) false hp 0
  have hh : (around pre post s).toList.head? = (around pre post t).toList.head? := by
    cases h : pre.toList <;> simp [toList_around, h]
  rw [standsAlone_around hp hs, standsAlone_around hp ht, isGroup_eq, isGroup_eq, hh, toList_around,
    toList_around, hc]

end Around

/-- As an operand, such a text gets parentheses for each query or for none. -/
theorem operand_around {pre : String} (hp : ClosesQuotes pre) (post : String) :
    ∃ pre' post', ClosesQuotes pre' ∧
      ∀ s, IsQueryText s → operand (around pre post s) = around pre' post' s := by
  have hq : IsQueryText "SELECT " := ⟨by decide, "", rfl⟩
  cases h : standsAlone (around pre post "SELECT ").toList with
  | true =>
    refine ⟨pre, post, hp, fun s hs => operand_of_standsAlone ?_⟩
    rw [standsAlone_around_eq hp hs hq, h]
  | false =>
    refine ⟨"(" ++ pre, post ++ ")", .append (by decide) hp, fun s hs => ?_⟩
    rw [operand_of_not_standsAlone (by rw [standsAlone_around_eq hp hs hq, h])]
    simp [around, parenthesized, String.append_assoc]

end Fragment

open Fragment

/-- A query with balanced texts and with `k` constants. -/
structure Expr.IsSubquery (k : Nat) (q : Expr) : Prop where
  isSelect : q.isSelect = true
  texts : ∀ s ∈ q.callerTexts, IsBalanced s.toList
  size : q.constants.length = k

section Subquery

variable {k : Nat} {q : Expr}

theorem Expr.textAt_of_isSelect (spell : Spelling) (h : q.isSelect = true) (p : Position) (n : Nat) :
    textAt spell q p n = textAt spell q .reference n := by
  obtain ⟨s, rfl⟩ := exists_toExpr_of_isSelect h
  rw [s.textAt_toExpr, s.textAt_toExpr]

theorem Expr.IsSubquery.isQueryText (h : IsSubquery k q) (d : Dialect) (mode : Mode) (n : Nat) :
    IsQueryText (textAt (mode.spelling d) q .reference n) := by
  refine ⟨isBalanced_textAt h.texts d mode .reference n, ?_⟩
  obtain ⟨s, rfl⟩ := exists_toExpr_of_isSelect h.isSelect
  exact ⟨_, (s.textAt_toExpr _ .reference n).trans (String.append_assoc ..)⟩

end Subquery

theorem Select.clausesText_of_assembles {spell : Spelling} {P : String → Prop}
    (h : Assembles spell P) {q : Select} {cs : List Clause}
    (hq : ∀ c ∈ cs, ∀ s ∈ (q.clause c).callerTexts, P s) (n : Nat) : P (q.clausesText spell cs n) := by
  induction cs generalizing n with
  | nil => exact h.empty
  | cons c cs ih =>
    have ht := fun m => Expr.textAt_of_assembles h (q.clause c) .reference m (hq c List.mem_cons_self)
    have hs := ih fun c' hc' => hq c' (List.mem_cons_of_mem _ hc')
    have hk : P (" " ++ c.keyword ++ " ") := h.spaced (h.keyword (by cases c <;> decide))
    have ho : P (c.operandText (q.clause c) (Expr.textAt spell (q.clause c) .reference n)) := by
      unfold Clause.operandText
      split
      · exact h.sourceText _ (ht n)
      · exact ht n
    exact h.append (h.clauseTextOf hk _ ho) (hs _)

theorem Text.closesQuotes_leading {ss : List String} (h : ClosesQuotes (", ".intercalate ss)) :
    ClosesQuotes (leading ss) := by
  unfold leading
  split
  · decide
  · exact h.append (by decide)

namespace Frame

theorem closesQuotes_textBefore {F : Frame} (hF : ∀ s ∈ F.callerTexts, IsBalanced s.toList)
    (d : Dialect) (mode : Mode) (p : Position) (n : Nat) :
    ClosesQuotes (F.textBefore (mode.spelling d) p n) := by
  have ha := assembles_isBalanced d mode
  have hchild : ∀ e ∈ (F.fill .empty).children, ∀ p n,
      IsBalanced (Expr.textAt (mode.spelling d) e p n).toList :=
    fun e he => Expr.isBalanced_textAt (Expr.forall_callerTexts hF he) d mode
  cases F with
  | computed _ | leftOperand _ _ | joinLeft _ _ _ | columns _ =>
    rw [textBefore]
    decide
  | rightOperand left op =>
    have hl := ha.operandText left (hchild left (by simp [fill, Expr.children]) .reference n)
    have ho := hF op (Expr.ownTexts_subset_callerTexts _ (by simp [fill, Expr.ownTexts]))
    exact .append (.append (by decide) hl.quotes) (ha.spaced ho).quotes
  | joinRight kind left condition =>
    have hl := ha.sourceText left (hchild left (by simp [fill, Expr.children]) .reference n)
    have hk := ha.spaced (s := kind.keyword) (ha.keyword (by cases kind <;> decide))
    exact (ha.append hl hk).quotes
  | joinCondition kind left right =>
    have hl := ha.sourceText left (hchild left (by simp [fill, Expr.children]) .reference n)
    have hk := ha.spaced (s := kind.keyword) (ha.keyword (by cases kind <;> decide))
    have hr := ha.sourceText right (hchild right (by simp [fill, Expr.children]) .reference
      (n + left.constants.length))
    have ho := ha.keyword (s := " ON ") (by decide)
    exact (ha.append (ha.append (ha.append hl hk) hr) ho).quotes
  | item es es' =>
    have hi := Expr.itemsTextAt_of_assembles ha es p.ofItems n fun e he =>
      Expr.forall_callerTexts hF (by simp [fill, Expr.children, he])
    rw [Expr.itemsTextAt_eq_intercalate] at hi
    exact Text.closesQuotes_leading hi.quotes
  | clause q c =>
    have hq : q.columns ∈ (q.set c .empty).toExpr.children := by
      cases c <;> simp [Select.set, Select.toExpr, Expr.children]
    have hs := ha.columnsText (hchild q.columns hq .selectList n)
    have he : ∀ c' ∈ c.earlier, q.clause c' ∈ (q.set c .empty).toExpr.children := by
      cases c <;> intro c' h <;> cases c' <;>
        simp [Clause.earlier, Clause.all, Select.clause, Select.set, Select.toExpr, Expr.children] at h ⊢
    have hc := Select.clausesText_of_assembles ha (fun c' h => Expr.forall_callerTexts hF (he c' h))
      (n + q.columns.constants.length)
    have hk := ha.spaced (s := c.keyword) (ha.keyword (by cases c <;> decide))
    exact (ha.append (ha.append (ha.append (ha.keyword (s := "SELECT ") (by decide)) hs) hc) hk).quotes

theorem isConstant_fill (F : Frame) (e : Expr) : (F.fill e).isConstant = false := by cases F <;> rfl

theorem isSelect_fill (F : Frame) (e e' : Expr) : (F.fill e).isSelect = (F.fill e').isSelect := by
  cases F <;> rfl

/-- A frame leaves the text of its child as it is, or treats it as an operand or as a source. -/
theorem wrap_cases (F : Frame) :
    (∀ e s, F.wrap e s = s) ∨ (∀ e s, F.wrap e s = e.operandText s) ∨
      (∀ e s, F.wrap e s = Renderer.sourceText e s) ∧ ∀ p, F.place p = .reference := by
  cases F with
  | item _ _ | columns _ => exact .inl fun _ _ => rfl
  | computed _ | leftOperand _ _ | rightOperand _ _ | joinCondition _ _ _ =>
    exact .inr (.inl fun _ _ => rfl)
  | joinLeft _ _ _ | joinRight _ _ _ => exact .inr (.inr ⟨fun _ _ => rfl, fun _ => rfl⟩)
  | clause q c =>
    cases c with
    | source => exact .inr (.inr ⟨fun _ _ => rfl, fun _ => rfl⟩)
    | _ => exact .inl fun _ _ => rfl

theorem wrap_of_encloses {F : Frame} (hF : F.encloses = true) {q : Expr} (hq : q.isSelect = true)
    {s : String} (hs : IsQueryText s) : F.wrap q s = parenthesized s := by
  obtain ⟨t, ht⟩ := hs.keyword
  have hg : isGroup s.toList = false := by rw [ht, Expr.isGroup_of_select]
  have hsource : Renderer.sourceText q s = parenthesized s := by simp [Renderer.sourceText, hq, hg]
  have hoperand : q.operandText s = parenthesized s := by
    have hc : q.isConstant = false := by cases q <;> simp_all [Expr.isSelect, Expr.isConstant]
    have ha : standsAlone s.toList = false := by
      have hsep := @standsAlone_separated "SELECT".toList ' ' (by decide) (by decide) t.toList
      rw [← hg, ht]
      simpa using hsep
    rw [Expr.operandText, hc, if_neg (by decide), operand_of_not_standsAlone ha]
  cases F with
  | item _ _ | columns _ => simp [encloses] at hF
  | clause q' c =>
    obtain rfl : c = .source := by simpa [encloses] using hF
    exact hsource
  | joinLeft _ _ _ | joinRight _ _ _ => exact hsource
  | computed _ | leftOperand _ _ | rightOperand _ _ | joinCondition _ _ _ => exact hoperand

end Frame

section Encloses

variable (d : Dialect) (mode : Mode) (k : Nat)

/-- A larger expression around a query: wherever it stands, its text has that of the query in
parentheses, and all around them is the same for each query with `k` constants. -/
structure Encloses (before after : List Value) (larger : Expr → Expr) : Prop where
  isConstant : ∀ q, (larger q).isConstant = false
  isSelect : ∀ q q', (larger q).isSelect = (larger q').isSelect
  constants : ∀ q, (larger q).constants = before ++ q.constants ++ after
  text : ∀ p n, ∃ pre post, ClosesQuotes pre ∧ ∀ q, q.IsSubquery k →
    Expr.textAt (mode.spelling d) (larger q) p n =
      around pre post (Expr.textAt (mode.spelling d) q .reference (n + before.length))

variable {d mode k}

theorem Frame.encloses_fill {F : Frame} (he : F.encloses = true)
    (hF : ∀ s ∈ F.callerTexts, IsBalanced s.toList) : Encloses d mode k F.before F.after F.fill where
  isConstant := F.isConstant_fill
  isSelect := F.isSelect_fill
  constants := F.constants_fill
  text p n := by
    refine ⟨F.textBefore (mode.spelling d) p n,
      F.textAfter (mode.spelling d) p (n + F.before.length + k), closesQuotes_textBefore hF d mode p n, ?_⟩
    intro q hq
    have ht := hq.isQueryText d mode (n + F.before.length)
    have hp := Expr.textAt_of_isSelect (mode.spelling d) hq.isSelect (F.place p) (n + F.before.length)
    have hn : Expr.textAt (mode.spelling d) q (F.place p) (n + F.before.length) ≠ "" := by
      obtain ⟨t, h⟩ := ht.keyword
      simp [hp, h]
    rw [F.textAt_fill _ p n hn, hp, F.wrap_of_encloses he hq.isSelect ht, hq.size]
    rfl

variable {before after : List Value} {larger : Expr → Expr} (h : Encloses d mode k before after larger)
include h

/-- What a frame makes of the text of the larger expression is again the same around each query. -/
theorem Encloses.wrap (F : Frame) (p : Position) (n : Nat) :
    ∃ pre post, ClosesQuotes pre ∧ ∀ q, q.IsSubquery k →
      F.wrap (larger q) (Expr.textAt (mode.spelling d) (larger q) (F.place p) n) =
        around pre post (Expr.textAt (mode.spelling d) q .reference (n + before.length)) := by
  obtain ⟨pre, post, hp, ht⟩ := h.text (F.place p) n
  rcases F.wrap_cases with hw | hw | ⟨hw, hr⟩
  · refine ⟨pre, post, hp, fun q hq => ?_⟩
    rw [hw, ht q hq]
  · -- An operand is judged by its text, but alike for each query.
    obtain ⟨pre', post', hp', ho⟩ := operand_around hp post
    refine ⟨pre', post', hp', fun q hq => ?_⟩
    rw [hw, Expr.operandText, h.isConstant, if_neg (by decide), ht q hq, ho _ (hq.isQueryText d mode _)]
  · -- A source is judged by its node, which is the same one for each query.
    rw [hr] at ht
    cases hs : (larger .empty).isSelect with
    | false =>
      refine ⟨pre, post, hp, fun q hq => ?_⟩
      rw [hw, hr, Expr.sourceText_textAt, h.isSelect q .empty, hs, if_neg (by decide), ht q hq]
    | true =>
      refine ⟨"(" ++ pre, post ++ ")", .append (by decide) hp, fun q hq => ?_⟩
      rw [hw, hr, Expr.sourceText_textAt, h.isSelect q .empty, hs, if_pos rfl, ht q hq]
      simp [around, parenthesized, String.append_assoc]

theorem Encloses.fill {F : Frame} (hF : ∀ s ∈ F.callerTexts, IsBalanced s.toList) :
    Encloses d mode k (F.before ++ before) (after ++ F.after) fun q => F.fill (larger q) where
  isConstant q := F.isConstant_fill _
  isSelect q q' := F.isSelect_fill _ _
  constants q := by simp [F.constants_fill, h.constants]
  text p n := by
    obtain ⟨pre, post, hp, hw⟩ := h.wrap F p (n + F.before.length)
    let m := n + F.before.length + (before.length + k + after.length)
    refine ⟨F.textBefore (mode.spelling d) p n ++ pre, post ++ F.textAfter (mode.spelling d) p m,
      (F.closesQuotes_textBefore hF d mode p n).append hp, fun q hq => ?_⟩
    have hn : Expr.textAt (mode.spelling d) (larger q) (F.place p) (n + F.before.length) ≠ "" := by
      obtain ⟨u, v, _, ht⟩ := h.text (F.place p) (n + F.before.length)
      simp [ht q hq, around, parenthesized]
    have hl : (larger q).constants.length = before.length + k + after.length := by
      simp [h.constants, hq.size, Nat.add_assoc]
    rw [F.textAt_fill _ p n hn, hw q hq, hl]
    simp [around, String.append_assoc, Nat.add_assoc, m]

theorem Encloses.surround {frames : List Frame}
    (hF : ∀ F ∈ frames, ∀ s ∈ F.callerTexts, IsBalanced s.toList) :
    ∃ before after, Encloses d mode k before after fun q => surround frames (larger q) := by
  induction frames generalizing before after larger with
  | nil => exact ⟨before, after, h⟩
  | cons F frames ih =>
    exact ih (h.fill (hF F List.mem_cons_self)) fun G hG => hF G (List.mem_cons_of_mem _ hG)

end Encloses

namespace Expr

/-- Frames reach every part of a tree, so that `F` and those around it stand for any place of an operand or
of a source. A query there has a pair of parentheses of its own in the text of the whole expression: its
text is balanced, and the quotes in front of it are closed. What is around the parentheses is the same for
every query with as many constants. -/
theorem render_encloses_subquery {F : Frame} (hF : F.encloses = true) :
    (∀ e q : Expr, F.fill q ∈ e.parts ↔ ∃ frames, surround (F :: frames) q = e) ∧
    ∀ (frames : List Frame) (k : Nat) (d : Dialect) (mode : Mode),
      ∃ before after pre post, ClosesQuotes pre ∧
        ∀ q : Expr, q.isSelect = true → q.constants.length = k →
          (∀ s ∈ (surround (F :: frames) q).callerTexts, IsBalanced s.toList) →
          let inner := (q.render d (mode.extend before)).sql
          (surround (F :: frames) q).constants = before ++ q.constants ++ after ∧
            ((surround (F :: frames) q).render d mode).sql = pre ++ parenthesized inner ++ post ∧
            IsBalanced inner.toList := by
  refine ⟨fun e q => exists_surround_iff.symm, fun frames k d mode => ?_⟩
  by_cases h : ∀ G ∈ F :: frames, ∀ s ∈ G.callerTexts, IsBalanced s.toList
  · have hf := @Frame.encloses_fill d mode k F hF (h F List.mem_cons_self)
    obtain ⟨before, after, he⟩ := hf.surround fun G hG => h G (List.mem_cons_of_mem _ hG)
    obtain ⟨pre, post, hp, ht⟩ := he.text .reference mode.sink.length
    refine ⟨before, after, pre, post, hp, fun q hs hl hb => ?_⟩
    have hq : ∀ s ∈ q.callerTexts, IsBalanced s.toList := fun s hm =>
      hb s ((mem_callerTexts_surround _ q s).mpr (.inr hm))
    have hn := mode.startsAt_sink.extend before
    refine ⟨he.constants q, ?_, ?_⟩
    · rw [sql_render, sql_render_of_startsAt hn, Mode.spelling_extend]
      exact ht q ⟨hs, hq, hl⟩
    · rw [sql_render]
      exact isBalanced_textAt hq d _ .reference _
  · -- No tree with these frames has balanced texts.
    refine ⟨[], [], "", "", by decide, fun q _ _ hb => absurd (fun G hG s hs => ?_) h⟩
    exact hb s ((mem_callerTexts_surround _ q s).mpr (.inl ⟨G, hG, hs⟩))

/-- A query as the operand of `IN`, itself an operand in a condition; its constant holds a quote and a
parenthesis. -/
theorem render_encloses_subquery_in_condition :
    let q := ((Select.ofColumns (filter .ne "a" (.string "it's :)"))).set .source (ofText "t")).toExpr
    let F := Frame.rightOperand (named "b") "IN"
    let frames := [.leftOperand "OR" empty, .clause (.ofColumns (constant (.int 0))) .condition]
    (F.encloses = true ∧ q.isSelect = true ∧ q.constants.length = 1 ∧
      ∀ s ∈ (surround (F :: frames) q).callerTexts, IsBalanced s.toList) ∧
      ∃ before pre post, ClosesQuotes pre ∧
        ((surround (F :: frames) q).render .postgres (.bind [])).sql =
          pre ++ parenthesized (q.render .postgres (.bind before)).sql ++ post := by
  intro q F frames
  have h : ∀ s ∈ (surround (F :: frames) q).callerTexts, IsBalanced s.toList := by decide
  refine ⟨⟨rfl, rfl, rfl, h⟩, ?_⟩
  obtain ⟨before, _, pre, post, hp, hq⟩ :=
    (render_encloses_subquery (F := F) rfl).2 frames 1 .postgres (.bind [])
  exact ⟨before, pre, post, hp, (hq q rfl rfl h).2.1⟩

/-- As an item of a list, as the select list and in the other clauses a query is written as it is. -/
theorem subquery_bare_outside_operands_and_sources :
    let q := ((Select.ofColumns (named "a")).set .source (ofText "t")).toExpr
    let s := (Select.ofColumns (named "b")).set .source (ofText "u")
    ∀ F ∈ [.item [] [named "b"], .columns s, .clause s .condition, .clause s .grouping,
      .clause s .having, .clause s .ordering],
      (∀ t ∈ (Frame.fill F q).callerTexts, IsBalanced t.toList) ∧
        ¬ (parenthesized (q.render .ansi .literal).sql).toList <:+:
          ((F.fill q).render .ansi .literal).sql.toList := by
  decide +kernel

end Expr

end SqlExpr
