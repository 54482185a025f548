import SqlExpr.Proofs.Layers
import SqlExpr.Proofs.Wrapping

/-! # Quoted identifiers

Standard SQL writes constants between single quotes and identifiers, where need be, between double ones.
The reader of groups knows the former only, so that single quotes and parentheses inside of an identifier
count for it. Where each identifier by itself closes its single quotes and opens no more parentheses than
it closes, a fragment that is left bare as a group is one: its first parenthesis is closed by its last.
Otherwise one identifier can make up for another, and two groups with an operator between them pass for
one.
-/
namespace SqlExpr
open Fragment Text

/-- An element of a text in standard SQL: a character outside of all quotes, a constant or a quoted
identifier. -/
inductive Lexeme where
  | bare (c : Char) (h : c ≠ '\'' ∧ c ≠ '"')
  | constant (cs : List Char)
  | identifier (cs : List Char)
deriving DecidableEq

namespace Lexeme

def opening : Lexeme := bare '(' (by decide)

def closing : Lexeme := bare ')' (by decide)

def bares (cs : List Char) : List Lexeme :=
  cs.filterMap fun c => if h : c ≠ '\'' ∧ c ≠ '"' then some (bare c h) else none

def chars : Lexeme → List Char
  | bare c _ => [c]
  | constant cs => quoted '\'' cs
  | identifier cs => quoted '"' cs

def text (ls : List Lexeme) : String := .ofList (ls.flatMap chars)

def outside (ls : List Lexeme) : List Char :=
  ls.flatMap fun
    | bare c _ => [c]
    | _ => []

/-- The parenthesis at the start is matched by the one at the end. -/
def IsEnclosed (ls : List Lexeme) : Prop :=
  ∃ ms, ls = opening :: (ms ++ [closing]) ∧ IsMatched (outside ms)

/-- By itself, the text closes its single quotes, and outside of these it opens no more parentheses than
it closes. -/
structure IsTame (cs : List Char) : Prop where
  quotes : cs.count '\'' % 2 = 0
  opened : (unquoted false cs).count '(' ≤ (unquoted false cs).count ')'

instance (cs : List Char) : Decidable (IsTame cs) :=
  decidable_of_iff (cs.count '\'' % 2 = 0 ∧ (unquoted false cs).count '(' ≤ (unquoted false cs).count ')')
    ⟨fun h => ⟨h.1, h.2⟩, fun h => ⟨h.quotes, h.opened⟩⟩

theorem outside_append (ls ms : List Lexeme) : outside (ls ++ ms) = outside ls ++ outside ms :=
  List.flatMap_append

theorem chars_ne_nil (l : Lexeme) : l.chars ≠ [] := by
  cases l <;> simp [chars, quoted]

theorem flatMap_chars_eq_nil {ls : List Lexeme} (h : ls.flatMap chars = []) : ls = [] := by
  cases ls with
  | nil => rfl
  | cons l ls =>
    rw [List.flatMap_cons, List.append_eq_nil_iff] at h
    exact absurd h.1 l.chars_ne_nil

theorem unquoted_doubled {q : Char} (hq : q ≠ '\'') (inQuote : Bool) (cs : List Char) :
    unquoted inQuote (doubled q cs) = doubled q (unquoted inQuote cs) := by
  induction cs generalizing inQuote with
  | nil => rfl
  | cons c cs ih =>
    by_cases hc : c = q
    · subst hc
      cases inQuote <;> simp [doubled, unquoted, hq, ih]
    · by_cases hs : c = '\''
      · subst hs
        simp [doubled, unquoted, hc, ih]
      · cases inQuote <;> simp [doubled, unquoted, hc, hs, ih]

theorem count_quoted_of_ne {x : Char} (hx : x ≠ '"') (cs : List Char) :
    (quoted '"' cs).count x = cs.count x := by
  simp [quoted, List.count_append, count_doubled, hx, hx.symm]

theorem unquoted_identifier {cs : List Char} (h : cs.count '\'' % 2 = 0) :
    unquoted false (quoted '"' cs) = quoted '"' (unquoted false cs) := by
  have hd : ((doubled '"' cs).count '\'' + false.toNat) % 2 = 0 := by
    simpa [count_doubled] using h
  rw [quoted, List.cons_append, unquoted_cons (by decide), unquoted_append hd,
    unquoted_doubled (by decide)]
  rfl

theorem closesAtEnd_identifier {cs rest : List Char} (ht : IsTame cs) (hn : rest ≠ []) {depth : Nat}
    (h : closesAtEnd (depth + 1) false (quoted '"' cs ++ rest) = true) :
    ∃ d ≤ depth, closesAtEnd (d + 1) false rest = true := by
  have hq : ((quoted '"' cs).count '\'' + false.toNat) % 2 = 0 := by
    rw [count_quoted_of_ne (by decide)]
    exact ht.quotes
  have ho := staysOpen_of_closesAtEnd hq hn h
  have hclosed := ho _ (List.prefix_refl _)
  have hopened := ht.opened
  rw [closesAtEnd_append rest hq ho] at h
  rw [unquoted_identifier ht.quotes, count_quoted_of_ne (by decide),
    count_quoted_of_ne (by decide)] at h hclosed
  generalize (unquoted false cs).count '(' = opened, (unquoted false cs).count ')' = closed at *
  have he : depth + 1 + opened - closed = depth + opened - closed + 1 := by omega
  rw [he] at h
  exact ⟨depth + opened - closed, by omega, h⟩

/-- What a text in standard SQL goes on with: a constant, an identifier, a parenthesis or another character
outside of quotes. -/
theorem lexeme_induction {P : List Lexeme → Prop} (nil : P [])
    (constant : ∀ cs ls, P ls → P (constant cs :: ls))
    (identifier : ∀ cs ls, P ls → P (identifier cs :: ls))
    (opening : ∀ ls, P ls → P (opening :: ls)) (closing : ∀ ls, P ls → P (closing :: ls))
    (plain : ∀ c h ls, isPlain c = true → P ls → P (bare c h :: ls)) (ls : List Lexeme) : P ls := by
  induction ls with
  | nil => exact nil
  | cons l ls ih =>
    cases l with
    | constant cs => exact constant cs ls ih
    | identifier cs => exact identifier cs ls ih
    | bare c h =>
      by_cases ho : c = '('
      · subst ho
        exact opening ls ih
      · by_cases hc : c = ')'
        · subst hc
          exact closing ls ih
        · exact plain c h ls (isPlain_iff.mpr ⟨h.1, ho, hc⟩) ih

/-- What the reader of groups reads to the end inside of a group, no deeper than the text is, ends with the
parenthesis that closes this group and all around it. -/
theorem exists_closing_of_closesAtEnd {ls : List Lexeme} (hi : ∀ cs, identifier cs ∈ ls → IsTame cs)
    {read depth : Nat} (hle : read ≤ depth)
    (hc : (outside ls).count ')' = (outside ls).count '(' + (depth + 1))
    (h : closesAtEnd (read + 1) false (ls.flatMap chars) = true) :
    ∃ ms, ls = ms ++ [closing] ∧ ClosesGroups depth false (outside ms) := by
  have hrest : ∀ {l ls}, (∀ cs, identifier cs ∈ l :: ls → IsTame cs) →
      ∀ cs, identifier cs ∈ ls → IsTame cs := fun hi cs hm => hi cs (List.mem_cons_of_mem _ hm)
  induction ls using lexeme_induction generalizing read depth with
  | nil => simp [closesAtEnd] at h
  | constant cs ls ih =>
    rw [List.flatMap_cons, chars, closesAtEnd_quoted_append] at h
    obtain ⟨ms, rfl, hm⟩ := ih (hrest hi) hle hc h
    exact ⟨constant cs :: ms, rfl, hm⟩
  | identifier cs ls ih =>
    have hn : ls.flatMap chars ≠ [] := by
      intro he
      rw [flatMap_chars_eq_nil he] at hc
      simp [outside] at hc
    obtain ⟨d, hd, h⟩ := closesAtEnd_identifier (hi cs List.mem_cons_self) hn h
    obtain ⟨ms, rfl, hm⟩ := ih (hrest hi) (hd.trans hle) hc h
    exact ⟨identifier cs :: ms, rfl, hm⟩
  | opening ls ih =>
    have ho : outside (opening :: ls) = '(' :: outside ls := rfl
    have hr : closesAtEnd (read + 2) false (ls.flatMap chars) = true := by
      rwa [List.flatMap_cons, opening, chars, List.singleton_append, closesAtEnd_open] at h
    rw [ho, List.count_cons_self, List.count_cons_of_ne (by decide)] at hc
    obtain ⟨ms, rfl, hm⟩ := ih (hrest hi) (Nat.succ_le_succ hle) (by omega) hr
    exact ⟨opening :: ms, rfl, hm.opening⟩
  | closing ls ih =>
    have ho : outside (closing :: ls) = ')' :: outside ls := rfl
    rw [ho, List.count_cons_self, List.count_cons_of_ne (by decide)] at hc
    rw [List.flatMap_cons, closing, chars, List.singleton_append] at h
    cases read with
    | zero =>
      obtain rfl : ls = [] := by
        have he : (ls.flatMap chars).isEmpty = true := by simp_all [closesAtEnd]
        exact flatMap_chars_eq_nil (List.isEmpty_iff.mp he)
      obtain rfl : depth = 0 := by simpa [outside] using hc
      exact ⟨[], rfl, .nil⟩
    | succ read =>
      rw [closesAtEnd_close] at h
      obtain ⟨d, rfl⟩ : ∃ d, depth = d + 1 := ⟨depth - 1, by omega⟩
      obtain ⟨ms, rfl, hm⟩ := ih (hrest hi) (Nat.le_of_succ_le_succ hle) (by omega) h
      exact ⟨closing :: ms, rfl, hm.closing⟩
  | plain c hq ls hp ih =>
    obtain ⟨_, ho, hcl⟩ := isPlain_iff.mp hp
    have hout : outside (bare c hq :: ls) = c :: outside ls := rfl
    rw [hout, List.count_cons_of_ne hcl, List.count_cons_of_ne ho] at hc
    rw [List.flatMap_cons, chars, List.singleton_append, closesAtEnd_plain_cons hp] at h
    obtain ⟨ms, rfl, hm⟩ := ih (hrest hi) hle hc h
    exact ⟨bare c hq :: ms, rfl, hm.plain hp⟩

theorem no_quote_outside {ls : List Lexeme} {c : Char} (hc : c ∈ outside ls) : c ≠ '\'' := by
  obtain ⟨l, _, hl⟩ := List.mem_flatMap.mp hc
  cases l with
  | bare d h =>
    obtain rfl : c = d := by simpa using hl
    exact h.1
  | constant => simp at hl
  | identifier => simp at hl

theorem isEnclosed_of_isGroup {ls : List Lexeme} (hw : IsMatched (outside ls))
    (hi : ∀ cs, identifier cs ∈ ls → IsTame cs) (hg : isGroup (ls.flatMap chars) = true) :
    IsEnclosed ls := by
  rw [isGroup_eq, Bool.and_eq_true, beq_iff_eq] at hg
  obtain ⟨hh, hg⟩ := hg
  cases ls with
  | nil => simp at hh
  | cons l ls =>
    cases l with
    | constant cs => simp [chars, quoted] at hh
    | identifier cs => simp [chars, quoted] at hh
    | bare c hq =>
      obtain rfl : c = '(' := by simpa [chars] using hh
      have hc := hw.closed
      have ho : outside (bare '(' hq :: ls) = '(' :: outside ls := rfl
      rw [ho, List.count_cons_self, List.count_cons_of_ne (by decide)] at hc
      rw [List.flatMap_cons, chars, List.singleton_append, closesAtEnd_open] at hg
      obtain ⟨ms, rfl, hm⟩ := exists_closing_of_closesAtEnd
        (fun cs hmem => hi cs (List.mem_cons_of_mem _ hmem)) (Nat.le_refl 0) hc hg
      have hb := (ClosesGroups.isBalanced_iff.mp hm).matched
      rw [unquoted_of_no_quote fun _ => no_quote_outside] at hb
      exact ⟨ms, rfl, hb⟩

/-- Between its ends, an enclosed text never leaves the group that it begins with. -/
theorem IsEnclosed.lt_of_append {as bs : List Lexeme} (h : IsEnclosed (as ++ bs)) (ha : as ≠ [])
    (hb : bs ≠ []) : (outside as).count ')' < (outside as).count '(' := by
  obtain ⟨ms, he, hm⟩ := h
  obtain ⟨a, as, rfl⟩ := List.exists_cons_of_ne_nil ha
  obtain ⟨bs, b, rfl⟩ := (List.eq_nil_or_concat bs).resolve_left hb
  rw [List.concat_eq_append, List.cons_append, ← List.append_assoc] at he
  obtain ⟨rfl, hs⟩ := List.cons.inj he
  have hp : outside as <+: outside ms := by
    rw [← (List.append_inj' hs rfl).1, outside_append]
    exact List.prefix_append _ _
  have ho := hm.opened _ hp
  have hout : outside (opening :: as) = '(' :: outside as := rfl
  rw [hout, List.count_cons_self, List.count_cons_of_ne (by decide)]
  omega

/-- A fragment of matching parentheses that is left bare because it passes for a group begins with the
parenthesis that its last character closes, if each of its identifiers is tame. So wherever it stands as an
operand, it stands there as it is, and all that is between its ends is inside of that group. -/
theorem operand_left_bare_is_enclosed {ls : List Lexeme} (hw : IsMatched (outside ls))
    (hi : ∀ cs, identifier cs ∈ ls → IsTame cs) {w : Word} (ht : w.text = text ls)
    (hg : isGroup w.text.toList = true) :
    IsEnclosed ls ∧
      (∀ as bs, ls = as ++ bs → as ≠ [] → bs ≠ [] →
        (outside as).count ')' < (outside as).count '(') ∧
      ∀ F : Frame, F.isOperand = true → ∀ (d : Dialect) (mode : Mode),
        let n := mode.sink.length
        ((F.fill (.raw w)).render d mode).sql =
          F.textBefore (mode.spelling d) .reference n ++ text ls ++
            F.textAfter (mode.spelling d) .reference (n + F.before.length) := by
  have hc : w.text.toList = ls.flatMap chars := by rw [ht, text, String.toList_ofList]
  have he : IsEnclosed ls := isEnclosed_of_isGroup hw hi (by rwa [← hc])
  refine ⟨he, fun as bs hs => (hs ▸ he).lt_of_append, fun F hF d mode => ?_⟩
  have ho : (Expr.raw w).operandText w.text = text ls := by
    have ha : standsAlone w.text.toList = true := standsAlone_iff.mpr (.inr (.inr (.inr hg)))
    have hk : (Expr.raw w).isConstant = false := rfl
    rw [Expr.operandText, hk, operand_of_standsAlone ha, ht]
    rfl
  have hn : ∀ p m, Expr.textAt (mode.spelling d) (.raw w) p m = w.text := fun p m => by
    rw [Expr.textAt]
  rw [Expr.sql_render, F.textAt_fill _ _ _ (by rw [hn]; exact w.ne_empty), hn,
    F.wrap_of_isOperand hF, ho, Expr.constants]
  rfl

/-- An identifier with parentheses and quotes of both kinds that make no difference. -/
theorem operand_left_bare_is_enclosed_around_identifier :
    let ls := opening :: (identifier "a \"(b)' ('".toList :: (bares " = ".toList ++
      constant [')'] :: (bares " OR c".toList ++ [closing])))
    let w : Word := ⟨"(\"a \"\"(b)' ('\" = ')' OR c)", by decide⟩
    (IsMatched (outside ls) ∧ (∀ cs, identifier cs ∈ ls → IsTame cs) ∧ w.text = text ls ∧
        isGroup w.text.toList = true) ∧
      IsEnclosed ls ∧
        ((Expr.raw w).and (.named "x")).literalSql .ansi =
          "((\"a \"\"(b)' ('\" = ')' OR c) AND x)" := by
  intro ls w
  have hw : IsMatched (outside ls) := by decide
  have hi : ∀ cs, identifier cs ∈ ls → IsTame cs := by
    have ha : ∀ l ∈ ls, ∀ cs, l = identifier cs → IsTame cs := by
      intro l hl cs he
      subst he
      obtain rfl : cs = "a \"(b)' ('".toList := by simpa [ls, opening, closing, bares] using hl
      decide
    exact fun cs hm => ha _ hm cs rfl
  have ht : w.text = text ls := by decide
  have hg : isGroup w.text.toList = true := by decide
  have h := operand_left_bare_is_enclosed hw hi ht hg
  exact ⟨⟨hw, hi, ht, hg⟩, h.1, (h.2.2 (.leftOperand "AND" (.named "x")) rfl .ansi .literal).trans
    (by decide +kernel)⟩

/-- Two groups with an operator between them, whose identifiers make up for each other. -/
theorem two_groups_left_bare :
    let ls := bares "(a = ".toList ++ identifier ['('] :: (bares ") OR (b = ".toList ++
      identifier [')'] :: bares ")".toList)
    let w : Word := ⟨"(a = \"(\") OR (b = \")\")", by decide⟩
    (IsMatched (outside ls) ∧ w.text = text ls ∧ isGroup w.text.toList = true ∧ ¬ IsEnclosed ls) ∧
      operand w.text = w.text ∧
      ((Expr.raw w).and (.named "c")).literalSql .ansi = "((a = \"(\") OR (b = \")\") AND c)" ∧
      ¬ ∀ ls, IsMatched (outside ls) → isGroup (text ls).toList = true → IsEnclosed ls := by
  intro ls w
  have hw : IsMatched (outside ls) := by decide
  have ht : w.text = text ls := by decide
  have hg : isGroup w.text.toList = true := by decide
  have hn : ¬ IsEnclosed ls := by
    -- Before the operator, the group of the first parenthesis is closed.
    intro he
    have hs : ls = (bares "(a = ".toList ++ identifier ['('] :: bares ")".toList) ++
        (bares " OR (b = ".toList ++ identifier [')'] :: bares ")".toList) := by decide
    rw [hs] at he
    exact absurd (he.lt_of_append (by decide) (by decide)) (by decide)
  refine ⟨⟨hw, ht, hg, hn⟩, by decide +kernel, by decide +kernel, fun h => hn (h ls hw ?_)⟩
  rwa [← ht]

end Lexeme

end SqlExpr
