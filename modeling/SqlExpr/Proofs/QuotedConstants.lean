import SqlExpr.Proofs.Groups

/-! # Quoted constants by their grammar

A quoted constant is a quote, characters that are no quotes and pairs of quotes in any order, and a quote,
with at most one ASCII letter in front. Its reader takes the last quote away before it looks for pairs, so
that a text with a constant at its start is read past the end of that constant only where the next character
is a quote too. Both quotes are then a pair, and the whole may be one longer constant; constants with
anything else between them are never taken for one.
-/
namespace SqlExpr.Fragment
open Text

/-- Characters that are no quotes and pairs of quotes, in any order. -/
inductive QuotedBody : List Char → Prop
  | nil : QuotedBody []
  | char {c : Char} {cs : List Char} (hc : c ≠ '\'') (h : QuotedBody cs) : QuotedBody (c :: cs)
  | pair {cs : List Char} (h : QuotedBody cs) : QuotedBody ('\'' :: '\'' :: cs)

/-- A body between two quotes, behind at most one ASCII letter. -/
inductive ConstantForm : List Char → Prop
  | bare {cs : List Char} (h : QuotedBody cs) : ConstantForm ('\'' :: (cs ++ ['\'']))
  | lettered {c : Char} {cs : List Char} (hc : c.isAlpha = true) (h : QuotedBody cs) :
    ConstantForm (c :: '\'' :: (cs ++ ['\'']))

theorem hasPairedQuotes_iff_quotedBody {cs : List Char} :
    hasPairedQuotes cs = true ↔ QuotedBody cs := by
  constructor
  · intro h
    fun_induction hasPairedQuotes cs with
    | case1 => exact .nil
    | case2 cs ih => exact .pair (ih h)
    | case3 c cs _ ih =>
      rw [Bool.and_eq_true, bne_iff_ne] at h
      exact .char h.1 (ih h.2)
  · intro h
    induction h with
    | nil => rfl
    | char hc _ ih =>
      rw [hasPairedQuotes_eq] at ih ⊢
      simpa [pairsQuotes, hc] using ih
    | pair _ ih => exact ih

theorem withoutLetter_of_isAlpha {c : Char} (h : c.isAlpha = true) (cs : List Char) :
    withoutLetter (c :: cs) = cs := by
  rw [withoutLetter, if_pos h]

theorem withoutLetter_quote (cs : List Char) : withoutLetter ('\'' :: cs) = '\'' :: cs := rfl

theorem constantForm_iff {cs : List Char} :
    ConstantForm cs ↔ ∃ inner, withoutLetter cs = '\'' :: (inner ++ ['\'']) ∧ QuotedBody inner := by
  constructor
  · intro h
    cases h with
    | bare h => exact ⟨_, withoutLetter_quote _, h⟩
    | lettered hc h => exact ⟨_, withoutLetter_of_isAlpha hc _, h⟩
  · rintro ⟨inner, hw, h⟩
    cases cs with
    | nil => cases hw
    | cons c cs =>
      by_cases hc : c.isAlpha = true
      · rw [withoutLetter_of_isAlpha hc] at hw
        exact hw ▸ .lettered hc h
      · rw [withoutLetter, if_neg hc] at hw
        exact hw ▸ .bare h

theorem isConstant_iff_exists_body {cs : List Char} :
    isConstant cs = true ↔
      ∃ inner, withoutLetter cs = '\'' :: (inner ++ ['\'']) ∧ QuotedBody inner := by
  simp only [isConstant_iff, hasPairedQuotes_iff_quotedBody]

/-! ## Quotes are closed at the end -/

theorem QuotedBody.count_quote {cs : List Char} (h : QuotedBody cs) : cs.count '\'' % 2 = 0 := by
  induction h with
  | nil => rfl
  | char hc _ ih => rwa [List.count_cons_of_ne hc]
  | pair _ ih =>
    rw [List.count_cons_self, List.count_cons_self]
    omega

theorem ConstantForm.count_quote {cs : List Char} (h : ConstantForm cs) : cs.count '\'' % 2 = 0 := by
  have hquotes : ∀ {inner : List Char}, QuotedBody inner →
      ('\'' :: (inner ++ ['\''])).count '\'' % 2 = 0 := by
    intro inner hi
    have hb := hi.count_quote
    rw [List.count_cons_self, List.count_append, List.count_singleton_self]
    omega
  cases h with
  | bare h => exact hquotes h
  | @lettered c inner hc h =>
    have hq : c ≠ '\'' := by
      rintro rfl
      exact absurd hc (by decide)
    rw [List.count_cons_of_ne hq]
    exact hquotes h

/-! ## Constants next to each other -/

theorem quotedBody_cons_iff {c : Char} (hc : c ≠ '\'') {cs : List Char} :
    QuotedBody (c :: cs) ↔ QuotedBody cs := by
  constructor
  · rintro (_ | ⟨_, h⟩ | _)
    · exact h
    · exact absurd rfl hc
  · exact .char hc

theorem quotedBody_quote_iff {cs : List Char} :
    QuotedBody ('\'' :: cs) ↔ ∃ ds, cs = '\'' :: ds ∧ QuotedBody ds := by
  constructor
  · rintro (_ | ⟨hc, _⟩ | h)
    · exact absurd rfl hc
    · exact ⟨_, rfl, h⟩
  · rintro ⟨ds, rfl, h⟩
    exact .pair h

theorem QuotedBody.append_iff {a : List Char} (h : QuotedBody a) (b : List Char) :
    QuotedBody (a ++ b) ↔ QuotedBody b := by
  induction h with
  | nil => rfl
  | char hc _ ih => rw [List.cons_append, quotedBody_cons_iff hc, ih]
  | pair _ ih =>
    rw [List.cons_append, List.cons_append, quotedBody_quote_iff, ← ih]
    simp

theorem withoutLetter_append_of_ne_nil {a : List Char} (h : a ≠ []) (t : List Char) :
    withoutLetter (a ++ t) = withoutLetter a ++ t := by
  obtain ⟨c, cs, rfl⟩ := List.exists_cons_of_ne_nil h
  rw [List.cons_append, withoutLetter, withoutLetter]
  split <;> rfl

/-- A constant goes on as a constant with another one whose first quote stands right behind its last. -/
theorem isConstant_append_iff {a : List Char} (h : isConstant a = true) (t : List Char) :
    isConstant (a ++ t) = true ↔ t = [] ∨ t.head? = some '\'' ∧ isConstant t = true := by
  obtain ⟨inner, hw, hbody⟩ := isConstant_iff_exists_body.mp h
  have hne : a ≠ [] := by
    rintro rfl
    cases hw
  have hwhole : withoutLetter (a ++ t) = '\'' :: (inner ++ '\'' :: t) := by
    rw [withoutLetter_append_of_ne_nil hne, hw, List.cons_append, List.append_assoc]
    rfl
  constructor
  · intro ht
    obtain ⟨whole, he, hwb⟩ := isConstant_iff_exists_body.mp ht
    rw [hwhole, List.cons.injEq] at he
    rcases List.eq_nil_or_concat t with rfl | ⟨u, c, rfl⟩
    · exact .inl rfl
    · -- The quote at the end is the last of `t`, and the one in front of `t` needs a partner.
      rw [List.concat_eq_append, ← List.cons_append, ← List.append_assoc] at he
      obtain ⟨rfl, hc⟩ := List.append_inj' he.2 rfl
      rw [hbody.append_iff, quotedBody_quote_iff] at hwb
      obtain ⟨m, rfl, hm⟩ := hwb
      refine .inr ⟨by simp, isConstant_iff_exists_body.mpr ⟨m, ?_, hm⟩⟩
      rw [List.concat_eq_append, hc]
      rfl
  · rintro (rfl | ⟨hq, ht⟩)
    · rwa [List.append_nil]
    · obtain ⟨u, rfl⟩ := List.head?_eq_some_iff.mp hq
      obtain ⟨m, hm, hmb⟩ := isConstant_iff_exists_body.mp ht
      rw [withoutLetter_quote, List.cons.injEq] at hm
      obtain ⟨-, rfl⟩ := hm
      refine isConstant_iff_exists_body.mpr
        ⟨inner ++ '\'' :: '\'' :: m, ?_, (hbody.append_iff _).mpr (.pair hmb)⟩
      rw [hwhole, List.append_assoc]
      rfl

/-- What stands behind a constant keeps the text from being one unless it begins with a quote. -/
theorem isConstant_append_eq_false {a t : List Char} (h : isConstant a = true) (ht : t ≠ [])
    (hq : t.head? ≠ some '\'') (u : List Char) : isConstant (a ++ (t ++ u)) = false := by
  obtain ⟨c, t, rfl⟩ := List.exists_cons_of_ne_nil ht
  rw [Bool.eq_false_iff, ne_eq, isConstant_append_iff h]
  rintro (he | ⟨hc, _⟩)
  · cases he
  · exact hq hc

/-- A text and further ones, each with what joins it to the text before. -/
def joined (s : String) (rest : List (String × String)) : String :=
  s ++ String.join (rest.map fun p => p.1 ++ p.2)

theorem joined_cons (s : String) (p : String × String) (rest : List (String × String)) :
    joined s (p :: rest) = joined (s ++ (p.1 ++ p.2)) rest := by
  simp [joined, String.append_assoc]

/-- Constants that are joined by texts which begin with no quote are one constant only if nothing comes
between them and each has its quote right behind that of the one before. -/
theorem isConstant_joined_iff {s : String} {rest : List (String × String)}
    (hs : isConstant s.toList = true)
    (hr : ∀ p ∈ rest, p.1.toList.head? ≠ some '\'' ∧ isConstant p.2.toList = true) :
    isConstant (joined s rest).toList = true ↔
      ∀ p ∈ rest, (p.1 ++ p.2).toList.head? = some '\'' := by
  induction rest generalizing s with
  | nil => simp [joined, hs]
  | cons p rest ih =>
    obtain ⟨⟨hglue, hp⟩, hrest⟩ := List.forall_mem_cons.mp hr
    rw [List.forall_mem_cons]
    by_cases hq : (p.1 ++ p.2).toList.head? = some '\''
    · have hg : p.1.toList = [] := by
        rw [String.toList_append] at hq
        cases hl : p.1.toList with
        | nil => rfl
        | cons c cs =>
          rw [hl] at hq hglue
          exact absurd hq hglue
      have hboth : isConstant (s ++ (p.1 ++ p.2)).toList = true := by
        rw [String.toList_append, isConstant_append_iff hs]
        refine .inr ⟨hq, ?_⟩
        rwa [String.toList_append, hg]
      rw [joined_cons, ih hboth hrest, and_iff_right hq]
    · have hne : (p.1 ++ p.2).toList ≠ [] := by
        intro he
        rw [String.toList_append, List.append_eq_nil_iff] at he
        rw [he.2] at hp
        cases hp
      have hf := isConstant_append_eq_false hs hne hq (String.join (rest.map fun p => p.1 ++ p.2)).toList
      rw [joined, List.map_cons, String.join_cons, String.toList_append, String.toList_append, hf]
      exact iff_of_false Bool.false_ne_true fun h => hq h.1

/-! ## The letter in front -/

/-- The text from a byte offset on; there is none from inside of a character. -/
def fromOffset? (s : String) (offset : Nat) : Option String :=
  if h : (String.Pos.Raw.mk offset).IsValid s then some (s.sliceFrom ⟨⟨offset⟩, h⟩).copy else none

/-- A letter at the start is left out as the first byte. -/
def withoutLetterByOffset? (s : String) : Option String :=
  if s.toList.head?.any Char.isAlpha then fromOffset? s 1 else some s

theorem fromOffset?_append (s t : String) : fromOffset? (s ++ t) s.utf8ByteSize = some t := by
  have hv : (String.Pos.Raw.mk s.utf8ByteSize).IsValid (s ++ t) :=
    String.Pos.Raw.isValid_iff_exists_append.mpr ⟨s, t, rfl, rfl⟩
  have hs : (String.Pos.mk _ hv).Splits s t := ⟨rfl, rfl⟩
  rw [fromOffset?, dif_pos hv, hs.copy_sliceFrom_eq]

theorem utf8Size_of_isAlpha {c : Char} (h : c.isAlpha = true) : c.utf8Size = 1 := by
  rw [Char.utf8Size_eq_one_iff]
  rcases Bool.or_eq_true_iff.mp h with hu | hl
  · have hz : 'A'.val ≤ c.val ∧ c.val ≤ 'Z'.val := of_decide_eq_true hu
    exact UInt32.le_trans hz.2 (by decide)
  · have hz : c.val ≤ 'z'.val := of_decide_eq_true (Bool.and_eq_true_iff.mp hl).2
    exact UInt32.le_trans hz (by decide)

/-- A letter takes one byte, so that the byte behind it begins a character. -/
theorem withoutLetterByOffset?_eq (s : String) :
    withoutLetterByOffset? s = some (String.ofList (withoutLetter s.toList)) := by
  unfold withoutLetterByOffset?
  cases hs : s.toList with
  | nil =>
    rw [String.toList_eq_nil_iff] at hs
    rw [hs]
    rfl
  | cons c cs =>
    rw [List.head?_cons, Option.any_some]
    by_cases hc : c.isAlpha = true
    · have he : s = String.singleton c ++ String.ofList cs := by
        rw [← String.ofList_cons, ← hs, String.ofList_toList]
      have ho := fromOffset?_append (String.singleton c) (String.ofList cs)
      rw [String.utf8ByteSize_singleton, utf8Size_of_isAlpha hc, ← he] at ho
      rw [if_pos hc, withoutLetter_of_isAlpha hc, ho]
    · rw [if_neg hc, withoutLetter, if_neg hc, ← hs, String.ofList_toList]

/-- A letter beyond ASCII stays where it is: a cut behind its first byte would split it. -/
example : fromOffset? "é'x'" 1 = none ∧ withoutLetterByOffset? "é'x'" = some "é'x'" := by
  decide +kernel

/-- A text is read as a quoted constant exactly when it is one by the grammar. What is read so closes its
quotes. Behind a constant, the text is one constant only where it ends or goes on with another one whose
quote comes first; so constants that are joined by texts without a quote in front are one constant only
when each quote follows immediately. The letter in front is left out as one byte, which is never a part of
a longer character. -/
theorem isConstant_iff_constantForm (s : String) :
    (isConstant s.toList = true ↔ ConstantForm s.toList) ∧
      (isConstant s.toList = true →
        s.toList.count '\'' % 2 = 0 ∧
          (∀ t : String, isConstant (s ++ t).toList = true ↔
            t = "" ∨ t.toList.head? = some '\'' ∧ isConstant t.toList = true) ∧
          ∀ rest : List (String × String),
            (∀ p ∈ rest, p.1.toList.head? ≠ some '\'' ∧ isConstant p.2.toList = true) →
              (isConstant (joined s rest).toList = true ↔
                ∀ p ∈ rest, (p.1 ++ p.2).toList.head? = some '\'')) ∧
      withoutLetterByOffset? s = some (String.ofList (withoutLetter s.toList)) := by
  have hiff : isConstant s.toList = true ↔ ConstantForm s.toList := by
    rw [isConstant_iff_exists_body, constantForm_iff]
  refine ⟨hiff, fun h => ⟨(hiff.mp h).count_quote, fun t => ?_, fun rest => isConstant_joined_iff h⟩,
    withoutLetterByOffset?_eq s⟩
  rw [String.toList_append, isConstant_append_iff h, String.toList_eq_nil_iff]

/-- Behind a constant with a letter, the quotes of one pair with those of the next, or an operator stands
between them. -/
theorem isConstant_iff_constantForm_for_adjacent_constants :
    (isConstant "N'it''s'".toList = true ∧
        ∀ p ∈ [("", "'00'"), (" || ", "E'''('")],
          p.1.toList.head? ≠ some '\'' ∧ isConstant p.2.toList = true) ∧
      isConstant "N'it''s''00'".toList = true ∧
      isConstant "N'it''s''00' || E'''('".toList = false := by
  have hs : isConstant "N'it''s'".toList = true := by decide
  have hp : ∀ p ∈ [("", "'00'"), (" || ", "E'''('")],
      p.1.toList.head? ≠ some '\'' ∧ isConstant p.2.toList = true := by decide
  obtain ⟨_, ht, hj⟩ := (isConstant_iff_constantForm "N'it''s'").2.1 hs
  refine ⟨⟨hs, hp⟩, (ht "'00'").mpr (.inr ⟨by decide, by decide⟩), ?_⟩
  rw [Bool.eq_false_iff]
  intro h
  have hq := (hj _ hp).mp h (" || ", "E'''('") (by simp)
  exact absurd hq (by decide)

end SqlExpr.Fragment
