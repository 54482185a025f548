import SqlExpr.Fragment
import SqlExpr.Text.Quoted

/-! # Reading groups

What the reader of groups does on parts of a text: it passes over characters that are neither quotes
nor parentheses and over quoted constants, whatever these contain. A text in parentheses stands alone
only as a group.
-/
namespace SqlExpr.Fragment
open Text

def isPlain (c : Char) : Bool := c != '\'' && c != '(' && c != ')'

theorem isPlain_iff {c : Char} : isPlain c = true ↔ c ≠ '\'' ∧ c ≠ '(' ∧ c ≠ ')' := by
  simp [isPlain, and_assoc]

theorem closesAtEnd_plain_cons {c : Char} (h : isPlain c = true) (depth : Nat) (inQuote : Bool)
    (cs : List Char) : closesAtEnd depth inQuote (c :: cs) = closesAtEnd depth inQuote cs := by
  obtain ⟨hq, ho, hc⟩ := isPlain_iff.mp h
  cases inQuote <;> simp [closesAtEnd, hq, ho, hc]

theorem closesAtEnd_plain_append {s : List Char} (h : ∀ c ∈ s, isPlain c = true) (depth : Nat)
    (inQuote : Bool) (cs : List Char) :
    closesAtEnd depth inQuote (s ++ cs) = closesAtEnd depth inQuote cs := by
  induction s with
  | nil => rfl
  | cons c s ih =>
    have hs := ih fun d hd => h d (List.mem_cons_of_mem _ hd)
    rw [List.cons_append, closesAtEnd_plain_cons (h c List.mem_cons_self), hs]

@[simp] theorem closesAtEnd_quote (depth : Nat) (inQuote : Bool) (cs : List Char) :
    closesAtEnd depth inQuote ('\'' :: cs) = closesAtEnd depth (!inQuote) cs := by
  simp [closesAtEnd]

theorem count_quote_cons (cs : List Char) (inQuote : Bool) :
    (('\'' :: cs).count '\'' + inQuote.toNat) % 2 = (cs.count '\'' + (!inQuote).toNat) % 2 := by
  rw [List.count_cons_self]
  cases inQuote with
  | false => rfl
  | true =>
    simp only [Bool.toNat_true, Bool.not_true, Bool.toNat_false]
    omega

theorem closesAtEnd_open (depth : Nat) (cs : List Char) :
    closesAtEnd depth false ('(' :: cs) = closesAtEnd (depth + 1) false cs := by
  simp [closesAtEnd]

/-- Inside a group, a closing parenthesis leads back to what is around it. -/
theorem closesAtEnd_close (depth : Nat) (cs : List Char) :
    closesAtEnd (depth + 2) false (')' :: cs) = closesAtEnd (depth + 1) false cs := by
  simp [closesAtEnd]

theorem closesAtEnd_in_quote {c : Char} (h : c ≠ '\'') (depth : Nat) (cs : List Char) :
    closesAtEnd depth true (c :: cs) = closesAtEnd depth true cs := by
  simp [closesAtEnd, h]

/-- What the reader of groups meets: a quote, a character inside of quotes, a parenthesis or a plain
character. -/
theorem reading_induction {P : Bool → List Char → Prop} (nil : ∀ inQuote, P inQuote [])
    (quote : ∀ inQuote cs, P (!inQuote) cs → P inQuote ('\'' :: cs))
    (inside : ∀ c cs, c ≠ '\'' → P true cs → P true (c :: cs))
    (opening : ∀ cs, P false cs → P false ('(' :: cs))
    (closing : ∀ cs, P false cs → P false (')' :: cs))
    (plain : ∀ c cs, isPlain c = true → P false cs → P false (c :: cs)) (inQuote : Bool)
    (cs : List Char) : P inQuote cs := by
  induction cs generalizing inQuote with
  | nil => exact nil inQuote
  | cons c cs ih =>
    by_cases hq : c = '\''
    · exact hq ▸ quote inQuote cs (ih (!inQuote))
    · cases inQuote with
      | true => exact inside c cs hq (ih true)
      | false =>
        by_cases ho : c = '('
        · exact ho ▸ opening cs (ih false)
        · by_cases hc : c = ')'
          · exact hc ▸ closing cs (ih false)
          · exact plain c cs (isPlain_iff.mpr ⟨hq, ho, hc⟩) (ih false)

/-- A text that an open group reads over. -/
def IsNeutral (t : List Char) : Prop :=
  ∀ depth cs, closesAtEnd (depth + 1) false (t ++ cs) = closesAtEnd (depth + 1) false cs

theorem closesAtEnd_doubled_append (s : List Char) (depth : Nat) (cs : List Char) :
    closesAtEnd depth true (doubled '\'' s ++ cs) = closesAtEnd depth true cs := by
  induction s with
  | nil => rfl
  | cons c s ih =>
    by_cases h : c = '\''
    · simp [doubled, h, ih]
    · simp [doubled, h, closesAtEnd_in_quote h, ih]

theorem closesAtEnd_quoted_append (s : List Char) (depth : Nat) (cs : List Char) :
    closesAtEnd depth false (quoted '\'' s ++ cs) = closesAtEnd depth false cs := by
  simp [quoted, closesAtEnd_doubled_append]

theorem getLast?_of_closesAtEnd {depth : Nat} {inQuote : Bool} {cs : List Char}
    (h : closesAtEnd (depth + 1) inQuote cs = true) : cs.getLast? = some ')' := by
  have step : ∀ {c : Char} {cs : List Char}, cs.getLast? = some ')' →
      (c :: cs).getLast? = some ')' := by
    intro c cs hc
    rw [List.getLast?_cons, hc]
    rfl
  induction inQuote, cs using reading_induction generalizing depth with
  | nil => simp [closesAtEnd] at h
  | quote inQuote cs ih => exact step (ih (by rwa [closesAtEnd_quote] at h))
  | inside c cs hc ih => exact step (ih (by rwa [closesAtEnd_in_quote hc] at h))
  | opening cs ih => exact step (ih (by rwa [closesAtEnd_open] at h))
  | closing cs ih =>
    cases depth with
    | zero =>
      obtain rfl : cs = [] := by
        have he : cs.isEmpty = true := by simp_all [closesAtEnd]
        simpa using he
      rfl
    | succ depth => exact step (ih (by rwa [closesAtEnd_close] at h))
  | plain c cs hc ih => exact step (ih (by rwa [closesAtEnd_plain_cons hc] at h))

theorem isGroup_eq (cs : List Char) :
    isGroup cs = (cs.head? == some '(' && closesAtEnd 0 false cs) := by
  cases cs with
  | nil => rfl
  | cons c cs =>
    by_cases hc : c = '('
    · subst hc
      unfold isGroup
      rw [closesAtEnd_open]
      cases hd : closesAtEnd 1 false cs with
      | false => simp
      | true => simp [List.getLast?_cons, getLast?_of_closesAtEnd hd]
    · have hb : (c == '(') = false := by simpa using hc
      simp [isGroup, hb]

theorem isName_eq_false_of_mem {cs : List Char} {c : Char} (h : c ∈ cs) (hm : c ≠ '-')
    (hc : isNameChar c = false) : isName cs = false := by
  have hu : c ∈ unsignedPart cs := by
    unfold unsignedPart
    split
    · rename_i d ds
      have hd : c ∈ d :: ds := (List.mem_cons.mp h).resolve_left hm
      split
      · exact hd
      · exact h
    · exact h
  have ha : (unsignedPart cs).all isNameChar = false := by
    rw [List.all_eq_false]
    exact ⟨c, hu, by simp [hc]⟩
  simp [isName, ha]

theorem isNameChar_of_isName {cs : List Char} {c : Char} (h : isName cs = true) (hc : c ∈ cs)
    (hm : c ≠ '-') : isNameChar c = true := by
  cases hn : isNameChar c with
  | true => rfl
  | false => rw [isName_eq_false_of_mem hc hm hn] at h; cases h

def startsDigit (cs : List Char) : Bool := cs.head?.any Char.isDigit

theorem startsDigit_append {s : List Char} (h : startsDigit s = true) (t : List Char) :
    startsDigit (s ++ t) = true := by
  cases s with
  | nil => cases h
  | cons c s => exact h

theorem isName_minus (cs : List Char) : isName ('-' :: cs) = (startsDigit cs && cs.all isNameChar) := by
  have hm : isNameChar '-' = false := by decide +kernel
  cases cs with
  | nil => simp [isName, unsignedPart, startsDigit, hm]
  | cons d ds =>
    by_cases hd : d.isDigit = true
    · simp [isName, unsignedPart, startsDigit, hd]
    · simp [isName, unsignedPart, startsDigit, hd, hm]

theorem isName_of_ne {c : Char} (h : c ≠ '-') (cs : List Char) :
    isName (c :: cs) = (c :: cs).all isNameChar := by
  simp [isName, unsignedPart, h]

theorem isNameChar_open : isNameChar '(' = false := by decide +kernel

theorem isNameChar_blank : isNameChar ' ' = false := by decide +kernel

theorem isNameChar_comma : isNameChar ',' = false := by decide +kernel

theorem isNameChar_of_isDigit {c : Char} (h : c.isDigit = true) : isNameChar c = true := by
  have ha : isAlphanumeric c = true := isAlphanumeric_of_isAlphanum (by simp [Char.isAlphanum, h])
  simp [isNameChar, ha]

theorem splitCast_cons {c : Char} {cs : List Char} (h : ¬ (c = ':' ∧ cs.head? = some ':')) :
    splitCast (c :: cs) = (splitCast cs).map fun p => (c :: p.1, p.2) := by
  rw [splitCast]
  intro ds hc hs
  exact h ⟨hc, by simp [hs]⟩

theorem eq_of_splitCast {cs a b : List Char} (h : splitCast cs = some (a, b)) :
    cs = a ++ ':' :: ':' :: b := by
  induction cs generalizing a with
  | nil => simp [splitCast] at h
  | cons c cs ih =>
    by_cases hc : c = ':' ∧ cs.head? = some ':'
    · obtain ⟨rfl, hh⟩ := hc
      obtain ⟨ds, rfl⟩ := List.head?_eq_some_iff.mp hh
      obtain ⟨rfl, rfl⟩ := Prod.mk.inj (Option.some.inj h)
      rfl
    · rw [splitCast_cons hc] at h
      obtain ⟨⟨a', b'⟩, hs, he⟩ := Option.map_eq_some_iff.mp h
      obtain ⟨rfl, rfl⟩ := Prod.mk.inj he
      rw [ih hs]
      rfl

theorem eq_of_beforeStar? {cs base : List Char} (h : beforeStar? cs = some base) :
    cs = base ++ ['.', '*'] := by
  unfold beforeStar? at h
  split at h
  · rename_i heq
    have hr := congrArg List.reverse heq
    simp_all
  · simp at h

theorem splitCast_of_not_mem {a : List Char} (h : ':' ∉ a) (b : List Char) :
    splitCast (a ++ ':' :: ':' :: b) = some (a, b) := by
  induction a with
  | nil => rfl
  | cons c a ih =>
    obtain ⟨hc, ha⟩ := not_or.mp (fun hm => h (List.mem_cons.mpr hm))
    have hne : ¬ (c = ':' ∧ (a ++ ':' :: ':' :: b).head? = some ':') := fun he => hc he.1.symm
    rw [List.cons_append, splitCast_cons hne, ih ha]
    rfl

/-- A name has no final star and no cast, so that nothing keeps it from being a token. -/
theorem isToken_of_isName {cs : List Char} (h : isName cs = true) : isToken cs = true := by
  unfold isToken
  split
  · rfl
  · cases hb : beforeStar? cs with
    | some base =>
      have hm : '*' ∈ cs := by simp [eq_of_beforeStar? hb]
      exact absurd (isNameChar_of_isName h hm (by decide)) (by decide +kernel)
    | none =>
      cases hp : splitCast cs with
      | some p =>
        have hm : ':' ∈ cs := by simp [eq_of_splitCast (a := p.1) (b := p.2) hp]
        exact absurd (isNameChar_of_isName h hm (by decide)) (by decide +kernel)
      | none => exact h

theorem standsAlone_of_isName {cs : List Char} (h : isName cs = true) : standsAlone cs = true := by
  simp [standsAlone, isToken_of_isName h]

theorem isConstant_iff {cs : List Char} :
    isConstant cs = true ↔
      ∃ inner, withoutLetter cs = '\'' :: (inner ++ ['\'']) ∧ hasPairedQuotes inner = true := by
  unfold isConstant
  constructor
  · intro h
    split at h
    · rename_i inner heq
      simp only [Bool.and_eq_true, beq_iff_eq] at h
      obtain ⟨inner, rfl⟩ := List.getLast?_eq_some_iff.mp h.1
      exact ⟨inner, heq, by simpa using h.2⟩
    · simp at h
  · rintro ⟨inner, heq, hp⟩
    simp [heq, hp]

theorem mem_of_mem_withoutLetter {c : Char} {cs : List Char} (h : c ∈ withoutLetter cs) : c ∈ cs := by
  cases cs with
  | nil => exact h
  | cons d cs =>
    simp only [withoutLetter] at h
    split at h
    · exact List.mem_cons_of_mem d h
    · exact h

theorem isConstant_eq_false_of_plain {cs : List Char} (h : ∀ c ∈ cs, isPlain c = true) :
    isConstant cs = false := by
  rw [Bool.eq_false_iff, ne_eq, isConstant_iff]
  rintro ⟨inner, hw, _⟩
  have hq : '\'' ∈ cs := mem_of_mem_withoutLetter (by simp [hw])
  exact absurd (h _ hq) (by decide)

theorem isGroup_eq_false_of_plain {cs : List Char} (h : ∀ c ∈ cs, isPlain c = true) :
    isGroup cs = false := by
  rw [Bool.eq_false_iff]
  intro hg
  rw [isGroup, Bool.and_eq_true, Bool.and_eq_true, beq_iff_eq] at hg
  exact absurd (h _ (List.mem_of_head? hg.1.1)) (by decide)

/-- Whether quotes come in pairs, behind an open pair or not. -/
def pairsQuotes : Bool → List Char → Bool
  | half, [] => !half
  | half, c :: cs => if c = '\'' then pairsQuotes (!half) cs else !half && pairsQuotes false cs

theorem hasPairedQuotes_eq (cs : List Char) : hasPairedQuotes cs = pairsQuotes false cs := by
  fun_induction hasPairedQuotes cs with
  | case1 => rfl
  | case2 cs ih => simpa [pairsQuotes] using ih
  | case3 c cs h ih =>
    by_cases hc : c = '\''
    · subst hc
      cases cs with
      | nil => simp [pairsQuotes]
      | cons d ds =>
        have hd : d ≠ '\'' := fun he => h ds rfl (by rw [he])
        simp [pairsQuotes, hd]
    · simp [pairsQuotes, hc, ih]

theorem pairsQuotes_append {s : List Char} (h : ∀ c ∈ s, c ≠ '\'') (hs : s ≠ []) (half : Bool)
    (cs : List Char) : pairsQuotes half (s ++ cs) = (!half && pairsQuotes false cs) := by
  induction s generalizing half with
  | nil => exact absurd rfl hs
  | cons c s ih =>
    have hc := h c List.mem_cons_self
    rw [List.cons_append, pairsQuotes, if_neg hc]
    by_cases he : s = []
    · simp [he]
    · rw [ih (fun d hd => h d (List.mem_cons_of_mem _ hd)) he]
      rfl

theorem hasPairedQuotes_doubled (s : List Char) : hasPairedQuotes (doubled '\'' s) = true := by
  induction s with
  | nil => rfl
  | cons c s ih =>
    by_cases h : c = '\''
    · simpa [doubled, h, hasPairedQuotes] using ih
    · rw [doubled, if_neg h, hasPairedQuotes]
      · simp [h, ih]
      · intro ds hc _
        exact h hc

theorem isConstant_quoted (s : List Char) : isConstant (quoted '\'' s) = true :=
  isConstant_iff.mpr ⟨doubled '\'' s, rfl, hasPairedQuotes_doubled s⟩

theorem isConstant_cons_quoted {c : Char} (h : c.isAlpha = true) (s : List Char) :
    isConstant (c :: quoted '\'' s) = true :=
  isConstant_iff.mpr ⟨doubled '\'' s, by simp [withoutLetter, h, quoted], hasPairedQuotes_doubled s⟩

theorem isConstant_of_open (cs : List Char) : isConstant ('(' :: cs) = false := rfl

theorem isToken_of_open (cs : List Char) : isToken ('(' :: cs) = false := by
  have hn : ∀ ds, isName ('(' :: ds) = false := fun ds =>
    isName_eq_false_of_mem List.mem_cons_self (by decide) isNameChar_open
  unfold isToken
  rw [if_neg (by simp)]
  cases hb : beforeStar? ('(' :: cs) with
  | some base =>
    have he := eq_of_beforeStar? hb
    cases base with
    | nil => simp at he
    | cons c base =>
      obtain ⟨rfl, _⟩ := List.cons.inj he
      exact hn base
  | none =>
    cases hs : splitCast ('(' :: cs) with
    | none => exact hn cs
    | some p =>
      have he := eq_of_splitCast hs
      cases hp : p.1 with
      | nil => simp [hp] at he
      | cons c ds =>
        rw [hp] at he
        obtain ⟨rfl, _⟩ := List.cons.inj he
        simp [hp, hn, isConstant_of_open]

theorem standsAlone_of_open (cs : List Char) : standsAlone ('(' :: cs) = isGroup ('(' :: cs) := by
  simp [standsAlone, isToken_of_open, isConstant_of_open]

theorem pairsQuotes_eq_false {s : List Char} {c : Char} (hc : c ≠ '\'') (half : Bool)
    (h : (s.count '\'' + half.toNat) % 2 = 1) (t : List Char) :
    pairsQuotes half (s ++ c :: t) = false := by
  induction s generalizing half with
  | nil =>
    cases half with
    | false => simp at h
    | true => simp [pairsQuotes, hc]
  | cons d s ih =>
    by_cases hd : d = '\''
    · subst hd
      rw [count_quote_cons] at h
      rw [List.cons_append, pairsQuotes, if_pos rfl]
      exact ih _ h
    · rw [List.cons_append, pairsQuotes, if_neg hd]
      cases half with
      | true => rfl
      | false =>
        rw [ih false (by simpa [List.count_cons, hd] using h)]
        rfl

theorem withoutLetter_append {s : List Char} {c : Char} (hc : c.isAlpha = false) (t : List Char) :
    ∃ s', withoutLetter (s ++ c :: t) = s' ++ c :: t ∧ s'.count '\'' = s.count '\'' := by
  cases s with
  | nil => exact ⟨[], by simp [withoutLetter, hc], rfl⟩
  | cons d s =>
    by_cases hd : d.isAlpha = true
    · have hq : d ≠ '\'' := by rintro rfl; exact absurd hd (by decide)
      exact ⟨s, by simp [withoutLetter, hd], by simp [hq]⟩
    · exact ⟨d :: s, by simp [withoutLetter, hd], rfl⟩

/-- A character that separates parts of a text: it belongs to no name and to no cast. -/
def isSeparator (c : Char) : Bool := c == ' ' || c == ','

section Separated

variable {s : List Char} {c : Char} (hs : s.count '\'' % 2 = 0) (hc : isSeparator c = true)
include hs hc

theorem isConstant_separated (t : List Char) : isConstant (s ++ c :: t) = false := by
  have hq : c ≠ '\'' := by rintro rfl; simp [isSeparator] at hc
  have ha : c.isAlpha = false := by
    simp only [isSeparator, Bool.or_eq_true, beq_iff_eq] at hc
    rcases hc with rfl | rfl <;> decide
  rw [Bool.eq_false_iff, ne_eq, isConstant_iff]
  rintro ⟨inner, hw, hp⟩
  obtain ⟨s', hw', hn⟩ := @withoutLetter_append s c ha t
  rw [hw'] at hw
  cases s' with
  | nil => exact hq (List.cons.inj hw).1
  | cons d s' =>
    obtain ⟨rfl, ht⟩ := List.cons.inj hw
    rcases List.eq_nil_or_concat t with rfl | ⟨t, d, rfl⟩
    · exact hq (List.cons.inj (List.append_inj' ht rfl).2).1
    · have he : (s' ++ c :: t) ++ [d] = inner ++ ['\''] := by simpa using ht
      have hi : s' ++ c :: t = inner := (List.append_inj' he rfl).1
      have hodd : (s'.count '\'' + false.toNat) % 2 = 1 := by
        simp only [List.count_cons_self] at hn
        simp only [Bool.toNat_false]
        omega
      rw [hasPairedQuotes_eq, ← hi, pairsQuotes_eq_false hq false hodd] at hp
      cases hp

theorem isToken_separated (t : List Char) : isToken (s ++ c :: t) = false := by
  have hd : c ≠ '.' ∧ c ≠ '*' ∧ c ≠ ':' ∧ c ≠ '-' := by
    refine ⟨?_, ?_, ?_, ?_⟩ <;> rintro rfl <;> simp [isSeparator] at hc
  have hn : ∀ ds, c ∈ ds → isName ds = false := by
    intro ds hm
    refine isName_eq_false_of_mem hm hd.2.2.2 ?_
    simp only [isSeparator, Bool.or_eq_true, beq_iff_eq] at hc
    rcases hc with rfl | rfl
    · exact isNameChar_blank
    · exact isNameChar_comma
  have hm : c ∈ s ++ c :: t := by simp
  unfold isToken
  rw [if_neg (by intro he; rw [he] at hm; simp [hd.2.1] at hm)]
  cases hb : beforeStar? (s ++ c :: t) with
  | some base =>
    refine hn base ?_
    rw [eq_of_beforeStar? hb] at hm
    simpa [hd.1, hd.2.1] using hm
  | none =>
    cases hp : splitCast (s ++ c :: t) with
    | none => exact hn _ hm
    | some p =>
      -- The separator meant here is before the double colon or behind it.
      rcases List.append_eq_append_iff.mp (eq_of_splitCast hp) with ⟨u, ha, hu⟩ | ⟨u, ha, hu⟩
      · cases u with
        | nil => exact absurd (List.cons.inj hu).1 hd.2.2.1
        | cons x u =>
          obtain ⟨rfl, _⟩ := List.cons.inj hu
          have hv := isConstant_separated hs hc u
          simp [ha, hv, hn]
      · have hb : c ∈ p.2 := by
          have hm : c ∈ ':' :: ':' :: p.2 := by simp [hu]
          simpa [hd.2.2.1] using hm
        simp [hn p.2 hb]

/-- A text with a separator behind closed quotes can only be a group. -/
theorem standsAlone_separated (t : List Char) :
    standsAlone (s ++ c :: t) = isGroup (s ++ c :: t) := by
  have he : (s ++ c :: t).isEmpty = false := by simp
  simp [standsAlone, he, isToken_separated hs hc, isConstant_separated hs hc]

end Separated

/-- A text that begins with no group, closes its quotes and leaves the reader of groups as it was. -/
structure IsSealed (t : List Char) : Prop where
  ne_nil : t ≠ []
  head : t.head? ≠ some '('
  quotes : t.count '\'' % 2 = 0
  closes : ∀ depth cs, closesAtEnd depth false (t ++ cs) = closesAtEnd depth false cs

theorem isSealed_of_plain {t : List Char} (hn : t ≠ []) (ht : t.all isPlain = true) :
    IsSealed t := by
  have h := List.all_eq_true.mp ht
  constructor
  · exact hn
  · intro he
    exact (isPlain_iff.mp (h _ (List.mem_of_head? he))).2.1 rfl
  · rw [List.count_eq_zero.mpr fun hm => (isPlain_iff.mp (h _ hm)).1 rfl]
  · intro depth cs
    exact closesAtEnd_plain_append h depth false cs

theorem isSealed_quoted (s : List Char) : IsSealed (quoted '\'' s) where
  ne_nil := by simp [quoted]
  head := by simp [quoted]
  quotes := by
    simp only [quoted, List.cons_append, List.count_cons_self, List.count_append, count_doubled,
      if_pos, List.count_nil]
    omega
  closes := closesAtEnd_quoted_append s

theorem IsSealed.append {t u : List Char} (ht : IsSealed t) (hu : IsSealed u) :
    IsSealed (t ++ u) where
  ne_nil := by simp [ht.ne_nil]
  head := by simpa [ht.ne_nil] using ht.head
  quotes := by
    have h := ht.quotes
    have h' := hu.quotes
    rw [List.count_append]
    omega
  closes depth cs := by rw [List.append_assoc, ht.closes, hu.closes]

end SqlExpr.Fragment
