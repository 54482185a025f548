import Mathlib.Data.List.Infix
import SqlExpr.Proofs.Groups

/-! # Tokens by their grammar

A token is a star, a name, a name with `.*` behind it, or a name or quoted constant cast to a named type.
The reader of tokens finds the cast by the first double colon of the text. That is the one of the cast
unless the constant has a double colon itself: then the rest of the constant is taken for the type, and the
text is no token.
-/
namespace SqlExpr.Fragment
open Text

/-- One or more characters of names, with a minus sign in front only before a digit. -/
inductive NameForm : List Char → Prop
  | unsigned {cs : List Char} (hn : cs ≠ []) (h : ∀ c ∈ cs, isNameChar c = true) : NameForm cs
  | negative {d : Char} {cs : List Char} (hd : d.isDigit = true)
    (h : ∀ c ∈ d :: cs, isNameChar c = true) : NameForm ('-' :: d :: cs)

/-- The tokens, where constants of a certain kind may be cast. -/
inductive TokenForm (Castable : List Char → Prop) : List Char → Prop
  | star : TokenForm Castable ['*']
  | name {cs : List Char} (h : NameForm cs) : TokenForm Castable cs
  | columns {table : List Char} (h : NameForm table) : TokenForm Castable (table ++ ['.', '*'])
  | castName {value type : List Char} (hv : NameForm value) (ht : NameForm type) :
    TokenForm Castable (value ++ ':' :: ':' :: type)
  | castConstant {value type : List Char} (hv : Castable value) (ht : NameForm type) :
    TokenForm Castable (value ++ ':' :: ':' :: type)

def HasDoubleColon (cs : List Char) : Prop := [':', ':'] <:+: cs

instance (cs : List Char) : Decidable (HasDoubleColon cs) := inferInstanceAs (Decidable (_ <:+: _))

def IsCastless (cs : List Char) : Prop := isConstant cs = true ∧ ¬ HasDoubleColon cs

/-- The cast of a quoted constant with a double colon, in front of which the text is cut. -/
def IsObscuredCast (cs : List Char) : Prop :=
  ∃ value type, cs = value ++ ':' :: ':' :: type ∧
    isConstant value = true ∧ HasDoubleColon value ∧ NameForm type

theorem TokenForm.mono {P Q : List Char → Prop} (h : ∀ cs, P cs → Q cs) {cs : List Char}
    (ht : TokenForm P cs) : TokenForm Q cs := by
  cases ht with
  | star => exact .star
  | name hn => exact .name hn
  | columns hn => exact .columns hn
  | castName hv ht => exact .castName hv ht
  | castConstant hv ht => exact .castConstant (h _ hv) ht

theorem isName_iff_nameForm {cs : List Char} : isName cs = true ↔ NameForm cs := by
  have hm : isNameChar '-' = false := by decide +kernel
  constructor
  · intro h
    cases cs with
    | nil => cases h
    | cons c cs =>
      by_cases hc : c = '-'
      · subst hc
        rw [isName_minus, Bool.and_eq_true, List.all_eq_true] at h
        cases cs with
        | nil => cases h.1
        | cons d cs => exact .negative (by simpa [startsDigit] using h.1) h.2
      · rw [isName_of_ne hc, List.all_eq_true] at h
        exact .unsigned (List.cons_ne_nil c cs) h
  · rintro (⟨hn, h⟩ | ⟨hd, h⟩)
    · obtain ⟨c, cs, rfl⟩ := List.exists_cons_of_ne_nil hn
      have hc : c ≠ '-' := by
        rintro rfl
        exact absurd (h '-' List.mem_cons_self) (by simp [hm])
      rw [isName_of_ne hc, List.all_eq_true]
      exact h
    · rw [isName_minus, List.all_eq_true.mpr h]
      simpa [startsDigit] using hd

namespace NameForm

variable {cs : List Char}

/-- The last character is one of names also behind a minus sign. -/
theorem exists_concat (h : NameForm cs) : ∃ ds c, cs = ds ++ [c] ∧ isNameChar c = true := by
  have hlast : ∀ {es : List Char}, es ≠ [] → (∀ c ∈ es, isNameChar c = true) →
      ∃ ds c, es = ds ++ [c] ∧ isNameChar c = true := by
    intro es hn hc
    obtain ⟨ds, c, rfl⟩ := (List.eq_nil_or_concat es).resolve_left hn
    exact ⟨ds, c, List.concat_eq_append, hc c (by simp)⟩
  cases h with
  | unsigned hn h => exact hlast hn h
  | negative hd h =>
    obtain ⟨ds, c, he, hc⟩ := hlast (List.cons_ne_nil _ _) h
    exact ⟨'-' :: ds, c, by rw [he]; rfl, hc⟩

theorem not_mem_colon (h : NameForm cs) : ':' ∉ cs := by
  intro hm
  have hc := isNameChar_of_isName (isName_iff_nameForm.mpr h) hm (by decide)
  exact absurd hc (by decide +kernel)

/-- Behind any text, a name ends with none of the marks that end other kinds of fragments. -/
theorem getLast?_append_ne (h : NameForm cs) (s : List Char) {c : Char} (hc : isNameChar c = false) :
    (s ++ cs).getLast? ≠ some c := by
  obtain ⟨ds, d, rfl, hd⟩ := h.exists_concat
  rw [← List.append_assoc, List.getLast?_concat]
  rintro ⟨⟩
  rw [hd] at hc
  cases hc

end NameForm

/-! ## The first double colon -/

theorem hasDoubleColon_cons_iff {c : Char} {cs : List Char} :
    HasDoubleColon (c :: cs) ↔ (c = ':' ∧ cs.head? = some ':') ∨ HasDoubleColon cs := by
  unfold HasDoubleColon
  rw [List.infix_cons_iff, List.cons_prefix_cons, eq_comm]
  cases cs with
  | nil => simp
  | cons d cs => simp [eq_comm]

theorem not_hasDoubleColon_of_splitCast {cs a b : List Char} (h : splitCast cs = some (a, b)) :
    ¬ HasDoubleColon a := by
  induction cs generalizing a with
  | nil => simp [splitCast] at h
  | cons c cs ih =>
    by_cases hc : c = ':' ∧ cs.head? = some ':'
    · obtain ⟨rfl, hh⟩ := hc
      obtain ⟨ds, rfl⟩ := List.head?_eq_some_iff.mp hh
      obtain ⟨rfl, rfl⟩ := Prod.mk.inj (Option.some.inj h)
      decide
    · rw [splitCast_cons hc] at h
      obtain ⟨⟨a', b'⟩, hs, he⟩ := Option.map_eq_some_iff.mp h
      obtain ⟨rfl, rfl⟩ := Prod.mk.inj he
      rw [hasDoubleColon_cons_iff, not_or]
      refine ⟨fun hd => hc ⟨hd.1, ?_⟩, ih hs⟩
      rw [eq_of_splitCast hs, List.head?_append, hd.2]
      rfl

/-- A text that has no double colon and does not end within one stands before the first one behind it. -/
theorem splitCast_append_of_not_hasDoubleColon {a : List Char} (h : ¬ HasDoubleColon a)
    (hl : a.getLast? ≠ some ':') (b : List Char) :
    splitCast (a ++ ':' :: ':' :: b) = some (a, b) := by
  induction a with
  | nil => rfl
  | cons c a ih =>
    rw [hasDoubleColon_cons_iff, not_or] at h
    have hne : ¬ (c = ':' ∧ (a ++ ':' :: ':' :: b).head? = some ':') := by
      cases a with
      | nil => exact fun he => hl (by simp [he.1])
      | cons d a => exact h.1
    have htail : a.getLast? ≠ some ':' := by
      cases a with
      | nil => simp
      | cons d a => rwa [List.getLast?_cons_cons] at hl
    rw [List.cons_append, splitCast_cons hne, ih h.2 htail]
    rfl

/-- The first double colon of a text that has one stays the first when the text goes on. -/
theorem exists_splitCast_append {a : List Char} (h : HasDoubleColon a) :
    ∃ v t, a = v ++ ':' :: ':' :: t ∧ ∀ b, splitCast (a ++ b) = some (v, t ++ b) := by
  induction a with
  | nil => exact absurd h (by decide)
  | cons c a ih =>
    by_cases hc : c = ':' ∧ a.head? = some ':'
    · obtain ⟨rfl, hh⟩ := hc
      obtain ⟨ds, rfl⟩ := List.head?_eq_some_iff.mp hh
      exact ⟨[], ds, rfl, fun _ => rfl⟩
    · obtain ⟨v, t, rfl, hs⟩ := ih ((hasDoubleColon_cons_iff.mp h).resolve_left hc)
      refine ⟨c :: v, t, rfl, fun b => ?_⟩
      have hhead : ((v ++ ':' :: ':' :: t) ++ b).head? = (v ++ ':' :: ':' :: t).head? :=
        List.head?_append_of_ne_nil _ (by simp)
      rw [List.cons_append, splitCast_cons (by rwa [hhead]), hs]
      rfl

/-! ## Texts that end in a name -/

theorem getLast?_of_isConstant {cs : List Char} (h : isConstant cs = true) : cs.getLast? = some '\'' := by
  obtain ⟨inner, hw, _⟩ := isConstant_iff.mp h
  cases cs with
  | nil => cases hw
  | cons c cs =>
    rw [withoutLetter] at hw
    have hq : ∀ ds : List Char, (ds ++ '\'' :: (inner ++ ['\''])).getLast? = some '\'' := fun ds => by
      rw [← List.cons_append, ← List.append_assoc, List.getLast?_concat]
    split at hw
    · rw [hw]
      exact hq [c]
    · rw [hw]
      exact hq []

section Cast

variable {type : List Char} (ht : NameForm type)
include ht

theorem isToken_append (s : List Char) :
    isToken (s ++ type) =
      (splitCast (s ++ type)).elim (isName (s ++ type)) fun p =>
        (isName p.1 || isConstant p.1) && isName p.2 := by
  have hlast := ht.getLast?_append_ne s (c := '*') (by decide +kernel)
  have hstar : s ++ type ≠ ['*'] := by
    intro he
    simp [he] at hlast
  have hbefore : beforeStar? (s ++ type) = none := by
    cases hb : beforeStar? (s ++ type) with
    | none => rfl
    | some base =>
      rw [eq_of_beforeStar? hb] at hlast
      simp at hlast
  rw [isToken, if_neg hstar, hbefore]
  cases splitCast (s ++ type) <;> rfl

theorem isToken_cast {value : List Char}
    (h : splitCast (value ++ ':' :: ':' :: type) = some (value, type)) :
    isToken (value ++ ':' :: ':' :: type) = (isName value || isConstant value) := by
  have hs : value ++ ':' :: ':' :: type = (value ++ [':', ':']) ++ type := by simp
  rw [hs] at h ⊢
  rw [isToken_append ht, h]
  simp [isName_iff_nameForm.mpr ht]

/-- The rest of the constant, with its quote, is no part of a name. -/
theorem isToken_cast_of_hasDoubleColon {value : List Char} (hv : isConstant value = true)
    (hc : HasDoubleColon value) : isToken (value ++ ':' :: ':' :: type) = false := by
  obtain ⟨v, t, rfl, hsplit⟩ := exists_splitCast_append hc
  have hs : (v ++ ':' :: ':' :: t) ++ ':' :: ':' :: type =
      ((v ++ ':' :: ':' :: t) ++ [':', ':']) ++ type := by simp
  have hn : isName (t ++ ([':', ':'] ++ type)) = false :=
    isName_eq_false_of_mem (c := ':') (by simp) (by decide) (by decide +kernel)
  rw [hs, isToken_append ht, List.append_assoc, hsplit]
  show (_ && isName (t ++ ([':', ':'] ++ type))) = false
  rw [hn, Bool.and_false]

end Cast

theorem splitCast_name {value : List Char} (hv : NameForm value) (type : List Char) :
    splitCast (value ++ ':' :: ':' :: type) = some (value, type) :=
  splitCast_of_not_mem hv.not_mem_colon type

theorem splitCast_constant {value : List Char} (hv : IsCastless value) (type : List Char) :
    splitCast (value ++ ':' :: ':' :: type) = some (value, type) := by
  refine splitCast_append_of_not_hasDoubleColon hv.2 ?_ type
  rw [getLast?_of_isConstant hv.1]
  decide

theorem tokenForm_of_isToken {cs : List Char} (h : isToken cs = true) : TokenForm IsCastless cs := by
  unfold isToken at h
  split at h
  · rename_i hs
    exact hs ▸ .star
  · split at h
    · rename_i base hb
      rw [eq_of_beforeStar? hb]
      exact .columns (isName_iff_nameForm.mp h)
    · split at h
      · rename_i value type hs
        rw [Bool.and_eq_true, Bool.or_eq_true] at h
        have ht := isName_iff_nameForm.mp h.2
        rw [eq_of_splitCast hs]
        rcases h.1 with hv | hv
        · exact .castName (isName_iff_nameForm.mp hv) ht
        · exact .castConstant ⟨hv, not_hasDoubleColon_of_splitCast hs⟩ ht
      · exact .name (isName_iff_nameForm.mp h)

theorem isToken_of_tokenForm {cs : List Char} (h : TokenForm IsCastless cs) : isToken cs = true := by
  cases h with
  | star => rfl
  | name h => exact isToken_of_isName (isName_iff_nameForm.mpr h)
  | @columns table h =>
    have hb : beforeStar? (table ++ ['.', '*']) = some table := by simp [beforeStar?]
    have hs : table ++ ['.', '*'] ≠ ['*'] := by simp [List.append_eq_cons_iff]
    rw [isToken, if_neg hs, hb]
    exact isName_iff_nameForm.mpr h
  | castName hv ht =>
    rw [isToken_cast ht (splitCast_name hv _), isName_iff_nameForm.mpr hv, Bool.true_or]
  | castConstant hv ht => rw [isToken_cast ht (splitCast_constant hv _), hv.1, Bool.or_true]

/-- A text that ends in a name stands alone only as a token. -/
theorem standsAlone_append {type : List Char} (ht : NameForm type) (s : List Char) :
    standsAlone (s ++ type) = isToken (s ++ type) := by
  have hlast := fun c => ht.getLast?_append_ne s (c := c)
  have he : (s ++ type).isEmpty = false := by
    obtain ⟨ds, c, rfl, _⟩ := ht.exists_concat
    simp
  have hc : isConstant (s ++ type) = false := by
    rw [Bool.eq_false_iff]
    exact fun h => hlast '\'' (by decide +kernel) (getLast?_of_isConstant h)
  have hg : isGroup (s ++ type) = false := by
    have hb : ((s ++ type).getLast? == some ')') = false := by
      simpa using hlast ')' (by decide +kernel)
    rw [isGroup, hb, Bool.and_false, Bool.false_and]
  rw [standsAlone, he, hc, hg, Bool.false_or, Bool.or_false, Bool.or_false]

/-- Where every constant may be cast, there are these casts besides. -/
theorem tokenForm_isConstant_iff {cs : List Char} :
    TokenForm (fun cs => isConstant cs = true) cs ↔ TokenForm IsCastless cs ∨ IsObscuredCast cs := by
  constructor
  · intro h
    cases h with
    | star => exact .inl .star
    | name h => exact .inl (.name h)
    | columns h => exact .inl (.columns h)
    | castName hv ht => exact .inl (.castName hv ht)
    | @castConstant value type hv ht =>
      by_cases hc : HasDoubleColon value
      · exact .inr ⟨value, type, rfl, hv, hc, ht⟩
      · exact .inl (.castConstant ⟨hv, hc⟩ ht)
  · rintro (h | ⟨value, type, rfl, hv, _, ht⟩)
    · exact h.mono fun _ hv => hv.1
    · exact .castConstant hv ht

theorem IsObscuredCast.isToken {cs : List Char} (h : IsObscuredCast cs) : isToken cs = false := by
  obtain ⟨value, type, rfl, hv, hc, ht⟩ := h
  exact isToken_cast_of_hasDoubleColon ht hv hc

theorem IsObscuredCast.standsAlone {cs : List Char} (h : IsObscuredCast cs) :
    standsAlone cs = false := by
  have hf := h.isToken
  obtain ⟨value, type, rfl, _, _, ht⟩ := h
  have hs : value ++ ':' :: ':' :: type = (value ++ [':', ':']) ++ type := by simp
  rw [hs] at hf ⊢
  rw [standsAlone_append ht, hf]

/-- A text is a token exactly when it is one by the grammar in which only constants without a double colon
may be cast. The grammar in which every constant may be cast has the same tokens but for the constants with
a double colon that are cast to a named type. These get parentheses as operands. -/
theorem isToken_iff_tokenForm (s : String) :
    (isToken s.toList = true ↔ TokenForm IsCastless s.toList) ∧
      ((isToken s.toList = true ↔ TokenForm (fun cs => isConstant cs = true) s.toList) ↔
        ¬ IsObscuredCast s.toList) ∧
      (IsObscuredCast s.toList → operand s = "(" ++ s ++ ")") := by
  have hiff : isToken s.toList = true ↔ TokenForm IsCastless s.toList :=
    ⟨tokenForm_of_isToken, isToken_of_tokenForm⟩
  refine ⟨hiff, ?_, fun h => operand_of_not_standsAlone h.standsAlone⟩
  rw [tokenForm_isConstant_iff, ← hiff]
  constructor
  · intro h ho
    have ht := h.mpr (.inr ho)
    rw [ho.isToken] at ht
    cases ht
  · intro ho
    exact ⟨.inl, fun h => h.resolve_right ho⟩

/-- A constant with two double colons, one of them behind a doubled quote. -/
theorem isToken_iff_tokenForm_for_quoted_colons :
    IsObscuredCast "E'a:: ''b::'::text".toList ∧
      operand "E'a:: ''b::'::text" = "(E'a:: ''b::'::text)" ∧
      ¬ (isToken "E'a:: ''b::'::text".toList = true ↔
        TokenForm (fun cs => isConstant cs = true) "E'a:: ''b::'::text".toList) := by
  have ho : IsObscuredCast "E'a:: ''b::'::text".toList :=
    ⟨"E'a:: ''b::'".toList, "text".toList, by decide, by decide +kernel, by decide,
      isName_iff_nameForm.mp (by decide +kernel)⟩
  have h := isToken_iff_tokenForm "E'a:: ''b::'::text"
  exact ⟨ho, h.2.2 ho, fun he => h.2.1.mp he ho⟩

/-- The cast of a quoted constant with a double colon is a token by the grammar in which every quoted
constant may be cast, and the reader refuses it. -/
theorem cast_of_constant_with_double_colon_refused :
    TokenForm (fun cs => isConstant cs = true) "'a::b'::text".toList ∧
      isToken "'a::b'::text".toList = false ∧ operand "'a::b'::text" = "('a::b'::text)" ∧
      ¬ ∀ cs, isToken cs = true ↔ TokenForm (fun cs => isConstant cs = true) cs := by
  have ho : IsObscuredCast "'a::b'::text".toList :=
    ⟨"'a::b'".toList, "text".toList, by decide, by decide +kernel, by decide,
      isName_iff_nameForm.mp (by decide +kernel)⟩
  have hf := tokenForm_isConstant_iff.mpr (.inr ho)
  have hr : isToken "'a::b'::text".toList = false := by decide +kernel
  refine ⟨hf, hr, by decide +kernel, fun h => ?_⟩
  rw [(h _).mpr hf] at hr
  cases hr

end SqlExpr.Fragment
