import SqlExpr.Proofs.Wrapping

/-! # Groups read by byte offsets

A group is a balanced text in parentheses and nothing else. It may as well be read with the offsets of the
characters in bytes, where the last character is known by its offset, and with a count of open groups that
must not fall below zero: in a text between parentheses the count never does, and a closing parenthesis has
the offset of the last byte only at the end, however many bytes the characters before it take.
-/
namespace SqlExpr.Fragment

/-- Reads to the end as `closesAtEnd` does, at a byte offset into a text whose last byte has the offset
`last`. There is no answer where a group is closed and none is open. -/
def closesAtOffset? (last : Nat) : Nat → Nat → Bool → List Char → Option Bool
  | _, depth, inQuote, [] => some (depth == 0 && !inQuote)
  | offset, depth, inQuote, c :: cs =>
    if c = '\'' then closesAtOffset? last (offset + c.utf8Size) depth (!inQuote) cs
    else if inQuote then closesAtOffset? last (offset + c.utf8Size) depth true cs
    else if c = '(' then closesAtOffset? last (offset + c.utf8Size) (depth + 1) false cs
    else if c = ')' then
      match depth with
      | 0 => none
      | depth + 1 =>
        if depth = 0 ∧ offset ≠ last then some false
        else closesAtOffset? last (offset + c.utf8Size) depth false cs
    else closesAtOffset? last (offset + c.utf8Size) depth false cs

/-- A text that begins or ends otherwise than a group is not read at all. -/
def isGroupByOffsets? (s : String) : Option Bool :=
  if s.toList.head? = some '(' ∧ s.toList.getLast? = some ')' then
    closesAtOffset? (s.utf8ByteSize - 1) 0 0 false s.toList
  else some false

theorem utf8ByteSize_ofList_cons (c : Char) (cs : List Char) :
    (String.ofList (c :: cs)).utf8ByteSize = c.utf8Size + (String.ofList cs).utf8ByteSize := by
  rw [String.ofList_cons, String.utf8ByteSize_append, String.utf8ByteSize_singleton]

def EndsAt (last offset : Nat) (cs : List Char) : Prop :=
  offset + (String.ofList cs).utf8ByteSize = last + 1

namespace EndsAt

variable {last offset : Nat} {c : Char} {cs : List Char}

theorem tail (h : EndsAt last offset (c :: cs)) : EndsAt last (offset + c.utf8Size) cs := by
  rw [EndsAt, utf8ByteSize_ofList_cons] at h
  rw [EndsAt, Nat.add_assoc]
  exact h

theorem eq_last_iff (h : EndsAt last offset (c :: cs)) (hc : c.utf8Size = 1) :
    offset = last ↔ cs = [] := by
  have ht := h.tail
  rw [EndsAt, hc] at ht
  constructor
  · intro he
    cases cs with
    | nil => rfl
    | cons d cs =>
      rw [utf8ByteSize_ofList_cons] at ht
      have hd := d.utf8Size_pos
      omega
  · rintro rfl
    have hz : (String.ofList []).utf8ByteSize = 0 := rfl
    omega

theorem of_toList {s : String} (hs : s.toList = c :: cs) : EndsAt (s.utf8ByteSize - 1) 0 (c :: cs) := by
  have hb : s.utf8ByteSize = (String.ofList (c :: cs)).utf8ByteSize := by
    rw [← hs, String.ofList_toList]
  have hc := c.utf8Size_pos
  rw [utf8ByteSize_ofList_cons] at hb
  rw [EndsAt, utf8ByteSize_ofList_cons]
  omega

end EndsAt

/-- As long as a group is open, reading by offsets goes as reading by characters. -/
theorem closesAtOffset?_eq {last offset depth : Nat} {inQuote : Bool} {cs : List Char}
    (he : EndsAt last offset cs) :
    closesAtOffset? last offset (depth + 1) inQuote cs = some (closesAtEnd (depth + 1) inQuote cs) := by
  induction inQuote, cs using reading_induction generalizing offset depth with
  | nil => rfl
  | quote inQuote cs ih =>
    rw [closesAtEnd_quote, ← ih he.tail]
    rfl
  | inside c cs hc ih =>
    rw [closesAtEnd_in_quote hc, ← ih he.tail]
    simp [closesAtOffset?, hc]
  | opening cs ih =>
    rw [closesAtEnd_open, ← ih he.tail]
    rfl
  | closing cs ih =>
    cases depth with
    | zero =>
      have hl := he.eq_last_iff rfl
      by_cases hn : cs = []
      · obtain rfl := hl.mpr hn
        subst hn
        simp [closesAtOffset?, closesAtEnd]
      · have ho : offset ≠ last := mt hl.mp hn
        simp [closesAtOffset?, closesAtEnd, ho, hn]
    | succ depth =>
      rw [closesAtEnd_close, ← ih he.tail]
      simp [closesAtOffset?]
  | plain c cs hc ih =>
    obtain ⟨hq, ho, hcl⟩ := isPlain_iff.mp hc
    rw [closesAtEnd_plain_cons hc, ← ih he.tail]
    simp [closesAtOffset?, hq, ho, hcl]

/-- The first character opens a group, which stays open until reading ends. -/
theorem isGroupByOffsets?_eq (s : String) : isGroupByOffsets? s = some (isGroup s.toList) := by
  unfold isGroupByOffsets?
  split
  · rename_i hends
    obtain ⟨cs, hs⟩ := List.head?_eq_some_iff.mp hends.1
    have hg : isGroup s.toList = closesAtEnd 1 false cs := by
      rw [isGroup, hends.1, hends.2, hs, closesAtEnd_open]
      rfl
    rw [hg, ← closesAtOffset?_eq (EndsAt.of_toList hs).tail, hs]
    rfl
  · rename_i hends
    have hg : isGroup s.toList = false := by
      rw [Bool.eq_false_iff]
      intro h
      simp only [isGroup, Bool.and_eq_true, beq_iff_eq] at h
      exact hends h.1
    rw [hg]

theorem eq_of_isGroup {cs : List Char} (h : isGroup cs = true) : ∃ t, cs = '(' :: (t ++ [')']) := by
  rw [isGroup_eq, Bool.and_eq_true, beq_iff_eq] at h
  obtain ⟨cs, rfl⟩ := List.head?_eq_some_iff.mp h.1
  have hr := h.2
  rw [closesAtEnd_open] at hr
  obtain ⟨t, rfl⟩ := List.getLast?_eq_some_iff.mp (getLast?_of_closesAtEnd hr)
  exact ⟨t, rfl⟩

/-- A text is read as a group exactly when it is a balanced text in parentheses: one with an even number
of quotes in which, outside of these, no beginning closes more parentheses than it opens and all are closed
at the end. Reading by byte offsets gives the same answer, and always gives one. -/
theorem isGroup_iff_balanced_in_parentheses (s : String) :
    (isGroup s.toList = true ↔ ∃ m : String, s = "(" ++ m ++ ")" ∧ IsBalanced m.toList) ∧
      isGroupByOffsets? s = some (isGroup s.toList) := by
  have hchars : ∀ m : String, ("(" ++ m ++ ")").toList = '(' :: (m.toList ++ [')']) := fun m => by simp
  refine ⟨⟨fun h => ?_, ?_⟩, isGroupByOffsets?_eq s⟩
  · obtain ⟨t, ht⟩ := eq_of_isGroup h
    refine ⟨String.ofList t, ?_, ?_⟩
    · rw [← String.toList_inj, hchars, String.toList_ofList, ht]
    · rw [ht] at h
      rw [String.toList_ofList]
      exact isGroup_cons_append_iff.mp h
  · rintro ⟨m, rfl, hm⟩
    rw [hchars]
    exact isGroup_cons_append_iff.mpr hm

/-- Characters of several bytes, and a parenthesis in front of the last one that closes the first group. -/
example :
    isGroupByOffsets? "(é || ')''' || (日))" = some true ∧
      isGroupByOffsets? "(日) || (é)" = some false := by
  decide +kernel

end SqlExpr.Fragment
