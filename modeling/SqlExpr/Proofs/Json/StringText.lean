import Mathlib.Tactic.SplitIfs
import SqlExpr.Proofs.Json.Reads

/-! # Strings read back

Each character stands in the text of a string as it is or as an escape, and reading takes either of
them for that character. So a string is read back from its text, whatever characters it has.
-/
namespace SqlExpr.Json

/-! ## Escapes -/

theorem hexValue?_digitChar {n : Nat} (h : n < 16) : hexValue? (Nat.digitChar n) = some n := by
  have h' : ∀ n < 16, hexValue? (Nat.digitChar n) = some n := by decide
  exact h' n h

theorem utf8Size_digitChar {n : Nat} (h : n < 16) : (Nat.digitChar n).utf8Size = 1 := by
  have h' : ∀ n < 16, (Nat.digitChar n).utf8Size = 1 := by decide
  exact h' n h

@[simp] theorem byteSize_nil : Cursor.byteSize [] = 0 := rfl

@[simp] theorem byteSize_cons (c : Char) (cs : List Char) :
    Cursor.byteSize (c :: cs) = c.utf8Size + Cursor.byteSize cs := by
  simp [Cursor.byteSize, String.ofList_cons]

theorem hexUnit_byte {n : Nat} (h : n < 256) (cs : List Char) :
    hexUnit ('0' :: '0' :: Nat.digitChar (n / 16) :: Nat.digitChar (n % 16) :: cs) = .ok n := by
  have h₁ : n / 16 < 16 := by omega
  have h₂ : n % 16 < 16 := by omega
  have hz : hexValue? '0' = some 0 := by decide
  have hs : ('0' : Char).utf8Size = 1 := by decide
  simp only [hexUnit, List.take_succ_cons, List.take_zero, byteSize_cons, byteSize_nil,
    utf8Size_digitChar h₁, utf8Size_digitChar h₂, hexValue?_digitChar h₁, hexValue?_digitChar h₂, hz, hs]
  rw [if_neg (by omega)]
  congr 1
  omega

theorem unicodeEscape_control {n : Nat} (h : n < 32) (cs : List Char) :
    unicodeEscape ('0' :: '0' :: Nat.digitChar (n / 16) :: Nat.digitChar (n % 16) :: cs) =
      .ok (Char.ofNat n, 4) := by
  have ht : isTrailing n = false := by simp [isTrailing]; omega
  have hl : isLeading n = false := by simp [isLeading]; omega
  rw [unicodeEscape, hexUnit_byte (by omega)]
  simp [bind, Except.bind, ht, hl]

theorem escapedChar_cases (c : Char) :
    (∃ es, escapedChar c = '\\' :: es ∧ ∀ cs, escape (es ++ cs) = .ok (c, es.length)) ∨
    (escapedChar c = [c] ∧ c ≠ '"' ∧ c ≠ '\\' ∧ 32 ≤ c.toNat) := by
  unfold escapedChar
  split_ifs with h₁ h₂ h₃ h₄ h₅ h₆ h₇ h₈
  · exact .inl ⟨_, rfl, fun cs => by subst h₁; rfl⟩
  · exact .inl ⟨_, rfl, fun cs => by subst h₂; rfl⟩
  · exact .inl ⟨_, rfl, fun cs => by subst h₃; rfl⟩
  · exact .inl ⟨_, rfl, fun cs => by subst h₄; rfl⟩
  · exact .inl ⟨_, rfl, fun cs => by subst h₅; rfl⟩
  · have hc : c = Char.ofNat 8 := by rw [← h₆, Char.ofNat_toNat]
    exact .inl ⟨_, rfl, fun cs => by subst hc; rfl⟩
  · have hc : c = Char.ofNat 12 := by rw [← h₇, Char.ofNat_toNat]
    exact .inl ⟨_, rfl, fun cs => by subst hc; rfl⟩
  · refine .inl ⟨_, rfl, fun cs => ?_⟩
    have hu := unicodeEscape_control h₈ cs
    simp only [List.cons_append, List.nil_append, escape, hu, Char.ofNat_toNat]
    rfl
  · exact .inr ⟨rfl, h₁, h₂, by omega⟩

/-! ## Strings -/

theorem stringChars_escape {c : Cursor} {cs : List Char} {e : Char} {n : Nat}
    (hc : c.after = '\\' :: cs) (he : escape cs = .ok (e, n)) {s : List Char} {c' : Cursor}
    (hs : stringChars (c.skip (n + 1)) = .ok s c') : stringChars c = .ok (e :: s) c' := by
  rw [stringChars]
  split
  · simp_all
  · simp_all
  · rename_i ds hd
    obtain rfl : cs = ds := List.tail_eq_of_cons_eq (hc.symm.trans hd)
    simp [he, hs]
  · simp_all

theorem stringChars_plain {c : Cursor} {cs : List Char} {d : Char} (hc : c.after = d :: cs)
    (hq : d ≠ '"') (hb : d ≠ '\\') (hd : 32 ≤ d.toNat) {s : List Char} {c' : Cursor}
    (hs : stringChars (c.skip 1) = .ok s c') : stringChars c = .ok (d :: s) c' := by
  rw [stringChars]
  split
  · simp_all
  · rename_i he
    exact absurd (List.head_eq_of_cons_eq (hc.symm.trans he)) hq
  · rename_i he
    exact absurd (List.head_eq_of_cons_eq (hc.symm.trans he)) hb
  · rename_i e es _ _ he
    obtain rfl : d = e := List.head_eq_of_cons_eq (hc.symm.trans he)
    rw [if_neg (by omega), hs]

theorem stringChars_quote {c : Cursor} {cs : List Char} (hc : c.after = '"' :: cs) :
    stringChars c = .ok [] (c.skip 1) := by
  rw [stringChars]
  split <;> simp_all

theorem reads_stringChars (s cs : List Char) :
    Reads stringChars (s.flatMap escapedChar ++ '"' :: cs) s cs := by
  induction s with
  | nil => exact fun c hc => ⟨c.skip 1, stringChars_quote hc, by simp_all⟩
  | cons d s ih =>
    intro c hc
    rcases escapedChar_cases d with ⟨es, he, hs⟩ | ⟨hd, hq, hb, hn⟩
    · simp only [List.flatMap_cons, he, List.cons_append, List.append_assoc] at hc
      obtain ⟨c', hr, ha⟩ := ih (c.skip (es.length + 1)) (by simp [hc])
      exact ⟨c', stringChars_escape hc (hs _) hr, ha⟩
    · simp only [List.flatMap_cons, hd, List.cons_append, List.nil_append] at hc
      obtain ⟨c', hr, ha⟩ := ih (c.skip 1) (by simp [hc])
      exact ⟨c', stringChars_plain hc hq hb hn hr, ha⟩

theorem toList_stringText (s : String) :
    (stringText s).toList = '"' :: (s.toList.flatMap escapedChar ++ ['"']) := by
  simp [stringText]

theorem reads_quotedString (s : String) (cs : List Char) :
    Reads quotedString ((stringText s).toList ++ cs) s cs := by
  rw [toList_stringText, List.cons_append, List.append_assoc]
  have hs := (reads_stringChars s.toList cs).map String.ofList
  simp only [String.ofList_toList] at hs
  exact (Reads.advance_one _ _).bind hs

end SqlExpr.Json
