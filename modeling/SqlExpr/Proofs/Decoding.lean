import SqlExpr.Dialect

/-! # Literals read back

Inside a quoted text two quotes stand for one, and any other quote ends it; where the backslash escapes,
it takes the character behind it along. Read by these rules, the literal of a string ends where it was
written to end and gives that string, whatever stands behind it. The digits in the literal of bytes give
back the bytes.
-/
namespace SqlExpr

namespace Text

/-- Reads on inside a quoted text, up to the quote that closes it, and gives what was read and what is
behind. With a meaning for escaped characters, a backslash escapes the character behind it; without
one, it stands for itself. -/
def readInner (escape : Option (Char → List Char)) : List Char → Option (List Char × List Char)
  | [] => none
  | '\'' :: '\'' :: cs => (readInner escape cs).map fun p => ('\'' :: p.1, p.2)
  | '\'' :: cs => some ([], cs)
  | '\\' :: c :: cs =>
    match escape with
    | some meaning => (readInner escape cs).map fun p => (meaning c ++ p.1, p.2)
    | none => (readInner escape (c :: cs)).map fun p => ('\\' :: p.1, p.2)
  | c :: cs => (readInner escape cs).map fun p => (c :: p.1, p.2)

/-- Reads a quoted text at the start, and gives what it stands for and what is behind. -/
def readQuoted (escape : Option (Char → List Char)) : List Char → Option (List Char × List Char)
  | '\'' :: cs => readInner escape cs
  | _ => none

section Quoted

variable {escape : Option (Char → List Char)} {rest : List Char}

theorem readInner_quote (cs : List Char) :
    readInner escape ('\'' :: '\'' :: cs) =
      (readInner escape cs).map fun p => ('\'' :: p.1, p.2) := by
  rw [readInner]

theorem readInner_close (h : rest.head? ≠ some '\'') :
    readInner escape ('\'' :: rest) = some ([], rest) := by
  cases rest with
  | nil => rfl
  | cons c cs =>
    rw [readInner]
    intro ds he
    exact h (by simp [(List.cons.inj he).1])

theorem readInner_char {c : Char} (hq : c ≠ '\'') (hb : c ≠ '\\') (cs : List Char) :
    readInner escape (c :: cs) = (readInner escape cs).map fun p => (c :: p.1, p.2) := by
  rw [readInner]
  · exact fun _ h _ => hq h
  · exact hq
  · exact fun _ _ h _ => hb h

theorem readInner_backslash {cs : List Char} (h : cs ≠ []) :
    readInner none ('\\' :: cs) = (readInner none cs).map fun p => ('\\' :: p.1, p.2) := by
  obtain ⟨c, cs, rfl⟩ := List.exists_cons_of_ne_nil h
  rw [readInner]

theorem readInner_escaped (meaning : Char → List Char) (c : Char) (cs : List Char) :
    readInner (some meaning) ('\\' :: c :: cs) =
      (readInner (some meaning) cs).map fun p => (meaning c ++ p.1, p.2) := by
  rw [readInner]

/-- A text with doubled quotes is read to its end, where no quote follows on the closing one. -/
theorem readQuoted_quoted (h : rest.head? ≠ some '\'') (cs : List Char) :
    readQuoted none (quoted '\'' cs ++ rest) = some (cs, rest) := by
  have hi : readInner none (doubled '\'' cs ++ '\'' :: rest) = some (cs, rest) := by
    induction cs with
    | nil => exact readInner_close h
    | cons c cs ih =>
      by_cases hq : c = '\''
      · subst hq
        rw [doubled, if_pos rfl, List.cons_append, List.cons_append, readInner_quote, ih]
        rfl
      · rw [doubled, if_neg hq, List.cons_append]
        by_cases hb : c = '\\'
        · subst hb
          rw [readInner_backslash (by simp), ih]
          rfl
        · rw [readInner_char hq hb, ih]
          rfl
  simpa [quoted, readQuoted] using hi

/-- So is a text whose backslashes are doubled as well, where the backslash escapes: one that closes a
pair never reaches the quote behind the text. -/
theorem readQuoted_quoted_escaped {meaning : Char → List Char} (hm : meaning '\\' = ['\\'])
    (h : rest.head? ≠ some '\'') (cs : List Char) :
    readQuoted (some meaning) (quoted '\'' (doubled '\\' cs) ++ rest) = some (cs, rest) := by
  have hi : readInner (some meaning) (doubled '\'' (doubled '\\' cs) ++ '\'' :: rest) =
      some (cs, rest) := by
    induction cs with
    | nil => exact readInner_close h
    | cons c cs ih =>
      by_cases hb : c = '\\'
      · subst hb
        have hd : doubled '\'' (doubled '\\' ('\\' :: cs)) =
            '\\' :: '\\' :: doubled '\'' (doubled '\\' cs) := by simp [doubled]
        rw [hd, List.cons_append, List.cons_append, readInner_escaped, ih, hm]
        rfl
      · rw [doubled, if_neg hb]
        by_cases hq : c = '\''
        · subst hq
          rw [doubled, if_pos rfl, List.cons_append, List.cons_append, readInner_quote, ih]
          rfl
        · rw [doubled, if_neg hq, List.cons_append, readInner_char hq hb, ih]
          rfl
  simpa [quoted, readQuoted] using hi

end Quoted

/-- The bytes that pairs of lowercase hexadecimal digits write. -/
def ofHex? : List Char → Option (List UInt8)
  | [] => some []
  | [_] => none
  | c :: d :: cs => do
    let high ← hexDigits.idxOf? c
    let low ← hexDigits.idxOf? d
    let bytes ← ofHex? cs
    return UInt8.ofNat (16 * high + low) :: bytes

theorem idxOf?_digitChar : ∀ n < 16, hexDigits.idxOf? (Nat.digitChar n) = some n := by decide

theorem ofHex?_hex (bs : List UInt8) : ofHex? (hex bs) = some bs := by
  induction bs with
  | nil => rfl
  | cons b bs ih =>
    have hlt := b.toNat_lt
    have hhigh := idxOf?_digitChar (b.toNat / 16) (by omega)
    have hlow := idxOf?_digitChar (b.toNat % 16) (by omega)
    have hb : UInt8.ofNat (16 * (b.toNat / 16) + b.toNat % 16) = b := by
      rw [Nat.div_add_mod, UInt8.ofNat_toNat]
    have he : hex (b :: bs) =
        Nat.digitChar (b.toNat / 16) :: Nat.digitChar (b.toNat % 16) :: hex bs := rfl
    simp only [he, ofHex?, hhigh, hlow, ih, Option.bind_eq_bind, Option.bind_some, hb]
    rfl

theorem hex_inj {bs cs : List UInt8} (h : hex bs = hex cs) : bs = cs := by
  have ho := ofHex?_hex bs
  rw [h, ofHex?_hex] at ho
  exact (Option.some.inj ho).symm

theorem quote_not_mem_hex (bs : List UInt8) : '\'' ∉ hex bs := by
  intro hm
  exact absurd (mem_hexDigits_of_mem_hex hm) (by decide)

end Text

namespace Dialect
open Text

theorem literal_string_of_ne {d : Dialect} (h : d ≠ .mysql) (s : String) :
    (d.literal (.string s)).toList = quoted '\'' s.toList := by
  cases d <;> simp_all [literal, Value.literal, Value.quotedText]

theorem literal_string_mysql (s : String) :
    (mysql.literal (.string s)).toList = quoted '\'' (doubled '\\' s.toList) := by
  simp [literal, Value.quotedText]

theorem literal_bytes_of_ne {d : Dialect} (h : d ≠ .postgres) (bs : List UInt8) :
    (d.literal (.bytes bs)).toList = "X'".toList ++ hex bs ++ "'".toList := by
  have hd := doubled_of_not_mem (quote_not_mem_hex bs)
  cases d <;> simp_all [literal, Value.literal, Value.quotedText, Value.hexText, quoted]

theorem literal_bytes_postgres (bs : List UInt8) :
    (postgres.literal (.bytes bs)).toList = "'\\x".toList ++ hex bs ++ "'::bytea".toList := by
  have hd : doubled '\'' ('\\' :: 'x' :: hex bs) = '\\' :: 'x' :: hex bs :=
    doubled_of_not_mem (by simp [quote_not_mem_hex])
  simp [literal, Value.quotedText, Value.hexText, quoted, hd]

theorem literal_string_inj (d : Dialect) {s t : String}
    (h : d.literal (.string s) = d.literal (.string t)) : s = t := by
  have hn : ([] : List Char).head? ≠ some '\'' := by simp
  have hr : ∃ escape, ∀ u : String,
      readQuoted escape (d.literal (.string u)).toList = some (u.toList, []) := by
    by_cases hd : d = mysql
    · subst hd
      refine ⟨some fun c => [c], fun u => ?_⟩
      have hq := @readQuoted_quoted_escaped [] (fun c => [c]) rfl hn u.toList
      rwa [List.append_nil, ← literal_string_mysql] at hq
    · refine ⟨none, fun u => ?_⟩
      have hq := readQuoted_quoted hn u.toList
      rwa [List.append_nil, ← literal_string_of_ne hd] at hq
  obtain ⟨escape, hr⟩ := hr
  have hs := hr s
  rw [h, hr t] at hs
  exact String.toList_inj.mp (Prod.mk.inj (Option.some.inj hs)).1.symm

theorem literal_bytes_inj (d : Dialect) {bs cs : List UInt8}
    (h : d.literal (.bytes bs) = d.literal (.bytes cs)) : bs = cs := by
  apply hex_inj
  have hl := congrArg String.toList h
  by_cases hd : d = postgres
  · subst hd
    rw [literal_bytes_postgres, literal_bytes_postgres] at hl
    exact List.append_cancel_left (List.append_cancel_right hl)
  · rw [literal_bytes_of_ne hd, literal_bytes_of_ne hd] at hl
    exact List.append_cancel_left (List.append_cancel_right hl)

/-- The literal of a string is read back to its end by the rules of its dialect, and so gives the string;
the literal of bytes consists of their digits and what the dialect writes around them. Different strings
never share a literal, and neither do different bytes. -/
theorem literal_reads_back :
    (∀ (s : String) (rest : List Char), rest.head? ≠ some '\'' →
      (∀ d ≠ mysql, readQuoted none ((d.literal (.string s)).toList ++ rest) =
        some (s.toList, rest)) ∧
      ∀ meaning : Char → List Char, meaning '\\' = ['\\'] →
        readQuoted (some meaning) ((mysql.literal (.string s)).toList ++ rest) =
          some (s.toList, rest)) ∧
    (∀ bs : List UInt8, ∃ h : List Char,
      h.length = 2 * bs.length ∧ (∀ c ∈ h, c ∈ hexDigits) ∧ ofHex? h = some bs ∧
      (∀ d ≠ postgres, (d.literal (.bytes bs)).toList = "X'".toList ++ h ++ "'".toList) ∧
      (postgres.literal (.bytes bs)).toList = "'\\x".toList ++ h ++ "'::bytea".toList) ∧
    ∀ d : Dialect, (∀ s t, d.literal (.string s) = d.literal (.string t) → s = t) ∧
      ∀ bs cs, d.literal (.bytes bs) = d.literal (.bytes cs) → bs = cs := by
  refine ⟨fun s rest hr => ⟨fun d hd => ?_, fun meaning hm => ?_⟩, fun bs => ?_, fun d => ?_⟩
  · rw [literal_string_of_ne hd]
    exact readQuoted_quoted hr s.toList
  · rw [literal_string_mysql]
    exact readQuoted_quoted_escaped hm hr s.toList
  · exact ⟨hex bs, length_hex bs, fun _ => mem_hexDigits_of_mem_hex, ofHex?_hex bs,
      fun _ hd => literal_bytes_of_ne hd bs, literal_bytes_postgres bs⟩
  · exact ⟨fun _ _ => d.literal_string_inj, fun _ _ => d.literal_bytes_inj⟩

/-- A backslash in front of a quote at the end does not take the closing quote along. -/
theorem literal_reads_back_behind_backslash_quote :
    let rest := " OR ''".toList
    rest.head? ≠ some '\'' ∧ mysql.literal (.string "a\\'\\") = "'a\\\\''\\\\'" ∧
      readQuoted (some fun c => [c]) ((mysql.literal (.string "a\\'\\")).toList ++ rest) =
        some ("a\\'\\".toList, rest) ∧
      readQuoted none ((ansi.literal (.string "a\\'\\")).toList ++ rest) =
        some ("a\\'\\".toList, rest) := by
  intro rest
  have hr : rest.head? ≠ some '\'' := by decide
  have h := literal_reads_back.1 "a\\'\\" rest hr
  exact ⟨hr, by decide, h.2 (fun c => [c]) rfl, h.1 ansi (by decide)⟩

end Dialect

end SqlExpr
