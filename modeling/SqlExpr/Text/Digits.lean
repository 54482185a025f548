/-! # Numerals

Decimal numerals with and without a least width, the longest run of digits at the start of a text,
and bytes as pairs of lowercase hexadecimal digits.
-/
namespace SqlExpr.Text

def digits (n : Nat) : List Char := Nat.toDigits 10 n

def digitsValue (cs : List Char) : Nat := Nat.ofDigitChars 10 cs 0

theorem digitsValue_digits (n : Nat) : digitsValue (digits n) = n :=
  Nat.ofDigitChars_toDigits (by decide) (by decide)

theorem digits_ne_nil (n : Nat) : digits n ≠ [] := Nat.toDigits_ne_nil

theorem isDigit_of_mem_digits {n : Nat} {c : Char} (h : c ∈ digits n) : c.isDigit = true :=
  Nat.isDigit_of_mem_toDigits (by decide) (by decide) h

/-- The numeral of `n`, filled with zeros on the left up to `width` digits. -/
def padded (width n : Nat) : List Char :=
  List.replicate (width - (digits n).length) '0' ++ digits n

theorem isDigit_of_mem_padded {width n : Nat} {c : Char} (h : c ∈ padded width n) :
    c.isDigit = true := by
  rcases List.mem_append.mp h with h | h
  · rw [List.eq_of_mem_replicate h]; decide
  · exact isDigit_of_mem_digits h

def signed (i : Int) : List Char :=
  if i < 0 then '-' :: digits i.natAbs else digits i.natAbs

/-- Splits off the longest run of at most `limit` decimal digits. -/
def digitRun : Nat → List Char → List Char × List Char
  | 0, cs => ([], cs)
  | _ + 1, [] => ([], [])
  | limit + 1, c :: cs =>
    if c.isDigit then
      let (run, rest) := digitRun limit cs
      (c :: run, rest)
    else ([], c :: cs)

def hexByte (b : UInt8) : List Char :=
  [Nat.digitChar (b.toNat / 16), Nat.digitChar (b.toNat % 16)]

def hex (bs : List UInt8) : List Char := bs.flatMap hexByte

theorem length_hex (bs : List UInt8) : (hex bs).length = 2 * bs.length := by
  induction bs with
  | nil => rfl
  | cons b bs ih => simp [hex, hexByte] at ih ⊢; omega

def hexDigits : List Char := "0123456789abcdef".toList

theorem mem_hexDigits_of_mem_hex {bs : List UInt8} {c : Char} (h : c ∈ hex bs) : c ∈ hexDigits := by
  have hd : ∀ n < 16, Nat.digitChar n ∈ hexDigits := by decide
  obtain ⟨b, _, hb⟩ := List.mem_flatMap.mp h
  have hlt := b.toNat_lt
  simp only [hexByte, List.mem_cons, List.not_mem_nil, or_false] at hb
  rcases hb with rfl | rfl
  · exact hd _ (by omega)
  · exact hd _ (by omega)

end SqlExpr.Text
