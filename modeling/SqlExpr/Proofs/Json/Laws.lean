import SqlExpr.Json.ValueForm
import SqlExpr.Proofs.CalendarText
import SqlExpr.Proofs.DecimalText
import SqlExpr.Proofs.Json.NumberText

/-! # Laws of formats

A lawful format reads back what it writes: scalars as they were, data with texts of their own as these texts
are read, and lists, pairs, records and variants by what they hold. Nothing is asked of floats, which may
not have a text of their own. Texts of decimals keep the number, those of dates the date and those of
timestamps the timestamp, with one exception: a leap second within a minute is shown as the second behind it.
Compact JSON keeps these laws, and so do the texts that are used with it.
-/
namespace SqlExpr.Json

variable {α β : Type}

/-- The text of `a` is read as `b`, whatever may follow a value. -/
def Form.Rereads (f : Form α) (a b : α) : Prop := Written f.reader (f.text a) b

theorem Form.Rereads.ofText {f : Form α} {a b : α} (h : f.Rereads a b) : f.ofText (f.text a) = .ok b :=
  Written.run h

theorem Form.Rereads.imap {f : Form α} {inside : β → α} {outside : α → β} {a : α} {b : β}
    (h : f.Rereads (inside b) a) : (f.imap inside outside).Rereads b (outside a) :=
  Written.map outside h

structure Format.Lawful (F : Format) : Prop where
  integer (n : Int64) : F.integer.Rereads n n
  boolean (b : Bool) : F.boolean.Rereads b b
  byte (b : UInt8) : F.byte.Rereads b b
  string (s : String) : F.string.Rereads s s
  textual {α : Type} {expected : String} {t : Textual α} {a b : α} :
    t.ofText? (t.text a) = some b → (F.textual expected t).Rereads a b
  decimal {room : Nat} {t : Textual Decimal} {a b : Decimal} :
    t.ofText? (t.text a) = some b → (F.decimal room t).Rereads a b
  list {α : Type} {expected : String} {f : Form α} {as bs : List α} :
    List.Forall₂ f.Rereads as bs → (F.list expected f).Rereads as bs
  pair {α β : Type} {expected : String} {f : Form α} {g : Form β} {a b : α} {c d : β} :
    f.Rereads a b → g.Rereads c d → (F.pair expected f g).Rereads (a, c) (b, d)
  record {α β : Type} {expected m n : String} {f : Form α} {g : Form β} {a b : α} {c d : β} :
    m ≠ n → f.Rereads a b → g.Rereads c d →
      (F.record expected (m, f) (n, g)).Rereads (a, c) (b, d)
  /-- A variant without content. -/
  alone {α : Type} {names : List String} {tag : α → String × Option String}
    {alone withContent : String → Reader α} {a b : α} {name : String} :
    name ∈ names → tag a = (name, none) → alone name = pure b →
      (F.variant names tag alone withContent).Rereads a b
  /-- A variant with a content. -/
  variant {α : Type} {names : List String} {tag : α → String × Option String}
    {alone withContent : String → Reader α} {a b : α} {name content : String} :
    name ∈ names → tag a = (name, some content) → Written (withContent name) content b →
      (F.variant names tag alone withContent).Rereads a b

structure Scalars.Lawful (S : Scalars) : Prop where
  decimal (d : Decimal) : ∃ e, S.decimal.ofText? (S.decimal.text d) = some e ∧ d.toRat = e.toRat
  date (d : Date) : S.date.ofText? (S.date.text d) = some d
  regular {t : Timestamp} : t.IsRegular → S.timestamp.ofText? (S.timestamp.text t) = some t
  /-- A leap second within a minute cannot be told from the second behind it. -/
  shown (t : Timestamp) : S.timestamp.text t.shown = S.timestamp.text t

theorem Scalars.Lawful.timestamp {S : Scalars} (h : S.Lawful) (t : Timestamp) :
    S.timestamp.ofText? (S.timestamp.text t) = some t.shown := by
  rw [← h.shown t]
  exact h.regular t.isRegular_shown

/-! ## Compact JSON -/

theorem written_boolean (b : Bool) :
    Written Json.boolean (if b then "true" else "false") b := by
  cases b with
  | true =>
    refine ⟨⟨'t', ['r', 'u', 'e'], by decide, rfl, by decide⟩, fun rest _ => ?_⟩
    refine (Reads.firstOfValue rfl _).bind ((Reads.advance_one 't' _).bind ?_)
    exact (Reads.word ['r', 'u', 'e'] rest).bind (Reads.pure true rest)
  | false =>
    refine ⟨⟨'f', ['a', 'l', 's', 'e'], by decide, rfl, by decide⟩, fun rest _ => ?_⟩
    refine (Reads.firstOfValue rfl _).bind ((Reads.advance_one 'f' _).bind ?_)
    exact (Reads.word ['a', 'l', 's', 'e'] rest).bind (Reads.pure false rest)

section Decimals

variable {read : String → Option Decimal} {s : String} {d : Decimal}

theorem written_bareDecimal (h : read s = some d) : Written (bareDecimal read) (stringText s) d := by
  have hu : Written (understood "a decimal" read) (stringText s) d := Written.understood h
  refine ⟨hu.starts, fun rest hr => ?_⟩
  have h := hu.reads rest hr
  rw [toList_stringText] at h ⊢
  exact (Reads.token rfl _).bind h

/-- A string is no object, so no more brackets are opened, however many may be. -/
theorem written_decimal (h : read s = some d) (room : Nat) :
    Written (Json.decimal read room) (stringText s) d := by
  have hb := written_bareDecimal h
  refine ⟨hb.starts, fun rest hr => ?_⟩
  have h := hb.reads rest hr
  rw [toList_stringText] at h ⊢
  cases room with
  | zero => exact (Reads.token rfl _).bind h
  | succ room => exact (Reads.token rfl _).bind h

end Decimals

theorem lawful_compact : compact.Lawful where
  integer := Written.integer
  boolean := written_boolean
  byte := Written.byte
  string _ := Written.string rfl
  textual h := Written.understood h
  decimal h := written_decimal h _
  list h := Written.list fun cs => reads_items (List.forall₂_map_left_iff.mpr h) cs
  pair hf hg := Written.pair hf hg
  record hn hf hg := Written.pairRecord hn hf hg
  alone hm ht ha := by
    simp only [Form.Rereads, compact, ht, variantText]
    exact Written.variant_alone hm ha
  variant hm ht hc := by
    simp only [Form.Rereads, compact, ht, variantText]
    exact Written.variant hm hc

theorem lawful_scalars : scalars.Lawful where
  decimal d := by
    refine ⟨d.reread, ?_, d.toRat_reread.symm⟩
    simp only [scalars, d.ofText?_text]
  date d := by
    simp only [scalars, d.ofText?_text]
  regular {t} h := by
    simp only [scalars, t.ofText?_isoText, Timestamp.shown_of_isRegular h]
  shown t := congrArg String.ofList (t.chars_shown 'T')

end SqlExpr.Json
