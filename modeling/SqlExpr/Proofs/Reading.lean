import SqlExpr.Expr.Combine
import SqlExpr.Proofs.Shape

/-! # Reading bound filters back

In a filter of columns, constants and infix operators every group is written with its own parentheses,
so that its bound text can be read in one way only. An operand ends at the first space or closing
parenthesis that is not inside one of its groups; an operator ends at the last space in front of the
next parenthesis.
-/
namespace SqlExpr
open Fragment

def IsIdentifier (s : String) : Prop :=
  s ≠ "" ∧ s.toList.all (fun c => Text.isAlphanumeric c || c == '_') = true

def IsOperator (op : String) : Prop := op.toList.all isPlain = true

theorem IsIdentifier.chars {s : String} (h : IsIdentifier s) :
    ∀ c ∈ s.toList, Text.isAlphanumeric c = true ∨ c = '_' := by
  simpa using h.2

theorem IsOperator.plain {op : String} (h : IsOperator op) : ∀ c ∈ op.toList, isPlain c = true :=
  List.all_eq_true.mp h

/-- A filter of columns without alias, constants and infix operators. -/
inductive Prepared : Expr → Prop where
  | column {table : Option Word} {name : String} (ht : ∀ w ∈ table, IsIdentifier w.text)
      (hn : IsIdentifier name) : Prepared (.column table name none)
  | constant (v : Value) : Prepared (.constant v)
  | binary {left right : Expr} {op : String} (hl : Prepared left) (ho : IsOperator op)
      (hr : Prepared right) : Prepared (.binary left op right)

namespace Prepared

theorem qualified {table name : String} (ht : IsIdentifier table) (hn : IsIdentifier name) :
    Prepared (.qualified table name) := by
  refine .column (fun w hw => ?_) hn
  rw [Word.ofText?_of_ne ht.1, Option.mem_some_iff] at hw
  rwa [← hw]

theorem filter (c : Comparison) {name : String} (hn : IsIdentifier name) (v : Value) :
    Prepared (.filter c name v) := by
  refine .binary (.column (by simp) hn) ?_ (.constant v)
  cases c <;> exact rfl

theorem equals {e e' : Expr} (he : Prepared e) (he' : Prepared e') : Prepared (e.equals e') :=
  .binary he rfl he'

theorem combine {op : String} {e e' : Expr} (ho : IsOperator op) (he : Prepared e)
    (he' : Prepared e') : Prepared (.combine op e e') := by
  have hne : ∀ {f : Expr}, Prepared f → f.isEmpty = false := fun hf => by cases hf <;> rfl
  rw [Expr.combine_of_not_isEmpty (hne he) (hne he')]
  exact .binary he ho he'

theorem and {e e' : Expr} (he : Prepared e) (he' : Prepared e') : Prepared (e.and e') :=
  combine rfl he he'

theorem or {e e' : Expr} (he : Prepared e) (he' : Prepared e') : Prepared (e.or e') :=
  combine rfl he he'

end Prepared

/-- The text of a filter with each operand as it is. -/
def Expr.groupedText (d : Dialect) : Expr → Nat → List Char
  | column table name _, _ => (Fragment.qualified (Word.textD table) name).toList
  | constant _, n => (d.placeholder n).toList
  | binary left op right, n =>
    '(' :: (groupedText d left n ++ ' ' :: (op.toList ++ ' ' ::
      (groupedText d right (n + left.constants.length) ++ [')'])))
  | _, _ => []

def isColumnChar (c : Char) : Bool := Text.isAlphanumeric c || c == '_' || c == '.'

theorem isColumnChar_iff {c : Char} :
    isColumnChar c = true ↔ (Text.isAlphanumeric c = true ∨ c = '_') ∨ c = '.' := by
  simp [isColumnChar]

theorem isNameChar_of_isColumnChar {c : Char} (h : isColumnChar c = true) : isNameChar c = true := by
  simp only [isColumnChar, Bool.or_eq_true, beq_iff_eq] at h
  simp only [isNameChar, Bool.or_eq_true, beq_iff_eq]
  exact .inl (.inl h)

theorem isPlain_of_isColumnChar {c : Char} (h : isColumnChar c = true) : isPlain c = true := by
  refine isPlain_iff.mpr ⟨?_, ?_, ?_⟩ <;> rintro rfl <;> exact absurd h (by decide +kernel)

namespace IsIdentifier

variable {s : String}

theorem ne_nil (h : IsIdentifier s) : s.toList ≠ [] := by
  simpa using h.1

theorem isColumnChar (h : IsIdentifier s) {c : Char} (hc : c ∈ s.toList) : isColumnChar c = true :=
  isColumnChar_iff.mpr (.inl (h.chars c hc))

theorem ne_point (h : IsIdentifier s) {c : Char} (hc : c ∈ s.toList) : c ≠ '.' := by
  rintro rfl
  exact absurd (h.chars _ hc) (by decide +kernel)

end IsIdentifier

section Columns

variable {table table' : Option Word} {name name' : String}

theorem toList_qualified (table : Option Word) (name : String) :
    (qualified (Word.textD table) name).toList =
      match table with
      | none => name.toList
      | some w => w.text.toList ++ '.' :: name.toList := by
  cases table with
  | none => rfl
  | some w => simp [qualified, w.ne_empty]

theorem isColumnChar_of_mem_qualified (ht : ∀ w ∈ table, IsIdentifier w.text)
    (hn : IsIdentifier name) {c : Char} (hc : c ∈ (qualified (Word.textD table) name).toList) :
    isColumnChar c = true := by
  rw [toList_qualified] at hc
  cases table with
  | none => exact hn.isColumnChar hc
  | some w =>
    simp only [List.mem_append, List.mem_cons] at hc
    rcases hc with hc | rfl | hc
    · exact (ht w rfl).isColumnChar hc
    · rfl
    · exact hn.isColumnChar hc

theorem qualified_ne_nil (hn : IsIdentifier name) :
    (qualified (Word.textD table) name).toList ≠ [] := by
  rw [toList_qualified]
  cases table with
  | none => exact hn.ne_nil
  | some w => simp

theorem qualified_inj (ht : ∀ w ∈ table, IsIdentifier w.text) (hn : IsIdentifier name)
    (ht' : ∀ w ∈ table', IsIdentifier w.text) (hn' : IsIdentifier name')
    (h : (qualified (Word.textD table) name).toList = (qualified (Word.textD table') name').toList) :
    table = table' ∧ name = name' := by
  have hpoint : ∀ {s : String}, IsIdentifier s → '.' ∉ s.toList := fun hs hm => hs.ne_point hm rfl
  rw [toList_qualified, toList_qualified] at h
  cases table with
  | none =>
    cases table' with
    | none => exact ⟨rfl, String.toList_inj.mp h⟩
    | some w =>
      have hm : '.' ∈ name.toList := by simp [h]
      exact absurd hm (hpoint hn)
  | some w =>
    cases table' with
    | none =>
      have hm : '.' ∈ name'.toList := by simp [← h]
      exact absurd hm (hpoint hn')
    | some w' =>
      obtain ⟨hw, _, hname⟩ :=
        (List.append_cons_inj_of_notMem (hpoint (ht' w' rfl)) (hpoint hn')).mp h.symm
      obtain rfl := Word.toList_inj hw
      exact ⟨rfl, String.toList_inj.mp hname.symm⟩

end Columns

section Spans

variable {p : Char → Bool} {s t x y : List Char}

/-- Equal texts that begin with runs of one kind of character have equal runs. -/
theorem append_inj_of_run (hs : ∀ c ∈ s, p c = true) (ht : ∀ c ∈ t, p c = true)
    (hx : ∀ c, x.head? = some c → p c = false) (hy : ∀ c, y.head? = some c → p c = false)
    (h : s ++ x = t ++ y) : s = t ∧ x = y := by
  have hw : ∀ {s x : List Char}, (∀ c ∈ s, p c = true) → (∀ c, x.head? = some c → p c = false) →
      (s ++ x).takeWhile p = s := by
    intro s x hs hx
    have hn : x.takeWhile p = [] := by
      cases x with
      | nil => rfl
      | cons c x => simp [hx c rfl]
    rw [List.takeWhile_append_of_pos hs, hn, List.append_nil]
  have he : s = t := by rw [← hw hs hx, h, hw ht hy]
  subst he
  exact ⟨rfl, List.append_cancel_left h⟩

/-- The last space of a text tells what is before it from what is behind it. -/
theorem append_inj_of_last_space (hs : ' ' ∉ s) (ht : ' ' ∉ t) (h : x ++ ' ' :: s = y ++ ' ' :: t) :
    x = y ∧ s = t := by
  have hn : ∀ {s : List Char}, ' ' ∉ s → ∀ c ∈ s.reverse, (c != ' ') = true := by
    intro s hs c hc
    have hm := List.mem_reverse.mp hc
    simp only [bne_iff_ne]
    rintro rfl
    exact hs hm
  -- Read backwards, both texts begin with a run without spaces.
  have hr : s.reverse ++ ' ' :: x.reverse = t.reverse ++ ' ' :: y.reverse := by
    simpa using congrArg List.reverse h
  obtain ⟨hst, hxy⟩ := append_inj_of_run (hn hs) (hn ht) (by simp) (by simp) hr
  exact ⟨List.reverse_inj.mp (List.cons.inj hxy).2, List.reverse_inj.mp hst⟩

end Spans

/-- The text of an operand: a group, or a text without spaces and parentheses. -/
def IsOperandText (r : List Char) : Prop :=
  r.head? = some '(' ∨ ∀ c ∈ r, c ≠ ' ' ∧ c ≠ '(' ∧ c ≠ ')'

def isParenthesis (c : Char) : Bool := c == '(' || c == ')'

/-- Behind the left operand, the first parenthesis opens the right one or closes the whole group. -/
theorem IsOperandText.cut {op r : List Char} (hr : IsOperandText r)
    (ho : ∀ c ∈ op, isPlain c = true) (x : List Char) :
    ∃ u v c, op ++ ' ' :: (r ++ ')' :: x) = u ++ c :: v ∧ (∀ d ∈ u, (!isParenthesis d) = true) ∧
      (c = '(' ∧ u = op ++ [' '] ∨ c = ')' ∧ u = op ++ ' ' :: r ∧ ' ' ∉ r) := by
  have hop : ∀ d ∈ op, (!isParenthesis d) = true := by
    intro d hd
    obtain ⟨_, h₁, h₂⟩ := isPlain_iff.mp (ho d hd)
    simp [isParenthesis, h₁, h₂]
  rcases hr with hg | ht
  · obtain ⟨r, rfl⟩ := List.head?_eq_some_iff.mp hg
    refine ⟨op ++ [' '], r ++ ')' :: x, '(', by simp, fun d hd => ?_, .inl ⟨rfl, rfl⟩⟩
    rcases List.mem_append.mp hd with hd | hd
    · exact hop d hd
    · rw [List.mem_singleton.mp hd]
      rfl
  · refine ⟨op ++ ' ' :: r, x, ')', by simp, fun d hd => ?_, .inr ⟨rfl, rfl, ?_⟩⟩
    · simp only [List.mem_append, List.mem_cons] at hd
      rcases hd with hd | rfl | hd
      · exact hop d hd
      · rfl
      · simp [isParenthesis, ht d hd]
    · intro hm
      exact (ht _ hm).1 rfl

theorem operator_inj {op op' r r' x y : List Char} (ho : ∀ c ∈ op, isPlain c = true)
    (ho' : ∀ c ∈ op', isPlain c = true) (hr : IsOperandText r) (hr' : IsOperandText r')
    (h : op ++ ' ' :: (r ++ ')' :: x) = op' ++ ' ' :: (r' ++ ')' :: y)) :
    op = op' ∧ r ++ ')' :: x = r' ++ ')' :: y := by
  have he : op = op' := by
    obtain ⟨u, v, c, hc, hu, hcut⟩ := hr.cut ho x
    obtain ⟨u', v', c', hc', hu', hcut'⟩ := hr'.cut ho' y
    have hp : isParenthesis c = true := by rcases hcut with ⟨rfl, _⟩ | ⟨rfl, _⟩ <;> rfl
    have hp' : isParenthesis c' = true := by rcases hcut' with ⟨rfl, _⟩ | ⟨rfl, _⟩ <;> rfl
    rw [hc, hc'] at h
    obtain ⟨huu, hcc⟩ := append_inj_of_run hu hu' (by simp [hp]) (by simp [hp']) h
    obtain ⟨rfl, _⟩ := List.cons.inj hcc
    rcases hcut with ⟨rfl, rfl⟩ | ⟨rfl, rfl, hs⟩
    · rcases hcut' with ⟨_, rfl⟩ | ⟨hf, _⟩
      · exact (List.append_inj' huu rfl).1
      · exact absurd hf (by decide)
    · rcases hcut' with ⟨hf, _⟩ | ⟨_, rfl, hs'⟩
      · exact absurd hf (by decide)
      · exact (append_inj_of_last_space hs hs' huu).1
  subst he
  exact ⟨rfl, (List.cons.inj (List.append_cancel_left h)).2⟩

inductive OperandKind where
  | column
  | constant
  | group
deriving DecidableEq

def OperandKind.ofHead (c : Char) : OperandKind :=
  if isColumnChar c then column else if c = '(' then group else constant

def Expr.operandKind : Expr → OperandKind
  | column .. => .column
  | constant _ => .constant
  | _ => .group

theorem Fragment.IsNeutral.infixed {l r op : List Char} (hl : IsNeutral l) (ho : ∀ c ∈ op, isPlain c = true)
    (hr : IsNeutral r) : ∀ depth cs, closesAtEnd (depth + 1) false
      (l ++ ' ' :: (op ++ ' ' :: (r ++ cs))) = closesAtEnd (depth + 1) false cs := by
  intro depth cs
  rw [hl, closesAtEnd_plain_cons rfl, closesAtEnd_plain_append ho, closesAtEnd_plain_cons rfl, hr]

namespace Prepared
open SqlExpr.Expr

variable {d : Dialect} {e e' : Expr}

/-- The first character of an operand tells what it is. -/
theorem kind_head (he : Prepared e) (n : Nat) :
    ∃ c cs, groupedText d e n = c :: cs ∧ OperandKind.ofHead c = e.operandKind := by
  cases he with
  | @column table name ht hn =>
    obtain ⟨c, cs, hc⟩ := List.exists_cons_of_ne_nil (@qualified_ne_nil table name hn)
    have hm : c ∈ (Fragment.qualified (Word.textD table) name).toList := by simp [hc]
    exact ⟨c, cs, hc, if_pos (isColumnChar_of_mem_qualified ht hn hm)⟩
  | constant v =>
    have hq : OperandKind.ofHead '?' = .constant := by decide +kernel
    have hd : OperandKind.ofHead '$' = .constant := by decide +kernel
    obtain ⟨c, cs, ht, hc, _⟩ := (d.isMark_placeholder n).eq_cons
    refine ⟨c, cs, ht, ?_⟩
    rcases hc with rfl | rfl
    · exact hq
    · exact hd
  | binary =>
    have ho : OperandKind.ofHead '(' = .group := by decide +kernel
    exact ⟨'(', _, rfl, ho⟩

theorem operandKind_eq (he : Prepared e) (he' : Prepared e') {n : Nat} {x y : List Char}
    (h : groupedText d e n ++ x = groupedText d e' n ++ y) : e.operandKind = e'.operandKind := by
  obtain ⟨c, cs, ht, hc⟩ := kind_head (d := d) he n
  obtain ⟨c', cs', ht', hc'⟩ := kind_head (d := d) he' n
  rw [ht, ht'] at h
  rw [← hc, ← hc', (List.cons.inj h).1]

theorem isOperandText (he : Prepared e) (n : Nat) : IsOperandText (groupedText d e n) := by
  cases he with
  | column ht hn =>
    right
    intro c hc
    have hm := isColumnChar_of_mem_qualified ht hn hc
    refine ⟨?_, ?_, ?_⟩ <;> rintro rfl <;> exact absurd hm (by decide +kernel)
  | constant v =>
    right
    intro c hc
    have hm := d.isMark_placeholder n
    refine ⟨?_, ?_, ?_⟩ <;> rintro rfl <;> exact hm.not_mem (by decide) hc
  | binary => exact .inl rfl

theorem isNeutral_groupedText (he : Prepared e) (n : Nat) : IsNeutral (groupedText d e n) := by
  induction he generalizing n with
  | column ht hn =>
    intro depth cs
    exact closesAtEnd_plain_append
      (fun c hc => isPlain_of_isColumnChar (isColumnChar_of_mem_qualified ht hn hc)) _ _ _
  | constant v =>
    intro depth cs
    exact closesAtEnd_plain_append (fun c hc => (d.isMark_placeholder n).isPlain_of_mem hc) _ _ _
  | @binary left right op _ ho _ ihl ihr =>
    intro depth cs
    have hi := (ihl n).infixed ho.plain (ihr (n + left.constants.length)) (depth + 1) (')' :: cs)
    rw [groupedText, List.cons_append, closesAtEnd_open]
    simpa [closesAtEnd_close] using hi

theorem standsAlone_groupedText (he : Prepared e) (n : Nat) :
    standsAlone (groupedText d e n) = true := by
  cases he with
  | @column table name ht hn =>
    apply standsAlone_of_isName
    obtain ⟨c, cs, hc⟩ := List.exists_cons_of_ne_nil (@qualified_ne_nil table name hn)
    have hall : ∀ x ∈ c :: cs, isColumnChar x = true := fun x hx =>
      isColumnChar_of_mem_qualified ht hn (hc ▸ hx)
    have hm : c ≠ '-' := by
      rintro rfl
      exact absurd (hall _ List.mem_cons_self) (by decide +kernel)
    rw [groupedText, hc, isName_of_ne hm, List.all_eq_true]
    exact fun x hx => isNameChar_of_isColumnChar (hall x hx)
  | constant v => exact d.standsAlone_placeholder n
  | @binary left right op hl ho hr =>
    have hi := IsNeutral.infixed (@isNeutral_groupedText d left hl n) ho.plain
      (@isNeutral_groupedText d right hr (n + left.constants.length)) 0 [')']
    rw [groupedText, standsAlone_of_open, isGroup_eq, closesAtEnd_open, hi]
    rfl

theorem operandText_eq_self (he : Prepared e) {s : String} {n : Nat}
    (h : s.toList = groupedText d e n) : operandText e s = s := by
  unfold operandText
  split
  · rfl
  · exact operand_of_standsAlone (by rw [h]; exact he.standsAlone_groupedText n)

theorem toList_textAt (he : Prepared e) (sink : List Value) (n : Nat) :
    (textAt ((Mode.bind sink).spelling d) e .reference n).toList = groupedText d e n := by
  induction he generalizing n with
  | column ht hn =>
    rw [textAt, groupedText]
    rfl
  | constant v =>
    rw [textAt, groupedText]
    rfl
  | @binary left right op hl ho hr ihl ihr =>
    rw [textAt, hl.operandText_eq_self (ihl _), hr.operandText_eq_self (ihr _), groupedText, ← ihl,
      ← ihr]
    simp [infixText]

/-- What may come behind an operand: the end, a space or a closing parenthesis. -/
def EndsOperand (x : List Char) : Prop := ∀ c, x.head? = some c → c = ' ' ∨ c = ')'

theorem endsOperand_nil : EndsOperand [] := by simp [EndsOperand]

theorem EndsOperand.isColumnChar {x : List Char} (hx : EndsOperand x) (c : Char)
    (hc : x.head? = some c) : isColumnChar c = false := by
  rcases hx c hc with rfl | rfl <;> decide +kernel

/-- Two filters whose texts begin one text are built alike, and the same is left of it behind them. -/
theorem blank_eq_of_append_eq (he : Prepared e) (he' : Prepared e') {n : Nat} {x y : List Char}
    (hx : EndsOperand x) (hy : EndsOperand y)
    (h : groupedText d e n ++ x = groupedText d e' n ++ y) : e.blank = e'.blank ∧ x = y := by
  induction he generalizing e' n x y with
  | @column table name ht hn =>
    have hk := operandKind_eq (.column ht hn) he' h
    cases he' with
    | @column table' name' ht' hn' =>
      obtain ⟨hc, hxy⟩ := append_inj_of_run (fun _ => isColumnChar_of_mem_qualified ht hn)
        (fun _ => isColumnChar_of_mem_qualified ht' hn') hx.isColumnChar hy.isColumnChar h
      obtain ⟨rfl, rfl⟩ := qualified_inj ht hn ht' hn' hc
      exact ⟨rfl, hxy⟩
    | constant => cases hk
    | binary => cases hk
  | constant v =>
    have hk := operandKind_eq (.constant v) he' h
    cases he' with
    | column => cases hk
    | constant v' => exact ⟨rfl, List.append_cancel_left h⟩
    | binary => cases hk
  | @binary left right op hl ho hr ihl ihr =>
    have hk := operandKind_eq (.binary hl ho hr) he' h
    cases he' with
    | column => cases hk
    | constant => cases hk
    | @binary left' right' op' hl' ho' hr' =>
      simp only [groupedText, List.cons_append, List.append_assoc, List.cons.injEq, true_and,
        List.nil_append] at h
      obtain ⟨hbl, hrest⟩ := ihl hl' (by simp [EndsOperand]) (by simp [EndsOperand]) h
      obtain ⟨hop, htail⟩ := operator_inj ho.plain ho'.plain (hr.isOperandText _) (hr'.isOperandText _)
        (List.cons.inj hrest).2
      -- The left operands bind equally many values, so that the right ones go on at one place.
      rw [length_constants_eq_of_blank_eq hbl] at htail
      obtain ⟨hbr, hend⟩ := ihr hr' (by simp [EndsOperand]) (by simp [EndsOperand]) htail
      rw [blank, blank, hbl, hbr, String.toList_inj.mp hop]
      exact ⟨rfl, (List.cons.inj hend).2⟩

theorem blank_eq_of_boundSql_eq (he : Prepared e) (he' : Prepared e')
    (h : (e.boundSql d).1 = (e'.boundSql d).1) : e.blank = e'.blank := by
  have hg := congrArg String.toList h
  rw [sql_boundSql, sql_boundSql, he.toList_textAt, he'.toList_textAt] at hg
  exact (blank_eq_of_append_eq he he' endsOperand_nil endsOperand_nil (by rw [hg])).1

end Prepared

namespace Expr

variable {d : Dialect} {e e' : Expr}

/-- A bound text can be read in one way only: two filters with one text and one list of parameters are
the same tree, and where the parameters are equal as values, so are the trees. -/
theorem boundSql_injective (he : Prepared e) (he' : Prepared e')
    (ht : (e.boundSql d).1 = (e'.boundSql d).1) :
    ((e.boundSql d).2 = (e'.boundSql d).2 → e = e') ∧
      (List.Forall₂ (fun v v' => v.equal v' = true) (e.boundSql d).2 (e'.boundSql d).2 →
        e.equal e' = true) := by
  have hb := he.blank_eq_of_boundSql_eq he' ht
  rw [params_boundSql, params_boundSql]
  constructor
  · intro hp
    exact eq_of_blank_eq e e' hb hp
  · intro hp
    exact equal_of_blank_eq e e' hb hp

/-- A comparison is the same tree when it is written as an equation, and filters that differ in the sign
of a zero have one text and are equal. -/
theorem boundSql_injective_for_signed_zeros :
    let e := fun zero => (filter .eq "a" (.int 1)).and
      ((filter .lt "b" (.float (.zero zero))).or (filter .ge "c_2" (.string ")")))
    filter .eq "a" .null = (named "a").equalsValue .null ∧
      ((e false).boundSql .postgres).1 = ((e true).boundSql .postgres).1 ∧
      (e false).equal (e true) = true := by
  intro e
  have ha : IsIdentifier "a" := ⟨by decide, by decide +kernel⟩
  have hb : IsIdentifier "b" := ⟨by decide, by decide +kernel⟩
  have hc : IsIdentifier "c_2" := ⟨by decide, by decide +kernel⟩
  have he : ∀ zero, Prepared (e zero) := fun zero =>
    .and (.filter .eq ha _) (.or (.filter .lt hb _) (.filter .ge hc _))
  have ht : ((e false).boundSql .postgres).1 = ((e true).boundSql .postgres).1 := by decide +kernel
  have hf : Prepared (filter .eq "a" .null) := .filter .eq ha .null
  have hs : Prepared ((named "a").equalsValue .null) := .equals (.column (by simp) ha) (.constant .null)
  refine ⟨(@boundSql_injective .mysql _ _ hf hs rfl).1 rfl, ht,
    (boundSql_injective (he false) (he true) ht).2 ?_⟩
  rw [params_boundSql, params_boundSql]
  exact .cons (by decide) (.cons (by decide +kernel) (.cons (by decide) .nil))

end Expr

end SqlExpr
