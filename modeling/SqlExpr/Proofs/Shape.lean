import Mathlib.Data.List.Forall2
import SqlExpr.Expr.Equal
import SqlExpr.Proofs.BoundText

/-! # Shape and values

The shape of an expression is what is left of it when its values are taken away. A skeleton depends on
the shape alone, and so does a bound text; the shape together with the constants, in order, is the
whole expression.
-/
namespace SqlExpr

def Key.blank (k : Key) : Key := ⟨k.table, k.parts.map fun part => (part.1, .null)⟩

def KeyFilter.blank (f : KeyFilter) : KeyFilter :=
  ⟨f.key.blank, by simpa [Key.blank] using f.parts_ne_nil⟩

namespace Expr

mutual
/-- The expression with null for every value in it. -/
def blank : Expr → Expr
  | empty => empty
  | raw sql => raw sql
  | column table name label => column table name label
  | computed inner label => computed (blank inner) label
  | constant _ => constant .null
  | binary left op right => binary (blank left) op (blank right)
  | join kind left right condition => join kind (blank left) (blank right) (blank condition)
  | list items => list (blankItems items)
  | select columns source condition grouping having ordering =>
    select (blank columns) (blank source) (blank condition) (blank grouping) (blank having)
      (blank ordering)
  | keyFilter f => keyFilter f.blank

def blankItems : List Expr → List Expr
  | [] => []
  | e :: es => blank e :: blankItems es
end

theorem isSelect_blank (e : Expr) : e.blank.isSelect = e.isSelect := by
  cases e <;> simp [blank, isSelect]

theorem source_blank (e : Expr) (k : Skeleton) : k.source e.blank = k.source e := by
  unfold Skeleton.source
  rw [isSelect_blank]

mutual
theorem skeleton_blank : ∀ (e : Expr) (p : Position), e.blank.skeleton p = e.skeleton p
  | empty, p => by rw [blank]
  | raw _, p => by rw [blank]
  | column .., p => by rw [blank]
  | computed inner label, p => by rw [blank, skeleton, skeleton, skeleton_blank inner]
  | constant _, p => by rw [blank, skeleton, skeleton]
  | binary left op right, p => by
    rw [blank, skeleton, skeleton, skeleton_blank left, skeleton_blank right]
  | join kind left right condition, p => by
    rw [blank, skeleton, skeleton, skeleton_blank left, skeleton_blank right,
      skeleton_blank condition, source_blank, source_blank]
  | list items, p => by rw [blank, skeleton, skeleton, itemsSkeleton_blankItems items]
  | select columns source condition grouping having ordering, p => by
    rw [blank, skeleton, skeleton, skeleton_blank columns, skeleton_blank source,
      skeleton_blank condition, skeleton_blank grouping, skeleton_blank having,
      skeleton_blank ordering, source_blank]
  | keyFilter f, p => by
    have hc : f.blank.key.columns = f.key.columns := by
      simp [KeyFilter.blank, Key.blank, Key.columns]
    rw [blank, skeleton, skeleton, hc]
    rfl

theorem itemsSkeleton_blankItems : ∀ (es : List Expr) (p : Position),
    itemsSkeleton (blankItems es) p = itemsSkeleton es p
  | [], p => by rw [blankItems]
  | [e], p => by rw [blankItems, blankItems, itemsSkeleton, itemsSkeleton, skeleton_blank e]
  | e :: e' :: es, p => by
    have h := itemsSkeleton_blankItems (e' :: es) p
    rw [blankItems] at h
    rw [blankItems, blankItems, itemsSkeleton, itemsSkeleton, skeleton_blank e, h]
end

theorem skeleton_eq_of_blank_eq {e e' : Expr} (h : e.blank = e'.blank) (p : Position) :
    e.skeleton p = e'.skeleton p := by
  rw [← skeleton_blank e, h, skeleton_blank]

theorem length_constants_eq_of_blank_eq {e e' : Expr} (h : e.blank = e'.blank) :
    e.constants.length = e'.constants.length := by
  rw [← holes_skeleton e .reference, skeleton_eq_of_blank_eq h, holes_skeleton]

theorem constants_append_inj {e e' : Expr} {vs vs' : List Value} (hb : e.blank = e'.blank)
    (h : vs ++ e.constants = vs' ++ e'.constants) : vs = vs' ∧ e.constants = e'.constants :=
  List.append_inj' h (length_constants_eq_of_blank_eq hb)

theorem table_columns_eq_of_blank_eq {k k' : Key} (hb : k.blank = k'.blank) :
    k.table = k'.table ∧ k.columns = k'.columns := by
  simp only [Key.blank, Key.mk.injEq] at hb
  have hm := congrArg (List.map Prod.fst) hb.2
  exact ⟨hb.1, by simpa [Key.columns, Function.comp_def] using hm⟩

theorem key_eq_of_blank_eq {k k' : Key} (hb : k.blank = k'.blank) (h : k.values = k'.values) :
    k = k' := by
  obtain ⟨ht, hc⟩ := table_columns_eq_of_blank_eq hb
  obtain ⟨table, parts⟩ := k
  obtain ⟨table', parts'⟩ := k'
  obtain rfl : table = table' := ht
  have hv : parts.map (·.2) = parts'.map (·.2) := h
  have hc : parts.map (·.1) = parts'.map (·.1) := hc
  have hz : parts = parts' := by
    rw [← List.zip_unzip parts, ← List.zip_unzip parts', List.unzip_eq_map, List.unzip_eq_map]
    exact congrArg₂ List.zip hc hv
  rw [hz]

mutual
theorem eq_of_blank_eq : ∀ (e e' : Expr), e.blank = e'.blank → e.constants = e'.constants → e = e'
  | empty, e', hb, _ => by cases e' <;> simp_all [blank]
  | raw _, e', hb, _ => by cases e' <;> simp_all [blank]
  | column .., e', hb, _ => by cases e' <;> simp_all [blank]
  | constant v, e', hb, h => by cases e' <;> simp_all [blank, constants]
  | computed inner label, e', hb, h => by
    cases e' with
    | computed inner' label' =>
      simp only [blank, computed.injEq] at hb
      rw [eq_of_blank_eq inner inner' hb.1 (by simpa [constants] using h), hb.2]
    | _ => simp [blank] at hb
  | binary left op right, e', hb, h => by
    cases e' with
    | binary left' op' right' =>
      simp only [blank, binary.injEq] at hb
      simp only [constants] at h
      obtain ⟨hl, rfl, hr⟩ := hb
      obtain ⟨h, hr'⟩ := constants_append_inj hr h
      rw [eq_of_blank_eq left left' hl h, eq_of_blank_eq right right' hr hr']
    | _ => simp [blank] at hb
  | join kind left right condition, e', hb, h => by
    cases e' with
    | join kind' left' right' condition' =>
      simp only [blank, join.injEq] at hb
      simp only [constants] at h
      obtain ⟨rfl, hl, hr, hc⟩ := hb
      obtain ⟨h, hc'⟩ := constants_append_inj hc h
      obtain ⟨h, hr'⟩ := constants_append_inj hr h
      rw [eq_of_blank_eq left left' hl h, eq_of_blank_eq right right' hr hr',
        eq_of_blank_eq condition condition' hc hc']
    | _ => simp [blank] at hb
  | list items, e', hb, h => by
    cases e' with
    | list items' =>
      simp only [blank, list.injEq] at hb
      rw [eq_of_blankItems_eq items items' hb (by simpa [constants] using h)]
    | _ => simp [blank] at hb
  | select columns source condition grouping having ordering, e', hb, h => by
    cases e' with
    | select columns' source' condition' grouping' having' ordering' =>
      simp only [blank, select.injEq] at hb
      simp only [constants] at h
      obtain ⟨hc, hs, hw, hg, hh, ho⟩ := hb
      obtain ⟨h, ho'⟩ := constants_append_inj ho h
      obtain ⟨h, hh'⟩ := constants_append_inj hh h
      obtain ⟨h, hg'⟩ := constants_append_inj hg h
      obtain ⟨h, hw'⟩ := constants_append_inj hw h
      obtain ⟨h, hs'⟩ := constants_append_inj hs h
      rw [eq_of_blank_eq columns columns' hc h, eq_of_blank_eq source source' hs hs',
        eq_of_blank_eq condition condition' hw hw', eq_of_blank_eq grouping grouping' hg hg',
        eq_of_blank_eq having having' hh hh', eq_of_blank_eq ordering ordering' ho ho']
    | _ => simp [blank] at hb
  | keyFilter f, e', hb, h => by
    cases e' with
    | keyFilter f' =>
      simp only [blank, keyFilter.injEq] at hb
      have hk := key_eq_of_blank_eq (congrArg KeyFilter.key hb) (by simpa [constants] using h)
      obtain ⟨k, hn⟩ := f
      obtain ⟨k', hn'⟩ := f'
      obtain rfl : k = k' := hk
      rfl
    | _ => simp [blank] at hb

theorem eq_of_blankItems_eq : ∀ (es es' : List Expr), blankItems es = blankItems es' →
    itemConstants es = itemConstants es' → es = es'
  | [], es', hb, _ => by
    cases es' with
    | nil => rfl
    | cons => simp [blankItems] at hb
  | e :: es, es', hb, h => by
    cases es' with
    | nil => simp [blankItems] at hb
    | cons e' es' =>
      simp only [blankItems, List.cons.injEq] at hb
      simp only [itemConstants] at h
      obtain ⟨he, hes⟩ := List.append_inj h (length_constants_eq_of_blank_eq hb.1)
      rw [eq_of_blank_eq e e' hb.1 he, eq_of_blankItems_eq es es' hb.2 hes]
end

theorem forall₂_append_inj {r : Value → Value → Prop} {vs ws vs' ws' : List Value}
    (hl : vs.length = vs'.length) (h : List.Forall₂ r (vs ++ ws) (vs' ++ ws')) :
    List.Forall₂ r vs vs' ∧ List.Forall₂ r ws ws' := by
  have ht := List.forall₂_take_append _ vs' ws' h
  have hd := List.forall₂_drop_append _ vs' ws' h
  rw [List.take_left' hl] at ht
  rw [List.drop_left' hl] at hd
  exact ⟨ht, hd⟩

theorem forall₂_constants_append_inj {r : Value → Value → Prop} {e e' : Expr} {vs vs' : List Value}
    (hb : e.blank = e'.blank) (h : List.Forall₂ r (vs ++ e.constants) (vs' ++ e'.constants)) :
    List.Forall₂ r vs vs' ∧ List.Forall₂ r e.constants e'.constants := by
  have hc := length_constants_eq_of_blank_eq hb
  have hl := h.length_eq
  rw [List.length_append, List.length_append] at hl
  exact forall₂_append_inj (by omega) h

theorem key_equal_of_blank_eq {k k' : Key} (hb : k.blank = k'.blank)
    (h : List.Forall₂ (fun v v' => v.equal v' = true) k.values k'.values) : k.equal k' = true := by
  obtain ⟨ht, hc⟩ := table_columns_eq_of_blank_eq hb
  have hv : (k.values.zip k'.values).all (fun p => p.1.equal p.2) = true :=
    List.all_eq_true.mpr fun p hp => (List.forall₂_iff_zip.mp h).2 hp
  simp [Key.equal, ht, hc, hv, h.length_eq]

mutual
theorem equal_of_blank_eq : ∀ (e e' : Expr), e.blank = e'.blank →
    List.Forall₂ (fun v v' => v.equal v' = true) e.constants e'.constants → e.equal e' = true
  | empty, e', hb, _ => by cases e' <;> simp_all [blank, equal]
  | raw _, e', hb, _ => by cases e' <;> simp_all [blank, equal]
  | column .., e', hb, _ => by cases e' <;> simp_all [blank, equal]
  | constant v, e', hb, h => by cases e' <;> simp_all [blank, equal, constants]
  | computed inner label, e', hb, h => by
    cases e' with
    | computed inner' label' =>
      simp only [blank, computed.injEq] at hb
      have hi := equal_of_blank_eq inner inner' hb.1 (by simpa [constants] using h)
      simp [equal, hi, hb.2]
    | _ => simp [blank] at hb
  | binary left op right, e', hb, h => by
    cases e' with
    | binary left' op' right' =>
      simp only [blank, binary.injEq] at hb
      simp only [constants] at h
      obtain ⟨hl, rfl, hr⟩ := hb
      obtain ⟨h, hr'⟩ := forall₂_constants_append_inj hr h
      simp [equal, equal_of_blank_eq left left' hl h, equal_of_blank_eq right right' hr hr']
    | _ => simp [blank] at hb
  | join kind left right condition, e', hb, h => by
    cases e' with
    | join kind' left' right' condition' =>
      simp only [blank, join.injEq] at hb
      simp only [constants] at h
      obtain ⟨rfl, hl, hr, hc⟩ := hb
      obtain ⟨h, hc'⟩ := forall₂_constants_append_inj hc h
      obtain ⟨h, hr'⟩ := forall₂_constants_append_inj hr h
      simp [equal, equal_of_blank_eq left left' hl h, equal_of_blank_eq right right' hr hr',
        equal_of_blank_eq condition condition' hc hc']
    | _ => simp [blank] at hb
  | list items, e', hb, h => by
    cases e' with
    | list items' =>
      simp only [blank, list.injEq] at hb
      rw [equal]
      exact equalItems_of_blankItems_eq items items' hb (by simpa [constants] using h)
    | _ => simp [blank] at hb
  | select columns source condition grouping having ordering, e', hb, h => by
    cases e' with
    | select columns' source' condition' grouping' having' ordering' =>
      simp only [blank, select.injEq] at hb
      simp only [constants] at h
      obtain ⟨hc, hs, hw, hg, hh, ho⟩ := hb
      obtain ⟨h, ho'⟩ := forall₂_constants_append_inj ho h
      obtain ⟨h, hh'⟩ := forall₂_constants_append_inj hh h
      obtain ⟨h, hg'⟩ := forall₂_constants_append_inj hg h
      obtain ⟨h, hw'⟩ := forall₂_constants_append_inj hw h
      obtain ⟨h, hs'⟩ := forall₂_constants_append_inj hs h
      simp [equal, equal_of_blank_eq columns columns' hc h, equal_of_blank_eq source source' hs hs',
        equal_of_blank_eq condition condition' hw hw', equal_of_blank_eq grouping grouping' hg hg',
        equal_of_blank_eq having having' hh hh', equal_of_blank_eq ordering ordering' ho ho']
    | _ => simp [blank] at hb
  | keyFilter f, e', hb, h => by
    cases e' with
    | keyFilter f' =>
      simp only [blank, keyFilter.injEq] at hb
      rw [equal]
      exact key_equal_of_blank_eq (congrArg KeyFilter.key hb) (by simpa [constants] using h)
    | _ => simp [blank] at hb

theorem equalItems_of_blankItems_eq : ∀ (es es' : List Expr), blankItems es = blankItems es' →
    List.Forall₂ (fun v v' => v.equal v' = true) (itemConstants es) (itemConstants es') →
    equalItems es es' = true
  | [], es', hb, _ => by
    cases es' with
    | nil => rfl
    | cons => simp [blankItems] at hb
  | e :: es, es', hb, h => by
    cases es' with
    | nil => simp [blankItems] at hb
    | cons e' es' =>
      simp only [blankItems, List.cons.injEq] at hb
      simp only [itemConstants] at h
      obtain ⟨he, hes⟩ := forall₂_append_inj (length_constants_eq_of_blank_eq hb.1) h
      simp [equalItems, equal_of_blank_eq e e' hb.1 he, equalItems_of_blankItems_eq es es' hb.2 hes]
end

/-- Neither the values of an expression nor those in the sink show in a bound text; and the bound texts
of all dialects are one skeleton, filled with the placeholders that are emitted for the constants. -/
theorem bound_text_ignores_values :
    (∀ (e e' : Expr), e.blank = e'.blank → ∀ (d : Dialect) (sink sink' : List Value),
      sink.length = sink'.length →
        (e.render d (.bind sink)).sql = (e'.render d (.bind sink')).sql) ∧
    ∀ e : Expr, (e.boundSql .ansi).1 = (e.boundSql .mysql).1 ∧
      (e.skeleton .reference).holes = e.constants.length ∧
      (e.boundSql .ansi).1.toList =
        (e.skeleton .reference).fill (List.replicate e.constants.length ['?']) ∧
      (e.boundSql .postgres).1.toList = (e.skeleton .reference).fill
        ((List.range' 1 e.constants.length).map fun k => '$' :: Text.digits k) := by
  refine ⟨?_, fun e => ⟨?_, holes_skeleton e .reference, boundSql_of_ne (by decide) e,
    boundSql_postgres e⟩⟩
  · intro e e' hb d sink sink' hs
    have h := sql_render_bind d sink e .reference
    have h' := sql_render_bind d sink' e' .reference
    rw [skeleton_eq_of_blank_eq hb, length_constants_eq_of_blank_eq hb, hs, ← h'] at h
    exact String.toList_inj.mp h
  · apply String.toList_inj.mp
    rw [boundSql_of_ne (by decide), boundSql_of_ne (by decide)]

/-- An injected quote and a parenthesis do not change the text. -/
theorem bound_text_ignores_injection :
    (filter .eq "a" (.int 1)).blank = (filter .eq "a" (.string "') OR (")).blank ∧
      ((filter .eq "a" (.int 1)).render .postgres (.bind [.null])).sql =
        ((filter .eq "a" (.string "') OR (")).render .postgres (.bind [.boolean true])).sql := by
  have h : (filter .eq "a" (.int 1)).blank = (filter .eq "a" (.string "') OR (")).blank := by
    simp [filter, named, blank]
  exact ⟨h, bound_text_ignores_values.1 _ _ h .postgres [.null] [.boolean true] rfl⟩

end Expr

end SqlExpr
