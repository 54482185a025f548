import SqlExpr.Event
import SqlExpr.Proofs.BoundText

/-! # Placeholders and bound values

Where the caller writes no question mark and no dollar sign, a reader of a bound text finds exactly the
placeholders of the values that were added to the sink: no hole of a skeleton is followed by a digit
that would go on its number.
-/
namespace SqlExpr
open Fragment

/-- The placeholders in a text from left to right. One with a dollar sign goes on to the end of the
digits behind it. -/
def Text.placeholdersIn : List Char → List (List Char)
  | [] => []
  | c :: cs =>
    if c = '?' then ['?'] :: placeholdersIn cs
    else if c = '$' then ('$' :: cs.takeWhile Char.isDigit) :: placeholdersIn cs
    else placeholdersIn cs

namespace Skeleton
open Text

/-- There are no placeholders beside the holes, and no hole is followed by a digit. -/
def Spaced : Skeleton → Prop
  | [] => True
  | some c :: k => (c ≠ '?' ∧ c ≠ '$') ∧ Spaced k
  | none :: k => (k = [] ∨ StartsPlain k) ∧ Spaced k

theorem spaced_ofText_append {s : String} {k : Skeleton} (hs : ∀ c ∈ s.toList, c ≠ '?' ∧ c ≠ '$')
    (hk : Spaced k) : Spaced (ofText s ++ k) := by
  unfold ofText
  revert hs
  induction s.toList with
  | nil => exact fun _ => hk
  | cons c cs ih =>
    intro hs
    exact ⟨hs c List.mem_cons_self, ih fun d hd => hs d (List.mem_cons_of_mem _ hd)⟩

theorem Spaced.append {k k' : Skeleton} (hk : Spaced k) (hk' : Spaced k') (h : StartsPlain k') :
    Spaced (k ++ k') := by
  induction k with
  | nil => exact hk'
  | cons c k ih =>
    cases c with
    | some c => exact ⟨hk.1, ih hk.2⟩
    | none =>
      refine ⟨.inr ?_, ih hk.2⟩
      rcases hk.1 with rfl | ⟨c, k, rfl, hc⟩
      · exact h
      · exact ⟨c, k ++ k', rfl, hc⟩

theorem composes_spaced : Composes (fun s => ∀ c ∈ s.toList, c ≠ '?' ∧ c ≠ '$') Spaced where
  keyword h c hc := by
    have hk := List.all_eq_true.mp h c hc
    constructor <;> rintro rfl <;> simp [isKeywordChar] at hk
  append hs ht c hc := by
    rw [String.toList_append] at hc
    exact (List.mem_append.mp hc).elim (hs c) (ht c)
  text hs := by simpa using spaced_ofText_append hs (k := []) trivial
  hole := ⟨.inl rfl, trivial⟩
  parenthesized hk := by
    have hc : Spaced (ofText ")") := by simp [ofText, Spaced]
    have ho := spaced_ofText_append (s := "(") (by simp) hk
    exact ho.append hc ⟨')', [], rfl, by decide⟩
  before hs hk := spaced_ofText_append hs hk
  after hk hk' h := hk.append hk' h

theorem placeholdersIn_digits_append {ds cs : List Char} (h : ∀ d ∈ ds, d.isDigit = true) :
    placeholdersIn (ds ++ cs) = placeholdersIn cs := by
  induction ds with
  | nil => rfl
  | cons d ds ih =>
    have hd := h d List.mem_cons_self
    have hq : d ≠ '?' := by rintro rfl; exact absurd hd (by decide)
    have hs : d ≠ '$' := by rintro rfl; exact absurd hd (by decide)
    rw [List.cons_append, placeholdersIn, if_neg hq, if_neg hs,
      ih fun c hc => h c (List.mem_cons_of_mem _ hc)]

theorem placeholdersIn_mark_append {t cs : List Char} (ht : IsMark t)
    (hc : ∀ c, cs.head? = some c → c.isDigit = false) :
    placeholdersIn (t ++ cs) = t :: placeholdersIn cs := by
  rcases ht with rfl | ⟨ds, rfl, hd⟩
  · rfl
  · have hw : cs.takeWhile Char.isDigit = [] := by
      cases cs with
      | nil => rfl
      | cons c cs => simp [hc c rfl]
    rw [List.cons_append, placeholdersIn, if_neg (by decide), if_pos rfl,
      List.takeWhile_append_of_pos hd, hw, List.append_nil, placeholdersIn_digits_append hd]

theorem head?_fill_of_spaced {k : Skeleton} (hk : Spaced (none :: k)) (ts : List (List Char)) (c : Char)
    (hc : (fill ts k).head? = some c) : c.isDigit = false := by
  rcases hk.1 with rfl | ⟨x, k', rfl, hx⟩
  · simp [fill] at hc
  · simp only [fill, List.head?_cons, Option.some.injEq] at hc
    rwa [← hc]

theorem placeholdersIn_fill {k : Skeleton} (hk : Spaced k) {ts : List (List Char)}
    (ht : ∀ t ∈ ts, IsMark t) (hl : ts.length = k.holes) : placeholdersIn (fill ts k) = ts := by
  induction k generalizing ts with
  | nil =>
    obtain rfl := List.length_eq_zero_iff.mp hl
    rfl
  | cons c k ih =>
    cases c with
    | some c =>
      obtain ⟨⟨hq, hs⟩, hk⟩ := hk
      rw [fill, placeholdersIn, if_neg hq, if_neg hs, ih hk ht (by simpa [holes] using hl)]
    | none =>
      cases ts with
      | nil => simp [holes] at hl
      | cons t ts =>
        have hi := ih hk.2 (fun u hu => ht u (List.mem_cons_of_mem _ hu)) (by simpa [holes] using hl)
        rw [fill, placeholdersIn_mark_append (ht t List.mem_cons_self) (head?_fill_of_spaced hk ts), hi]

end Skeleton

namespace Expr

theorem fragment_of_empty {r : Renderer} {sink : List Value} (hm : r.mode = .bind sink) (e : Expr)
    (p : Position) (h : (r.fragment (renderTo e p)).1 = "") : (r.fragment (renderTo e p)).2 = r := by
  obtain ⟨d, m, sql, bound⟩ := r
  obtain rfl : m = .bind sink := hm
  have hr := renderTo_eq_extend e p (r := ⟨d, .bind sink, "", bound⟩) (n := sink.length) rfl
  have hf := fits_bound d sink e p sink.length
  simp only [Renderer.fragment, hr, Renderer.extend, String.empty_append] at h ⊢
  rw [h] at hf
  have hk := (Fits.eq_empty_iff (spelling_ne_empty d sink) hf).mp rfl
  simp [constants_of_skeleton hk, Mode.extend, Mode.boundCount]

/-- Rendering binds the constants of the expression, in order and no others, and the placeholders that
a reader finds in the text are numbered on from the values that were in the sink. -/
theorem render_bind_lines_up (d : Dialect) (sink : List Value) (e : Expr) :
    let r := e.render d (.bind sink)
    let count := e.constants.length
    r.mode = .bind (sink ++ e.constants) ∧ r.bound = count ∧
      r.event = .rendered d r.sql.utf8ByteSize count ∧
      (∀ (q : Renderer) (used : List Value) (f : Expr) (p : Position), q.mode = .bind used →
        (q.fragment (renderTo f p)).1 = "" → (q.fragment (renderTo f p)).2 = q) ∧
      ((∀ s ∈ e.callerTexts, ∀ c ∈ s.toList, c ≠ '?' ∧ c ≠ '$') →
        Text.placeholdersIn r.sql.toList =
          match d with
          | .postgres => (List.range' (sink.length + 1) count).map fun k => '$' :: Text.digits k
          | _ => List.replicate count ['?']) := by
  intro r count
  have hr : r = _ := render_bind d sink e .reference
  refine ⟨by rw [hr], by rw [hr], by rw [hr]; rfl, ?_, ?_⟩
  · intro q used f p hm h
    exact fragment_of_empty hm f p h
  · intro hq
    have hk := skeleton_of_composes Skeleton.composes_spaced e .reference hq
    have hl : (d.placeholders sink.length count).length = (e.skeleton .reference).holes := by
      simp [Dialect.placeholders, count, holes_skeleton]
    have hp := Skeleton.placeholdersIn_fill hk (fun _ => d.isMark_of_mem_placeholders) hl
    have hs : r.sql.toList = _ := sql_render_bind d sink e .reference
    rw [hs, hp]
    cases d with
    | postgres => exact Dialect.placeholders_postgres _ _
    | ansi => exact Dialect.placeholders_of_ne (by decide) _ _
    | mysql => exact Dialect.placeholders_of_ne (by decide) _ _

/-- A sink of one value numbers two further ones from two on, and a list of nothing leaves it alone. -/
theorem render_bind_lines_up_in_used_sink :
    let e := (filter .eq "a" (.int 1)).and (filter .lt "b" (.string "$1"))
    let r := Renderer.start .postgres (.bind [.null])
    (∀ s ∈ e.callerTexts, ∀ c ∈ s.toList, c ≠ '?' ∧ c ≠ '$') ∧
      Text.placeholdersIn (e.render .postgres (.bind [.null])).sql.toList =
        [['$', '2'], ['$', '3']] ∧
      (r.fragment (renderTo (list [computed empty none]) .reference)).2 = r := by
  intro e r
  have ha : e.callerTexts.all (·.toList.all fun c => c != '?' && c != '$') = true := by decide
  have h : ∀ s ∈ e.callerTexts, ∀ c ∈ s.toList, c ≠ '?' ∧ c ≠ '$' := by simpa using ha
  have hl := render_bind_lines_up .postgres [.null] e
  exact ⟨h, hl.2.2.2.2 h, hl.2.2.2.1 r [.null] _ .reference rfl (by decide +kernel)⟩

end Expr

end SqlExpr
