import Mathlib.Data.List.Forall2
import SqlExpr.Json.Pairs
import SqlExpr.Json.Printer
import SqlExpr.Proofs.Json.StringText

/-! # Texts that write a value

A text writes a value for a reader when the reader takes it up to its end and gives the value, whatever
may follow a value. Lists, objects of fields and tagged variants are written by the texts of what they
hold.
-/
namespace SqlExpr.Json
open Reader

variable {α β σ : Type}

/-- Behind a value stand a comma, a closing bracket or nothing. -/
def Ends (cs : List Char) : Prop := ∀ c ∈ cs.head?, c = ',' ∨ c = ']' ∨ c = '}'

theorem ends_nil : Ends [] := by simp [Ends]

theorem ends_comma (cs : List Char) : Ends (',' :: cs) := by simp [Ends]

theorem ends_closeList (cs : List Char) : Ends (']' :: cs) := by simp [Ends]

theorem ends_closeObject (cs : List Char) : Ends ('}' :: cs) := by simp [Ends]

/-- The text is one of a value, which starts at once, and the reader takes it for `a`. -/
structure Written (p : Reader α) (s : String) (a : α) : Prop where
  starts : ∃ c cs, s.toList = c :: cs ∧ isSpace c = false ∧ c ≠ ']'
  reads : ∀ rest, Ends rest → Reads p (s.toList ++ rest) a rest

theorem Written.map {p : Reader α} {s : String} {a : α} (f : α → β) (h : Written p s a) :
    Written (f <$> p) s (f a) :=
  ⟨h.starts, fun rest hr => (h.reads rest hr).map f⟩

theorem Written.run {p : Reader α} {s : String} {a : α} (h : Written p s a) : p.run s = .ok a :=
  Reads.run (by simpa using h.reads [] ends_nil)

theorem reads_accepted {p : Reader β} {accept : β → Except Cause α} {b : β} {a : α} {cs ds : List Char}
    (hp : Reads p cs b ds) (ha : accept b = .ok a) :
    Reads (located do
      match accept (← p) with
      | .ok a => return a
      | .error cause => refuse cause) cs a ds := by
  refine (hp.bind ?_).located
  rw [ha]
  exact Reads.pure a ds

/-! ## Strings -/

theorem reads_string {expected s : String} {accept : String → Except Cause α} {a : α}
    (h : accept s = .ok a) (cs : List Char) :
    Reads (Json.string expected accept) ((stringText s).toList ++ cs) a cs := by
  have hs := reads_accepted (reads_quotedString s cs) h
  rw [toList_stringText] at hs ⊢
  exact (Reads.firstOfValue rfl _).bind hs

theorem Written.string {expected s : String} {accept : String → Except Cause α} {a : α}
    (h : accept s = .ok a) : Written (Json.string expected accept) (stringText s) a :=
  ⟨⟨_, _, toList_stringText s, rfl, by decide⟩, fun rest _ => reads_string h rest⟩

theorem Written.understood {expected s : String} {read : String → Option α} {a : α} (h : read s = some a) :
    Written (Json.string expected fun s =>
      match read s with
      | some a => .ok a
      | none => .error (.wrongValue expected)) (stringText s) a :=
  string (by rw [h])

/-! ## Lists -/

def behindCommas (ss : List String) : List Char := ss.flatMap fun s => ',' :: s.toList

theorem toList_intercalate_cons (s : String) (ss : List String) :
    (",".intercalate (s :: ss)).toList = s.toList ++ behindCommas ss := by
  induction ss generalizing s with
  | nil => simp [behindCommas]
  | cons t ss ih =>
    rw [String.intercalate_cons_cons]
    simp [ih, behindCommas]

theorem length_le_behindCommas (ss : List String) : ss.length ≤ (behindCommas ss).length := by
  induction ss with
  | nil => simp
  | cons s ss ih =>
    simp only [behindCommas, List.flatMap_cons, List.length_append, List.length_cons] at ih ⊢
    omega

theorem ends_behindCommas (ss : List String) {cs : List Char} (h : Ends cs) :
    Ends (behindCommas ss ++ cs) := by
  cases ss with
  | nil => exact h
  | cons s ss => exact ends_comma _

theorem reads_nextItem_end (isFirst : Bool) (cs : List Char) :
    Reads (nextItem isFirst) (']' :: cs) false (']' :: cs) :=
  (Reads.token rfl cs).bind (Reads.pure false _)

variable {item : Reader α} {s : String} {a : α}

theorem reads_nextItem_first (h : Written item s a) (cs : List Char) :
    Reads (nextItem true) (s.toList ++ cs) true (s.toList ++ cs) := by
  obtain ⟨c, ds, hs, hc, hb⟩ := h.starts
  rw [hs]
  refine (Reads.token hc _).bind ?_
  simp only [hb, if_false]
  exact Reads.pure true _

theorem reads_nextItem_comma (h : Written item s a) (cs : List Char) :
    Reads (nextItem false) (',' :: (s.toList ++ cs)) true (s.toList ++ cs) := by
  obtain ⟨c, ds, hs, hc, hb⟩ := h.starts
  rw [hs]
  refine (Reads.token rfl _).bind ?_
  refine (Reads.advance_one _ _).bind ((Reads.token hc _).bind ?_)
  simp only [hb, if_false]
  exact Reads.pure true _

theorem reads_closeList (cs : List Char) : Reads closeList (']' :: cs) () cs :=
  (Reads.token rfl cs).bind (Reads.advance_one _ cs)

theorem reads_itemsUpTo {ss : List String} {as : List α} (h : List.Forall₂ (Written item) ss as)
    {fuel : Nat} (hf : ss.length ≤ fuel) (cs : List Char) :
    Reads (itemsUpTo item fuel false) (behindCommas ss ++ ']' :: cs) as (']' :: cs) := by
  induction h generalizing fuel with
  | nil =>
    cases fuel with
    | zero => exact Reads.pure [] _
    | succ fuel => exact (reads_nextItem_end false cs).bind (Reads.pure [] _)
  | @cons s a ss as hs _ ih =>
    obtain ⟨fuel, rfl⟩ : ∃ n, fuel = n + 1 := ⟨fuel - 1, by simp at hf; omega⟩
    have he := ends_behindCommas ss (ends_closeList cs)
    simp only [behindCommas, List.flatMap_cons, List.cons_append, List.append_assoc] at he ih ⊢
    refine (reads_nextItem_comma hs _).bind ((hs.reads _ he).bind ?_)
    exact (ih (by simpa using hf)).bind (Reads.pure _ _)

theorem reads_items {ss : List String} {as : List α} (h : List.Forall₂ (Written item) ss as)
    (cs : List Char) :
    Reads (items item) ((",".intercalate ss).toList ++ ']' :: cs) as (']' :: cs) := by
  refine (Reads.rest _).bind ?_
  cases h with
  | nil => exact (reads_nextItem_end true cs).bind (Reads.pure [] _)
  | @cons s a ss as hs h =>
    rw [toList_intercalate_cons, List.append_assoc]
    have he := ends_behindCommas ss (ends_closeList cs)
    refine (reads_nextItem_first hs _).bind ((hs.reads _ he).bind ?_)
    -- The fuel is the length of the text, in which each item has its comma.
    have hl := length_le_behindCommas ss
    exact (reads_itemsUpTo h (by simp; omega) cs).bind (Reads.pure _ _)

theorem toList_listText (ss : List String) :
    (listText ss).toList = '[' :: ((",".intercalate ss).toList ++ [']']) := by
  simp [listText]

theorem Written.list {expected : String} {content : Reader α} {ss : List String}
    (h : ∀ cs, Reads content ((",".intercalate ss).toList ++ ']' :: cs) a (']' :: cs)) :
    Written (Json.list expected content) (listText ss) a := by
  have ht := toList_listText ss
  refine ⟨⟨_, _, ht, rfl, by decide⟩, fun rest _ => ?_⟩
  rw [ht, List.cons_append, List.append_assoc]
  refine (Reads.firstOfValue rfl _).bind ?_
  exact (((Reads.advance_one _ _).bind (h rest)).closedBy (reads_closeList rest)).located

/-! ## Objects -/

def fieldText (f : String × String) : String := stringText f.1 ++ ":" ++ f.2

theorem reads_colon (cs : List Char) : Reads colon (':' :: cs) () cs :=
  (Reads.token rfl cs).bind (Reads.advance_one _ cs)

theorem reads_closeObject (cs : List Char) : Reads closeObject ('}' :: cs) () cs :=
  (Reads.token rfl cs).bind (Reads.advance_one _ cs)

theorem reads_nextField_end (isFirst : Bool) (cs : List Char) :
    Reads (nextField isFirst) ('}' :: cs) none ('}' :: cs) :=
  (Reads.token rfl cs).bind (Reads.pure none _)

theorem reads_name (name : String) (cs : List Char) :
    Reads (do return some (← quotedString)) ((stringText name).toList ++ cs) (some name) cs :=
  (reads_quotedString name cs).bind (Reads.pure (some name) cs)

theorem reads_nextField_first (name : String) (cs : List Char) :
    Reads (nextField true) ((stringText name).toList ++ cs) (some name) cs := by
  have hs := reads_name name cs
  rw [toList_stringText] at hs ⊢
  exact (Reads.token rfl _).bind hs

theorem reads_nextField_comma (name : String) (cs : List Char) :
    Reads (nextField false) (',' :: ((stringText name).toList ++ cs)) (some name) cs := by
  have hs := reads_name name cs
  rw [toList_stringText] at hs ⊢
  refine (Reads.token rfl _).bind ((Reads.advance_one _ _).bind ?_)
  exact (Reads.token rfl _).bind hs

/-- The fields take one state to another, one after the other. -/
inductive FieldsWritten (field : σ → String → Reader σ) : σ → List (String × String) → σ → Prop
  | nil (s : σ) : FieldsWritten field s [] s
  | cons {s s' s'' : σ} {name text : String} {fs : List (String × String)}
      (head : ∀ rest, Ends rest → Reads (field s name) (':' :: (text.toList ++ rest)) s' rest)
      (tail : FieldsWritten field s' fs s'') : FieldsWritten field s ((name, text) :: fs) s''

theorem reads_fieldsUpTo {field : σ → String → Reader σ} {fs : List (String × String)} {s s' : σ}
    (h : FieldsWritten field s fs s') {fuel : Nat} (hf : fs.length ≤ fuel) (cs : List Char) :
    Reads (fieldsUpTo field fuel false s) (behindCommas (fs.map fieldText) ++ '}' :: cs) s'
      ('}' :: cs) := by
  induction h generalizing fuel with
  | nil s =>
    cases fuel with
    | zero => exact Reads.pure s _
    | succ fuel => exact (reads_nextField_end false cs).bind (Reads.pure s _)
  | @cons s s' s'' name text fs head _ ih =>
    obtain ⟨fuel, rfl⟩ : ∃ n, fuel = n + 1 := ⟨fuel - 1, by simp at hf; omega⟩
    have ht : behindCommas (((name, text) :: fs).map fieldText) ++ '}' :: cs =
        ',' :: ((stringText name).toList ++ ':' :: (text.toList ++
          (behindCommas (fs.map fieldText) ++ '}' :: cs))) := by
      simp [behindCommas, fieldText]
    rw [ht]
    refine (reads_nextField_comma name _).bind ?_
    exact (head _ (ends_behindCommas _ (ends_closeObject cs))).bind (ih (by simpa using hf))

theorem reads_fields {field : σ → String → Reader σ} {fs : List (String × String)} {s s' : σ}
    (h : FieldsWritten field s fs s') (cs : List Char) :
    Reads (fields field s) ((",".intercalate (fs.map fieldText)).toList ++ '}' :: cs) s'
      ('}' :: cs) := by
  refine (Reads.rest _).bind ?_
  cases h with
  | nil => exact (reads_nextField_end true cs).bind (Reads.pure s _)
  | @cons s s' s'' name text fs head tail =>
    have ht : (",".intercalate (((name, text) :: fs).map fieldText)).toList ++ '}' :: cs =
        (stringText name).toList ++ ':' :: (text.toList ++
          (behindCommas (fs.map fieldText) ++ '}' :: cs)) := by
      rw [List.map_cons, toList_intercalate_cons]
      simp [fieldText]
    rw [ht]
    refine (reads_nextField_first name _).bind ((head _ (ends_behindCommas _ (ends_closeObject cs))).bind ?_)
    have hl := length_le_behindCommas (fs.map fieldText)
    exact reads_fieldsUpTo tail (by simp at hl ⊢; omega) cs

theorem toList_objectText (fs : List (String × String)) :
    (objectText fs).toList = '{' :: ((",".intercalate (fs.map fieldText)).toList ++ ['}']) := by
  have hf : (fun f : String × String => stringText f.1 ++ ":" ++ f.2) = fieldText := rfl
  simp [objectText, hf]

theorem Written.record {expected : String} {ofList ofObject : Reader α} {fs : List (String × String)}
    (h : ∀ cs, Reads ofObject ((",".intercalate (fs.map fieldText)).toList ++ '}' :: cs) a
      ('}' :: cs)) : Written (Json.record expected ofList ofObject) (objectText fs) a := by
  have ht := toList_objectText fs
  refine ⟨⟨_, _, ht, rfl, by decide⟩, fun rest _ => ?_⟩
  rw [ht, List.cons_append, List.append_assoc]
  refine (Reads.firstOfValue rfl _).bind ?_
  exact (((Reads.advance_one _ _).bind (h rest)).closedBy (reads_closeObject rest)).located

/-! ## Pairs -/

theorem reads_required_first {expected : String} (h : Written item s a) {cs : List Char} (hc : Ends cs) :
    Reads (required 0 expected item) (s.toList ++ cs) a cs :=
  (reads_nextItem_first h cs).bind (h.reads cs hc)

theorem reads_required_next {expected : String} (h : Written item s a) {cs : List Char} (hc : Ends cs)
    (index : Nat) : Reads (required (index + 1) expected item) (',' :: (s.toList ++ cs)) a cs :=
  (reads_nextItem_comma h cs).bind (h.reads cs hc)

theorem reads_onceField {name : String} (h : Written item s a) {cs : List Char} (hc : Ends cs) :
    Reads (onceField name none item) (':' :: (s.toList ++ cs)) a cs :=
  (reads_colon _).bind (h.reads cs hc)

section Pairs

variable {item' : Reader β} {t : String} {b : β} {expected : String}

theorem Written.pair (h : Written item s a) (h' : Written item' t b) :
    Written (Json.pair expected item item') (listText [s, t]) (a, b) := by
  refine Written.list fun cs => ?_
  have ht : (",".intercalate [s, t]).toList ++ ']' :: cs =
      s.toList ++ ',' :: (t.toList ++ ']' :: cs) := by
    simp
  rw [ht]
  refine (reads_required_first h (ends_comma _)).bind ?_
  exact (reads_required_next h' (ends_closeList cs) 0).bind (Reads.pure _ _)

theorem fieldsWritten_pair {m n : String} (hn : m ≠ n) (h : Written item s a) (h' : Written item' t b) :
    FieldsWritten (fieldOf (m, item) (n, item')) {} [(m, s), (n, t)] ⟨some a, some b⟩ := by
  have hfirst : ∀ cs, Ends cs → Reads (fieldOf (m, item) (n, item') {} m) (':' :: (s.toList ++ cs))
      ⟨some a, none⟩ cs := by
    intro cs hc
    rw [fieldOf, if_pos rfl]
    exact (reads_onceField h hc).bind (Reads.pure _ cs)
  have hsecond : ∀ cs, Ends cs → Reads (fieldOf (m, item) (n, item') ⟨some a, none⟩ n)
      (':' :: (t.toList ++ cs)) ⟨some a, some b⟩ cs := by
    intro cs hc
    rw [fieldOf, if_neg hn.symm, if_pos rfl]
    exact (reads_onceField h' hc).bind (Reads.pure _ cs)
  exact .cons hfirst (.cons hsecond (.nil _))

theorem Written.pairRecord {m n : String} (hn : m ≠ n) (h : Written item s a) (h' : Written item' t b) :
    Written (Json.pairRecord expected (m, item) (n, item')) (objectText [(m, s), (n, t)]) (a, b) := by
  refine Written.record fun cs => ?_
  exact (reads_fields (fieldsWritten_pair hn h h') cs).bind (Reads.pure _ _)

end Pairs

/-! ## Variants -/

variable {names : List String} {kind : String}

theorem reads_variantName (hk : kind ∈ names) (cs : List Char) :
    Reads (variantName names) ((stringText kind).toList ++ cs) kind cs :=
  reads_string (if_pos hk) cs

theorem Written.variant_alone {alone withContent : String → Reader α} (hk : kind ∈ names)
    (ha : alone kind = pure a) : Written (variant names alone withContent) (stringText kind) a := by
  refine ⟨⟨_, _, toList_stringText kind, rfl, by decide⟩, fun rest _ => ?_⟩
  have h : Reads (do alone (← variantName names)) ((stringText kind).toList ++ rest) a rest := by
    refine (reads_variantName hk rest).bind ?_
    rw [ha]
    exact Reads.pure a rest
  rw [toList_stringText] at h ⊢
  exact (Reads.token rfl _).bind h

theorem reads_variantKey (hk : kind ∈ names) (cs : List Char) :
    Reads (variantKey names) ((stringText kind).toList ++ ':' :: cs) kind cs := by
  have h : Reads (do
      let name ← variantName names
      colon
      return name) ((stringText kind).toList ++ ':' :: cs) kind cs :=
    (reads_variantName hk _).bind ((reads_colon cs).bind (Reads.pure kind cs))
  rw [toList_stringText] at h ⊢
  exact (Reads.token rfl _).bind h

theorem Written.variant {alone withContent : String → Reader α} {content : String} (hk : kind ∈ names)
    (hc : Written (withContent kind) content a) :
    Written (Json.variant names alone withContent) (objectText [(kind, content)]) a := by
  have ht := toList_objectText [(kind, content)]
  refine ⟨⟨_, _, ht, rfl, by decide⟩, fun rest _ => ?_⟩
  have hf : (",".intercalate ([(kind, content)].map fieldText)).toList ++ ['}'] ++ rest =
      (stringText kind).toList ++ ':' :: (content.toList ++ '}' :: rest) := by
    simp [fieldText]
  rw [ht, List.cons_append, hf]
  refine (Reads.token rfl _).bind ((Reads.advance_one _ _).bind ?_)
  refine (reads_variantKey hk _).bind ((hc.reads _ (ends_closeObject rest)).bind ?_)
  exact (Reads.token rfl rest).bind ((Reads.advance_one _ rest).bind (Reads.pure a rest))

end SqlExpr.Json
