import SqlExpr.Json.Shape

/-! # Readers in front of a text

What a reader does depends on the characters to come only, as far as it succeeds. So a run of it is
stated with the text in front of which it starts, its result, and the text in front of which it stops,
for each cursor at once. Runs are put together as the readers are.
-/
namespace SqlExpr.Json
open Reader

variable {α β σ : Type}

/-- From each cursor in front of `cs` the reader gives `a` and stops in front of `ds`. -/
def Reads (p : Reader α) (cs : List Char) (a : α) (ds : List Char) : Prop :=
  ∀ c : Cursor, c.after = cs → ∃ c' : Cursor, p c = .ok a c' ∧ c'.after = ds

namespace Reads

variable {p : Reader α} {cs ds es : List Char} {a : α} {b : β}

theorem pure (a : α) (cs : List Char) : Reads (Pure.pure a) cs a cs := fun c h => ⟨c, rfl, h⟩

theorem bind {f : α → Reader β} (hp : Reads p cs a ds) (hf : Reads (f a) ds b es) :
    Reads (p >>= f) cs b es := by
  intro c hc
  obtain ⟨c', hp, hd⟩ := hp c hc
  obtain ⟨c'', hf, he⟩ := hf c' hd
  have h : (p >>= f) c = EStateM.bind p f c := rfl
  exact ⟨c'', by rw [h, EStateM.bind, hp]; exact hf, he⟩

theorem map (f : α → β) (hp : Reads p cs a ds) : Reads (f <$> p) cs (f a) ds := by
  intro c hc
  obtain ⟨c', hp, hd⟩ := hp c hc
  have h : (f <$> p) c = EStateM.map f p c := rfl
  exact ⟨c', by rw [h, EStateM.map, hp], hd⟩

theorem peek (cs : List Char) : Reads Reader.peek cs cs.head? cs :=
  fun c h => ⟨c, by rw [Reader.peek, h], h⟩

theorem rest (cs : List Char) : Reads Reader.rest cs cs cs :=
  fun c h => ⟨c, by rw [Reader.rest, h], h⟩

theorem advance (ds cs : List Char) : Reads (Reader.advance ds.length) (ds ++ cs) () cs :=
  fun c h => ⟨c.skip ds.length, rfl, by simp [h]⟩

theorem advance_one (d : Char) (cs : List Char) : Reads (Reader.advance 1) (d :: cs) () cs :=
  advance [d] cs

theorem token {d : Char} (hd : isSpace d = false) (cs : List Char) :
    Reads Reader.token (d :: cs) (some d) (d :: cs) := by
  refine (rest _).bind ?_
  have h : (d :: cs).takeWhile isSpace = [] := by simp [hd]
  rw [h]
  exact (advance [] (d :: cs)).bind (peek (d :: cs))

theorem firstOfValue {d : Char} (hd : isSpace d = false) (cs : List Char) :
    Reads Json.firstOfValue (d :: cs) d (d :: cs) :=
  (token hd cs).bind (pure d (d :: cs))

theorem word (ws cs : List Char) : Reads (Reader.word ws) (ws ++ cs) () cs := by
  induction ws with
  | nil => exact pure () cs
  | cons w ws ih =>
    refine (peek _).bind ?_
    simp only [List.cons_append, List.head?_cons, if_true]
    exact (advance_one w _).bind ih

theorem located (hp : Reads p cs a ds) : Reads (Reader.located p) cs a ds := by
  intro c hc
  obtain ⟨c', hp, hd⟩ := hp c hc
  exact ⟨c', by rw [Reader.located, hp], hd⟩

theorem closedBy {close : Reader Unit} (hp : Reads p cs a ds) (hclose : Reads close ds () es) :
    Reads (Reader.closedBy p close) cs a es := by
  intro c hc
  obtain ⟨c', hp, hd⟩ := hp c hc
  obtain ⟨c'', hclose, he⟩ := hclose c' hd
  exact ⟨c'', by rw [Reader.closedBy, hp]; simp only [EStateM.map, hclose], he⟩

theorem run {s : String} (hp : Reads p s.toList a []) : p.run s = .ok a := by
  have hf : Reads (do let a ← p; finish; return a) s.toList a [] := by
    refine hp.bind (bind (a := ()) ?_ (pure a []))
    exact bind ((rest []).bind ((advance [] []).bind (peek []))) (pure () [])
  obtain ⟨c, hc, -⟩ := hf (.ofText s) rfl
  rw [Reader.run, hc]

end Reads

end SqlExpr.Json
