import SqlExpr.Json.KeyForm
import SqlExpr.Proofs.Json.Laws

/-! # Values and keys read back from their texts

In every lawful format a value that is no float, and a key that has no float among its values, is read back
from its text. It comes back as it was, but for the scale of a decimal, which may change while the number
stays, and for a leap second within a minute, which comes back as the second that its text shows.
-/
namespace SqlExpr
open Json

/-! ## Values -/

namespace Value

/-- The value is in no leap second within a minute. -/
def IsRegular : Value → Prop
  | timestamp t => t.IsRegular
  | _ => True

def shown : Value → Value
  | timestamp t => timestamp t.shown
  | v => v

/-- The same value, but that a decimal may have another scale. -/
def Same : Value → Value → Prop
  | .decimal a, .decimal b => a.toRat = b.toRat
  | v, w => v = w

variable {v w : Value}

/-- Floats apart, two values are equal exactly when they are the same. -/
theorem equal_iff_same (h : ∀ x, v ≠ float x) : v.equal w = true ↔ v.Same w := by
  cases v with
  | float x => exact absurd rfl (h x)
  | decimal d =>
    cases w with
    | decimal e => exact Decimal.equal_iff
    | _ => simp [equal, Same]
  | _ => cases w <;> simp [equal, Same]

theorem equal_iff_isRegular (h : ∀ x, v ≠ float x) (hw : v.shown.Same w) :
    v.equal w = true ↔ v.IsRegular := by
  cases v with
  | float x => exact absurd rfl (h x)
  | timestamp t =>
    obtain rfl : timestamp t.shown = w := hw
    rw [equal, beq_iff_eq, eq_comm]
    exact Timestamp.shown_eq_self_iff
  | _ => exact iff_of_true ((equal_iff_same h).mpr hw) trivial

variable {F : Format} {S : Scalars}

theorem exists_rereads (hF : F.Lawful) (hS : S.Lawful) (h : ∀ x, v ≠ float x) (room : Nat) :
    ∃ w, (form F S room).Rereads v w ∧ v.shown.Same w := by
  cases v with
  | null => exact ⟨null, hF.alone (by decide) rfl rfl, rfl⟩
  | int n => exact ⟨int n, hF.variant (by decide) rfl ((hF.integer n).map int), rfl⟩
  | float x => exact absurd rfl (h x)
  | decimal d =>
    obtain ⟨e, he, hr⟩ := hS.decimal d
    exact ⟨decimal e, hF.variant (by decide) rfl ((hF.decimal he).map decimal), hr⟩
  | string s => exact ⟨string s, hF.variant (by decide) rfl ((hF.string s).map string), rfl⟩
  | boolean b => exact ⟨boolean b, hF.variant (by decide) rfl ((hF.boolean b).map boolean), rfl⟩
  | date d => exact ⟨date d, hF.variant (by decide) rfl ((hF.textual (hS.date d)).map date), rfl⟩
  | timestamp t =>
    exact ⟨timestamp t.shown,
      hF.variant (by decide) rfl ((hF.textual (hS.timestamp t)).map timestamp), rfl⟩
  | bytes bs =>
    have hb : List.Forall₂ F.byte.Rereads bs bs := List.forall₂_same.mpr fun b _ => hF.byte b
    exact ⟨bytes bs, hF.variant (by decide) rfl ((hF.list hb).map bytes), rfl⟩

end Value

/-! ## Keys -/

namespace Key

def HasNoFloat (k : Key) : Prop := ∀ p ∈ k.parts, ∀ x, p.2 ≠ .float x

theorem equal_iff {k l : Key} : k.equal l = true ↔ k.table = l.table ∧ k.columns = l.columns ∧
    List.Forall₂ (fun v w => v.equal w = true) k.values l.values := by
  simp [equal, List.forall₂_iff_zip, and_assoc]

variable {F : Format} {S : Scalars} {k : Key}

theorem exists_rereads (hF : F.Lawful) (hS : S.Lawful) (h : k.HasNoFloat) :
    ∃ g, (form F S).Rereads k { k with parts := k.parts.map g } ∧
      ∀ p ∈ k.parts, (g p).1 = p.1 ∧ p.2.shown.Same (g p).2 := by
  have hpart : ∀ p ∈ k.parts, ∃ q, (partForm F S).Rereads p q ∧ q.1 = p.1 ∧ p.2.shown.Same q.2 := by
    intro p hp
    obtain ⟨w, hw, hs⟩ := Value.exists_rereads hF hS (h p hp) (greatestNesting - 3)
    exact ⟨(p.1, w), hF.pair (hF.string p.1) hw, rfl, hs⟩
  choose! g hg using hpart
  have hparts : List.Forall₂ (partForm F S).Rereads k.parts (k.parts.map g) := by
    rw [List.forall₂_map_right_iff, List.forall₂_same]
    exact fun p hp => (hg p hp).1
  have hnames : "table" ≠ "parts" := by decide
  refine ⟨g, ?_, fun p hp => (hg p hp).2⟩
  unfold form
  refine Form.Rereads.imap (a := (k.table, k.parts.map g)) ?_
  exact hF.record hnames (hF.string k.table) (hF.list hparts)

end Key

/-- Each value but a float, and each key without floats, is read back from its text in every lawful format,
one of which is compact JSON: a decimal as a number, a leap second within a minute as what its text shows and
all else as it was, in a key with the same table and the same columns in their order. So what comes back is
equal to what was written exactly where there is no leap second within a minute. -/
theorem json_round_trip :
    (compact.Lawful ∧ scalars.Lawful) ∧
    ∀ (F : Format) (S : Scalars), F.Lawful → S.Lawful →
      (∀ v : Value, (∀ x, v ≠ .float x) →
        ∃ w, (Value.form F S greatestNesting).ofText ((Value.form F S greatestNesting).text v) = .ok w ∧
          v.shown.Same w ∧ (v.equal w = true ↔ v.IsRegular)) ∧
      ∀ k : Key, k.HasNoFloat →
        ∃ l, (Key.form F S).ofText ((Key.form F S).text k) = .ok l ∧
          l.table = k.table ∧ l.columns = k.columns ∧
          List.Forall₂ Value.Same (k.values.map Value.shown) l.values ∧
          (k.equal l = true ↔ ∀ v ∈ k.values, v.IsRegular) := by
  refine ⟨⟨lawful_compact, lawful_scalars⟩, fun F S hF hS => ⟨fun v h => ?_, fun k h => ?_⟩⟩
  · obtain ⟨w, hw, hs⟩ := Value.exists_rereads hF hS h greatestNesting
    exact ⟨w, hw.ofText, hs, Value.equal_iff_isRegular h hs⟩
  · obtain ⟨g, hl, hg⟩ := Key.exists_rereads hF hS h
    have hcolumns : (k.parts.map g).map Prod.fst = k.parts.map Prod.fst := by
      rw [List.map_map]
      exact List.map_congr_left fun p hp => (hg p hp).1
    refine ⟨_, hl.ofText, rfl, hcolumns, ?_, ?_⟩
    · simpa [Key.values, List.forall₂_map_left_iff, List.forall₂_map_right_iff, List.forall₂_same] using
        fun p hp => (hg p hp).2
    · have hequal : ∀ p ∈ k.parts, (p.2.equal (g p).2 = true ↔ p.2.IsRegular) := fun p hp =>
        Value.equal_iff_isRegular (h p hp) (hg p hp).2
      rw [Key.equal_iff]
      simp only [Key.columns, Key.values, hcolumns, true_and, List.forall₂_map_left_iff,
        List.forall₂_map_right_iff, List.forall₂_same, List.forall_mem_map]
      exact forall₂_congr hequal

/-- A leap second of a year of five digits, and a key with values of all kinds but floats, whose strings
need escapes and whose decimals are written in all three notations. -/
theorem json_round_trip_of_every_kind :
    let t : Timestamp := ⟨⟨12345, 2, 28, by decide⟩, 23, 59, 59, 1000000007, by decide⟩
    let k : Key := ⟨"a\"\\\n", [("null", .null), ("int", .int Int64.minValue),
      ("decimal", .decimal ⟨-12, 20⟩), ("zeros", .decimal ⟨5, -3⟩), ("power", .decimal ⟨5, -16⟩),
      ("string", .string "\x01𝄞é"), ("boolean", .boolean false), ("date", .date t.date),
      ("timestamp", .timestamp t), ("bytes", .bytes [0, 255])]⟩
    (compact.Lawful ∧ scalars.Lawful) ∧
      ((∀ x, Value.timestamp t ≠ .float x) ∧ (Value.timestamp t).IsRegular ∧
        ∃ w, Value.ofJson (Value.timestamp t).jsonText = .ok w ∧ (Value.timestamp t).equal w = true) ∧
      (k.HasNoFloat ∧ ∀ v ∈ k.values, v.IsRegular) ∧
      k.jsonText =
        "\x7b\"table\":\"a\\\"\\\\\\n\",\"parts\":[[\"null\",\"Null\"]," ++
        "[\"int\",\x7b\"Int\":-9223372036854775808\x7d]," ++
        "[\"decimal\",\x7b\"Decimal\":\"-1.2E-19\"\x7d]," ++
        "[\"zeros\",\x7b\"Decimal\":\"5000\"\x7d],[\"power\",\x7b\"Decimal\":\"5e+16\"\x7d]," ++
        "[\"string\",\x7b\"String\":\"\\u0001𝄞é\"\x7d],[\"boolean\",\x7b\"Boolean\":false\x7d]," ++
        "[\"date\",\x7b\"Date\":\"+12345-02-28\"\x7d]," ++
        "[\"timestamp\",\x7b\"Timestamp\":\"+12345-02-28T23:59:60.000000007\"\x7d]," ++
        "[\"bytes\",\x7b\"Bytes\":[0,255]\x7d]]\x7d" ∧
      ∃ l, Key.ofJson k.jsonText = .ok l ∧ l.table = k.table ∧ l.columns = k.columns ∧
        k.equal l = true := by
  intro t k
  have ht : ∀ x, Value.timestamp t ≠ .float x := by simp
  have hr : (Value.timestamp t).IsRegular := fun _ => rfl
  have h : k.HasNoFloat := by simp [Key.HasNoFloat, k]
  have hk : ∀ v ∈ k.values, v.IsRegular := by
    simp [Key.values, k, Value.IsRegular, Timestamp.IsRegular, t]
  obtain ⟨hvalue, hkey⟩ := json_round_trip.2 compact scalars lawful_compact lawful_scalars
  obtain ⟨w, hw, _, he⟩ := hvalue _ ht
  obtain ⟨l, hl, htable, hcolumns, _, hequal⟩ := hkey k h
  exact ⟨⟨lawful_compact, lawful_scalars⟩, ⟨ht, hr, w, hw, he.mpr hr⟩, ⟨h, hk⟩, by decide +kernel,
    l, hl, htable, hcolumns, hequal.mpr hk⟩

/-- A leap second behind the second 30 has the text of a moment in the second 31, and comes back as that. -/
theorem leap_second_within_minute_not_read_back :
    let t : Timestamp := ⟨⟨2024, 1, 31, by decide⟩, 12, 0, 30, 1500000000, by decide⟩
    let u : Timestamp := ⟨⟨2024, 1, 31, by decide⟩, 12, 0, 31, 500000000, by decide⟩
    (∀ x, Value.timestamp t ≠ .float x) ∧
      (Value.timestamp t).jsonText = "\x7b\"Timestamp\":\"2024-01-31T12:00:31.500\"\x7d" ∧
      (Value.timestamp u).jsonText = (Value.timestamp t).jsonText ∧
      Value.ofJson (Value.timestamp t).jsonText = .ok (.timestamp u) ∧
      (Value.timestamp t).equal (.timestamp u) = false := by
  intro t u
  have ht : ∀ x, Value.timestamp t ≠ .float x := by simp
  have hu : t.shown = u := by decide
  obtain ⟨w, hw, hs⟩ := Value.exists_rereads lawful_compact lawful_scalars ht greatestNesting
  obtain rfl : Value.timestamp t.shown = w := hs
  exact ⟨ht, by decide +kernel, by decide +kernel, hu ▸ hw.ofText, by decide⟩

end SqlExpr
