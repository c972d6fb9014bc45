import ListingFilter.Proofs.Json.Record
import ListingFilter.Proofs.Json.Writing
import ListingFilter.Proofs.Settings.Form
import ListingFilter.Settings.File
import Mathlib

namespace ListingFilter

open Json Table

namespace Json

theorem IsField.exists_isGiven (f : Field) {members : List (Text × Value)} {default a : f.β}
    {form : Value → f.β → Prop} (h : IsField members f.name default form a)
    (hd : f.default? = some default) (same : f.β → f.β → Prop) (refl : same default default)
    (reads : ∀ v a, form v a → ∃ b, f.decode v.outline = .ok b ∧ same b a) :
    ∃ b, f.IsGiven (under f.name members) b ∧ same b a := by
  cases h with
  | written under_eq value =>
    obtain ⟨b, hb, hs⟩ := reads _ _ value
    exact ⟨b, under_eq ▸ .written hb, hs⟩
  | leftOut under_eq => exact ⟨default, under_eq ▸ .leftOut hd, refl⟩

theorem IsField.isGiven {f : Field} {members : List (Text × Value)} {default a : f.β}
    {form : Value → f.β → Prop} (h : IsField members f.name default form a)
    (hd : f.default? = some default) (reads : ∀ v a, form v a → f.decode v.outline = .ok a) :
    f.IsGiven (under f.name members) a := by
  obtain ⟨b, hb, rfl⟩ := h.exists_isGiven f hd Eq rfl fun v a hv ↦ ⟨a, reads v a hv, rfl⟩
  exact hb

theorem text_outline (t : Text) : Decoder.text (Value.string t).outline = .ok t := by
  rw [Value.outline]
  rfl

theorem int64_outline (n : Int64) :
    Decoder.int64 (Value.number (.ofInt n.toInt)).outline = .ok n := by
  rw [Value.outline, Figure.value_ofInt]
  have low := n.minValue_le_toInt
  have high := n.toInt_le
  simp only [Except.map, Decoder.int64, low, high, and_self, if_true, Int64.ofInt_toInt]

theorem text_of_only {t : Text} (v : Value) (a : Text) (h : Only (.string t) t v a) :
    Decoder.text v.outline = .ok a := by
  obtain ⟨rfl, rfl⟩ := h
  exact text_outline a

end Json

namespace Attribute

theorem type_outline (t : AttributeType) :
    AttributeType.decode (Value.string t.name).outline = .ok t := by
  rw [Value.outline]
  cases t <;> rfl

theorem decode_outline {a : Attribute} {v : Value} (h : a.IsForm v) :
    record.decode v.outline = .ok a := by
  obtain ⟨id, name, type⟩ := h
  refine record.decode_object (a.id, a.name, a.type, ()) ⟨?_, ?_, ?_, trivial⟩
  · exact id ▸ .written (int64_outline _)
  · exact name ▸ .written (text_outline _)
  · exact type ▸ .written (type_outline _)

end Attribute

namespace Pivot

theorem decode_outline {p : Pivot} {v : Value} (h : p.IsForm v) :
    record.decode v.outline = .ok p := by
  obtain ⟨table, relatedKey⟩ := h
  refine record.decode_object (p.table, p.relatedKey, ()) ⟨?_, ?_, trivial⟩
  · exact table ▸ .written (text_outline _)
  · exact relatedKey ▸ .written (text_outline _)

end Pivot

namespace Mapping

theorem optional_outline {m : Mapping} (v : Value) (pivot? : Option Pivot)
    (h : m.IsPivotForm v pivot?) : Decoder.optional Pivot.record.decode v.outline = .ok pivot? := by
  obtain ⟨rfl, h⟩ := h
  cases hp : m.pivot? with
  | none =>
    rw [hp] at h
    rw [h, Value.outline]
    rfl
  | some p =>
    rw [hp] at h
    have read := Pivot.decode_outline h
    obtain ⟨_, _⟩ := h
    rw [Value.outline] at read ⊢
    rw [Outline.object, Decoder.optional, ← Outline.object, read]
    · rfl
    · rintro _ ⟨⟩

theorem decode_outline {m m' : Mapping} {v : Value} (h : m.IsForm v m') :
    record.decode v.outline = .ok m' := by
  obtain ⟨table, foreignKey, pivot, key, nameColumn⟩ := h
  refine record.decode_object (m.table, m.foreignKey, _, _, _, ())
    ⟨?_, ?_, ?_, ?_, ?_, trivial⟩
  · exact table ▸ .written (text_outline _)
  · exact foreignKey ▸ .written (text_outline _)
  · exact pivot.isGiven rfl optional_outline
  · exact key.isGiven rfl text_of_only
  · exact nameColumn.isGiven rfl text_of_only

end Mapping

namespace Schema

/-- The same schema, whatever the order of its relations. -/
structure IsSame (s s' : Schema) : Prop where
  primaryTable_eq : s.primaryTable = s'.primaryTable
  primaryKey_eq : s.primaryKey = s'.primaryKey
  remoteColumn_eq : s.remoteColumn = s'.remoteColumn
  relation?_eq (name : Text) : s.relation? name = s'.relation? name

theorem IsSame.refl (s : Schema) : s.IsSame s := ⟨rfl, rfl, rfl, fun _ ↦ rfl⟩

end Schema

namespace Settings

structure IsSame (s s' : Settings) : Prop where
  dialect_eq : s.dialect = s'.dialect
  schema : s.schema.IsSame s'.schema
  attributes_eq : s.attributes = s'.attributes

end Settings

end ListingFilter
