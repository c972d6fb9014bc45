import ListingFilter.CommandLine
import ListingFilter.Proofs.Filter.SingleReading
import ListingFilter.Proofs.Text.Words

namespace ListingFilter

namespace CommandLine

/-- Arguments give options one by one, beyond options that were given before. -/
inductive Sets : Options → List Text → Options → Prop
  | nil (o : Options) : Sets o [] o
  | attached {o o₁ o' : Options} {arg value : Text} {name : OptionName} {rest : List Text}
    (ha : attached? arg = some (name, value)) (hs : o.set? name value = some o₁)
    (h : Sets o₁ rest o') : Sets o (arg :: rest) o'
  | detached {o o₁ o' : Options} {arg value : Text} {name : OptionName} {rest : List Text}
    (ha : attached? arg = none) (hd : detached? arg = some name) (hv : isValue value = true)
    (hs : o.set? name value = some o₁) (h : Sets o₁ rest o') : Sets o (arg :: value :: rest) o'
  | stop (o : Options) : Sets o [['-', '-']] o

variable {o o' o₀ o₁ : Options} {arg value line : Text} {name : OptionName}
  {args rest before after : List Text}

def Options.withFilter (o : Options) (filter : Text) : Options := { o with filter? := some filter }

theorem set?_withFilter (hs : o.set? name value = some o₁) (hf : o₁.filter? = none)
    (filter : Text) : o.filter? = none ∧
      (o.withFilter filter).set? name value = some (o₁.withFilter filter) := by
  cases name with
  | config =>
    simp only [Options.set?] at hs
    split at hs
    · cases hs
    · next h =>
      cases hs
      exact ⟨hf, by simp only [Options.set?, Options.withFilter, h, if_false]⟩
  | dialect =>
    simp only [Options.set?] at hs
    split at hs
    · cases hs
    · next h =>
      obtain ⟨d, hd, rfl⟩ := Option.map_eq_some_iff.1 hs
      exact ⟨hf, by simp [Options.set?, Options.withFilter, h, hd]⟩
  | filter =>
    simp only [Options.set?] at hs
    split at hs
    · cases hs
    · cases hs
      cases hf

theorem Sets.withFilter (h : Sets o args o') (hf : o'.filter? = none) (filter : Text) :
    o.filter? = none ∧ Sets (o.withFilter filter) args (o'.withFilter filter) := by
  induction h with
  | nil o => exact ⟨hf, .nil _⟩
  | attached ha hs _ ih =>
    obtain ⟨none, sets⟩ := ih hf
    obtain ⟨none, hs⟩ := set?_withFilter hs none filter
    exact ⟨none, .attached ha hs sets⟩
  | detached ha hd hv hs _ ih =>
    obtain ⟨none, sets⟩ := ih hf
    obtain ⟨none, hs⟩ := set?_withFilter hs none filter
    exact ⟨none, .detached ha hd hv hs sets⟩
  | stop o => exact ⟨hf, .stop _⟩

end CommandLine

end ListingFilter
