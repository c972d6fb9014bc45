import ListingFilter.Text.Basic
import Mathlib.Data.List.TakeWhile

namespace ListingFilter.Text

def AllBlank (t : Text) : Prop := ∀ c ∈ t, isBlank c = true

instance (t : Text) : Decidable (AllBlank t) :=
  decidable_of_iff (t.all isBlank = true) List.all_eq_true

variable {t u g g' : Text}

theorem isBlank_eq_false_of_all (h : t.all (!isBlank ·) = true) : ∀ c ∈ t, isBlank c = false := by
  simpa using h

theorem allBlank_nil : AllBlank [] := by
  intro c hc
  cases hc

theorem allBlank_space : AllBlank [' '] := by
  intro c hc
  rw [List.mem_singleton.1 hc]
  decide

theorem dropWhile_isBlank_append (hg : AllBlank g) (t : Text) :
    (g ++ t).dropWhile isBlank = t.dropWhile isBlank :=
  List.dropWhile_append_of_pos hg

theorem takeWhile_isBlank_append (hg : AllBlank g) (t : Text) :
    (g ++ t).takeWhile isBlank = g ++ t.takeWhile isBlank :=
  List.takeWhile_append_of_pos hg

theorem allBlank_takeWhile (t : Text) : AllBlank (t.takeWhile isBlank) :=
  fun _ hc ↦ List.mem_takeWhile_imp hc

theorem AllBlank.append (hg : AllBlank g) (hg' : AllBlank g') : AllBlank (g ++ g') := by
  intro c hc
  rcases List.mem_append.1 hc with hc | hc
  · exact hg c hc
  · exact hg' c hc

theorem dropWhile_isBlank_eq_nil_iff : t.dropWhile isBlank = [] ↔ AllBlank t :=
  List.dropWhile_eq_nil_iff

/-- What trimming takes away stands at the ends and is blank. -/
theorem exists_eq_append_trim (t : Text) :
    ∃ g g', AllBlank g ∧ AllBlank g' ∧ t = g ++ (trim t ++ g') := by
  have hs : t = t.takeWhile isBlank ++ trimStart t := (List.takeWhile_append_dropWhile).symm
  have he : trimStart t = trim t ++ ((trimStart t).reverse.takeWhile isBlank).reverse := by
    rw [trim, trimEnd, ← List.reverse_append, List.takeWhile_append_dropWhile,
      List.reverse_reverse]
  refine ⟨_, _, allBlank_takeWhile t, ?_, hs.trans (congrArg _ he)⟩
  intro c hc
  exact allBlank_takeWhile _ c (List.mem_reverse.1 hc)

theorem trim_blank_append (hg : AllBlank g) (t : Text) : trim (g ++ t) = trim t := by
  rw [trim, trimStart, dropWhile_isBlank_append hg, ← trimStart, ← trim]

theorem trim_append_blank (hg : AllBlank g) (t : Text) : trim (t ++ g) = trim t := by
  have hr : AllBlank g.reverse := fun c hc ↦ hg c (List.mem_reverse.1 hc)
  rw [trim, trim, trimStart, trimStart, List.dropWhile_append]
  split
  · next h => rw [List.isEmpty_iff.1 h, dropWhile_isBlank_eq_nil_iff.2 hg]
  · rw [trimEnd, trimEnd, List.reverse_append, dropWhile_isBlank_append hr]

theorem trim_eq_self (hs : ∀ c ∈ t.head?, isBlank c = false)
    (he : ∀ c ∈ t.getLast?, isBlank c = false) : trim t = t := by
  have hd : ∀ u : Text, (∀ c ∈ u.head?, isBlank c = false) → u.dropWhile isBlank = u := by
    intro u hu
    cases u with
    | nil => rfl
    | cons c u => simp [hu c rfl]
  have hr : ∀ c ∈ t.reverse.head?, isBlank c = false := by simpa [List.head?_reverse] using he
  rw [trim, trimStart, hd t hs, trimEnd, hd _ hr, List.reverse_reverse]

theorem trim_append_eq_self (hs : ∃ c ∈ t.head?, isBlank c = false) (inside : Text)
    (he : ∃ c ∈ u.getLast?, isBlank c = false) :
    trim (t ++ (inside ++ u)) = t ++ (inside ++ u) := by
  obtain ⟨c, hc, hs⟩ := hs
  obtain ⟨d, hd, he⟩ := he
  refine trim_eq_self (fun b hb ↦ ?_) fun b hb ↦ ?_
  · rw [List.head?_append, hc] at hb
    cases hb
    exact hs
  · rw [List.getLast?_append, List.getLast?_append, hd] at hb
    cases hb
    exact he

theorem mem_of_mem_trim {c : Char} (h : c ∈ trim t) : c ∈ t := by
  obtain ⟨g, g', -, -, ht⟩ := exists_eq_append_trim t
  rw [ht]
  exact List.mem_append_right g (List.mem_append_left g' h)

theorem trim_eq_nil_iff : trim t = [] ↔ AllBlank t := by
  constructor
  · intro h
    obtain ⟨g, g', hg, hg', ht⟩ := exists_eq_append_trim t
    rw [ht, h]
    exact hg.append hg'
  · intro h
    have ht := trim_blank_append h []
    rwa [List.append_nil] at ht

theorem isBlank_of_mem_head?_trim {c : Char} (h : c ∈ (trim t).head?) : isBlank c = false := by
  obtain ⟨rest, hr⟩ := List.head?_eq_some_iff.1 h
  obtain ⟨after, ha⟩ : trim t <+: trimStart t := by
    rw [trim, trimEnd, ← List.reverse_suffix, List.reverse_reverse]
    exact List.dropWhile_suffix isBlank
  have hc := List.head?_dropWhile_not isBlank t
  rw [← trimStart, ← ha, hr] at hc
  exact hc

theorem isBlank_of_mem_getLast?_trim {c : Char} (h : c ∈ (trim t).getLast?) : isBlank c = false := by
  have hc := List.head?_dropWhile_not isBlank (trimStart t).reverse
  rw [trim, trimEnd, List.getLast?_reverse] at h
  rw [Option.mem_def.1 h] at hc
  exact hc

theorem trim_ne_nil_of_append_space (h : trim t = u ++ ' ' :: g) : trim u ≠ [] := by
  intro hu
  have blank : ∀ c ∈ (trim t).head?, isBlank c = true := by
    rw [h]
    cases u with
    | nil =>
      intro c hc
      cases hc
      decide
    | cons d u =>
      intro c hc
      cases hc
      exact trim_eq_nil_iff.1 hu d List.mem_cons_self
  cases hc : (trim t).head? with
  | none => simp [h] at hc
  | some c =>
    have solid := isBlank_of_mem_head?_trim hc
    rw [blank c hc] at solid
    cases solid

theorem infix_trim (t : Text) : trim t <:+: t := by
  obtain ⟨g, g', -, -, ht⟩ := exists_eq_append_trim t
  exact ⟨g, g', by rw [List.append_assoc, ← ht]⟩

def grouped (t : Text) : Text := '(' :: (t ++ [')'])

theorem exists_getLast?_grouped (t : Text) : ∃ c ∈ (grouped t).getLast?, isBlank c = false :=
  ⟨')', by simp [grouped, List.getLast?_cons], by decide⟩

theorem trim_grouped (t : Text) : trim (grouped t) = grouped t :=
  trim_append_eq_self (t := ['(']) ⟨'(', rfl, by decide⟩ t ⟨')', rfl, by decide⟩

theorem trim_trim (t : Text) : trim (trim t) = trim t :=
  trim_eq_self (fun _ ↦ isBlank_of_mem_head?_trim) fun _ ↦ isBlank_of_mem_getLast?_trim

end ListingFilter.Text
