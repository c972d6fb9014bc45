import ListingFilter.Filter.Reading
import ListingFilter.Proofs.Text.Trimming
import ListingFilter.Proofs.Text.Words

namespace ListingFilter

open Text

/-- The words that are more than words in a filter. The word for presence counts wherever a word
begins with it. -/
def reserved : List Text :=
  [Connective.and, .or].map Connective.keyword ++
    [RelationTest.hasAny, .isAny].map RelationTest.keyword ++
    Comparison.typable.map Comparison.keyword

structure IsPlainWord (w : Text) : Prop where
  ne_nil : w ≠ []
  plain : ∀ c ∈ w, isBlank c = false ∧ c ∉ ['(', ')', ',', '\'', '"']
  not_reserved : w ∉ reserved
  not_present : ¬ RelationTest.present.keyword <+: w

def isPlainWord (w : Text) : Bool :=
  !w.isEmpty && w.all (fun c ↦ !(isBlank c || ['(', ')', ',', '\'', '"'].contains c)) &&
    !(reserved.contains w || RelationTest.present.keyword.isPrefixOf w)

theorem isPlainWord_iff {w : Text} : isPlainWord w = true ↔ IsPlainWord w := by
  simp only [isPlainWord, Bool.and_eq_true, Bool.not_eq_true', ← Bool.not_eq_true,
    Bool.or_eq_true, not_or, List.all_eq_true, List.contains_iff_mem,
    List.isPrefixOf_iff_prefix, List.isEmpty_iff]
  exact ⟨fun ⟨⟨hn, hp⟩, hr, he⟩ ↦ ⟨hn, by simpa using hp, hr, he⟩,
    fun ⟨hn, hp, hr, he⟩ ↦ ⟨⟨hn, by simpa using hp⟩, hr, he⟩⟩

instance (w : Text) : Decidable (IsPlainWord w) := decidable_of_iff _ isPlainWord_iff

def IsPhrase (t : Text) : Prop := EachWord IsPlainWord t

instance (t : Text) : Decidable (IsPhrase t) :=
  inferInstanceAs (Decidable (∀ w ∈ words t, IsPlainWord w))

def Operand.IsPlain (op : Comparison) : Operand → Prop
  | scalar value => op ≠ .oneOf ∧ IsPhrase value
  | set values => op = .oneOf ∧ values ≠ [] ∧ ∀ value ∈ values, IsPhrase value

instance (op : Comparison) : (operand : Operand) → Decidable (operand.IsPlain op)
  | .scalar value => inferInstanceAs (Decidable (op ≠ .oneOf ∧ IsPhrase value))
  | .set values =>
    inferInstanceAs (Decidable (op = .oneOf ∧ values ≠ [] ∧ ∀ value ∈ values, IsPhrase value))

def Condition.IsPlain : Condition → Prop
  | onField name op operand => IsPhrase name ∧ ¬ attributeMark <+: name ∧ operand.IsPlain op
  | onAttribute name op operand => IsPhrase name ∧ operand.IsPlain op
  | onRelation name .present values => IsPhrase name ∧ values = []
  | onRelation name .hasAny values | onRelation name .isAny values =>
    IsPhrase name ∧ values ≠ [] ∧ ∀ value ∈ values, IsPhrase value

instance : (c : Condition) → Decidable c.IsPlain
  | .onField name op operand => inferInstanceAs
      (Decidable (IsPhrase name ∧ ¬ attributeMark <+: name ∧ operand.IsPlain op))
  | .onAttribute name op operand => inferInstanceAs (Decidable (IsPhrase name ∧ operand.IsPlain op))
  | .onRelation name .present values => inferInstanceAs (Decidable (IsPhrase name ∧ values = []))
  | .onRelation name .hasAny values | .onRelation name .isAny values => inferInstanceAs
      (Decidable (IsPhrase name ∧ values ≠ [] ∧ ∀ value ∈ values, IsPhrase value))

inductive Filter.IsPlain : Filter → Prop
  | leaf {c : Condition} (h : c.IsPlain) : IsPlain (leaf c)
  | join {op : Connective} {parts : List Filter} (two : 2 ≤ parts.length)
    (h : ∀ part ∈ parts, IsPlain part) : IsPlain (join op parts)

namespace Filter

mutual

def depth : Filter → Nat
  | leaf _ => 0
  | join _ parts => depths parts + 1

def depths : List Filter → Nat
  | [] => 0
  | part :: parts => max (depth part) (depths parts)

end

theorem depths_le_iff {parts : List Filter} {n : Nat} :
    depths parts ≤ n ↔ ∀ part ∈ parts, part.depth ≤ n := by
  induction parts with
  | nil => simp [depths]
  | cons part parts ih => rw [depths, Nat.max_le, ih, List.forall_mem_cons]

end Filter

namespace IsPlainWord

variable {w : Text}

theorem head? (h : IsPlainWord w) : ∃ c ∈ w.head?, isBlank c = false := by
  cases w with
  | nil => exact absurd rfl h.ne_nil
  | cons c w => exact ⟨c, rfl, (h.plain c List.mem_cons_self).1⟩

theorem getLast? (h : IsPlainWord w) : ∃ c ∈ w.getLast?, isBlank c = false :=
  ⟨w.getLast h.ne_nil, List.getLast?_eq_some_getLast h.ne_nil,
    (h.plain _ (List.getLast_mem h.ne_nil)).1⟩

end IsPlainWord

namespace IsPhrase

variable {t g : Text}

theorem not_mem (h : IsPhrase t) {c : Char} (hc : c ∈ ['(', ')', ',', '\'', '"']) : c ∉ t := by
  intro ht
  refine EachWord.forall_mem (Q := fun c ↦ c ∉ ['(', ')', ',', '\'', '"']) ?_ (by decide) h c ht hc
  exact fun w hw c hc ↦ (hw.plain c hc).2

theorem ne_nil (h : IsPhrase t) : t ≠ [] := by
  rintro rfl
  exact (h [] List.mem_cons_self).ne_nil rfl

theorem head? (h : IsPhrase t) : ∃ c ∈ t.head?, isBlank c = false :=
  EachWord.head? (fun _ hw ↦ hw.head?) h

theorem getLast? (h : IsPhrase t) : ∃ c ∈ t.getLast?, isBlank c = false :=
  EachWord.getLast? (fun _ hw ↦ hw.getLast?) h

theorem trim_append (hg : AllBlank g) (h : IsPhrase t) : trim (g ++ t) = t := by
  rw [trim_blank_append hg]
  refine trim_eq_self (fun c hc ↦ ?_) fun c hc ↦ ?_
  · obtain ⟨d, hd, hb⟩ := h.head?
    rw [Option.mem_unique hc hd, hb]
  · obtain ⟨d, hd, hb⟩ := h.getLast?
    rw [Option.mem_unique hc hd, hb]

theorem trim_eq (h : IsPhrase t) : trim t = t := h.trim_append allBlank_nil

theorem unquote?_eq_none (h : IsPhrase t) : unquote? t = none := by
  have hb : ∀ c ∈ ['\'', '"'], between? c c t = none := by
    intro c hc
    cases t with
    | nil => rfl
    | cons d t =>
      have hn : d ≠ c := by
        rintro rfl
        exact h.not_mem (List.mem_append_right ['(', ')', ','] hc) List.mem_cons_self
      simp [between?, hn]
  rw [unquote?, hb '\'' (by simp), hb '"' (by simp)]
  rfl

theorem clean_append (hg : AllBlank g) (h : IsPhrase t) : clean (g ++ t) = t := by
  have ht := h.trim_append hg
  rw [clean_of_unquote?_eq_none (by rw [ht]; exact h.unquote?_eq_none), ht]

theorem clean_eq (h : IsPhrase t) : clean t = t := h.clean_append allBlank_nil

end IsPhrase

end ListingFilter
