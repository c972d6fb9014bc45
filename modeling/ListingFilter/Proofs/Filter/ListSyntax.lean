import ListingFilter.Proofs.Filter.Quoting

namespace ListingFilter

open Text Token

/-- The conditions that have a list of values. -/
inductive ListForm
  | onField
  | onAttribute
  | hasAny
  | isAny
  deriving DecidableEq

namespace ListForm

def keyword : ListForm → Text
  | onField | onAttribute => Comparison.equal.keyword
  | hasAny => RelationTest.hasAny.keyword
  | isAny => RelationTest.isAny.keyword

def mark : ListForm → Text
  | onAttribute => attributeMark
  | onField | hasAny | isAny => []

def text (form : ListForm) (name inner : Text) : Text :=
  form.mark ++ (name ++ (spaced form.keyword ++ grouped inner))

def condition (form : ListForm) (name : Text) (values : List Text) : Condition :=
  match form with
  | onField => .onField name .oneOf (.set values)
  | onAttribute => .onAttribute name .oneOf (.set values)
  | hasAny => .onRelation name .hasAny values
  | isAny => .onRelation name .isAny values

end ListForm

variable {c : Char} {t mark keyword inner name whole : Text} {P : Text → Prop} {test : RelationTest}

theorem listValues_eq (inner whole : Text) :
    listValues inner whole =
      if [] ∈ (inner.splitOn ',').map clean then .error (.malformed .emptyValue whole)
      else .ok ((inner.splitOn ',').map clean) := by
  have hany : ((pieces ',' inner).map clean).any (·.isEmpty) =
      decide ([] ∈ (inner.splitOn ',').map clean) := by
    rw [pieces_eq_splitOn, Bool.eq_iff_iff, List.any_eq_true, decide_eq_true_iff]
    simp
  rw [listValues, hany, pieces_eq_splitOn]
  simp

theorem not_mem_of_isBreak (hc : isBreak c = true) (hne : c ≠ ' ') (hk : IsSolid keyword) :
    c ∉ ' ' :: keyword := by
  intro hm
  have hm := (List.mem_cons.1 hm).resolve_left hne
  rw [(hk.solid c hm).1] at hc
  cases hc

theorem eachWord_typed_iff (hk : ' ' ∉ keyword) :
    EachWord P (name ++ (spaced keyword ++ grouped inner)) ↔
      EachWord P name ∧ P keyword ∧ EachWord P (grouped inner) := by
  have ht : spaced keyword ++ grouped inner = ' ' :: (keyword ++ ' ' :: grouped inner) := by
    simp [spaced]
  rw [ht, eachWord_append_iff, eachWord_append_iff, eachWord_iff_of_not_mem hk]

theorem eachWord_grouped_ne (hk : IsSolid keyword) (h : ¬ spaced keyword <:+: inner) :
    EachWord (· ≠ keyword) (grouped inner) :=
  eachWord_between_ne (not_mem_of_isBreak rfl (by decide) hk)
    (not_mem_of_isBreak rfl (by decide) hk) h

theorem eachWord_grouped_not_prefix (hk : IsSolid keyword) (h : ¬ (' ' :: keyword) <:+: inner) :
    EachWord (¬ keyword <+: ·) (grouped inner) :=
  eachWord_between_not_prefix (not_mem_of_isBreak rfl (by decide) hk)
    (not_mem_of_isBreak rfl (by decide) hk) hk.ne_nil h

namespace IsKeywordFree

theorem eachWord_isTestless (h : IsKeywordFree inner) :
    EachWord Condition.IsTestless (grouped inner) := by
  have hasAny := h.no_test .hasAny (by decide)
  have isAny := h.no_test .isAny (by decide)
  have present := h.no_test .present (by decide)
  intro w hw
  exact ⟨eachWord_grouped_ne (RelationTest.isSolid_keyword _) hasAny w hw,
    eachWord_grouped_ne (RelationTest.isSolid_keyword _) isAny w hw,
    eachWord_grouped_not_prefix (RelationTest.isSolid_keyword _) present w hw⟩

theorem eachWord_ne (h : IsKeywordFree inner) {op : Comparison} (hop : op ∈ Comparison.typable) :
    EachWord (· ≠ op.keyword) (grouped inner) :=
  eachWord_grouped_ne op.isSolid_keyword (h.no_comparison op hop)

end IsKeywordFree

theorem IsPhrase.eachWord_isTestless (h : IsPhrase name) : EachWord Condition.IsTestless name :=
  h.mono fun _ hw ↦ Condition.isTestless_of_isFree hw.isFree

theorem trim_typed (hn : IsPhrase name) (hmark : ∀ c ∈ mark.head?, isBlank c = false)
    (keyword inner : Text) :
    trim (mark ++ (name ++ (spaced keyword ++ grouped inner))) =
      mark ++ (name ++ (spaced keyword ++ grouped inner)) := by
  have hhead : ∃ c ∈ (mark ++ name).head?, isBlank c = false := by
    cases mark with
    | nil => exact hn.head?
    | cons c mark => exact ⟨c, rfl, hmark c rfl⟩
  have ht := trim_append_eq_self hhead (spaced keyword) (exists_getLast?_grouped inner)
  rwa [List.append_assoc] at ht

theorem split?_typed (hn : IsPhrase name) (hfree : IsKeywordFree inner) :
    Comparison.split? (name ++ (spaced Comparison.equal.keyword ++ grouped inner)) =
      some (name, .equal, grouped inner) := by
  refine Comparison.split?_eq_some (by decide) (fun op hop ↦ ?_) ?_
  · have htypable : op ∈ Comparison.typable := (List.takeWhile_sublist _).subset hop
    have hne : Comparison.equal.keyword ≠ op.keyword := by
      intro he
      have hop' : op ≠ .equal := by simpa using List.mem_takeWhile_imp hop
      exact hop' (Comparison.keyword_injective he).symm
    have hname : EachWord (· ≠ op.keyword) name :=
      hn.mono fun w hw ↦ hw.isFree.ne (Comparison.keyword_mem_reserved htypable)
    have hwords := (eachWord_typed_iff (by decide)).2 ⟨hname, hne, hfree.eachWord_ne htypable⟩
    exact splitOnce?_spaced_eq_none op.space_not_mem_keyword hwords.tail
  · have hs := splitOnce?_spaced (by decide) (Condition.tail_words_ne hn
      (Comparison.keyword_mem_reserved (by decide : Comparison.equal ∈ _))) (grouped inner)
    rw [← hs]
    simp [spaced]

namespace Condition

theorem readComparison_typed (hn : IsPhrase name) (hclose : ')' ∉ inner)
    (hfree : IsKeywordFree inner) (whole : Text) :
    readComparison (name ++ (spaced Comparison.equal.keyword ++ grouped inner)) whole =
      (listValues inner (grouped inner)).map fun values ↦ (name, .oneOf, .set values) := by
  have he : name.isEmpty = false := by simpa using hn.ne_nil
  rw [readComparison, split?_typed hn hfree]
  simp only [hn.trim_eq, he, Bool.false_eq_true, if_false, Operand.read_grouped hclose]
  cases listValues inner (grouped inner) <;> rfl

theorem readTrimmed_typed (hn : IsPhrase name) (hfree : IsKeywordFree inner) (hm : ' ' ∉ mark) :
    readTrimmed (mark ++ (name ++ (spaced Comparison.equal.keyword ++ grouped inner))) =
      readOwn (mark ++ (name ++ (spaced Comparison.equal.keyword ++ grouped inner))) := by
  have hwords := (eachWord_typed_iff (by decide)).2
    ⟨hn.eachWord_isTestless, isTestless_typed .equal, hfree.eachWord_isTestless⟩
  apply readTrimmed_eq_readOwn
  rw [tail_words_append hm]
  exact hwords.tail

theorem readTrimmed_test (hn : IsPhrase name) (ht : test ≠ .present)
    (before : ∀ test' ∈ test.earlier,
      splitOnce? test'.mark (name ++ (spaced test.keyword ++ grouped inner)) = none) :
    readTrimmed (name ++ (spaced test.keyword ++ grouped inner)) =
      (listValues inner (grouped inner)).map (onRelation name test) := by
  have hk : test.keyword ∈ reserved ∧ ' ' ∉ test.keyword ∧ test.mark = spaced test.keyword := by
    cases test with
    | hasAny | isAny => exact ⟨by decide, by decide, rfl⟩
    | present => exact absurd rfl ht
  have hs : splitOnce? test.mark (name ++ (spaced test.keyword ++ grouped inner)) =
      some (name, grouped inner) := by
    rw [hk.2.2, ← splitOnce?_spaced hk.2.1 (tail_words_ne hn hk.1) (grouped inner)]
    simp [spaced]
  have hne : trim name ≠ [] := by
    rw [hn.trim_eq]
    exact hn.ne_nil
  rw [readTrimmed_eq_readTest before hs, readTest_of_splitOnce? hs, if_neg ht,
    readRelation_grouped hne, hn.trim_eq]

end Condition

namespace ListForm

theorem read_text_eq (hn : IsPhrase name) (hmark : ¬ attributeMark <+: name) (hclose : ')' ∉ inner)
    (hfree : IsKeywordFree inner) (form : ListForm) :
    Condition.read (form.text name inner) =
      (listValues inner (grouped inner)).map (form.condition name) := by
  have hform : ∀ c ∈ form.mark, isBlank c = false := by
    cases form <;> exact isBlank_eq_false_of_all (by decide)
  have htrim : trim (form.text name inner) = form.text name inner :=
    trim_typed hn (fun c hc ↦ hform c (List.mem_of_mem_head? hc)) _ _
  rw [Condition.read, htrim]
  cases form with
  | onField =>
    have hnone : after? attributeMark (onField.text name inner) = none :=
      after?_append_eq_none (w := name) (by decide) hmark (afterWord_space _)
    have hread : Condition.readComparison (onField.text name inner) (onField.text name inner) = _ :=
      Condition.readComparison_typed hn hclose hfree _
    have hown : Condition.readTrimmed (onField.text name inner) =
        Condition.readOwn (onField.text name inner) :=
      Condition.readTrimmed_typed hn hfree (by decide : ' ' ∉ ([] : Text))
    rw [hown, Condition.readOwn, hnone]
    dsimp only
    rw [hread]
    cases listValues inner (grouped inner) <;> rfl
  | onAttribute =>
    have hsome : after? attributeMark (onAttribute.text name inner) =
        some (name ++ (spaced Comparison.equal.keyword ++ grouped inner)) :=
      after?_eq_some_iff.2 rfl
    have hread := Condition.readComparison_typed hn hclose hfree (onAttribute.text name inner)
    have hown : Condition.readTrimmed (onAttribute.text name inner) =
        Condition.readOwn (onAttribute.text name inner) :=
      Condition.readTrimmed_typed hn hfree (by decide)
    rw [hown, Condition.readOwn, hsome]
    dsimp only
    rw [hread]
    cases listValues inner (grouped inner) <;> rfl
  | hasAny =>
    exact Condition.readTrimmed_test hn (by decide : RelationTest.hasAny ≠ .present)
      (List.forall_mem_nil _)
  | isAny =>
    refine Condition.readTrimmed_test hn (by decide : RelationTest.isAny ≠ .present) ?_
    have hwords := (eachWord_typed_iff (by decide : ' ' ∉ RelationTest.isAny.keyword)).2
      ⟨hn.eachWord_isTestless.mono fun w hw ↦ hw.ne_hasAny, by decide,
        hfree.eachWord_isTestless.mono fun w hw ↦ hw.ne_hasAny⟩
    exact List.forall_mem_singleton.2 (splitOnce?_spaced_eq_none (by decide) hwords.tail)

/-- A list of values is read alike in every form: cut at its commas, each value without the blanks
around it and one pair of quotes. Where a value is empty, every form fails with one error, and it
names the list. -/
theorem read_valueList (hn : IsPhrase name) (hmark : ¬ attributeMark <+: name) (hclose : ')' ∉ inner)
    (hfree : IsKeywordFree inner) :
    let values := (inner.splitOn ',').map clean
    ([] ∉ values → ∀ form : ListForm,
      Condition.read (form.text name inner) = .ok (form.condition name values)) ∧
    ([] ∈ values → ∃ fault, fault.message = .ofString "Empty value in list" ∧
      ∀ form : ListForm, Condition.read (form.text name inner) =
        .error (.malformed fault (grouped inner))) := by
  intro values
  constructor
  · intro hfull form
    rw [read_text_eq hn hmark hclose hfree, listValues_eq, if_neg hfull]
    rfl
  · intro hempty
    refine ⟨.emptyValue, rfl, fun form ↦ ?_⟩
    rw [read_text_eq hn hmark hclose hfree, listValues_eq, if_pos hempty]
    rfl

theorem read_valueList_commas :
    let name : Text := .ofString "home city"
    let inner : Text := .ofString " AND, 'b \"c' ,d e"
    let emptied : Text := .ofString "AND, '' ,d e"
    hasAny.text name inner = .ofString "home city HAS_ANY ( AND, 'b \"c' ,d e)" ∧
      (∀ form : ListForm, Condition.read (form.text name inner) =
        .ok (form.condition name [.ofString "AND", .ofString "b \"c", .ofString "d e"])) ∧
      ∃ fault, fault.message = .ofString "Empty value in list" ∧
        ∀ form : ListForm, Condition.read (form.text name emptied) =
          .error (.malformed fault (.ofString "(AND, '' ,d e)")) := by
  intro name inner emptied
  have hn : IsPhrase name := by decide
  have hmark : ¬ attributeMark <+: name := by decide
  have full := (read_valueList hn hmark (by decide : ')' ∉ inner) (by decide)).1
  have partly := (read_valueList hn hmark (by decide : ')' ∉ emptied) (by decide)).2
  exact ⟨by decide, full (by decide), partly (by decide)⟩

end ListForm

end ListingFilter
