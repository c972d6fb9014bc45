import ListingFilter.Proofs.Filter.Keyword
import ListingFilter.Proofs.Filter.Plain

namespace ListingFilter

open Text

variable {t s w body keyword name value : Text} {op : Comparison} {operand : Operand}
  {values : List Text}

theorem after?_word_eq_none (hk : ' ' ∉ keyword) (h : ∀ w ∈ (words t).tail, w ≠ keyword) :
    ∀ w ∈ (words t).tail, ∀ u, AfterWord u → after? (keyword ++ [' ']) (w ++ u) = none := by
  intro w hw u hu
  have hs := not_mem_of_mem_words (List.mem_of_mem_tail hw)
  exact after?_append_space_eq_none hk hs (h w hw) hu

theorem splitOnce?_spaced_eq_none (hk : ' ' ∉ keyword) (h : ∀ w ∈ (words t).tail, w ≠ keyword) :
    splitOnce? (spaced keyword) t = none :=
  splitOnce?_eq_none_of_words (after?_word_eq_none hk h)

theorem splitOnce?_spaced (hk : ' ' ∉ keyword) (h : ∀ w ∈ (words t).tail, w ≠ keyword)
    (value : Text) :
    splitOnce? (spaced keyword) (t ++ ' ' :: (keyword ++ ' ' :: value)) = some (t, value) := by
  have hs := splitOnce?_of_words (after?_word_eq_none hk h) value
  rwa [List.append_assoc] at hs

structure IsFree (w : Text) : Prop where
  not_reserved : w ∉ reserved
  not_present : ¬ RelationTest.present.keyword <+: w

theorem IsPlainWord.isFree (h : IsPlainWord w) : IsFree w := ⟨h.not_reserved, h.not_present⟩

namespace IsFree

theorem ne (h : IsFree w) (hk : keyword ∈ reserved) : w ≠ keyword := by
  rintro rfl
  exact h.not_reserved hk

theorem append {c : Char} (hc : c ∈ ['(', ')', ',']) (h : IsFree w) : IsFree (w ++ [c]) := by
  have hn : (∀ r ∈ reserved, c ∉ r) ∧ c ∉ RelationTest.present.keyword := by
    simp only [List.mem_cons, List.not_mem_nil, or_false] at hc
    rcases hc with rfl | rfl | rfl <;> decide
  refine ⟨fun hr ↦ hn.1 _ hr (by simp), fun hp ↦ ?_⟩
  rcases List.prefix_concat_iff.1 hp with he | hp
  · exact hn.2 (by rw [he]; simp)
  · exact h.not_present hp

theorem opening_cons (w : Text) : IsFree (['('] ++ w) where
  not_reserved hr := by
    have hn : ∀ r ∈ reserved, '(' ∉ r := by decide
    exact hn _ hr (by simp)
  not_present hp := by
    have he := (List.cons_prefix_cons.1 hp).1
    exact absurd he (by decide)

end IsFree

theorem eachWord_isFree_listText (hne : values ≠ []) (h : ∀ value ∈ values, IsPhrase value) :
    EachWord IsFree (listText values) := by
  have inside : EachWord IsFree (joined [',', ' '] values) :=
    eachWord_joined (fun w hw ↦ hw.append (by decide)) hne
      fun value hv ↦ (h value hv).mono fun w hw ↦ hw.isFree
  have closed := inside.append_right [')'] (by decide) fun w hw ↦ hw.append (by decide)
  exact closed.append_left ['('] (by decide) fun w _ ↦ IsFree.opening_cons w

theorem Operand.IsPlain.eachWord_isFree (h : operand.IsPlain op) :
    EachWord IsFree operand.text := by
  cases operand with
  | scalar value => exact h.2.mono fun w hw ↦ hw.isFree
  | set values => exact eachWord_isFree_listText h.2.1 h.2.2

namespace Comparison

def typedOp : Comparison → Comparison
  | oneOf => equal
  | op => op

theorem typed_eq (op : Comparison) : op.typed = op.typedOp.keyword := by
  cases op <;> rfl

theorem typedOp_mem_typable (op : Comparison) : op.typedOp ∈ typable := by
  cases op <;> decide

theorem space_not_mem_keyword (op : Comparison) : ' ' ∉ op.keyword := by
  cases op <;> decide

theorem keyword_injective {op op' : Comparison} (h : op.keyword = op'.keyword) : op = op' := by
  cases op <;> cases op' <;> first | rfl | (revert h; decide)

theorem keyword_mem_reserved (h : op ∈ typable) : op.keyword ∈ reserved :=
  List.mem_append_right _ (List.mem_map_of_mem h)

end Comparison

theorem eachWord_comparisonText_iff {P : Text → Prop} :
    EachWord P (comparisonText name op operand) ↔
      EachWord P name ∧ P op.typed ∧ EachWord P operand.text := by
  have hs : ' ' ∉ op.typed := op.typed_eq ▸ Comparison.space_not_mem_keyword _
  rw [comparisonText, eachWord_append_iff, eachWord_append_iff, eachWord_iff_of_not_mem hs]

theorem findSome?_eq_some {α β : Type} {f : α → Option β} {a : α} {b : β} {as : List α}
    (ha : a ∈ as) (hf : f a = some b) (hne : ∀ a' ∈ as, a' ≠ a → f a' = none) :
    as.findSome? f = some b := by
  induction as with
  | nil => cases ha
  | cons a' as ih =>
    by_cases he : a' = a
    · rw [List.findSome?_cons, he, hf]
    · have ha := (List.mem_cons.1 ha).resolve_left (Ne.symm he)
      rw [List.findSome?_cons, hne a' List.mem_cons_self he,
        ih ha fun a'' h ↦ hne a'' (List.mem_cons_of_mem a' h)]

theorem Comparison.split?_comparisonText (hn : IsPhrase name) (ho : operand.IsPlain op) :
    split? (comparisonText name op operand) = some (name, op.typedOp, operand.text) := by
  refine findSome?_eq_some op.typedOp_mem_typable ?_ fun op' ho' hne ↦ ?_
  · have hname : EachWord (· ≠ op.typedOp.keyword) name :=
      hn.mono fun w hw ↦ hw.isFree.ne (keyword_mem_reserved op.typedOp_mem_typable)
    rw [comparisonText, op.typed_eq, splitOnce?_spaced (space_not_mem_keyword _) hname.tail]
    rfl
  · have hk := keyword_mem_reserved ho'
    have htext : EachWord (· ≠ op'.keyword) (comparisonText name op operand) := by
      refine eachWord_comparisonText_iff.2 ⟨?_, ?_, ?_⟩
      · exact hn.mono fun w hw ↦ hw.isFree.ne hk
      · exact fun he ↦ hne (keyword_injective (he.symm.trans op.typed_eq))
      · exact ho.eachWord_isFree.mono fun w hw ↦ hw.ne hk
    rw [splitOnce?_spaced_eq_none (space_not_mem_keyword _) htext.tail]
    rfl

theorem map_clean_pieces_joined {g : Text} (hg : AllBlank g) (hne : values ≠ [])
    (h : ∀ value ∈ values, IsPhrase value) :
    (pieces ',' (g ++ joined [',', ' '] values)).map clean = values := by
  induction values generalizing g with
  | nil => exact absurd rfl hne
  | cons value values ih =>
    obtain ⟨first, others⟩ := List.forall_mem_cons.1 h
    have hc : ',' ∉ g ++ value := by
      rw [List.mem_append, not_or]
      exact ⟨fun hm ↦ absurd (hg _ hm) (by decide), first.not_mem (by decide)⟩
    cases values with
    | nil =>
      have hj : joined [',', ' '] [value] = value := by simp [joined]
      rw [hj, pieces_of_not_mem hc, List.map_singleton, first.clean_append hg]
    | cons value' values =>
      have hj : g ++ joined [',', ' '] (value :: value' :: values) =
          (g ++ value) ++ ',' :: ([' '] ++ joined [',', ' '] (value' :: values)) := by
        simp [joined, List.intercalate_cons_cons]
      rw [hj, pieces_append_cons_of_not_mem hc, List.map_cons, first.clean_append hg,
        ih allBlank_space (by simp) others]

theorem listValues_joined (hne : values ≠ []) (h : ∀ value ∈ values, IsPhrase value)
    (whole : Text) : listValues (joined [',', ' '] values) whole = .ok values := by
  have hv := map_clean_pieces_joined allBlank_nil hne h
  rw [List.nil_append] at hv
  have he : values.any (·.isEmpty) = false := by
    simpa [List.any_eq_false] using fun value hv ↦ (h value hv).ne_nil
  rw [listValues, hv]
  simp [he]

theorem not_mem_joined (hne : values ≠ []) (h : ∀ value ∈ values, IsPhrase value) {c : Char}
    (hc : c ∈ ['(', ')']) : c ∉ joined [',', ' '] values := by
  have inside : EachWord (∀ d ∈ ·, d ∉ ['(', ')']) (joined [',', ' '] values) := by
    refine eachWord_joined (fun w hw d hd ↦ ?_) hne fun value hv ↦ (h value hv).mono ?_
    · rcases List.mem_append.1 hd with hd | hd
      · exact hw d hd
      · rw [List.mem_singleton.1 hd]
        decide
    · intro w hw d hd hp
      exact (hw.plain d hd).2 (List.mem_append_left [',', '\'', '"'] hp)
  exact fun hm ↦ inside.forall_mem (fun w hw ↦ hw) (by decide) c hm hc

theorem exists_getLast?_listText (values : List Text) :
    ∃ c ∈ (listText values).getLast?, isBlank c = false :=
  exists_getLast?_grouped (joined [',', ' '] values)

theorem between?_grouped (s : Text) : between? '(' ')' (grouped s) = some s := by
  simp [grouped, between?]

theorem firstGroup?_grouped (hs : ')' ∉ s) : Operand.firstGroup? (grouped s) = some s := by
  have hopen : splitOnce? ['('] (grouped s) = some ([], s ++ [')']) :=
    splitOnce?_cons_of_after?_eq_some rfl
  have hclose : splitOnce? [')'] (s ++ [')']) = some (s, []) := splitOnce?_singleton_append hs []
  simp [Operand.firstGroup?, hopen, hclose]

theorem isList_grouped (s : Text) : Operand.isList (grouped s) = true := by
  simp [Operand.isList, grouped, unquote?, between?]

theorem Operand.read_grouped (hs : ')' ∉ s) :
    Operand.read .equal (grouped s) =
      ((listValues s (grouped s)).map set).map fun operand ↦ (.oneOf, operand) := by
  rw [read, trim_grouped, isList_grouped, if_pos ⟨rfl, rfl⟩, readList, firstGroup?_grouped hs]

theorem Condition.readRelation_grouped (hne : trim name ≠ []) (test : RelationTest)
    (s whole : Text) :
    readRelation test name (grouped s) whole =
      (listValues s (grouped s)).map (onRelation name.trim test) := by
  have he : (trim name).isEmpty = false := by simpa using hne
  rw [readRelation, he, trim_grouped, between?_grouped]
  rfl

theorem Operand.read_text (ho : operand.IsPlain op) :
    Operand.read op.typedOp operand.text = .ok (op, operand) := by
  cases operand with
  | scalar value =>
    obtain ⟨hop, hv⟩ := ho
    have htyped : op.typedOp = op := by
      cases op <;> first | rfl | exact absurd rfl hop
    have hl : isList value = false := by
      simp [isList, hv.not_mem (c := '(') (by decide)]
    rw [Operand.text, htyped, Operand.read, hv.trim_eq, hl, hv.clean_eq]
    simp
  | set values =>
    obtain ⟨rfl, hne, hv⟩ := ho
    have hread := Operand.read_grouped (not_mem_joined hne hv (c := ')') (by decide))
    rw [listValues_joined hne hv] at hread
    exact hread

namespace Condition

theorem readComparison_comparisonText (hn : IsPhrase name) (ho : operand.IsPlain op)
    (whole : Text) :
    readComparison (comparisonText name op operand) whole = .ok (name, op, operand) := by
  have hne : name.isEmpty = false := by simpa using hn.ne_nil
  rw [readComparison, Comparison.split?_comparisonText hn ho]
  simp only [hn.trim_eq, hne, Bool.false_eq_true, if_false, Operand.read_text ho]
  rfl

theorem readRelation_listText (hn : IsPhrase name) (hne : values ≠ [])
    (hv : ∀ value ∈ values, IsPhrase value) (test : RelationTest) (whole : Text) :
    readRelation test name (listText values) whole = .ok (onRelation name test values) := by
  have hread := readRelation_grouped (hn.trim_eq ▸ hn.ne_nil) test (joined [',', ' '] values) whole
  rw [listValues_joined hne hv, hn.trim_eq] at hread
  exact hread

structure IsTestless (w : Text) : Prop where
  ne_hasAny : w ≠ RelationTest.hasAny.keyword
  ne_isAny : w ≠ RelationTest.isAny.keyword
  not_present : ¬ RelationTest.present.keyword <+: w

theorem isTestless_of_isFree (h : IsFree w) : IsTestless w :=
  ⟨h.ne (by decide), h.ne (by decide), h.not_present⟩

theorem isTestless_typed (op : Comparison) : IsTestless op.typed := by
  cases op <;> exact ⟨by decide, by decide, by decide⟩

theorem splitOnce?_present_eq_none
    (h : ∀ w ∈ (words t).tail, ¬ RelationTest.present.keyword <+: w) :
    splitOnce? (' ' :: RelationTest.present.keyword) t = none :=
  splitOnce?_eq_none_of_words fun w hw _ hu ↦ after?_append_eq_none (by decide) (h w hw) hu

theorem readTrimmed_eq_readOwn (h : ∀ w ∈ (words t).tail, IsTestless w) :
    readTrimmed t = readOwn t := by
  refine readTrimmed_eq_readOwn_of_splitOnce? fun test ↦ ?_
  cases test with
  | hasAny => exact splitOnce?_spaced_eq_none (by decide) fun w hw ↦ (h w hw).ne_hasAny
  | isAny => exact splitOnce?_spaced_eq_none (by decide) fun w hw ↦ (h w hw).ne_isAny
  | present => exact splitOnce?_present_eq_none fun w hw ↦ (h w hw).not_present

theorem readTrimmed_comparisonText (hn : IsPhrase name) (ho : operand.IsPlain op)
    (mark : Text) (hm : ' ' ∉ mark) :
    readTrimmed (mark ++ comparisonText name op operand) =
      readOwn (mark ++ comparisonText name op operand) := by
  have htext : EachWord IsTestless (comparisonText name op operand) := by
    refine eachWord_comparisonText_iff.2 ⟨?_, isTestless_typed op, ?_⟩
    · exact hn.mono fun w hw ↦ isTestless_of_isFree hw.isFree
    · exact ho.eachWord_isFree.mono fun w hw ↦ isTestless_of_isFree hw
  apply readTrimmed_eq_readOwn
  rw [tail_words_append hm]
  exact htext.tail

theorem readOwn_onField (hn : IsPhrase name) (hmark : ¬ attributeMark <+: name)
    (ho : operand.IsPlain op) :
    readOwn (comparisonText name op operand) = .ok (onField name op operand) := by
  have hnone : after? attributeMark (comparisonText name op operand) = none :=
    after?_append_eq_none (by decide) hmark (afterWord_space _)
  rw [readOwn, hnone]
  simp only [readComparison_comparisonText hn ho]
  rfl

theorem readOwn_onAttribute (hn : IsPhrase name) (ho : operand.IsPlain op) :
    readOwn (attributeMark ++ comparisonText name op operand) =
      .ok (onAttribute name op operand) := by
  have hsome : after? attributeMark (attributeMark ++ comparisonText name op operand) =
      some (comparisonText name op operand) := after?_eq_some_iff.2 rfl
  rw [readOwn, hsome]
  simp only [readComparison_comparisonText hn ho]
  rfl

theorem tail_words_ne (hn : IsPhrase name) (hk : keyword ∈ reserved) :
    ∀ w ∈ (words name).tail, w ≠ keyword :=
  (hn.mono fun _ hw ↦ hw.isFree.ne hk).tail

theorem readTrimmed_hasAny (hn : IsPhrase name) (hne : values ≠ [])
    (hv : ∀ value ∈ values, IsPhrase value) :
    readTrimmed (onRelation name .hasAny values).text = .ok (onRelation name .hasAny values) := by
  have hs : splitOnce? RelationTest.hasAny.mark (onRelation name .hasAny values).text =
      some (name, listText values) :=
    splitOnce?_spaced (by decide) (tail_words_ne hn (by decide)) _
  rw [readTrimmed_eq_readTest (List.forall_mem_nil _) hs, readTest_of_splitOnce? hs]
  exact readRelation_listText hn hne hv .hasAny _

theorem readTrimmed_isAny (hn : IsPhrase name) (hne : values ≠ [])
    (hv : ∀ value ∈ values, IsPhrase value) :
    readTrimmed (onRelation name .isAny values).text = .ok (onRelation name .isAny values) := by
  have htext : EachWord (· ≠ RelationTest.hasAny.keyword) (onRelation name .isAny values).text := by
    refine eachWord_append_iff.2 ⟨?_, eachWord_append_iff.2 ⟨?_, ?_⟩⟩
    · exact hn.mono fun w hw ↦ hw.isFree.ne (by decide)
    · exact (eachWord_iff_of_not_mem (by decide)).2 (by decide)
    · exact (eachWord_isFree_listText hne hv).mono fun w hw ↦ hw.ne (by decide)
  have hs : splitOnce? RelationTest.isAny.mark (onRelation name .isAny values).text =
      some (name, listText values) :=
    splitOnce?_spaced (by decide) (tail_words_ne hn (by decide)) _
  have before : ∀ test ∈ RelationTest.isAny.earlier,
      splitOnce? test.mark (onRelation name .isAny values).text = none :=
    List.forall_mem_singleton.2 (splitOnce?_spaced_eq_none (by decide) htext.tail)
  rw [readTrimmed_eq_readTest before hs, readTest_of_splitOnce? hs]
  exact readRelation_listText hn hne hv .isAny _

theorem readTrimmed_present (hn : IsPhrase name) :
    readTrimmed (onRelation name .present []).text = .ok (onRelation name .present []) := by
  have htext : ∀ keyword ∈ reserved,
      EachWord (· ≠ keyword) (onRelation name .present []).text := by
    intro keyword hk
    refine eachWord_append_iff.2 ⟨hn.mono fun w hw ↦ hw.isFree.ne hk, ?_⟩
    refine (eachWord_iff_of_not_mem (by decide)).2 ?_
    rintro rfl
    exact absurd hk (by decide)
  have hs : splitOnce? RelationTest.present.mark (onRelation name .present []).text =
      some (name, []) := by
    have hs := splitOnce?_of_words (t := name) (fun w hw u hu ↦ after?_append_eq_none (by decide)
      (hn.tail w hw).not_present hu) []
    rwa [List.append_nil] at hs
  have before : ∀ test ∈ RelationTest.present.earlier,
      splitOnce? test.mark (onRelation name .present []).text = none := by
    refine List.forall_mem_cons.2 ⟨?_, List.forall_mem_singleton.2 ?_⟩
    · exact splitOnce?_spaced_eq_none (by decide) (htext _ (by decide)).tail
    · exact splitOnce?_spaced_eq_none (by decide) (htext _ (by decide)).tail
  rw [readTrimmed_eq_readTest before hs, readTest_of_splitOnce? hs]
  simp only [readPresent, hn.trim_eq]
  rfl

theorem getLast?_operand (ho : operand.IsPlain op) :
    ∃ c ∈ operand.text.getLast?, isBlank c = false := by
  cases operand with
  | scalar value => exact ho.2.getLast?
  | set values => exact exists_getLast?_listText values

theorem trim_relation (hn : IsPhrase name) (keyword : Text) (values : List Text) :
    trim (name ++ ' ' :: (keyword ++ ' ' :: listText values)) =
      name ++ ' ' :: (keyword ++ ' ' :: listText values) := by
  have h := trim_append_eq_self hn.head? (' ' :: (keyword ++ [' ']))
    (exists_getLast?_listText values)
  simpa using h

theorem trim_text {c : Condition} (h : c.IsPlain) : trim c.text = c.text := by
  have hc : ∀ name op operand, comparisonText name op operand =
      name ++ ((' ' :: (op.typed ++ [' '])) ++ operand.text) := by
    simp [comparisonText]
  cases c with
  | onField name op operand =>
    rw [text, hc]
    exact trim_append_eq_self h.1.head? _ (getLast?_operand h.2.2)
  | onAttribute name op operand =>
    rw [text, hc, ← List.append_assoc name]
    exact trim_append_eq_self ⟨'a', rfl, by decide⟩ _ (getLast?_operand h.2)
  | onRelation name test values =>
    cases test with
    | present => exact trim_append_eq_self h.1.head? [' '] ⟨'S', rfl, by decide⟩
    | hasAny => exact trim_relation h.1 RelationTest.hasAny.keyword values
    | isAny => exact trim_relation h.1 RelationTest.isAny.keyword values

theorem read_text {c : Condition} (h : c.IsPlain) : Condition.read c.text = .ok c := by
  rw [Condition.read, trim_text h]
  cases c with
  | onField name op operand =>
    obtain ⟨hn, hmark, ho⟩ := h
    exact (readTrimmed_comparisonText hn ho [] (by decide)).trans
      (readOwn_onField hn hmark ho)
  | onAttribute name op operand =>
    obtain ⟨hn, ho⟩ := h
    exact (readTrimmed_comparisonText hn ho _ (by decide)).trans (readOwn_onAttribute hn ho)
  | onRelation name test values =>
    cases test with
    | present =>
      obtain ⟨hn, rfl⟩ := h
      exact readTrimmed_present hn
    | hasAny => exact readTrimmed_hasAny h.1 h.2.1 h.2.2
    | isAny => exact readTrimmed_isAny h.1 h.2.1 h.2.2

end Condition

end ListingFilter
