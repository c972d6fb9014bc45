import ListingFilter.Proofs.Error
import ListingFilter.Proofs.Filter.Composition
import ListingFilter.Proofs.Filter.PlainCondition

namespace ListingFilter

open Text Token

variable {g t w name keyword : Text} {op : Comparison} {operand : Operand} {values : List Text}

theorem Token.kindOf_eq_word {c : Char} (hw : c ∈ w)
    (hc : c ∉ ['(', ')', 'A', 'N', 'D', 'O', 'R']) : kindOf w = .word := by
  have hne : ∀ v ∈ [['('], [')'], Connective.and.keyword, Connective.or.keyword], w ≠ v := by
    rintro v hv rfl
    have hs : [['('], [')'], Connective.and.keyword, Connective.or.keyword].all
        (·.all (· ∈ ['(', ')', 'A', 'N', 'D', 'O', 'R'])) = true := by decide
    exact hc (by simpa using List.all_eq_true.1 (List.all_eq_true.1 hs _ hv) c hw)
  simp [kindOf, Connective.ofKeyword?, hne]

theorem IsPlainWord.isWord (h : IsPlainWord w) : Token.IsWord w where
  ne_nil := h.ne_nil
  solid c hc := by
    obtain ⟨hb, hm⟩ := h.plain c hc
    simp only [List.mem_cons, List.not_mem_nil, or_false, not_or] at hm
    simp [isBreak, isQuote, hb, hm]
  kind := by
    have hopen : w ≠ ['('] := by
      rintro rfl
      exact (h.plain '(' (by simp)).2 (by decide)
    have hclose : w ≠ [')'] := by
      rintro rfl
      exact (h.plain ')' (by simp)).2 (by decide)
    have hop : Connective.ofKeyword? w = none := by
      cases ho : Connective.ofKeyword? w with
      | none => rfl
      | some op =>
        rw [Connective.ofKeyword?_eq_some_iff] at ho
        refine absurd ?_ h.not_reserved
        rw [ho]
        cases op <;> decide
    simp [kindOf, hopen, hclose, hop]

theorem Token.IsWord.comma (h : Token.IsWord w) : Token.IsWord (w ++ [',']) where
  ne_nil := by simp
  solid c hc := by
    rcases List.mem_append.1 hc with hc | hc
    · exact h.solid c hc
    · rw [List.mem_singleton.1 hc]
      decide
  kind := kindOf_eq_word (c := ',') (by simp) (by decide)

theorem Token.IsWord.attribute (h : Token.IsWord w) : Token.IsWord (attributeMark ++ w) where
  ne_nil := by simp [attributeMark]
  solid c hc := by
    rcases List.mem_append.1 hc with hc | hc
    · exact (isSolid_of_all (w := attributeMark) (by decide) (by decide)).solid c hc
    · exact h.solid c hc
  kind := kindOf_eq_word (c := ':') (by simp [attributeMark]) (by decide)

theorem IsPhrase.eachWord_isWord (h : IsPhrase t) : EachWord Token.IsWord t :=
  h.mono fun _ hw ↦ hw.isWord

theorem Comparison.isWord_typed (op : Comparison) : Token.IsWord op.typed := by
  cases op <;> exact ⟨isSolid_of_all (by decide) (by decide), by decide⟩

theorem RelationTest.eachWord_isWord (test : RelationTest) :
    EachWord Token.IsWord test.keyword := by
  refine (eachWord_iff_of_not_mem ?_).2 ?_
  · cases test <;> decide
  · cases test <;> exact ⟨isSolid_of_all (by decide) (by decide), by decide⟩

def IsConditionText (t : Text) : Prop :=
  ∀ g, AllBlank g → ∃ ts, Places g t ts ∧ IsSealed ts ∧ enclosed? ts = none

theorem enclosed?_eq_none_of_word {token : Token} (h : token.kind = .word) (ts : List Token) :
    enclosed? (token :: ts) = none := by
  simp [enclosed?, h]

theorem isConditionText_of_words (h : EachWord Token.IsWord t) : IsConditionText t := by
  intro g hg
  obtain ⟨ts, hts, hk⟩ := exists_places_of_words hg h
  obtain ⟨token, ts, rfl⟩ := List.exists_cons_of_ne_nil hts.ne_nil
  exact ⟨_, hts, .of_words hk, enclosed?_eq_none_of_word (hk token List.mem_cons_self) ts⟩

theorem isConditionText_list (h : EachWord Token.IsWord t) (hne : values ≠ [])
    (hv : ∀ value ∈ values, IsPhrase value) : IsConditionText (t ++ ' ' :: listText values) := by
  intro g hg
  obtain ⟨ts, hts, hk⟩ := exists_places_of_words hg h
  have hwords : EachWord Token.IsWord (joined [',', ' '] values) :=
    eachWord_joined (fun w hw ↦ hw.comma) hne fun value hv' ↦ (hv value hv').eachWord_isWord
  obtain ⟨us, hus, hk'⟩ := exists_places_of_words allBlank_nil hwords
  have hlist := Places.enclose allBlank_space hus
  have hsealed : IsSealed (⟨[' '], ['(']⟩ :: (us ++ [⟨[], [')']⟩])) :=
    .enclose rfl rfl (depthAfter?_of_words hk' 0)
  obtain ⟨token, ts, rfl⟩ := List.exists_cons_of_ne_nil hts.ne_nil
  exact ⟨_, hts.append hlist, (IsSealed.of_words hk).append hsealed,
    enclosed?_eq_none_of_word (hk token List.mem_cons_self) _⟩

theorem isConditionText_comparisonText (hn : EachWord Token.IsWord name)
    (ho : operand.IsPlain op) : IsConditionText (comparisonText name op operand) := by
  cases operand with
  | scalar value =>
    apply isConditionText_of_words
    exact eachWord_comparisonText_iff.2 ⟨hn, op.isWord_typed, ho.2.eachWord_isWord⟩
  | set values =>
    have hop : EachWord Token.IsWord op.typed :=
      (eachWord_iff_of_not_mem (op.typed_eq ▸ op.typedOp.space_not_mem_keyword)).2 op.isWord_typed
    have ht : comparisonText name op (.set values) =
        (name ++ ' ' :: op.typed) ++ ' ' :: listText values := by
      simp [comparisonText, Operand.text]
    rw [ht]
    exact isConditionText_list (eachWord_append_iff.2 ⟨hn, hop⟩) ho.2.1 ho.2.2

theorem isConditionText_relation (hn : IsPhrase name) (test : RelationTest) (hne : values ≠ [])
    (hv : ∀ value ∈ values, IsPhrase value) :
    IsConditionText (name ++ ' ' :: (test.keyword ++ ' ' :: listText values)) := by
  have hk := test.eachWord_isWord
  have ht : name ++ ' ' :: (test.keyword ++ ' ' :: listText values) =
      (name ++ ' ' :: test.keyword) ++ ' ' :: listText values := by
    simp
  rw [ht]
  exact isConditionText_list (eachWord_append_iff.2 ⟨hn.eachWord_isWord, hk⟩) hne hv

theorem Condition.IsPlain.isConditionText {c : Condition} (h : c.IsPlain) :
    IsConditionText c.text := by
  cases c with
  | onField name op operand => exact isConditionText_comparisonText h.1.eachWord_isWord h.2.2
  | onAttribute name op operand =>
    have hn : EachWord Token.IsWord (attributeMark ++ name) :=
      h.1.eachWord_isWord.append_left attributeMark (by decide) fun _ hw ↦ hw.attribute
    have ht : (onAttribute name op operand).text =
        comparisonText (attributeMark ++ name) op operand := by
      simp [text, comparisonText]
    rw [ht]
    exact isConditionText_comparisonText hn h.2
  | onRelation name test values =>
    cases test with
    | present =>
      have hk := RelationTest.present.eachWord_isWord
      exact isConditionText_of_words (eachWord_append_iff.2 ⟨h.1.eachWord_isWord, hk⟩)
    | hasAny => exact isConditionText_relation h.1 .hasAny h.2.1 h.2.2
    | isAny => exact isConditionText_relation h.1 .isAny h.2.1 h.2.2

namespace Filter

/-- The tokens that a filter is read from: as one range of a layer, and by themselves, where the
parentheses around them do not count. -/
structure ReadFrom (n : Filter) (ts : List Token) : Prop where
  isSealed : IsSealed ts
  ofRange_eq (nesting : Nat) (h : n.depth ≤ nesting) : ofRange nesting ts = .ok n
  outermost (nesting : Nat) (h : n.depth ≤ nesting + 1) :
    (layer ((enclosed? ts).getD ts) >>= ofLayer (ofRange nesting)) = .ok (some n)

theorem readFrom_leaf {c : Condition} {ts : List Token} (hc : Condition.read t = .ok c)
    (hts : Places g t ts) (hs : IsSealed ts) (he : enclosed? ts = none) : (leaf c).ReadFrom ts := by
  have hr : ∀ nesting, ofRange nesting ts = .ok (leaf c) := by
    intro nesting
    rw [ofRange_of_enclosed?_eq_none he, hts.source_eq, hc]
    rfl
  refine ⟨hs, fun nesting _ ↦ hr nesting, fun nesting _ ↦ ?_⟩
  rw [he, Option.getD_none, layer_of_isSealed hts.ne_nil hs]
  change (ofRange nesting ts).map some = _
  rw [hr]
  rfl

theorem mapM_ofRange {parts : List Filter} {ranges : List (List Token)} {nesting : Nat}
    (h : List.Forall₂ ReadFrom parts ranges) (hd : ∀ part ∈ parts, part.depth ≤ nesting) :
    ranges.mapM (ofRange nesting) = .ok parts := by
  have each : List.Forall₂ (fun range part ↦ part.depth ≤ nesting ∧ part.ReadFrom range)
      ranges parts := ((List.forall₂_and_left parts ranges).2 ⟨hd, h⟩).flip
  exact mapM_eq_ok_iff.2 (each.imp fun range part h ↦ h.2.ofRange_eq nesting h.1)

theorem readFrom_join {op : Connective} {parts : List Filter} (two : 2 ≤ parts.length)
    {first close : Token} {inside : List Token} {ranges : List (List Token)}
    (hf : first.kind = .opening) (hc : close.kind = .closing) (hj : Joins op ranges inside)
    (h : List.Forall₂ ReadFrom parts ranges) :
    (join op parts).ReadFrom (first :: (inside ++ [close])) := by
  have hb : isBalanced inside = true := by simpa [isBalanced] using hj.balanced
  have he := enclosed?_eq_some_iff.2 ⟨first, close, rfl, hf, hc, hb⟩
  have inner : ∀ nesting, (join op parts).depth ≤ nesting + 1 →
      (layer inside >>= ofLayer (ofRange nesting)) = .ok (some (join op parts)) := by
    intro nesting hd
    rw [depth, Nat.add_le_add_iff_right, depths_le_iff] at hd
    exact bind_ofLayer_of_joins hj (h.length_eq ▸ two) (mapM_ofRange h hd)
  refine ⟨.enclose hf hc hj.balanced, fun nesting hd ↦ ?_, fun nesting hd ↦ ?_⟩
  · cases nesting with
    | zero => simp [depth] at hd
    | succ nesting =>
      rw [ofRange, he]
      dsimp only
      rw [← bind_assoc, inner nesting hd]
      rfl
  · rw [he, Option.getD_some]
    exact inner nesting hd

theorem exists_places {n : Filter} (h : n.IsPlain) (hg : AllBlank g) :
    ∃ ts, Places g n.text ts ∧ n.ReadFrom ts := by
  -- the first part of a join stands right behind its parenthesis, every other one behind a space
  induction n generalizing g with
  | leaf c =>
    cases h with
    | leaf h =>
      obtain ⟨ts, hts, hs, he⟩ := h.isConditionText g hg
      exact ⟨ts, hts, readFrom_leaf (Condition.read_text h) hts hs he⟩
  | join op parts ih =>
    cases h with
    | join two h =>
      have hne : parts ≠ [] := by
        rintro rfl
        simp at two
      obtain ⟨ranges, inside, hi, hj, hr⟩ := exists_joins op (fun _ _ hr ↦ hr.isSealed) hne
        (fun part hp g hg ↦ ih part hp (h part hp) hg) allBlank_nil
      rw [text, texts_eq_map]
      exact ⟨_, hi.enclose hg, readFrom_join two rfl rfl hj hr⟩

theorem read?_of_places {ts : List Token} (h : Places [] t ts) : read? t = ofTokens? ts := by
  have ht := h.reads [] (endsWord_of_allBlank allBlank_nil)
  rw [List.nil_append, List.append_nil] at ht
  rw [read?_eq_ofTokens?, ht.read_eq_of_allBlank allBlank_nil]

/-- A plain filter is read back from its text, down to the depth that reading allows: one join more
than groups may be nested, for the outermost parentheses do not count as a group. So reading what
was printed of a filter that a text was read as gives what the text gave. -/
theorem read?_text {n : Filter} (h : n.IsPlain) (hd : n.depth ≤ 65) :
    read? n.text = .ok (some n) ∧ ∀ t, read? t = .ok (some n) → read? n.text = read? t := by
  have hr : read? n.text = .ok (some n) := by
    obtain ⟨ts, hts, hn⟩ := exists_places h allBlank_nil
    rw [read?_of_places hts]
    exact hn.outermost maxNesting hd
  exact ⟨hr, fun t ht ↦ hr.trans ht.symm⟩

theorem read?_text_nested :
    let n : Filter := .join .or [.leaf (.onRelation (.ofString "languages") .present []),
      .join .and [.leaf (.onField (.ofString "title") .like (.scalar (.ofString "Lead Engineer"))),
        .leaf (.onAttribute (.ofString "level") .oneOf (.set [.ofString "mid", .ofString "high"]))]]
    n.text = .ofString
      "(languages EXISTS OR (title LIKE Lead Engineer AND attribute:level = (mid, high)))" ∧
      read? n.text = .ok (some n) := by
  intro n
  have plain : n.IsPlain := by
    refine .join (by decide) (List.forall_mem_cons.2 ⟨.leaf (by decide), ?_⟩)
    refine List.forall_mem_singleton.2 (.join (by decide) ?_)
    refine List.forall_mem_cons.2 ⟨.leaf (by decide), List.forall_mem_singleton.2 (.leaf ?_)⟩
    decide
  exact ⟨by decide, (read?_text plain (by decide)).1⟩

end Filter

end ListingFilter
