import ListingFilter.Proofs.Filter.RoundTrip

namespace ListingFilter

open Text Token

variable {c d q : Char} {s t w g mark keyword name value rest : Text} {op : Comparison}

def Text.quoted (q : Char) (s : Text) : Text := q :: (s ++ [q])

/-- A comparison with a value in quotes, as it is typed. -/
structure QuotedComparison where
  name : Text
  op : Comparison
  quote : Char
  value : Text

namespace QuotedComparison

def text (c : QuotedComparison) : Text :=
  comparisonText c.name c.op (.scalar (quoted c.quote c.value))

def condition (c : QuotedComparison) : Condition :=
  match after? attributeMark c.name with
  | some rest => .onAttribute rest c.op (.scalar c.value)
  | none => .onField c.name c.op (.scalar c.value)

/-- The search for the keyword of a condition does not know of quotes, so the value may hold none
that is looked for before the comparison. -/
@[mk_iff]
structure IsClear (c : QuotedComparison) : Prop where
  isPhrase : IsPhrase c.name
  ne_mark : (words c.name).head? ≠ some attributeMark
  ne_oneOf : c.op ≠ .oneOf
  isQuote : isQuote c.quote = true
  closed : c.quote ∉ c.value
  no_hasAny : ¬ spaced RelationTest.hasAny.keyword <:+: c.value
  no_isAny : ¬ spaced RelationTest.isAny.keyword <:+: c.value
  no_present : ¬ (' ' :: RelationTest.present.keyword) <:+: c.value
  no_earlier : ∀ op ∈ c.op.earlier, ¬ spaced op.keyword <:+: c.value

instance (c : QuotedComparison) : Decidable c.IsClear := decidable_of_iff _ (isClear_iff c).symm

end QuotedComparison

def Filter.ofConditions (op : Connective) : List Condition → Filter
  | [c] => leaf c
  | cs => join op (cs.map leaf)

theorem not_mem_of_isSolid (hq : isQuote q = true) (hk : IsSolid keyword) : q ∉ ' ' :: keyword := by
  intro hm
  rcases List.mem_cons.1 hm with rfl | hm
  · exact absurd hq (by decide)
  · rw [(hk.solid q hm).2] at hq
    cases hq

theorem infix_of_infix_between (hc : c ∉ mark) (hd : d ∉ mark) (hl : 2 ≤ mark.length)
    (h : mark <:+: ' ' :: (c :: (s ++ [d]) ++ [' '])) : mark <:+: s := by
  have short : ¬ mark <:+: [' '] := by
    intro h
    have hle := h.length_le
    rw [List.length_singleton] at hle
    omega
  have ht : ' ' :: (c :: (s ++ [d]) ++ [' ']) = [' '] ++ c :: (s ++ d :: [' ']) := by simp
  rw [ht] at h
  have inner := (infix_of_infix_append_cons hc h).resolve_left short
  exact (infix_of_infix_append_cons hd inner).resolve_right short

theorem eachWord_between_not_prefix (hc : c ∉ ' ' :: keyword) (hd : d ∉ ' ' :: keyword)
    (hne : keyword ≠ []) (h : ¬ (' ' :: keyword) <:+: s) :
    EachWord (¬ keyword <+: ·) (c :: (s ++ [d])) := by
  rintro w hw ⟨rest, rfl⟩
  have hpos := List.length_pos_iff.2 hne
  have inside : (' ' :: keyword) <:+: ' ' :: (keyword ++ rest ++ [' ']) :=
    ⟨[], rest ++ [' '], by simp⟩
  refine h (infix_of_infix_between hc hd ?_ (inside.trans (infix_of_mem_words hw)))
  rw [List.length_cons]
  omega

theorem eachWord_between_ne (hc : c ∉ ' ' :: keyword) (hd : d ∉ ' ' :: keyword)
    (h : ¬ spaced keyword <:+: s) : EachWord (· ≠ keyword) (c :: (s ++ [d])) := by
  rintro w hw rfl
  have free (e : Char) (he : e ∉ ' ' :: w) : e ∉ spaced w := by
    rw [spaced, ← List.cons_append, List.mem_append, not_or]
    exact ⟨he, fun hm ↦ he (List.mem_singleton.1 hm ▸ List.mem_cons_self)⟩
  refine h (infix_of_infix_between (free c hc) (free d hd) ?_ (infix_of_mem_words hw))
  simp [spaced]

theorem eachWord_quoted_not_prefix (hq : isQuote q = true) (hk : IsSolid keyword)
    (h : ¬ (' ' :: keyword) <:+: s) : EachWord (¬ keyword <+: ·) (quoted q s) :=
  eachWord_between_not_prefix (not_mem_of_isSolid hq hk) (not_mem_of_isSolid hq hk) hk.ne_nil h

theorem eachWord_quoted_ne (hq : isQuote q = true) (hk : IsSolid keyword)
    (h : ¬ spaced keyword <:+: s) : EachWord (· ≠ keyword) (quoted q s) :=
  eachWord_between_ne (not_mem_of_isSolid hq hk) (not_mem_of_isSolid hq hk) h

theorem unquote?_quoted (hq : isQuote q = true) (s : Text) : unquote? (quoted q s) = some s := by
  simp only [isQuote, decide_eq_true_eq] at hq
  rcases hq with rfl | rfl <;> simp [unquote?, quoted, between?]

theorem trim_quoted (hq : isQuote q = true) (s : Text) : trim (quoted q s) = quoted q s := by
  have hb := isBlank_of_isQuote hq
  exact trim_append_eq_self (t := [q]) ⟨q, rfl, hb⟩ s ⟨q, rfl, hb⟩

theorem Operand.read_quoted (hq : isQuote q = true) (op : Comparison) (s : Text) :
    read op (quoted q s) = .ok (op, .scalar s) := by
  have hl : isList (quoted q s) = false := by simp [isList, unquote?_quoted hq]
  have hc : clean (quoted q s) = s :=
    clean_of_unquote?_eq_some (by rw [trim_quoted hq, unquote?_quoted hq])
  rw [read, trim_quoted hq, hl, hc]
  simp

theorem Token.leading_quoted (hq : isQuote q = true) (hs : q ∉ s) (hr : EndsWord rest) :
    leading q (s ++ [q] ++ rest) = (quoted q s, rest) := by
  have hrun : quotedRun q (s ++ [q] ++ rest) = (s ++ [q], rest) := by
    rw [List.append_assoc]
    exact quotedRun_closed hq hs rest
  obtain ⟨ht, hd⟩ := takeWhile_append_of_endsWord hr []
  rw [List.nil_append] at ht hd
  rw [leading, if_neg (ne_paren_of_isQuote hq), word_eq hrun, ht, hd]
  simp [quoted]

theorem Token.Places.quoted (hg : AllBlank g) (hq : isQuote q = true) (hs : q ∉ s) :
    Places g (quoted q s) [⟨g, Text.quoted q s⟩] where
  ne_nil := by simp
  reads _ hr := reads_single hg (isBlank_of_isQuote hq) (leading_quoted hq hs hr)
  source_eq := by simp [source, layout]

theorem Token.kindOf_quoted (hq : isQuote q = true) (s : Text) : kindOf (quoted q s) = .word := by
  refine kindOf_eq_word (c := q) List.mem_cons_self fun hm ↦ ?_
  have hn : ['(', ')', 'A', 'N', 'D', 'O', 'R'].all (!isQuote ·) = true := by decide
  simpa [hq] using List.all_eq_true.1 hn q hm

theorem IsPhrase.isBlank_of_mem {c : Char} (h : IsPhrase t) (hc : c ∈ t) (hs : c ≠ ' ') :
    isBlank c = false :=
  EachWord.forall_mem (Q := fun c ↦ c ≠ ' ' → isBlank c = false)
    (fun _ hw c hc _ ↦ (hw.plain c hc).1) (fun hs ↦ absurd rfl hs) h c hc hs

theorem Comparison.isSolid_keyword (op : Comparison) : IsSolid op.keyword := by
  cases op <;> exact isSolid_of_all (by decide) (by decide)

theorem RelationTest.isSolid_keyword (test : RelationTest) : IsSolid test.keyword := by
  cases test <;> exact isSolid_of_all (by decide) (by decide)

namespace QuotedComparison

variable {c : QuotedComparison}

namespace IsClear

theorem typed_eq (h : c.IsClear) : c.op.typed = c.op.keyword := by
  have hop := h.ne_oneOf
  cases ho : c.op <;> first | rfl | exact absurd ho hop

theorem eachWord_isTestless (h : c.IsClear) : EachWord Condition.IsTestless c.text := by
  refine eachWord_comparisonText_iff.2 ⟨?_, Condition.isTestless_typed c.op, fun w hw ↦ ?_⟩
  · exact h.isPhrase.mono fun w hw ↦ Condition.isTestless_of_isFree hw.isFree
  · exact ⟨eachWord_quoted_ne h.isQuote (RelationTest.isSolid_keyword _) h.no_hasAny w hw,
      eachWord_quoted_ne h.isQuote (RelationTest.isSolid_keyword _) h.no_isAny w hw,
      eachWord_quoted_not_prefix h.isQuote (RelationTest.isSolid_keyword _) h.no_present w hw⟩

theorem eachWord_ne_earlier (h : c.IsClear) (ho : op ∈ c.op.earlier) :
    EachWord (· ≠ op.keyword) c.text := by
  have hk := Comparison.keyword_mem_reserved ((List.takeWhile_sublist _).subset ho)
  have hne : op ≠ c.op := by simpa using List.mem_takeWhile_imp ho
  refine eachWord_comparisonText_iff.2 ⟨?_, fun he ↦ hne ?_, ?_⟩
  · exact h.isPhrase.mono fun w hw ↦ hw.isFree.ne hk
  · exact Comparison.keyword_injective (he.symm.trans h.typed_eq)
  · exact eachWord_quoted_ne h.isQuote op.isSolid_keyword (h.no_earlier op ho)

theorem eachWord_name_ne (h : c.IsClear) : EachWord (· ≠ c.op.keyword) c.name := by
  have hop : c.op.typedOp.keyword = c.op.keyword := c.op.typed_eq.symm.trans h.typed_eq
  have hk : c.op.keyword ∈ reserved :=
    hop ▸ Comparison.keyword_mem_reserved c.op.typedOp_mem_typable
  exact h.isPhrase.mono fun w hw ↦ hw.isFree.ne hk

theorem readComparison (h : c.IsClear) (hc : c.name = mark ++ name) (hm : ' ' ∉ mark)
    (hne : name ≠ []) (ht : trim name = name) (whole : Text) :
    Condition.readComparison (comparisonText name c.op (.scalar (quoted c.quote c.value))) whole =
      .ok (name, c.op, .scalar c.value) := by
  have htext : c.text =
      mark ++ comparisonText name c.op (.scalar (quoted c.quote c.value)) := by
    simp [text, hc, comparisonText]
  have hs : Comparison.split? (comparisonText name c.op (.scalar (quoted c.quote c.value))) =
      some (name, c.op, quoted c.quote c.value) := by
    refine Comparison.split?_eq_some h.ne_oneOf (fun op ho ↦ ?_) ?_
    · have words := (h.eachWord_ne_earlier ho).tail
      rw [htext, tail_words_append hm] at words
      exact splitOnce?_spaced_eq_none op.space_not_mem_keyword words
    · have words := h.eachWord_name_ne.tail
      rw [hc, tail_words_append hm] at words
      rw [comparisonText, h.typed_eq]
      exact splitOnce?_spaced c.op.space_not_mem_keyword words _
  have he : name.isEmpty = false := by simpa using hne
  rw [Condition.readComparison, hs]
  simp only [ht, he, Bool.false_eq_true, if_false, Operand.read_quoted h.isQuote]
  rfl

theorem trim_rest (h : c.IsClear) (hc : c.name = attributeMark ++ rest) :
    rest ≠ [] ∧ trim rest = rest := by
  have hspace : ∀ u, rest ≠ ' ' :: u := by
    rintro u rfl
    apply h.ne_mark
    rw [hc, words_append, words_of_not_mem (by decide)]
    rfl
  have hne : rest ≠ [] := by
    rintro rfl
    apply h.ne_mark
    rw [hc]
    rfl
  refine ⟨hne, trim_eq_self (fun d hd ↦ ?_) fun d hd ↦ ?_⟩
  · obtain ⟨u, hu⟩ := List.head?_eq_some_iff.1 hd
    refine h.isPhrase.isBlank_of_mem (by simp [hc, hu]) ?_
    rintro rfl
    exact hspace u hu
  · obtain ⟨d', hd', hb⟩ := h.isPhrase.getLast?
    rw [hc, List.getLast?_append, Option.mem_def.1 hd] at hd'
    exact Option.some.inj hd' ▸ hb

theorem read_text (h : c.IsClear) : Condition.read c.text = .ok c.condition := by
  have hlast : ∃ d ∈ (quoted c.quote c.value).getLast?, isBlank d = false :=
    ⟨c.quote, by simp [quoted, List.getLast?_cons], isBlank_of_isQuote h.isQuote⟩
  have htrim : trim c.text = c.text := by
    have ht := trim_append_eq_self h.isPhrase.head? (' ' :: (c.op.typed ++ [' '])) hlast
    simpa [text, comparisonText, Operand.text] using ht
  rw [Condition.read, htrim, Condition.readTrimmed_eq_readOwn h.eachWord_isTestless.tail,
    Condition.readOwn, condition]
  cases hm : after? attributeMark c.name with
  | some rest =>
    have hc := after?_eq_some_iff.1 hm
    have hsome : after? attributeMark c.text =
        some (comparisonText rest c.op (.scalar (quoted c.quote c.value))) :=
      after?_eq_some_iff.2 (by simp [text, hc, comparisonText])
    obtain ⟨hne, ht⟩ := h.trim_rest hc
    rw [hsome]
    simp only [h.readComparison hc (by decide) hne ht]
    rfl
  | none =>
    have hprefix : ¬ attributeMark <+: c.name := by
      rintro ⟨rest, hr⟩
      rw [after?_eq_some_iff.2 hr.symm] at hm
      cases hm
    have hnone : after? attributeMark c.text = none :=
      after?_append_eq_none (by decide) hprefix (afterWord_space _)
    have hread : Condition.readComparison c.text c.text = .ok (c.name, c.op, .scalar c.value) :=
      h.readComparison (List.nil_append _).symm (by decide) h.isPhrase.ne_nil h.isPhrase.trim_eq _
    rw [hnone]
    simp only [hread]
    rfl

theorem isConditionText (h : c.IsClear) : IsConditionText c.text := by
  intro g hg
  have hop : EachWord Token.IsWord c.op.typed :=
    (eachWord_iff_of_not_mem (c.op.typed_eq ▸ c.op.typedOp.space_not_mem_keyword)).2
      c.op.isWord_typed
  obtain ⟨ts, hts, hk⟩ :=
    exists_places_of_words hg (eachWord_append_iff.2 ⟨h.isPhrase.eachWord_isWord, hop⟩)
  have htext : c.text = (c.name ++ ' ' :: c.op.typed) ++ ' ' :: quoted c.quote c.value := by
    simp [text, comparisonText, Operand.text]
  have hall : ∀ token ∈ ts ++ [⟨[' '], quoted c.quote c.value⟩], token.kind = .word :=
    List.forall_mem_append.2 ⟨hk, List.forall_mem_singleton.2 (kindOf_quoted h.isQuote c.value)⟩
  rw [htext]
  refine ⟨_, hts.append (.quoted allBlank_space h.isQuote h.closed), .of_words hall, ?_⟩
  obtain ⟨token, ts, rfl⟩ := List.exists_cons_of_ne_nil hts.ne_nil
  exact enclosed?_eq_none_of_word (hk token List.mem_cons_self) _

theorem exists_places (h : c.IsClear) (hg : AllBlank g) :
    ∃ ts, Places g c.text ts ∧ (Filter.leaf c.condition).ReadFrom ts := by
  obtain ⟨ts, hts, hs, he⟩ := h.isConditionText g hg
  exact ⟨ts, hts, Filter.readFrom_leaf h.read_text hts hs he⟩

end IsClear

end QuotedComparison

/-- What stands in quotes does not reach the filter around it: comparisons with quoted values, one
or more of them with one connective between any two, are read as these comparisons with these
values. -/
theorem Filter.read?_quoted (op : Connective) {cs : List QuotedComparison} (hne : cs ≠ [])
    (h : ∀ c ∈ cs, c.IsClear) :
    read? (joined (spaced op.keyword) (cs.map QuotedComparison.text)) =
      .ok (some (ofConditions op (cs.map QuotedComparison.condition))) := by
  obtain ⟨ranges, ts, hts, hj, hr⟩ := exists_joins op
    (R := fun c ts ↦ (leaf c.condition).ReadFrom ts) (fun _ _ hr ↦ hr.isSealed) hne
    (fun c hc g hg ↦ (h c hc).exists_places hg) allBlank_nil
  refine (read?_of_places hts).trans ?_
  rw [ofTokens?]
  cases hr with
  | nil => exact absurd rfl hne
  | @cons c range cs ranges head others =>
    cases others with
    | nil =>
      cases hj with
      | single _ _ => exact head.outermost maxNesting (Nat.zero_le _)
      | cons _ _ _ later => cases later
    | @cons c' range' cs ranges head' others =>
      have two : 2 ≤ (range :: range' :: ranges).length := Nat.le_add_left 2 ranges.length
      have hparts : List.Forall₂ ReadFrom ((c :: c' :: cs).map fun c ↦ leaf c.condition)
          (range :: range' :: ranges) := List.forall₂_map_left_iff.2 (.cons head (.cons head' others))
      have hm : (range :: range' :: ranges).mapM (ofRange maxNesting) = .ok _ :=
        mapM_ofRange hparts (by simp [depth])
      rw [enclosed?_eq_none_of_joins hj two, Option.getD_none, bind_ofLayer_of_joins hj two hm]
      simp [ofConditions]

theorem Filter.read?_quoted_keywords :
    let cs : List QuotedComparison := [
      ⟨.ofString "home city", .equal, '\'', .ofString "a = (b, c) AND d) OR\n\"e"⟩,
      ⟨.ofString "attribute:level", .like, '"', .ofString "(x' OR "⟩]
    joined (spaced Connective.and.keyword) (cs.map QuotedComparison.text) = .ofString
      "home city = 'a = (b, c) AND d) OR\n\"e' AND attribute:level LIKE \"(x' OR \"" ∧
      read? (joined (spaced Connective.and.keyword) (cs.map QuotedComparison.text)) =
        .ok (some (.join .and [
          .leaf (.onField (.ofString "home city") .equal
            (.scalar (.ofString "a = (b, c) AND d) OR\n\"e"))),
          .leaf (.onAttribute (.ofString "level") .like (.scalar (.ofString "(x' OR ")))])) := by
  intro cs
  have clear : ∀ c ∈ cs, c.IsClear := by decide
  exact ⟨by decide, read?_quoted .and (by decide) clear⟩

end ListingFilter
