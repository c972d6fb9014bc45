import ListingFilter.Proofs.Filter.Quoting

namespace ListingFilter

open Text

variable {g mark body name n t u v value whole : Text}

structure IsBareName (n : Text) : Prop where
  ne_nil : n ≠ []
  solid : ∀ c ∈ n, isBlank c = false
  ne_mark : n ≠ attributeMark

/-- A value that stands for itself behind an equals sign: it is no list. -/
structure IsBareValue (v : Text) : Prop where
  ne_nil : v ≠ []
  trim_eq : trim v = v
  not_list : (∃ q s, isQuote q = true ∧ v = quoted q s) ∨ ¬ ('(' ∈ v ∧ ')' ∈ v)

def Condition.equality (name value : Text) : Condition :=
  match after? attributeMark name with
  | some rest => .onAttribute rest .equal (.scalar value)
  | none => .onField name .equal (.scalar value)

theorem space_not_mem_of_solid (h : ∀ c ∈ n, isBlank c = false) : ' ' ∉ n := by
  intro hm
  exact absurd (h ' ' hm) (by decide)

theorem IsBareName.solid_of_suffix (hn : IsBareName n) (h : name <:+ n) :
    ∀ c ∈ name, isBlank c = false :=
  fun c hc ↦ hn.solid c (h.subset hc)

namespace IsBareValue

theorem isList_eq_false (h : IsBareValue v) : Operand.isList v = false := by
  obtain ⟨q, s, hq, rfl⟩ | hparens := h.not_list
  · simp [Operand.isList, unquote?_quoted hq]
  · simp only [Operand.isList, decide_eq_false_iff_not]
    exact fun hlist ↦ hparens hlist.2

theorem read_equal (h : IsBareValue v) :
    Operand.read .equal v = .ok (.equal, .scalar (clean v)) := by
  rw [Operand.read, h.trim_eq, h.isList_eq_false]
  simp

theorem getLast? (h : IsBareValue v) : ∃ c ∈ v.getLast?, isBlank c = false := by
  have hl := List.getLast?_eq_some_getLast h.ne_nil
  refine ⟨v.getLast h.ne_nil, hl, isBlank_of_mem_getLast?_trim (t := v) ?_⟩
  rw [h.trim_eq]
  exact hl

end IsBareValue

theorem exists_head?_of_solid (hne : n ≠ []) (h : ∀ c ∈ n, isBlank c = false) :
    ∃ c ∈ n.head?, isBlank c = false := by
  obtain ⟨c, n, rfl⟩ := List.exists_cons_of_ne_nil hne
  exact ⟨c, rfl, h c List.mem_cons_self⟩

theorem after?_append_of_blank (hm : ∀ c ∈ mark, isBlank c = false)
    (ht : ∃ c ∈ t.head?, isBlank c = true) :
    after? mark (n ++ t) = (after? mark n).map (· ++ t) := by
  induction mark generalizing n with
  | nil => rfl
  | cons m mark ih =>
    obtain ⟨first, others⟩ := List.forall_mem_cons.1 hm
    cases n with
    | nil =>
      obtain ⟨c, hc, hb⟩ := ht
      obtain ⟨t, rfl⟩ := List.head?_eq_some_iff.1 hc
      have hne : m ≠ c := by
        rintro rfl
        rw [first] at hb
        cases hb
      simp [after?, hne]
    | cons c n =>
      by_cases hc : m = c
      · simp [after?, hc, ih others]
      · simp [after?, hc]

namespace Condition

theorem readOwn_append (hn : IsBareName n) (ht : ∃ c ∈ t.head?, isBlank c = true)
    (h : ∀ name, name ≠ [] → name <:+ n →
      readComparison (name ++ t) (n ++ t) = .ok (name, .equal, .scalar value)) :
    readOwn (n ++ t) = .ok (equality n value) := by
  rw [readOwn, equality, after?_append_of_blank (isBlank_eq_false_of_all (by decide)) ht]
  cases ha : after? attributeMark n with
  | none =>
    rw [Option.map_none]
    simp only [h n hn.ne_nil List.suffix_rfl]
    rfl
  | some rest =>
    have hsplit := after?_eq_some_iff.1 ha
    have hne : rest ≠ [] := by
      rintro rfl
      exact hn.ne_mark (hsplit.trans (List.append_nil _))
    rw [Option.map_some]
    simp only [h rest hne ⟨attributeMark, hsplit.symm⟩]
    rfl

theorem readComparison_blank (hne : name ≠ []) (solid : ∀ c ∈ name, isBlank c = false)
    (hv : IsBareValue v) (hg : AllBlank g) (hgne : g ≠ [])
    (hnone : Comparison.split? (name ++ (g ++ v)) = none) (whole : Text) :
    readComparison (name ++ (g ++ v)) whole = .ok (name, .equal, .scalar (clean v)) := by
  have ht : trim (name ++ (g ++ v)) = name ++ (g ++ v) :=
    trim_append_eq_self (exists_head?_of_solid hne solid) g hv.getLast?
  have hall : ∀ c ∈ name, (!isBlank c) = true := by
    intro c hc
    rw [solid c hc]
    rfl
  obtain ⟨c, g, rfl⟩ := List.exists_cons_of_ne_nil hgne
  have hc : isBlank c = true := hg c List.mem_cons_self
  have hname : (name ++ (c :: g ++ v)).takeWhile (!isBlank ·) = name := by
    rw [List.takeWhile_append_of_pos hall]
    simp [hc]
  have hvalue : (name ++ (c :: g ++ v)).dropWhile (!isBlank ·) = c :: g ++ v := by
    rw [List.dropWhile_append_of_pos hall]
    simp [hc]
  have hclean : clean (c :: g ++ v) = clean v := by
    rw [clean, clean, trim_blank_append hg]
  rw [readComparison, hnone]
  simp only [ht, hname, hvalue, hclean]
  rfl

theorem splitOnce?_sign (hn : ' ' ∉ n) (hb : after? body ('=' :: ' ' :: v) = none)
    (h : ¬ (' ' :: body) <:+: n ++ ' ' :: v) :
    splitOnce? (' ' :: body) (n ++ (spaced ['='] ++ v)) = none := by
  -- the mark begins at neither blank: in front of the sign it does not go on, and behind the sign
  -- it would lie in the text without the sign too
  have hvalue : splitOnce? (' ' :: body) (' ' :: v) = none := by
    refine splitOnce?_eq_none_iff.2 fun hv ↦ h ?_
    exact hv.trans (List.suffix_append n (' ' :: v)).isInfix
  have hsign : splitOnce? (' ' :: body) ('=' :: ' ' :: v) = none := by
    have hskip := splitOnce?_append (c := ' ') (w := ['=']) (by decide) body (' ' :: v)
    rw [hvalue] at hskip
    exact hskip
  have ht : spaced ['='] ++ v = ' ' :: '=' :: ' ' :: v := rfl
  rw [splitOnce?_append hn, ht, splitOnce?_cons_of_after?_eq_none hb, hsign]
  rfl

theorem split?_sign (hn : ' ' ∉ n)
    (h : ∀ op ∈ Comparison.typable, ¬ spaced op.keyword <:+: n ++ ' ' :: v) :
    Comparison.split? (n ++ (spaced ['='] ++ v)) = some (n, .equal, v) := by
  refine Comparison.split?_eq_some (by decide) (fun op hop ↦ ?_) ?_
  · have hb : after? (op.keyword ++ [' ']) ('=' :: ' ' :: v) = none := by
      cases op with
      | atLeast | atMost | differs | notEqual => rfl
      | equal | greater | less | like | oneOf => exact absurd hop (by decide)
    exact splitOnce?_sign hn hb (h op ((List.takeWhile_sublist _).subset hop))
  · have ha : after? ['=', ' '] ('=' :: ' ' :: v) = some v := after?_eq_some_iff.2 rfl
    have hs : splitOnce? [' ', '=', ' '] (' ' :: '=' :: ' ' :: v) = some ([], v) :=
      splitOnce?_cons_of_after?_eq_some ha
    refine (splitOnce?_append hn ['=', ' '] (' ' :: '=' :: ' ' :: v)).trans ?_
    rw [hs]
    simp

theorem read_blank (hn : IsBareName n) (hv : IsBareValue v) (hg : AllBlank g) (hgne : g ≠ [])
    (hfree : IsKeywordFree (n ++ (g ++ v))) :
    Condition.read (n ++ (g ++ v)) = .ok (equality n (clean v)) := by
  have ht : trim (n ++ (g ++ v)) = n ++ (g ++ v) :=
    trim_append_eq_self (exists_head?_of_solid hn.ne_nil hn.solid) g hv.getLast?
  have hno : ∀ test : RelationTest, splitOnce? test.mark (n ++ (g ++ v)) = none := by
    intro test
    exact splitOnce?_eq_none_iff.2 (hfree.no_test test test.mem_typable)
  have hb : ∃ c ∈ (g ++ v).head?, isBlank c = true := by
    obtain ⟨c, g, rfl⟩ := List.exists_cons_of_ne_nil hgne
    exact ⟨c, rfl, hg c List.mem_cons_self⟩
  rw [Condition.read, ht, readTrimmed_eq_readOwn_of_splitOnce? hno]
  refine readOwn_append hn hb fun name hne hname ↦ ?_
  have hnone : Comparison.split? (name ++ (g ++ v)) = none := by
    refine Comparison.split?_eq_none fun op hop hm ↦ hfree.no_comparison op hop ?_
    obtain ⟨front, hfront⟩ := hname
    rw [← hfront, List.append_assoc]
    exact hm.trans (List.suffix_append front _).isInfix
  exact readComparison_blank hne (hn.solid_of_suffix hname) hv hg hgne hnone _

theorem read_sign (hn : IsBareName n) (hv : IsBareValue v)
    (hfree : IsKeywordFree (n ++ ' ' :: v)) :
    Condition.read (n ++ (spaced ['='] ++ v)) = .ok (equality n (clean v)) := by
  have ht : trim (n ++ (spaced ['='] ++ v)) = n ++ (spaced ['='] ++ v) :=
    trim_append_eq_self (exists_head?_of_solid hn.ne_nil hn.solid) _ hv.getLast?
  have hno : ∀ test : RelationTest, splitOnce? test.mark (n ++ (spaced ['='] ++ v)) = none := by
    intro test
    have hm := hfree.no_test test test.mem_typable
    cases test <;> exact splitOnce?_sign (space_not_mem_of_solid hn.solid) rfl hm
  rw [Condition.read, ht, readTrimmed_eq_readOwn_of_splitOnce? hno]
  refine readOwn_append hn ⟨' ', rfl, by decide⟩ fun name hne hname ↦ ?_
  have hs : Comparison.split? (name ++ (spaced ['='] ++ v)) = some (name, .equal, v) := by
    refine split?_sign (space_not_mem_of_solid (hn.solid_of_suffix hname)) fun op hop hm ↦ ?_
    obtain ⟨front, hfront⟩ := hname
    apply hfree.no_comparison op hop
    rw [← hfront, List.append_assoc]
    exact hm.trans (List.suffix_append front _).isInfix
  have htrim : trim name = name := by
    refine trim_eq_self (fun c hc ↦ ?_) fun c hc ↦ ?_
    · exact hn.solid_of_suffix hname c (List.mem_of_mem_head? hc)
    · exact hn.solid_of_suffix hname c (List.mem_of_mem_getLast? hc)
  have he : name.isEmpty = false := by simpa using hne
  rw [readComparison, hs]
  simp only [htrim, he, Bool.false_eq_true, if_false, hv.read_equal]
  rfl

/-- A name with a value behind it is the equality of the two, whether a sign or any blanks stand
between them. -/
theorem read_equality (hn : IsBareName n) (hv : IsBareValue v)
    (hfree : IsKeywordFree (n ++ ' ' :: v)) :
    Condition.read (n ++ ' ' :: v) = .ok (equality n (clean v)) ∧
      Condition.read (n ++ (spaced ['='] ++ v)) = .ok (equality n (clean v)) ∧
      ∀ g, g ≠ [] → AllBlank g → IsKeywordFree (n ++ (g ++ v)) →
        Condition.read (n ++ (g ++ v)) = .ok (equality n (clean v)) :=
  ⟨read_blank hn hv allBlank_space (List.cons_ne_nil _ _) hfree, read_sign hn hv hfree,
    fun _ hgne hg hfree ↦ read_blank hn hv hg hgne hfree⟩

theorem read_equality_attribute :
    let n : Text := .ofString "attribute:a="
    let v : Text := .ofString "=> 'b ("
    IsBareName n ∧ IsBareValue v ∧ IsKeywordFree (n ++ ' ' :: v) ∧
      read (.ofString "attribute:a= => 'b (") =
        .ok (.onAttribute (.ofString "a=") .equal (.scalar v)) ∧
      read (.ofString "attribute:a= = => 'b (") =
        .ok (.onAttribute (.ofString "a=") .equal (.scalar v)) ∧
      read (.ofString "attribute:a=\t\n=> 'b (") =
        .ok (.onAttribute (.ofString "a=") .equal (.scalar v)) := by
  intro n v
  have hn : IsBareName n := ⟨by decide, isBlank_eq_false_of_all (by decide), by decide⟩
  have hv : IsBareValue v := ⟨by decide, by decide, .inr (by decide)⟩
  have hfree : IsKeywordFree (n ++ ' ' :: v) := by decide
  have hg : AllBlank ['\t', '\n'] := by decide
  obtain ⟨blank, sign, blanks⟩ := read_equality hn hv hfree
  exact ⟨hn, hv, hfree, blank, sign, blanks ['\t', '\n'] (by decide) hg (by decide)⟩

end Condition

end ListingFilter
