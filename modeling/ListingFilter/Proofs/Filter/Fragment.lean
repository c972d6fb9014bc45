import ListingFilter.Proofs.Filter.WellFormed
import ListingFilter.Proofs.Token.Division
import ListingFilter.Proofs.Token.Source

namespace ListingFilter

open Text Token

variable {t u whole name value fragment : Text} {unbalanced unbalanced' : Prop} {fault : Fault}
  {e : FilterError} {ts us : List Token} {op : Comparison}

/-- A part of a text that is not empty and has no blanks at its ends. -/
structure Text.IsPieceOf (fragment t : Text) : Prop where
  ne_nil : fragment ≠ []
  trim_eq : trim fragment = fragment
  isInfix : fragment <:+: t

/-- The faults that are told of a fragment. Parentheses are told of where they are unbalanced, and a
missing name only behind the words in front of an attribute. -/
def Fault.IsToldOf (fragment : Text) (unbalanced : Prop) : Fault → Prop
  | unbalancedClosing | unbalancedOpening => unbalanced
  | missingTest _ | missingRelation | scalarForSet | setForScalar _ | worded _ => False
  | missingName => attributeMark <+: fragment
  | mixedConnectives | missingBefore _ | missingAfter _ | emptyGroup | tooDeep | missingList _
  | textAfterPresent | openedAfterClosed | emptyValue | noComparison => True

def FilterError.Names (t : Text) (unbalanced : Prop) (e : FilterError) : Prop :=
  ∃ fault fragment, e = .malformed fault fragment ∧ fragment.IsPieceOf t ∧
    fault.IsToldOf fragment unbalanced

theorem Text.IsPieceOf.within (h : fragment.IsPieceOf t) (ht : t <:+: u) : fragment.IsPieceOf u :=
  ⟨h.ne_nil, h.trim_eq, h.isInfix.trans ht⟩

theorem Text.isPieceOf_trim (h : trim u ≠ []) (hu : u <:+: t) : (trim u).IsPieceOf t :=
  ⟨h, trim_trim u, (infix_trim u).trans hu⟩

theorem Fault.IsToldOf.mono (h : fault.IsToldOf fragment unbalanced)
    (hu : unbalanced → unbalanced') : fault.IsToldOf fragment unbalanced' := by
  cases fault with
  | unbalancedClosing | unbalancedOpening => exact hu h
  | _ => exact h

theorem FilterError.Names.within (h : e.Names t unbalanced) (ht : t <:+: u)
    (hu : unbalanced → unbalanced') : e.Names u unbalanced' := by
  obtain ⟨fault, fragment, he, hp, htold⟩ := h
  exact ⟨fault, fragment, he, hp.within ht, htold.mono hu⟩

theorem names_of_listValues {inside : Text} (hp : whole.IsPieceOf t)
    (h : listValues inside whole = .error e) : e.Names t False := by
  rw [listValues] at h
  split at h
  · cases h
    exact ⟨_, _, rfl, hp, trivial⟩
  · cases h

theorem Operand.names_of_read (hv : value <:+: t) (h : read op value = .error e) :
    e.Names t False := by
  rw [read] at h
  split at h
  · next hl =>
    have hopen : '(' ∈ trim value := by
      have hlist := hl.2
      simp only [isList, decide_eq_true_eq] at hlist
      exact hlist.2.1
    have hp : (trim value).IsPieceOf t := isPieceOf_trim (List.ne_nil_of_mem hopen) hv
    have h := eq_error_of_map_eq_error h
    rw [readList] at h
    split at h
    · exact names_of_listValues hp (eq_error_of_map_eq_error h)
    · cases h
      exact ⟨_, _, rfl, hp, trivial⟩
  · cases h

theorem Comparison.eq_of_split? (h : split? t = some (name, op, value)) :
    t = name ++ (spaced op.keyword ++ value) := by
  obtain ⟨op', -, h⟩ := List.exists_of_findSome?_eq_some h
  obtain ⟨⟨name', value'⟩, hs, he⟩ := Option.map_eq_some_iff.1 h
  cases he
  exact eq_of_splitOnce?_eq_some hs

namespace Condition

theorem names_of_readComparison (hp : whole.IsPieceOf whole) (ht : t <:+: whole)
    (hname : attributeMark <+: whole ∨ trim t = t) (h : readComparison t whole = .error e) :
    e.Names whole False := by
  rw [readComparison] at h
  split at h
  · next name op value hs =>
    have heq := Comparison.eq_of_split? hs
    split at h
    · next hn =>
      cases h
      refine ⟨_, _, rfl, hp, hname.resolve_right fun htrim ↦ ?_⟩
      rw [← htrim] at heq
      exact trim_ne_nil_of_append_space heq (List.isEmpty_iff.1 hn)
    · have hv : value <:+: t := ⟨name ++ spaced op.keyword, [], by simp [heq]⟩
      exact Operand.names_of_read (hv.trans ht) (eq_error_of_map_eq_error h)
  · dsimp only at h
    split at h
    · cases h
      exact ⟨_, _, rfl, hp, trivial⟩
    · cases h

theorem names_of_readOwn (hp : whole.IsPieceOf whole) (h : readOwn whole = .error e) :
    e.Names whole False := by
  rw [readOwn] at h
  split at h
  · next rest ha =>
    have hw := after?_eq_some_iff.1 ha
    have hrest : rest <:+: whole := ⟨attributeMark, [], by rw [List.append_nil, hw]⟩
    have hmark : attributeMark <+: whole := ⟨rest, hw.symm⟩
    exact names_of_readComparison hp hrest (.inl hmark) (eq_error_of_map_eq_error h)
  · exact names_of_readComparison hp List.infix_rfl (.inr hp.trim_eq) (eq_error_of_map_eq_error h)

theorem names_of_readTest {test : RelationTest} {rest : Text} (hp : whole.IsPieceOf whole)
    (hs : splitOnce? test.mark whole = some (name, rest)) (h : readTest test whole = .error e) :
    e.Names whole False := by
  have hw := eq_of_splitOnce?_eq_some hs
  rw [readTest_of_splitOnce? hs] at h
  split at h
  · rw [readPresent] at h
    split at h
    · cases h
    · cases h
      exact ⟨_, _, rfl, hp, trivial⟩
  · have hname : trim name ≠ [] := by
      obtain ⟨more, hm⟩ : ∃ more, test.mark = ' ' :: more := by cases test <;> exact ⟨_, rfl⟩
      rw [← hp.trim_eq, hm] at hw
      exact trim_ne_nil_of_append_space hw
    rw [readRelation, if_neg (by simpa using hname)] at h
    split at h
    · next inside hb =>
      have hne : trim rest ≠ [] := by
        intro hn
        rw [hn] at hb
        cases hb
      have hrest : rest <:+: whole := ⟨name ++ test.mark, [], by simp [hw]⟩
      exact names_of_listValues (isPieceOf_trim hne hrest) (eq_error_of_map_eq_error h)
    · cases h
      exact ⟨_, _, rfl, hp, trivial⟩

theorem names_of_read (hne : t ≠ []) (ht : trim t = t) (h : Condition.read t = .error e) :
    e.Names t False := by
  have hp : t.IsPieceOf t := ⟨hne, ht, List.infix_rfl⟩
  rw [Condition.read, ht] at h
  obtain ⟨test, name, rest, hs, hr⟩ | hr := readTrimmed_cases t
  · exact names_of_readTest hp hs (hr ▸ h)
  · exact names_of_readOwn hp (hr ▸ h)

end Condition

namespace Token

theorem isPieceOf_source (h : IsRange us) (hne : us ≠ []) (hu : us <:+: ts) :
    (source us).IsPieceOf (layout ts) :=
  ⟨h.source_ne_nil hne, h.trim_source, (source_suffix_layout us).isInfix.trans (infix_layout hu)⟩

theorem isToldOf_of_connectiveFault? {op? : Option Connective} {previous : List Token}
    {later : List (Connective × List Token)}
    (h : connectiveFault? op? previous later = some fault) : fault.IsToldOf fragment False := by
  induction later generalizing op? previous with
  | nil => cases h
  | cons range later ih =>
    obtain ⟨op, range⟩ := range
    rw [connectiveFault?] at h
    split at h
    · cases h
      trivial
    · split at h
      · cases h
        trivial
      · exact ih h

theorem ne_nil_of_layer_eq_error (h : layer ts = .error e) : ts ≠ [] := by
  rintro rfl
  cases h

/-- A layer fails with all of its tokens, or with those up to a parenthesis that closes nothing. -/
theorem names_of_layer (hr : IsRange ts) (h : layer ts = .error e) :
    e.Names (layout ts) (¬ Matched ts) := by
  have hp : (source ts).IsPieceOf (layout ts) :=
    isPieceOf_source hr (ne_nil_of_layer_eq_error h) List.infix_rfl
  unfold layer at h
  split at h
  · next fault hf =>
    cases h
    exact ⟨_, _, rfl, hp, (isToldOf_of_connectiveFault? hf).mono False.elim⟩
  · next seen hf hu =>
    cases h
    have hseen : seen <+: ts := (List.mem_inits seen ts).1 (List.mem_of_find?_eq_some hu)
    have hnone : depthAfter? 0 seen = none := by simpa using List.find?_some hu
    have hne : seen ≠ [] := by
      rintro rfl
      cases hnone
    refine ⟨_, _, rfl, isPieceOf_source (hr.within hseen.isInfix) hne hseen.isInfix, fun hm ↦ ?_⟩
    rw [toUnmatched?_eq_none (matched_iff.1 hm)] at hu
    cases hu
  · split at h
    · split at h
      · cases h
      · cases h
        exact ⟨_, _, rfl, hp, trivial⟩
      · cases h
    · next hb =>
      cases h
      refine ⟨_, _, rfl, hp, fun hm ↦ hb ?_⟩
      simpa [isBalanced] using matched_iff.1 hm

end Token

namespace Filter

theorem exists_of_ofLayer_eq_error {range : List Token → Except FilterError Filter} {l : Layer}
    (h : ofLayer range l = .error e) : ∃ r ∈ l.ranges, range r = .error e := by
  obtain ⟨op?, ranges⟩ := l
  cases ranges with
  | nil => cases op? <;> cases h
  | cons first ranges =>
    cases op? with
    | none => exact ⟨first, List.mem_cons_self, eq_error_of_map_eq_error h⟩
    | some op => exact exists_of_mapM_eq_error (eq_error_of_map_eq_error h)

section

variable {range : List Token → Except FilterError Filter} {nesting : Nat} {inside : List Token}

theorem names_of_bind_ofLayer (hr : IsRange ts)
    (each : ∀ us, IsRange us → us ≠ [] → range us = .error e → e.Names (layout us) False)
    (h : (layer ts >>= ofLayer range) = .error e) :
    layer ts = .error e ∧ e.Names (layout ts) (¬ Matched ts) ∨ e.Names (layout ts) False := by
  obtain he | ⟨l, hl, h⟩ := eq_error_or_exists_of_bind_eq_error h
  · exact .inl ⟨he, names_of_layer hr he⟩
  · obtain ⟨us, hus, he⟩ := exists_of_ofLayer_eq_error h
    obtain ⟨hne, hin⟩ := of_mem_ranges hl hus
    exact .inr ((each us (hr.within hin) hne he).within (infix_layout hin) id)

theorem names_of_enclosed? (he : enclosed? ts = some inside) (hr : IsRange ts)
    (each : ∀ us, IsRange us → us ≠ [] → range us = .error e → e.Names (layout us) False)
    (h : (layer inside >>= ofLayer range) = .error e) : e.Names (layout ts) False := by
  obtain ⟨first, close, rfl, -, -, hb⟩ := enclosed?_eq_some_iff.1 he
  have hin : inside <:+: first :: (inside ++ [close]) := ⟨[first], [close], by simp⟩
  have hm : Matched inside := matched_iff.2 (by simpa [isBalanced] using hb)
  obtain ⟨-, hnames⟩ | hnames := names_of_bind_ofLayer (hr.within hin) each h
  · exact hnames.within (infix_layout hin) fun hnot ↦ hnot hm
  · exact hnames.within (infix_layout hin) id

theorem names_of_read_source (hp : (source ts).IsPieceOf (layout ts))
    (h : (Condition.read (source ts)).map leaf = .error e) : e.Names (layout ts) False :=
  (Condition.names_of_read hp.ne_nil hp.trim_eq (eq_error_of_map_eq_error h)).within hp.isInfix id

theorem names_of_ofRange (hr : IsRange ts) (hne : ts ≠ []) (h : ofRange nesting ts = .error e) :
    e.Names (layout ts) False := by
  induction nesting generalizing ts with
  | zero =>
    have hp := isPieceOf_source hr hne List.infix_rfl
    cases he : enclosed? ts with
    | none => exact names_of_read_source hp (ofRange_of_enclosed?_eq_none he 0 ▸ h)
    | some inside =>
      rw [ofRange, he] at h
      cases h
      exact ⟨_, _, rfl, hp, trivial⟩
  | succ nesting ih =>
    have hp := isPieceOf_source hr hne List.infix_rfl
    cases he : enclosed? ts with
    | none => exact names_of_read_source hp (ofRange_of_enclosed?_eq_none he (nesting + 1) ▸ h)
    | some inside =>
      rw [ofRange_of_enclosed?_eq_some he] at h
      obtain h | ⟨filter?, -, h⟩ := eq_error_or_exists_of_bind_eq_error h
      · exact names_of_enclosed? he hr (fun us hus hne ↦ ih hus hne) h
      · cases filter? with
        | some filter => cases h
        | none =>
          cases h
          exact ⟨_, _, rfl, hp, trivial⟩

theorem names_of_ofTokens? (hr : IsRange ts) (h : ofTokens? ts = .error e) :
    layer ts = .error e ∧ e.Names (layout ts) (¬ Matched ts) ∨ e.Names (layout ts) False := by
  have each : ∀ us, IsRange us → us ≠ [] → ofRange maxNesting us = .error e →
      e.Names (layout us) False := fun us hus hne ↦ names_of_ofRange hus hne
  rw [ofTokens?] at h
  cases he : enclosed? ts with
  | none =>
    rw [he, Option.getD_none] at h
    exact names_of_bind_ofLayer hr each h
  | some inside =>
    rw [he, Option.getD_some] at h
    exact .inr (names_of_enclosed? he hr each h)

end

theorem names_of_read? (h : read? t = .error e) :
    e.Names t (¬ Matched (Token.read t) ∧ Level.ofText t = .error e) := by
  obtain ⟨rest, -, hr⟩ := exists_reads_read t
  have ht : layout (Token.read t) <:+: t := ⟨[], rest, hr.eq_layout_append.symm⟩
  rw [read?_eq_ofTokens?] at h
  obtain ⟨hl, hnames⟩ | hnames := names_of_ofTokens? (isRange_read t) h
  · refine hnames.within ht fun hm ↦ ⟨hm, ?_⟩
    rw [Level.ofText, Level.ofTokens_eq_layer, hl]
    rfl
  · exact hnames.within ht False.elim

end Filter

theorem Fault.message_of_isToldOf (h : fault.IsToldOf fragment unbalanced) :
    fault.message ∉ [.ofString "Invalid HAS_ANY condition", .ofString "Invalid IS_ANY condition",
        .ofString "Invalid EXISTS condition", .ofString "Missing relation name"] ∧
      (fault.message = .ofString "Missing name before operator" → attributeMark <+: fragment) ∧
      (ofString "Unbalanced" <+: fault.message → unbalanced) := by
  cases fault with
  | unbalancedClosing | unbalancedOpening =>
    exact ⟨by decide, fun hm ↦ absurd hm (by decide), fun _ ↦ h⟩
  | missingName => exact ⟨by decide, fun _ ↦ h, fun hm ↦ absurd hm (by decide)⟩
  | missingTest test | missingRelation | scalarForSet | setForScalar op | worded message =>
    exact h.elim
  | missingBefore op | missingAfter op =>
    cases op <;>
      exact ⟨by decide, fun hm ↦ absurd hm (by decide), fun hm ↦ absurd hm (by decide)⟩
  | missingList test =>
    cases test <;>
      exact ⟨by decide, fun hm ↦ absurd hm (by decide), fun hm ↦ absurd hm (by decide)⟩
  | mixedConnectives | emptyGroup | tooDeep | textAfterPresent | openedAfterClosed | emptyValue
  | noComparison =>
    exact ⟨by decide, fun hm ↦ absurd hm (by decide), fun hm ↦ absurd hm (by decide)⟩

/-- An error of reading is a fault of form that names a piece of the text. The keyword of a test
never goes astray and never lacks a name, a comparison lacks one only behind the words in front of an
attribute, and parentheses are unbalanced only in the text as a whole. -/
theorem Filter.exists_fragment_of_read? (h : read? t = .error e) :
    ∃ fault fragment, e = .malformed fault fragment ∧ fragment ≠ [] ∧ fragment <:+: t ∧
      (∀ c ∈ fragment.head?, isBlank c = false) ∧ (∀ c ∈ fragment.getLast?, isBlank c = false) ∧
      fault.message ∉ [.ofString "Invalid HAS_ANY condition", .ofString "Invalid IS_ANY condition",
        .ofString "Invalid EXISTS condition", .ofString "Missing relation name"] ∧
      (fault.message = .ofString "Missing name before operator" → attributeMark <+: fragment) ∧
      (ofString "Unbalanced" <+: fault.message →
        ¬ Matched (Token.read t) ∧ Level.ofText t = .error e) := by
  obtain ⟨fault, fragment, he, hp, htold⟩ := names_of_read? h
  refine ⟨fault, fragment, he, hp.ne_nil, hp.isInfix, fun c hc ↦ ?_, fun c hc ↦ ?_,
    Fault.message_of_isToldOf htold⟩
  · rw [← hp.trim_eq] at hc
    exact isBlank_of_mem_head?_trim hc
  · rw [← hp.trim_eq] at hc
    exact isBlank_of_mem_getLast?_trim hc

theorem Filter.exists_fragment_of_read?_nested :
    let t : Text := .ofString " title = x AND ( attribute: = 5 OR city = ')' )\t"
    let e : FilterError := .malformed .missingName (.ofString "attribute: = 5")
    read? t = .error e ∧ ofString "attribute: = 5" <:+: t ∧
      attributeMark <+: ofString "attribute: = 5" := by
  intro t e
  have h : read? (.ofString " title = x AND ( attribute: = 5 OR city = ')' )\t") =
      .error (.malformed .missingName (.ofString "attribute: = 5")) := by with_unfolding_all rfl
  obtain ⟨fault, fragment, he, -, inside, -, -, -, behind, -⟩ := exists_fragment_of_read? h
  obtain ⟨rfl, rfl⟩ := FilterError.malformed.inj he
  exact ⟨h, inside, behind rfl⟩

end ListingFilter
