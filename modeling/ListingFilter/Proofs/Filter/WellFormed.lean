import ListingFilter.Proofs.Filter.Keyword
import ListingFilter.Proofs.Filter.Plain
import ListingFilter.Proofs.Filter.SingleReading
import ListingFilter.Proofs.Sql.Refusal

namespace ListingFilter

open Text Token

variable {t u name whole value inside : Text} {op op' : Comparison} {operand : Operand}
  {values : List Text}

structure IsName (t : Text) : Prop where
  ne_nil : t ≠ []
  trim_eq : trim t = t

structure IsValueList (values : List Text) : Prop where
  ne_nil : values ≠ []
  isValue : ∀ value ∈ values, value ≠ [] ∧ ',' ∉ value

def Operand.IsWellFormed (op : Comparison) : Operand → Prop
  | scalar _ => op ≠ .oneOf
  | set values => op = .oneOf ∧ IsValueList values

def Condition.IsWellFormed : Condition → Prop
  | onField name op operand | onAttribute name op operand =>
    IsName name ∧ operand.IsWellFormed op
  | onRelation name .present values => IsName name ∧ values = []
  | onRelation name .hasAny values | onRelation name .isAny values =>
    IsName name ∧ IsValueList values

inductive Filter.IsWellFormed : Filter → Prop
  | leaf {c : Condition} (h : c.IsWellFormed) : IsWellFormed (leaf c)
  | join {op : Connective} {parts : List Filter} (two : 2 ≤ parts.length)
    (h : ∀ part ∈ parts, IsWellFormed part) : IsWellFormed (join op parts)

theorem isName_trim (h : trim t ≠ []) : IsName (trim t) := ⟨h, trim_trim t⟩

theorem isName_of_isEmpty_eq_false (h : ¬ (trim t).isEmpty = true) : IsName (trim t) :=
  isName_trim fun hn ↦ h (List.isEmpty_iff.2 hn)

theorem Text.mem_of_mem_unquote? {c : Char} (h : unquote? t = some u) (hc : c ∈ u) : c ∈ t := by
  have inside (q : Char) (h : between? q q t = some u) : c ∈ t := by
    cases t with
    | nil => cases h
    | cons d t =>
      rw [between?, Option.ite_none_right_eq_some] at h
      obtain ⟨-, he⟩ := h
      cases he
      exact List.mem_cons_of_mem d (List.mem_of_mem_dropLast hc)
  rcases Option.or_eq_some_iff.1 h with h | ⟨-, h⟩
  · exact inside '\'' h
  · exact inside '"' h

theorem Text.mem_of_mem_clean {c : Char} (hc : c ∈ clean t) : c ∈ t := by
  apply mem_of_mem_trim
  cases hu : unquote? t.trim with
  | none => rwa [clean_of_unquote?_eq_none hu] at hc
  | some u =>
    rw [clean_of_unquote?_eq_some hu] at hc
    exact mem_of_mem_unquote? hu hc

theorem isValueList_of_listValues (h : listValues inside whole = .ok values) :
    IsValueList values := by
  simp only [listValues] at h
  split at h
  · cases h
  · next hne =>
    cases h
    refine ⟨by simp [pieces_ne_nil], fun value hv ↦ ⟨?_, fun hc ↦ ?_⟩⟩
    · rintro rfl
      exact hne (List.any_eq_true.2 ⟨[], hv, rfl⟩)
    · obtain ⟨piece, hp, rfl⟩ := List.mem_map.1 hv
      exact not_mem_of_mem_pieces hp (mem_of_mem_clean hc)

theorem Operand.isWellFormed_of_read (hop : op ≠ .oneOf) (h : read op value = .ok (op', operand)) :
    operand.IsWellFormed op' := by
  rw [read] at h
  split at h
  · obtain ⟨operand, hr, he⟩ := exists_of_map_eq_ok h
    cases he
    rw [readList] at hr
    split at hr
    · obtain ⟨values, hv, rfl⟩ := exists_of_map_eq_ok hr
      exact ⟨rfl, isValueList_of_listValues hv⟩
    · cases hr
  · cases h
    exact hop

theorem Comparison.ne_oneOf_of_split? (h : split? t = some (name, op, value)) : op ≠ .oneOf := by
  obtain ⟨op', hop, h⟩ := List.exists_of_findSome?_eq_some h
  obtain ⟨_, _, he⟩ := Option.map_eq_some_iff.1 h
  cases he
  rintro rfl
  exact absurd hop (by decide)

theorem isName_first_word (h : trim t ≠ []) : IsName ((trim t).takeWhile (!isBlank ·)) := by
  obtain ⟨c, rest, ht⟩ := List.exists_cons_of_ne_nil h
  have hc : isBlank c = false := isBlank_of_mem_head?_trim (t := t) (by rw [ht]; rfl)
  have solid : ∀ d ∈ (trim t).takeWhile (!isBlank ·), isBlank d = false := by
    intro d hd
    simpa using List.mem_takeWhile_imp hd
  refine ⟨by simp [ht, hc], trim_eq_self (fun d hd ↦ solid d ?_) fun d hd ↦ solid d ?_⟩
  · exact List.mem_of_mem_head? hd
  · exact List.mem_of_mem_getLast? hd

namespace Condition

theorem isWellFormed_of_readComparison (h : readComparison t whole = .ok (name, op, operand)) :
    IsName name ∧ operand.IsWellFormed op := by
  rw [readComparison] at h
  split at h
  · next hs =>
    split at h
    · cases h
    · next hn =>
      obtain ⟨⟨op, operand⟩, hr, he⟩ := exists_of_map_eq_ok h
      cases he
      exact ⟨isName_of_isEmpty_eq_false hn,
        Operand.isWellFormed_of_read (Comparison.ne_oneOf_of_split? hs) hr⟩
  · dsimp only at h
    split at h
    · cases h
    · next hv =>
      cases h
      refine ⟨isName_first_word fun hn ↦ hv ?_, by simp [Operand.IsWellFormed]⟩
      rw [hn]
      rfl

theorem isWellFormed_of_readRelation {test : RelationTest} {c : Condition} (ht : test ≠ .present)
    (h : readRelation test name value whole = .ok c) : c.IsWellFormed := by
  rw [readRelation] at h
  split at h
  · cases h
  · next hn =>
    split at h
    · obtain ⟨values, hv, rfl⟩ := exists_of_map_eq_ok h
      have values := isValueList_of_listValues hv
      cases test with
      | present => exact absurd rfl ht
      | hasAny | isAny => exact ⟨isName_of_isEmpty_eq_false hn, values⟩
    · cases h

theorem isWellFormed_of_readPresent {rest : Text} {c : Condition}
    (hs : trim t = name ++ ' ' :: rest) (h : readPresent name u whole = .ok c) :
    c.IsWellFormed := by
  rw [readPresent] at h
  split at h
  · cases h
    exact ⟨isName_trim (trim_ne_nil_of_append_space hs), rfl⟩
  · cases h

theorem isWellFormed_of_readOwn {c : Condition} (h : readOwn t = .ok c) : c.IsWellFormed := by
  rw [readOwn] at h
  split at h
  all_goals
    obtain ⟨⟨name, op, operand⟩, hr, rfl⟩ := exists_of_map_eq_ok h
    exact isWellFormed_of_readComparison hr

theorem isWellFormed_of_read {c : Condition} (h : Condition.read t = .ok c) : c.IsWellFormed := by
  rw [Condition.read] at h
  obtain ⟨test, name, rest, hs, ht⟩ | ht := readTrimmed_cases t.trim
  · rw [ht, readTest_of_splitOnce? hs] at h
    split at h
    · next hp =>
      subst hp
      exact isWellFormed_of_readPresent (eq_of_splitOnce?_eq_some hs) h
    · next hp => exact isWellFormed_of_readRelation hp h
  · exact isWellFormed_of_readOwn (ht ▸ h)

end Condition

namespace Filter

variable {nesting depth : Nat} {n : Filter} {ts : List Token} {l : Layer}
  {range : List Token → Except FilterError Filter}

theorem isWellFormed_of_ofLayer (hl : layer ts = .ok l) (h : ofLayer range l = .ok (some n))
    (hr : ∀ us m, range us = .ok m → m.IsWellFormed ∧ m.depth ≤ depth) :
    n.IsWellFormed ∧ n.depth ≤ depth + 1 := by
  obtain ⟨op?, ranges⟩ := l
  cases ranges with
  | nil => cases op? <;> cases h
  | cons first ranges =>
    cases op? with
    | none =>
      obtain ⟨m, hm, he⟩ := exists_of_map_eq_ok h
      cases he
      obtain ⟨hw, hd⟩ := hr first n hm
      exact ⟨hw, Nat.le_succ_of_le hd⟩
    | some op =>
      obtain ⟨parts, hp, he⟩ := exists_of_map_eq_ok h
      cases he
      have each := mapM_eq_ok_iff.1 hp
      have sides : List.Forall₂ (fun part us ↦ range us = .ok part) parts (first :: ranges) :=
        each.flip
      have inside := ((List.forall₂_and_left parts _).1
        (sides.imp fun part us h ↦ ⟨hr us part h, h⟩)).1
      have two : 2 ≤ parts.length := each.length_eq ▸ two_le_length_ranges hl rfl
      refine ⟨.join two fun part hm ↦ (inside part hm).1, ?_⟩
      rw [Filter.depth, Nat.add_le_add_iff_right, depths_le_iff]
      exact fun part hm ↦ (inside part hm).2

theorem isWellFormed_of_read_source (h : (Condition.read (source ts)).map leaf = .ok n)
    (nesting : Nat) : n.IsWellFormed ∧ n.depth ≤ nesting := by
  obtain ⟨c, hc, rfl⟩ := exists_of_map_eq_ok h
  exact ⟨.leaf (Condition.isWellFormed_of_read hc), Nat.zero_le nesting⟩

theorem isWellFormed_of_ofRange (h : ofRange nesting ts = .ok n) :
    n.IsWellFormed ∧ n.depth ≤ nesting := by
  induction nesting generalizing ts n with
  | zero =>
    cases he : enclosed? ts with
    | none =>
      rw [ofRange_of_enclosed?_eq_none he] at h
      exact isWellFormed_of_read_source h 0
    | some inside =>
      rw [ofRange, he] at h
      cases h
  | succ nesting ih =>
    cases he : enclosed? ts with
    | none =>
      rw [ofRange_of_enclosed?_eq_none he] at h
      exact isWellFormed_of_read_source h (nesting + 1)
    | some inside =>
      rw [ofRange_of_enclosed?_eq_some he] at h
      obtain ⟨filter?, hf, h⟩ := exists_of_bind_eq_ok h
      obtain ⟨l, hl, hf⟩ := exists_of_bind_eq_ok hf
      cases filter? with
      | none => cases h
      | some m =>
        cases h
        exact isWellFormed_of_ofLayer hl hf fun us m hm ↦ ih hm

theorem IsWellFormed.of_mem_leaves {c : Condition} (h : n.IsWellFormed) (hc : c ∈ n.leaves) :
    c.IsWellFormed := by
  induction n with
  | leaf c' =>
    cases h with
    | leaf h =>
      rw [leaves, List.mem_singleton] at hc
      exact hc ▸ h
  | join op parts ih =>
    cases h with
    | join _ h =>
      obtain ⟨part, hp, hc⟩ := mem_leaves_join_iff.1 hc
      exact ih part hp (h part hp) hc

end Filter

section

variable {π : Type} {resolve : Resolver} {store : Store π} {e : FilterError} {column : Column}

def Store.Fails (store : Store π) (e : FilterError) : Prop :=
  ∃ relation filter?, store.has relation filter? = .error e

theorem Operand.IsWellFormed.comparison_ne_error (h : operand.IsWellFormed op) :
    store.comparison column op operand ≠ .error e := by
  rw [ne_eq, ← error?_eq_some_iff, Store.error?_comparison]
  cases operand with
  | scalar value => simp [refusal?, show op ≠ .oneOf from h]
  | set values => simp [refusal?, h.1]

theorem Store.fails_of_location {value : Text} (h : store.location value = .error e) :
    store.Fails e := by
  rw [location] at h
  split at h
  · cases h
  · exact ⟨_, _, h⟩

theorem Store.fails_of_relation {test : RelationTest} (h : store.relation name test values = .error e) :
    store.Fails e := by
  cases test with
  | present => exact ⟨name, none, h⟩
  | hasAny => exact ⟨name, _, h⟩
  | isAny =>
    rw [relation] at h
    split at h
    · obtain ⟨value, -, hv⟩ := exists_of_mapM_eq_error (eq_error_of_map_eq_error h)
      exact fails_of_location hv
    · exact ⟨name, _, h⟩

theorem Store.fails_of_attributeValue {a : Attribute} (hw : operand.IsWellFormed op)
    (h : store.attributeValue a op operand = .error e) : store.Fails e := by
  rw [attributeValue] at h
  cases hv : store.comparison attributeValueColumn op operand with
  | error e' => exact absurd hv hw.comparison_ne_error
  | ok value =>
    rw [hv] at h
    exact ⟨attributeValues, _, h⟩

theorem Condition.IsWellFormed.fails_of_compile {c : Condition} (hw : c.IsWellFormed)
    (h : (c.compile resolve store).result = .error e) :
    (∃ name ∈ (c.compile resolve store).lookups, resolve name = .error e) ∨ store.Fails e := by
  cases c with
  | onField name op operand =>
    rw [← error?_eq_some_iff] at h
    have hc := (error?_map _ _).symm.trans h
    exact absurd (error?_eq_some_iff.1 hc) hw.2.comparison_ne_error
  | onRelation name test values =>
    rw [← error?_eq_some_iff] at h
    have hr := (error?_map _ _).symm.trans h
    exact .inr (Store.fails_of_relation (error?_eq_some_iff.1 hr))
  | onAttribute name op operand =>
    rw [Condition.lookups_compile]
    simp only [compile, Traced.result_bind, Traced.lookUp] at h
    cases hn : resolve name with
    | error e' =>
      rw [hn] at h
      cases h
      exact .inl ⟨name, List.mem_singleton_self name, hn⟩
    | ok a? =>
      rw [hn] at h
      cases a? with
      | none => cases h
      | some a =>
        have ha := (error?_map _ _).symm.trans (error?_eq_some_iff.2 h)
        exact .inr (Store.fails_of_attributeValue hw.2 (error?_eq_some_iff.1 ha))

end

/-- What is read is well formed and not too deep, and so it compiles on every store, but for errors
of the resolver and of the store. -/
theorem Filter.isWellFormed_of_read? {t : Text} {n : Filter} (h : read? t = .ok (some n)) :
    n.IsWellFormed ∧ n.depth ≤ 65 ∧
      ∀ (π : Type) (resolve : Resolver) (store : Store π) (e : FilterError),
        (n.compile resolve store).result = .error e →
          (∃ name ∈ (n.compile resolve store).lookups, resolve name = .error e) ∨
            ∃ relation filter?, store.has relation filter? = .error e := by
  have formed : n.IsWellFormed ∧ n.depth ≤ 65 := by
    rw [read?_eq_ofTokens?] at h
    obtain ⟨l, hl, h⟩ := exists_of_bind_eq_ok h
    exact isWellFormed_of_ofLayer hl h fun us m hm ↦ isWellFormed_of_ofRange hm
  refine ⟨formed.1, formed.2, fun π resolve store e he ↦ ?_⟩
  obtain ⟨step, hstep, hfail, hlookups⟩ :=
    (n.follows_leaves resolve store).exists_mem_of_eq_error he
  obtain ⟨c, hc, rfl⟩ := List.mem_map.1 hstep
  obtain ⟨name, hname, hr⟩ | hstore := (formed.1.of_mem_leaves hc).fails_of_compile hfail
  · exact .inl ⟨name, hlookups hname, hr⟩
  · exact .inr hstore

theorem Filter.isWellFormed_of_read?_nested :
    let n : Filter := .join .or [.leaf (.onField (.ofString "title") .oneOf (.set [['x'], ['y']])),
      .join .and [.leaf (.onRelation (.ofString "languages") .present []),
        .leaf (.onAttribute (.ofString "level") .greater (.scalar ['1']))]]
    let resolve : Resolver := fun name ↦ .error (.catalog name)
    read? (.ofString "title = (x, y) OR (languages EXISTS AND attribute:level > 1)") = .ok (some n) ∧
      n.IsWellFormed ∧ n.depth ≤ 65 ∧
      ∃ e, (n.compile resolve Schema.default.store).result = .error e ∧
        ((∃ name ∈ (n.compile resolve Schema.default.store).lookups, resolve name = .error e) ∨
          ∃ relation filter?, Schema.default.store.has relation filter? = .error e) := by
  intro n resolve
  have h : read? (.ofString "title = (x, y) OR (languages EXISTS AND attribute:level > 1)") =
      .ok (some n) := by with_unfolding_all rfl
  obtain ⟨formed, shallow, origin⟩ := isWellFormed_of_read? h
  exact ⟨h, formed, shallow, .catalog (.ofString "level"), rfl, origin _ resolve _ _ rfl⟩

end ListingFilter
