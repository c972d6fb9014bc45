import ListingFilter.Proofs.Filter.Nesting
import ListingFilter.Proofs.Token.Enclosing
import Mathlib

namespace ListingFilter

open Text Token

variable {g g' t s u : Text} {m : Nat} {f : Filter} {op : Connective} {level : Level}
  {former others : List Text} {ts : List Token}

/-- A text in pairs of parentheses, the outermost first, each with blanks of its own inside. -/
def Text.nested (t : Text) : List (Text × Text) → Text
  | [] => t
  | (g, g') :: pairs => grouped (g ++ (nested t pairs ++ g'))

theorem Token.Layer.level_flushed (l : Layer) : l.flushed.level = l.level := by
  obtain ⟨op?, ranges⟩ := l
  cases ranges with
  | nil => rfl
  | cons first ranges => simp [flushed, level, source_flush]

theorem Level.ofTokens_flush (ts : List Token) : ofTokens (flush ts) = ofTokens ts := by
  rw [ofTokens_eq_layer, ofTokens_eq_layer, layer_flush]
  cases layer ts with
  | error e => rfl
  | ok l => exact congrArg Except.ok l.level_flushed

theorem Level.ofText_congr (h : flush (Token.read t) = flush (Token.read u)) :
    ofText t = ofText u := by
  rw [ofText, ofText, ← ofTokens_flush, h, ofTokens_flush]

theorem Level.ofText_source (hr : IsRange ts) (hne : ts ≠ []) (hs : IsSealed ts) :
    ofText (source ts) = .ok ⟨none, [source ts]⟩ := by
  rw [ofText, hr.read_source, ofTokens_flush, ofTokens_eq_layer, layer_of_isSealed hne hs]
  rfl

theorem Token.flush_read_between (hg : AllBlank g) (hg' : AllBlank g') (t : Text) :
    flush (read (g ++ (t ++ g'))) = flush (read t) := by
  rw [flush_read_blank_append hg, read_append_blank hg']

theorem Token.exists_isGroupOf (t : Text) :
    ∃ group, read (grouped t) = group ∧ IsGroupOf group (read t) ∧ source group = grouped t := by
  obtain ⟨group, hgroup, hr⟩ := exists_reads_grouped (g := []) allBlank_nil t []
    fun _ _ c _ ↦ List.not_mem_nil
  have hs := hr.source_append hgroup.ne_nil
  simp only [List.append_nil, List.nil_append] at hr hs
  refine ⟨group, hr.read_eq_of_allBlank allBlank_nil, hgroup, hs.trans ?_⟩
  exact List.dropWhile_cons_of_neg (by decide)

namespace Filter

theorem exists_inner?_grouped (h : Level.ofText t = .ok level) :
    ∃ inner, Group.inner? (grouped t) = some inner ∧ Level.ofText inner = .ok level := by
  obtain ⟨l, hl, -⟩ := Level.exists_of_ofText h
  obtain ⟨group, hr, hgroup, -⟩ := exists_isGroupOf t
  obtain ⟨inner, hi, hread⟩ := inner?_of_enclosed? (hr ▸ hgroup.enclosed?_eq (balanced_of_layer hl))
  refine ⟨inner, hi, ?_⟩
  rw [← h, Level.ofText, hread, Level.ofText]

theorem ofText_grouped (h : Level.ofText t = .ok level) :
    Level.ofText (grouped t) = .ok ⟨none, [grouped t]⟩ := by
  obtain ⟨l, hl, -⟩ := Level.exists_of_ofText h
  obtain ⟨group, hr, hgroup, hs⟩ := exists_isGroupOf t
  rw [← hs]
  exact Level.ofText_source (hr ▸ isRange_read (grouped t)) hgroup.ne_nil
    (hgroup.isSealed (balanced_of_layer hl))

theorem exists_ofText_of_limited (h : ∀ n, Limited (m ≤ n) (some f) (within n t)) :
    ∃ level, Level.ofText t = .ok level := by
  obtain ⟨level, hl, -⟩ := exists_of_bind_eq_ok ((h m).eq_ok le_rfl)
  exact ⟨level, hl⟩

theorem within_eq_map (h : Level.ofText t = .ok ⟨none, [s]⟩) (n : Nat) :
    within n t = (ofSegment n s).map some :=
  within_of_ofText h n

theorem limited_grouped (h : ∀ n, Limited (m ≤ n) (some f) (within n t)) (n : Nat) :
    Limited (m + 1 ≤ n) f (ofSegment n (grouped t)) := by
  obtain ⟨level, hl⟩ := exists_ofText_of_limited h
  obtain ⟨inner, hi, hinner⟩ := exists_inner?_grouped hl
  refine limited_group hi (fun n ↦ ?_) n
  rw [within_of_ofText hinner, ← within_of_ofText hl]
  exact h n

theorem limited_between (hg : AllBlank g) (hg' : AllBlank g')
    (h : ∀ n, Limited (m ≤ n) (some f) (within n t)) (n : Nat) :
    Limited (m ≤ n) (some f) (within n (g ++ (t ++ g'))) := by
  rw [within, Level.ofText_congr (flush_read_between hg hg' t)]
  exact h n

theorem limited_nested {pairs : List (Text × Text)} (h : ∀ n, Limited (m ≤ n) (some f) (within n t))
    (blank : ∀ pair ∈ pairs, AllBlank pair.1 ∧ AllBlank pair.2) (n : Nat) :
    Limited (pairs.length + m ≤ n) (some f) (within n (t.nested pairs)) := by
  induction pairs generalizing n with
  | nil => exact (h n).of_iff (by simp)
  | cons pair pairs ih =>
    obtain ⟨⟨hg, hg'⟩, others⟩ := List.forall_mem_cons.1 blank
    have inside := limited_between hg hg' (ih others)
    obtain ⟨level, hl⟩ := exists_ofText_of_limited inside
    rw [nested, within_eq_map (ofText_grouped hl)]
    refine ((limited_grouped inside n).map some).of_iff ?_
    rw [List.length_cons, Nat.add_right_comm]

def topLevel (t : Text) : Except FilterError Level := Level.ofText ((Group.inner? t).getD t)

theorem read?_of_topLevel {l : Level} (h : topLevel t = .ok l) :
    read? t = ofLevel (ofSegment maxNesting) l := by
  rw [topLevel] at h
  exact within_of_ofText h maxNesting

theorem limited_read?_nested {pairs : List (Text × Text)} (hi : Group.inner? t = none)
    (h : read? t = .ok (some f)) (hne : pairs ≠ [])
    (blank : ∀ pair ∈ pairs, AllBlank pair.1 ∧ AllBlank pair.2) :
    Limited (pairs.length - 1 + nesting t ≤ 64) (some f) (read? (t.nested pairs)) := by
  rw [read?, hi, Option.getD_none] at h
  cases pairs with
  | nil => exact absurd rfl hne
  | cons pair pairs =>
    obtain ⟨⟨hg, hg'⟩, others⟩ := List.forall_mem_cons.1 blank
    have inside := limited_between hg hg' (limited_nested (limited_within h) others)
    obtain ⟨l, hl⟩ := exists_ofText_of_limited inside
    obtain ⟨inner, hinner, hl'⟩ := exists_inner?_grouped hl
    have hlevel : topLevel (t.nested (pair :: pairs)) = .ok l := by
      rw [nested, topLevel, hinner, Option.getD_some, hl']
    rw [read?_of_topLevel hlevel, ← within_of_ofText hl]
    exact inside maxNesting

theorem topLevel_eq (t : Text) :
    topLevel t = (layer ((enclosed? (Token.read t)).getD (Token.read t))).map Layer.level := by
  rw [topLevel, Level.ofText, Level.ofTokens_eq_layer]
  cases he : enclosed? (Token.read t) with
  | none => rw [inner?_eq_none he, Option.getD_none, Option.getD_none]
  | some inside =>
    obtain ⟨inner, hi, hread⟩ := inner?_of_enclosed? he
    rw [hi, Option.getD_some, Option.getD_some, hread]

theorem exists_joins_of_topLevel (h : topLevel t = .ok ⟨some op, former ++ s :: others⟩) :
    ∃ (formerRanges : List (List Token)) (range : List Token) (otherRanges : List (List Token)),
      Joins op (formerRanges ++ range :: otherRanges)
        ((enclosed? (Token.read t)).getD (Token.read t)) ∧
      2 ≤ (formerRanges ++ range :: otherRanges).length ∧
      formerRanges.map source = former ∧ source range = s ∧ otherRanges.map source = others := by
  rw [topLevel_eq] at h
  obtain ⟨⟨op?, ranges⟩, hl, he⟩ := exists_of_map_eq_ok h
  obtain ⟨rfl, hranges⟩ := Level.mk.inj he
  obtain ⟨formerRanges, behind, rfl, hformer, hbehind⟩ := List.map_eq_append_iff.1 hranges
  obtain ⟨range, otherRanges, rfl, hs, hothers⟩ := List.map_eq_cons_iff.1 hbehind
  exact ⟨formerRanges, range, otherRanges, joins_of_layer hl, two_le_length_ranges hl rfl, hformer,
    hs, hothers⟩

theorem exists_topLevel_grouped (h : topLevel t = .ok ⟨some op, former ++ s :: others⟩) :
    Level.ofText s = .ok ⟨none, [s]⟩ ∧ ∃ front back : Text, t = front ++ (s ++ back) ∧
      topLevel (front ++ (grouped s ++ back)) = .ok ⟨some op, former ++ grouped s :: others⟩ := by
  obtain ⟨formerRanges, range, otherRanges, hj, two, rfl, rfl, rfl⟩ := exists_joins_of_topLevel h
  have hne : range ≠ [] := hj.forall_ne_nil range (by simp)
  have hsealed : IsSealed range := hj.isSealed_of_mem (by simp)
  obtain ⟨lead, trail, hts, around⟩ := exists_around (Token.read t)
  obtain ⟨before, behind, hinside, replaced⟩ := hj.exists_replace
  have hread : Token.read t = (lead ++ before) ++ (range ++ (behind ++ trail)) := by
    rw [hts, hinside]
    simp
  have hrange : IsRange range :=
    (isRange_read t).within ⟨lead ++ before, behind ++ trail, by rw [hread]; simp⟩
  refine ⟨Level.ofText_source hrange hne hsealed, ?_⟩
  obtain ⟨rest, hrest, hr⟩ := exists_reads_read t
  rw [hread] at hr
  obtain ⟨front, back, group, ht, hgroup, hs, hr⟩ := hr.enclose hne
  have hread' : Token.read (front ++ (grouped (source range) ++ back)) =
      lead ++ ((before ++ (group ++ behind)) ++ trail) := by
    rw [hr.read_eq_of_allBlank hrest]
    simp
  have hb : depthAfter? 0 (flush range) = some 0 := by
    rw [depthAfter?_flush]
    exact hsealed.balanced
  have hj' := replaced group hgroup.ne_nil (hgroup.isSealed hb)
  have two' : 2 ≤ (formerRanges ++ group :: otherRanges).length := by simpa using two
  refine ⟨front, back, ht, ?_⟩
  rw [topLevel_eq, hread', around _ hj'.balanced (enclosed?_eq_none_of_joins hj' two'),
    layer_of_joins hj' two']
  simp [Layer.level, Except.map, hs]

theorem ofLevel_join {k : Text → Except FilterError Filter} (op : Connective) (former : List Text)
    (s : Text) (others : List Text) :
    ofLevel k ⟨some op, former ++ s :: others⟩ =
      ((former ++ s :: others).mapM k).map fun parts ↦ some (join op parts) := by
  cases former <;> rfl

/-- A pair of parentheses around one of several segments needs room for one level more than the
segment. -/
theorem limited_read?_grouped (h : read? t = .ok (some f))
    (ht : topLevel t = .ok ⟨some op, former ++ s :: others⟩)
    (hu : topLevel u = .ok ⟨some op, former ++ grouped s :: others⟩) :
    Limited (segmentNesting s + 1 ≤ 64) (some f) (read? u) := by
  rw [read?_of_topLevel ht, ofLevel_join] at h
  obtain ⟨parts, hparts, he⟩ := exists_of_map_eq_ok h
  cases he
  rw [read?_of_topLevel hu, ofLevel_join]
  refine Limited.map ?_ fun parts ↦ some (join op parts)
  obtain ⟨bs, b, ds, rfl, hbs, hb, hds⟩ := exists_of_mapM_append_cons hparts
  rw [mapM_append_cons hbs hds]
  refine Limited.map ?_ fun b ↦ bs ++ b :: ds
  refine limited_grouped (fun n ↦ ?_) maxNesting
  rw [within_eq_map (exists_topLevel_grouped ht).1]
  exact (limited_ofSegment hb n).map some

/-- Redundant parentheses change nothing where there is room for them: the outermost pair around a
whole filter needs none, every other pair one level more than what it encloses. Without the room the
filter is refused. -/
theorem read?_parenthesized (h : read? t = .ok (some f)) :
    (Group.inner? t = none → ∀ pairs : List (Text × Text), pairs ≠ [] →
      (∀ pair ∈ pairs, AllBlank pair.1 ∧ AllBlank pair.2) →
        (read? (t.nested pairs) = .ok (some f) ↔ pairs.length - 1 + nesting t ≤ 64) ∧
          (64 < pairs.length - 1 + nesting t → IsTooDeep (read? (t.nested pairs)))) ∧
      ∀ op former s others, topLevel t = .ok ⟨some op, former ++ s :: others⟩ →
        (∃ front back : Text, t = front ++ (s ++ back) ∧
          topLevel (front ++ (grouped s ++ back)) =
            .ok ⟨some op, former ++ grouped s :: others⟩) ∧
          ∀ u, topLevel u = .ok ⟨some op, former ++ grouped s :: others⟩ →
            (read? u = .ok (some f) ↔ segmentNesting s + 1 ≤ 64) ∧
              (64 < segmentNesting s + 1 → IsTooDeep (read? u)) := by
  constructor
  · intro hi pairs hne blank
    have whole := limited_read?_nested hi h hne blank
    exact ⟨whole.eq_ok_iff, fun hlt ↦ whole.isTooDeep (Nat.not_le_of_lt hlt)⟩
  · intro op former s others ht
    refine ⟨(exists_topLevel_grouped ht).2, fun u hu ↦ ?_⟩
    have segment := limited_read?_grouped h ht hu
    exact ⟨segment.eq_ok_iff, fun hlt ↦ segment.isTooDeep (Nat.not_le_of_lt hlt)⟩

theorem read?_parenthesized_limit :
    let t : Text := .ofString "(title = x) OR city = ')'"
    let f : Filter := .join .or [.leaf (.onField (.ofString "title") .equal (.scalar ['x'])),
      .leaf (.onField (.ofString "city") .equal (.scalar [')']))]
    let pairs (k : Nat) : List (Text × Text) := List.replicate k ([], [' '])
    read? t = .ok (some f) ∧ nesting t = 1 ∧
      read? (t.nested (pairs 64)) = .ok (some f) ∧ IsTooDeep (read? (t.nested (pairs 65))) ∧
      read? (.ofString "((title = x)) OR city = ')'") = .ok (some f) := by
  have computed : (read? (.ofString "(title = x) OR city = ')'"),
      Group.inner? (.ofString "(title = x) OR city = ')'"),
      topLevel (.ofString "(title = x) OR city = ')'"),
      topLevel (.ofString "((title = x)) OR city = ')'"),
      Group.inner? (.ofString "(title = x)"), Level.ofText (.ofString "title = x"),
      Group.inner? (.ofString "title = x"), Group.inner? (.ofString "city = ')'")) =
    (.ok (some (.join .or [.leaf (.onField (.ofString "title") .equal (.scalar ['x'])),
        .leaf (.onField (.ofString "city") .equal (.scalar [')']))])), none,
      .ok ⟨some .or, [] ++ .ofString "(title = x)" :: [.ofString "city = ')'"]⟩,
      .ok ⟨some .or, [] ++ .ofString "((title = x))" :: [.ofString "city = ')'"]⟩,
      some (.ofString "title = x"), .ok ⟨none, [.ofString "title = x"]⟩, none, none) := by cbv
  simp only [Prod.mk.injEq] at computed
  obtain ⟨parsed, notEnclosed, segments, moreSegments, enclosed, single, leaf, last⟩ := computed
  have inside : nesting (.ofString "title = x") = 0 := by
    simp [nesting_eq single, segmentNesting_of_inner?_eq_none leaf]
  have first : segmentNesting (.ofString "(title = x)") = 1 := by
    rw [segmentNesting_of_inner?_eq_some enclosed, inside]
  have second : segmentNesting (.ofString "city = ')'") = 0 :=
    segmentNesting_of_inner?_eq_none last
  have deep : nesting (.ofString "(title = x) OR city = ')'") = 1 := by
    rw [topLevel, notEnclosed, Option.getD_none] at segments
    simp [nesting_eq segments, first, second]
  intro t f pairs
  have blank : ∀ k, ∀ pair ∈ pairs k, AllBlank pair.1 ∧ AllBlank pair.2 := by
    intro k pair hp
    rw [List.eq_of_mem_replicate hp]
    exact ⟨allBlank_nil, allBlank_space⟩
  obtain ⟨whole, segment⟩ := read?_parenthesized parsed
  refine ⟨parsed, deep, ?_, ?_, ?_⟩
  · refine (whole notEnclosed (pairs 64) (List.cons_ne_nil _ _) (blank 64)).1.2 ?_
    exact (congrArg (64 - 1 + ·) deep).le
  · refine (whole notEnclosed (pairs 65) (List.cons_ne_nil _ _) (blank 65)).2 ?_
    exact (congrArg (65 - 1 + ·) deep).ge
  · refine ((segment .or [] _ _ segments).2 _ moreSegments).1.2 ?_
    rw [first]
    decide

end Filter

end ListingFilter
