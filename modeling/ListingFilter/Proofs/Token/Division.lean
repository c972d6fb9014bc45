import ListingFilter.Proofs.Token.Enclosing

namespace ListingFilter.Token

variable {depth d : Nat} {op op' op'' : Connective} {t t' separator : Token}
  {ts us before before' behind behind' : List Token} {ranges : List (List Token)} {l : Layer}

def opened (ts : List Token) : Nat := ts.countP (·.kind = .opening)

def closed (ts : List Token) : Nat := ts.countP (·.kind = .closing)

/-- No tokens up to a place close more parentheses than they open, and all together close as many. -/
structure Matched (ts : List Token) : Prop where
  closed_le : ∀ us, us <+: ts → closed us ≤ opened us
  opened_eq : opened ts = closed ts

theorem opened_append (ts us : List Token) : opened (ts ++ us) = opened ts + opened us :=
  List.countP_append

theorem closed_append (ts us : List Token) : closed (ts ++ us) = closed ts + closed us :=
  List.countP_append

theorem opened_cons (t : Token) (ts : List Token) : opened (t :: ts) = opened [t] + opened ts :=
  opened_append [t] ts

theorem closed_cons (t : Token) (ts : List Token) : closed (t :: ts) = closed [t] + closed ts :=
  closed_append [t] ts

theorem counts_of_connective (ht : t.kind = .connective op) : opened [t] = 0 ∧ closed [t] = 0 := by
  simp [opened, closed, ht]

theorem deepen?_eq_some_iff :
    deepen? depth t = some d ↔
      closed [t] ≤ depth + opened [t] ∧ d + closed [t] = depth + opened [t] := by
  cases hk : t.kind with
  | opening =>
    rw [deepen?_opening hk, Option.some_inj]
    simp [opened, closed, hk]
    omega
  | closing =>
    cases depth with
    | zero => simp [deepen?_zero_closing hk, opened, closed, hk]
    | succ depth =>
      rw [deepen?_closing hk, Option.some_inj]
      simp [opened, closed, hk]
      omega
  | connective op =>
    rw [deepen?_connective hk, Option.some_inj]
    simp [opened, closed, hk, eq_comm]
  | word =>
    rw [deepen?_word hk, Option.some_inj]
    simp [opened, closed, hk, eq_comm]

theorem depthAfter?_eq_some_iff :
    depthAfter? depth ts = some d ↔
      (∀ us, us <+: ts → closed us ≤ depth + opened us) ∧ d + closed ts = depth + opened ts := by
  induction ts generalizing depth with
  | nil =>
    have hd : depthAfter? depth [] = some depth := rfl
    rw [hd]
    simp [opened, closed, eq_comm]
  | cons t ts ih =>
    rw [depthAfter?_cons, Option.bind_eq_some_iff, opened_cons, closed_cons]
    constructor
    · rintro ⟨e, he, hd⟩
      obtain ⟨hle, heq⟩ := deepen?_eq_some_iff.1 he
      obtain ⟨front, total⟩ := ih.1 hd
      refine ⟨fun us hu ↦ ?_, by omega⟩
      cases us with
      | nil => exact Nat.zero_le _
      | cons u us =>
        obtain ⟨rfl, hus⟩ := List.cons_prefix_cons.1 hu
        have h := front us hus
        rw [opened_cons, closed_cons]
        omega
    · rintro ⟨front, total⟩
      have hle := front [t] (List.cons_prefix_cons.2 ⟨rfl, List.nil_prefix⟩)
      refine ⟨depth + opened [t] - closed [t], deepen?_eq_some_iff.2 (by omega), ih.2 ⟨?_, by omega⟩⟩
      intro us hu
      have h := front (t :: us) (List.cons_prefix_cons.2 ⟨rfl, hu⟩)
      rw [opened_cons, closed_cons] at h
      omega

theorem matched_iff : Matched ts ↔ depthAfter? 0 ts = some 0 := by
  rw [depthAfter?_eq_some_iff]
  simp only [Nat.zero_add]
  exact ⟨fun h ↦ ⟨h.closed_le, h.opened_eq.symm⟩, fun h ↦ ⟨h.1, h.2.symm⟩⟩

/-- A connective outside all parentheses, with the tokens in front of it and those behind it. -/
def IsDivision (op : Connective) (before behind ts : List Token) : Prop :=
  ∃ t, ts = before ++ t :: behind ∧ t.kind = .connective op ∧ opened before = closed before

def IsUndivided (ts : List Token) : Prop := ∀ op before behind, ¬ IsDivision op before behind ts

inductive IsCutInto (op : Connective) : List Token → List (List Token) → Prop
  | whole {ts : List Token} (h : IsUndivided ts) : IsCutInto op ts [ts]
  | cut {before behind ts : List Token} {ranges : List (List Token)}
    (h : IsDivision op before behind ts) (first : IsUndivided before)
    (later : IsCutInto op behind ranges) : IsCutInto op ts (before :: ranges)

/-- What can be wrong with the tokens of a layer. -/
inductive IsFaulty (ts : List Token) : Prop
  | closesMore {us : List Token} (hu : us <+: ts) (h : opened us < closed us)
  | unequal (h : opened ts ≠ closed ts)
  | mixed {before behind before' behind' : List Token} (h : IsDivision .and before behind ts)
    (h' : IsDivision .or before' behind' ts)
  | nothingBefore {op : Connective} {behind : List Token} (h : IsDivision op [] behind ts)
  | nothingBetween {op op' : Connective} {t t' : Token} {before behind : List Token}
    (h : IsDivision op before (t' :: behind) ts) (h' : IsDivision op' (before ++ [t]) behind ts)
  | nothingBehind {op : Connective} {before : List Token} (h : IsDivision op before [] ts)

theorem IsDivision.append (h : IsDivision op before behind us) (hts : opened ts = closed ts)
    (ht : t.kind = .connective op') :
    IsDivision op (ts ++ t :: before) behind (ts ++ t :: us) := by
  obtain ⟨separator, rfl, hk, hb⟩ := h
  refine ⟨separator, by simp, hk, ?_⟩
  obtain ⟨hopen, hclose⟩ := counts_of_connective ht
  rw [opened_append, closed_append, opened_cons, closed_cons]
  omega

theorem IsDivision.depthAfter?_eq (h : IsDivision op before behind ts) (hm : Matched ts) :
    depthAfter? 0 before = some 0 := by
  obtain ⟨t, rfl, -, hb⟩ := h
  refine depthAfter?_eq_some_iff.2 ⟨fun us hu ↦ ?_, by omega⟩
  have hle := hm.closed_le us (hu.trans (List.prefix_append before (t :: behind)))
  omega

theorem cuts_snd_ne_nil (h : depthAfter? depth before = some 0) (ht : t.kind = .connective op)
    (behind : List Token) : (cuts depth (before ++ t :: behind)).2 ≠ [] := by
  induction before generalizing depth with
  | nil =>
    cases h
    rw [List.nil_append, cuts_cons_of_separator? (separator?_eq_some_iff.2 ⟨rfl, ht⟩)]
    exact List.cons_ne_nil _ _
  | cons u before ih =>
    rw [depthAfter?_cons] at h
    obtain ⟨e, he, h⟩ := Option.bind_eq_some_iff.1 h
    cases hs : separator? depth u with
    | some op =>
      rw [List.cons_append, cuts_cons_of_separator? hs]
      exact List.cons_ne_nil _ _
    | none =>
      rw [List.cons_append, cuts_cons_of_deepen? hs he]
      exact ih h

theorem isSealed_iff : IsSealed ts ↔ Matched ts ∧ IsUndivided ts := by
  constructor
  · intro h
    have hm := matched_iff.2 h.balanced
    refine ⟨hm, fun op before behind hd ↦ ?_⟩
    have hdepth := hd.depthAfter?_eq hm
    obtain ⟨t, rfl, hk, -⟩ := hd
    have hc := h.cuts_append []
    rw [List.append_nil] at hc
    exact cuts_snd_ne_nil hdepth hk behind (congrArg Prod.snd hc)
  · rintro ⟨hm, hu⟩
    have hb := matched_iff.1 hm
    obtain ⟨hdepth, hcuts, ⟨hts, -⟩ | ⟨t, us, op, hts, hk, -, -⟩⟩ := cuts_cases hb rfl
    · refine ⟨hb, fun us ↦ ?_⟩
      have h := hcuts us
      rwa [← hts] at h
    · exact absurd ⟨t, hts, hk, (matched_iff.2 hdepth).opened_eq⟩ (hu op _ us)

theorem IsFaulty.append (h : IsFaulty us) (hts : opened ts = closed ts)
    (ht : t.kind = .connective op) : IsFaulty (ts ++ t :: us) := by
  obtain ⟨hopen, hclose⟩ := counts_of_connective ht
  cases h with
  | @closesMore vs hv h =>
    have hv' : ts ++ t :: vs <+: ts ++ t :: us :=
      (List.prefix_append_right_inj ts).2 (List.cons_prefix_cons.2 ⟨rfl, hv⟩)
    refine .closesMore hv' ?_
    rw [opened_append, opened_cons, closed_append, closed_cons]
    omega
  | unequal h =>
    refine .unequal fun he ↦ h ?_
    rw [opened_append, opened_cons, closed_append, closed_cons] at he
    omega
  | mixed h h' => exact .mixed (h.append hts ht) (h'.append hts ht)
  | @nothingBefore op' behind h =>
    -- what stands first behind the connective is next to it
    obtain ⟨t', rfl, -, -⟩ := id h
    exact .nothingBetween ⟨t, rfl, ht, hts⟩ (h.append hts ht)
  | nothingBetween h h' =>
    have h' := h'.append hts ht
    rw [← List.cons_append, ← List.append_assoc] at h'
    exact .nothingBetween (h.append hts ht) h'
  | nothingBehind h => exact .nothingBehind (h.append hts ht)

theorem exists_joins_of_not_isFaulty (hne : ts ≠ []) (h : ¬ IsFaulty ts)
    (same : ∀ op' before behind, IsDivision op' before behind ts → op' = op) :
    ∃ ranges, Joins op ranges ts := by
  induction hn : ts.length using Nat.strong_induction_on generalizing ts with
  | _ n ih =>
    have hm : Matched ts := by
      refine ⟨fun us hu ↦ ?_, ?_⟩
      · exact Nat.le_of_not_lt fun hlt ↦ h (.closesMore hu hlt)
      · exact not_not.1 fun he ↦ h (.unequal he)
    obtain ⟨first, later, hc⟩ : ∃ first later, cuts 0 ts = (first, later) := ⟨_, _, rfl⟩
    obtain ⟨hdepth, hcuts, ⟨rfl, -⟩ | ⟨t, us, op', rfl, hk, -, -⟩⟩ := cuts_cases (matched_iff.1 hm) hc
    · exact ⟨[ts], .single hne ⟨hdepth, hcuts⟩⟩
    · have hfirst := (matched_iff.2 hdepth).opened_eq
      have hd : IsDivision op' first us (first ++ t :: us) := ⟨t, rfl, hk, hfirst⟩
      obtain rfl := same op' first us hd
      have hfirst_ne : first ≠ [] := by
        rintro rfl
        exact h (.nothingBefore hd)
      have hus_ne : us ≠ [] := by
        rintro rfl
        exact h (.nothingBehind hd)
      have hl : us.length < n := by
        rw [← hn, List.length_append, List.length_cons]
        omega
      obtain ⟨ranges, hr⟩ := ih us.length hl hus_ne (fun hf ↦ h (hf.append hfirst hk))
        (fun op before behind hd ↦ same op _ behind (hd.append hfirst hk)) rfl
      exact ⟨first :: ranges, .cons hfirst_ne ⟨hdepth, hcuts⟩ hk hr⟩

theorem IsDivision.cases (h : IsDivision op' before behind (ts ++ t :: us)) (hts : IsSealed ts)
    (ht : t.kind = .connective op) :
    op' = op ∧ before = ts ∧ behind = us ∨
      ∃ before', before = ts ++ t :: before' ∧ IsDivision op' before' behind us := by
  obtain ⟨t', he, hk, hb⟩ := h
  have hm := (isSealed_iff.1 hts).1.opened_eq
  obtain ⟨hopen, hclose⟩ := counts_of_connective ht
  obtain ⟨middle, rfl, hmiddle⟩ | ⟨middle, rfl, hmiddle⟩ := List.append_eq_append_iff.1 he
  · cases middle with
    | nil =>
      obtain ⟨rfl, rfl⟩ := List.cons.inj hmiddle
      exact .inl ⟨Kind.connective.inj (hk.symm.trans ht), List.append_nil ts, rfl⟩
    | cons t'' before' =>
      obtain ⟨rfl, rfl⟩ := List.cons.inj hmiddle
      refine .inr ⟨before', rfl, t', rfl, hk, ?_⟩
      rw [opened_append, opened_cons, closed_append, closed_cons] at hb
      omega
  · cases middle with
    | nil =>
      obtain ⟨rfl, rfl⟩ := List.cons.inj hmiddle
      exact .inl ⟨Kind.connective.inj (hk.symm.trans ht), (List.append_nil before).symm, rfl⟩
    | cons t'' middle =>
      obtain ⟨rfl, -⟩ := List.cons.inj hmiddle
      exact absurd ⟨t', rfl, hk, hb⟩ ((isSealed_iff.1 hts).2 op' before middle)

namespace Joins

theorem ne_nil (h : Joins op ranges ts) : ts ≠ [] := by
  cases h with
  | single hne _ => exact hne
  | cons hne _ _ _ => simp

theorem eq_of_isDivision (h : Joins op ranges ts) (hd : IsDivision op' before behind ts) :
    op' = op := by
  induction h generalizing before behind with
  | single _ h => exact absurd hd ((isSealed_iff.1 h).2 _ _ _)
  | cons _ h hs _ ih =>
    obtain ⟨rfl, -, -⟩ | ⟨before', -, hd⟩ := hd.cases h hs
    · rfl
    · exact ih hd

theorem not_isFaulty (h : Joins op ranges ts) : ¬ IsFaulty ts := by
  induction h with
  | single hne h =>
    obtain ⟨hm, hu⟩ := isSealed_iff.1 h
    intro hf
    cases hf with
    | closesMore hv h => exact absurd (hm.closed_le _ hv) (Nat.not_le_of_lt h)
    | unequal h => exact h hm.opened_eq
    | mixed h _ | nothingBefore h | nothingBetween h _ | nothingBehind h => exact hu _ _ _ h
  | @cons ts us t ranges hne h hs hu ih =>
    have hj : Joins op (ts :: ranges) (ts ++ t :: us) := .cons hne h hs hu
    have hm := matched_iff.2 hj.balanced
    intro hf
    cases hf with
    | closesMore hv h => exact absurd (hm.closed_le _ hv) (Nat.not_le_of_lt h)
    | unequal h => exact h hm.opened_eq
    | mixed h h' => cases (hj.eq_of_isDivision h).trans (hj.eq_of_isDivision h').symm
    | nothingBefore hd =>
      obtain ⟨-, hnil, -⟩ | ⟨before', hnil, -⟩ := hd.cases h hs
      · exact hne hnil.symm
      · simp at hnil
    | @nothingBetween op' op'' separator t' before behind hd hd' =>
      obtain ⟨-, rfl, rfl⟩ | ⟨before', rfl, hd₁⟩ := hd.cases h hs
      · obtain ⟨-, hl, -⟩ | ⟨before', hl, hd'⟩ := hd'.cases h hs
        · simp at hl
        · obtain ⟨-, rfl⟩ : separator = t ∧ [] = before' := by simpa using hl
          exact ih (.nothingBefore hd')
      · obtain ⟨-, hl, -⟩ | ⟨before'', hl, hd'⟩ := hd'.cases h hs
        · simp at hl
        · obtain rfl : before' ++ [separator] = before'' := by simpa using hl
          exact ih (.nothingBetween hd₁ hd')
    | nothingBehind hd =>
      obtain ⟨-, -, rfl⟩ | ⟨before', -, hd⟩ := hd.cases h hs
      · exact hu.ne_nil rfl
      · exact ih (.nothingBehind hd)

theorem isCutInto (h : Joins op ranges ts) : IsCutInto op ts ranges := by
  induction h with
  | single _ h => exact .whole (isSealed_iff.1 h).2
  | cons _ h hs _ ih =>
    obtain ⟨hm, hu⟩ := isSealed_iff.1 h
    exact .cut ⟨_, rfl, hs, hm.opened_eq⟩ hu ih

end Joins

theorem not_isFaulty_nil : ¬ IsFaulty [] := by
  have nothing : ∀ op before behind, ¬ IsDivision op before behind [] := by
    rintro op before behind ⟨t, h, -⟩
    simp at h
  intro hf
  cases hf with
  | closesMore hv h =>
    rw [List.prefix_nil.1 hv] at h
    exact absurd h (Nat.lt_irrefl 0)
  | unequal h => exact h rfl
  | mixed h _ | nothingBefore h | nothingBetween h _ | nothingBehind h => exact nothing _ _ _ h

theorem layer_eq_ok_cases (h : layer ts = .ok l) :
    ts = [] ∧ l = ⟨none, []⟩ ∨ ts ≠ [] ∧ IsSealed ts ∧ l = ⟨none, [ts]⟩ ∨
      ∃ op ranges, Joins op ranges ts ∧ 2 ≤ ranges.length ∧ l = ⟨some op, ranges⟩ := by
  obtain ⟨op?, ranges⟩ := l
  cases op? with
  | some op => exact .inr (.inr ⟨op, ranges, joins_of_layer h, two_le_length_ranges h rfl, rfl⟩)
  | none =>
    obtain ⟨hb, ⟨hl, he⟩ | ⟨_, _, -, -, -, he⟩⟩ := layer_cases h
    · obtain ⟨hdepth, hcuts, ⟨hts, -⟩ | ⟨_, _, _, -, -, -, hne⟩⟩ := cuts_cases hb rfl
      · rw [← hts] at hdepth hcuts he
        rw [he]
        cases ts with
        | nil => exact .inl ⟨rfl, rfl⟩
        | cons t ts => exact .inr (.inl ⟨List.cons_ne_nil t ts, ⟨hdepth, hcuts⟩, rfl⟩)
      · rw [hl] at hne
        cases hne
    · cases he

theorem exists_connective_of_not_isFaulty (h : ¬ IsFaulty ts) :
    ∃ op, ∀ op' before behind, IsDivision op' before behind ts → op' = op := by
  by_cases hd : ∃ before behind, IsDivision .and before behind ts
  · obtain ⟨before, behind, hd⟩ := hd
    refine ⟨.and, fun op' before' behind' hd' ↦ ?_⟩
    cases op' with
    | and => rfl
    | or => exact absurd (.mixed hd hd') h
  · refine ⟨.or, fun op' before behind hd' ↦ ?_⟩
    cases op' with
    | and => exact absurd ⟨before, behind, hd'⟩ hd
    | or => rfl

theorem exists_layer_of_not_isFaulty (h : ¬ IsFaulty ts) : ∃ l, layer ts = .ok l := by
  by_cases hne : ts = []
  · subst hne
    exact ⟨_, rfl⟩
  · obtain ⟨op, same⟩ := exists_connective_of_not_isFaulty h
    obtain ⟨ranges, hj⟩ := exists_joins_of_not_isFaulty hne h same
    by_cases two : 2 ≤ ranges.length
    · exact ⟨_, layer_of_joins hj two⟩
    · cases hj with
      | single hne h => exact ⟨_, layer_of_isSealed hne h⟩
      | cons _ _ _ hu => cases hu <;> simp at two

theorem not_isFaulty_of_layer (h : layer ts = .ok l) : ¬ IsFaulty ts := by
  obtain ⟨rfl, -⟩ | ⟨hne, hs, -⟩ | ⟨op, ranges, hj, -, -⟩ := layer_eq_ok_cases h
  · exact not_isFaulty_nil
  · have hj : Joins .and [ts] ts := .single hne hs
    exact hj.not_isFaulty
  · exact hj.not_isFaulty

/-- A layer fails where its parentheses do not match, its connectives differ, or one of them has
nothing on one side. -/
theorem layer_eq_error_iff : (∃ e, layer ts = .error e) ↔ IsFaulty ts := by
  constructor
  · rintro ⟨e, he⟩
    by_contra hf
    obtain ⟨l, hl⟩ := exists_layer_of_not_isFaulty hf
    cases hl.symm.trans he
  · intro hf
    cases hl : layer ts with
    | error e => exact ⟨e, rfl⟩
    | ok l => exact absurd hf (not_isFaulty_of_layer hl)

end ListingFilter.Token
