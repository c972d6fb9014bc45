import ListingFilter.Proofs.Filter.Parentheses
import ListingFilter.Proofs.Token.Division
import ListingFilter.Proofs.Token.Source

namespace ListingFilter

open Text Token

variable {op : Connective} {c : Char} {g t mark rest : Text} {token : Token}
  {ts range : List Token} {ranges : List (List Token)} {texts : List Text} {l : Level}

theorem Text.mem_of_mem_joined (h : c ∈ joined mark texts) : c ∈ mark ∨ ∃ t ∈ texts, c ∈ t := by
  induction texts with
  | nil => cases h
  | cons t texts ih =>
    cases texts with
    | nil => exact .inr ⟨t, List.mem_cons_self, by simpa [joined] using h⟩
    | cons u texts =>
      rw [joined, List.intercalate_cons_cons, ← joined] at h
      rcases List.mem_append.1 h with h | h
      · rcases List.mem_append.1 h with h | h
        · exact .inr ⟨t, List.mem_cons_self, h⟩
        · exact .inl h
      · obtain h | ⟨v, hv, h⟩ := ih h
        · exact .inl h
        · exact .inr ⟨v, List.mem_cons_of_mem t hv, h⟩

namespace Token

/-- The ranges that tokens are split into: all of them in one range, or the ranges between the
divisions with a connective. -/
inductive IsSplitInto (ts : List Token) : Option Connective → List (List Token) → Prop
  | empty (h : ts = []) : IsSplitInto ts none []
  | undivided (hne : ts ≠ []) (h : IsUndivided ts) : IsSplitInto ts none [ts]
  | divided {op : Connective} {ranges : List (List Token)} (two : 2 ≤ ranges.length)
    (h : IsCutInto op ts ranges) : IsSplitInto ts (some op) ranges

theorem isSplitInto_of_layer {l : Layer} (h : layer ts = .ok l) : IsSplitInto ts l.op? l.ranges := by
  obtain ⟨rfl, rfl⟩ | ⟨hne, hs, rfl⟩ | ⟨op, ranges, hj, two, rfl⟩ := layer_eq_ok_cases h
  · exact .empty rfl
  · exact .undivided hne (isSealed_iff.1 hs).2
  · exact .divided two hj.isCutInto

theorem IsSealed.behind (h : IsSealed (token :: ts)) (g : Text) :
    IsSealed ({ token with gap := g } :: ts) := by
  refine ⟨h.balanced, fun us ↦ ?_⟩
  have hc := h.cuts_append us
  have hs' : separator? 0 { token with gap := g } = separator? 0 token := rfl
  have hd' : deepen? 0 { token with gap := g } = deepen? 0 token := rfl
  cases hs : separator? 0 token with
  | some op =>
    rw [List.cons_append, cuts_cons_of_separator? hs] at hc
    cases hc
  | none =>
    cases hd : deepen? 0 token with
    | none =>
      rw [List.cons_append, cuts_cons_of_unmatched hd] at hc
      cases hc
    | some d =>
      rw [List.cons_append, cuts_cons_of_deepen? hs hd] at hc
      rw [List.cons_append, cuts_cons_of_deepen? (hs'.trans hs) (hd'.trans hd)]
      obtain ⟨hfirst, hlater⟩ := Prod.mk.inj hc
      rw [(List.cons.inj hfirst).2, hlater]
      rfl

namespace Joins

theorem infix_of_mem (h : Joins op ranges ts) (hr : range ∈ ranges) : range <:+: ts := by
  induction h with
  | single _ _ =>
    rw [List.mem_singleton.1 hr]
  | @cons ts us separator ranges _ _ _ _ ih =>
    rcases List.mem_cons.1 hr with rfl | hr
    · exact (List.prefix_append range (separator :: us)).isInfix
    · have hus : us <:+: ts ++ separator :: us := ⟨ts ++ [separator], [], by simp⟩
      exact (ih hr).trans hus

theorem not_mem_spaced (h : Joins op ranges ts) (hq : isQuote c = true) (hc : c ∉ layout ts) :
    c ∉ spaced op.keyword ++ joined (spaced op.keyword) (ranges.map source) := by
  have hmark : c ∉ spaced op.keyword := by
    intro hm
    obtain rfl | hm : c = ' ' ∨ c ∈ op.keyword := by simpa [spaced, or_comm] using hm
    · exact absurd hq (by decide)
    · have hsolid := ((isSolid_keyword op).solid c hm).2
      rw [hq] at hsolid
      cases hsolid
  intro hm
  obtain hm | hm := List.mem_append.1 hm
  · exact hmark hm
  · obtain hm | ⟨text, htext, hm⟩ := mem_of_mem_joined hm
    · exact hmark hm
    · obtain ⟨range, hr, rfl⟩ := List.mem_map.1 htext
      exact hc ((infix_layout (h.infix_of_mem hr)).subset ((source_suffix_layout range).subset hm))

end Joins

theorem reads_spaced (op : Connective) (t : Text) :
    Reads (spaced op.keyword ++ t) [⟨[' '], op.keyword⟩] ([' '] ++ t) := by
  have hends : EndsWord (' ' :: t) := endsWord_cons (by decide) t
  have hreads := (Places.word allBlank_space (isSolid_keyword op)).reads (' ' :: t) hends
  simpa [spaced] using hreads

/-- The ranges of a text, written out again with the connective between them. -/
theorem Joins.exists_reads_joined (h : Joins op ranges ts) (hr : Reads t ts rest) (hg : AllBlank g) :
    ∃ others us, Reads (g ++ joined (spaced op.keyword) (ranges.map source)) us [] ∧
      Joins op others us ∧ others.map source = ranges.map source := by
  induction h generalizing t g with
  | single hne h =>
    obtain ⟨token, ts, rfl⟩ := List.exists_cons_of_ne_nil hne
    have hj : joined (spaced op.keyword) ([token :: ts].map source) = source (token :: ts) := by
      simp [joined]
    rw [hj]
    exact ⟨_, _, hr.source_behind hg, .single (List.cons_ne_nil _ _) (h.behind g), rfl⟩
  | @cons ts us separator ranges hne h hs hu ih =>
    obtain ⟨token, ts, rfl⟩ := List.exists_cons_of_ne_nil hne
    obtain ⟨after, hts, hr⟩ := hr.split
    have hafter := hr.eq_layout_append
    cases hr with
    | cons hn hus =>
      obtain ⟨others, vs, hvs, hj, hsource⟩ := ih hus allBlank_space
      obtain ⟨text, htext⟩ : ∃ text, joined (spaced op.keyword) (ranges.map source) = text := ⟨_, rfl⟩
      have hout : joined (spaced op.keyword) (((token :: ts) :: ranges).map source) =
          source (token :: ts) ++ (spaced op.keyword ++ text) := by
        rw [← htext]
        cases hu <;> simp [joined, List.intercalate_cons_cons]
      -- an open quote of the range does not come again in the text, and so not here
      have opens : ∀ token' ∈ { token with gap := g } :: ts, ∀ c ∈ token'.openQuote?,
          c ∉ spaced op.keyword ++ text := by
        have hclosed := List.forall_mem_cons.1 hts.not_mem_of_openQuote?
        have hclosed' : ∀ token' ∈ { token with gap := g } :: ts, ∀ c ∈ token'.openQuote?, c ∉ after :=
          List.forall_mem_cons.2 hclosed
        intro token' htoken' c hc
        rw [← htext]
        refine hu.not_mem_spaced (openQuote?_eq_some_iff.1 hc).1 fun hm ↦ ?_
        apply hclosed' token' htoken' c hc
        rw [hafter]
        exact List.mem_append_left rest ((infix_layout (List.suffix_cons separator us).isInfix).subset hm)
      have hfirst := (hts.source_behind hg).append (endsWord_cons rfl _) opens
      rw [hout, ← List.append_assoc]
      rw [htext] at hvs
      exact ⟨_, _, hfirst.trans ((reads_spaced op text).trans hvs),
        .cons (List.cons_ne_nil _ _) (h.behind g) (kind_keyword _ op) hj,
        congrArg (source (token :: ts) :: ·) hsource⟩

end Token

namespace Level

theorem ofText_joined (hj : Joins op ranges (Token.read t)) (two : 2 ≤ ranges.length) :
    ofText (joined (spaced op.keyword) (ranges.map source)) = .ok ⟨some op, ranges.map source⟩ := by
  obtain ⟨rest, -, hr⟩ := exists_reads_read t
  obtain ⟨others, us, hus, hj', hsource⟩ := hj.exists_reads_joined hr allBlank_nil
  have two' : 2 ≤ others.length := by
    have hl := congrArg List.length hsource
    rw [List.length_map, List.length_map] at hl
    omega
  rw [List.nil_append] at hus
  rw [ofText, hus.read_eq_of_allBlank allBlank_nil, ofTokens_eq_layer, layer_of_joins hj' two', ← hsource]
  rfl

theorem ofText_nil : ofText [] = .ok ⟨none, []⟩ := by
  rw [ofText, read_of_next?_eq_none rfl]
  rfl

theorem ofText_eq_error_iff (t : Text) : (∃ e, ofText t = .error e) ↔ IsFaulty (Token.read t) := by
  rw [← layer_eq_error_iff, ofText, ofTokens_eq_layer]
  cases layer (Token.read t) <;> simp [Except.map]

theorem ofText_joined_segments (h : ofText t = .ok l) (hop : ∀ op' ∈ l.op?, op' = op) :
    ofText (joined (spaced op.keyword) l.segments) = .ok l := by
  obtain ⟨layer, hl, rfl⟩ := exists_of_ofText h
  obtain ⟨-, rfl⟩ | ⟨hne, hs, rfl⟩ | ⟨op', ranges, hj, two, rfl⟩ := layer_eq_ok_cases hl
  · exact ofText_nil
  · have hone : joined (spaced op.keyword) (Layer.level ⟨none, [Token.read t]⟩).segments =
        source (Token.read t) := by
      simp [Layer.level, joined]
    rw [hone]
    exact ofText_source (isRange_read t) hne hs
  · obtain rfl := hop op' rfl
    exact ofText_joined hj two

theorem length_segments (h : ofText t = .ok l) :
    (l.op? = none → l.segments.length ≤ 1) ∧ (l.op? ≠ none → 2 ≤ l.segments.length) := by
  obtain ⟨layer, hl, rfl⟩ := exists_of_ofText h
  obtain ⟨-, rfl⟩ | ⟨hne, hs, rfl⟩ | ⟨op', ranges, hj, two, rfl⟩ := layer_eq_ok_cases hl
  · exact ⟨fun _ ↦ Nat.zero_le 1, fun hn ↦ absurd rfl hn⟩
  · exact ⟨fun _ ↦ le_rfl, fun hn ↦ absurd rfl hn⟩
  · refine ⟨nofun, fun _ ↦ ?_⟩
    rwa [Layer.level, List.length_map]

theorem of_mem_segments {s : Text} (h : ofText t = .ok l) (hs : s ∈ l.segments) :
    s ≠ [] ∧ trim s = s ∧ ofText s = .ok ⟨none, [s]⟩ := by
  obtain ⟨layer, hl, rfl⟩ := exists_of_ofText h
  obtain ⟨range, hr, rfl⟩ := List.mem_map.1 hs
  obtain ⟨hne, hin⟩ := of_mem_ranges hl hr
  have hrange := (isRange_read t).within hin
  have hsealed : IsSealed range := by
    obtain ⟨-, rfl⟩ | ⟨-, hs, rfl⟩ | ⟨op', ranges, hj, -, rfl⟩ := layer_eq_ok_cases hl
    · cases hr
    · rwa [List.mem_singleton.1 hr]
    · exact hj.isSealed_of_mem hr
  exact ⟨hrange.source_ne_nil hne, hrange.trim_source, ofText_source hrange hne hsealed⟩

theorem exists_span_of_mem_ranges {layer : Layer} (hl : Token.layer (Token.read t) = .ok layer)
    (hr : range ∈ layer.ranges) :
    ∃ before behind span, Token.read t = before ++ (range ++ behind) ∧
      coverAll? (((spans (Token.read t)).drop before.length).take range.length) = some span ∧
      span.Holds t (source range) := by
  obtain ⟨hne, before, behind, hread⟩ := of_mem_ranges hl hr
  obtain ⟨rest, -, h⟩ := exists_reads_read t
  rw [List.append_assoc] at hread
  rw [← hread] at h ⊢
  obtain ⟨span, hspan, holds⟩ := h.coverAll?_eq hne
  exact ⟨before, behind, span, rfl, hspan, holds⟩

/-- Splitting a text fails for what can be wrong with its tokens and for nothing else. Otherwise the
segments are what the connectives outside all parentheses divide the text into, each a slice of it
without blanks at its ends, and the level is what each of them and all of them together split into. -/
theorem ofText_exact (t : Text) :
    ((∃ e, ofText t = .error e) ↔ IsFaulty (Token.read t)) ∧
      ∀ l, ofText t = .ok l →
        (∃ ranges, IsSplitInto (Token.read t) l.op? ranges ∧ l.segments = ranges.map source ∧
          ∀ range ∈ ranges, ∃ before behind span, Token.read t = before ++ (range ++ behind) ∧
            coverAll? (((spans (Token.read t)).drop before.length).take range.length) = some span ∧
            span.Holds t (source range)) ∧
          (l.op? = none → l.segments.length ≤ 1) ∧ (l.op? ≠ none → 2 ≤ l.segments.length) ∧
          (∀ s ∈ l.segments, s ≠ [] ∧ trim s = s ∧ ofText s = .ok ⟨none, [s]⟩) ∧
          ∀ op : Connective, (∀ op' ∈ l.op?, op' = op) →
            ofText (joined (spaced op.keyword) l.segments) = .ok l := by
  refine ⟨ofText_eq_error_iff t, fun l hl ↦ ?_⟩
  obtain ⟨few, several⟩ := length_segments hl
  refine ⟨?_, few, several, fun s hs ↦ of_mem_segments hl hs, fun op ↦ ofText_joined_segments hl⟩
  obtain ⟨layer, hlayer, rfl⟩ := exists_of_ofText hl
  exact ⟨layer.ranges, isSplitInto_of_layer hlayer, rfl,
    fun range ↦ exists_span_of_mem_ranges hlayer⟩

theorem ofText_exact_quotes :
    let t : Text := .ofString "a = ') OR ('  \tAND (b OR c)AND 'd "
    let l : Level := ⟨some .and, [.ofString "a = ') OR ('", .ofString "(b OR c)", .ofString "'d"]⟩
    ofText t = .ok l ∧ (∃ ranges, IsSplitInto (Token.read t) (some .and) ranges ∧
        l.segments = ranges.map source) ∧
      ofText (.ofString "(b OR c)") = .ok ⟨none, [.ofString "(b OR c)"]⟩ ∧
      ofText (.ofString "a = ') OR (' AND (b OR c) AND 'd") = .ok l := by
  intro t l
  have split : ofText (.ofString "a = ') OR ('  \tAND (b OR c)AND 'd ") = .ok ⟨some .and,
      [.ofString "a = ') OR ('", .ofString "(b OR c)", .ofString "'d"]⟩ := by cbv
  obtain ⟨⟨ranges, hranges, hsegments, -⟩, -, -, alone, together⟩ := (ofText_exact t).2 l split
  exact ⟨split, ⟨ranges, hranges, hsegments⟩, (alone _ (by simp [l])).2.2,
    together .and (by simp [l])⟩

end Level

end ListingFilter
