import ListingFilter.Proofs.Filter.Composition

namespace ListingFilter.Token

open Text

variable {depth : Nat} {op : Connective} {t after rest : Text} {token : Token}
  {ts us before range behind first previous : List Token} {later : List (Connective × List Token)}
  {ranges others : List (List Token)}

theorem cuts_cases (h : depthAfter? depth ts = some 0) (hc : cuts depth ts = (first, later)) :
    depthAfter? depth first = some 0 ∧
      (∀ us, cuts depth (first ++ us) = (first ++ (cuts 0 us).1, (cuts 0 us).2)) ∧
      (ts = first ∧ later = [] ∨
        ∃ separator us op, ts = first ++ separator :: us ∧ separator.kind = .connective op ∧
          depthAfter? 0 us = some 0 ∧ later = (op, (cuts 0 us).1) :: (cuts 0 us).2) := by
  induction ts generalizing depth first with
  | nil =>
    cases h
    cases hc
    exact ⟨rfl, fun _ ↦ rfl, .inl ⟨rfl, rfl⟩⟩
  | cons token ts ih =>
    rw [depthAfter?_cons] at h
    obtain ⟨d, hd, h⟩ := Option.bind_eq_some_iff.1 h
    cases hs : separator? depth token with
    | some op =>
      obtain ⟨rfl, hk⟩ := separator?_eq_some_iff.1 hs
      rw [cuts_cons_of_separator? hs] at hc
      cases hc
      rw [deepen?_connective hk] at hd
      cases hd
      exact ⟨rfl, fun _ ↦ rfl, .inr ⟨token, ts, op, rfl, hk, h, rfl⟩⟩
    | none =>
      rw [cuts_cons_of_deepen? hs hd] at hc
      cases hc
      obtain ⟨hdepth, hcuts, hbehind⟩ := ih h rfl
      refine ⟨?_, fun us ↦ ?_, ?_⟩
      · rw [depthAfter?_cons, hd]
        exact hdepth
      · rw [List.cons_append, cuts_cons_of_deepen? hs hd, hcuts]
        rfl
      · obtain ⟨hts, hl⟩ | ⟨separator, us, op, hts, more⟩ := hbehind
        · exact .inl ⟨congrArg (token :: ·) hts, hl⟩
        · exact .inr ⟨separator, us, op, congrArg (token :: ·) hts, more⟩

theorem joins_of_cuts (h : depthAfter? 0 ts = some 0) (hc : cuts 0 ts = (first, later))
    (hfirst : first ≠ []) (hlater : ∀ r ∈ later, r.1 = op ∧ r.2 ≠ []) :
    Joins op (first :: later.map Prod.snd) ts := by
  induction later generalizing ts first with
  | nil =>
    obtain ⟨hdepth, hcuts, ⟨rfl, -⟩ | ⟨_, _, _, -, -, -, hne⟩⟩ := cuts_cases h hc
    · exact .single hfirst ⟨hdepth, hcuts⟩
    · cases hne
  | cons r later ih =>
    obtain ⟨hdepth, hcuts, ⟨-, hnil⟩ | ⟨separator, us, op', rfl, hk, hb, hus⟩⟩ := cuts_cases h hc
    · cases hnil
    · cases hus
      obtain ⟨⟨rfl, hne⟩, others⟩ := List.forall_mem_cons.1 hlater
      exact .cons hfirst ⟨hdepth, hcuts⟩ hk (ih hb rfl hne others)

theorem eq_of_connectiveFault?_eq_none (h : connectiveFault? (some op) previous later = none) :
    ∀ r ∈ later, r.1 = op := by
  induction later generalizing previous with
  | nil => exact fun _ hr ↦ nomatch hr
  | cons r later ih =>
    obtain ⟨op', range⟩ := r
    simp only [connectiveFault?, Option.any_some] at h
    split at h
    · cases h
    · next hop =>
      split at h
      · cases h
      · obtain rfl : op = op' := by simpa using hop
        exact List.forall_mem_cons.2 ⟨rfl, ih h⟩

theorem joins_of_layer (h : layer ts = .ok ⟨some op, ranges⟩) : Joins op ranges ts := by
  obtain ⟨hb, ⟨-, hl⟩ | ⟨op', last, hlast, hne, hf, hl⟩⟩ := layer_cases h
  · cases hl
  · obtain ⟨first, later, hc⟩ : ∃ first later, cuts 0 ts = (first, later) := ⟨_, _, rfl⟩
    rw [hc] at hlast hf hl
    cases hl
    have hends : ∀ op', later.getLast? ≠ some (op', []) := by
      intro op' ho
      cases hlast.symm.trans ho
      exact hne rfl
    obtain ⟨hfirst, hlater⟩ := ne_nil_of_connectiveFault?_eq_none hf hends
    cases later with
    | nil => cases hlast
    | cons r later =>
      have hops : ∀ r' ∈ r :: later, r'.1 = r.1 := by
        simp only [connectiveFault?, Option.any_none, Bool.false_eq_true, if_false] at hf
        split at hf
        · cases hf
        · exact List.forall_mem_cons.2 ⟨rfl, eq_of_connectiveFault?_eq_none hf⟩
      have hop : op = r.1 := hops _ (List.mem_of_getLast? hlast)
      refine joins_of_cuts hb hc (hfirst (List.cons_ne_nil _ _)) fun r' hr ↦ ⟨?_, hlater r' hr⟩
      rw [hops r' hr, hop]

namespace Joins

theorem isSealed_of_mem (h : Joins op ranges ts) (hr : range ∈ ranges) : IsSealed range := by
  induction h with
  | single _ h => exact List.mem_singleton.1 hr ▸ h
  | cons _ h _ _ ih =>
    rcases List.mem_cons.1 hr with rfl | hr
    · exact h
    · exact ih hr

/-- Another range in place of one leaves the tokens around it as they are. -/
theorem exists_replace {former : List (List Token)} (h : Joins op (former ++ range :: others) ts) :
    ∃ before behind, ts = before ++ (range ++ behind) ∧ ∀ us, us ≠ [] → IsSealed us →
      Joins op (former ++ us :: others) (before ++ (us ++ behind)) := by
  induction former generalizing ts with
  | nil =>
    cases h with
    | single hne h =>
      refine ⟨[], [], by simp, fun us hne hs ↦ ?_⟩
      rw [List.append_nil]
      exact .single hne hs
    | @cons _ us separator _ hne h hk hu =>
      exact ⟨[], separator :: us, rfl, fun us hne hs ↦ .cons hne hs hk hu⟩
  | cons first former ih =>
    generalize hr : (first :: former) ++ range :: others = ranges at h
    cases h with
    | single hne h => simp at hr
    | @cons _ us separator _ hne h hk hu =>
      cases hr
      obtain ⟨before, behind, rfl, replaced⟩ := ih hu
      refine ⟨first ++ separator :: before, behind, by simp, fun us hne' hs ↦ ?_⟩
      rw [List.append_assoc, List.cons_append]
      exact .cons hne h hk (replaced us hne' hs)

end Joins

theorem exists_around (ts : List Token) :
    ∃ lead trail, ts = lead ++ ((enclosed? ts).getD ts ++ trail) ∧
      ∀ us, depthAfter? 0 us = some 0 → enclosed? us = none →
        (enclosed? (lead ++ (us ++ trail))).getD (lead ++ (us ++ trail)) = us := by
  cases he : enclosed? ts with
  | none => exact ⟨[], [], by simp, fun us _ hu ↦ by simp [hu]⟩
  | some inside =>
    obtain ⟨first, close, rfl, hf, hc, -⟩ := enclosed?_eq_some_iff.1 he
    refine ⟨[first], [close], rfl, fun us hb _ ↦ ?_⟩
    have hgroup : IsGroupOf (first :: (us ++ [close])) us := ⟨first, close, rfl, hf, hc⟩
    rw [List.singleton_append, hgroup.enclosed?_eq hb, Option.getD_some]

theorem not_mem_of_openQuote? (h : next? t = some (token, after)) :
    ∀ c ∈ token.openQuote?, c ∉ after := by
  intro c hc hm
  obtain ⟨hq, w, hw, hopen⟩ := openQuote?_eq_some_iff.1 hc
  obtain ⟨d, rest, -, -, -, hl⟩ := next?_eq_some_iff.1 h
  have hr := leading_append d rest
  rw [hl, hw, List.cons_append] at hr
  obtain ⟨rfl, rfl⟩ := List.cons.inj hr
  rcases closed_or_open c (w ++ after) with ⟨inside, behind, -, hi, hrest⟩ | ho
  · rw [leading, if_neg (ne_paren_of_isQuote hq), hrest, word_eq (quotedRun_closed hq hi behind),
      hw] at hl
    apply hopen
    rw [← (List.cons.inj (Prod.mk.inj hl).1).2]
    simp
  · exact ho hq (List.mem_append_right w hm)

theorem exists_openQuote?_eq_of_mem_flush (h : token ∈ flush ts) :
    ∃ token' ∈ ts, token'.openQuote? = token.openQuote? := by
  cases ts with
  | nil => cases h
  | cons first ts =>
    rcases List.mem_cons.1 h with rfl | h
    · exact ⟨first, List.mem_cons_self, rfl⟩
    · exact ⟨token, List.mem_cons_of_mem first h, rfl⟩

namespace Reads

theorem not_mem_of_openQuote? (h : Reads t ts rest) :
    ∀ token ∈ ts, ∀ c ∈ token.openQuote?, c ∉ rest := by
  induction h with
  | nil => exact List.forall_mem_nil _
  | cons hn hr ih =>
    refine List.forall_mem_cons.2 ⟨fun c hc hm ↦ ?_, ih⟩
    apply Token.not_mem_of_openQuote? hn c hc
    rw [hr.eq_layout_append]
    exact List.mem_append_right _ hm

theorem source_append (h : Reads t ts rest) (hne : ts ≠ []) :
    source ts ++ rest = t.dropWhile isBlank := by
  cases h with
  | nil => exact absurd rfl hne
  | cons hn hr =>
    obtain ⟨c, w, hg, hc, rfl, hl⟩ := next?_eq_some_iff.1 hn
    rw [dropWhile_isBlank_append hg, List.dropWhile_cons_of_neg (by simp [hc]), ← leading_append c w,
      hl, hr.eq_layout_append, source, List.append_assoc]

/-- A pair of parentheses around the text of a range is a pair of tokens around the range, and
leaves the tokens in front of it and behind it as they are. -/
theorem enclose (h : Reads t (before ++ (range ++ behind)) rest) (hne : range ≠ []) :
    ∃ (front back : Text) (group : List Token), t = front ++ (source range ++ back) ∧
      IsGroupOf group (flush range) ∧ source group = grouped (source range) ∧
      Reads (front ++ (grouped (source range) ++ back)) (before ++ (group ++ behind)) rest := by
  obtain ⟨middle, hbefore, h⟩ := h.split
  obtain ⟨back, hrange, hbehind⟩ := h.split
  have ht := hbefore.eq_layout_append
  have hm := hrange.source_append hne
  obtain ⟨gap, hgap, hmiddle⟩ : ∃ gap, AllBlank gap ∧ middle = gap ++ (source range ++ back) := by
    refine ⟨middle.takeWhile isBlank, allBlank_takeWhile middle, ?_⟩
    rw [hm, List.takeWhile_append_dropWhile]
  have hread := hrange.read_source
  have closed : ∀ token ∈ read (source range), ∀ c ∈ token.openQuote?, c ∉ back := by
    rw [hread]
    intro token htoken
    obtain ⟨token', htoken', hq⟩ := exists_openQuote?_eq_of_mem_flush htoken
    rw [← hq]
    exact hrange.not_mem_of_openQuote? token' htoken'
  obtain ⟨group, hgroup, hr⟩ := exists_reads_grouped hgap (source range) back closed
  rw [hread] at hgroup
  have hs := hr.source_append hgroup.ne_nil
  rw [dropWhile_isBlank_append hgap] at hs
  have hends : EndsWord (gap ++ (grouped (source range) ++ back)) := by
    cases gap with
    | nil => exact endsWord_cons rfl _
    | cons c gap => exact endsWord_cons (by simp [isBreak, hgap c List.mem_cons_self]) _
  have opens : ∀ token ∈ before, ∀ c ∈ token.openQuote?,
      c ∉ gap ++ (grouped (source range) ++ back) := by
    intro token htoken c hc hm
    apply hbefore.not_mem_of_openQuote? token htoken c hc
    obtain ⟨hopen, hclose⟩ := not_or.1 (ne_paren_of_isQuote (openQuote?_eq_some_iff.1 hc).1)
    simpa [hmiddle, grouped, hopen, hclose] using hm
  have hfront : Reads (layout before) before [] := Reads.of_append (ht ▸ hbefore)
  refine ⟨layout before ++ gap, back, group, by simp [ht, hmiddle], hgroup, ?_, ?_⟩
  · exact List.append_cancel_right hs
  · rw [List.append_assoc]
    exact (hfront.append hends opens).trans (hr.trans hbehind)

end Reads

end ListingFilter.Token
