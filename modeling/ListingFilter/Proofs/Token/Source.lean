import ListingFilter.Proofs.Token.Range

namespace ListingFilter

open Text

variable {offset : Nat} {t rest : Text} {span : Span} {token : Token}
  {ts before range behind : List Token}

theorem Text.byteCount_append (t u : Text) : byteCount (t ++ u) = byteCount t + byteCount u := by
  induction t with
  | nil => exact (Nat.zero_add _).symm
  | cons c t ih => rw [List.cons_append, byteCount, byteCount, ih, Nat.add_assoc]

/-- The bytes of a text in a span are those of `slice`. -/
def Span.Holds (span : Span) (t slice : Text) : Prop :=
  ∃ front back : Text, t = front ++ (slice ++ back) ∧
    span = ⟨front.byteCount, front.byteCount + slice.byteCount⟩

namespace Token

theorem byteCount_layout_cons (token : Token) (ts : List Token) :
    (layout (token :: ts)).byteCount =
      token.gap.byteCount + (token.text.byteCount + (layout ts).byteCount) := by
  rw [layout_cons, source, byteCount_append, byteCount_append]

theorem spansFrom_append (offset : Nat) (ts us : List Token) :
    spansFrom offset (ts ++ us) =
      spansFrom offset ts ++ spansFrom (offset + (layout ts).byteCount) us := by
  induction ts generalizing offset with
  | nil => rfl
  | cons token ts ih =>
    rw [List.cons_append, spansFrom, spansFrom, ih, byteCount_layout_cons]
    simp only [List.cons_append, Nat.add_assoc]

theorem foldl_cover_spansFrom (h : span.start ≤ span.stop) (ts : List Token) :
    (spansFrom span.stop ts).foldl Span.cover span =
      ⟨span.start, span.stop + (layout ts).byteCount⟩ := by
  induction ts generalizing span with
  | nil => rfl
  | cons token ts ih =>
    obtain ⟨start, stop⟩ := span
    have hc : Span.cover ⟨start, stop⟩ ⟨stop + token.gap.byteCount,
        stop + token.gap.byteCount + token.text.byteCount⟩ =
          ⟨start, stop + token.gap.byteCount + token.text.byteCount⟩ := by
      simp only [Span.cover, Span.mk.injEq] at h ⊢
      omega
    rw [spansFrom, List.foldl_cons, hc, ih (by simp only at h ⊢; omega), byteCount_layout_cons]
    simp only [Nat.add_assoc]

theorem coverAll?_spansFrom (offset : Nat) (token : Token) (ts : List Token) :
    coverAll? (spansFrom offset (token :: ts)) =
      some ⟨offset + token.gap.byteCount,
        offset + token.gap.byteCount + (source (token :: ts)).byteCount⟩ := by
  rw [spansFrom, coverAll?, foldl_cover_spansFrom (by simp), source, byteCount_append]
  simp only [Nat.add_assoc]

/-- The spans of the tokens of a range cover its source, and no more of the text. -/
theorem Reads.coverAll?_eq (h : Reads t (before ++ (range ++ behind)) rest) (hne : range ≠ []) :
    ∃ span, coverAll? (((spans (before ++ (range ++ behind))).drop before.length).take
      range.length) = some span ∧ span.Holds t (source range) := by
  obtain ⟨token, ts, rfl⟩ := List.exists_cons_of_ne_nil hne
  refine ⟨_, ?_, layout before ++ token.gap, layout behind ++ rest, ?_, rfl⟩
  · rw [spans, spansFrom_append, spansFrom_append,
      List.drop_left' (length_spansFrom 0 before), List.take_left' (length_spansFrom _ _),
      coverAll?_spansFrom, Nat.zero_add, byteCount_append]
  · rw [h.eq_layout_append]
    simp [layout_append, layout_cons, source]

theorem isBlank_of_mem_getLast?_leading {c d : Char} (hc : isBlank c = false) (rest : Text)
    (hd : d ∈ (leading c rest).1.getLast?) : isBlank d = false := by
  unfold leading at hd
  split at hd
  · cases hd
    exact hc
  · -- a quoted run ends with the quote that the word begins with
    obtain ⟨run, behind, hrun, hlast⟩ : ∃ run behind, quotedRun c rest = (run, behind) ∧
        (c :: run).getLast? = some c := by
      rcases closed_or_open c rest with ⟨inside, after, hquote, hi, rfl⟩ | ho
      · exact ⟨_, _, quotedRun_closed hquote hi after, by simp [List.getLast?_cons]⟩
      · exact ⟨_, _, quotedRun_open ho, rfl⟩
    rw [word_eq hrun, ← List.cons_append, List.getLast?_append, hlast] at hd
    cases hw : (behind.takeWhile (!isBreak ·)).getLast? with
    | none =>
      rw [hw] at hd
      cases hd
      exact hc
    | some e =>
      rw [hw] at hd
      cases hd
      have hb := List.mem_takeWhile_imp (List.mem_of_getLast? hw)
      exact isBlank_of_isBreak_eq_false (by simpa using hb)

theorem Reads.isBlank_of_mem_getLast?_layout (h : Reads t ts rest) :
    ∀ c ∈ (layout ts).getLast?, isBlank c = false := by
  induction h with
  | nil t => exact fun c hc ↦ nomatch hc
  | @cons t after rest token ts hn _ ih =>
    intro c hc
    rw [layout_cons, source, List.getLast?_append, List.getLast?_append] at hc
    cases hl : (layout ts).getLast? with
    | some d =>
      rw [hl] at ih hc
      cases hc
      exact ih _ rfl
    | none =>
      obtain ⟨d, text, -, hd, -, ht⟩ := next?_eq_some_iff.1 hn
      have hlast : ∀ e ∈ token.text.getLast?, isBlank e = false := by
        have hw := fun e ↦ isBlank_of_mem_getLast?_leading (d := e) hd text
        rwa [ht] at hw
      cases he : token.text.getLast? with
      | none => exact absurd (List.getLast?_eq_none_iff.1 he) (text_ne_nil_of_next?_eq_some hn)
      | some e =>
        rw [hl, he] at hc
        cases hc
        exact hlast _ he

theorem Reads.trim_source (h : Reads t ts rest) : trim (source ts) = source ts := by
  have hlast := h.isBlank_of_mem_getLast?_layout
  cases h with
  | nil => rfl
  | @cons _ after _ token ts hn h =>
    obtain ⟨c, text, -, hc, -, ht⟩ := next?_eq_some_iff.1 hn
    have happ := leading_append c text
    rw [ht] at happ
    obtain ⟨d, w, hw⟩ := List.exists_cons_of_ne_nil (text_ne_nil_of_next?_eq_some hn)
    refine trim_eq_self (fun e he ↦ ?_) fun e he ↦ hlast e ?_
    · rw [hw, List.cons_append] at happ
      rw [source, hw] at he
      cases he
      exact (List.cons.inj happ).1 ▸ hc
    · rw [layout_cons, List.getLast?_append, he]
      rfl

theorem IsRange.trim_source (h : IsRange ts) : trim (source ts) = source ts := by
  obtain ⟨t, rest, h⟩ := h
  exact h.trim_source

theorem IsRange.source_ne_nil (h : IsRange ts) (hne : ts ≠ []) : source ts ≠ [] := by
  obtain ⟨t, rest, h⟩ := h
  cases h with
  | nil => exact absurd rfl hne
  | cons hn _ => simp [source, text_ne_nil_of_next?_eq_some hn]

end Token

end ListingFilter
