import ListingFilter.Proofs.Text.Search
import ListingFilter.Proofs.Text.Trimming
import ListingFilter.Token.Reading

namespace ListingFilter.Token

open Text

variable {c : Char} {t rest after later w inside run behind : Text} {token : Token} {ts us vs : List Token}

theorem source_append (h : ts ≠ []) (us : List Token) :
    source (ts ++ us) = source ts ++ layout us := by
  obtain ⟨token, ts, rfl⟩ := List.exists_cons_of_ne_nil h
  rw [List.cons_append, source, layout_append, ← List.append_assoc, ← source]

theorem infix_layout (h : us <:+: ts) : layout us <:+: layout ts := by
  obtain ⟨before, behind, rfl⟩ := h
  exact ⟨layout before, layout behind, by simp [layout_append]⟩

theorem source_suffix_layout (ts : List Token) : source ts <:+ layout ts := by
  cases ts with
  | nil => exact List.suffix_rfl
  | cons token ts => exact ⟨token.gap, (layout_cons token ts).symm⟩

theorem isBlank_of_isBreak_eq_false (h : isBreak c = false) : isBlank c = false := by
  simp only [isBreak, decide_eq_false_iff_not, not_or, Bool.not_eq_true] at h
  exact h.1

theorem quotedRun_closed (hc : isQuote c = true) (hi : c ∉ inside) (after : Text) :
    quotedRun c (inside ++ c :: after) = (inside ++ [c], after) := by
  rw [quotedRun, if_pos hc, splitOnce?_singleton_append hi]

theorem quotedRun_open (h : isQuote c = true → c ∉ rest) : quotedRun c rest = ([], rest) := by
  unfold quotedRun
  split
  · next hc => rw [splitOnce?_eq_none_of_not_mem (h hc)]
  · rfl

theorem closed_or_open (c : Char) (rest : Text) :
    (∃ inside after, isQuote c = true ∧ c ∉ inside ∧ rest = inside ++ c :: after) ∨
      (isQuote c = true → c ∉ rest) := by
  by_cases hc : isQuote c = true ∧ c ∈ rest
  · obtain ⟨inside, after, hr, hi⟩ := List.eq_append_cons_of_mem hc.2
    exact .inl ⟨inside, after, hc.1, hi, hr⟩
  · exact .inr (not_and.1 hc)

theorem dropWhile_of_append {p : Char → Bool} (h : (rest ++ later).dropWhile p = after ++ later) :
    (rest ++ later).takeWhile p = rest.takeWhile p ∧ rest.dropWhile p = after := by
  obtain ⟨w, hw⟩ : ∃ w, (rest ++ later).takeWhile p = w := ⟨_, rfl⟩
  have hr : rest = w ++ after := by
    have hr : rest ++ later = (w ++ after) ++ later := by
      rw [List.append_assoc, ← h, ← hw, List.takeWhile_append_dropWhile]
    exact List.append_cancel_right hr
  have hp : ∀ c ∈ w, p c = true := fun _ hc ↦ List.mem_takeWhile_imp (hw ▸ hc)
  have ha : after.dropWhile p = after ∧ after.takeWhile p = [] := by
    cases after with
    | nil => exact ⟨rfl, rfl⟩
    | cons c after =>
      have hc := List.head?_dropWhile_not p (rest ++ later)
      simp only [h, List.cons_append, List.head?_cons] at hc
      simp [hc]
  rw [hw, hr, List.takeWhile_append_of_pos hp, List.dropWhile_append_of_pos hp, ha.1, ha.2,
    List.append_nil]
  exact ⟨rfl, rfl⟩

theorem quotedRun_of_append (h : quotedRun c (rest ++ later) = (run, after ++ later)) :
    quotedRun c rest = (run, after) := by
  rcases closed_or_open c (rest ++ later) with ⟨inside, behind, hq, hi, hr⟩ | ho
  · rw [hr, quotedRun_closed hq hi] at h
    obtain ⟨rfl, rfl⟩ := Prod.mk.inj h
    rw [← List.cons_append, ← List.append_assoc] at hr
    rw [List.append_cancel_right hr, quotedRun_closed hq hi]
  · have ho' : isQuote c = true → c ∉ rest := fun hq hc ↦ ho hq (List.mem_append_left later hc)
    rw [quotedRun_open ho] at h
    obtain ⟨rfl, ha⟩ := Prod.mk.inj h
    rw [quotedRun_open ho', List.append_cancel_right ha]

theorem word_eq (h : quotedRun c rest = (run, behind)) :
    word c rest =
      (c :: (run ++ behind.takeWhile (!isBreak ·)), behind.dropWhile (!isBreak ·)) := by
  rw [word, h]

theorem leading_of_append (h : leading c (rest ++ later) = (w, after ++ later)) :
    leading c rest = (w, after) := by
  unfold leading at h ⊢
  split
  · next hc =>
    rw [if_pos hc] at h
    obtain ⟨hw, ha⟩ := Prod.mk.inj h
    rw [hw, List.append_cancel_right ha]
  · next hc =>
    rw [if_neg hc] at h
    obtain ⟨run, more, hq⟩ : ∃ run more, quotedRun c (rest ++ later) = (run, more) := ⟨_, _, rfl⟩
    rw [word_eq hq] at h
    obtain ⟨hw, ha⟩ := Prod.mk.inj h
    obtain ⟨behind, rfl⟩ : ∃ behind, more = behind ++ later := by
      refine ⟨more.takeWhile (!isBreak ·) ++ after, ?_⟩
      rw [List.append_assoc, ← ha, List.takeWhile_append_dropWhile]
    obtain ⟨ht, hd⟩ := dropWhile_of_append ha
    rw [word_eq (quotedRun_of_append hq), ← hw, ht, hd]

theorem next?_eq_some_iff :
    next? t = some (token, after) ↔
      ∃ c rest, AllBlank token.gap ∧ isBlank c = false ∧ t = token.gap ++ c :: rest ∧
        leading c rest = (token.text, after) := by
  constructor
  · intro h
    unfold next? at h
    split at h
    · cases h
    · next c rest hd =>
      have hc := List.head?_dropWhile_not isBlank t
      rw [hd] at hc
      cases h
      exact ⟨c, rest, allBlank_takeWhile t, hc, by rw [← hd, List.takeWhile_append_dropWhile], rfl⟩
  · rintro ⟨c, rest, hg, hc, rfl, hl⟩
    unfold next?
    rw [dropWhile_isBlank_append hg, takeWhile_isBlank_append hg]
    simp [hc, hl]

theorem next?_eq_none_iff : next? t = none ↔ AllBlank t := by
  rw [← dropWhile_isBlank_eq_nil_iff, next?]
  split
  · next h => simp [h]
  · next h => simp [h]

theorem next?_of_append (h : next? (t ++ later) = some (token, after ++ later)) :
    next? t = some (token, after) := by
  obtain ⟨c, rest, hg, hc, ht, hl⟩ := next?_eq_some_iff.1 h
  have hr := leading_append c rest
  rw [hl] at hr
  obtain ⟨body, hb⟩ : ∃ body, token.text ++ after = c :: body := by
    cases hw : token.text with
    | nil =>
      have hn := leading_ne_nil c rest
      rw [hl] at hn
      exact absurd hw hn
    | cons d body =>
      rw [hw] at hr
      exact ⟨body ++ after, by rw [(List.cons.inj hr).1, List.cons_append]⟩
  have hrest : rest = body ++ later := by
    rw [← List.append_assoc, hb, List.cons_append] at hr
    exact (List.cons.inj hr).2.symm
  rw [hrest, ← List.cons_append, ← List.append_assoc] at ht
  exact next?_eq_some_iff.2
    ⟨c, body, hg, hc, List.append_cancel_right ht, leading_of_append (hrest ▸ hl)⟩

theorem next?_with_gap {g : Text} (hg : AllBlank g) (h : next? t = some (token, after)) :
    next? (g ++ (token.text ++ after)) = some ({ token with gap := g }, after) := by
  obtain ⟨c, rest, _, hc, _, hl⟩ := next?_eq_some_iff.1 h
  refine next?_eq_some_iff.2 ⟨c, rest, hg, hc, ?_, hl⟩
  have hr := leading_append c rest
  rw [hl] at hr
  rw [← hr]

def EndsWord (t : Text) : Prop := ∀ c ∈ t.head?, isBreak c = true

theorem endsWord_cons (h : isBreak c = true) (t : Text) : EndsWord (c :: t) := by
  intro d hd
  cases hd
  exact h

theorem endsWord_of_allBlank (h : AllBlank t) : EndsWord t := by
  intro c hc
  simp [isBreak, h c (List.mem_of_mem_head? hc)]

theorem takeWhile_append_of_endsWord (hl : EndsWord later) (t : Text) :
    (t ++ later).takeWhile (!isBreak ·) = t.takeWhile (!isBreak ·) ∧
      (t ++ later).dropWhile (!isBreak ·) = t.dropWhile (!isBreak ·) ++ later := by
  induction t with
  | nil =>
    cases later with
    | nil => exact ⟨rfl, rfl⟩
    | cons d later => simp [hl d rfl]
  | cons d t ih =>
    by_cases hd : isBreak d = true
    · simp [hd]
    · simp [hd, ih.1, ih.2]

theorem word_append (hl : EndsWord later) (hq : isQuote c = true → c ∉ rest → c ∉ later) :
    word c (rest ++ later) = ((word c rest).1, (word c rest).2 ++ later) := by
  obtain ⟨run, behind, hr, hr'⟩ : ∃ run behind, quotedRun c rest = (run, behind) ∧
      quotedRun c (rest ++ later) = (run, behind ++ later) := by
    rcases closed_or_open c rest with ⟨inside, after, hc, hi, rfl⟩ | ho
    · refine ⟨_, _, quotedRun_closed hc hi after, ?_⟩
      rw [List.append_assoc, List.cons_append, quotedRun_closed hc hi]
    · refine ⟨_, _, quotedRun_open ho, quotedRun_open fun hc hm ↦ ?_⟩
      rcases List.mem_append.1 hm with hm | hm
      · exact ho hc hm
      · exact hq hc (ho hc) hm
  obtain ⟨ht, hd⟩ := takeWhile_append_of_endsWord hl behind
  rw [word_eq hr, word_eq hr', ht, hd]

theorem leading_append_of_endsWord (hl : EndsWord later)
    (hq : isQuote c = true → c ∉ rest → c ∉ later) :
    leading c (rest ++ later) = ((leading c rest).1, (leading c rest).2 ++ later) := by
  unfold leading
  split
  · rfl
  · exact word_append hl hq

def openQuote? (token : Token) : Option Char :=
  match token.text with
  | [] => none
  | c :: w => if isQuote c ∧ c ∉ w then some c else none

theorem openQuote?_eq_some_iff :
    token.openQuote? = some c ↔ isQuote c = true ∧ ∃ w, token.text = c :: w ∧ c ∉ w := by
  unfold openQuote?
  cases token.text with
  | nil => simp
  | cons d w =>
    constructor
    · intro h
      obtain ⟨⟨hd, hw⟩, rfl⟩ : (isQuote d = true ∧ d ∉ w) ∧ d = c := by simpa using h
      exact ⟨hd, w, rfl, hw⟩
    · intro h
      obtain ⟨hc, w', hw', hnot⟩ := h
      obtain ⟨rfl, rfl⟩ := List.cons.inj hw'
      exact if_pos ⟨hc, hnot⟩

/-- In front of a break a token stays as it is, unless it opens with a quote that comes later. -/
theorem next?_append (hl : EndsWord later) (hq : ∀ c ∈ token.openQuote?, c ∉ later)
    (h : next? t = some (token, after)) : next? (t ++ later) = some (token, after ++ later) := by
  obtain ⟨c, rest, hg, hc, rfl, hw⟩ := next?_eq_some_iff.1 h
  refine next?_eq_some_iff.2 ⟨c, rest ++ later, hg, hc, by simp, ?_⟩
  have opens : isQuote c = true → c ∉ rest → c ∉ later := by
    intro hquote hrest
    have happ := leading_append c rest
    obtain ⟨d, w, htext⟩ := List.exists_cons_of_ne_nil (leading_ne_nil c rest)
    rw [htext, List.cons_append] at happ
    obtain ⟨rfl, hr⟩ := List.cons.inj happ
    rw [hw] at htext
    have hopen : d ∉ w := fun hm ↦ hrest (hr ▸ List.mem_append_left _ hm)
    exact hq d (openQuote?_eq_some_iff.2 ⟨hquote, w, htext, hopen⟩)
  rw [leading_append_of_endsWord hl opens, hw]

theorem isBlank_of_isQuote (h : isQuote c = true) : isBlank c = false := by
  simp only [isQuote, decide_eq_true_eq] at h
  obtain rfl | rfl := h <;> decide

theorem ne_paren_of_isQuote (h : isQuote c = true) : ¬ (c = '(' ∨ c = ')') := by
  rintro (rfl | rfl) <;> exact absurd h (by decide)

/-- Reading `t` gives the tokens `ts` first and comes to stand in front of `rest`. -/
inductive Reads : Text → List Token → Text → Prop
  | nil (t : Text) : Reads t [] t
  | cons {t after rest : Text} {token : Token} {ts : List Token} :
      next? t = some (token, after) → Reads after ts rest → Reads t (token :: ts) rest

namespace Reads

theorem eq_layout_append (h : Reads t ts rest) : t = layout ts ++ rest := by
  induction h with
  | nil t => rfl
  | @cons t after rest token ts hn _ ih =>
    rw [eq_of_next?_eq_some hn, ih]
    simp [layout]

theorem read_eq (h : Reads t ts rest) : read t = ts ++ read rest := by
  induction h with
  | nil t => rfl
  | cons hn _ ih => rw [read_of_next?_eq_some hn, ih, List.cons_append]

theorem trans (h : Reads t us after) (h' : Reads after vs rest) : Reads t (us ++ vs) rest := by
  induction h with
  | nil t => exact h'
  | cons hn _ ih => exact .cons hn (ih h')

theorem split (h : Reads t (us ++ vs) rest) : ∃ after, Reads t us after ∧ Reads after vs rest := by
  induction us generalizing t with
  | nil => exact ⟨t, .nil t, h⟩
  | cons token us ih =>
    cases h with
    | cons hn h =>
      obtain ⟨after, hu, hv⟩ := ih h
      exact ⟨after, .cons hn hu, hv⟩

theorem of_append (h : Reads (t ++ later) ts (rest ++ later)) : Reads t ts rest := by
  induction ts generalizing t with
  | nil =>
    have ht : t ++ later = rest ++ later := h.eq_layout_append
    rw [List.append_cancel_right ht]
    exact .nil rest
  | cons token ts ih =>
    cases h with
    | cons hn h =>
      have ha := h.eq_layout_append
      rw [← List.append_assoc] at ha
      subst ha
      exact .cons (next?_of_append hn) (ih h)

theorem append (hl : EndsWord later) (hq : ∀ token ∈ ts, ∀ c ∈ token.openQuote?, c ∉ later)
    (h : Reads t ts rest) : Reads (t ++ later) ts (rest ++ later) := by
  induction h with
  | nil t => exact .nil _
  | cons hn _ ih =>
    obtain ⟨head, tail⟩ := List.forall_mem_cons.1 hq
    exact .cons (next?_append hl head hn) (ih tail)

theorem append_blank {g : Text} (hg : AllBlank g) (h : Reads t ts rest) :
    Reads (t ++ g) ts (rest ++ g) := by
  refine h.append (endsWord_of_allBlank hg) fun token _ c hc hm ↦ ?_
  have hb := hg c hm
  rw [isBlank_of_isQuote (openQuote?_eq_some_iff.1 hc).1] at hb
  cases hb

end Reads

theorem exists_reads_read (t : Text) : ∃ rest, AllBlank rest ∧ Reads t (read t) rest := by
  induction hn : t.length using Nat.strong_induction_on generalizing t with
  | _ n ih =>
    cases h : next? t with
    | none => exact ⟨t, next?_eq_none_iff.1 h, by rw [read_of_next?_eq_none h]; exact .nil t⟩
    | some found =>
      obtain ⟨token, after⟩ := found
      have hl := length_lt_of_next?_eq_some h
      obtain ⟨rest, hb, hr⟩ := ih after.length (hn ▸ hl) after rfl
      exact ⟨rest, hb, by rw [read_of_next?_eq_some h]; exact .cons h hr⟩

theorem Reads.read_eq_of_allBlank (h : Reads t ts rest) (hr : AllBlank rest) : read t = ts := by
  rw [h.read_eq, read_of_next?_eq_none (next?_eq_none_iff.2 hr), List.append_nil]

theorem read_append_blank {g : Text} (hg : AllBlank g) (t : Text) : read (t ++ g) = read t := by
  obtain ⟨rest, hb, hr⟩ := exists_reads_read t
  exact (hr.append_blank hg).read_eq_of_allBlank (hb.append hg)

def flush : List Token → List Token
  | [] => []
  | token :: ts => { token with gap := [] } :: ts

theorem source_flush (ts : List Token) : source (flush ts) = source ts := by
  cases ts <;> rfl

theorem flush_read_blank_append {g : Text} (hg : AllBlank g) (t : Text) :
    flush (read (g ++ t)) = flush (read t) := by
  cases h : next? t with
  | none =>
    have ht := next?_eq_none_iff.1 h
    rw [read_of_next?_eq_none h, read_of_next?_eq_none (next?_eq_none_iff.2 (hg.append ht))]
  | some found =>
    obtain ⟨token, after⟩ := found
    obtain ⟨c, rest, hgap, hc, ht, hl⟩ := next?_eq_some_iff.1 h
    have h' : next? (g ++ t) = some ({ token with gap := g ++ token.gap }, after) :=
      next?_eq_some_iff.2 ⟨c, rest, hg.append hgap, hc, by rw [ht, List.append_assoc], hl⟩
    rw [read_of_next?_eq_some h, read_of_next?_eq_some h']
    rfl

theorem flush_read_trim (t : Text) : flush (read (trim t)) = flush (read t) := by
  obtain ⟨g, g', hg, hg', ht⟩ := exists_eq_append_trim t
  calc flush (read (trim t))
      = flush (read (g ++ (trim t ++ g'))) := by
        rw [flush_read_blank_append hg, read_append_blank hg']
    _ = flush (read t) := by rw [← ht]

theorem Reads.source_behind {g : Text} (hg : AllBlank g) (h : Reads t (token :: ts) rest) :
    Reads (g ++ source (token :: ts)) ({ token with gap := g } :: ts) [] := by
  cases h with
  | @cons _ after _ _ _ hn h =>
    have ha := h.eq_layout_append
    have ht := eq_of_next?_eq_some hn
    rw [ha, ← List.append_assoc, ← List.append_assoc] at ht
    rw [ht, ha] at hn
    exact .cons (next?_with_gap hg (next?_of_append hn)) (Reads.of_append (ha ▸ h))

/-- The tokens of the source of a range are the range, read without the text around it. -/
theorem Reads.read_source (h : Reads t ts rest) : read (source ts) = flush ts := by
  cases ts with
  | nil => exact read_of_next?_eq_none rfl
  | cons token ts => exact (h.source_behind allBlank_nil).read_eq_of_allBlank allBlank_nil

theorem Reads.read_layout_append {g : Text} (hg : AllBlank g) (h : Reads t ts (g ++ rest)) :
    read (layout ts ++ g) = ts := by
  have ht := h.eq_layout_append
  rw [← List.append_assoc] at ht
  rw [ht] at h
  exact h.of_append.read_eq_of_allBlank hg

def IsRange (ts : List Token) : Prop := ∃ t rest, Reads t ts rest

theorem isRange_read (t : Text) : IsRange (read t) := by
  obtain ⟨rest, _, h⟩ := exists_reads_read t
  exact ⟨t, rest, h⟩

theorem IsRange.within (h : IsRange ts) (hu : us <:+: ts) : IsRange us := by
  obtain ⟨before, behind, rfl⟩ := hu
  obtain ⟨t, rest, h⟩ := h
  obtain ⟨after, h, _⟩ := h.split
  obtain ⟨start, _, h⟩ := h.split
  exact ⟨start, after, h⟩

theorem IsRange.read_source (h : IsRange ts) : read (source ts) = flush ts := by
  obtain ⟨t, rest, h⟩ := h
  exact h.read_source

end ListingFilter.Token
