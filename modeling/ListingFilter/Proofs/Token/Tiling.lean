import ListingFilter.Proofs.Token.Source
import Mathlib.Data.List.Forall2

namespace ListingFilter.Token

open Text

variable {c : Char} {offset : Nat} {t u v w rest after front back : Text} {span : Span}
  {token : Token} {ts : List Token}

structure IsUnbroken (w : Text) : Prop where
  ne_nil : w ≠ []
  unbroken : ∀ c ∈ w, isBreak c = false

/-- A word that begins with a quote and has the quote again. Only between the two may there be
blanks and parentheses. -/
def HasQuotedRun (w : Text) : Prop :=
  ∃ quote inside after, isQuote quote = true ∧ w = quote :: (inside ++ quote :: after) ∧
    quote ∉ inside ∧ ∀ c ∈ after, isBreak c = false

inductive IsLexeme (after : Text) : Kind → Text → Prop
  | opening : IsLexeme after .opening ['(']
  | closing : IsLexeme after .closing [')']
  | connective (op : Connective) (ends : EndsWord after) :
    IsLexeme after (.connective op) op.keyword
  | word {w : Text} (hw : IsUnbroken w ∨ HasQuotedRun w)
    (keyword : ∀ op : Connective, w ≠ op.keyword) (ends : EndsWord after) : IsLexeme after .word w

theorem IsLexeme.ne_nil {kind : Kind} (h : IsLexeme after kind w) : w ≠ [] := by
  cases h with
  | opening => exact List.cons_ne_nil _ _
  | closing => exact List.cons_ne_nil _ _
  | connective op => cases op <;> exact List.cons_ne_nil _ _
  | word hw =>
    obtain hw | ⟨quote, inside, rest, -, rfl, -⟩ := hw
    · exact hw.ne_nil
    · exact List.cons_ne_nil _ _

theorem endsWord_dropWhile (t : Text) : EndsWord (t.dropWhile (!isBreak ·)) := by
  intro c hc
  have h := List.head?_dropWhile_not (!isBreak ·) t
  rw [Option.mem_def.1 hc] at h
  simpa using h

theorem isBreak_of_mem_takeWhile (hc : c ∈ t.takeWhile (!isBreak ·)) : isBreak c = false := by
  simpa using List.mem_takeWhile_imp hc

theorem word_cases (hc : isBreak c = false) (rest : Text) :
    (IsUnbroken (word c rest).1 ∨ HasQuotedRun (word c rest).1) ∧ EndsWord (word c rest).2 := by
  obtain ⟨inside, behind, hquote, hi, rfl⟩ | ho := closed_or_open c rest
  · rw [word_eq (quotedRun_closed hquote hi behind)]
    refine ⟨.inr ⟨c, inside, behind.takeWhile (!isBreak ·), hquote, by simp, hi, ?_⟩, ?_⟩
    · exact fun _ ↦ isBreak_of_mem_takeWhile
    · exact endsWord_dropWhile behind
  · rw [word_eq (quotedRun_open ho)]
    refine ⟨.inl ⟨List.cons_ne_nil _ _, List.forall_mem_cons.2 ⟨hc, ?_⟩⟩, endsWord_dropWhile rest⟩
    exact fun _ ↦ isBreak_of_mem_takeWhile

theorem kindOf_of_ne (ho : w ≠ ['(']) (hc : w ≠ [')']) :
    (∃ op : Connective, w = op.keyword ∧ kindOf w = .connective op) ∨
      (∀ op : Connective, w ≠ op.keyword) ∧ kindOf w = .word := by
  rw [kindOf, if_neg ho, if_neg hc]
  cases h : Connective.ofKeyword? w with
  | some op => exact .inl ⟨op, Connective.ofKeyword?_eq_some_iff.1 h, rfl⟩
  | none =>
    refine .inr ⟨fun op hw ↦ ?_, rfl⟩
    rw [Connective.ofKeyword?_eq_some_iff.2 hw] at h
    cases h

theorem isLexeme_of_next? (h : next? t = some (token, after)) :
    IsLexeme after token.kind token.text := by
  obtain ⟨c, rest, -, hblank, -, hl⟩ := next?_eq_some_iff.1 h
  unfold leading at hl
  split at hl
  · next hparen =>
    obtain ⟨htext, -⟩ := Prod.mk.inj hl
    rw [kind, ← htext]
    obtain rfl | rfl := hparen
    · exact .opening
    · exact .closing
  · next hparen =>
    have hbreak : isBreak c = false := by simpa [isBreak, hblank] using hparen
    obtain ⟨hword, ends⟩ := word_cases hbreak rest
    have first : (word c rest).1.head? = some c := rfl
    rw [hl] at hword ends first
    have ne : ∀ d, isBreak d = true → token.text ≠ [d] := by
      intro d hd htext
      rw [htext] at first
      cases first
      rw [hd] at hbreak
      cases hbreak
    obtain ⟨op, htext, hk⟩ | ⟨keyword, hk⟩ := kindOf_of_ne (ne '(' rfl) (ne ')' rfl)
    · rw [kind, hk, htext]
      exact .connective op ends
    · rw [kind, hk]
      exact .word hword keyword ends

/-- The span of a token cuts its text out of `t`, and the text is right for what follows. -/
def LiesIn (t : Text) (span : Span) (token : Token) : Prop :=
  ∃ front back, t = front ++ (token.text ++ back) ∧
    span = ⟨front.byteCount, front.byteCount + token.text.byteCount⟩ ∧
    IsLexeme back token.kind token.text

theorem Reads.liesIn (h : Reads t ts rest) (front : Text) :
    List.Forall₂ (LiesIn (front ++ t)) (spansFrom front.byteCount ts) ts := by
  induction h generalizing front with
  | nil => exact .nil
  | @cons t after rest token ts hn _ ih =>
    have ht := eq_of_next?_eq_some hn
    have later := ih (front ++ (token.gap ++ token.text))
    rw [List.append_assoc, List.append_assoc, ← ht, byteCount_append, byteCount_append,
      ← Nat.add_assoc] at later
    refine .cons ⟨front ++ token.gap, after, ?_, ?_, isLexeme_of_next? hn⟩ later
    · rw [ht, List.append_assoc]
    · rw [byteCount_append]

theorem byteCount_pos (h : w ≠ []) : 0 < w.byteCount := by
  obtain ⟨c, w, rfl⟩ := List.exists_cons_of_ne_nil h
  exact Nat.add_pos_left c.utf8Size_pos _

theorem LiesIn.start_lt_stop (h : LiesIn t span token) : span.start < span.stop := by
  obtain ⟨front, back, -, rfl, hl⟩ := h
  exact Nat.lt_add_of_pos_right (byteCount_pos hl.ne_nil)

theorem le_start_of_mem_spansFrom (h : span ∈ spansFrom offset ts) : offset ≤ span.start := by
  induction ts generalizing offset with
  | nil => cases h
  | cons token ts ih =>
    rw [spansFrom] at h
    obtain rfl | h := List.mem_cons.1 h
    · exact Nat.le_add_right _ _
    · have hle := ih h
      omega

theorem pairwise_spansFrom (offset : Nat) (ts : List Token) :
    (spansFrom offset ts).Pairwise fun span later ↦ span.stop ≤ later.start := by
  induction ts generalizing offset with
  | nil => exact .nil
  | cons token ts ih => exact .cons (fun _ ↦ le_start_of_mem_spansFrom) (ih _)

theorem cons_within_or_behind (h : front ++ c :: back = u ++ v) :
    (∃ middle, u = front ++ c :: middle) ∨ ∃ middle, front = u ++ middle ∧ v = middle ++ c :: back := by
  obtain ⟨middle, hu, hb⟩ | ⟨middle, hf, hv⟩ := List.append_eq_append_iff.1 h
  · cases middle with
    | nil => exact .inr ⟨[], by simpa using hu.symm, hb.symm⟩
    | cons d middle =>
      obtain ⟨rfl, -⟩ := List.cons.inj hb
      exact .inl ⟨middle, hu⟩
  · exact .inr ⟨middle, hf, hv⟩

theorem Reads.exists_span (h : Reads t ts rest) (hr : AllBlank rest) (ht : t = front ++ c :: back)
    (hc : isBlank c = false) (offset : Nat) :
    ∃ span ∈ spansFrom offset ts,
      span.start ≤ offset + front.byteCount ∧ offset + front.byteCount + c.utf8Size ≤ span.stop := by
  induction h generalizing front offset with
  | nil =>
    rw [hr c (by simp [ht])] at hc
    cases hc
  | @cons t after rest token ts hn _ ih =>
    obtain ⟨_, _, hgap, -⟩ := next?_eq_some_iff.1 hn
    obtain ⟨middle, hg⟩ | ⟨middle, rfl, hv⟩ :=
      cons_within_or_behind (ht.symm.trans (eq_of_next?_eq_some hn))
    · rw [hgap c (by simp [hg])] at hc
      cases hc
    · obtain ⟨more, hw⟩ | ⟨more, rfl, ha⟩ := cons_within_or_behind hv.symm
      · refine ⟨_, List.mem_cons_self, ?_⟩
        simp only [hw, byteCount_append, byteCount]
        omega
      · obtain ⟨span, hs, hstart, hstop⟩ :=
          ih hr ha (offset + token.gap.byteCount + token.text.byteCount)
        refine ⟨span, List.mem_cons_of_mem _ hs, ?_⟩
        rw [byteCount_append, byteCount_append]
        omega

/-- The tokens of a text run from one end to the other of what trimming leaves of it. -/
theorem source_read (t : Text) : source (read t) = trim t := by
  obtain ⟨rest, hr, h⟩ := exists_reads_read t
  have hsource := h.trim_source
  have ht := h.eq_layout_append
  generalize read t = ts at h hsource ht ⊢
  rw [ht, trim_append_blank hr]
  cases h with
  | nil => rfl
  | cons hn _ =>
    obtain ⟨_, _, hgap, -⟩ := next?_eq_some_iff.1 hn
    rw [layout_cons, trim_blank_append hgap, hsource]

theorem read_eq_nil_iff : read t = [] ↔ trim t = [] := by
  rw [← source_read]
  constructor
  · intro h
    rw [h]
    rfl
  · intro h
    by_contra hne
    exact (isRange_read t).source_ne_nil hne h

theorem exists_coverAll?_spans (t : Text) :
    ∃ front back : Text, AllBlank front ∧ AllBlank back ∧ t = front ++ (trim t ++ back) ∧
      coverAll? (spans (read t)) = if trim t = [] then none
        else some ⟨front.byteCount, front.byteCount + (trim t).byteCount⟩ := by
  obtain ⟨rest, hr, h⟩ := exists_reads_read t
  have hsource := source_read t
  have ht := h.eq_layout_append
  generalize read t = ts at h hsource ht
  cases h with
  | nil =>
    have hnil : trim t = [] := hsource.symm
    refine ⟨[], t, allBlank_nil, hr, ?_, ?_⟩
    · rw [hnil]
      rfl
    · rw [if_pos hnil]
      rfl
  | @cons _ _ _ token ts hn h =>
    obtain ⟨_, _, hgap, -⟩ := next?_eq_some_iff.1 hn
    have hne : trim t ≠ [] := by
      rw [← hsource, source]
      exact List.append_ne_nil_of_left_ne_nil (text_ne_nil_of_next?_eq_some hn) _
    refine ⟨token.gap, rest, hgap, hr, ?_, ?_⟩
    · rw [← hsource, ← List.append_assoc, ← layout_cons, ← ht]
    · rw [if_neg hne, spans, coverAll?_spansFrom, Nat.zero_add, hsource]

structure Tiles (t : Text) (ts : List Token) : Prop where
  lies : List.Forall₂ (LiesIn t) (spans ts) ts
  start_lt_stop : ∀ span ∈ spans ts, span.start < span.stop
  ordered : (spans ts).Pairwise fun span later ↦ span.stop ≤ later.start
  blank_or_covered : ∀ (front : Text) (c : Char) (back : Text), t = front ++ c :: back → isBlank c = true ∨
    ∃ span ∈ spans ts, span.start ≤ front.byteCount ∧ front.byteCount + c.utf8Size ≤ span.stop
  cover : ∃ front back : Text, AllBlank front ∧ AllBlank back ∧ t = front ++ (trim t ++ back) ∧
    coverAll? (spans ts) = if trim t = [] then none
      else some ⟨front.byteCount, front.byteCount + (trim t).byteCount⟩
  eq_nil_iff : ts = [] ↔ trim t = []

/-- The tokens of a text are what it consists of, less blanks. -/
theorem tiles_read (t : Text) : Tiles t (read t) := by
  obtain ⟨rest, hr, h⟩ := exists_reads_read t
  have lies : List.Forall₂ (LiesIn t) (spans (read t)) (read t) := h.liesIn []
  have lies' := lies.imp fun _ _ hl ↦ And.intro hl.start_lt_stop hl
  refine ⟨lies, ((List.forall₂_and_left _ _).1 lies').1, pairwise_spansFrom 0 _,
    fun front c back ht ↦ ?_, exists_coverAll?_spans t, read_eq_nil_iff⟩
  cases hc : isBlank c with
  | true => exact .inl rfl
  | false =>
    have hspan := h.exists_span hr ht hc 0
    rw [Nat.zero_add] at hspan
    exact .inr hspan

example : spans (read (.ofString "é 'a (b'ç)AND ")) = [⟨0, 2⟩, ⟨3, 11⟩, ⟨11, 12⟩, ⟨12, 15⟩] := by
  cbv

end ListingFilter.Token
