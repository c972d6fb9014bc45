import ListingFilter.Proofs.Token.Tiling
import Mathlib

namespace ListingFilter

open Text

def Span.shift (offset : Nat) (span : Span) : Span := ⟨offset + span.start, offset + span.stop⟩

namespace Token

variable {t g g' rest after : Text} {token : Token}
  {ts before range behind : List Token}

theorem spansFrom_add (offset more : Nat) (ts : List Token) :
    spansFrom (offset + more) ts = (spansFrom more ts).map (Span.shift offset) := by
  induction ts generalizing more with
  | nil => rfl
  | cons token ts ih =>
    rw [spansFrom, spansFrom, List.map_cons, ← ih]
    simp only [Span.shift, Nat.add_assoc]

theorem spans_range (before range behind : List Token) :
    ((spans (before ++ (range ++ behind))).drop before.length).take range.length =
      spansFrom (layout before).byteCount range := by
  rw [spans, spansFrom_append, spansFrom_append, List.drop_left' (length_spansFrom 0 before),
    List.take_left' (length_spansFrom _ _), Nat.zero_add]

/-- The quoted run that goes on behind the first character of a token, in front of `after`. -/
def run (token : Token) (after : Text) : Text :=
  match token.text with
  | [] => []
  | c :: w => (quotedRun c (w ++ after)).1

def runsBefore (after : Text) : List Token → List Text
  | [] => []
  | token :: ts => token.run (layout ts ++ after) :: runsBefore after ts

def runs (t : Text) : List Text := runsBefore (t.drop (layout (read t)).length) (read t)

theorem run_of_next? (h : next? t = some (token, after)) : token.run after = token.run [] := by
  obtain ⟨c, rest, -, -, -, hl⟩ := next?_eq_some_iff.1 h
  obtain ⟨d, w, hw⟩ := List.exists_cons_of_ne_nil (text_ne_nil_of_next?_eq_some h)
  have hr := leading_append c rest
  rw [hl, hw, List.cons_append] at hr
  obtain ⟨rfl, hrest⟩ := List.cons.inj hr
  simp only [run, hw, List.append_nil]
  by_cases hparen : d = '(' ∨ d = ')'
  · have hquote : isQuote d ≠ true := fun hq ↦ ne_paren_of_isQuote hq hparen
    rw [quotedRun_open fun hq ↦ absurd hq hquote, quotedRun_open fun hq ↦ absurd hq hquote]
  · rw [leading, if_neg hparen] at hl
    obtain ⟨run, behind, hrun⟩ : ∃ run behind, quotedRun d rest = (run, behind) := ⟨_, _, rfl⟩
    rw [word_eq hrun] at hl
    obtain ⟨-, ha⟩ := Prod.mk.inj hl
    have hbehind : behind = behind.takeWhile (!isBreak ·) ++ after := by
      rw [← ha, List.takeWhile_append_dropWhile]
    rw [← hrest, hbehind] at hrun
    rw [hrun, quotedRun_of_append hrun]

theorem Reads.runsBefore_eq (h : Reads t ts rest) : runsBefore rest ts = ts.map (run · []) := by
  induction h with
  | nil => rfl
  | cons hn h ih =>
    rw [runsBefore, List.map_cons, ih, ← h.eq_layout_append, run_of_next? hn]

theorem runs_eq (t : Text) : runs t = (read t).map (run · []) := by
  obtain ⟨rest, -, h⟩ := exists_reads_read t
  have hdrop : t.drop (layout (read t)).length = rest :=
    (congrArg (List.drop _) h.eq_layout_append).trans List.drop_left
  rw [runs, hdrop, h.runsBefore_eq]

theorem runs_range (h : read t = before ++ (range ++ behind)) :
    ((runs t).drop before.length).take range.length = range.map (run · []) := by
  rw [runs_eq, h, List.map_append, List.map_append, List.drop_left' (List.length_map _),
    List.take_left' (List.length_map _)]

theorem Reads.read_between (hg : AllBlank g) (hg' : AllBlank g') (h : Reads t (token :: ts) rest) :
    read (g ++ (source (token :: ts) ++ g')) = { token with gap := g } :: ts := by
  have hr := (h.source_behind hg).append_blank hg'
  rw [List.append_assoc] at hr
  exact hr.read_eq_of_allBlank hg'

/-- A slice of a text from a token to the same or a later one, with or without blanks that stand
around it in the text, has the tokens of the text and their spans, less what stands in front of the
slice; and no quoted run is another one than in the text. -/
theorem read_slice (h : read t = before ++ (range ++ behind)) (hne : range ≠ []) :
    ∃ span, coverAll? (((spans (read t)).drop before.length).take range.length) = some span ∧
      span.Holds t (source range) ∧
      ∀ front g g' back slice : Text, slice = g ++ (source range ++ g') → t = front ++ (slice ++ back) →
        span.start = front.byteCount + g.byteCount → AllBlank g → AllBlank g' →
        (read slice).map kind = range.map kind ∧ (read slice).map text = range.map text ∧
          (spans (read slice)).map (Span.shift front.byteCount) =
            ((spans (read t)).drop before.length).take range.length ∧
          runs slice = ((runs t).drop before.length).take range.length := by
  have hread : before ++ range ++ behind = read t := by rw [h, List.append_assoc]
  obtain ⟨_, _, hrange⟩ := (isRange_read t).within ⟨before, behind, hread⟩
  obtain ⟨rest, -, hr⟩ := exists_reads_read t
  rw [h] at hr
  obtain ⟨span, hcover, holds⟩ := hr.coverAll?_eq hne
  rw [runs_range h, h]
  refine ⟨span, hcover, holds, ?_⟩
  rintro front g g' back slice rfl - hstart hg hg'
  obtain ⟨token, ts, rfl⟩ := List.exists_cons_of_ne_nil hne
  have hbetween := hrange.read_between hg hg'
  rw [runs_eq, hbetween]
  refine ⟨rfl, rfl, ?_, rfl⟩
  rw [spans_range, coverAll?_spansFrom] at hcover
  cases hcover
  have hplace : (layout before).byteCount + token.gap.byteCount =
      front.byteCount + g.byteCount := hstart
  rw [spans_range, spans, ← spansFrom_add, Nat.add_zero, spansFrom, spansFrom, hplace]

theorem read_slice_quotes :
    let t : Text := .ofString "é 'a) (b' AND 'c d"
    let slice : Text := .ofString " 'a) (b' AND "
    (read slice).map kind = [.word, .connective .and] ∧
      (read slice).map text = [Text.ofString "'a) (b'", Text.ofString "AND"] ∧
      (spans (read slice)).map (Span.shift 2) = ((spans (read t)).drop 1).take 2 ∧
      runs slice = [Text.ofString "a) (b'", []] := by
  intro t slice
  have h : read (.ofString "é 'a) (b' AND 'c d") = [⟨[], ['é']⟩] ++
      ([⟨[' '], .ofString "'a) (b'"⟩, ⟨[' '], .ofString "AND"⟩] ++
        [⟨[' '], .ofString "'c"⟩, ⟨[' '], .ofString "d"⟩]) := by cbv
  obtain ⟨span, hcover, -, sliced⟩ := read_slice h (by simp)
  have hspan : span.start = 3 := by
    rw [h] at hcover
    cases hcover
    rfl
  obtain ⟨hkinds, htexts, hspans, hruns⟩ :=
    sliced ['é'] [' '] [' '] (.ofString "'c d") slice rfl rfl hspan (by decide) (by decide)
  refine ⟨hkinds, htexts, hspans, ?_⟩
  rw [hruns, runs_range h]
  rfl

end Token

end ListingFilter
