import ListingFilter.Proofs.Text.Words
import ListingFilter.Proofs.Token.Layer

namespace ListingFilter.Token

open Text

variable {depth : Nat} {c : Char} {g t u w rest : Text} {token first close separator : Token}
  {op : Connective} {ts us inside : List Token} {ranges : List (List Token)}

structure IsSolid (w : Text) : Prop where
  ne_nil : w ≠ []
  solid : ∀ c ∈ w, isBreak c = false ∧ isQuote c = false

theorem isSolid_of_all (hne : w ≠ []) (h : w.all (fun c ↦ !isBreak c && !isQuote c) = true) :
    IsSolid w := by
  simp only [List.all_eq_true, Bool.and_eq_true, Bool.not_eq_true'] at h
  exact ⟨hne, h⟩

structure IsWord (w : Text) : Prop extends IsSolid w where
  kind : kindOf w = .word

/-- Behind the blanks `g`, and in front of a break or the end, a text is read as `ts`. -/
structure Places (g t : Text) (ts : List Token) : Prop where
  ne_nil : ts ≠ []
  reads : ∀ rest, EndsWord rest → Reads (g ++ (t ++ rest)) ts rest
  source_eq : source ts = t

theorem leading_of_isSolid (h : IsSolid (c :: w)) (hr : EndsWord rest) :
    leading c (w ++ rest) = (c :: w, rest) := by
  obtain ⟨⟨hb, hq⟩, hw⟩ := List.forall_mem_cons.1 h.solid
  have hp : ¬ (c = '(' ∨ c = ')') := by
    rintro (rfl | rfl) <;> exact absurd hb (by decide)
  have hrun : quotedRun c (w ++ rest) = ([], w ++ rest) :=
    quotedRun_open fun hc ↦ by rw [hq] at hc; cases hc
  have hall : ∀ d ∈ w, (!isBreak d) = true := by
    intro d hd
    rw [(hw d hd).1]
    rfl
  obtain ⟨ht, hd⟩ := takeWhile_append_of_endsWord hr w
  rw [leading, if_neg hp, word_eq hrun, ht, hd, List.takeWhile_eq_self_iff.2 hall,
    List.dropWhile_eq_nil_iff.2 hall]
  rfl

theorem reads_single (hg : AllBlank g) (hc : isBlank c = false)
    (h : leading c (w ++ rest) = (c :: w, rest)) :
    Reads (g ++ (c :: w ++ rest)) [⟨g, c :: w⟩] rest :=
  .cons (next?_eq_some_iff.2 ⟨c, w ++ rest, hg, hc, rfl, h⟩) (.nil rest)

namespace Places

theorem layout_eq (h : Places g t ts) : layout ts = g ++ t := by
  have hr := (h.reads [] (endsWord_of_allBlank allBlank_nil)).eq_layout_append
  simpa using hr.symm

theorem word (hg : AllBlank g) (h : IsSolid w) : Places g w [⟨g, w⟩] := by
  obtain ⟨c, w, rfl⟩ := List.exists_cons_of_ne_nil h.ne_nil
  refine ⟨by simp, fun rest hr ↦ ?_, by simp [source, layout]⟩
  have hb := isBlank_of_isBreak_eq_false (h.solid c List.mem_cons_self).1
  exact reads_single hg hb (leading_of_isSolid h hr)

theorem append (ht : Places g t ts) (hu : Places [' '] u us) :
    Places g (t ++ ' ' :: u) (ts ++ us) := by
  refine ⟨by simp [ht.ne_nil], fun rest hr ↦ ?_, ?_⟩
  · have hs : EndsWord (' ' :: (u ++ rest)) := endsWord_cons rfl _
    have h := (ht.reads _ hs).trans (hu.reads rest hr)
    simpa using h
  · rw [source_append ht.ne_nil, ht.source_eq, hu.layout_eq]
    rfl

theorem enclose (hg : AllBlank g) (h : Places [] u us) :
    Places g ('(' :: (u ++ [')'])) (⟨g, ['(']⟩ :: (us ++ [⟨[], [')']⟩])) := by
  refine ⟨by simp, fun rest hr ↦ ?_, ?_⟩
  · have hs : EndsWord (')' :: rest) := endsWord_cons rfl rest
    have hopen : Reads (g ++ (['('] ++ (u ++ (')' :: rest)))) [⟨g, ['(']⟩] (u ++ (')' :: rest)) :=
      reads_single hg (by decide) rfl
    have hclose : Reads ([] ++ ([')'] ++ rest)) [⟨[], [')']⟩] rest :=
      reads_single allBlank_nil (by decide) rfl
    have hr := hopen.trans ((h.reads _ hs).trans hclose)
    simpa using hr
  · have hl : layout us = u := h.layout_eq
    rw [source, layout_append, hl]
    rfl

end Places

theorem exists_places_of_words (hg : AllBlank g) (h : EachWord IsWord t) :
    ∃ ts, Places g t ts ∧ ∀ token ∈ ts, token.kind = .word := by
  induction t using words_induction generalizing g with
  | word w hw =>
    have h := (eachWord_iff_of_not_mem hw).1 h
    exact ⟨_, .word hg h.toIsSolid, List.forall_mem_singleton.2 h.kind⟩
  | more w t hw ih =>
    obtain ⟨first, others⟩ := eachWord_append_iff.1 h
    have first := (eachWord_iff_of_not_mem hw).1 first
    obtain ⟨ts, hts, hk⟩ := ih allBlank_space others
    exact ⟨_, (Places.word hg first.toIsSolid).append hts, List.forall_mem_cons.2 ⟨first.kind, hk⟩⟩

theorem isSolid_keyword (op : Connective) : IsSolid op.keyword := by
  cases op <;> exact isSolid_of_all (by decide) (by decide)

theorem kind_keyword (g : Text) (op : Connective) : (Token.mk g op.keyword).kind = .connective op := by
  cases op <;> rfl

theorem depthAfter?_of_words (h : ∀ token ∈ ts, token.kind = .word) (depth : Nat) :
    depthAfter? depth ts = some depth := by
  induction ts with
  | nil => rfl
  | cons token ts ih =>
    obtain ⟨first, others⟩ := List.forall_mem_cons.1 h
    rw [depthAfter?_cons, deepen?_word first, Option.bind_some, ih others]

structure IsSealed (ts : List Token) : Prop where
  balanced : depthAfter? 0 ts = some 0
  cuts_append : ∀ us, cuts 0 (ts ++ us) = (ts ++ (cuts 0 us).1, (cuts 0 us).2)

theorem separator?_succ (depth : Nat) (token : Token) : separator? (depth + 1) token = none := by
  cases h : separator? (depth + 1) token with
  | none => rfl
  | some op => exact absurd (separator?_eq_some_iff.1 h).1 (Nat.succ_ne_zero depth)

theorem cuts_append_inside {d : Nat} (h : depthAfter? depth ts = some d) (us : List Token) :
    cuts (depth + 1) (ts ++ us) = (ts ++ (cuts (d + 1) us).1, (cuts (d + 1) us).2) := by
  induction ts generalizing depth with
  | nil =>
    cases h
    rfl
  | cons token ts ih =>
    rw [depthAfter?_cons] at h
    obtain ⟨e, ht, hd⟩ := Option.bind_eq_some_iff.1 h
    rw [List.cons_append, cuts_cons_of_deepen? (separator?_succ depth token) (deepen?_add ht 1),
      ih hd]
    rfl

namespace IsSealed

theorem of_words (h : ∀ token ∈ ts, token.kind = .word) : IsSealed ts := by
  refine ⟨depthAfter?_of_words h 0, fun us ↦ ?_⟩
  induction ts with
  | nil => rfl
  | cons token ts ih =>
    obtain ⟨first, others⟩ := List.forall_mem_cons.1 h
    have hs : separator? 0 token = none := by simp [separator?, first]
    rw [List.cons_append, cuts_cons_of_deepen? hs (deepen?_word first 0), ih others]
    rfl

theorem append (ht : IsSealed ts) (hu : IsSealed us) : IsSealed (ts ++ us) := by
  refine ⟨?_, fun vs ↦ ?_⟩
  · rw [depthAfter?_append, ht.balanced, Option.bind_some, hu.balanced]
  · rw [List.append_assoc, ht.cuts_append, hu.cuts_append, List.append_assoc]

theorem enclose (hf : first.kind = .opening) (hc : close.kind = .closing)
    (h : depthAfter? 0 inside = some 0) : IsSealed (first :: (inside ++ [close])) := by
  have hfs : separator? 0 first = none := by simp [separator?, hf]
  refine ⟨?_, fun us ↦ ?_⟩
  · rw [depthAfter?_cons, deepen?_opening hf, Option.bind_some, depthAfter?_append,
      depthAfter?_add h 1, Option.bind_some, depthAfter?_cons, deepen?_closing hc]
    rfl
  · rw [List.cons_append, List.append_assoc, cuts_cons_of_deepen? hfs (deepen?_opening hf 0),
      cuts_append_inside h, List.singleton_append,
      cuts_cons_of_deepen? (separator?_succ 0 close) (deepen?_closing hc 0)]
    simp

end IsSealed

inductive Joins (op : Connective) : List (List Token) → List Token → Prop
  | single {ts : List Token} (hne : ts ≠ []) (h : IsSealed ts) : Joins op [ts] ts
  | cons {ts us : List Token} {separator : Token} {ranges : List (List Token)} (hne : ts ≠ [])
    (h : IsSealed ts) (hs : separator.kind = .connective op) (hu : Joins op ranges us) :
    Joins op (ts :: ranges) (ts ++ separator :: us)

namespace Joins

theorem balanced (h : Joins op ranges ts) : depthAfter? 0 ts = some 0 := by
  induction h with
  | single _ h => exact h.balanced
  | cons _ h hs _ ih =>
    rw [depthAfter?_append, h.balanced, Option.bind_some, depthAfter?_cons,
      deepen?_connective hs, Option.bind_some, ih]

theorem forall_ne_nil (h : Joins op ranges ts) : ∀ range ∈ ranges, range ≠ [] := by
  induction h with
  | single hne _ => simpa using hne
  | cons hne _ _ _ ih => exact List.forall_mem_cons.2 ⟨hne, ih⟩

theorem cuts_eq (h : Joins op ranges ts) :
    ∃ first later, ranges = first :: later ∧ cuts 0 ts = (first, later.map fun range ↦ (op, range)) := by
  induction h with
  | @single ts _ h =>
    have hc := h.cuts_append []
    simp only [List.append_nil, cuts] at hc
    exact ⟨ts, [], rfl, hc⟩
  | @cons ts us separator ranges _ h hs _ ih =>
    obtain ⟨first, later, rfl, hc⟩ := ih
    have hsep : separator? 0 separator = some op := separator?_eq_some_iff.2 ⟨rfl, hs⟩
    refine ⟨ts, first :: later, rfl, ?_⟩
    rw [h.cuts_append, cuts_cons_of_separator? hsep, hc, List.append_nil]
    rfl

end Joins

theorem connectiveFault?_eq_none {op? : Option Connective} (hop : ∀ op' ∈ op?, op' = op)
    {previous : List Token} (hp : previous ≠ []) {later : List (List Token)}
    (h : ∀ range ∈ later, range ≠ []) :
    connectiveFault? op? previous (later.map fun range ↦ (op, range)) = none := by
  induction later generalizing op? previous with
  | nil => rfl
  | cons range later ih =>
    obtain ⟨first, others⟩ := List.forall_mem_cons.1 h
    have hany : op?.any (· ≠ op) = false := by
      cases op? with
      | none => rfl
      | some op' => simp [hop op' rfl]
    have hne : previous.isEmpty = false := by simpa using hp
    rw [List.map_cons, connectiveFault?, hany, hne]
    exact ih (by simp) first others

theorem toUnmatched?_eq_none (h : depthAfter? 0 ts = some 0) : toUnmatched? 0 ts = none :=
  toUnmatched?_eq_none_iff.2 (by rw [h]; rfl)

theorem layer_of_isSealed (hne : ts ≠ []) (h : IsSealed ts) : layer ts = .ok ⟨none, [ts]⟩ := by
  have hc := h.cuts_append []
  simp only [List.append_nil, cuts] at hc
  have hb : isBalanced ts = true := by simpa [isBalanced] using h.balanced
  have he : ts.isEmpty = false := by simpa using hne
  simp [layer, hc, connectiveFault?, toUnmatched?_eq_none h.balanced, hb, he]

theorem layer_of_joins (h : Joins op ranges ts) (two : 2 ≤ ranges.length) :
    layer ts = .ok ⟨some op, ranges⟩ := by
  obtain ⟨first, later, rfl, hc⟩ := h.cuts_eq
  obtain ⟨hfirst, hlater⟩ := List.forall_mem_cons.1 h.forall_ne_nil
  have hb : isBalanced ts = true := by simpa [isBalanced] using h.balanced
  have hf : connectiveFault? none first (later.map fun range ↦ (op, range)) = none :=
    connectiveFault?_eq_none (by simp) hfirst hlater
  have hne : later ≠ [] := by
    rintro rfl
    simp at two
  obtain ⟨token, last, hlast⟩ := List.exists_cons_of_ne_nil (hlater _ (List.getLast_mem hne))
  have hl : (later.map fun range ↦ (op, range)).getLast? = some (op, token :: last) := by
    rw [List.getLast?_map, List.getLast?_eq_some_getLast hne, hlast]
    rfl
  rw [layer, hc, hf, toUnmatched?_eq_none h.balanced, hb]
  simp [hl, Function.comp_def]

theorem enclosed?_eq_none_of_joins (h : Joins op ranges ts) (two : 2 ≤ ranges.length) :
    enclosed? ts = none := by
  cases he : enclosed? ts with
  | none => rfl
  | some inside =>
    obtain ⟨first, close, rfl, hf, hc, hb⟩ := enclosed?_eq_some_iff.1 he
    have hsealed := IsSealed.enclose hf hc (by simpa [isBalanced] using hb)
    -- tokens that one pair of parentheses encloses are a single range
    have hl := (layer_of_isSealed (List.cons_ne_nil _ _) hsealed).symm.trans (layer_of_joins h two)
    cases hl

/-- The tokens of texts with a connective between any two. The first text stands behind the blanks
`g`, every other one behind a space. -/
theorem exists_joins {α : Type} {text : α → Text} {R : α → List Token → Prop} {as : List α}
    (op : Connective) (hs : ∀ a ts, R a ts → IsSealed ts) (hne : as ≠ [])
    (h : ∀ a ∈ as, ∀ g, AllBlank g → ∃ ts, Places g (text a) ts ∧ R a ts) (hg : AllBlank g) :
    ∃ ranges ts, Places g (joined (' ' :: (op.keyword ++ [' '])) (as.map text)) ts ∧
      Joins op ranges ts ∧ List.Forall₂ R as ranges := by
  induction as generalizing g with
  | nil => exact absurd rfl hne
  | cons a as ih =>
    obtain ⟨head, others⟩ := List.forall_mem_cons.1 h
    obtain ⟨ts, hts, hr⟩ := head g hg
    cases as with
    | nil =>
      have hj : joined (' ' :: (op.keyword ++ [' '])) ([a].map text) = text a := by
        simp [joined]
      rw [hj]
      exact ⟨[ts], ts, hts, .single hts.ne_nil (hs a ts hr), .cons hr .nil⟩
    | cons a' as =>
      obtain ⟨ranges, us, hus, hjoins, hrs⟩ := ih (by simp) others allBlank_space
      have hj : joined (' ' :: (op.keyword ++ [' '])) ((a :: a' :: as).map text) =
          text a ++ ' ' :: (op.keyword ++
            ' ' :: joined (' ' :: (op.keyword ++ [' '])) ((a' :: as).map text)) := by
        simp [joined, List.intercalate_cons_cons]
      rw [hj]
      exact ⟨ts :: ranges, _,
        hts.append ((Places.word allBlank_space (isSolid_keyword op)).append hus),
        .cons hts.ne_nil (hs a ts hr) (kind_keyword [' '] op) hjoins, .cons hr hrs⟩

end ListingFilter.Token
