import ListingFilter.Proofs.Token.Division
import ListingFilter.Proofs.Token.Locality

namespace ListingFilter.Group

open Text Token

variable {depth : Nat} {t s : Text} {token : Token} {ts us : List Token}

theorem text_of_kind_opening (h : token.kind = .opening) : token.text = ['('] := by
  by_contra ho
  rw [kind, kindOf, if_neg ho] at h
  split at h
  · cases h
  · split at h <;> cases h

theorem text_of_kind_closing (h : token.kind = .closing) : token.text = [')'] := by
  by_contra hc
  rw [kind, kindOf, if_neg hc] at h
  split at h
  · cases h
  · split at h <;> cases h

/-- The tokens that are looked at before the parenthesis that closes a group; all of them where there
is no such parenthesis. -/
def scanned (ts : List Token) : List Token := (splitAtClosing? 0 ts).elim ts Prod.fst

theorem isSome_depthAfter?_of_splitAtClosing?_eq_none (h : splitAtClosing? depth ts = none) :
    (depthAfter? depth ts).isSome := by
  induction ts generalizing depth with
  | nil => rfl
  | cons token ts ih =>
    rw [splitAtClosing?_cons] at h
    rw [depthAfter?_cons]
    cases hd : deepen? depth token with
    | none =>
      rw [hd] at h
      cases h
    | some d =>
      rw [hd] at h
      exact ih (Option.map_eq_none_iff.1 h)

theorem closed_le_of_prefix_scanned (h : us <+: scanned ts) : closed us ≤ opened us := by
  unfold scanned at h
  cases hs : splitAtClosing? 0 ts with
  | none =>
    rw [hs] at h
    obtain ⟨d, hd⟩ := Option.isSome_iff_exists.1 (isSome_depthAfter?_of_splitAtClosing?_eq_none hs)
    have hle := (depthAfter?_eq_some_iff.1 hd).1 us h
    rwa [Nat.zero_add] at hle
  | some found =>
    obtain ⟨inside, close, after⟩ := found
    rw [hs] at h
    exact (matched_iff.2 (splitAtClosing?_eq_some_iff.1 hs).2.1).closed_le us h

theorem isBalanced_iff : isBalanced ts = true ↔ Matched ts := by
  rw [matched_iff, isBalanced, decide_eq_true_eq]

theorem exists_inner?_iff :
    (∃ s, inner? t = some s) ↔ ∃ first inside close, read t = first :: (inside ++ [close]) ∧
      first.kind = .opening ∧ close.kind = .closing ∧ Matched inside := by
  constructor
  · rintro ⟨s, hs⟩
    obtain ⟨first, inside, close, hr, hf, hc, hb, -⟩ := inner?_eq_some_iff.1 hs
    exact ⟨first, inside, close, hr, hf, hc, isBalanced_iff.1 hb⟩
  · rintro ⟨first, inside, close, hr, hf, hc, hm⟩
    exact ⟨_, inner?_eq_some_iff.2 ⟨first, inside, close, hr, hf, hc, isBalanced_iff.2 hm, rfl⟩⟩

theorem exists_between_of_inner? (h : inner? t = some s) :
    ∃ front back first close, AllBlank front ∧ AllBlank back ∧
      t = front ++ '(' :: (s ++ ')' :: back) ∧ read t = first :: (read s ++ [close]) ∧
      spans (read t) = ⟨front.byteCount, front.byteCount + 1⟩ ::
        ((spans (read s)).map (Span.shift (front.byteCount + 1)) ++
          [⟨front.byteCount + 1 + s.byteCount, front.byteCount + 1 + s.byteCount + 1⟩]) := by
  obtain ⟨first, inside, close, hread, hf, hc, -, rfl⟩ := inner?_eq_some_iff.1 h
  obtain ⟨back, hback, hr⟩ := exists_reads_read t
  rw [hread] at hr
  cases hr with
  | cons hn hr =>
    obtain ⟨_, _, hgap, -⟩ := next?_eq_some_iff.1 hn
    obtain ⟨middle, hinside, hclose⟩ := hr.split
    cases hclose with
    | cons hn' hnil =>
      cases hnil
      obtain ⟨_, _, hgap', -⟩ := next?_eq_some_iff.1 hn'
      have ht := eq_of_next?_eq_some hn
      have hm := eq_of_next?_eq_some hn'
      rw [text_of_kind_opening hf, hinside.eq_layout_append, hm, text_of_kind_closing hc] at ht
      rw [hm] at hinside
      have hs := hinside.read_layout_append hgap'
      refine ⟨first.gap, back, first, close, hgap, hback, ?_, ?_, ?_⟩
      · rw [ht]
        simp
      · rw [hs, hread]
      · have hopen : byteCount ['('] = 1 := rfl
        have hclose : byteCount [')'] = 1 := rfl
        rw [hread, hs, spans, spansFrom, spansFrom_append, text_of_kind_opening hf, spans,
          ← spansFrom_add, byteCount_append]
        simp [spansFrom, text_of_kind_closing hc, hopen, hclose, Nat.add_assoc]

theorem ofText_of_inner? (h : inner? t = some s) : Level.ofText t = .ok ⟨none, [trim t]⟩ := by
  obtain ⟨first, inside, close, hr, hf, hc, hb, -⟩ := inner?_eq_some_iff.1 h
  have hsealed := IsSealed.enclose hf hc (matched_iff.1 (isBalanced_iff.1 hb))
  rw [← hr] at hsealed
  have hne : read t ≠ [] := by
    rw [hr]
    exact List.cons_ne_nil _ _
  rw [Level.ofText, Level.ofTokens_eq_layer, layer_of_isSealed hne hsealed, ← source_read]
  rfl

/-- A text has an inside exactly where its tokens are two parentheses with matching ones between
them. The depth behind the first one stays positive in front of every token that is looked at. The
inside is the source between the two, its tokens are those between them in their places, and the
text as a whole is one segment. -/
theorem inner?_exact (t : Text) :
    ((∃ s, inner? t = some s) ↔ ∃ first inside close, read t = first :: (inside ++ [close]) ∧
        first.kind = .opening ∧ close.kind = .closing ∧ Matched inside) ∧
      (∀ first rest, read t = first :: rest → ∀ us, us <+: scanned rest →
        (0 : Int) < 1 + opened us - closed us) ∧
      ∀ s, inner? t = some s →
        (∃ front back first close, AllBlank front ∧ AllBlank back ∧
          t = front ++ '(' :: (s ++ ')' :: back) ∧ read t = first :: (read s ++ [close]) ∧
          spans (read t) = ⟨front.byteCount, front.byteCount + 1⟩ ::
            ((spans (read s)).map (Span.shift (front.byteCount + 1)) ++
              [⟨front.byteCount + 1 + s.byteCount, front.byteCount + 1 + s.byteCount + 1⟩])) ∧
          Level.ofText t = .ok ⟨none, [trim t]⟩ := by
  refine ⟨exists_inner?_iff, fun first rest _ us hus ↦ ?_, fun s hs ↦ ?_⟩
  · have hle := closed_le_of_prefix_scanned hus
    omega
  · exact ⟨exists_between_of_inner? hs, ofText_of_inner? hs⟩

theorem inner?_exact_quotes :
    let t : Text := .ofString " ((ç) AND ')' 'd )"
    let s : Text := .ofString "(ç) AND ')' 'd "
    let seen : List Token := [⟨[], ['(']⟩, ⟨[], ['ç']⟩, ⟨[], [')']⟩]
    inner? t = some s ∧ (∃ first close, read t = first :: (read s ++ [close])) ∧
      (0 : Int) < 1 + opened seen - closed seen ∧ Level.ofText t = .ok ⟨none, [trim t]⟩ := by
  intro t s seen
  have hinner : inner? (.ofString " ((ç) AND ')' 'd )") = some (.ofString "(ç) AND ')' 'd ") := by cbv
  have hread : read (.ofString " ((ç) AND ')' 'd )") = ⟨[' '], ['(']⟩ :: (seen ++
      [⟨[' '], .ofString "AND"⟩, ⟨[' '], .ofString "')'"⟩, ⟨[' '], .ofString "'d"⟩,
        ⟨[' '], [')']⟩]) := by cbv
  obtain ⟨-, depth, inside⟩ := inner?_exact t
  obtain ⟨⟨_, _, first, close, -, -, -, hbetween, -⟩, hlevel⟩ := inside s hinner
  exact ⟨hinner, ⟨first, close, hbetween⟩, depth _ _ hread seen (List.prefix_append _ _), hlevel⟩

end ListingFilter.Group
