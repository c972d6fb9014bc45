import ListingFilter.Proofs.Text.Search

namespace ListingFilter.Text

variable {c : Char} {mark t u w body later rest : Text} {P : Text → Prop} {Q : Char → Prop}

theorem pieces_eq_splitOn (c : Char) (t : Text) : pieces c t = t.splitOn c := by
  induction t with
  | nil => rfl
  | cons d t ih =>
    rw [pieces, List.splitOn_cons_eq_if_modifyHead, ih]
    by_cases hd : d = c
    · simp [hd]
    · obtain ⟨piece, later, hp⟩ := List.exists_cons_of_ne_nil (List.splitOn_ne_nil c t)
      simp [hd, hp]

theorem pieces_append_cons (c : Char) (t u : Text) :
    pieces c (t ++ c :: u) = pieces c t ++ pieces c u := by
  simp only [pieces_eq_splitOn, List.splitOn_append_cons_self]

theorem pieces_of_not_mem (h : c ∉ t) : pieces c t = [t] := by
  rw [pieces_eq_splitOn, List.splitOn_eq_singleton h]

theorem pieces_append_cons_of_not_mem (h : c ∉ w) (t : Text) :
    pieces c (w ++ c :: t) = w :: pieces c t := by
  rw [pieces_append_cons, pieces_of_not_mem h, List.singleton_append]

theorem not_mem_of_mem_pieces (h : w ∈ pieces c t) : c ∉ w := by
  induction t generalizing w with
  | nil => simp [List.mem_singleton.1 h]
  | cons d t ih =>
    rw [pieces] at h
    split at h
    · rcases List.mem_cons.1 h with rfl | h
      · exact List.not_mem_nil
      · exact ih h
    · next hd =>
      obtain ⟨piece, later, hp⟩ := List.exists_cons_of_ne_nil (pieces_ne_nil c t)
      rw [hp] at h ih
      rcases List.mem_cons.1 h with rfl | h
      · simp [Ne.symm hd, ih List.mem_cons_self]
      · exact ih (List.mem_cons_of_mem piece h)

def words (t : Text) : List Text := pieces ' ' t

theorem words_append (t u : Text) : words (t ++ ' ' :: u) = words t ++ words u :=
  pieces_append_cons ' ' t u

theorem words_of_not_mem (h : ' ' ∉ w) : words w = [w] := pieces_of_not_mem h

theorem words_induction {P : Text → Prop} (word : ∀ w, ' ' ∉ w → P w)
    (more : ∀ w t, ' ' ∉ w → P t → P (w ++ ' ' :: t)) (t : Text) : P t := by
  induction hn : t.length using Nat.strongRecOn generalizing t with
  | ind n ih =>
    by_cases hs : ' ' ∈ t
    · obtain ⟨w, u, rfl, hw⟩ := List.eq_append_cons_of_mem hs
      have hl : u.length < n := by
        rw [← hn, List.length_append, List.length_cons]
        omega
      exact more w u hw (ih u.length hl u rfl)
    · exact word t hs

def EachWord (P : Text → Prop) (t : Text) : Prop := ∀ w ∈ words t, P w

theorem eachWord_append_iff : EachWord P (t ++ ' ' :: u) ↔ EachWord P t ∧ EachWord P u := by
  rw [EachWord, words_append, List.forall_mem_append]
  rfl

theorem eachWord_iff_of_not_mem (h : ' ' ∉ w) : EachWord P w ↔ P w := by
  rw [EachWord, words_of_not_mem h, List.forall_mem_singleton]

namespace EachWord

theorem mono {P' : Text → Prop} (h : EachWord P t) (hP : ∀ w, P w → P' w) : EachWord P' t :=
  fun w hw ↦ hP w (h w hw)

theorem tail (h : EachWord P t) : ∀ w ∈ (words t).tail, P w :=
  fun w hw ↦ h w (List.mem_of_mem_tail hw)

theorem append_left (mark : Text) (hm : ' ' ∉ mark) (hP : ∀ w, P w → P (mark ++ w)) (h : EachWord P t) :
    EachWord P (mark ++ t) := by
  by_cases hs : ' ' ∈ t
  · obtain ⟨w, u, rfl, hw⟩ := List.eq_append_cons_of_mem hs
    obtain ⟨first, others⟩ := eachWord_append_iff.1 h
    rw [eachWord_iff_of_not_mem hw] at first
    rw [← List.append_assoc, eachWord_append_iff, eachWord_iff_of_not_mem (by simp [hm, hw])]
    exact ⟨hP w first, others⟩
  · rw [eachWord_iff_of_not_mem hs] at h
    rw [eachWord_iff_of_not_mem (by simp [hm, hs])]
    exact hP t h

theorem append_right (mark : Text) (hm : ' ' ∉ mark) (hP : ∀ w, P w → P (w ++ mark)) (h : EachWord P t) :
    EachWord P (t ++ mark) := by
  induction t using words_induction with
  | word w hw =>
    rw [eachWord_iff_of_not_mem hw] at h
    rw [eachWord_iff_of_not_mem (by simp [hm, hw])]
    exact hP w h
  | more w t hw ih =>
    obtain ⟨first, others⟩ := eachWord_append_iff.1 h
    rw [List.append_assoc, List.cons_append, eachWord_append_iff]
    exact ⟨first, ih others⟩

theorem forall_mem (hP : ∀ w, P w → ∀ c ∈ w, Q c) (hs : Q ' ') (h : EachWord P t) :
    ∀ c ∈ t, Q c := by
  induction t using words_induction with
  | word w hw => exact hP w ((eachWord_iff_of_not_mem hw).1 h)
  | more w t hw ih =>
    obtain ⟨first, others⟩ := eachWord_append_iff.1 h
    intro c hc
    rcases List.mem_append.1 hc with hc | hc
    · exact hP w ((eachWord_iff_of_not_mem hw).1 first) c hc
    · rcases List.mem_cons.1 hc with rfl | hc
      · exact hs
      · exact ih others c hc

theorem head? (hP : ∀ w, P w → ∃ c ∈ w.head?, Q c) (h : EachWord P t) : ∃ c ∈ t.head?, Q c := by
  induction t using words_induction with
  | word w hw => exact hP w ((eachWord_iff_of_not_mem hw).1 h)
  | more w t hw _ =>
    obtain ⟨c, hc, hQ⟩ := hP w ((eachWord_iff_of_not_mem hw).1 (eachWord_append_iff.1 h).1)
    exact ⟨c, by rw [List.head?_append, hc]; rfl, hQ⟩

theorem getLast? (hP : ∀ w, P w → ∃ c ∈ w.getLast?, Q c) (h : EachWord P t) :
    ∃ c ∈ t.getLast?, Q c := by
  induction t using words_induction with
  | word w hw => exact hP w ((eachWord_iff_of_not_mem hw).1 h)
  | more w t hw ih =>
    obtain ⟨c, hc, hQ⟩ := ih (eachWord_append_iff.1 h).2
    exact ⟨c, by rw [List.getLast?_append, List.getLast?_cons, hc]; rfl, hQ⟩

end EachWord

theorem eachWord_joined (hP : ∀ w, P w → P (w ++ [','])) {ts : List Text} (hne : ts ≠ [])
    (h : ∀ t ∈ ts, EachWord P t) : EachWord P (joined [',', ' '] ts) := by
  induction ts with
  | nil => exact absurd rfl hne
  | cons t ts ih =>
    obtain ⟨first, others⟩ := List.forall_mem_cons.1 h
    cases ts with
    | nil => simpa [joined] using first
    | cons u ts =>
      have hj : joined [',', ' '] (t :: u :: ts) =
          (t ++ [',']) ++ ' ' :: joined [',', ' '] (u :: ts) := by
        simp [joined, List.intercalate_cons_cons]
      rw [hj, eachWord_append_iff]
      exact ⟨first.append_right [','] (by decide) hP, ih (by simp) others⟩

theorem tail_words_append (hm : ' ' ∉ mark) (t : Text) :
    (words (mark ++ t)).tail = (words t).tail := by
  by_cases hs : ' ' ∈ t
  · obtain ⟨w, u, rfl, hw⟩ := List.eq_append_cons_of_mem hs
    have hmw : ' ' ∉ mark ++ w := by simp [hm, hw]
    rw [← List.append_assoc, words_append, words_append, words_of_not_mem hw,
      words_of_not_mem hmw]
    rfl
  · have hmt : ' ' ∉ mark ++ t := by simp [hm, hs]
    rw [words_of_not_mem hmt, words_of_not_mem hs]
    rfl

def AfterWord (t : Text) : Prop := ∀ c ∈ t.head?, c = ' '

theorem after?_append_eq_none (hb : ' ' ∉ body) (h : ¬ body <+: w) (hl : AfterWord later) :
    after? body (w ++ later) = none := by
  cases ha : after? body (w ++ later) with
  | none => rfl
  | some rest =>
    have he := after?_eq_some_iff.1 ha
    have hp : body <+: w ++ later := ⟨rest, he.symm⟩
    rcases List.prefix_or_prefix_of_prefix hp (List.prefix_append w later) with hw | ⟨more, rfl⟩
    · exact absurd hw h
    · cases more with
      | nil => simp at h
      | cons c more =>
        rw [List.append_assoc, List.append_cancel_left_eq] at he
        obtain rfl := hl c (by rw [he]; rfl)
        simp at hb

theorem after?_append_space_eq_none (hb : ' ' ∉ body) (hw : ' ' ∉ w) (h : w ≠ body)
    (hl : AfterWord later) : after? (body ++ [' ']) (w ++ later) = none := by
  cases ha : after? (body ++ [' ']) (w ++ later) with
  | none => rfl
  | some rest =>
    have he := after?_eq_some_iff.1 ha
    rw [List.append_assoc, List.singleton_append] at he
    cases later with
    | nil =>
      rw [List.append_nil] at he
      simp [he] at hw
    | cons c later =>
      obtain rfl := hl c rfl
      have hs := congrArg (splitOnce? [' ']) he
      rw [splitOnce?_singleton_append hw, splitOnce?_singleton_append hb] at hs
      cases hs
      exact absurd rfl h

theorem afterWord_nil : AfterWord [] := by
  rintro c ⟨⟩

theorem afterWord_space (t : Text) : AfterWord (' ' :: t) := by
  rintro c ⟨⟩
  rfl

theorem AfterWord.append (ht : AfterWord t) (hu : AfterWord u) : AfterWord (t ++ u) := by
  cases t with
  | nil => exact hu
  | cons c t => exact ht

theorem not_mem_of_mem_words (h : w ∈ words t) : ' ' ∉ w := not_mem_of_mem_pieces h

theorem infix_of_mem_words (h : w ∈ words t) : ' ' :: (w ++ [' ']) <:+: ' ' :: (t ++ [' ']) := by
  induction t using words_induction with
  | word v hv =>
    rw [words_of_not_mem hv, List.mem_singleton] at h
    exact h ▸ List.infix_rfl
  | more v t hv ih =>
    rw [words_append, words_of_not_mem hv, List.singleton_append, List.mem_cons] at h
    rcases h with rfl | h
    · exact ⟨[], t ++ [' '], by simp⟩
    · exact (ih h).trans ⟨' ' :: v, [], by simp⟩

theorem exists_first_word (t : Text) : ∃ w u, w ∈ words t ∧ AfterWord u ∧ t = w ++ u := by
  by_cases hs : ' ' ∈ t
  · obtain ⟨w, u, rfl, hw⟩ := List.eq_append_cons_of_mem hs
    refine ⟨w, ' ' :: u, ?_, afterWord_space u, rfl⟩
    rw [words_append, words_of_not_mem hw]
    exact List.mem_cons_self
  · exact ⟨t, [], by simp [words_of_not_mem hs], afterWord_nil, by simp⟩

/-- A mark behind a space is not found in front of a place behind words that do not begin like it.
The first word has no space in front of it. -/
theorem splitOnce?_words_append (hl : AfterWord later)
    (h : ∀ w ∈ (words t).tail, ∀ u, AfterWord u → after? mark (w ++ u) = none) :
    splitOnce? (' ' :: mark) (t ++ later) =
      (splitOnce? (' ' :: mark) later).map fun (before, after) ↦ (t ++ before, after) := by
  induction t using words_induction with
  | word w hw => exact splitOnce?_append hw mark later
  -- the search passes `w` up to the space behind it, where the words of `t` do not fit the mark
  | more w t hw ih =>
    rw [words_append, words_of_not_mem hw, List.singleton_append, List.tail_cons] at h
    obtain ⟨v, u, hv, hu, ht⟩ := exists_first_word t
    have hnone : after? mark (t ++ later) = none := by
      rw [ht, List.append_assoc]
      exact h v hv _ (hu.append hl)
    rw [List.append_assoc, splitOnce?_append hw, List.cons_append,
      splitOnce?_cons_of_after?_eq_none hnone, ih fun v hv ↦ h v (List.mem_of_mem_tail hv),
      Option.map_map, Option.map_map]
    simp [Function.comp_def]

theorem splitOnce?_eq_none_of_words
    (h : ∀ w ∈ (words t).tail, ∀ u, AfterWord u → after? mark (w ++ u) = none) :
    splitOnce? (' ' :: mark) t = none := by
  have ht := splitOnce?_words_append afterWord_nil h
  rwa [List.append_nil] at ht

theorem splitOnce?_of_words (h : ∀ w ∈ (words t).tail, ∀ u, AfterWord u → after? mark (w ++ u) = none)
    (later : Text) : splitOnce? (' ' :: mark) (t ++ ' ' :: (mark ++ later)) = some (t, later) := by
  have hm : after? mark (mark ++ later) = some later := after?_eq_some_iff.2 rfl
  rw [splitOnce?_words_append (afterWord_space _) h, splitOnce?_cons_of_after?_eq_some hm]
  simp

end ListingFilter.Text
