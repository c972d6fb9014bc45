import ListingFilter.Filter.Level
import ListingFilter.Proofs.Token.Nesting
import ListingFilter.Proofs.Token.Range

namespace ListingFilter.Token

variable {depth : Nat} {op : Connective} {op? : Option Connective} {t : Token}
  {ts first previous : List Token} {later : List (Connective × List Token)}

def separator? (depth : Nat) (t : Token) : Option Connective :=
  match t.kind, depth with
  | .connective op, 0 => some op
  | _, _ => none

/-- The tokens in front of the first connective outside all parentheses, and each later range with
the connective in front of it. A parenthesis that closes nothing ends the last range. -/
def cuts (depth : Nat) : List Token → List Token × List (Connective × List Token)
  | [] => ([], [])
  | t :: ts =>
    match separator? depth t, deepen? depth t with
    | some op, _ => ([], (op, (cuts depth ts).1) :: (cuts depth ts).2)
    | none, some depth => (t :: (cuts depth ts).1, (cuts depth ts).2)
    | none, none => ([], [])

/-- The first fault of the connectives in front of the `later` ranges. `op?` is the connective of
the ranges before them, and `previous` the last of these. -/
def connectiveFault? (op? : Option Connective) (previous : List Token) :
    List (Connective × List Token) → Option Fault
  | [] => none
  | (op, range) :: later =>
    if op?.any (· ≠ op) then some .mixedConnectives
    else if previous.isEmpty then some (.missingBefore op)
    else connectiveFault? (some op) range later

structure Layer where
  op? : Option Connective
  ranges : List (List Token)

def Layer.level (l : Layer) : Level := ⟨l.op?, l.ranges.map source⟩

def layer (ts : List Token) : Except FilterError Layer :=
  match connectiveFault? none (cuts 0 ts).1 (cuts 0 ts).2, toUnmatched? 0 ts with
  | some fault, _ => .error (.malformed fault (source ts))
  | none, some seen => .error (.malformed .unbalancedClosing (source seen))
  | none, none =>
    if isBalanced ts then
      match (cuts 0 ts).2.getLast? with
      | none => .ok ⟨none, if (cuts 0 ts).1.isEmpty then [] else [(cuts 0 ts).1]⟩
      | some (op, []) => .error (.malformed (.missingAfter op) (source ts))
      | some (op, _) => .ok ⟨some op, (cuts 0 ts).1 :: (cuts 0 ts).2.map Prod.snd⟩
    else .error (.malformed .unbalancedOpening (source ts))

theorem separator?_eq_some_iff : separator? depth t = some op ↔ depth = 0 ∧ t.kind = .connective op := by
  unfold separator?
  cases t.kind <;> cases depth <;> simp

theorem deepen?_of_separator? (h : separator? depth t = some op) : deepen? depth t = some depth :=
  deepen?_connective (separator?_eq_some_iff.1 h).2 depth

theorem cuts_cons_of_separator? (h : separator? depth t = some op) (ts : List Token) :
    cuts depth (t :: ts) = ([], (op, (cuts depth ts).1) :: (cuts depth ts).2) := by
  simp [cuts, h]

theorem cuts_cons_of_deepen? {d : Nat} (hs : separator? depth t = none) (h : deepen? depth t = some d)
    (ts : List Token) : cuts depth (t :: ts) = (t :: (cuts d ts).1, (cuts d ts).2) := by
  simp [cuts, hs, h]

theorem cuts_cons_of_unmatched (h : deepen? depth t = none) (ts : List Token) :
    cuts depth (t :: ts) = ([], []) := by
  cases hs : separator? depth t with
  | none => simp [cuts, hs, h]
  | some op => rw [deepen?_of_separator? hs] at h; cases h

theorem prefix_cuts (depth : Nat) (ts : List Token) : (cuts depth ts).1 <+: ts := by
  induction ts generalizing depth with
  | nil => exact List.prefix_rfl
  | cons t ts ih =>
    cases hs : separator? depth t with
    | some op =>
      rw [cuts_cons_of_separator? hs]
      exact List.nil_prefix
    | none =>
      cases hd : deepen? depth t with
      | none =>
        rw [cuts_cons_of_unmatched hd]
        exact List.nil_prefix
      | some d =>
        rw [cuts_cons_of_deepen? hs hd]
        exact List.cons_prefix_cons.2 ⟨rfl, ih d⟩

theorem infix_of_mem_cuts {range : Connective × List Token} (h : range ∈ (cuts depth ts).2) :
    range.2 <:+: ts := by
  induction ts generalizing depth with
  | nil => cases h
  | cons t ts ih =>
    have hc : ∀ {us : List Token}, us <:+: ts → us <:+: t :: ts := fun hu ↦
      hu.trans (List.suffix_cons t ts).isInfix
    cases hs : separator? depth t with
    | some op =>
      rw [cuts_cons_of_separator? hs] at h
      rcases List.mem_cons.1 h with rfl | h
      · exact hc (prefix_cuts depth ts).isInfix
      · exact hc (ih h)
    | none =>
      cases hd : deepen? depth t with
      | none =>
        rw [cuts_cons_of_unmatched hd] at h
        cases h
      | some d =>
        rw [cuts_cons_of_deepen? hs hd] at h
        exact hc (ih h)

theorem ne_nil_of_connectiveFault?_eq_none (h : connectiveFault? op? previous later = none)
    (hl : ∀ op, later.getLast? ≠ some (op, [])) :
    (later ≠ [] → previous ≠ []) ∧ ∀ range ∈ later, range.2 ≠ [] := by
  induction later generalizing op? previous with
  | nil => exact ⟨fun hn ↦ absurd rfl hn, fun _ hr ↦ by cases hr⟩
  | cons range later ih =>
    obtain ⟨op, range⟩ := range
    simp only [connectiveFault?] at h
    split at h
    · cases h
    · split at h
      · cases h
      · next hp =>
        have hl' : ∀ op, later.getLast? ≠ some (op, []) := by
          intro op' ho
          apply hl op'
          rw [List.getLast?_cons, ho]
          rfl
        obtain ⟨hr, hs⟩ := ih h hl'
        refine ⟨fun _ hn ↦ hp (List.isEmpty_iff.2 hn), fun r hm ↦ ?_⟩
        rcases List.mem_cons.1 hm with rfl | hm
        · cases later with
          | nil => exact fun hn ↦ hl op (by rw [show range = [] from hn]; rfl)
          | cons s later => exact hr (by simp)
        · exact hs r hm

theorem layer_cases {l : Layer} (h : layer ts = .ok l) :
    depthAfter? 0 ts = some 0 ∧
      ((cuts 0 ts).2 = [] ∧ l = ⟨none, if (cuts 0 ts).1.isEmpty then [] else [(cuts 0 ts).1]⟩ ∨
        ∃ op last, (cuts 0 ts).2.getLast? = some (op, last) ∧ last ≠ [] ∧
          connectiveFault? none (cuts 0 ts).1 (cuts 0 ts).2 = none ∧
          l = ⟨some op, (cuts 0 ts).1 :: (cuts 0 ts).2.map Prod.snd⟩) := by
  unfold layer at h
  split at h
  · cases h
  · cases h
  · next hf _ =>
    split at h
    · next hb =>
      refine ⟨by simpa [isBalanced] using hb, ?_⟩
      split at h
      · next hl =>
        cases h
        exact .inl ⟨List.getLast?_eq_none_iff.1 hl, rfl⟩
      · cases h
      · next op last hne hl =>
        cases h
        exact .inr ⟨op, last, hl, hne, hf, rfl⟩
    · cases h

theorem balanced_of_layer {l : Layer} (h : layer ts = .ok l) : depthAfter? 0 ts = some 0 :=
  (layer_cases h).1

theorem of_mem_ranges {l : Layer} {range : List Token} (h : layer ts = .ok l)
    (hr : range ∈ l.ranges) : range ≠ [] ∧ range <:+: ts := by
  obtain ⟨-, ⟨-, rfl⟩ | ⟨op, last, hl, hne, hf, rfl⟩⟩ := layer_cases h
  · dsimp only at hr
    split at hr
    · cases hr
    · next he =>
      rw [List.mem_singleton.1 hr]
      exact ⟨fun hn ↦ he (List.isEmpty_iff.2 hn), (prefix_cuts 0 ts).isInfix⟩
  · have hlast : ∀ op, (cuts 0 ts).2.getLast? ≠ some (op, []) := by
      intro op' ho
      rw [hl] at ho
      cases ho
      exact hne rfl
    obtain ⟨hfirst, hlater⟩ := ne_nil_of_connectiveFault?_eq_none hf hlast
    rcases List.mem_cons.1 hr with rfl | hr
    · refine ⟨hfirst fun hn ↦ ?_, (prefix_cuts 0 ts).isInfix⟩
      rw [hn] at hl
      cases hl
    · obtain ⟨r, hm, rfl⟩ := List.mem_map.1 hr
      exact ⟨hlater r hm, infix_of_mem_cuts hm⟩

theorem two_le_length_ranges {l : Layer} (h : layer ts = .ok l) (ho : l.op? = some op) :
    2 ≤ l.ranges.length := by
  obtain ⟨-, ⟨-, rfl⟩ | ⟨op', last, hl, -, -, rfl⟩⟩ := layer_cases h
  · cases ho
  · have hpos : 0 < (cuts 0 ts).2.length := by
      apply List.length_pos_of_mem
      exact List.mem_of_getLast? hl
    rw [List.length_cons, List.length_map]
    omega

theorem cuts_ne_nil (h : (depthAfter? 0 (t :: ts)).isSome) : cuts 0 (t :: ts) ≠ ([], []) := by
  intro hc
  cases hs : separator? 0 t with
  | some op =>
    rw [cuts_cons_of_separator? hs] at hc
    cases hc
  | none =>
    cases hd : deepen? 0 t with
    | none =>
      rw [depthAfter?_cons, hd] at h
      cases h
    | some d =>
      rw [cuts_cons_of_deepen? hs hd] at hc
      cases hc

theorem eq_nil_of_ranges_eq_nil {l : Layer} (h : layer ts = .ok l) (hr : l.ranges = []) :
    ts = [] := by
  obtain ⟨hb, ⟨hlater, rfl⟩ | ⟨op, last, -, -, -, rfl⟩⟩ := layer_cases h
  · have hfirst : (cuts 0 ts).1 = [] := by simpa using hr
    cases ts with
    | nil => rfl
    | cons t ts => exact absurd (Prod.ext hfirst hlater) (cuts_ne_nil (by rw [hb]; rfl))
  · cases hr

theorem depthAfter?_flush (depth : Nat) (ts : List Token) :
    depthAfter? depth (flush ts) = depthAfter? depth ts := by
  cases ts <;> rfl

theorem isBalanced_flush (ts : List Token) : isBalanced (flush ts) = isBalanced ts := by
  rw [isBalanced, depthAfter?_flush, isBalanced]

theorem enclosed?_flush (ts : List Token) : enclosed? (flush ts) = enclosed? ts := by
  cases ts <;> rfl

theorem toUnmatched?_flush (depth : Nat) (ts : List Token) :
    toUnmatched? depth (flush ts) = (toUnmatched? depth ts).map flush := by
  cases ts with
  | nil => rfl
  | cons t ts =>
    have ht : deepen? depth { t with gap := [] } = deepen? depth t := rfl
    cases hd : deepen? depth t with
    | none =>
      rw [toUnmatched?_cons_of_eq_none hd, flush, toUnmatched?_cons_of_eq_none (ht.trans hd)]
      rfl
    | some d =>
      rw [toUnmatched?_cons_of_eq_some hd, flush, toUnmatched?_cons_of_eq_some (ht.trans hd),
        Option.map_map]
      rfl

theorem cuts_flush (depth : Nat) (ts : List Token) :
    cuts depth (flush ts) = (flush (cuts depth ts).1, (cuts depth ts).2) := by
  cases ts with
  | nil => rfl
  | cons t ts =>
    have ht : deepen? depth { t with gap := [] } = deepen? depth t := rfl
    have ht' : separator? depth { t with gap := [] } = separator? depth t := rfl
    cases hs : separator? depth t with
    | some op =>
      rw [flush, cuts_cons_of_separator? (ht'.trans hs), cuts_cons_of_separator? hs]
      rfl
    | none =>
      cases hd : deepen? depth t with
      | none =>
        rw [flush, cuts_cons_of_unmatched (ht.trans hd), cuts_cons_of_unmatched hd]
        rfl
      | some d =>
        rw [flush, cuts_cons_of_deepen? (ht'.trans hs) (ht.trans hd), cuts_cons_of_deepen? hs hd]
        rfl

theorem connectiveFault?_flush (op? : Option Connective) (previous : List Token)
    (later : List (Connective × List Token)) :
    connectiveFault? op? (flush previous) later = connectiveFault? op? previous later := by
  cases later with
  | nil => rfl
  | cons range later => cases previous <;> rfl

def Layer.flushed (l : Layer) : Layer :=
  { l with ranges := l.ranges.modifyHead flush }

theorem layer_flush (ts : List Token) : layer (flush ts) = (layer ts).map Layer.flushed := by
  unfold layer
  rw [cuts_flush, connectiveFault?_flush, toUnmatched?_flush, isBalanced_flush, source_flush]
  cases connectiveFault? none (cuts 0 ts).1 (cuts 0 ts).2 with
  | some fault => rfl
  | none =>
    cases toUnmatched? 0 ts with
    | some seen => simp [source_flush, Except.map]
    | none =>
      cases isBalanced ts with
      | false => rfl
      | true =>
        cases (cuts 0 ts).2.getLast? with
        | none => cases (cuts 0 ts).1 <;> rfl
        | some range =>
          obtain ⟨op, range⟩ := range
          cases range <;> rfl

end ListingFilter.Token

namespace ListingFilter.Level.Draft

open Token

variable {d : Draft} {op : Connective} {t : Token} {ts : List Token}

theorem read_cons (whole : List Token) (d : Draft) (t : Token) (ts : List Token) :
    d.read whole (t :: ts) = match separator? d.depth t, deepen? d.depth t with
      | some op, _ =>
        match d.cut op with
        | .ok d => d.read whole ts
        | .error fault => .error (.malformed fault (source whole))
      | none, some depth => read whole { d.push t with depth := depth } ts
      | none, none =>
        .error (.malformed .unbalancedClosing (source (whole.take (whole.length - ts.length)))) := by
  obtain ⟨depth, op?, segments, current⟩ := d
  cases hk : t.kind with
  | opening => simp [read, hk, separator?, deepen?_opening hk]
  | closing =>
    cases depth with
    | zero => simp [read, hk, separator?, deepen?_zero_closing hk]
    | succ depth => simp [read, hk, separator?, deepen?_closing hk]
  | connective op =>
    cases depth with
    | zero =>
      cases hcut : cut ⟨0, op?, segments, current⟩ op <;> simp [read, hk, separator?, hcut]
    | succ depth => simp [read, hk, separator?, deepen?_connective hk, push]
  | word => simp [read, hk, separator?, deepen?_word hk, push]

def begin (d : Draft) (range : Connective × List Token) : Draft :=
  ⟨d.depth, some range.1, d.segments ++ [source d.current], range.2⟩

def after (d : Draft) (ts : List Token) : Draft :=
  (cuts d.depth ts).2.foldl begin
    { d with depth := (depthAfter? d.depth ts).getD 0, current := d.current ++ (cuts d.depth ts).1 }

theorem after_cons_of_separator? (h : separator? d.depth t = some op) (ts : List Token) :
    d.after (t :: ts) = after ⟨d.depth, some op, d.segments ++ [source d.current], []⟩ ts := by
  simp [after, cuts_cons_of_separator? h, depthAfter?_cons, deepen?_of_separator? h, begin]

theorem after_cons_of_deepen? {depth : Nat} (hs : separator? d.depth t = none)
    (h : deepen? d.depth t = some depth) (ts : List Token) :
    d.after (t :: ts) = after { d.push t with depth := depth } ts := by
  simp [after, cuts_cons_of_deepen? hs h, depthAfter?_cons, h, push]

theorem read_eq (seen ts : List Token) (d : Draft) :
    d.read (seen ++ ts) ts =
      match connectiveFault? d.op? (d.current ++ (cuts d.depth ts).1) (cuts d.depth ts).2,
        toUnmatched? d.depth ts with
      | some fault, _ => .error (.malformed fault (source (seen ++ ts)))
      | none, some us => .error (.malformed .unbalancedClosing (source (seen ++ us)))
      | none, none => .ok (d.after ts) := by
  induction ts generalizing seen d with
  | nil => simp [read, cuts, connectiveFault?, toUnmatched?, depthAfter?, after]
  | cons t ts ih =>
    have hw : seen ++ t :: ts = (seen ++ [t]) ++ ts := by simp
    rw [read_cons]
    cases hs : separator? d.depth t with
    | some op =>
      rw [cuts_cons_of_separator? hs, toUnmatched?_cons_of_eq_some (deepen?_of_separator? hs),
        after_cons_of_separator? hs]
      simp only [cut, connectiveFault?, List.append_nil]
      by_cases hm : d.op?.any (· ≠ op) = true
      · simp only [if_pos hm]
      · by_cases hc : d.current.isEmpty = true
        · simp only [if_neg hm, if_pos hc]
        · simp only [if_neg hm, if_neg hc, hw]
          rw [ih, List.nil_append]
          cases connectiveFault? (some op) (cuts d.depth ts).1 (cuts d.depth ts).2 with
          | some fault => rfl
          | none => cases toUnmatched? d.depth ts <;> simp
    | none =>
      cases hd : deepen? d.depth t with
      | none =>
        have hl : (seen ++ t :: ts).take ((seen ++ t :: ts).length - ts.length) = seen ++ [t] := by
          rw [hw, List.length_append, Nat.add_sub_cancel, List.take_left]
        rw [cuts_cons_of_unmatched hd, toUnmatched?_cons_of_eq_none hd]
        simp only [connectiveFault?, hl]
      | some depth =>
        rw [cuts_cons_of_deepen? hs hd, toUnmatched?_cons_of_eq_some hd,
          after_cons_of_deepen? hs hd]
        simp only [hw]
        rw [ih]
        simp only [push, List.append_assoc, List.cons_append, List.nil_append]
        cases connectiveFault? d.op? (d.current ++ t :: (cuts depth ts).1) (cuts depth ts).2 with
        | some fault => rfl
        | none => cases toUnmatched? depth ts <;> simp

theorem foldl_begin_depth (later : List (Connective × List Token)) (d : Draft) :
    (later.foldl begin d).depth = d.depth := by
  induction later generalizing d with
  | nil => rfl
  | cons range later ih => exact ih (d.begin range)

theorem foldl_begin_op? (later : List (Connective × List Token)) (d : Draft) :
    (later.foldl begin d).op? = (later.getLast?.map Prod.fst).or d.op? := by
  induction later generalizing d with
  | nil => rfl
  | cons range later ih =>
    rw [List.foldl_cons, ih, List.getLast?_cons]
    cases later.getLast? <;> rfl

theorem foldl_begin_current (later : List (Connective × List Token)) (d : Draft) :
    (later.foldl begin d).current = (later.getLast?.map Prod.snd).getD d.current := by
  induction later generalizing d with
  | nil => rfl
  | cons range later ih =>
    rw [List.foldl_cons, ih, List.getLast?_cons]
    cases later.getLast? <;> rfl

theorem foldl_begin_segments (later : List (Connective × List Token)) (d : Draft) :
    (later.foldl begin d).segments ++ [source (later.foldl begin d).current] =
      d.segments ++ (source d.current :: later.map fun range ↦ source range.2) := by
  induction later generalizing d with
  | nil => rfl
  | cons range later ih =>
    rw [List.foldl_cons, ih]
    simp [begin]

end ListingFilter.Level.Draft

namespace ListingFilter.Level

open Token

variable {ts : List Token}

theorem finish_after_start {depth : Nat} (hd : depthAfter? 0 ts = some depth) :
    (Draft.start.after ts).finish =
      if depth ≠ 0 then .error .unbalancedOpening
      else match (cuts 0 ts).2.getLast? with
        | none => .ok ⟨none, if (cuts 0 ts).1.isEmpty then [] else [source (cuts 0 ts).1]⟩
        | some (op, []) => .error (.missingAfter op)
        | some (op, _) =>
          .ok ⟨some op, source (cuts 0 ts).1 :: (cuts 0 ts).2.map fun range ↦ source range.2⟩ := by
  obtain ⟨first, later, hc⟩ : ∃ first later, cuts 0 ts = (first, later) := ⟨_, _, rfl⟩
  obtain ⟨draft, hdraft⟩ : ∃ draft, Draft.start.after ts = draft := ⟨_, rfl⟩
  have ha : later.foldl Draft.begin ⟨depth, none, [], first⟩ = draft := by
    rw [← hdraft]
    simp [Draft.after, Draft.start, hc, hd]
  have hdepth := Draft.foldl_begin_depth later ⟨depth, none, [], first⟩
  have hop := Draft.foldl_begin_op? later ⟨depth, none, [], first⟩
  have hcurrent := Draft.foldl_begin_current later ⟨depth, none, [], first⟩
  have hsegments := Draft.foldl_begin_segments later ⟨depth, none, [], first⟩
  rw [ha] at hdepth hop hcurrent hsegments
  rw [hdraft, Draft.finish, hdepth, hsegments, hc]
  split
  · rfl
  · cases hl : later.getLast? with
    | none =>
      rw [hl] at hop hcurrent
      rw [List.getLast?_eq_none_iff.1 hl, hop, hcurrent]
      cases first <;> rfl
    | some range =>
      obtain ⟨op, range⟩ := range
      rw [hl] at hop hcurrent
      rw [hop, hcurrent]
      cases range <;> simp

theorem ofTokens_of_read_eq_error {e : FilterError} (h : Draft.start.read ts ts = .error e) :
    ofTokens ts = .error e := by
  rw [ofTokens, h]
  rfl

theorem ofTokens_of_read_eq_ok {d : Draft} (h : Draft.start.read ts ts = .ok d) :
    ofTokens ts = match d.finish with
      | .ok level => .ok level
      | .error fault => .error (.malformed fault (source ts)) := by
  rw [ofTokens, h]
  rfl

/-- Reading token by token finds the segments and the first fault that the layer as a whole has. -/
theorem ofTokens_eq_layer (ts : List Token) : ofTokens ts = (layer ts).map Layer.level := by
  have hr : Draft.start.read ts ts = _ := Draft.read_eq [] ts .start
  simp only [Draft.start, List.nil_append] at hr
  rw [layer]
  cases hf : connectiveFault? none (cuts 0 ts).1 (cuts 0 ts).2 with
  | some fault =>
    rw [hf] at hr
    rw [ofTokens_of_read_eq_error hr]
    rfl
  | none =>
    rw [hf] at hr
    cases hu : toUnmatched? 0 ts with
    | some seen =>
      rw [hu] at hr
      rw [ofTokens_of_read_eq_error hr]
      rfl
    | none =>
      rw [hu] at hr
      obtain ⟨depth, hd⟩ := Option.isSome_iff_exists.1 (toUnmatched?_eq_none_iff.1 hu)
      rw [ofTokens_of_read_eq_ok hr, ← Draft.start, finish_after_start hd]
      have hb : isBalanced ts = decide (depth = 0) := by simp [isBalanced, hd]
      simp only [hb]
      by_cases h0 : depth = 0
      · simp only [h0]
        cases hl : (cuts 0 ts).2.getLast? with
        | none => cases hfirst : (cuts 0 ts).1 <;> simp [Layer.level, Except.map]
        | some range =>
          obtain ⟨op, range⟩ := range
          cases range <;> simp [Layer.level, Except.map]
      · simp [h0, Except.map]

end ListingFilter.Level
