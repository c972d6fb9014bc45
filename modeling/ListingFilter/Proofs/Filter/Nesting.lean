import ListingFilter.Proofs.Error
import ListingFilter.Proofs.Filter.SingleReading

namespace ListingFilter

open Text Token

variable {α β : Type} {t s inner : Text} {m n : Nat} {f : Filter} {level : Level} {ts us : List Token}

theorem Token.length_layout_read_le (t : Text) : (layout (read t)).length ≤ t.length := by
  obtain ⟨rest, -, h⟩ := exists_reads_read t
  have ht := congrArg List.length h.eq_layout_append
  rw [List.length_append] at ht
  omega

theorem Token.text_ne_nil_of_kind_eq_opening {token : Token} (h : token.kind = .opening) :
    token.text ≠ [] := by
  intro ht
  rw [kind, ht] at h
  cases h

theorem Group.length_lt_of_inner? (h : inner? t = some inner) : inner.length < t.length := by
  obtain ⟨first, inside, close, ht, hf, -, -, rfl⟩ := inner?_eq_some_iff.1 h
  have hle := length_layout_read_le t
  have hpos := List.length_pos_iff.2 (text_ne_nil_of_kind_eq_opening hf)
  rw [ht, layout_cons, source, layout_append, layout_cons] at hle
  simp only [List.length_append] at hle ⊢
  omega

namespace Level

theorem exists_of_ofText (h : ofText t = .ok level) :
    ∃ l : Layer, layer (Token.read t) = .ok l ∧ l.level = level := by
  rw [ofText, ofTokens_eq_layer] at h
  exact exists_of_map_eq_ok h

theorem length_le_of_mem (h : ofText t = .ok level) (hs : s ∈ level.segments) :
    s.length ≤ t.length := by
  obtain ⟨l, hl, rfl⟩ := exists_of_ofText h
  obtain ⟨range, hr, rfl⟩ := List.mem_map.1 hs
  calc (source range).length
      ≤ (layout range).length := (source_suffix_layout range).length_le
    _ ≤ (layout (Token.read t)).length := (infix_layout (of_mem_ranges hl hr).2).length_le
    _ ≤ t.length := length_layout_read_le t

theorem eq_singleton_of_op?_eq_none {first : Text} {rest : List Text}
    (h : ofText t = .ok ⟨none, first :: rest⟩) : rest = [] := by
  obtain ⟨l, hl, he⟩ := exists_of_ofText h
  obtain ⟨-, ⟨-, rfl⟩ | ⟨op, last, -, -, -, rfl⟩⟩ := layer_cases hl
  · simp only [Layer.level] at he
    split at he <;> simp_all
  · cases he

end Level

namespace Filter

/-- How deep groups are nested in a text: a group is a segment of the text, or of such a group. -/
def nesting (t : Text) : Nat :=
  match _ : Level.ofText t with
  | .error _ => 0
  | .ok level =>
    (level.segments.attach.map fun ⟨s, _⟩ ↦
      match _ : Group.inner? s with
      | none => 0
      | some inner => nesting inner + 1).foldr max 0
termination_by t.length
decreasing_by exact (Group.length_lt_of_inner? ‹_›).trans_le (Level.length_le_of_mem ‹_› ‹_›)

def segmentNesting (s : Text) : Nat :=
  match Group.inner? s with
  | none => 0
  | some inner => nesting inner + 1

theorem segmentNesting_of_inner?_eq_none (h : Group.inner? s = none) : segmentNesting s = 0 := by
  rw [segmentNesting, h]

theorem segmentNesting_of_inner?_eq_some (h : Group.inner? s = some inner) :
    segmentNesting s = nesting inner + 1 := by
  rw [segmentNesting, h]

theorem nesting_eq (h : Level.ofText t = .ok level) :
    nesting t = (level.segments.map segmentNesting).foldr max 0 := by
  rw [nesting]
  split
  · next he => cases h.symm.trans he
  · next level' he =>
    cases h.symm.trans he
    congr 1
    conv_rhs => rw [← List.attach_map_subtype_val level.segments, List.map_map]
    refine List.map_congr_left fun s _ ↦ ?_
    obtain ⟨s, hs⟩ := s
    dsimp only [Function.comp]
    split
    · next hi => rw [segmentNesting_of_inner?_eq_none hi]
    · next inner hi => rw [segmentNesting_of_inner?_eq_some hi]

theorem nesting_le_iff (h : Level.ofText t = .ok level) :
    nesting t ≤ n ↔ ∀ s ∈ level.segments, segmentNesting s ≤ n := by
  rw [nesting_eq h]
  induction level.segments with
  | nil => simp
  | cons s segments ih => rw [List.map_cons, List.foldr_cons, Nat.max_le, ih, List.forall_mem_cons]

end Filter

def IsTooDeep (outcome : Except FilterError α) : Prop :=
  ∃ fault fragment, outcome = .error (.malformed fault fragment) ∧
    fault.message = .ofString "Filter is nested too deeply"

/-- An outcome that is a result where there is room for it, and else the error that says so. -/
structure Limited (room : Prop) (a : α) (outcome : Except FilterError α) : Prop where
  eq_ok : room → outcome = .ok a
  isTooDeep : ¬ room → IsTooDeep outcome

namespace Limited

variable {p q : Prop} {a : α} {b : β} {x : Except FilterError α}

theorem of_iff (h : Limited p a x) (hpq : p ↔ q) : Limited q a x :=
  propext hpq ▸ h

theorem eq_ok_iff (h : Limited p a x) : x = .ok a ↔ p := by
  refine ⟨fun hx ↦ ?_, h.eq_ok⟩
  by_contra hp
  obtain ⟨fault, fragment, he, -⟩ := h.isTooDeep hp
  cases hx.symm.trans he

theorem bind {k : α → Except FilterError β} (h : Limited p a x) (hk : Limited q b (k a)) :
    Limited (p ∧ q) b (x >>= k) := by
  by_cases hp : p
  · rw [h.eq_ok hp]
    exact hk.of_iff (by simp [hp])
  · refine ⟨fun hpq ↦ absurd hpq.1 hp, fun _ ↦ ?_⟩
    obtain ⟨fault, fragment, rfl, hm⟩ := h.isTooDeep hp
    exact ⟨fault, fragment, rfl, hm⟩

theorem ok (a : α) : Limited True a (.ok a) := ⟨fun _ ↦ rfl, fun h ↦ absurd trivial h⟩

theorem map (h : Limited p a x) (k : α → β) : Limited p (k a) (x.map k) := by
  have hk := h.bind (k := fun a ↦ .ok (k a)) (ok (k a))
  have hx : (x >>= fun a ↦ .ok (k a)) = x.map k := by cases x <;> rfl
  rw [hx] at hk
  exact hk.of_iff (iff_of_eq (and_true p))

theorem mapM {room : α → Prop} {k : α → Except FilterError β} {as : List α} {bs : List β}
    (h : List.Forall₂ (fun a b ↦ Limited (room a) b (k a)) as bs) :
    Limited (∀ a ∈ as, room a) bs (as.mapM k) := by
  induction h with
  | nil => exact (ok []).of_iff (by simp)
  | @cons a b as bs head _ ih =>
    have later : Limited ((∀ a ∈ as, room a) ∧ True) (b :: bs)
        (as.mapM k >>= fun bs ↦ pure (b :: bs)) := ih.bind (ok _)
    rw [List.mapM_cons]
    exact (head.bind later).of_iff (by simp)

end Limited

namespace Filter

def within (n : Nat) (t : Text) : Except FilterError (Option Filter) := do
  ofLevel (ofSegment n) (← Level.ofText t)

theorem within_of_ofText (h : Level.ofText t = .ok level) (n : Nat) :
    within n t = ofLevel (ofSegment n) level := by
  rw [within, h]
  rfl

theorem ofSegment_of_inner?_eq_none (h : Group.inner? s = none) (n : Nat) :
    ofSegment n s = (Condition.read s).map .leaf := by
  cases n <;> rw [ofSegment, h]

theorem ofSegment_succ (h : Group.inner? s = some inner) (n : Nat) :
    ofSegment (n + 1) s = within n inner >>= fun filter? ↦
      filter?.elim (.error (.malformed .emptyGroup s)) .ok := by
  rw [ofSegment, h, within]
  dsimp only
  rw [← bind_assoc]
  refine congrArg (fun k ↦ (Level.ofText inner >>= ofLevel (ofSegment n)) >>= k)
    (funext fun filter? ↦ ?_)
  cases filter? <;> rfl

theorem limited_group (h : Group.inner? s = some inner)
    (hf : ∀ n, Limited (m ≤ n) (some f) (within n inner)) (n : Nat) :
    Limited (m + 1 ≤ n) f (ofSegment n s) := by
  cases n with
  | zero =>
    rw [ofSegment, h]
    exact ⟨fun hm ↦ absurd hm (Nat.not_succ_le_zero m), fun _ ↦ ⟨.tooDeep, s, rfl, rfl⟩⟩
  | succ n =>
    rw [ofSegment_succ h]
    exact ((hf n).bind (.ok f)).of_iff (by simp)

theorem limited_ofLevel (hl : Level.ofText t = .ok level)
    (h : ofLevel (ofSegment m) level = .ok (some f))
    (each : ∀ s f, ofSegment m s = .ok f → Limited (segmentNesting s ≤ n) f (ofSegment n s)) :
    Limited (nesting t ≤ n) (some f) (ofLevel (ofSegment n) level) := by
  refine Limited.of_iff ?_ (nesting_le_iff hl).symm
  obtain ⟨op?, segments⟩ := level
  cases segments with
  | nil => cases op? <;> cases h
  | cons first rest =>
    cases op? with
    | none =>
      obtain rfl := Level.eq_singleton_of_op?_eq_none hl
      obtain ⟨f, hf, he⟩ := exists_of_map_eq_ok h
      cases he
      exact ((each first f hf).map some).of_iff (by simp)
    | some op =>
      obtain ⟨parts, hparts, he⟩ := exists_of_map_eq_ok h
      cases he
      have hall := (mapM_eq_ok_iff.1 hparts).imp each
      exact (Limited.mapM hall).map fun parts ↦ some (join op parts)

theorem limited_condition (hi : Group.inner? s = none) (h : ofSegment m s = .ok f) (n : Nat) :
    Limited (segmentNesting s ≤ n) f (ofSegment n s) := by
  rw [ofSegment_of_inner?_eq_none hi] at h ⊢
  rw [h, segmentNesting_of_inner?_eq_none hi]
  exact (Limited.ok f).of_iff (by simp)

/-- A segment that is a filter where there is room is the same filter wherever there is room. -/
theorem limited_ofSegment (h : ofSegment m s = .ok f) (n : Nat) :
    Limited (segmentNesting s ≤ n) f (ofSegment n s) := by
  induction m generalizing s f n with
  | zero =>
    cases hi : Group.inner? s with
    | none => exact limited_condition hi h n
    | some inner =>
      rw [ofSegment, hi] at h
      cases h
  | succ m ih =>
    cases hi : Group.inner? s with
    | none => exact limited_condition hi h n
    | some inner =>
      rw [ofSegment_succ hi] at h
      obtain ⟨filter?, hf, h⟩ := exists_of_bind_eq_ok h
      cases filter? with
      | none => cases h
      | some f' =>
        cases h
        obtain ⟨level, hl, hf⟩ := exists_of_bind_eq_ok hf
        rw [segmentNesting_of_inner?_eq_some hi]
        refine limited_group hi (fun n ↦ ?_) n
        rw [within_of_ofText hl]
        exact limited_ofLevel hl hf fun s f hs ↦ ih hs n

theorem limited_within (h : within m t = .ok (some f)) (n : Nat) :
    Limited (nesting t ≤ n) (some f) (within n t) := by
  obtain ⟨level, hl, hf⟩ := exists_of_bind_eq_ok h
  rw [within_of_ofText hl]
  exact limited_ofLevel hl hf fun s f hs ↦ limited_ofSegment hs n

end Filter

end ListingFilter
