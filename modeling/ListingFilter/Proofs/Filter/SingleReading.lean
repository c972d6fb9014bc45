import ListingFilter.Filter.Reading
import ListingFilter.Proofs.Token.Layer

namespace ListingFilter.Filter

open Token

variable {α : Type} {t rest : Text} {ts us inside : List Token}

def ofLayer (range : List Token → Except FilterError Filter) (layer : Layer) :
    Except FilterError (Option Filter) :=
  match layer.op?, layer.ranges with
  | _, [] => .ok none
  | none, first :: _ => (range first).map some
  | some op, ranges => (ranges.mapM range).map fun parts ↦ some (.join op parts)

def ofRange (nesting : Nat) (ts : List Token) : Except FilterError Filter :=
  match enclosed? ts with
  | none => (Condition.read (source ts)).map .leaf
  | some inside =>
    match nesting with
    | 0 => .error (.malformed .tooDeep (source ts))
    | nesting + 1 => do
      match ← ofLayer (ofRange nesting) (← layer inside) with
      | some filter => .ok filter
      | none => .error (.malformed .emptyGroup (source ts))

/-- The filter that the tokens of a text are. The parentheses around all of them do not count. -/
def ofTokens? (ts : List Token) : Except FilterError (Option Filter) := do
  ofLayer (ofRange maxNesting) (← layer ((enclosed? ts).getD ts))

theorem ofRange_of_enclosed?_eq_none (he : enclosed? ts = none) (nesting : Nat) :
    ofRange nesting ts = (Condition.read (source ts)).map .leaf := by
  cases nesting <;> rw [ofRange, he]

theorem ofRange_of_enclosed?_eq_some (he : enclosed? ts = some inside) (nesting : Nat) :
    ofRange (nesting + 1) ts = (layer inside >>= ofLayer (ofRange nesting)) >>= fun filter? ↦
      filter?.elim (.error (.malformed .emptyGroup (source ts))) .ok := by
  rw [ofRange, he]
  dsimp only
  rw [← bind_assoc]
  refine congrArg (fun f ↦ (layer inside >>= ofLayer (ofRange nesting)) >>= f) (funext fun filter? ↦ ?_)
  cases filter? <;> rfl

theorem ofRange_flush (nesting : Nat) (ts : List Token) :
    ofRange nesting (flush ts) = ofRange nesting ts := by
  cases nesting <;> rw [ofRange, ofRange, enclosed?_flush, source_flush]

theorem ofLayer_flushed (nesting : Nat) (l : Layer) :
    ofLayer (ofRange nesting) l.flushed = ofLayer (ofRange nesting) l := by
  obtain ⟨op?, ranges⟩ := l
  cases ranges with
  | nil => rfl
  | cons first ranges =>
    cases op? with
    | none =>
      change (ofRange nesting (flush first)).map some = (ofRange nesting first).map some
      rw [ofRange_flush]
    | some op => simp [ofLayer, Layer.flushed, ofRange_flush]

theorem ofTokens?_flush (ts : List Token) : ofTokens? (flush ts) = ofTokens? ts := by
  rw [ofTokens?, ofTokens?, enclosed?_flush]
  cases enclosed? ts with
  | some inside => rfl
  | none =>
    change (layer (flush ts) >>= _) = (layer ts >>= _)
    rw [layer_flush]
    cases layer ts with
    | error e => rfl
    | ok l => exact ofLayer_flushed maxNesting l

theorem inner?_of_enclosed? (h : enclosed? (read t) = some inside) :
    ∃ s, Group.inner? t = some s ∧ read s = inside := by
  obtain ⟨first, close, ht, hf, hc, hb⟩ := enclosed?_eq_some_iff.1 h
  refine ⟨layout inside ++ close.gap, ?_, ?_⟩
  · exact Group.inner?_eq_some_iff.2 ⟨first, inside, close, ht, hf, hc, hb, rfl⟩
  · obtain ⟨rest, _, hr⟩ := exists_reads_read t
    rw [ht] at hr
    cases hr with
    | cons _ hr =>
      obtain ⟨before, hi, hr⟩ := hr.split
      cases hr with
      | cons hn _ =>
        obtain ⟨_, _, hg, _, hbefore, _⟩ := next?_eq_some_iff.1 hn
        rw [hbefore] at hi
        exact hi.read_layout_append hg

theorem inner?_eq_none (h : enclosed? (read t) = none) : Group.inner? t = none := by
  cases hi : Group.inner? t with
  | none => rfl
  | some s =>
    obtain ⟨first, inside, close, ht, hf, hc, hb, _⟩ := Group.inner?_eq_some_iff.1 hi
    rw [enclosed?_eq_some_iff.2 ⟨first, close, ht, hf, hc, hb⟩] at h
    cases h

theorem mapM_map_eq {β : Type} {f : β → Except FilterError Filter} {source : α → β}
    {g : α → Except FilterError Filter} {as : List α} (h : ∀ a ∈ as, f (source a) = g a) :
    (as.map source).mapM f = as.mapM g := by
  induction as with
  | nil => rfl
  | cons a as ih =>
    obtain ⟨head, tail⟩ := List.forall_mem_cons.1 h
    rw [List.map_cons, List.mapM_cons, List.mapM_cons, head, ih tail]

theorem ofLevel_level {segment : Text → Except FilterError Filter}
    {range : List Token → Except FilterError Filter} {l : Layer}
    (h : ∀ r ∈ l.ranges, segment (source r) = range r) :
    ofLevel segment l.level = ofLayer range l := by
  obtain ⟨op?, ranges⟩ := l
  cases ranges with
  | nil => rfl
  | cons first ranges =>
    cases op? with
    | none =>
      change (segment (source first)).map some = (range first).map some
      rw [h first List.mem_cons_self]
    | some op =>
      change (((first :: ranges).map source).mapM segment).map _ = _
      rw [mapM_map_eq h]
      rfl

theorem ofLevel_ofText (nesting : Nat) (t : Text)
    (h : ∀ r, IsRange r → ofSegment nesting (source r) = ofRange nesting r) :
    (do ofLevel (ofSegment nesting) (← Level.ofText t)) =
      (do ofLayer (ofRange nesting) (← layer (read t))) := by
  rw [Level.ofText, Level.ofTokens_eq_layer]
  cases hl : layer (read t) with
  | error e => rfl
  | ok l => exact ofLevel_level fun r hr ↦ h r ((isRange_read t).within (of_mem_ranges hl hr).2)

theorem ofSegment_source (nesting : Nat) (h : IsRange ts) :
    ofSegment nesting (source ts) = ofRange nesting ts := by
  induction nesting generalizing ts with
  | zero =>
    rw [ofSegment, ofRange]
    cases he : enclosed? ts with
    | none => rw [inner?_eq_none (by rw [h.read_source, enclosed?_flush, he])]
    | some inside =>
      obtain ⟨s, hs, _⟩ := inner?_of_enclosed? (by rw [h.read_source, enclosed?_flush, he])
      rw [hs]
  | succ nesting ih =>
    rw [ofSegment, ofRange]
    cases he : enclosed? ts with
    | none => rw [inner?_eq_none (by rw [h.read_source, enclosed?_flush, he])]
    | some inside =>
      obtain ⟨s, hs, hr⟩ := inner?_of_enclosed? (by rw [h.read_source, enclosed?_flush, he])
      have hl := ofLevel_ofText nesting s fun r hr ↦ ih hr
      rw [hr] at hl
      rw [hs]
      dsimp only
      rw [← bind_assoc, ← bind_assoc]
      exact congrArg (fun filter? ↦ filter? >>= _) hl

theorem read?_eq_ofTokens? (t : Text) : read? t = ofTokens? (Token.read t) := by
  have hs : ∀ s : Text, (do ofLevel (ofSegment maxNesting) (← Level.ofText s)) =
      (do ofLayer (ofRange maxNesting) (← layer (Token.read s))) := fun s ↦
    ofLevel_ofText maxNesting s fun _ hr ↦ ofSegment_source maxNesting hr
  rw [read?, ofTokens?]
  cases he : enclosed? (Token.read t) with
  | none =>
    rw [inner?_eq_none he]
    exact hs t
  | some inside =>
    obtain ⟨s, hi, hr⟩ := inner?_of_enclosed? he
    rw [hi]
    exact (hs s).trans (by rw [hr]; rfl)

/-- Reading a filter comes to one reading of the trimmed text into tokens: no segment, read anew,
has other words, keywords, parentheses or quoted runs than it has in the whole. -/
theorem read?_eq_ofTokens?_read_trim (t : Text) : read? t = ofTokens? (Token.read t.trim) := by
  rw [read?_eq_ofTokens?, ← ofTokens?_flush, ← flush_read_trim, ofTokens?_flush]

end ListingFilter.Filter
