import ListingFilter.Proofs.Json.Decoding

namespace ListingFilter.Json

open Table

namespace Field

/-- What the values under a field's name give the field. -/
inductive IsGiven (f : Field) : List Value → f.β → Prop
  | written {v : Value} {b : f.β} (h : f.decode v.outline = .ok b) : IsGiven f [v] b
  | leftOut {b : f.β} (h : f.default? = some b) : IsGiven f [] b

def AreGiven (members : List (Text × Value)) : (fs : List Field) → Filled fs → Prop
  | [], _ => True
  | f :: fs, (b, later) => f.IsGiven (under f.name members) b ∧ AreGiven members fs later

/-- What meeting the values under a field's name makes of the field: there may be one, if none was
found before. -/
inductive Meets (f : Field) : List Value → Option f.β → Option f.β → Prop
  | none {before : Option f.β} : Meets f [] before before
  | one {v : Value} {b : f.β} (h : f.decode v.outline = .ok b) : Meets f [v] none (some b)

theorem meets_cons {f : Field} {v : Value} {values : List Value} {before after : Option f.β}
    (h : f.Meets (v :: values) before after) :
    before = none ∧ ∃ b, f.decode v.outline = .ok b ∧ f.Meets values (some b) after := by
  cases h with
  | one h => exact ⟨rfl, _, h, .none⟩

def MeetEach (members : List (Text × Value)) : (fs : List Field) → Found fs → Found fs → Prop
  | [], _, _ => True
  | f :: fs, (before, later), (after, later') =>
    f.Meets (under f.name members) before after ∧ MeetEach members fs later later'

theorem eq_of_meetEach_nil {fs : List Field} {found found' : Found fs}
    (h : MeetEach [] fs found found') : found = found' := by
  induction fs with
  | nil => rfl
  | cons f fs ih =>
    obtain ⟨before, later⟩ := found
    obtain ⟨after, later'⟩ := found'
    obtain ⟨head, tail⟩ := h
    cases head
    rw [ih tail]

theorem meetEach_cons_of_forall_ne {name : Text} {v : Value} {members : List (Text × Value)}
    {fs : List Field} (hn : ∀ f ∈ fs, name ≠ f.name) {found found' : Found fs} :
    MeetEach ((name, v) :: members) fs found found' ↔ MeetEach members fs found found' := by
  induction fs with
  | nil => exact Iff.rfl
  | cons f fs ih =>
    obtain ⟨before, later⟩ := found
    obtain ⟨after, later'⟩ := found'
    obtain ⟨hf, hfs⟩ := List.forall_mem_cons.1 hn
    simp only [MeetEach, under_cons_of_ne hf, ih hfs]

def step (fs : List Field) (found : Found fs) (m : Text × Value) : Except Fault (Found fs) := do
  (← member fs found m.1) m.2.outline

theorem step_cons_of_ne {f : Field} {fs : List Field} {before : Option f.β} {later later' : Found fs}
    {m : Text × Value} (hn : m.1 ≠ f.name) (h : step fs later m = .ok later') :
    step (f :: fs) (before, later) m = .ok (before, later') := by
  obtain ⟨read, hr, h⟩ := exists_of_bind_eq_ok h
  simp only [step, member, if_neg hn, hr]
  exact congrArg (Except.map _) h

theorem exists_step {name : Text} {v : Value} {members : List (Text × Value)} {fs : List Field}
    (distinct : (fs.map Field.name).Nodup) {found found' : Found fs}
    (h : MeetEach ((name, v) :: members) fs found found') :
    ∃ next, step fs found (name, v) = .ok next ∧ MeetEach members fs next found' := by
  induction fs with
  | nil =>
    refine ⟨found, ?_, trivial⟩
    change v.outline.skip.map _ = _
    rw [v.skip_outline]
    rfl
  | cons f fs ih =>
    obtain ⟨before, later⟩ := found
    obtain ⟨after, later'⟩ := found'
    obtain ⟨head, tail⟩ := h
    obtain ⟨hf, hd⟩ := List.nodup_cons.1 distinct
    by_cases hn : name = f.name
    · subst hn
      rw [under_cons_self] at head
      obtain ⟨rfl, b, hb, rest⟩ := meets_cons head
      refine ⟨(some b, later), ?_, rest, ?_⟩
      · simp only [step, member, if_true, Option.isSome_none]
        exact congrArg (Except.map _) hb
      · apply (meetEach_cons_of_forall_ne ?_).1 tail
        intro g hg he
        exact hf (he ▸ List.mem_map_of_mem hg)
    · obtain ⟨next, hs, hm⟩ := ih hd tail
      rw [under_cons_of_ne hn] at head
      exact ⟨(before, next), step_cons_of_ne hn hs, head, hm⟩

/-- The members of an object are read in whatever order they stand. -/
theorem foldlM_step {members : List (Text × Value)} {fs : List Field}
    (distinct : (fs.map Field.name).Nodup) {found found' : Found fs}
    (h : MeetEach members fs found found') : members.foldlM (step fs) found = .ok found' := by
  induction members generalizing found with
  | nil => rw [eq_of_meetEach_nil h]; rfl
  | cons m members ih =>
    obtain ⟨next, hs, hm⟩ := exists_step distinct h
    rw [List.foldlM_cons, hs]
    exact ih hm

theorem IsGiven.exists_meets {f : Field} {values : List Value} {b : f.β} (h : f.IsGiven values b) :
    ∃ found?, f.Meets values none found? ∧ found?.or f.default? = some b := by
  cases h with
  | written h => exact ⟨some b, .one h, rfl⟩
  | leftOut h => exact ⟨none, .none, h⟩

theorem AreGiven.exists_meetEach {members : List (Text × Value)} {fs : List Field}
    {filled : Filled fs} (h : AreGiven members fs filled) :
    ∃ found, MeetEach members fs (nothing fs) found ∧ fill fs found = .ok filled := by
  induction fs with
  | nil => exact ⟨(), trivial, rfl⟩
  | cons f fs ih =>
    obtain ⟨b, later⟩ := filled
    obtain ⟨head, tail⟩ := h
    obtain ⟨found?, hm, hb⟩ := head.exists_meets
    obtain ⟨found, hms, hf⟩ := ih tail
    refine ⟨(found?, found), ⟨hm, hms⟩, ?_⟩
    rw [fill, hb, hf]
    rfl

end Field

theorem Record.decode_object {α : Type} (r : Record α) {members : List (Text × Value)}
    (filled : Field.Filled r.fields) (h : Field.AreGiven members r.fields filled) :
    r.decode (Value.object members).outline = .ok (r.make filled) := by
  obtain ⟨found, hm, hf⟩ := h.exists_meetEach
  have read : members.foldlM (fun found m ↦ do
      (← Field.member r.fields found m.1) m.2.outline) (Field.nothing r.fields) = .ok found :=
    Field.foldlM_step r.nodup_names hm
  rw [Value.outline, Outline.object, Record.decode, Outline.members_enclosed]
  simp only [List.foldlM_map]
  calc _ = (Except.ok found : Except Fault _) >>= fun found ↦ (Field.fill r.fields found).map r.make :=
        congrArg (fun x ↦ x >>= fun found ↦ (Field.fill r.fields found).map r.make) read
    _ = .ok (r.make filled) := congrArg (Except.map r.make) hf

end ListingFilter.Json
