import ListingFilter.Proofs.Predicate.Replay
import ListingFilter.Proofs.Sql.Grouping
import ListingFilter.Proofs.Sql.Unfiltered

namespace ListingFilter

theorem exists_mem_of_replayAll_eq_error {π : Type} {store : Store π} {parts : List Predicate}
    {e : FilterError} (h : Predicate.replayAll store parts = .error e) :
    ∃ part ∈ parts, part.replay store = .error e := by
  rw [Predicate.replayAll_eq_mapM] at h
  exact exists_of_mapM_eq_error h

namespace Schema

variable {s : Schema} {e : FilterError}

theorem unknown_of_has {relation : Text} {filter? : Option Sql.Expr}
    (h : s.store.has relation filter? = .error e) :
    e = .unknownRelation relation ∧ s.relation? relation = none := by
  simp only [store, has] at h
  split at h
  · next hr =>
    cases h
    exact ⟨rfl, hr⟩
  · cases h

theorem exists_unknown_of_replay {p : Predicate} (h : p.replay s.store = .error e) :
    ∃ relation, e = .unknownRelation relation ∧ s.relation? relation = none := by
  induction p with
  | group op parts ih =>
    rw [Predicate.replay_group] at h
    cases hps : Predicate.replayAll s.store parts with
    | ok es => rw [hps] at h; cases h
    | error e' =>
      rw [hps] at h
      cases h
      obtain ⟨part, hp, he⟩ := exists_mem_of_replayAll_eq_error hps
      exact ih part hp he
  | has relation => exact ⟨relation, unknown_of_has h⟩
  | hasWith relation filter ih =>
    cases hf : filter.replay s.store with
    | error e' =>
      rw [Predicate.replay, hf] at h
      cases h
      exact ih hf
    | ok f =>
      rw [Predicate.replay, hf] at h
      exact ⟨relation, unknown_of_has h⟩
  | _ => cases h

end Schema

/-- On every store a filter compiles to the replay of its recorded predicate, and to nothing where
nothing is recorded. So the query of a filter is the one that the replay gives, and where the replay
comes to an unknown relation, that is the error. A filter that compiles for a schema is recorded. -/
theorem Filter.compile_eq_replay (n : Filter) (resolve : Resolver) :
    (∀ {π : Type} (store : Store π),
      (∀ p?, (n.compile resolve (Predicate.recorder [])).result = .ok p? →
        (n.compile resolve store).result = p?.mapM (Predicate.replay store)) ∧
      ∀ p?, (n.compile resolve store).result = .ok p? →
        ∃ p?, (n.compile resolve (Predicate.recorder [])).result = .ok p?) ∧
    ∀ t : Target,
      (∀ p, (n.compile resolve (Predicate.recorder [])).result = .ok (some p) →
        t.compile resolve (some n) =
          (p.replay t.schema.store).map (fun e ↦ t.query (some e)) ∧
        ∀ e, p.replay t.schema.store = .error e →
          ∃ relation, e = .unknownRelation relation ∧ t.schema.relation? relation = none) ∧
      ((n.compile resolve (Predicate.recorder [])).result = .ok none →
        t.compile resolve (some n) = .ok (t.query none)) ∧
      ∀ q, t.compile resolve (some n) = .ok q →
        ∃ p?, (n.compile resolve (Predicate.recorder [])).result = .ok p? := by
  have direct {π : Type} (store : Store π) := n.replays_compile store resolve
  refine ⟨fun store ↦ ⟨fun p? hp ↦ (direct store).eq_of_eq_ok hp,
    fun p? hp ↦ (direct store).exists_eq_ok hp⟩, fun t ↦ ⟨fun p hp ↦ ⟨?_, fun e he ↦ ?_⟩,
    fun hp ↦ ?_, fun q hq ↦ ?_⟩⟩
  · rw [t.compile_some, (direct t.schema.store).eq_of_eq_ok hp]
    change ((p.replay t.schema.store).map some).map t.query = _
    cases p.replay t.schema.store <;> rfl
  · exact Schema.exists_unknown_of_replay he
  · rw [t.compile_some, (direct t.schema.store).eq_of_eq_ok hp]
    rfl
  · rw [t.compile_some] at hq
    obtain ⟨e?, he, -⟩ := exists_of_map_eq_ok hq
    exact (direct t.schema.store).exists_eq_ok he

theorem Filter.compile_eq_replay_nested :
    let resolve : Resolver := fun name ↦ .ok (if name = ['a'] then some ⟨7, name, .text⟩ else none)
    let places : Filter := .leaf (.onRelation locations .isAny [.ofString "Remote", .ofString "Ulm"])
    let known : Filter := .join .or [.leaf (.onAttribute ['a'] .like (.scalar ['1'])), places,
      .join .and [.leaf (.onAttribute ['b'] .oneOf (.scalar ['1'])), .join .or []]]
    let skills : Filter := .leaf (.onRelation (.ofString "skills") .present [])
    (∃ p e, (known.compile resolve (Predicate.recorder [])).result = .ok (some p) ∧
      p.replay Schema.default.store = .ok e ∧
      Target.default.compile resolve (some known) = .ok (Target.default.query (some e))) ∧
    ∃ p, ((join .and [known, skills]).compile resolve (Predicate.recorder [])).result =
        .ok (some p) ∧
      Target.default.compile resolve (some (join .and [known, skills])) =
        (p.replay Schema.default.store).map (fun e ↦ Target.default.query (some e)) ∧
      p.replay Schema.default.store = .error (.unknownRelation (.ofString "skills")) := by
  intro resolve places known skills
  obtain ⟨-, recorded⟩ := compile_eq_replay known resolve
  obtain ⟨query, -⟩ := (recorded .default).1 _ rfl
  obtain ⟨-, refused⟩ := compile_eq_replay (join .and [known, skills]) resolve
  exact ⟨⟨_, _, rfl, rfl, query⟩, _, rfl, ((refused .default).1 _ rfl).1, rfl⟩

end ListingFilter
