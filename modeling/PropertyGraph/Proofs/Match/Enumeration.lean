import PropertyGraph.Proofs.Match.Search

/-!
# What a plan enumerates

The full assignments that the steps of a plan lead to are the matches that
respect the steps. Soundness goes along the steps; for completeness a match is
followed through them, each step keeping within it; and no match comes twice,
since two outcomes of one step that lie within one match are equal.
-/

namespace PropertyGraph

namespace Graph

variable {g : Graph} {p : Pattern} {a b m : Assignment} {s : Progress} {steps : List MatchStep}

/-! ## Assignments with nothing left to do -/

theorem full_of_done (done : Progress.Done p s) (filled : a.FilledAt p s) : a.Full p where
  nodesLength := filled.nodesLength
  relsLength := filled.relsLength
  node slot inside := filled.boundNode (done.nodes slot inside)
  rel position inside := filled.placedRel (done.rels position inside)

/-- Once nothing is left to do, a full assignment fills just the slots that are accounted
for. -/
theorem filledAt_of_full (done : Progress.Done p s) (filled : a.FilledAt p s) (within : a.Within m)
    (full : m.Full p) : m.FilledAt p s where
  nodesLength := full.nodesLength
  relsLength := full.relsLength
  node_iff slot := by
    constructor
    · intro some
      obtain ⟨id, has⟩ := Option.isSome_iff_exists.1 some
      have inside := (List.getElem?_eq_some_iff.1 (Option.join_eq_some_iff.1 has)).1
      exact done.nodes slot (full.nodesLength ▸ inside)
    · intro bound
      obtain ⟨id, has⟩ := filled.boundNode bound
      rw [within.node slot id has]
      rfl
  rel_iff position := by
    constructor
    · intro some
      obtain ⟨id, has⟩ := Option.isSome_iff_exists.1 some
      have inside := (List.getElem?_eq_some_iff.1 (Option.join_eq_some_iff.1 has)).1
      exact done.rels position (full.relsLength ▸ inside)
    · intro placed
      obtain ⟨id, has⟩ := filled.placedRel placed
      rw [within.rel position id has]
      rfl

/-! ## Enumeration -/

/-- The steps of a plan lead to the matches that respect them, and to no other
assignments. -/
theorem Runs.mem_extensions_iff (runs : g.Runs p s steps) (linked : g.Linked)
    (consistent : a.Consistent g p s) :
    m ∈ g.extensions p steps a ↔
      m.Full p ∧ m.Sound g p ∧ a.Within m ∧ ∀ step ∈ steps, m.Respects step := by
  induction runs generalizing a with
  | done done =>
    rw [extensions, List.mem_singleton]
    constructor
    · intro same
      subst same
      exact ⟨full_of_done done consistent.filled, consistent.sound, .refl m,
        fun step mem => by cases mem⟩
    · intro finished
      rcases finished with ⟨full, _, within, _⟩
      exact (filledAt_of_full done consistent.filled within full).eq_of_within consistent.filled
        (.refl m) within
  | @step s step steps ready _ ih =>
    rw [extensions, List.mem_flatMap]
    constructor
    · intro extends_
      rcases extends_ with ⟨b, mem, reached⟩
      obtain ⟨kept, within, respects⟩ := ready.outcome consistent mem
      obtain ⟨full, sound, within', later⟩ := (ih kept).1 reached
      refine ⟨full, sound, within.trans within', fun q mem => ?_⟩
      rcases List.mem_cons.1 mem with rfl | mem
      · exact respects.within within'
      · exact later q mem
    · intro finished
      rcases finished with ⟨full, sound, within, respects⟩
      obtain ⟨b, mem, within'⟩ := ready.exists_outcome linked consistent full sound within
        (respects step List.mem_cons_self)
      exact ⟨b, mem, (ih (ready.outcome consistent mem).1).2
        ⟨full, sound, within', fun q mem => respects q (List.mem_cons_of_mem _ mem)⟩⟩

/-- The steps of a plan lead to no assignment twice. -/
theorem Runs.extensions_nodup (runs : g.Runs p s steps) (linked : g.Linked)
    (consistent : a.Consistent g p s) : (g.extensions p steps a).Nodup := by
  induction runs generalizing a with
  | done _ => exact List.nodup_singleton a
  | @step s step steps ready runs ih =>
    have kept : ∀ b ∈ g.outcomes p a step, b.Consistent g p (s.after p step) :=
      fun b mem => (ready.outcome consistent mem).1
    refine List.nodup_flatMap.2 ⟨fun b mem => ih (kept b mem), ?_⟩
    refine List.Pairwise.imp_of_mem (fun {b b'} mem mem' apart => ?_)
      (ready.outcomes_nodup consistent)
    intro m left right
    have within := ((runs.mem_extensions_iff linked (kept b mem)).1 left).2.2.1
    have within' := ((runs.mem_extensions_iff linked (kept b' mem')).1 right).2.2.1
    exact apart ((kept b mem).filled.eq_of_within (kept b' mem').filled within within')

end Graph

end PropertyGraph
