import PropertyGraph.Proofs.Match.Assignment

/-!
# Seating

A node goes into a slot where it fits and where there is none or the same. A
relationship goes into a vacant slot that accepts it, after its ends went into
the slots of its ends. Either keeps an assignment sound; and an assignment that
lies within a sound one still does after it was given what that one has in the
slot.
-/

namespace PropertyGraph

namespace Graph

variable {g : Graph} {p : Pattern} {a b m : Assignment}

/-! ## Putting a node into its slot -/

theorem fits_iff {slot : Nat} {id : NodeId} :
    g.fits p slot id = true ↔ ∃ nodeSlot node, p.nodes[slot]? = some nodeSlot ∧
      g.node? id = some node ∧ nodeSlot.accepts node = true := by
  unfold fits
  cases p.nodes[slot]? <;> cases g.node? id <;> simp

theorem lt_of_fits {slot : Nat} {id : NodeId} (fits : g.fits p slot id = true) :
    slot < p.nodes.length := by
  obtain ⟨_, _, found, _⟩ := fits_iff.1 fits
  exact (List.getElem?_eq_some_iff.1 found).1

/-- One assignment is another with a node put into a slot where it fits and where
there was none or the same. -/
structure Seats (g : Graph) (p : Pattern) (a b : Assignment) (slot : Nat) (node : NodeId) :
    Prop where
  fits : g.fits p slot node = true
  free : a.node? slot = none ∨ a.node? slot = some node
  node : ∀ q, b.node? q = if q = slot then some node else a.node? q
  rels : b.rels = a.rels
  nodesLength : b.nodes.length = a.nodes.length

section Seats

variable {slot : Nat} {node : NodeId}

theorem Seats.of_vacant (lengths : a.nodes.length = p.nodes.length)
    (fits : g.fits p slot node = true) (vacant : a.node? slot = none) :
    g.Seats p a (a.setNode slot (some node)) slot node where
  fits := fits
  free := .inl vacant
  node _ := Assignment.node?_setNode (lengths ▸ lt_of_fits fits)
  rels := rfl
  nodesLength := List.length_set

theorem Seats.seated (seats : g.Seats p a b slot node) : b.node? slot = some node := by
  rw [seats.node, if_pos rfl]

theorem Seats.within (seats : g.Seats p a b slot node) : a.Within b where
  node q id has := by
    rw [seats.node q]
    split
    · rename_i here
      subst here
      rcases seats.free with vacant | same
      · rw [vacant] at has
        cases has
      · rw [← same, has]
    · exact has
  rel position id has := by
    rw [Assignment.rel?, seats.rels]
    exact has

theorem Seats.within_of (seats : g.Seats p a b slot node) (within : a.Within m)
    (seated : m.node? slot = some node) : b.Within m where
  node q id has := by
    rw [seats.node q] at has
    split at has
    · rename_i here
      rw [here, seated, has]
    · exact within.node q id has
  rel position id has := by
    rw [Assignment.rel?, seats.rels] at has
    exact within.rel position id has

theorem Seats.fits_each (seats : g.Seats p a b slot node)
    (each : ∀ q id, a.node? q = some id → g.fits p q id = true) :
    ∀ q id, b.node? q = some id → g.fits p q id = true := by
  intro q id has
  rw [seats.node q] at has
  split at has
  · rename_i here
    cases has
    rw [here]
    exact seats.fits
  · exact each q id has

theorem Seats.isSome_iff (seats : g.Seats p a b slot node) (q : Nat) :
    (b.node? q).isSome = true ↔ q = slot ∨ (a.node? q).isSome = true := by
  rw [seats.node q]
  split <;> simp [*]

/-- Where a node goes into a slot, it fits and there was none or the same. -/
theorem seats_of_seat? (lengths : a.nodes.length = p.nodes.length)
    (each : ∀ q id, a.node? q = some id → g.fits p q id = true)
    (seated : g.seat? p a slot node = some b) : g.Seats p a b slot node := by
  unfold seat? at seated
  cases before : a.node? slot with
  | some other =>
    rw [before] at seated
    dsimp only at seated
    split at seated
    · rename_i same
      subst same
      cases seated
      refine ⟨each slot other before, .inr before, fun q => ?_, rfl, rfl⟩
      split
      · rename_i here
        rw [here, before]
      · rfl
    · cases seated
  | none =>
    rw [before] at seated
    dsimp only at seated
    split at seated
    · rename_i fits
      cases seated
      exact .of_vacant lengths fits before
    · cases seated

/-- A node that a match has in a slot goes into that slot. -/
theorem exists_seat? (sound : m.Sound g p) (within : a.Within m)
    (has : m.node? slot = some node) : ∃ b, g.seat? p a slot node = some b := by
  unfold seat?
  cases before : a.node? slot with
  | none => exact ⟨_, if_pos (sound.node slot node has)⟩
  | some other =>
    have same := (within.node slot other before).symm.trans has
    exact ⟨_, if_pos (Option.some.inj same)⟩

end Seats

/-! ## Putting a relationship into its slot -/

/-- The assignment with a relationship in its slot and its ends in theirs, unless
it is not accepted, is in another slot, or an end does not go into its slot. -/
def place? (g : Graph) (p : Pattern) (a : Assignment) (position : Nat) (id : RelId) :
    Option Assignment :=
  match p.rels[position]?, g.relationship? id with
  | some slot, some rel =>
    if !slot.accepts rel || a.rels.contains (some id) then none
    else (g.seatEnds? p slot rel a).map fun b => b.setRel position (some id)
  | _, _ => none

theorem place?_of_seatEnds? {position : Nat} {slot : RelSlot} {id : RelId} {rel : Relationship}
    {seated : Assignment} (found : p.rels[position]? = some slot)
    (live : g.relationship? id = some rel) (accepted : slot.accepts rel = true)
    (unused : a.rels.contains (some id) = false) (ends : g.seatEnds? p slot rel a = some seated) :
    g.place? p a position id = some (seated.setRel position (some id)) := by
  rw [place?, found, live]
  dsimp only
  rw [accepted, unused, ends]
  rfl

/-- One assignment is another with an accepted relationship put into its slot
that was in none, after its ends were put into theirs. -/
structure Places (g : Graph) (p : Pattern) (a b : Assignment) (position : Nat) (id : RelId)
    (slot : RelSlot) (rel : Relationship) (half ends : Assignment) : Prop where
  found : p.rels[position]? = some slot
  live : g.relationship? id = some rel
  accepted : slot.accepts rel = true
  unused : ∀ other, a.rel? other ≠ some id
  source : g.Seats p a half slot.source rel.source
  target : g.Seats p half ends slot.target rel.target
  result : b = ends.setRel position (some id)

section Places

variable {position : Nat} {id : RelId} {slot : RelSlot} {rel : Relationship}
  {half ends : Assignment}

theorem places_of_place? (lengths : a.nodes.length = p.nodes.length) (sound : a.Sound g p)
    (placed : g.place? p a position id = some b) :
    ∃ slot rel half ends, g.Places p a b position id slot rel half ends := by
  unfold place? at placed
  split at placed
  · rename_i slot rel found live
    split at placed
    · cases placed
    · rename_i admitted
      rw [Bool.or_eq_true, not_or, Bool.not_eq_true', Bool.not_eq_false] at admitted
      obtain ⟨ends, seated, rfl⟩ := Option.map_eq_some_iff.1 placed
      obtain ⟨half, source, target⟩ := Option.bind_eq_some_iff.1 seated
      have first := seats_of_seat? lengths sound.node source
      have second := seats_of_seat? (first.nodesLength.trans lengths)
        (first.fits_each sound.node) target
      refine ⟨slot, rel, half, ends, found, live, admitted.1, fun other has => ?_, first, second,
        rfl⟩
      exact admitted.2 (List.contains_iff_mem.2 (Assignment.mem_rels_iff.2 ⟨other, has⟩))
  · cases placed

theorem Places.rels (places : g.Places p a b position id slot rel half ends) :
    ends.rels = a.rels :=
  places.target.rels.trans places.source.rels

theorem Places.rel? (places : g.Places p a b position id slot rel half ends)
    (lengths : a.rels.length = p.rels.length) (q : Nat) :
    b.rel? q = if q = position then some id else a.rel? q := by
  have inside : position < ends.rels.length := by
    rw [places.rels, lengths]
    exact (List.getElem?_eq_some_iff.1 places.found).1
  rw [places.result, Assignment.rel?_setRel inside, Assignment.rel?, places.rels]
  rfl

theorem Places.node? (places : g.Places p a b position id slot rel half ends) (q : Nat) :
    b.node? q = ends.node? q := by
  rw [places.result]
  rfl

theorem Places.within (places : g.Places p a b position id slot rel half ends)
    (lengths : a.rels.length = p.rels.length) (vacant : a.rel? position = none) : a.Within b where
  node q n has := by
    rw [places.node? q]
    exact (places.source.within.trans places.target.within).node q n has
  rel q r has := by
    rw [places.rel? lengths q]
    split
    · rename_i here
      rw [here, vacant] at has
      cases has
    · exact has

theorem Places.within_of (places : g.Places p a b position id slot rel half ends)
    (lengths : a.rels.length = p.rels.length) (within : a.Within m) (sound : m.Sound g p)
    (has : m.rel? position = some id) : b.Within m := by
  obtain ⟨slot', rel', found, live, _, source, target⟩ := sound.rel position id has
  cases places.found.symm.trans found
  cases places.live.symm.trans live
  have seated := places.target.within_of (places.source.within_of within source) target
  refine ⟨fun q n has' => seated.node q n (places.node? q ▸ has'), fun q r has' => ?_⟩
  rw [places.rel? lengths q] at has'
  split at has'
  · rename_i here
    rw [here, has, has']
  · exact within.rel q r has'

/-- Placing a relationship keeps an assignment sound. -/
theorem Places.sound (places : g.Places p a b position id slot rel half ends)
    (lengths : a.rels.length = p.rels.length) (vacant : a.rel? position = none)
    (sound : a.Sound g p) : b.Sound g p where
  node q n has :=
    places.target.fits_each (places.source.fits_each sound.node) q n (places.node? q ▸ has)
  rel q r has := by
    rw [places.rel? lengths q] at has
    split at has
    · rename_i here
      cases has
      have source := places.target.within.node _ _ places.source.seated
      exact ⟨slot, rel, here ▸ places.found, places.live, places.accepted,
        (places.node? _).trans source, (places.node? _).trans places.target.seated⟩
    · obtain ⟨slot', rel', found, live, accepted, source, target⟩ := sound.rel q r has
      have within := places.within lengths vacant
      exact ⟨slot', rel', found, live, accepted, within.node _ _ source, within.node _ _ target⟩
  distinct i j r left right := by
    rw [places.rel? lengths] at left right
    split at left <;> split at right
    · rename_i here here'
      exact here.trans here'.symm
    · cases left
      exact (places.unused j right).elim
    · cases right
      exact (places.unused i left).elim
    · exact sound.distinct i j r left right

theorem Places.isSome_iff (places : g.Places p a b position id slot rel half ends) (q : Nat) :
    (b.node? q).isSome = true ↔
      q = slot.target ∨ q = slot.source ∨ (a.node? q).isSome = true := by
  rw [places.node? q, places.target.isSome_iff, places.source.isSome_iff]

theorem Places.nodesLength (places : g.Places p a b position id slot rel half ends) :
    b.nodes.length = a.nodes.length := by
  rw [places.result]
  exact places.target.nodesLength.trans places.source.nodesLength

theorem Places.relsLength (places : g.Places p a b position id slot rel half ends) :
    b.rels.length = a.rels.length := by
  rw [places.result, ← places.rels]
  exact List.length_set

/-- Vacating the slot and putting back what was in the slots of the ends undoes
the placing. -/
theorem Places.undo (places : g.Places p a b position id slot rel half ends)
    (nodesLength : a.nodes.length = p.nodes.length) (relsLength : a.rels.length = p.rels.length)
    (vacant : a.rel? position = none) :
    ((b.setRel position none).setNode slot.source (a.node? slot.source)).setNode slot.target
      (a.node? slot.target) = a := by
  have same : b.nodes.length = p.nodes.length := places.nodesLength.trans nodesLength
  have sourceInside : slot.source < b.nodes.length := same ▸ lt_of_fits places.source.fits
  have targetInside : slot.target < b.nodes.length := same ▸ lt_of_fits places.target.fits
  have inside : position < b.rels.length := by
    rw [places.relsLength, relsLength]
    exact (List.getElem?_eq_some_iff.1 places.found).1
  refine Assignment.ext_slots ?_ ?_ (fun q => ?_) fun q => ?_
  · exact List.length_set.trans (List.length_set.trans places.nodesLength)
  · exact List.length_set.trans places.relsLength
  · rw [Assignment.node?_setNode (by rw [Assignment.setNode, List.length_set]; exact targetInside),
      Assignment.node?_setNode (a := b.setRel position none) sourceInside]
    split
    · rename_i here
      rw [here]
    · rename_i notTarget
      split
      · rename_i here
        rw [here]
      · rename_i notSource
        show b.node? q = a.node? q
        rw [places.node?, places.target.node, if_neg notTarget, places.source.node,
          if_neg notSource]
  · show (b.setRel position none).rel? q = a.rel? q
    rw [Assignment.rel?_setRel inside]
    split
    · rename_i here
      rw [here, vacant]
    · rename_i other
      rw [places.rel? relsLength, if_neg other]

/-- A relationship that a match has in a slot goes into that slot. -/
theorem exists_place? (within : a.Within m) (sound : m.Sound g p)
    (vacant : a.rel? position = none) (lengths : a.nodes.length = p.nodes.length)
    (soundSoFar : a.Sound g p) (has : m.rel? position = some id) :
    ∃ b, g.place? p a position id = some b := by
  obtain ⟨slot, rel, found, live, accepted, source, target⟩ := sound.rel position id has
  have unused : a.rels.contains (some id) = false := by
    refine Bool.eq_false_iff.2 fun used => ?_
    obtain ⟨other, has'⟩ := Assignment.mem_rels_iff.1 (List.contains_iff_mem.1 used)
    cases sound.distinct other position id (within.rel other id has') has
    rw [vacant] at has'
    cases has'
  obtain ⟨half, first⟩ := exists_seat? sound within source
  have seats := seats_of_seat? lengths soundSoFar.node first
  obtain ⟨ends, second⟩ := exists_seat? sound (seats.within_of within source) target
  have seated : g.seatEnds? p slot rel a = some ends := by
    rw [seatEnds?, first, Option.bind_some, second]
  exact ⟨_, place?_of_seatEnds? found live accepted unused seated⟩

end Places

/-! ## Seating in place -/

/-- Put back what was in the slots of the ends. -/
def restoreEnds (slot : RelSlot) (saved : Option NodeId × Option NodeId) (s : Search) : Search :=
  (s.setNode slot.source saved.1).setNode slot.target saved.2

/-- Fill slots with nodes one after the other. If one does not fit or another is there,
that is undone and it ends. -/
def seatInPlace (g : Graph) (p : Pattern) (undo : Search → Search) :
    List (Nat × NodeId) → Search → Except Search Search
  | [], s => .ok s
  | (slot, node) :: rest, s => match s.current.node? slot with
    | some seated => if seated = node then g.seatInPlace p undo rest s else .error (undo s)
    | none =>
      if g.fits p slot node then g.seatInPlace p undo rest (s.setNode slot (some node))
      else .error (undo s)

/-- Try a relationship in a slot without a copy of the assignment: save what is in the
slots of the ends, fill them in place, go on, and put back what was saved. -/
def tryRelInPlace (g : Graph) (p : Pattern) (goOn : Search → Search) (position : Nat) (id : RelId)
    (s : Search) : Search :=
  match p.rels[position]?, g.relationship? id with
  | some slot, some rel =>
    if !slot.accepts rel || s.current.rels.contains (some id) then s
    else
      let saved := (s.current.node? slot.source, s.current.node? slot.target)
      let ends := [(slot.source, rel.source), (slot.target, rel.target)]
      match g.seatInPlace p (restoreEnds slot saved) ends s with
      | .error s => s
      | .ok s => restoreEnds slot saved ((goOn (s.setRel position (some id))).setRel position none)
  | _, _ => s

section InPlace

variable {s : Search}

theorem restoreEnds_self (slot : RelSlot) (s : Search) :
    restoreEnds slot (s.current.node? slot.source, s.current.node? slot.target) s = s := by
  have kept : ∀ q, s.setNode q (s.current.node? q) = s := fun q =>
    congrArg (fun current => { s with current }) (Assignment.setNode_node? s.current q)
  rw [restoreEnds, kept, kept]

theorem restoreEnds_setNode (slot : RelSlot) (saved : Option NodeId × Option NodeId)
    (s : Search) (node : Option NodeId) :
    restoreEnds slot saved (s.setNode slot.source node) = restoreEnds slot saved s := by
  have overwritten : (s.setNode slot.source node).setNode slot.source saved.1 =
      s.setNode slot.source saved.1 :=
    congrArg (fun current => { s with current }) (Assignment.setNode_setNode s.current _ _ _)
  rw [restoreEnds, overwritten, restoreEnds]

/-- Seating changes at most the slot itself. -/
theorem eq_of_seat? {slot : Nat} {node : NodeId} (seated : g.seat? p a slot node = some b) :
    b = a ∨ b = a.setNode slot (some node) := by
  rw [seat?] at seated
  split at seated
  · split at seated
    · exact .inl (Option.some.inj seated).symm
    · cases seated
  · split at seated
    · exact .inr (Option.some.inj seated).symm
    · cases seated

theorem seatInPlace_cons (undo : Search → Search) (slot : Nat) (node : NodeId)
    (rest : List (Nat × NodeId)) :
    g.seatInPlace p undo ((slot, node) :: rest) s =
      match g.seat? p s.current slot node with
      | none => .error (undo s)
      | some seated => g.seatInPlace p undo rest { s with current := seated } := by
  rw [seatInPlace, seat?]
  cases s.current.node? slot with
  | some seated =>
    dsimp only
    split <;> rfl
  | none =>
    dsimp only
    split <;> rfl

/-- Seating both ends in place either comes to seating them on a copy, or it leaves the
search as it was. -/
theorem seatInPlace_ends (slot : RelSlot) (rel : Relationship) (s : Search) :
    g.seatInPlace p
        (restoreEnds slot (s.current.node? slot.source, s.current.node? slot.target))
        [(slot.source, rel.source), (slot.target, rel.target)] s =
      match g.seatEnds? p slot rel s.current with
      | none => .error s
      | some seated => .ok { s with current := seated } := by
  rw [seatInPlace_cons, seatEnds?]
  cases source : g.seat? p s.current slot.source rel.source with
  | none =>
    dsimp only [Option.bind]
    rw [restoreEnds_self]
  | some half =>
    have undone : restoreEnds slot (s.current.node? slot.source, s.current.node? slot.target)
        { s with current := half } = s := by
      rcases eq_of_seat? source with rfl | rfl
      · exact restoreEnds_self slot s
      · exact (restoreEnds_setNode slot _ s _).trans (restoreEnds_self slot s)
    dsimp only [Option.bind]
    rw [seatInPlace_cons, undone]
    cases g.seat? p half slot.target rel.target <;> rfl

/-- Trying a relationship in place comes to trying it on a copy. -/
theorem tryRelInPlace_eq (goOn : Search → Search) (position : Nat) (id : RelId) (s : Search) :
    g.tryRelInPlace p goOn position id s = g.tryRel p goOn position id s := by
  rw [tryRelInPlace, tryRel]
  cases p.rels[position]? with
  | none => rfl
  | some slot =>
    cases g.relationship? id with
    | none => rfl
    | some rel =>
      dsimp only
      rw [seatInPlace_ends]
      split
      · rfl
      · cases g.seatEnds? p slot rel s.current <;> rfl

end InPlace

end Graph

end PropertyGraph
