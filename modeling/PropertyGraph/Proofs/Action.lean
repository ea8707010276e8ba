import Mathlib.Algebra.Group.Defs
import Mathlib.Data.List.Forall2
import Mathlib.Logic.Relation

/-!
# Actions that may be refused

An action reads and changes a state and either answers or is refused; a refusal
keeps the state it was met in. Running one action after another is running the
second from where the first one ended, unless the first one was refused, and a list
of actions stops at the first one that is. A refusal is clean if the action has
changed nothing by then. An action goes along a relation if every state it ends in
is reached by steps of the relation, and it overlooks a part of the state if
forgetting that part before or after makes no difference. It is refused for reasons
of a kind only if all its refusals are, and it adds an amount to a measure of the
state if all its answers come with that amount more. Two actions run in parallel if
from related states both answer, with related answers, or both are refused for one
reason, and they end in related states.
-/

namespace PropertyGraph

/-- Two computations in a row that answer: so did each of them. -/
theorem of_bind_eq_ok {ε α β : Type} {x : Except ε α} {f : α → Except ε β} {b : β}
    (ran : (x >>= f) = .ok b) : ∃ a, x = .ok a ∧ f a = .ok b := by
  cases x with
  | error e => cases ran
  | ok a => exact ⟨a, rfl, ran⟩

/-- Two computations in a row that are refused: so was one of them. -/
theorem of_bind_eq_error {ε α β : Type} {x : Except ε α} {f : α → Except ε β} {e : ε}
    (refused : (x >>= f) = .error e) : x = .error e ∨ ∃ a, x = .ok a ∧ f a = .error e := by
  cases x with
  | error e' => exact .inl (congrArg Except.error (Except.error.inj refused))
  | ok a => exact .inr ⟨a, rfl, refused⟩

/-- A list of computations that is refused: so was one of them. -/
theorem of_mapM_eq_error {ε α β : Type} {f : α → Except ε β} {as : List α} {e : ε}
    (refused : as.mapM f = .error e) : ∃ a ∈ as, f a = .error e := by
  induction as with
  | nil => cases refused
  | cons a as ih =>
    rw [List.mapM_cons] at refused
    rcases of_bind_eq_error refused with refused | ⟨b, _, refused⟩
    · exact ⟨a, List.mem_cons_self, refused⟩
    · rcases of_bind_eq_error refused with refused | ⟨bs, _, refused⟩
      · obtain ⟨a', mem, refused⟩ := ih refused
        exact ⟨a', List.mem_cons_of_mem _ mem, refused⟩
      · cases refused

/-- A list of computations without answers succeeds exactly if each of them does. -/
theorem forM_eq_ok_iff {ε α : Type} {f : α → Except ε PUnit} {as : List α} :
    as.forM f = .ok () ↔ ∀ a ∈ as, f a = .ok () := by
  induction as with
  | nil => exact ⟨fun _ _ mem => absurd mem List.not_mem_nil, fun _ => rfl⟩
  | cons a as ih =>
    rw [List.forall_mem_cons, ← ih]
    constructor
    · intro ran
      obtain ⟨⟨⟩, first, rest⟩ := of_bind_eq_ok ran
      exact ⟨first, rest⟩
    · intro both
      rcases both with ⟨first, rest⟩
      show (f a >>= fun _ => as.forM f) = .ok ()
      rw [first]
      exact rest

theorem map_eq_ok_iff {ε α β : Type} {f : α → β} {x : Except ε α} {b : β} :
    x.map f = .ok b ↔ ∃ a, x = .ok a ∧ f a = b := by
  cases x <;> simp [Except.map]

theorem map_eq_error_iff {ε α β : Type} {f : α → β} {x : Except ε α} {e : ε} :
    x.map f = .error e ↔ x = .error e := by
  cases x <;> simp [Except.map]

theorem mapError_eq_error_iff {ε δ α : Type} {f : ε → δ} {x : Except ε α} {d : δ} :
    x.mapError f = .error d ↔ ∃ e, x = .error e ∧ f e = d := by
  cases x <;> simp [Except.mapError]

/-! ## Alike outcomes -/

/-- Both answer, with related answers, or both are refused for one reason. -/
inductive AlikeOutcome {ε α β : Type} (R : α → β → Prop) : Except ε α → Except ε β → Prop
  | ok {a : α} {b : β} : R a b → AlikeOutcome R (.ok a) (.ok b)
  | error (e : ε) : AlikeOutcome R (.error e) (.error e)

namespace AlikeOutcome

variable {ε α β γ δ : Type} {R : α → β → Prop} {Q : γ → δ → Prop}

theorem of_eq {x y : Except ε α} (same : x = y) : AlikeOutcome Eq x y := by
  cases same
  cases x with
  | error e => exact .error e
  | ok a => exact .ok rfl

theorem cases {x : Except ε α} {y : Except ε β} (alike : AlikeOutcome R x y) :
    (∃ e, x = .error e ∧ y = .error e) ∨ ∃ a b, x = .ok a ∧ y = .ok b ∧ R a b := by
  cases alike with
  | error e => exact .inl ⟨e, rfl, rfl⟩
  | ok related => exact .inr ⟨_, _, rfl, rfl, related⟩

theorem bind {x : Except ε α} {y : Except ε β} {f : α → Except ε γ} {h : β → Except ε δ}
    (first : AlikeOutcome R x y) (second : ∀ a b, R a b → AlikeOutcome Q (f a) (h b)) :
    AlikeOutcome Q (x >>= f) (y >>= h) := by
  cases first with
  | error e => exact .error e
  | ok related => exact second _ _ related

theorem mapM {f : γ → Except ε α} {h : γ → Except ε β} (each : ∀ c, AlikeOutcome R (f c) (h c))
    (cs : List γ) : AlikeOutcome (List.Forall₂ R) (cs.mapM f) (cs.mapM h) := by
  induction cs with
  | nil => exact .ok .nil
  | cons c cs ih =>
    rw [List.mapM_cons, List.mapM_cons]
    exact (each c).bind fun a b related => ih.bind fun as bs rest => .ok (.cons related rest)

end AlikeOutcome

/-- An action on a state that answers or is refused. -/
abbrev RefusableAction (ε σ α : Type) := ExceptT ε (StateM σ) α

namespace RefusableAction

variable {ε σ α β : Type}

/-! ## Running -/

theorem bind_of_ok {x : RefusableAction ε σ α} {f : α → RefusableAction ε σ β} {s s' : σ}
    {a : α} (ran : x s = (.ok a, s')) : (x >>= f) s = f a s' := by
  show (match x s with | (a, s') => ExceptT.bindCont f a s') = _
  rw [ran]
  rfl

theorem bind_of_error {x : RefusableAction ε σ α} {f : α → RefusableAction ε σ β} {s s' : σ}
    {e : ε} (ran : x s = (.error e, s')) : (x >>= f) s = (.error e, s') := by
  show (match x s with | (a, s') => ExceptT.bindCont f a s') = _
  rw [ran]
  rfl

theorem bind_get (f : σ → RefusableAction ε σ α) (s : σ) :
    ((get : RefusableAction ε σ σ) >>= f) s = f s s :=
  rfl

/-- Two actions in a row that answer: so did each of them. -/
theorem of_bind_eq_ok {x : RefusableAction ε σ α} {f : α → RefusableAction ε σ β} {s s' : σ}
    {b : β} (ran : (x >>= f) s = (.ok b, s')) :
    ∃ a s₁, x s = (.ok a, s₁) ∧ f a s₁ = (.ok b, s') := by
  rcases first : x s with ⟨e | a, s₁⟩
  · rw [bind_of_error first] at ran
    cases ran
  · rw [bind_of_ok first] at ran
    exact ⟨a, s₁, rfl, ran⟩

/-! ## Going along a relation -/

/-- Every state that the action ends in is reached by steps of the relation. -/
def Along (R : σ → σ → Prop) (x : RefusableAction ε σ α) : Prop :=
  ∀ s, Relation.ReflTransGen R s (x s).2

variable {R : σ → σ → Prop}

theorem Along.stay {x : RefusableAction ε σ α} (unmoved : ∀ s, (x s).2 = s) : Along R x := by
  intro s
  rw [unmoved s]

theorem Along.bind {x : RefusableAction ε σ α} {f : α → RefusableAction ε σ β}
    (first : Along R x) (second : ∀ a, Along R (f a)) : Along R (x >>= f) := by
  intro s
  have reached := first s
  rcases ran : x s with ⟨e | a, s'⟩
  · rw [bind_of_error ran]
    rw [ran] at reached
    exact reached
  · rw [bind_of_ok ran]
    rw [ran] at reached
    exact reached.trans (second a s')

theorem Along.forM {f : α → RefusableAction ε σ PUnit} (each : ∀ a, Along R (f a))
    (as : List α) : Along R (as.forM f) := by
  induction as with
  | nil => exact .stay fun _ => rfl
  | cons a as ih => exact .bind (each a) fun _ => ih

theorem Along.mapM {f : α → RefusableAction ε σ β} (each : ∀ a, Along R (f a)) (as : List α) :
    Along R (as.mapM f) := by
  induction as with
  | nil => exact .stay fun _ => rfl
  | cons a as ih =>
    rw [List.mapM_cons]
    exact .bind (each a) fun b => .bind ih fun bs => .stay fun _ => rfl

/-! ## What an action is refused for -/

/-- Whenever the action is refused, it is for a reason of this kind. -/
def RefusedFor (P : ε → Prop) (x : RefusableAction ε σ α) : Prop :=
  ∀ s e s', x s = (.error e, s') → P e

section Refusals

variable {P : ε → Prop}

theorem RefusedFor.pure (a : α) : RefusedFor P (pure a : RefusableAction ε σ α) := by
  intro s e s' refused
  cases refused

theorem RefusedFor.throw {e : ε} (kind : P e) :
    RefusedFor P (throw e : RefusableAction ε σ α) := by
  intro s e' s' refused
  cases refused
  exact kind

theorem RefusedFor.get : RefusedFor P (get : RefusableAction ε σ σ) := by
  intro s e s' refused
  cases refused

theorem RefusedFor.modify (f : σ → σ) :
    RefusedFor P (modify f : RefusableAction ε σ PUnit) := by
  intro s e s' refused
  cases refused

theorem RefusedFor.modifyGet (f : σ → α × σ) :
    RefusedFor P (modifyGet f : RefusableAction ε σ α) := by
  intro s e s' refused
  cases refused

theorem RefusedFor.ofExcept {outcome : Except ε α} (kind : ∀ e, outcome = .error e → P e) :
    RefusedFor P (MonadExcept.ofExcept outcome : RefusableAction ε σ α) := by
  cases outcome with
  | error e => exact .throw (kind e rfl)
  | ok a => exact .pure a

/-- Of two actions in a row the first or the second is refused. -/
theorem RefusedFor.bind {x : RefusableAction ε σ α} {f : α → RefusableAction ε σ β}
    (first : RefusedFor P x) (second : ∀ a, RefusedFor P (f a)) : RefusedFor P (x >>= f) := by
  intro s e s' refused
  rcases ran : x s with ⟨e' | a, s₁⟩
  · rw [bind_of_error ran] at refused
    cases refused
    exact first s _ _ ran
  · rw [bind_of_ok ran] at refused
    exact second a s₁ e s' refused

theorem RefusedFor.forM {f : α → RefusableAction ε σ PUnit} (each : ∀ a, RefusedFor P (f a))
    (as : List α) : RefusedFor P (as.forM f) := by
  induction as with
  | nil => exact .pure _
  | cons a as ih => exact .bind (each a) fun _ => ih

theorem RefusedFor.mapM {f : α → RefusableAction ε σ β} (each : ∀ a, RefusedFor P (f a))
    (as : List α) : RefusedFor P (as.mapM f) := by
  induction as with
  | nil => exact .pure _
  | cons a as ih =>
    rw [List.mapM_cons]
    exact .bind (each a) fun b => .bind ih fun bs => .pure _

end Refusals

/-! ## Lists of actions -/

/-- Running two lists in a row is running their concatenation. -/
theorem forM_append (f : α → RefusableAction ε σ PUnit) (as bs : List α) (s : σ) :
    (as ++ bs).forM f s = match as.forM f s with
      | (.ok (), s') => bs.forM f s'
      | (.error e, s') => (.error e, s') := by
  have split : (as ++ bs).forM f = as.forM f >>= fun _ => bs.forM f := List.forM_append
  rw [split]
  rcases ran : as.forM f s with ⟨e | ⟨⟩, s'⟩
  · exact bind_of_error ran
  · exact bind_of_ok ran

/-- A list of actions is refused exactly if one of them is, after those before it have
answered; the state is the one in which that action was refused. -/
theorem forM_eq_error_iff {f : α → RefusableAction ε σ PUnit} {as : List α} {s s' : σ} {e : ε} :
    as.forM f s = (.error e, s') ↔ ∃ before a rest s₁, as = before ++ a :: rest ∧
      before.forM f s = (.ok (), s₁) ∧ f a s₁ = (.error e, s') := by
  constructor
  · intro refused
    induction as generalizing s with
    | nil => cases refused
    | cons a as ih =>
      rcases first : f a s with ⟨e' | ⟨⟩, s₁⟩
      · cases (bind_of_error first).symm.trans refused
        exact ⟨[], a, as, s, rfl, rfl, first⟩
      · obtain ⟨before, a', rest, s₂, split, ran, here⟩ :=
          ih ((bind_of_ok first).symm.trans refused)
        exact ⟨a :: before, a', rest, s₂, congrArg (a :: ·) split,
          (bind_of_ok first).trans ran, here⟩
  · intro given
    rcases given with ⟨before, a, rest, s₁, rfl, ran, here⟩
    rw [forM_append, ran]
    exact bind_of_error here

/-! ## Clean refusals -/

/-- If the action is refused in this state, it leaves the state as it is. -/
def CleanAt (s : σ) (x : RefusableAction ε σ α) : Prop :=
  ∀ e s', x s = (.error e, s') → s' = s

section CleanRefusals

variable {s : σ}

theorem CleanAt.pure (a : α) : CleanAt s (pure a : RefusableAction ε σ α) := by
  intro e s' refused
  cases refused

theorem CleanAt.throw (e : ε) : CleanAt s (throw e : RefusableAction ε σ α) := by
  intro e' s' refused
  cases refused
  rfl

theorem CleanAt.bind_get {f : σ → RefusableAction ε σ α} (clean : CleanAt s (f s)) :
    CleanAt s (get >>= f) :=
  clean

/-- An action that is refused cleanly, followed by what is never refused. -/
theorem CleanAt.bind {x : RefusableAction ε σ α} {f : α → RefusableAction ε σ β}
    (first : CleanAt s x) (second : ∀ a, RefusedFor (fun _ => False) (f a)) :
    CleanAt s (x >>= f) := by
  intro e s' refused
  rcases ran : x s with ⟨e' | a, s₁⟩
  · cases (bind_of_error ran).symm.trans refused
    exact first e s' ran
  · exact (second a s₁ e s' ((bind_of_ok ran).symm.trans refused)).elim

end CleanRefusals

/-! ## What an action adds -/

section Amounts

variable {M : Type} [AddMonoid M] {measure : σ → M}

/-- Whenever the action answers, the measure has grown by the amount. -/
def Adds (measure : σ → M) (amount : M) (x : RefusableAction ε σ α) : Prop :=
  ∀ s a s', x s = (.ok a, s') → measure s' = measure s + amount

theorem Adds.pure (a : α) : Adds measure 0 (pure a : RefusableAction ε σ α) := by
  intro s a' s' ran
  cases ran
  exact (add_zero _).symm

theorem Adds.throw (e : ε) (amount : M) :
    Adds measure amount (throw e : RefusableAction ε σ α) := by
  intro s a s' ran
  cases ran

theorem Adds.get : Adds measure 0 (get : RefusableAction ε σ σ) := by
  intro s a s' ran
  cases ran
  exact (add_zero _).symm

theorem Adds.modify {f : σ → σ} {amount : M} (grows : ∀ s, measure (f s) = measure s + amount) :
    Adds measure amount (modify f : RefusableAction ε σ PUnit) := by
  intro s a s' ran
  cases ran
  exact grows s

/-- Two actions in a row add one amount and then the other. -/
theorem Adds.bind {x : RefusableAction ε σ α} {f : α → RefusableAction ε σ β} {m n : M}
    (first : Adds measure m x) (second : ∀ a, Adds measure n (f a)) :
    Adds measure (m + n) (x >>= f) := by
  intro s b s' ran
  obtain ⟨a, s₁, here, later⟩ := of_bind_eq_ok ran
  rw [second a s₁ b s' later, first s a s₁ here, add_assoc]

/-- After an action that adds nothing what is added is what the next one adds. -/
theorem Adds.after {x : RefusableAction ε σ α} {f : α → RefusableAction ε σ β} {n : M}
    (first : Adds measure 0 x) (second : ∀ a, Adds measure n (f a)) :
    Adds measure n (x >>= f) := by
  rw [← zero_add n]
  exact first.bind second

theorem Adds.forM {f : α → RefusableAction ε σ PUnit} {amount : α → M}
    (each : ∀ a, Adds measure (amount a) (f a)) (as : List α) :
    Adds measure (as.map amount).sum (as.forM f) := by
  induction as with
  | nil => exact .pure _
  | cons a as ih =>
    rw [List.map_cons, List.sum_cons]
    exact .bind (each a) fun _ => ih

theorem Adds.mapM {f : α → RefusableAction ε σ β} {amount : α → M}
    (each : ∀ a, Adds measure (amount a) (f a)) (as : List α) :
    Adds measure (as.map amount).sum (as.mapM f) := by
  induction as with
  | nil => exact .pure _
  | cons a as ih =>
    rw [List.map_cons, List.sum_cons, List.mapM_cons]
    refine .bind (each a) fun b => ?_
    rw [← add_zero (as.map amount).sum]
    exact .bind ih fun bs => .pure _

end Amounts

/-! ## Overlooking a part of the state -/

/-- The action answers the same without what `forget` takes away, and ends in
what is left of the state it would have ended in. -/
def Overlooks (forget : σ → σ) (x : RefusableAction ε σ α) : Prop :=
  ∀ s, x (forget s) = ((x s).1, forget (x s).2)

variable {forget : σ → σ}

theorem Overlooks.pure (a : α) : Overlooks forget (pure a : RefusableAction ε σ α) :=
  fun _ => rfl

theorem Overlooks.bind {x : RefusableAction ε σ α} {f : α → RefusableAction ε σ β}
    (first : Overlooks forget x) (second : ∀ a, Overlooks forget (f a)) :
    Overlooks forget (x >>= f) := by
  intro s
  have alike := first s
  rcases ran : x s with ⟨e | a, s'⟩
  · rw [ran] at alike
    rw [bind_of_error ran, bind_of_error alike]
  · rw [ran] at alike
    rw [bind_of_ok ran, bind_of_ok alike, second a s']

theorem Overlooks.forM {f : α → RefusableAction ε σ PUnit} (each : ∀ a, Overlooks forget (f a))
    (as : List α) : Overlooks forget (as.forM f) := by
  induction as with
  | nil => exact .pure _
  | cons a as ih => exact .bind (each a) fun _ => ih

/-! ## Running in parallel -/

/-- From states in the relation `T` the actions end alike, with answers in the
relation `R`, and in states in the relation `T`. -/
def Parallel (T : σ → σ → Prop) (R : α → α → Prop) (x y : RefusableAction ε σ α) : Prop :=
  ∀ s t, T s t → AlikeOutcome R (x s).1 (y t).1 ∧ T (x s).2 (y t).2

namespace Parallel

variable {T : σ → σ → Prop} {P : α → α → Prop} {Q : β → β → Prop}

theorem pure {a b : α} (related : P a b) :
    Parallel T P (pure a : RefusableAction ε σ α) (pure b) :=
  fun _ _ linked => ⟨.ok related, linked⟩

theorem throw (e : ε) : Parallel T P (throw e : RefusableAction ε σ α) (throw e) :=
  fun _ _ linked => ⟨.error e, linked⟩

theorem ofExcept (outcome : Except ε α) :
    Parallel T Eq (MonadExcept.ofExcept outcome : RefusableAction ε σ α)
      (MonadExcept.ofExcept outcome) := by
  cases outcome with
  | error e => exact .throw e
  | ok a => exact .pure rfl

theorem get : Parallel T T (get : RefusableAction ε σ σ) get :=
  fun _ _ linked => ⟨.ok linked, linked⟩

theorem modifyGet {f : σ → α × σ}
    (keeps : ∀ s t, T s t → (f s).1 = (f t).1 ∧ T (f s).2 (f t).2) :
    Parallel T Eq (modifyGet f : RefusableAction ε σ α) (modifyGet f) :=
  fun s t linked => ⟨.ok (keeps s t linked).1, (keeps s t linked).2⟩

theorem modify {f : σ → σ} (keeps : ∀ s t, T s t → T (f s) (f t)) :
    Parallel T Eq (modify f : RefusableAction ε σ PUnit) (modify f) :=
  fun s t linked => ⟨.ok rfl, keeps s t linked⟩

theorem bind {x y : RefusableAction ε σ α} {f h : α → RefusableAction ε σ β}
    (first : Parallel T P x y) (second : ∀ a b, P a b → Parallel T Q (f a) (h b)) :
    Parallel T Q (x >>= f) (y >>= h) := by
  intro s t linked
  obtain ⟨alike, linked⟩ := first s t linked
  rcases ran : x s with ⟨outcome, s'⟩
  rcases ran' : y t with ⟨outcome', t'⟩
  rw [ran, ran'] at alike linked
  cases alike with
  | error e =>
    rw [bind_of_error ran, bind_of_error ran']
    exact ⟨.error e, linked⟩
  | ok related =>
    rw [bind_of_ok ran, bind_of_ok ran']
    exact second _ _ related s' t' linked

theorem forM {f : α → RefusableAction ε σ PUnit} (each : ∀ a, Parallel T Eq (f a) (f a))
    (as : List α) : Parallel T Eq (as.forM f) (as.forM f) := by
  induction as with
  | nil => exact .pure rfl
  | cons a as ih => exact .bind (each a) fun _ _ _ => ih

theorem mapM {f : α → RefusableAction ε σ β} (each : ∀ a, Parallel T Q (f a) (f a))
    (as : List α) : Parallel T (List.Forall₂ Q) (as.mapM f) (as.mapM f) := by
  induction as with
  | nil => exact .pure .nil
  | cons a as ih =>
    rw [List.mapM_cons]
    exact .bind (each a) fun b b' related => .bind ih fun bs bs' rest =>
      .pure (.cons related rest)

end Parallel

end RefusableAction

end PropertyGraph
