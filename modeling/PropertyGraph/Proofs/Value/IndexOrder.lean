import PropertyGraph.Proofs.Number.Exact
import PropertyGraph.Proofs.Value.Order
import Mathlib.Data.Fin.Basic

/-!
# The index order is exact

The index order ranks types first and compares numbers of either kind by their
places on the number line. So it is a total preorder, whatever kinds are mixed, and
between numbers it is the order of their exact values: no whole number is taken for
the float nearest to it.
-/

namespace PropertyGraph

open Std

namespace Value

variable {a b : Value}

/-- The exact value of a number of either kind. -/
def exactNumber? : Value → Option ExactNumber
  | .int n => some (.ofRat n)
  | .float x => x.exactNumber?
  | _ => none

/-- Values with a place on the number line are compared by their places. -/
theorem indexCompare_of_linePlace {p q : LinePlace} (ha : a.linePlace? = some p)
    (hb : b.linePlace? = some q) : indexCompare a b = compare p q := by
  cases a with
  | int m =>
    cases ha
    cases b with
    | int n =>
      cases hb
      exact (compare_linePlace_ofInt m n).symm
    | float y =>
      cases hb
      rfl
    | _ => cases hb
  | float x =>
    cases ha
    cases b with
    | int n =>
      cases hb
      rfl
    | float y =>
      cases hb
      rfl
    | _ => cases hb
  | _ => cases ha

/-- The number is the one whose place on the number line it has. -/
theorem exists_linePlace {u : ExactNumber} (value : a.exactNumber? = some u) :
    ∃ p, a.linePlace? = some p ∧ p.exactNumber? = some u := by
  cases a with
  | int n => exact ⟨_, rfl, (LinePlace.exactNumber?_ofInt n).trans value⟩
  | float x => exact ⟨_, rfl, (LinePlace.exactNumber?_ofBinary64 x).trans value⟩
  | _ => cases value

/-- Between numbers the index order is the order of the exact values. -/
theorem indexCompare_of_exactNumber {u v : ExactNumber} (ha : a.exactNumber? = some u)
    (hb : b.exactNumber? = some v) : indexCompare a b = cmp u v := by
  obtain ⟨p, place, value⟩ := exists_linePlace ha
  obtain ⟨q, place', value'⟩ := exists_linePlace hb
  rw [indexCompare_of_linePlace place place', LinePlace.compare_eq_cmp value value']

/-- Only what is not a number has no exact value. -/
theorem exists_exactNumber (numeric : a.isNumeric = true) (number : a.isNaN = false) :
    ∃ u, a.exactNumber? = some u := by
  cases a with
  | int n => exact ⟨_, rfl⟩
  | float x =>
    cases x with
    | finite negative exponent fraction => exact ⟨_, rfl⟩
    | infinite negative => cases negative <;> exact ⟨_, rfl⟩
    | notANumber => cases number
  | _ => cases numeric

/-- Not-a-number is above all other numbers. -/
theorem indexCompare_notANumber (numeric : a.isNumeric = true) :
    indexCompare a (.float .notANumber) = if a.isNaN then .eq else .lt := by
  cases a with
  | int n => rfl
  | float x =>
    cases x with
    | infinite negative => cases negative <;> rfl
    | _ => rfl
  | _ => cases numeric

theorem rank_of_isNumeric (numeric : a.isNumeric = true) : a.rank = .numeric := by
  cases a with
  | int n => rfl
  | float x => rfl
  | _ => cases numeric

/-- A value of a lower rank comes first. -/
theorem indexCompare_of_rank (lower : a.rank.position < b.rank.position) :
    indexCompare a b = .lt := by
  have ranks : compare a.rank b.rank = .lt := Nat.compare_eq_lt.2 lower
  have lex := compare_eq_lex a b
  rw [ranks] at lex
  exact lex

/-- The index order is a total preorder, and values that it takes for equal stand in
it alike. Between numbers of either kind it is the order of the exact values, which
all numbers but not-a-number have; against a float a whole number of 64 bits may be
compared by the whole part of the float. Not-a-number equals itself and is above all
other numbers, and numbers come before strings, strings before truths and null last. -/
theorem indexCompare_exact :
    (∀ a b : Value, indexCompare b a = (indexCompare a b).swap) ∧
      (∀ a : Value, indexCompare a a = .eq) ∧
      (∀ a b c : Value, indexCompare a b ≠ .gt → indexCompare b c ≠ .gt →
        indexCompare a c ≠ .gt) ∧
      (∀ a b c : Value, indexCompare a b = .eq →
        indexCompare a c = indexCompare b c ∧ indexCompare c a = indexCompare c b) ∧
      (∀ (a b : Value) (u v : ExactNumber), a.exactNumber? = some u → b.exactNumber? = some v →
        indexCompare a b = cmp u v) ∧
      (∀ a : Value, a.isNumeric = true → a.isNaN = false → ∃ u, a.exactNumber? = some u) ∧
      (∀ (n : Int64) (x : Binary64),
        indexCompare (.int n.toInt) (.float x) = compareByWholePart n x) ∧
      (∀ a : Value, a.isNumeric = true →
        indexCompare a (.float .notANumber) = if a.isNaN then .eq else .lt) ∧
      (∀ (a : Value) (s : String), a.isNumeric = true → indexCompare a (.string s) = .lt) ∧
      (∀ (s : String) (t : Bool), indexCompare (.string s) (.bool t) = .lt) ∧
      ∀ a : Value, a.isNull = false → indexCompare a .null = .lt := by
  have laws : TransCmp indexCompare := inferInstanceAs (TransOrd Value)
  have le_iff : ∀ o : Ordering, o ≠ .gt ↔ o.isLE = true := by decide
  refine ⟨fun a b => OrientedCmp.eq_swap, fun a => ReflCmp.compare_self,
    fun a b c first second => ?_, fun a b c same => ?_, fun a b u v => indexCompare_of_exactNumber,
    fun a => exists_exactNumber, fun n x => ?_, fun a => indexCompare_notANumber,
    fun a s numeric => indexCompare_of_rank ?_, fun s t => rfl,
    fun a stored => indexCompare_of_rank ?_⟩
  · rw [le_iff] at first second ⊢
    exact TransCmp.isLE_trans first second
  · exact ⟨TransCmp.congr_left same, TransCmp.congr_right same⟩
  · rw [indexCompare_of_linePlace rfl rfl, compareByWholePart_eq]
  · rw [rank_of_isNumeric numeric]
    exact Nat.zero_lt_one
  · cases a with
    | null => cases stored
    | _ => simp [rank, TypeRank.position]

/-- Between the neighbouring floats 2⁵³ and 2⁵³ + 2 lies a whole number that is no
float; the order puts it between them. The whole number 2⁵³ equals the float, so it
stands where the float stands. -/
theorem indexCompare_exact_beyond_whole_floats :
    let float : Value := .float (.finite false 1076 0)
    let next : Value := .float (.finite false 1076 1)
    let between : Value := .int 9007199254740993
    indexCompare float between = .lt ∧ indexCompare between next = .lt ∧
      indexCompare float next ≠ .gt ∧
      indexCompare (.int 9007199254740992) between = indexCompare float between ∧
      indexCompare next (.float .notANumber) = .lt ∧ indexCompare next (.string "") = .lt ∧
      indexCompare next .null = .lt := by
  intro float next between
  obtain ⟨-, -, trans, alike, exactly, -, -, nan, strings, -, null⟩ := indexCompare_exact
  have float_value : float.exactNumber? = some (.ofRat 9007199254740992) :=
    congrArg (some ∘ ExactNumber.ofRat) (by norm_num [Binary64.fieldValue])
  have next_value : next.exactNumber? = some (.ofRat 9007199254740994) :=
    congrArg (some ∘ ExactNumber.ofRat) (by norm_num [Binary64.fieldValue])
  have between_value : between.exactNumber? = some (.ofRat 9007199254740993) :=
    congrArg (some ∘ ExactNumber.ofRat) (by norm_num)
  have whole_value : (Value.int 9007199254740992).exactNumber? = some (.ofRat 9007199254740992) :=
    congrArg (some ∘ ExactNumber.ofRat) (by norm_num)
  have lower : indexCompare float between = .lt := by
    rw [exactly _ _ _ _ float_value between_value, ExactNumber.ofRat_strictMono.cmp_map_eq,
      cmp_eq_lt_iff]
    norm_num
  have upper : indexCompare between next = .lt := by
    rw [exactly _ _ _ _ between_value next_value, ExactNumber.ofRat_strictMono.cmp_map_eq,
      cmp_eq_lt_iff]
    norm_num
  have same : indexCompare (.int 9007199254740992) float = .eq := by
    rw [exactly _ _ _ _ whole_value float_value, cmp_self_eq_eq]
  exact ⟨lower, upper, trans _ _ _ (by rw [lower]; decide) (by rw [upper]; decide),
    (alike _ _ _ same).1, nan next rfl, strings next "" rfl, null next rfl⟩

end Value

end PropertyGraph
