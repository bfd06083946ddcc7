import RecordGraph.Value.Order

/-!
# Laws of the order of values

Whatever form two values are compared in, both are brought to it. The order from the other side is
therefore the swapped one, and two values are in no order only for a reason that is seen on the
values themselves. Values of one variant need no other form and are ordered as their contents are.
-/

namespace RecordGraph

theorem compare_of_isLE {Content : Type} [Ord Content] [Std.TransOrd Content]
    {first second third : Content} (left : (compare first second).isLE = true)
    (right : (compare second third).isLE = true) :
    compare first third = (compare first second).then (compare second third) := by
  cases step : compare first second with
  | lt => exact Std.TransCmp.lt_of_lt_of_isLE step right
  | eq => exact Std.TransCmp.congr_left step
  | gt =>
    rw [step] at left
    cases left

/-! ## Reals -/

namespace Binary64

theorem position?_eq_none_iff {value : Binary64} : value.position? = none ↔ value = notANumber := by
  cases value <;> simp [position?]

theorem compare?_swap (left right : Binary64) :
    right.compare? left = (left.compare? right).map Ordering.swap := by
  unfold compare?
  cases left.position? with
  | none => cases right.position? <;> rfl
  | some place =>
    cases right.position? with
    | none => rfl
    | some other => exact congrArg some Std.OrientedCmp.eq_swap

theorem compare?_eq_none_iff {left right : Binary64} :
    left.compare? right = none ↔ left = notANumber ∨ right = notANumber := by
  rw [← position?_eq_none_iff, ← position?_eq_none_iff, compare?]
  cases left.position? <;> cases right.position? <;> simp

/-- The position of every value in a chain is known, so the chain is one of integers. -/
theorem compare?_of_isLE {first second third : Binary64} {left right : Ordering}
    (step : first.compare? second = some left) (next : second.compare? third = some right)
    (leftLE : left.isLE = true) (rightLE : right.isLE = true) :
    first.compare? third = some (left.then right) := by
  unfold compare? at step next ⊢
  cases start : first.position? with
  | none => simp [start] at step
  | some place =>
    cases middle : second.position? with
    | none => simp [start, middle] at step
    | some between =>
      cases finish : third.position? with
      | none => simp [middle, finish] at next
      | some goal =>
        simp only [start, middle, finish, Option.some.injEq] at step next ⊢
        subst step next
        exact compare_of_isLE leftLE rightLE

theorem ofInt_ne_notANumber (value : Int) : ofInt value ≠ notANumber := by
  unfold ofInt ofUnits ofQuotient
  split <;> exact nofun

end Binary64

/-! ## Values -/

namespace Value

def Unordered (left right : Value) : Prop :=
  left.isAbsent ≠ right.isAbsent ∨
    left.isText = false ∧ right.isText = false ∧
      (left = real .notANumber ∨ right = real .notANumber)

theorem compare?_swap (left right : Value) :
    right.compare? left = (left.compare? right).map Ordering.swap := by
  cases left with
  | absent =>
    cases right <;> simp only [compare?, Option.map_some, Option.map_none, Ordering.swap_eq]
  | text left =>
    cases right with
    | absent => simp only [compare?, Option.map_none]
    | _ => exact congrArg some Std.OrientedCmp.eq_swap
  | real left =>
    cases right <;> simp only [compare?, Option.map_none]
    case text => exact congrArg some Std.OrientedCmp.eq_swap
    all_goals exact Binary64.compare?_swap _ _
  | handle left =>
    cases right <;> simp only [compare?, Option.map_none]
    case real => exact Binary64.compare?_swap _ _
    all_goals exact congrArg some Std.OrientedCmp.eq_swap
  | int left =>
    cases right <;> simp only [compare?, Option.map_none]
    case real => exact Binary64.compare?_swap _ _
    all_goals exact congrArg some Std.OrientedCmp.eq_swap

theorem compare?_eq_none_iff {left right : Value} :
    left.compare? right = none ↔ Unordered left right := by
  cases left <;> cases right <;>
    simp [compare?, Unordered, isAbsent, isText, toReal, Binary64.compare?_eq_none_iff,
      Binary64.ofInt_ne_notANumber]

theorem compare?_of_isLE {first second third : Value}
    (same : first.variantName = second.variantName)
    (sameNext : second.variantName = third.variantName) {left right : Ordering}
    (step : first.compare? second = some left) (next : second.compare? third = some right)
    (leftLE : left.isLE = true) (rightLE : right.isLE = true) :
    first.compare? third = some (left.then right) := by
  cases first <;> cases second <;> simp [variantName] at same <;> cases third <;>
    simp [variantName] at sameNext
  case absent =>
    cases step
    cases next
    rfl
  case int =>
    cases step
    cases next
    exact congrArg some (compare_of_isLE leftLE rightLE)
  case real => exact Binary64.compare?_of_isLE step next leftLE rightLE
  case text =>
    cases step
    cases next
    exact congrArg some (compare_of_isLE leftLE rightLE)
  case handle =>
    cases step
    cases next
    exact congrArg some (compare_of_isLE leftLE rightLE)

end Value

/-! ## Relations -/

namespace Comparison

/-- What the relations of two values have to do with each other and with those from the other
side. -/
structure Lawful (left right : Value) : Prop where
  notEqual_eq : notEqual.holds left right = !equal.holds left right
  less_swap : less.holds left right = greater.holds right left
  equal_swap : equal.holds left right = equal.holds right left
  notEqual_swap : notEqual.holds left right = notEqual.holds right left
  lessOrEqual_eq : lessOrEqual.holds left right = (less.holds left right || equal.holds left right)
  greaterOrEqual_eq :
    greaterOrEqual.holds left right = (greater.holds left right || equal.holds left right)
  at_most_one : [less, equal, greater].countP (·.holds left right) ≤ 1
  exactly_one_iff :
    [less, equal, greater].countP (·.holds left right) = 1 ↔ ¬ Value.Unordered left right

theorem lawful (left right : Value) : Lawful left right := by
  have swap := Value.compare?_swap left right
  have none_iff := @Value.compare?_eq_none_iff left right
  constructor <;> simp only [holds, swap, ← none_iff, List.countP_cons, List.countP_nil]
  all_goals
    cases left.compare? right with
    | none => simp
    | some order => cases order <;> decide

theorem equal_iff {left right : Value} :
    equal.holds left right = true ↔ left.compare? right = some .eq := by
  simp [holds]

theorem less_iff {left right : Value} :
    less.holds left right = true ↔ left.compare? right = some .lt := by
  simp [holds]

theorem lessOrEqual_iff {left right : Value} :
    lessOrEqual.holds left right = true ↔
      ∃ order : Ordering, left.compare? right = some order ∧ order.isLE = true := by
  simp only [holds]
  cases left.compare? right with
  | none => simp
  | some order => cases order <;> simp

theorem greaterOrEqual_swap (left right : Value) :
    greaterOrEqual.holds left right = lessOrEqual.holds right left := by
  rw [(lawful left right).greaterOrEqual_eq, (lawful right left).lessOrEqual_eq,
    (lawful right left).less_swap, (lawful left right).equal_swap]

/-! ## Chains of one variant -/

section

variable {first second third : Value} (same : first.variantName = second.variantName)
  (sameNext : second.variantName = third.variantName)

include same sameNext

theorem less_of_chain (step : less.holds first second = true)
    (next : less.holds second third = true) : less.holds first third = true := by
  rw [less_iff] at step next ⊢
  exact Value.compare?_of_isLE same sameNext step next rfl rfl

theorem lessOrEqual_of_chain (step : lessOrEqual.holds first second = true)
    (next : lessOrEqual.holds second third = true) : lessOrEqual.holds first third = true := by
  rw [lessOrEqual_iff] at step next ⊢
  obtain ⟨left, found, leftLE⟩ := step
  obtain ⟨right, foundNext, rightLE⟩ := next
  refine ⟨left.then right, Value.compare?_of_isLE same sameNext found foundNext leftLE rightLE, ?_⟩
  exact Ordering.isLE_then_iff_and.mpr ⟨leftLE, .inr rightLE⟩

theorem holds_of_chain {comparison : Comparison} (positive : comparison ≠ notEqual)
    (step : comparison.holds first second = true) (next : comparison.holds second third = true) :
    comparison.holds first third = true := by
  cases comparison with
  | notEqual => exact absurd rfl positive
  | equal =>
    rw [equal_iff] at step next ⊢
    exact Value.compare?_of_isLE same sameNext step next rfl rfl
  | less => exact less_of_chain same sameNext step next
  | greater =>
    rw [← (lawful _ _).less_swap] at step next ⊢
    exact less_of_chain sameNext.symm same.symm next step
  | lessOrEqual => exact lessOrEqual_of_chain same sameNext step next
  | greaterOrEqual =>
    rw [greaterOrEqual_swap] at step next ⊢
    exact lessOrEqual_of_chain sameNext.symm same.symm next step

end

/-- The relations of any two values fit together, and among values of one variant every relation but
`notEqual` is transitive. -/
theorem comparisons_lawful (first second third : Value) :
    Lawful first second ∧
      (first.variantName = second.variantName → second.variantName = third.variantName →
        ∀ comparison, comparison ≠ notEqual → comparison.holds first second = true →
          comparison.holds second third = true → comparison.holds first third = true) :=
  ⟨lawful first second, fun same sameNext _ => holds_of_chain same sameNext⟩

/-- Handles are ordered as words without a sign: the upper two here are negative as integers. -/
theorem comparisons_lawful_handles :
    less.holds (.handle 1) (.handle 0x8000000000000000) = true ∧
      less.holds (.handle 0x8000000000000000) (.handle 0xFFFFFFFFFFFFFFFF) = true ∧
      less.holds (.handle 1) (.handle 0xFFFFFFFFFFFFFFFF) = true := by
  have step : less.holds (.handle 1) (.handle 0x8000000000000000) = true := by decide
  have next : less.holds (.handle 0x8000000000000000) (.handle 0xFFFFFFFFFFFFFFFF) = true := by
    decide
  have laws := comparisons_lawful (.handle 1) (.handle 0x8000000000000000)
    (.handle 0xFFFFFFFFFFFFFFFF)
  exact ⟨step, next, laws.2 rfl rfl less (by decide) step next⟩

-- values of different variants make a circle: a text has the other value compared as a text
example : less.holds (.int 9) (.int 10) = true ∧ equal.holds (.int 10) (.text "10") = true ∧
    less.holds (.text "10") (.int 9) = true := by
  decide +kernel

end Comparison
end RecordGraph
