import AdvanceTrading.Misc.ThreeValued
import AdvanceTrading.Screener.BarValues
import Mathlib.Algebra.CharZero.Infinite

/-!
# Missing values under NOT

A condition of comparisons, BETWEEN, IN, AND, OR and NOT on the last bar
(`runtime.py:279-299`, `:1302-1339`). `Node.evFilled` is the evaluator of
`_Eval._ev` with numbers in the place of missing operands, and `Node.tests` the
condition as its operands stand on the last bar. A comparison with a missing
operand is false, and NOT makes it true (`runtime.py:11`: NaN never matches): a
condition that is true stays true for every way of filling the missing operands
when it is true whatever those comparisons turn out to be.
-/

namespace AdvanceTrading.Screener

open ThreeValued

/-! ## Conditions -/

mutual

/-- Built of comparisons, BETWEEN, IN, AND, OR and NOT. -/
def Node.isCondition : Node → Bool
  | .compare .. | .between .. | .isIn .. => true
  | .logic _ items => allConditions items
  | .not item => item.isCondition
  | _ => false

def allConditions : List Node → Bool
  | [] => true
  | node :: rest => node.isCondition && allConditions rest

end

/-- A number in the place of a missing value on the last bar. -/
def Cell.fill (c : Cell) : Option ℚ → Cell
  | some q => if c.missing then .num q else c
  | none => c

/-- An operand's value, filled on the last bar. -/
def Value.fill (number : Option ℚ) : Value → Value
  | .const c => .const (c.fill number)
  | .series cells => .series (cells.dropLast ++ (cells.getLast?.map fun c => c.fill number).toList)

section Evaluate

variable {clock : Clock} (setting : Setting clock) (fill : Node → Option ℚ)

/-- An operand, filled. -/
def Node.operand (node : Node) (tf : Timeframe) : Eval clock Value := do
  let v ← node.ev setting tf
  return v.fill (fill node)

mutual

/-- `_Eval._ev` of a condition, with its missing operands filled on the last bar. -/
def Node.evFilled : Node → Timeframe → Eval clock Value
  | .compare op left right, tf => do
      let v ← left.operand setting fill tf
      let w ← right.operand setting fill tf
      return Value.cmp op v w
  | .between value low high, tf => do
      let v ← value.operand setting fill tf
      let lo ← low.operand setting fill tf
      let hi ← high.operand setting fill tf
      return Value.connect and (Value.cmp .ge v lo) (Value.cmp .le v hi)
  | .isIn value items, tf => do
      let v ← value.operand setting fill tf
      let cells ← evAll setting items tf
      let literals ← liftM (listed cells)
      return v.isIn literals
  | .logic op items, tf => do
      let parts ← evFilledAll items tf
      match parts with
      | [] => throw .emptyGroup
      | first :: rest => return rest.foldl (Value.connect op.connective) first
  | .not item, tf => do
      let v ← item.evFilled tf
      return v.negate
  | node, tf => node.ev setting tf

def evFilledAll : List Node → Timeframe → Eval clock (List Value)
  | [], _ => return []
  | node :: rest, tf => do
      let v ← node.evFilled tf
      let vs ← evFilledAll rest tf
      return v :: vs

end

/-- `evaluate`, filled. -/
def evaluateFilled (node : Node) (frames : Frames clock) : Except Failure Value :=
  match frames setting.baseTf with
  | some base =>
      if base.rows = [] then .error (.noBars setting.baseTf)
      else (node.evFilled setting fill setting.baseTf frames).map Prod.fst
  | none => .error (.noBars setting.baseTf)

end Evaluate

/-! ## Tests on the last bar -/

/-- An operand: its node, and its value on the last bar. -/
structure Operand where
  node : Node
  cell : Cell

/-- A condition as its operands stand on the last bar. -/
inductive Test where
  | compare (op : CompareOp) (left right : Operand)
  | between (value low high : Operand)
  | isIn (value : Operand) (items : List Cell)
  | join (op : Group) (first second : Test)
  | not (item : Test)

namespace Test

/-- What the code makes of it. -/
def holds : Test → Bool
  | compare op left right => op.cells left.cell right.cell
  | between value low high => CompareOp.ge.cells value.cell low.cell && CompareOp.le.cells value.cell high.cell
  | isIn value items => items.any value.cell.same
  | join op first second => op.connective first.holds second.holds
  | not item => !item.holds

/-- With numbers in the place of missing operands. -/
def filled (fill : Node → Option ℚ) : Test → Test
  | compare op left right =>
      compare op { left with cell := left.cell.fill (fill left.node) }
        { right with cell := right.cell.fill (fill right.node) }
  | between value low high =>
      between { value with cell := value.cell.fill (fill value.node) }
        { low with cell := low.cell.fill (fill low.node) } { high with cell := high.cell.fill (fill high.node) }
  | isIn value items => isIn { value with cell := value.cell.fill (fill value.node) } items
  | join op first second => join op (first.filled fill) (second.filled fill)
  | not item => not (item.filled fill)

end Test

/-! ## Missing operands -/

/-- A missing value or a number. -/
def Cell.isNumeric : Cell → Bool
  | .absent | .nan | .num _ => true
  | .text _ | .flag _ => false

/-- The node of an operand that is missing. -/
def Operand.missing (o : Operand) : List Node := if o.cell.missing then [o.node] else []

/-- A comparison, unknown where an operand is missing. -/
def CompareOp.known (op : CompareOp) (c d : Cell) : Truth :=
  if c.missing || d.missing then none else some (op.cells c d)

/-- A missing value between two others is unknown, but for bounds that nothing is between. -/
def betweenKnown (low high : Option ℚ) : Truth :=
  match low, high with
  | some a, some b => if b < a then some false else none
  | _, _ => none

namespace Test

/-- The condition as far as it is known whatever numbers the missing operands are. -/
def known : Test → Truth
  | compare op left right => op.known left.cell right.cell
  | between value low high =>
      if value.cell.missing then betweenKnown low.cell.number high.cell.number
      else lift₂ and (CompareOp.ge.known value.cell low.cell) (CompareOp.le.known value.cell high.cell)
  | isIn value items =>
      if value.cell.missing then (if items.any fun d => d.number.isSome then none else some false)
      else some (items.any value.cell.same)
  | join op first second => lift₂ op.connective first.known second.known
  | not item => negate item.known

/-- The nodes of the missing operands, as often as they stand there. -/
def missing : Test → List Node
  | compare _ left right => left.missing ++ right.missing
  | between value low high => value.missing ++ (low.missing ++ high.missing)
  | isIn value _ => value.missing
  | join _ first second => first.missing ++ second.missing
  | not item => item.missing

/-- Every operand is a number or missing. -/
def numeric : Test → Bool
  | compare _ left right => left.cell.isNumeric && right.cell.isNumeric
  | between value low high => value.cell.isNumeric && low.cell.isNumeric && high.cell.isNumeric
  | isIn value _ => value.cell.isNumeric
  | join _ first second => first.numeric && second.numeric
  | not item => item.numeric

end Test

section Evaluate

variable {clock : Clock} (setting : Setting clock)

/-- An operand on the last bar. -/
def Node.onLastBar (node : Node) (tf : Timeframe) : Eval clock Operand := do
  let v ← node.ev setting tf
  return ⟨node, v.last⟩

mutual

/-- The tests of a condition on the last bar. -/
def Node.tests : Node → Timeframe → Eval clock Test
  | .compare op left right, tf => do
      let v ← left.onLastBar setting tf
      let w ← right.onLastBar setting tf
      return .compare op v w
  | .between value low high, tf => do
      let v ← value.onLastBar setting tf
      let lo ← low.onLastBar setting tf
      let hi ← high.onLastBar setting tf
      return .between v lo hi
  | .isIn value items, tf => do
      let v ← value.onLastBar setting tf
      let cells ← evAll setting items tf
      let literals ← liftM (listed cells)
      return .isIn v literals
  | .logic op items, tf => do
      let parts ← testsAll items tf
      match parts with
      | [] => throw .emptyGroup
      | first :: rest => return rest.foldl (Test.join op) first
  | .not item, tf => do
      let t ← item.tests tf
      return .not t
  | _, _ => throw .emptyGroup

def testsAll : List Node → Timeframe → Eval clock (List Test)
  | [], _ => return []
  | node :: rest, tf => do
      let t ← node.tests tf
      let ts ← testsAll rest tf
      return t :: ts

end

/-- The tests of a screen on a symbol's frames. -/
def testsOf (node : Node) (frames : Frames clock) : Except Failure Test :=
  match frames setting.baseTf with
  | some base =>
      if base.rows = [] then .error (.noBars setting.baseTf)
      else (node.tests setting setting.baseTf frames).map Prod.fst
  | none => .error (.noBars setting.baseTf)

end Evaluate

/-! ## What a condition may still come to -/

variable {b : Bool} {items : List Cell} {x : ℚ} {o : Operand}

variable (op : CompareOp)

section Open

variable {fill fill' : Node → Option ℚ} {c d : Cell}

theorem Cell.fill_present (present : c.missing = false) (number : Option ℚ) : c.fill number = c := by
  cases number with
  | none => rfl
  | some q => exact if_neg (by simp [present])

theorem Cell.fill_missing (gone : c.missing = true) (q : ℚ) : c.fill (some q) = .num q := if_pos gone

theorem Cell.number_of_missing (gone : c.missing = true) : c.number = none := by
  cases c with
  | absent | nan => rfl
  | num | text | flag => exact nomatch gone

theorem Cell.present_of_number {q : ℚ} (known : c.number = some q) : c.missing = false := by
  by_contra gone
  rw [Cell.number_of_missing (by simpa using gone)] at known
  exact nomatch known

/-- What stands for a missing value is not one of the items, unless it is a number among them. -/
theorem same_of_no_number (gone : c.missing = true)
    (none_number : items.any (fun d => d.number.isSome) = false) (number : Option ℚ) :
    items.any (c.fill number).same = false := by
  rw [List.any_eq_false] at none_number ⊢
  intro d listed
  have textual : d.number = none := by simpa using none_number d listed
  cases number with
  | none =>
    show ¬ c.same d = true
    unfold Cell.same
    rw [Cell.number_of_missing gone, textual]
    simp [gone]
  | some q =>
    rw [Cell.fill_missing gone]
    unfold Cell.same
    rw [textual]
    simp [Cell.number]

theorem CompareOp.cells_open (m n : Option ℚ) :
    op.cells (c.fill m) (d.fill n) ∈ (op.known c d).open_ := by
  unfold CompareOp.known
  split
  case isTrue => exact mem_open_none
  case isFalse present =>
    rw [Bool.or_eq_true, not_or, Bool.not_eq_true, Bool.not_eq_true] at present
    rw [Cell.fill_present present.1, Cell.fill_present present.2]
    exact mem_open_some.mpr rfl

/-- Two numbers compare as numbers. -/
theorem CompareOp.cells_numbers {y : ℚ} (left : c.number = some x) (right : d.number = some y) :
    op.cells c d = op.holds x y := by
  unfold CompareOp.cells
  rw [if_neg (by simp [Cell.present_of_number left, Cell.present_of_number right])]
  simp only [left, right]

/-- Nothing is between bounds in the wrong order, and a missing value is not either. -/
theorem between_open {low high : Cell} (gone : c.missing = true) (m n o : Option ℚ) :
    (CompareOp.ge.cells (c.fill m) (low.fill n) && CompareOp.le.cells (c.fill m) (high.fill o)) ∈
      (betweenKnown low.number high.number).open_ := by
  unfold betweenKnown
  split
  case h_2 => exact mem_open_none
  case h_1 a b isLow isHigh =>
    split
    case isFalse => exact mem_open_none
    case isTrue wrong =>
      rw [mem_open_some]
      rw [Cell.fill_present (Cell.present_of_number isLow), Cell.fill_present (Cell.present_of_number isHigh)]
      cases m with
      | none =>
        show (CompareOp.ge.cells c low && CompareOp.le.cells c high) = false
        unfold CompareOp.cells
        simp [gone]
      | some q =>
        rw [Cell.fill_missing gone, CompareOp.cells_numbers .ge rfl isLow, CompareOp.cells_numbers .le rfl isHigh,
          Bool.and_eq_false_iff]
        simp only [CompareOp.holds, decide_eq_false_iff_not, not_le]
        rcases lt_or_ge q a with below | above
        · exact .inl below
        · exact .inr (wrong.trans_le above)

/-- However the missing operands are filled, the condition comes to what it leaves open. -/
theorem Test.holds_open (t : Test) (fill : Node → Option ℚ) : (t.filled fill).holds ∈ t.known.open_ := by
  induction t with
  | compare op left right => exact op.cells_open _ _
  | between value low high =>
    unfold Test.known
    split
    case isTrue gone => exact between_open gone _ _ _
    case isFalse present =>
      rw [mem_open_lift₂]
      exact ⟨_, CompareOp.ge.cells_open _ _, _, CompareOp.le.cells_open _ _, rfl⟩
  | isIn value items =>
    unfold Test.known
    split
    case isTrue gone =>
      split
      case isTrue => exact mem_open_none
      case isFalse none_number =>
        rw [mem_open_some]
        exact same_of_no_number gone (by simpa using none_number) _
    case isFalse present =>
      rw [mem_open_some]
      show items.any (value.cell.fill _).same = _
      rw [Cell.fill_present (by simpa using present)]
  | join op first second ih ih' => exact mem_open_lift₂.mpr ⟨_, ih, _, ih', rfl⟩
  | not item ih => exact mem_open_negate.mpr ⟨_, ih, rfl⟩

/-! ### With operands that are missing once each -/

/-- Distinct nodes take any numbers. -/
theorem exists_numbers (targets : List (Node × ℚ)) (distinct : (targets.map Prod.fst).Nodup) :
    ∃ numbers : Node → ℚ, ∀ e ∈ targets, numbers e.1 = e.2 := by
  classical
  induction targets with
  | nil => exact ⟨fun _ => 0, List.forall_mem_nil _⟩
  | cons e rest ih =>
    rw [List.map_cons, List.nodup_cons] at distinct
    obtain ⟨numbers, reached⟩ := ih distinct.2
    refine ⟨Function.update numbers e.1 e.2, List.forall_mem_cons.mpr ⟨Function.update_self _ _ _, ?_⟩⟩
    intro d listed
    have ne : d.1 ≠ e.1 := fun same => distinct.1 (same ▸ List.mem_map_of_mem listed)
    rw [Function.update_of_ne ne]
    exact reached d listed

/-- A missing operand filled with its number, or a present one that is it. -/
def Reads (o : Operand) (x : ℚ) : Prop := o.cell.missing = true ∨ o.cell = .num x

theorem fill_of_reads {numbers : Node → ℚ} (reads : Reads o x)
    (reached : ∀ n ∈ o.missing, numbers n = x) : o.cell.fill (some (numbers o.node)) = .num x := by
  by_cases gone : o.cell.missing = true
  · have listed : o.node ∈ o.missing := by simp [Operand.missing, gone]
    rw [Cell.fill_missing gone, reached _ listed]
  · rcases reads with gone' | isNumber
    · exact absurd gone' gone
    · rw [isNumber]
      exact Cell.fill_present rfl _

/-- Some values are reached by filling, if the operands read them and no node is missing twice. -/
theorem exists_fill (os : List (Operand × ℚ)) (reads : ∀ e ∈ os, Reads e.1 e.2)
    (distinct : (os.flatMap fun e => e.1.missing).Nodup) :
    ∃ numbers : Node → ℚ, ∀ e ∈ os, e.1.cell.fill (some (numbers e.1.node)) = .num e.2 := by
  have nodes : ((os.flatMap fun e => e.1.missing.map fun n => (n, e.2)).map Prod.fst) =
      os.flatMap fun e => e.1.missing := by
    simp [List.map_flatMap, Function.comp_def]
  obtain ⟨numbers, reached⟩ := exists_numbers (os.flatMap fun e => e.1.missing.map fun n => (n, e.2)) (by rwa [nodes])
  refine ⟨numbers, fun e listed => fill_of_reads (reads e listed) fun n gone => ?_⟩
  exact reached (n, e.2) (List.mem_flatMap.mpr ⟨e, listed, List.mem_map_of_mem gone⟩)

theorem exists_left (y : ℚ) (b : Bool) : ∃ x : ℚ, op.holds x y = b := by
  cases op with
  | gt | ne => exact ⟨if b then y + 1 else y, by cases b <;> simp [CompareOp.holds]⟩
  | le | eq => exact ⟨if b then y else y + 1, by cases b <;> simp [CompareOp.holds]⟩
  | ge => exact ⟨if b then y else y - 1, by cases b <;> simp [CompareOp.holds]⟩
  | lt => exact ⟨if b then y - 1 else y, by cases b <;> simp [CompareOp.holds]⟩

theorem exists_right (x : ℚ) (b : Bool) : ∃ y : ℚ, op.holds x y = b := by
  cases op with
  | lt | ne => exact ⟨if b then x + 1 else x, by cases b <;> simp [CompareOp.holds]⟩
  | ge | eq => exact ⟨if b then x else x + 1, by cases b <;> simp [CompareOp.holds]⟩
  | le => exact ⟨if b then x else x - 1, by cases b <;> simp [CompareOp.holds]⟩
  | gt => exact ⟨if b then x - 1 else x, by cases b <;> simp [CompareOp.holds]⟩

/-- A numeric operand is missing, or reads its number. -/
theorem Operand.cases_numeric (numeric : o.cell.isNumeric = true) :
    o.cell.missing = true ∨ ∃ x, o.cell = .num x := by
  cases isCell : o.cell with
  | absent | nan => exact .inl rfl
  | num x => exact .inr ⟨x, rfl⟩
  | text | flag =>
    rw [isCell] at numeric
    exact nomatch numeric

/-- What a comparison leaves open is reached. -/
theorem compare_reached {l r : Operand} (left : l.cell.isNumeric = true)
    (right : r.cell.isNumeric = true) (still : b ∈ (op.known l.cell r.cell).open_) :
    ∃ x y, Reads l x ∧ Reads r y ∧ op.holds x y = b := by
  rcases Operand.cases_numeric left with gone | ⟨x, isX⟩
  · rcases Operand.cases_numeric right with gone' | ⟨y, isY⟩
    · obtain ⟨x, reached⟩ := exists_left op 0 b
      exact ⟨x, 0, .inl gone, .inl gone', reached⟩
    · obtain ⟨x, reached⟩ := exists_left op y b
      exact ⟨x, y, .inl gone, .inr isY, reached⟩
  · rcases Operand.cases_numeric right with gone' | ⟨y, isY⟩
    · obtain ⟨y, reached⟩ := exists_right op x b
      exact ⟨x, y, .inr isX, .inl gone', reached⟩
    · rw [isX, isY] at still
      exact ⟨x, y, .inr isX, .inr isY, (mem_open_some.mp still).symm⟩

/-- What a missing value between two others leaves open is reached. -/
theorem between_reached {v l h : Operand} (gone : v.cell.missing = true)
    (low : l.cell.isNumeric = true) (high : h.cell.isNumeric = true)
    (still : b ∈ (betweenKnown l.cell.number h.cell.number).open_) :
    ∃ x y z, Reads v x ∧ Reads l y ∧ Reads h z ∧ (CompareOp.ge.holds x y && CompareOp.le.holds x z) = b := by
  obtain ⟨y, z, readsLow, readsHigh, order⟩ : ∃ y z, Reads l y ∧ Reads h z ∧ (z < y → b = false) := by
    rcases Operand.cases_numeric low with goneLow | ⟨y, isY⟩
    · rcases Operand.cases_numeric high with goneHigh | ⟨z, isZ⟩
      · exact ⟨0, 0, .inl goneLow, .inl goneHigh, fun wrong => absurd wrong (lt_irrefl 0)⟩
      · exact ⟨z, z, .inl goneLow, .inr isZ, fun wrong => absurd wrong (lt_irrefl z)⟩
    · rcases Operand.cases_numeric high with goneHigh | ⟨z, isZ⟩
      · exact ⟨y, y, .inr isY, .inl goneHigh, fun wrong => absurd wrong (lt_irrefl y)⟩
      · refine ⟨y, z, .inr isY, .inr isZ, fun wrong => ?_⟩
        rw [isY, isZ] at still
        simpa [betweenKnown, Cell.number, wrong] using still
  cases b with
  | false =>
    refine ⟨y - 1, y, z, .inl gone, readsLow, readsHigh, ?_⟩
    simp [CompareOp.holds]
  | true =>
    have right : y ≤ z := by
      by_contra wrong
      exact absurd (order (not_le.mp wrong)) (by decide)
    refine ⟨y, y, z, .inl gone, readsLow, readsHigh, ?_⟩
    simp [CompareOp.holds, right]

theorem Cell.num_same {y : ℚ} (isNumber : d.number = some y) :
    (Cell.num x).same d = decide (x = y) := by
  unfold Cell.same
  rw [isNumber]
  rfl

theorem Cell.num_same_text (isText : d.number = none) : (Cell.num x).same d = false := by
  unfold Cell.same
  rw [isText]
  rfl

/-- What a missing value among some items leaves open is reached. -/
theorem isIn_reached (someNumber : items.any (fun d => d.number.isSome) = true) (b : Bool) :
    ∃ x, items.any (Cell.num x).same = b := by
  cases b with
  | true =>
    obtain ⟨d, listed, isSome⟩ := List.any_eq_true.mp someNumber
    obtain ⟨x, isNumber⟩ := Option.isSome_iff_exists.mp isSome
    refine ⟨x, List.any_eq_true.mpr ⟨d, listed, ?_⟩⟩
    rw [Cell.num_same isNumber, decide_eq_true_eq]
  | false =>
    obtain ⟨x, other⟩ := Infinite.exists_notMem_finset (items.filterMap Cell.number).toFinset
    refine ⟨x, List.any_eq_false.mpr fun d listed => ?_⟩
    cases isNumber : d.number with
    | none => simp [Cell.num_same_text isNumber]
    | some y =>
      rw [Cell.num_same isNumber, decide_eq_true_eq]
      rintro rfl
      exact other (List.mem_toFinset.mpr (List.mem_filterMap.mpr ⟨d, listed, isNumber⟩))

theorem filled_congr (numbers numbers' : Node → ℚ) (t : Test) (same : ∀ n ∈ t.missing, numbers n = numbers' n) :
    t.filled (fun n => some (numbers n)) = t.filled fun n => some (numbers' n) := by
  have operand : ∀ o : Operand, (∀ n ∈ o.missing, numbers n = numbers' n) →
      o.cell.fill (some (numbers o.node)) = o.cell.fill (some (numbers' o.node)) := by
    intro o same
    by_cases gone : o.cell.missing = true
    · rw [same o.node (by simp [Operand.missing, gone])]
    · rw [Cell.fill_present (by simpa using gone), Cell.fill_present (by simpa using gone)]
  induction t with
  | compare op left right =>
    simp only [Test.missing, List.mem_append] at same
    simp only [Test.filled, operand left fun n gone => same n (.inl gone),
      operand right fun n gone => same n (.inr gone)]
  | between value low high =>
    simp only [Test.missing, List.mem_append] at same
    simp only [Test.filled, operand value fun n gone => same n (.inl gone),
      operand low fun n gone => same n (.inr (.inl gone)), operand high fun n gone => same n (.inr (.inr gone))]
  | isIn value items => simp only [Test.filled, operand value same]
  | join op first second ih ih' =>
    simp only [Test.missing, List.mem_append] at same
    simp only [Test.filled, ih fun n gone => same n (.inl gone), ih' fun n gone => same n (.inr gone)]
  | not item ih => simp only [Test.filled, ih same]

/-- Where no operand is missing twice, all that a condition leaves open is reached by filling. -/
theorem Test.open_reached (t : Test) (numeric : t.numeric = true) (distinct : t.missing.Nodup)
    (still : b ∈ t.known.open_) :
    ∃ numbers : Node → ℚ, (t.filled fun n => some (numbers n)).holds = b := by
  induction t generalizing b with
  | compare op l r =>
    simp only [Test.numeric, Bool.and_eq_true] at numeric
    obtain ⟨x, y, readsL, readsR, reached⟩ := compare_reached op numeric.1 numeric.2 still
    obtain ⟨numbers, fills⟩ := exists_fill [(l, x), (r, y)] (by simp [readsL, readsR])
      (by simpa [Test.missing] using distinct)
    refine ⟨numbers, ?_⟩
    simp only [Test.filled, Test.holds]
    rw [fills (l, x) (by simp), fills (r, y) (by simp), op.cells_numbers rfl rfl, reached]
  | between v l h =>
    simp only [Test.numeric, Bool.and_eq_true] at numeric
    obtain ⟨x, y, z, readsV, readsL, readsH, reached⟩ : ∃ x y z, Reads v x ∧ Reads l y ∧ Reads h z ∧
        (CompareOp.ge.holds x y && CompareOp.le.holds x z) = b := by
      unfold Test.known at still
      split at still
      case isTrue gone => exact between_reached gone numeric.1.2 numeric.2 still
      case isFalse present =>
        obtain ⟨x, isX⟩ : ∃ x, v.cell = .num x := (Operand.cases_numeric numeric.1.1).resolve_left present
        obtain ⟨a, left, c, right, isB⟩ := mem_open_lift₂.mp still
        obtain ⟨x₁, y, reads₁, readsL, reached⟩ := compare_reached .ge numeric.1.1 numeric.1.2 left
        obtain ⟨x₂, z, reads₂, readsH, reached'⟩ := compare_reached .le numeric.1.1 numeric.2 right
        have same : ∀ {x' : ℚ}, Reads v x' → x' = x := by
          rintro x' (gone | isX')
          · exact absurd gone present
          · exact Cell.num.inj (isX'.symm.trans isX)
        rw [same reads₁] at reached
        rw [same reads₂] at reached'
        exact ⟨x, y, z, .inr isX, readsL, readsH, by rw [reached, reached', isB]⟩
    obtain ⟨numbers, fills⟩ := exists_fill [(v, x), (l, y), (h, z)] (by simp [readsV, readsL, readsH])
      (by simpa [Test.missing] using distinct)
    refine ⟨numbers, ?_⟩
    simp only [Test.filled, Test.holds]
    rw [fills (v, x) (by simp), fills (l, y) (by simp), fills (h, z) (by simp), CompareOp.cells_numbers .ge rfl rfl,
      CompareOp.cells_numbers .le rfl rfl, reached]
  | isIn v items =>
    obtain ⟨x, reads, reached⟩ : ∃ x, Reads v x ∧ items.any (Cell.num x).same = b := by
      rcases Operand.cases_numeric numeric with gone | ⟨x, isX⟩
      · simp only [Test.known, gone] at still
        by_cases someNumber : items.any (fun d => d.number.isSome) = true
        · obtain ⟨x, reached⟩ := isIn_reached someNumber b
          exact ⟨x, .inl gone, reached⟩
        · have none_same := same_of_no_number gone (by simpa using someNumber) (some 0)
          rw [Cell.fill_missing gone] at none_same
          refine ⟨0, .inl gone, none_same.trans ?_⟩
          rw [if_pos trivial, if_neg someNumber] at still
          exact (mem_open_some.mp still).symm
      · refine ⟨x, .inr isX, ?_⟩
        simp only [Test.known, isX] at still
        exact (mem_open_some.mp still).symm
    obtain ⟨numbers, fills⟩ := exists_fill [(v, x)] (by simp [reads]) (by simpa [Test.missing] using distinct)
    refine ⟨numbers, ?_⟩
    simp only [Test.filled, Test.holds]
    rw [fills (v, x) (by simp), reached]
  | join op first second ih ih' =>
    classical
    simp only [Test.numeric, Bool.and_eq_true] at numeric
    obtain ⟨a, left, c, right, isB⟩ := mem_open_lift₂.mp still
    have separate := List.nodup_append.mp distinct
    obtain ⟨numbers, reached⟩ := ih numeric.1 separate.1 left
    obtain ⟨numbers', reached'⟩ := ih' numeric.2 separate.2.1 right
    let both : Node → ℚ := fun n => if n ∈ first.missing then numbers n else numbers' n
    have one := filled_congr both numbers first fun n gone => if_pos gone
    have two := filled_congr both numbers' second fun n gone => if_neg fun gone' => separate.2.2 n gone' n gone rfl
    refine ⟨both, ?_⟩
    simp only [Test.filled, Test.holds]
    rw [one, two, reached, reached', isB]
  | not item ih =>
    obtain ⟨a, left, isB⟩ := mem_open_negate.mp still
    obtain ⟨numbers, reached⟩ := ih numeric distinct left
    refine ⟨numbers, ?_⟩
    simp only [Test.filled, Test.holds]
    rw [reached, isB]

end Open

/-! ## Filled values -/

section Filled

variable {n : Nat} {v w : Value}

theorem Value.Sized.fill (number : Option ℚ) (sized : v.Sized n) : (v.fill number).Sized n := by
  cases v with
  | const c => trivial
  | series cells =>
    simp only [Value.Sized] at sized
    simp only [Value.fill, Value.Sized, List.length_append, List.length_dropLast]
    cases isLast : cells.getLast? with
    | none =>
      rw [List.getLast?_eq_none_iff.mp isLast] at sized ⊢
      exact sized
    | some c =>
      have positive : 0 < cells.length := List.length_pos_of_mem (List.mem_of_getLast? isLast)
      simp only [Option.map_some, Option.toList_some, List.length_singleton]
      omega

theorem last_fill (number : Option ℚ) (sized : v.Sized (n + 1)) : (v.fill number).last = v.last.fill number := by
  cases v with
  | const c => rfl
  | series cells =>
    have length : cells.length = n + 1 := sized
    have isLast : cells.getLast? = some cells[n] := by simp [List.getLast?_eq_getElem?, length]
    unfold Value.fill Value.last
    simp [isLast]

theorem foldl_last (op : Group) {first : Value} {rest : List Value} {t : Test} {ts : List Test} {fill : Node → Option ℚ}
    (sized : first.Sized (n + 1)) (is : first.last = .flag (t.filled fill).holds)
    (others : List.Forall₂ (fun u t => u.Sized (n + 1) ∧ u.last = .flag (Test.filled fill t).holds) rest ts) :
    (rest.foldl (Value.connect op.connective) first).Sized (n + 1) ∧
      (rest.foldl (Value.connect op.connective) first).last =
        .flag ((ts.foldl (Test.join op) t).filled fill).holds := by
  induction others generalizing first t with
  | nil => exact ⟨sized, is⟩
  | cons other _ ih => exact ih (sized.connect _ other.1) (last_connect _ sized other.1 is other.2)

end Filled

/-! ## The evaluation and the tests side by side -/

section SideBySide

variable {clock : Clock} {setting : Setting clock} {n : Nat} (fill : Node → Option ℚ)

/-- A condition's value on the last bar is what its tests, filled alike, come to. -/
def Shows (s : Frames clock) (v : Value) (t : Test) (s₁ s₂ : Frames clock) : Prop :=
  (s₁ = s₂ ∧ Grown s s₁) ∧ v.Sized (n + 1) ∧ v.last = .flag (t.filled fill).holds

/-- The frame the conditions are evaluated on, with its `n + 1` bars. -/
def OnBars (n : Nat) (tf : Timeframe) (s : Frames clock) : Prop :=
  ∃ frame, s tf = some frame ∧ frame.rows.length = n + 1

theorem OnBars.grown {tf : Timeframe} {s s' : Frames clock} (bars : OnBars n tf s)
    (grown : Grown s s') : OnBars n tf s' := by
  obtain ⟨frame, given, length⟩ := bars
  exact ⟨frame, grown _ _ given, length⟩

theorem operand_paired (perBar : PerBar setting.library) (node : Node) {tf : Timeframe}
    {s : Frames clock} (bars : OnBars n tf s) :
    Paired (node.operand setting fill tf) (node.onLastBar setting tf) s s fun v o s₁ s₂ =>
      (s₁ = s₂ ∧ Grown s s₁) ∧ v.Sized (n + 1) ∧ v.last = o.cell.fill (fill o.node) := by
  obtain ⟨frame, given, length⟩ := bars
  refine (Paired.self (node.ev_left perBar tf s)).bind ?_
  rintro v _ s₁ _ ⟨⟨rfl, rfl⟩, grown, sized⟩
  have sized := sized frame given
  rw [length] at sized
  exact Paired.ret ⟨⟨rfl, grown⟩, sized.fill _, last_fill _ sized⟩

mutual

theorem Node.evFilled_paired (perBar : PerBar setting.library) (node : Node)
    (condition : node.isCondition = true) {tf : Timeframe} {s : Frames clock} (bars : OnBars n tf s) :
    Paired (node.evFilled setting fill tf) (node.tests setting tf) s s (Shows (n := n) fill s) := by
  cases node with
  | num | str | bool | param | field | call | unary | binary => exact nomatch condition
  | compare op left right =>
    simp only [Node.evFilled, Node.tests]
    refine (operand_paired fill perBar left bars).bind ?_
    rintro v o s₁ _ ⟨⟨rfl, grown₁⟩, sized₁, last₁⟩
    refine (operand_paired fill perBar right (bars.grown grown₁)).bind ?_
    rintro w p s₂ _ ⟨⟨rfl, grown₂⟩, sized₂, last₂⟩
    refine Paired.ret ⟨⟨rfl, grown₁.trans grown₂⟩, sized₁.cmp op sized₂, ?_⟩
    rw [last_cmp op sized₁ sized₂, last₁, last₂]
    rfl
  | between value low high =>
    simp only [Node.evFilled, Node.tests]
    refine (operand_paired fill perBar value bars).bind ?_
    rintro v o s₁ _ ⟨⟨rfl, grown₁⟩, sized₁, last₁⟩
    refine (operand_paired fill perBar low (bars.grown grown₁)).bind ?_
    rintro lo p s₂ _ ⟨⟨rfl, grown₂⟩, sized₂, last₂⟩
    refine (operand_paired fill perBar high ((bars.grown grown₁).grown grown₂)).bind ?_
    rintro hi q s₃ _ ⟨⟨rfl, grown₃⟩, sized₃, last₃⟩
    have above := sized₁.cmp .ge sized₂
    have below := sized₁.cmp .le sized₃
    refine Paired.ret ⟨⟨rfl, grown₁.trans (grown₂.trans grown₃)⟩, above.connect _ below, ?_⟩
    rw [last_connect and above below (last_cmp _ sized₁ sized₂) (last_cmp _ sized₁ sized₃), last₁, last₂, last₃]
    rfl
  | isIn value items =>
    simp only [Node.evFilled, Node.tests]
    refine (operand_paired fill perBar value bars).bind ?_
    rintro v o s₁ _ ⟨⟨rfl, grown₁⟩, sized₁, last₁⟩
    refine (Paired.self (evAll_grown perBar items tf s₁)).bind ?_
    rintro cells _ s₂ _ ⟨⟨rfl, rfl⟩, grown₂⟩
    refine (Paired.self (Returns.lift fun _ _ => rfl : Returns (liftM (listed cells)) s₂ fun _ s' => s' = s₂)).bind ?_
    rintro literals _ s₃ _ ⟨⟨rfl, rfl⟩, rfl⟩
    refine Paired.ret ⟨⟨rfl, grown₁.trans grown₂⟩, sized₁.isIn _, ?_⟩
    rw [last_isIn _ sized₁, last₁]
    rfl
  | logic op items =>
    simp only [Node.evFilled, Node.tests]
    refine (evFilledAll_paired perBar items condition bars).bind ?_
    rintro parts ts s₁ _ ⟨⟨rfl, grown₁⟩, shown⟩
    cases shown with
    | nil => exact Paired.raise _
    | cons first others =>
      have folded := foldl_last op first.1 first.2 others
      exact Paired.ret ⟨⟨rfl, grown₁⟩, folded.1, folded.2⟩
  | not item =>
    simp only [Node.evFilled, Node.tests]
    refine (Node.evFilled_paired perBar item condition bars).bind ?_
    rintro v t s₁ _ ⟨⟨rfl, grown₁⟩, sized₁, last₁⟩
    exact Paired.ret ⟨⟨rfl, grown₁⟩, sized₁.negate, last_negate sized₁ last₁⟩

theorem evFilledAll_paired (perBar : PerBar setting.library) (nodes : List Node)
    (conditions : allConditions nodes = true) {tf : Timeframe} {s : Frames clock} (bars : OnBars n tf s) :
    Paired (evFilledAll setting fill nodes tf) (testsAll setting nodes tf) s s fun vs ts s₁ s₂ =>
      (s₁ = s₂ ∧ Grown s s₁) ∧
        List.Forall₂ (fun v t => v.Sized (n + 1) ∧ v.last = .flag (Test.filled fill t).holds) vs ts := by
  cases nodes with
  | nil => exact Paired.ret ⟨⟨rfl, .refl s⟩, .nil⟩
  | cons node rest =>
    simp only [allConditions, Bool.and_eq_true] at conditions
    simp only [evFilledAll, testsAll]
    refine (Node.evFilled_paired perBar node conditions.1 bars).bind ?_
    rintro v t s₁ _ ⟨⟨rfl, grown₁⟩, shows⟩
    refine (evFilledAll_paired perBar rest conditions.2 (bars.grown grown₁)).bind ?_
    rintro vs ts s₂ _ ⟨⟨rfl, grown₂⟩, shown⟩
    exact Paired.ret ⟨⟨rfl, grown₁.trans grown₂⟩, .cons shows shown⟩

end

end SideBySide

/-! ## True however it is filled -/

section Matching

variable {clock : Clock} (setting : Setting clock)

/-- The screen is true on the last bar. -/
def Matches (node : Node) (frames : Frames clock) : Prop :=
  ∃ v, evaluate setting node frames = .ok v ∧ v.last = .flag true

/-- The screen is true on the last bar with numbers in the place of the missing operands. -/
def MatchesFilled (node : Node) (frames : Frames clock) (numbers : Node → ℚ) : Prop :=
  ∃ v, evaluateFilled setting (fun n => some (numbers n)) node frames = .ok v ∧ v.last = .flag true

variable {setting} {node : Node} {frames : Frames clock}

theorem fill_none (v : Value) : v.fill none = v := by
  cases v with
  | const c => rfl
  | series cells =>
    refine congrArg Value.series ?_
    cases isLast : cells.getLast? with
    | none => simp [List.getLast?_eq_none_iff.mp isLast]
    | some c => exact List.dropLast_append_getLast? c isLast

theorem operand_none (node : Node) (tf : Timeframe) : node.operand setting (fun _ => none) tf = node.ev setting tf := by
  unfold Node.operand
  simp only [fill_none, bind_pure]

mutual

/-- With nothing filled, the evaluator is the code's. -/
theorem Node.evFilled_none (node : Node) (tf : Timeframe) :
    node.evFilled setting (fun _ => none) tf = node.ev setting tf := by
  cases node with
  | num | str | bool | param | field | call | unary | binary => rfl
  | compare | between | isIn => simp only [Node.evFilled, Node.ev, operand_none]
  | logic op items => exact congrArg (· >>= _) (evFilledAll_none items tf)
  | not item => simp only [Node.evFilled, Node.ev, Node.evFilled_none item]

theorem evFilledAll_none (nodes : List Node) (tf : Timeframe) :
    evFilledAll setting (fun _ => none) nodes tf = evAll setting nodes tf := by
  cases nodes with
  | nil => rfl
  | cons node rest => simp only [evFilledAll, evAll, Node.evFilled_none node, evFilledAll_none rest]

end

theorem evaluateFilled_none : evaluateFilled setting (fun _ => none) node frames = evaluate setting node frames := by
  unfold evaluateFilled evaluate
  cases frames setting.baseTf with
  | none => rfl
  | some base => simp only [Node.evFilled_none]

/-- A condition's value on the last bar is what its tests come to. -/
theorem evaluateFilled_last (perBar : PerBar setting.library) (condition : node.isCondition = true)
    {t : Test} (tests : testsOf setting node frames = .ok t) (fill : Node → Option ℚ) :
    ∃ v, evaluateFilled setting fill node frames = .ok v ∧ v.last = .flag (t.filled fill).holds := by
  unfold testsOf at tests
  unfold evaluateFilled
  cases given : frames setting.baseTf with
  | none =>
    rw [given] at tests
    exact nomatch tests
  | some base =>
    rw [given] at tests
    dsimp only at tests ⊢
    split at tests
    case isTrue => exact nomatch tests
    case isFalse rows =>
      have length : base.rows.length = base.rows.length - 1 + 1 := by
        have := List.length_pos_iff.mpr rows
        omega
      rw [if_neg rows]
      rcases node.evFilled_paired fill perBar condition ⟨base, given, length⟩ with
        ⟨e, -, raised⟩ | ⟨v, t', s₁, s₂, returned, returned', -, -, last⟩
      · rw [raised] at tests
        exact nomatch tests
      · rw [returned'] at tests
        obtain rfl := Except.ok.inj tests
        exact ⟨v, by rw [returned]; rfl, last⟩

/-- It is true exactly when they hold. -/
theorem evaluateFilled_iff (perBar : PerBar setting.library) (condition : node.isCondition = true) {t : Test}
    (tests : testsOf setting node frames = .ok t) (fill : Node → Option ℚ) :
    (∃ v, evaluateFilled setting fill node frames = .ok v ∧ v.last = .flag true) ↔ (t.filled fill).holds = true := by
  obtain ⟨v, evaluated, last⟩ := evaluateFilled_last perBar condition tests fill
  constructor
  · rintro ⟨v', evaluated', isTrue⟩
    obtain rfl := Except.ok.inj (evaluated.symm.trans evaluated')
    exact Cell.flag.inj (last.symm.trans isTrue)
  · intro holds
    exact ⟨v, evaluated, by rw [last, holds]⟩

/-- A missing value does not make the screen match: if it is true on the last bar, it is for every way of filling
the missing operands with numbers. -/
def NeverByMissing (setting : Setting clock) (node : Node) (frames : Frames clock) : Prop :=
  Matches setting node frames → ∀ numbers, MatchesFilled setting node frames numbers

theorem filled_none (t : Test) : t.filled (fun _ => none) = t := by
  induction t with
  | compare | between | isIn => rfl
  | join op first second ih ih' => simp only [Test.filled, ih, ih']
  | not item ih => simp only [Test.filled, ih]

theorem matches_iff (perBar : PerBar setting.library) (condition : node.isCondition = true) {t : Test}
    (tests : testsOf setting node frames = .ok t) : Matches setting node frames ↔ t.holds = true := by
  have filled := evaluateFilled_iff perBar condition tests fun _ => none
  rwa [evaluateFilled_none, filled_none] at filled

/-- A missing value does not make a screen match when the screen, if true, is known to be true whatever the comparisons
with a missing operand turn out to be; and where no operand is missing twice, only then. -/
theorem neverByMissing_iff (perBar : PerBar setting.library) (condition : node.isCondition = true)
    {t : Test} (tests : testsOf setting node frames = .ok t) :
    ((t.holds = true → t.known = some true) → NeverByMissing setting node frames) ∧
      (t.numeric = true → t.missing.Nodup →
        (NeverByMissing setting node frames ↔ (t.holds = true → t.known = some true))) := by
  have sure : (t.holds = true → t.known = some true) → NeverByMissing setting node frames := by
    intro known isTrue numbers
    refine (evaluateFilled_iff perBar condition tests _).mpr ?_
    have still := t.holds_open fun n => some (numbers n)
    rw [known ((matches_iff perBar condition tests).mp isTrue)] at still
    exact mem_open_some.mp still
  refine ⟨sure, fun numeric distinct => ⟨fun never holds => ?_, sure⟩⟩
  have closed : false ∉ t.known.open_ := by
    intro still
    obtain ⟨numbers, reached⟩ := t.open_reached numeric distinct still
    have always := never ((matches_iff perBar condition tests).mpr holds) numbers
    rw [MatchesFilled, evaluateFilled_iff perBar condition tests, reached] at always
    exact nomatch always
  cases known : t.known with
  | none =>
    rw [known] at closed
    exact absurd mem_open_none closed
  | some b =>
    rw [known, mem_open_some] at closed
    cases b with
    | false => exact absurd rfl closed
    | true => rfl

end Matching

/-! ## A day without volume -/

section NoVolume

/-- A setting without functions. -/
def noFunctions : Setting daysOnly where
  baseTf := .d1
  params := fun _ => none
  library := fun _ _ _ _ _ => .error (.library "unknown function")

theorem noFunctions_perBar : PerBar noFunctions.library := fun _ _ _ _ _ _ given => nomatch given

/-- A daily bar on which nothing was traded. -/
def untraded : Row where
  start := 0
  open_ := some 100
  high := some 100
  low := some 100
  close := some 100
  volume := some 0
  oi := none

theorem untraded_spaced : [untraded].Pairwise fun r r' => barClose daysOnly .d1 r.start ≤ r'.start :=
  List.pairwise_singleton _ _

def untradedDay : Frames daysOnly
  | .d1 => some { columns := fun _ => true, rows := [untraded], spaced := untraded_spaced }
  | _ => none

/-- `close / volume`. -/
def perShare : Node := .binary .div (.field ['c', 'l', 'o', 's', 'e'] 0 none)
    (.field ['v', 'o', 'l', 'u', 'm', 'e'] 0 none)

/-- `NOT close / volume > close`. -/
def notAbove : Node := .not (.compare .gt perShare (.field ['c', 'l', 'o', 's', 'e'] 0 none))

/-- Its tests on the untraded day. -/
def notAboveTests : Test :=
  .not (.compare .gt ⟨perShare, .nan⟩ ⟨.field ['c', 'l', 'o', 's', 'e'] 0 none, .num 100⟩)

theorem testsOf_notAbove : testsOf noFunctions notAbove untradedDay = .ok notAboveTests := rfl

/-- The division by zero is missing, the comparison false and its negation true; with any number above the close in its
place it is false. -/
theorem notAbove_matches_by_missing : ¬ NeverByMissing noFunctions notAbove untradedDay := by
  intro never
  have isTrue : Matches noFunctions notAbove untradedDay := ⟨.series [.flag true], rfl, rfl⟩
  obtain ⟨v, evaluated, last⟩ := never isTrue fun _ => 101
  have filled : evaluateFilled noFunctions (fun _ => some 101) notAbove untradedDay = .ok (.series [.flag false]) := rfl
  obtain rfl := Except.ok.inj (filled.symm.trans evaluated)
  exact nomatch last

theorem neverByMissing_notAbove : PerBar noFunctions.library ∧ notAbove.isCondition = true ∧
    testsOf noFunctions notAbove untradedDay = .ok notAboveTests ∧ notAboveTests.numeric = true ∧
    notAboveTests.missing.Nodup ∧
    (NeverByMissing noFunctions notAbove untradedDay ↔
      (notAboveTests.holds = true → notAboveTests.known = some true)) :=
  ⟨noFunctions_perBar, rfl, testsOf_notAbove, rfl, List.nodup_singleton _,
    (neverByMissing_iff noFunctions_perBar rfl testsOf_notAbove).2 rfl (List.nodup_singleton _)⟩

end NoVolume

end AdvanceTrading.Screener
