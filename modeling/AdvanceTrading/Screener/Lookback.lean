import AdvanceTrading.Screener.Validator

/-!
# Is the lookback enough?

The validator keeps the largest single offset and window of a timeframe
(`validator.py:90-93`, `:476`), while a value's own history adds up along its
nesting (`runtime.py:246-305`): `Node.reach` is the one and `Node.need` the other.
An accepted screen has its operands on the last bar of every history that passes
the check of `run_screen`, when no operand needs more than the reach, and only
then.
-/

namespace AdvanceTrading.Screener

open Py (Double Finite)
open Warmup (From rolling)

/-! ## Screens of window functions -/

mutual

/-- Built of fields, offsets, literals, + - *, comparisons, BETWEEN, AND, OR, NOT and functions, on one timeframe. -/
def Node.onOne (baseTf : Timeframe) : Node → Bool
  | .num _ | .str _ | .bool _ => true
  | .field _ _ own => own.getD baseTf = baseTf
  | .call _ args _ _ own => own.getD baseTf = baseTf && allOnOne baseTf args
  | .unary operand => operand.onOne baseTf
  | .binary op left right => op ≠ .div && left.onOne baseTf && right.onOne baseTf
  | .compare _ left right => left.onOne baseTf && right.onOne baseTf
  | .between value low high => value.onOne baseTf && low.onOne baseTf && high.onOne baseTf
  | .logic _ items => allOnOne baseTf items
  | .not item => item.onOne baseTf
  | .param _ | .isIn .. => false

def allOnOne (baseTf : Timeframe) : List Node → Bool
  | [] => true
  | node :: rest => node.onOne baseTf && allOnOne baseTf rest

end

/-- A window argument's bars. -/
def Node.width : Node → Nat
  | .num (.finite x) => x.value.num.toNat
  | _ => 0

/-- The bars of a function's window. -/
def WindowFunction.width (f : WindowFunction) (args : List Node) : Nat :=
  match f, args with
  | .count, [n, _] => n.width
  | .sma, [_, n] | .max, [_, n] | .min, [_, n] | .lag, [_, n] => n.width
  | _, _ => 0

/-- The history a function adds to that of its series. -/
def WindowFunction.adds (f : WindowFunction) (width : Nat) : Nat :=
  match f with
  | .lag => width
  | .sma | .max | .min | .count => width - 1

mutual

/-- The bars of history a value needs: along its nesting, offsets and windows add up. A condition is never missing. -/
def Node.need : Node → Nat
  | .field _ back _ => back.toNat + 1
  | .call name args _ back _ =>
      match WindowFunction.ofName name with
      | some f => back.toNat + (f.adds (f.width args) + max 1 (needAny args))
      | none => 0
  | .unary operand => operand.need
  | .binary _ left right => max left.need right.need
  | .num _ | .str _ | .bool _ | .param _ | .compare .. | .between .. | .isIn .. | .logic .. | .not _ => 0

def needAny : List Node → Nat
  | [] => 0
  | node :: rest => max node.need (needAny rest)

end

mutual

/-- The most bars a single field or function of the tree reads, on its own. -/
def Node.reach : Node → Nat
  | .field _ back _ => back.toNat + 1
  | .call name args _ back _ =>
      match WindowFunction.ofName name with
      | some f => max (reachAny args) (back.toNat + max (f.width args) 1)
      | none => 0
  | .unary operand => operand.reach
  | .binary _ left right | .compare _ left right => max left.reach right.reach
  | .between value low high => max value.reach (max low.reach high.reach)
  | .logic _ items => reachAny items
  | .not item => item.reach
  | .num _ | .str _ | .bool _ | .param _ | .isIn .. => 0

def reachAny : List Node → Nat
  | [] => 0
  | node :: rest => max node.reach (reachAny rest)

end

mutual

/-- The operands of all comparisons, at any depth. -/
def Node.comparands : Node → List Node
  | .compare _ left right => left :: right :: (left.comparands ++ right.comparands)
  | .between value low high => value :: low :: high :: (value.comparands ++ (low.comparands ++ high.comparands))
  | .call _ args _ _ _ => comparandsAll args
  | .unary operand => operand.comparands
  | .binary _ left right => left.comparands ++ right.comparands
  | .logic _ items => comparandsAll items
  | .not item => item.comparands
  | .num _ | .str _ | .bool _ | .param _ | .field .. | .isIn .. => []

def comparandsAll : List Node → List Node
  | [] => []
  | node :: rest => node.comparands ++ comparandsAll rest

end

/-! ## What the validator lets through -/

/-- An accepted tree of window functions, with its type. -/
inductive Well (baseTf : Timeframe) : Node → ValueType → Prop where
  | num (x : Finite) : Well baseTf (.num (.finite x)) .num
  | str (value : Text) : Well baseTf (.str value) .str
  | bool (value : Bool) : Well baseTf (.bool value) .bool
  | field {name : Text} {c : Column} (known : Column.ofName name = some c) (back : Nat) {own : Option Timeframe}
      (base : own.getD baseTf = baseTf) : Well baseTf (.field name back own) .num
  | window {name : Text} {f : WindowFunction} (known : WindowFunction.ofName name = some f) (other : f ≠ .count)
      {x : Node} (series : Well baseTf x .num) {n : Finite} {w : Nat} (whole : n.value = w) (wide : 1 ≤ w)
      (fits : w ≤ maxWindow) (back : Nat) {own : Option Timeframe} (base : own.getD baseTf = baseTf) :
      Well baseTf (.call name [x, .num (.finite n)] [] back own) .num
  | count {name : Text} (known : WindowFunction.ofName name = some .count) {n : Finite} {w : Nat} (whole : n.value = w)
      (wide : 1 ≤ w) (fits : w ≤ maxWindow) {cond : Node} (condition : Well baseTf cond .bool)
        (back : Nat) {own : Option Timeframe}
      (base : own.getD baseTf = baseTf) : Well baseTf (.call name [.num (.finite n), cond] [] back own) .num
  | unary {e : Node} (operand : Well baseTf e .num) : Well baseTf (.unary e) .num
  | binary {op : ArithOp} (noDiv : op ≠ .div) {l r : Node} (left : Well baseTf l .num) (right : Well baseTf r .num) :
      Well baseTf (.binary op l r) .num
  | compare (op : CompareOp) {l r : Node} {t t' : ValueType} (left : Well baseTf l t) (right : Well baseTf r t') :
      Well baseTf (.compare op l r) .bool
  | between {v lo hi : Node} (value : Well baseTf v .num) (low : Well baseTf lo .num) (high : Well baseTf hi .num) :
      Well baseTf (.between v lo hi) .bool
  | logic (op : Group) {items : List Node} (some_ : items ≠ []) (all : ∀ item ∈ items, Well baseTf item .bool) :
      Well baseTf (.logic op items) .bool
  | not {item : Node} (condition : Well baseTf item .bool) : Well baseTf (.not item) .bool

namespace Checked

variable {α β : Type} {c : Checked α} {f : α → Checked β}

@[simp] theorem value_bind : (c >>= f).value = (f c.value).value := rfl

@[simp] theorem value_pure (a : α) : (pure a : Checked α).value = a := rfl

@[simp] theorem passed_bind : (c >>= f).Passed ↔ c.Passed ∧ (f c.value).Passed := List.append_eq_nil_iff

@[simp] theorem passed_pure (a : α) : (pure a : Checked α).Passed := rfl

@[simp] theorem passed_err (kind : String) (node : Node) (names : List (String × Text)) :
    ¬ (err kind node names).Passed :=
  List.cons_ne_nil _ _

@[simp] theorem passed_refuseIf (wrong : Prop) [Decidable wrong] (kind : String) (node : Node)
    (names : List (String × Text)) : (refuseIf wrong kind node names).Passed ↔ ¬ wrong := by
  unfold refuseIf
  split <;> simp_all

@[simp] theorem passed_need (tf : Timeframe) (bars : Nat) : (need tf bars).Passed := rfl

@[simp] theorem passed_spend (cost : ℚ) : (spend cost).Passed := rfl

@[simp] theorem lookback_bind (tf : Timeframe) :
    (c >>= f).lookback tf = max (c.lookback tf) ((f c.value).lookback tf) := rfl

@[simp] theorem lookback_pure (a : α) (tf : Timeframe) : (pure a : Checked α).lookback tf = 0 := rfl

@[simp] theorem lookback_err (kind : String) (node : Node) (names : List (String × Text))
    (tf : Timeframe) : (err kind node names).lookback tf = 0 := rfl

@[simp] theorem lookback_refuseIf (wrong : Prop) [Decidable wrong] (kind : String) (node : Node)
    (names : List (String × Text)) (tf : Timeframe) : (refuseIf wrong kind node names).lookback tf = 0 := by
  unfold refuseIf
  split <;> rfl

@[simp] theorem lookback_need (tf : Timeframe) (bars : Nat) : (need tf bars).lookback tf = bars := if_pos rfl

@[simp] theorem lookback_spend (cost : ℚ) (tf : Timeframe) : (spend cost).lookback tf = 0 := rfl

end Checked

variable {node : Node} {t : ValueType} {items : List Node} {name : Text} {own : Option Timeframe}

section Accepted

variable {checker : Checker}

/-- Named arguments are refused. -/
theorem passed_kwargs {kwargs : List (Text × Node)}
    (passed : (kwargs.forM fun kwarg => Checked.err "unknown_argument" kwarg.2 [("function", name)]).Passed) :
    kwargs = [] := by
  cases kwargs with
  | nil => rfl
  | cons kwarg rest =>
    exact absurd (Checked.passed_bind.mp passed).1 (Checked.passed_err _ _ _)

variable {owner : Text}

/-- A window that is let through is a whole number of bars. -/
theorem passed_window {arg : Node} (passed : (Checker.window owner arg).Passed) :
    ∃ (n : Finite) (w : Nat), arg = .num (.finite n) ∧ n.value = w ∧ 1 ≤ w ∧ w ≤ maxWindow := by
  unfold Checker.window at passed
  split at passed
  case h_1 x =>
    by_cases ok : x.value.den = 1 ∧ 1 ≤ x.value ∧ x.value ≤ maxWindow
    · have whole : (x.value.num : ℚ) = x.value := Rat.coe_int_num_of_den_eq_one ok.1
      have atLeast : 1 ≤ x.value.num := by
        have := ok.2.1
        rw [← whole] at this
        exact_mod_cast this
      have bars : x.value = ((x.value.num.toNat : Int) : ℚ) := by rw [Int.toNat_of_nonneg (by omega), whole]
      have atMost : x.value.num ≤ maxWindow := by
        have := ok.2.2
        rw [← whole] at this
        exact_mod_cast this
      exact ⟨x, x.value.num.toNat, rfl, bars.trans (Int.cast_natCast _), by omega, by omega⟩
    · simp [ok] at passed
  all_goals simp at passed

theorem passed_offset {back : Int} (passed : (Checker.offset node back).Passed) :
    back = (back.toNat : Int) ∧ (Checker.offset node back).value = back.toNat := by
  unfold Checker.offset at passed ⊢
  simp only [Checked.passed_bind, Checked.passed_refuseIf, Checked.passed_pure, and_true, not_lt] at passed
  exact ⟨(Int.toNat_of_nonneg passed.1).symm, rfl⟩

/-- A timeframe of its own is the screen's. -/
theorem own_tf (base : own.getD checker.baseTf = checker.baseTf) :
    (own.elim (pure checker.baseTf) (checker.tf node)).value = checker.baseTf := by
  cases own with
  | none => rfl
  | some tf => exact base

theorem passed_comparable {left right : Typed}
    (passed : (checker.comparable node left right false).Passed) :
    left.type = .num ∧ right.type = .num := by
  unfold Checker.comparable at passed
  split at passed
  case isTrue both => exact both
  case isFalse => simp at passed

theorem passed_arithmetic {op : ArithOp} {left right : Typed}
    (passed : (checker.arithmetic node op left right).Passed) :
    (left.type = .num ∧ right.type = .num) ∧ (checker.arithmetic node op left right).value.type = .num := by
  unfold Checker.arithmetic at passed ⊢
  by_cases both : left.type = .num ∧ right.type = .num
  · rw [if_neg (by tauto)]
    refine ⟨both, ?_⟩
    cases op <;> rfl
  · rw [if_pos (by tauto)] at passed
    simp at passed

theorem functions_eq {spec : Spec} (known : functions name = some spec) :
    ∃ f, WindowFunction.ofName name = some f ∧ f.spec = spec := by
  unfold functions at known
  rw [Option.map_eq_some_iff] at known
  exact known

theorem returned_type (f : WindowFunction) (units : List (Option Measure)) :
    (Checker.returned f.spec units).type = .num := by
  cases f <;> rfl

theorem passed_series {a b : Node} {tf : Timeframe}
    (passed : (checker.checkArgs owner [WindowFunction.x, WindowFunction.n] [a, b] tf).Passed) :
    (checker.check a tf).Passed ∧ (checker.check a tf).value.type = .num ∧ (Checker.window owner b).Passed := by
  simpa [Checker.checkArgs, WindowFunction.x, WindowFunction.n] using passed

theorem passed_counted {a b : Node} {tf : Timeframe}
    (passed : (checker.checkArgs owner WindowFunction.count.spec.args [a, b] tf).Passed) :
    (Checker.window owner a).Passed ∧ (checker.check b tf).Passed ∧ (checker.check b tf).value.type = .bool := by
  simpa [Checker.checkArgs, WindowFunction.spec, WindowFunction.n] using passed

theorem spec_args {f : WindowFunction} (other : f ≠ .count) : f.spec.args = [WindowFunction.x, WindowFunction.n] := by
  cases f with
  | count => exact absurd rfl other
  | sma | max | min | lag => rfl

theorem spec_arity (f : WindowFunction) : f.spec.args.length = 2 := by
  cases f <;> rfl

mutual

/-- What passes the checks is well typed. -/
theorem check_well (node : Node) (grammar : node.onOne checker.baseTf = true)
    (passed : (checker.check node checker.baseTf).Passed) :
    Well checker.baseTf node (checker.check node checker.baseTf).value.type := by
  cases node with
  | num value =>
    cases value with
    | finite x => exact .num x
    | infinite negative => simp [Checker.check, Double.isFinite] at passed
  | str value => exact .str value
  | bool value => exact .bool value
  | param name => exact nomatch grammar
  | isIn value items => exact nomatch grammar
  | field name back own =>
    simp only [Node.onOne, decide_eq_true_eq] at grammar
    simp only [Checker.check] at passed ⊢
    cases known : Column.ofName name with
    | none =>
      simp only [known] at passed
      split at passed <;> simp at passed
    | some c =>
      simp only [known, Checked.passed_bind] at passed
      obtain ⟨atBar, -⟩ := passed_offset passed.2.1
      rw [atBar]
      exact .field known back.toNat grammar
  | call name args kwargs back own =>
    simp only [Node.onOne, Bool.and_eq_true, decide_eq_true_eq] at grammar
    simp only [Checker.check] at passed ⊢
    cases listed : functions name with
    | none =>
      simp only [listed] at passed
      split at passed <;> simp at passed
    | some spec =>
      obtain ⟨f, known, rfl⟩ := functions_eq listed
      simp only [listed, Checked.passed_bind, Checked.passed_refuseIf, not_not, own_tf grammar.1] at passed ⊢
      obtain ⟨-, isBack, arity, named, given, -⟩ := passed
      obtain ⟨atBar, -⟩ := passed_offset isBack
      obtain rfl := passed_kwargs named
      rw [atBar]
      simp only [Checked.value_bind, Checked.value_pure, returned_type]
      rw [spec_arity] at arity
      obtain ⟨a, b, rfl⟩ := List.length_eq_two.mp arity
      simp only [allOnOne, Bool.and_eq_true] at grammar
      by_cases counts : f = .count
      · subst counts
        obtain ⟨isWindow, condition, isBool⟩ := passed_counted given
        obtain ⟨n, w, rfl, whole, wide, fits⟩ := passed_window isWindow
        have well := check_well b grammar.2.2.1 condition
        rw [isBool] at well
        exact .count known whole wide fits well back.toNat grammar.1
      · rw [spec_args counts] at given
        obtain ⟨series, isNum, isWindow⟩ := passed_series given
        obtain ⟨n, w, rfl, whole, wide, fits⟩ := passed_window isWindow
        have well := check_well a grammar.2.1 series
        rw [isNum] at well
        exact .window known counts well whole wide fits back.toNat grammar.1
  | unary operand =>
    simp only [Checker.check, Checked.passed_bind, Checked.passed_refuseIf, not_not] at passed
    have well := check_well operand grammar passed.1
    rw [passed.2.1] at well
    exact .unary well
  | binary op left right =>
    simp only [Node.onOne, Bool.and_eq_true, decide_eq_true_eq] at grammar
    simp only [Checker.check, Checked.passed_bind] at passed
    have first := check_well left grammar.1.2 passed.1
    have second := check_well right grammar.2 passed.2.1
    obtain ⟨⟨isNum, isNum'⟩, result⟩ := passed_arithmetic passed.2.2
    rw [isNum] at first
    rw [isNum'] at second
    simp only [Checker.check, Checked.value_bind]
    rw [result]
    exact .binary grammar.1.1 first second
  | compare op left right =>
    simp only [Node.onOne, Bool.and_eq_true] at grammar
    simp only [Checker.check, Checked.passed_bind] at passed
    exact .compare op (check_well left grammar.1 passed.1) (check_well right grammar.2 passed.2.1)
  | between value low high =>
    simp only [Node.onOne, Bool.and_eq_true] at grammar
    simp only [Checker.check, Checked.passed_bind] at passed
    obtain ⟨isNum, isLow⟩ := passed_comparable passed.2.2.2.1
    obtain ⟨-, isHigh⟩ := passed_comparable passed.2.2.2.2.1
    have first := check_well value grammar.1.1 passed.1
    have second := check_well low grammar.1.2 passed.2.1
    have third := check_well high grammar.2 passed.2.2.1
    rw [isNum] at first
    rw [isLow] at second
    rw [isHigh] at third
    exact .between first second third
  | logic op items =>
    simp only [Checker.check, Checked.passed_bind, Checked.passed_refuseIf] at passed
    exact .logic op passed.1 (checkConditions_well items grammar passed.2.1)
  | not item =>
    simp only [Checker.check, Checked.passed_bind, Checked.passed_refuseIf, not_not] at passed
    have well := check_well item grammar passed.1
    rw [passed.2.1] at well
    exact .not well

theorem checkConditions_well (items : List Node) (grammar : allOnOne checker.baseTf items = true)
    (passed : (checker.checkConditions items checker.baseTf).Passed) :
    ∀ item ∈ items, Well checker.baseTf item .bool := by
  cases items with
  | nil => exact List.forall_mem_nil _
  | cons item rest =>
    simp only [allOnOne, Bool.and_eq_true] at grammar
    simp only [Checker.checkConditions, Checked.passed_bind, Checked.passed_refuseIf, not_not] at passed
    have well := check_well item grammar.1 passed.1
    rw [passed.2.1] at well
    exact List.forall_mem_cons.mpr ⟨well, checkConditions_well rest grammar.2 passed.2.2⟩

end

/-! ## The lookback of a tree -/

theorem own_lookback (own : Option Timeframe) :
    (own.elim (pure checker.baseTf) (checker.tf node)).lookback checker.baseTf = 0 := by
  cases own with
  | none => rfl
  | some tf => simp [Checker.tf]

theorem offset_lookback (node : Node) (back : Int) (tf : Timeframe) : (Checker.offset node back).lookback tf = 0 := by
  simp [Checker.offset]

theorem comparable_lookback (node : Node) (left right : Typed) (equality : Bool) (tf : Timeframe) :
    (checker.comparable node left right equality).lookback tf = 0 := by
  unfold Checker.comparable
  split
  · simp
  · split
    · rfl
    · split <;> rfl

theorem arithmetic_lookback (node : Node) (op : ArithOp) (left right : Typed) (tf : Timeframe) :
    (checker.arithmetic node op left right).lookback tf = 0 := by
  unfold Checker.arithmetic
  split
  · simp
  · cases op <;> simp

theorem window_whole {n : Finite} {w : Nat} (whole : n.value = w) (wide : 1 ≤ w)
    (fits : w ≤ maxWindow) : Checker.window owner (.num (.finite n)) = pure w := by
  have ok : n.value.den = 1 ∧ 1 ≤ n.value ∧ n.value ≤ maxWindow := by
    rw [whole]
    exact ⟨Rat.den_natCast w, by exact_mod_cast wide, by exact_mod_cast fits⟩
  have bars : n.value.num.toNat = w := by simp [whole]
  show (if _ then _ else _) = _
  rw [if_pos ok, bars]

theorem width_whole {n : Finite} {w : Nat} (whole : n.value = w) : (Node.num (.finite n)).width = w := by
  simp [Node.width, whole]

/-- The lookback of a call, from what its arguments come to. -/
theorem call_lookback {f : WindowFunction} (known : WindowFunction.ofName name = some f)
    (args : List Node) (back : Nat) (base : own.getD checker.baseTf = checker.baseTf) :
    (checker.check (.call name args [] back own) checker.baseTf).lookback checker.baseTf
      = max ((checker.checkArgs name f.spec.args args checker.baseTf).lookback checker.baseTf)
          (back + max (((checker.checkArgs name f.spec.args args checker.baseTf).value.filterMap
            Prod.fst).foldl max 0) 1) := by
  have listed : functions name = some f.spec := congrArg (Option.map WindowFunction.spec) known
  have none_named : (([] : List (Text × Node)).forM fun kwarg =>
    Checked.err "unknown_argument" kwarg.2 [("function", name)]) = pure () := rfl
  simp only [Checker.check, listed, none_named, Checked.lookback_bind, own_lookback, offset_lookback, own_tf base]
  simp [Checker.offset]

theorem logic_lookback
    (each : ∀ item ∈ items, (checker.check item checker.baseTf).lookback checker.baseTf = item.reach) :
    (checker.checkConditions items checker.baseTf).lookback checker.baseTf = reachAny items := by
  induction items with
  | nil => rfl
  | cons item rest ih =>
    rw [List.forall_mem_cons] at each
    simp [Checker.checkConditions, reachAny, each.1, ih each.2]

/-- The validator's lookback is the most that one field or function reads. -/
theorem Well.lookback (well : Well checker.baseTf node t) :
    (checker.check node checker.baseTf).lookback checker.baseTf = node.reach := by
  induction well with
  | num x | str value | bool value => simp [Checker.check, Node.reach]
  | field known back base =>
    simp only [Checker.check, known, Checked.lookback_bind, own_lookback, offset_lookback, own_tf base]
    simp [Checker.offset, Node.reach]
  | @window name f known other x series n w whole wide fits back own base ih =>
    have isWidth : f.width [x, .num (.finite n)] = w := by
      cases f with
      | count => exact absurd rfl other
      | sma | max | min | lag => exact width_whole whole
    rw [call_lookback known _ back base, spec_args other]
    simp only [Checker.checkArgs, WindowFunction.x, WindowFunction.n, window_whole whole wide fits]
    simp [Node.reach, reachAny, known, isWidth, ih]
  | @count name known n w whole wide fits cond condition back own base ih =>
    have isWidth : WindowFunction.count.width [.num (.finite n), cond] = w := width_whole whole
    rw [call_lookback known _ back base]
    simp only [Checker.checkArgs, WindowFunction.spec, WindowFunction.n, window_whole whole wide fits]
    simp [Node.reach, reachAny, known, isWidth, ih]
  | unary operand ih => simp [Checker.check, Node.reach, ih]
  | binary noDiv left right ih ih' => simp [Checker.check, arithmetic_lookback, Node.reach, ih, ih']
  | compare op left right ih ih' => simp [Checker.check, comparable_lookback, Node.reach, ih, ih']
  | between value low high ih ih' ih'' => simp [Checker.check, comparable_lookback, Node.reach, ih, ih', ih'']
  | logic op some_ all ih =>
    simp [Checker.check, Node.reach, logic_lookback ih]
  | not condition ih => simp [Checker.check, Node.reach, ih]

end Accepted

/-! ## Operands within a tree -/

section Within

variable {baseTf : Timeframe} {node o : Node} {t : ValueType}

theorem reach_le_any {item : Node} (mem : item ∈ items) : item.reach ≤ reachAny items := by
  induction items with
  | nil => exact nomatch mem
  | cons first rest ih =>
    rcases List.mem_cons.mp mem with rfl | inRest
    · exact le_max_left _ _
    · exact (ih inRest).trans (le_max_right _ _)

theorem mem_comparandsAll (mem : o ∈ comparandsAll items) :
    ∃ item ∈ items, o ∈ item.comparands := by
  induction items with
  | nil => exact nomatch mem
  | cons first rest ih =>
    rcases List.mem_append.mp mem with inFirst | inRest
    · exact ⟨first, List.mem_cons_self, inFirst⟩
    · obtain ⟨item, listed, inItem⟩ := ih inRest
      exact ⟨item, List.mem_cons_of_mem _ listed, inItem⟩

/-- The operands of an accepted tree are accepted, and read no further than the tree. -/
theorem Well.comparand (well : Well baseTf node t) (mem : o ∈ node.comparands) :
    (∃ t', Well baseTf o t') ∧ o.reach ≤ node.reach := by
  induction well with
  | num | str | bool | field => exact nomatch mem
  | window known other series whole wide fits back base ih =>
    simp only [Node.comparands, comparandsAll, List.append_nil] at mem
    have within := ih mem
    refine ⟨within.1, within.2.trans ?_⟩
    simp [Node.reach, reachAny, known]
  | count known whole wide fits condition back base ih =>
    simp only [Node.comparands, comparandsAll, List.append_nil, List.nil_append] at mem
    have within := ih mem
    refine ⟨within.1, within.2.trans ?_⟩
    simp [Node.reach, reachAny, known]
  | unary operand ih => exact ih mem
  | binary noDiv left right ih ih' =>
    rcases List.mem_append.mp mem with inLeft | inRight
    · exact ⟨(ih inLeft).1, (ih inLeft).2.trans (le_max_left _ _)⟩
    · exact ⟨(ih' inRight).1, (ih' inRight).2.trans (le_max_right _ _)⟩
  | compare op left right ih ih' =>
    simp only [Node.comparands, List.mem_cons, List.mem_append] at mem
    rcases mem with rfl | rfl | inLeft | inRight
    · exact ⟨⟨_, left⟩, le_max_left _ _⟩
    · exact ⟨⟨_, right⟩, le_max_right _ _⟩
    · exact ⟨(ih inLeft).1, (ih inLeft).2.trans (le_max_left _ _)⟩
    · exact ⟨(ih' inRight).1, (ih' inRight).2.trans (le_max_right _ _)⟩
  | between value low high ih ih' ih'' =>
    simp only [Node.comparands, List.mem_cons, List.mem_append] at mem
    simp only [Node.reach]
    rcases mem with rfl | rfl | rfl | inValue | inLow | inHigh
    · exact ⟨⟨_, value⟩, by omega⟩
    · exact ⟨⟨_, low⟩, by omega⟩
    · exact ⟨⟨_, high⟩, by omega⟩
    · exact ⟨(ih inValue).1, (ih inValue).2.trans (by omega)⟩
    · exact ⟨(ih' inLow).1, (ih' inLow).2.trans (by omega)⟩
    · exact ⟨(ih'' inHigh).1, (ih'' inHigh).2.trans (by omega)⟩
  | logic op some_ all ih =>
    obtain ⟨item, listed, inItem⟩ := mem_comparandsAll mem
    exact ⟨(ih item listed inItem).1, (ih item listed inItem).2.trans (reach_le_any listed)⟩
  | not condition ih => exact ih mem

/-- A condition or a text is there from the first bar on. -/
theorem Well.need_eq_zero (well : Well baseTf node t) (other : t ≠ .num) : node.need = 0 := by
  cases well with
  | str | bool | compare | between | logic | not => rfl
  | num | field | window | count | unary | binary => exact absurd rfl other

/-- What needs history reads some. -/
theorem Well.reach_pos (well : Well baseTf node t) (needs : 1 ≤ node.need) : 1 ≤ node.reach := by
  induction well with
  | num | str | bool | compare | between | logic | not => exact nomatch needs
  | field known back base => exact Nat.succ_pos _
  | window known | count known =>
    simp only [Node.reach, known]
    omega
  | unary operand ih => exact ih needs
  | binary noDiv left right ih ih' =>
    simp only [Node.need, Node.reach] at needs ih ih' ⊢
    omega

end Within

/-! ## Evaluation -/

/-- A value of a type on `n` bars, a number from the length `d` on. -/
def Value.Fits (n : Nat) : ValueType → Nat → Value → Prop
  | .num, d, v => v.Numbers n d
  | .bool, _, v => v.Flags n
  | .str, _, v => ∃ text, v = .const (.text text)
  | .cat, _, _ => False

/-- Bars with a value in every column. -/
def Frame.Complete {clock : Clock} {tf : Timeframe} (frame : Frame clock tf) : Prop :=
  ∀ c, frame.columns c = true ∧ ∀ row ∈ frame.rows, (row.get c).isSome

section Truth

variable {n : Nat} {v w : Value}

theorem Value.Fits.sized {d : Nat} (fits : v.Fits n t d) : v.Sized n := by
  cases v with
  | const c => trivial
  | series cells =>
    cases t with
    | num =>
      obtain ⟨xs, rfl, length, -⟩ := fits
      exact (List.length_map _).trans length
    | bool =>
      obtain ⟨bs, rfl, length⟩ := fits
      exact (List.length_map _).trans length
    | str =>
      obtain ⟨text, isConst⟩ := fits
      exact nomatch isConst
    | cat => exact fits.elim

theorem flags_cmp (op : CompareOp) (left : v.Sized n) (right : w.Sized n) : (Value.cmp op v w).Flags n := by
  unfold Value.cmp
  split
  · exact ⟨false, rfl⟩
  · exact Value.Flags.map₂ op.cells left right

theorem flags_connect (f : Bool → Bool → Bool) (left : v.Sized n) (right : w.Sized n) :
    (Value.connect f v w).Flags n := by
  rw [connect_eq_map₂]
  exact Value.Flags.map₂ _ left right

theorem flags_negate (sized : v.Sized n) : v.negate.Flags n := by
  cases v with
  | const c => exact ⟨_, rfl⟩
  | series cells => exact ⟨_, (List.map_map ..).symm, (List.length_map _).trans sized⟩

theorem flags_foldl (f : Bool → Bool → Bool) {rest : List Value} (first : v.Flags n)
    (others : ∀ u ∈ rest, u.Flags n) : (rest.foldl (Value.connect f) v).Flags n := by
  induction rest generalizing v with
  | nil => exact first
  | cons u rest ih =>
    rw [List.forall_mem_cons] at others
    have left : v.Fits n .bool 0 := first
    have right : u.Fits n .bool 0 := others.1
    exact ih (flags_connect f left.sized right.sized) others.2

end Truth

section Apply

variable {n d w : Nat} {v : Value} {q : ℚ}

theorem window_const (whole : q = w) : (Value.const (.num q)).window = .ok w := by
  simp [Value.window, Cell.number, whole]

/-- A function of a series gives numbers, from the bars on that it adds. -/
theorem apply_series {f : WindowFunction} (other : f ≠ .count) (numbers : v.Numbers n d)
    (whole : q = w) (wide : 1 ≤ w) :
    ∃ ys, f.apply n [v, .const (.num q)] = .ok (Value.ofNumbers ys) ∧ ys.length = n ∧ From (f.adds w + max 1 d) ys := by
  obtain ⟨length, has⟩ := numbers.toSeries
  have positive : 1 ≤ max 1 d := le_max_left _ _
  have isWindow := window_const whole
  have rolls (together : List ℚ → ℚ) : rolled (v.toSeries n) w together =
      .ok (Value.ofNumbers (rolling w together (v.toSeries n))) ∧
      (rolling w together (v.toSeries n)).length = n ∧ From (w - 1 + max 1 d) (rolling w together (v.toSeries n)) :=
    ⟨rfl, by simpa using length, has.rolling together wide positive⟩
  cases f with
  | count => exact absurd rfl other
  | sma =>
    simp only [WindowFunction.apply, isWindow]
    exact ⟨_, rolls mean⟩
  | max =>
    simp only [WindowFunction.apply, isWindow]
    exact ⟨_, rolls _⟩
  | min =>
    simp only [WindowFunction.apply, isWindow]
    exact ⟨_, rolls _⟩
  | lag =>
    simp only [WindowFunction.apply, isWindow]
    refine ⟨_, congrArg Except.ok (shift_ofNumbers w _), by simpa using length, has.shift w positive⟩

/-- A count is there once its window is full. -/
theorem apply_count (flags : v.Flags n) (whole : q = w) (wide : 1 ≤ w) :
    ∃ ys, WindowFunction.count.apply n [.const (.num q), v] = .ok (Value.ofNumbers ys) ∧ ys.length = n ∧
      From (w - 1 + 1) ys := by
  obtain ⟨length, has⟩ := flags.toFlags
  simp only [WindowFunction.apply, window_const whole]
  exact ⟨_, rfl, by simpa using length, has.rolling _ wide le_rfl⟩

end Apply

section Evaluate

variable {clock : Clock} {baseTf : Timeframe} {s : Frames clock} {frame : Frame clock baseTf}

theorem frame_given (given : s baseTf = some frame) : (windows clock baseTf).frame baseTf s = .ok (frame, s) := by
  have read : (get : Eval clock (Frames clock)) s = .ok (s, s) := rfl
  unfold Setting.frame
  rw [bind_of_ok read, given]
  rfl

theorem align_same (v : Value) : (windows clock baseTf).align v baseTf baseTf s = .ok (v, s) := by
  cases v with
  | const c => rfl
  | series cells =>
    show (if _ then _ else _ : Eval clock Value) s = _
    rw [if_pos rfl]
    rfl

/-- A field of complete bars is there from the first one on. -/
theorem field_numbers (complete : frame.Complete) {c : Column} (known : Column.ofName name = some c) :
    ∃ xs, frame.field name = Value.ofNumbers xs ∧ xs.length = frame.rows.length ∧ From 1 xs := by
  obtain ⟨isColumn, all⟩ := complete c
  refine ⟨frame.rows.map fun row => row.get c, ?_, List.length_map _, ?_⟩
  · simp only [Frame.field, known, Frame.column, isColumn, if_true]
    rfl
  · refine (Warmup.from_zero ?_).congr (d := 0) rfl
    intro x mem
    obtain ⟨row, inRows, rfl⟩ := List.mem_map.mp mem
    exact all row inRows

/-- The items of a group, evaluated. -/
theorem evAll_flags {n : Nat}
    (each : ∀ item ∈ items, ∃ v, item.ev (windows clock baseTf) baseTf s = .ok (v, s) ∧ v.Flags n) :
    ∃ vs, evAll (windows clock baseTf) items baseTf s = .ok (vs, s) ∧ vs.length = items.length ∧
      ∀ v ∈ vs, v.Flags n := by
  induction items with
  | nil => exact ⟨[], rfl, rfl, List.forall_mem_nil _⟩
  | cons item rest ih =>
    rw [List.forall_mem_cons] at each
    obtain ⟨v, evaluated, flags⟩ := each.1
    obtain ⟨vs, others, length, all⟩ := ih each.2
    refine ⟨v :: vs, ?_, by simp [length], List.forall_mem_cons.mpr ⟨flags, all⟩⟩
    rw [evAll, bind_of_ok evaluated, bind_of_ok others]
    rfl

theorem evAll_two {a b : Node} {v w : Value} (first : a.ev (windows clock baseTf) baseTf s = .ok (v, s))
    (second : b.ev (windows clock baseTf) baseTf s = .ok (w, s)) :
    evAll (windows clock baseTf) [a, b] baseTf s = .ok ([v, w], s) := by
  rw [evAll, bind_of_ok first, evAll, evAll]
  rw [show ((b.ev (windows clock baseTf) baseTf >>= _) >>= _ : Eval clock _) s = _ from bind_of_ok (bind_of_ok second)]
  rfl

/-- A function whose arguments are evaluated. -/
theorem ev_call (given : s baseTf = some frame) {f : WindowFunction}
    (known : WindowFunction.ofName name = some f) {args : List Node} {values : List Value}
    (evaluated : evAll (windows clock baseTf) args baseTf s = .ok (values, s)) {v : Value}
    (applied : f.apply frame.rows.length values = .ok v) (back : Nat)
    (base : own.getD baseTf = baseTf) :
    (Node.call name args [] back own).ev (windows clock baseTf) baseTf s = .ok (v.shift back, s) := by
  have library : (windows clock baseTf).library name baseTf frame values [] = .ok v := by
    show windowLibrary name baseTf frame values [] = .ok v
    simp only [windowLibrary, known, applied]
  have lifted : (liftM ((windows clock baseTf).library name baseTf frame values []) : Eval clock
      Value) s = .ok (v, s) := by
    rw [library]
    rfl
  have unnamed : evNamed (windows clock baseTf) [] baseTf s = .ok ([], s) := rfl
  rw [Node.ev, base, bind_of_ok (frame_given given), bind_of_ok evaluated, bind_of_ok unnamed, bind_of_ok lifted]
  exact align_same _

theorem Well.ev (well : Well baseTf node t) (given : s baseTf = some frame)
    (complete : frame.Complete) :
    ∃ v, node.ev (windows clock baseTf) baseTf s = .ok (v, s) ∧ v.Fits frame.rows.length t node.need := by
  induction well with
  | num x => exact ⟨_, rfl, rfl, x.value, rfl⟩
  | str value => exact ⟨_, rfl, value, rfl⟩
  | bool value => exact ⟨_, rfl, value, rfl⟩
  | @field name c known back own base =>
    obtain ⟨xs, isField, length, has⟩ := field_numbers complete known
    refine ⟨(frame.field name).shift back, ?_, ?_⟩
    · rw [Node.ev, base, bind_of_ok (frame_given given)]
      exact align_same _
    · rw [isField]
      exact numbers_shift length has le_rfl back
  | @window name f known other x series n w whole wide fits back own base ih =>
    obtain ⟨v, evaluated, numbers⟩ := ih
    obtain ⟨ys, applied, length, has⟩ := apply_series other numbers whole wide
    have isWidth : f.width [x, .num (.finite n)] = w := by
      cases f with
      | count => exact absurd rfl other
      | sma | max | min | lag => exact width_whole whole
    refine ⟨_, ev_call given known (evAll_two evaluated rfl) applied back base, ?_⟩
    have shifted := numbers_shift length has (by omega) back
    simpa [Value.Fits, Node.need, needAny, known, isWidth] using shifted
  | @count name known n w whole wide fits cond condition back own base ih =>
    obtain ⟨v, evaluated, flags⟩ := ih
    obtain ⟨ys, applied, length, has⟩ := apply_count flags whole wide
    have isWidth : WindowFunction.count.width [.num (.finite n), cond] = w := width_whole whole
    refine ⟨_, ev_call given known (evAll_two rfl evaluated) applied back base, ?_⟩
    have shifted := numbers_shift length has (by omega) back
    have noNeed := condition.need_eq_zero (by decide)
    simpa [Value.Fits, Node.need, needAny, known, isWidth, WindowFunction.adds, noNeed] using shifted
  | unary operand ih =>
    obtain ⟨v, evaluated, numbers⟩ := ih
    exact ⟨_, by rw [Node.ev, bind_of_ok evaluated]; rfl, numbers.negated⟩
  | binary noDiv left right ih ih' =>
    obtain ⟨v, evaluated, numbers⟩ := ih
    obtain ⟨w, evaluated', numbers'⟩ := ih'
    exact ⟨_, by rw [Node.ev, bind_of_ok evaluated, bind_of_ok evaluated']; rfl, numbers.map₂ noDiv numbers'⟩
  | compare op left right ih ih' =>
    obtain ⟨v, evaluated, fits⟩ := ih
    obtain ⟨w, evaluated', fits'⟩ := ih'
    exact ⟨_, by rw [Node.ev, bind_of_ok evaluated, bind_of_ok evaluated']; rfl, flags_cmp op fits.sized fits'.sized⟩
  | between value low high ih ih' ih'' =>
    obtain ⟨v, evaluated, fits⟩ := ih
    obtain ⟨lo, evaluated', fits'⟩ := ih'
    obtain ⟨hi, evaluated'', fits''⟩ := ih''
    refine ⟨_, by rw [Node.ev, bind_of_ok evaluated, bind_of_ok evaluated', bind_of_ok evaluated'']; rfl, ?_⟩
    have atLeast : (Value.cmp .ge v lo).Fits frame.rows.length .bool 0 := flags_cmp .ge fits.sized fits'.sized
    have atMost : (Value.cmp .le v hi).Fits frame.rows.length .bool 0 := flags_cmp .le fits.sized fits''.sized
    exact flags_connect and atLeast.sized atMost.sized
  | @logic op items some_ all ih =>
    obtain ⟨vs, evaluated, length, flags⟩ := evAll_flags ih
    cases vs with
    | nil => exact absurd (List.eq_nil_of_length_eq_zero length.symm) some_
    | cons first rest =>
      rw [List.forall_mem_cons] at flags
      exact ⟨_, by rw [Node.ev, bind_of_ok evaluated]; rfl, flags_foldl _ flags.1 flags.2⟩
  | not condition ih =>
    obtain ⟨v, evaluated, fits⟩ := ih
    exact ⟨_, by rw [Node.ev, bind_of_ok evaluated]; rfl, flags_negate fits.sized⟩

end Evaluate

/-! ## The history a screen passes with -/

/-- Every operand of a comparison has a value on the last bar, for every history of complete bars that is as long as the
validator asks for. -/
def LookbackEnough (clock : Clock) (screen : Node) (validated : Validated) (baseTf : Timeframe) : Prop :=
  ∀ (frames : Frames clock) (base : Frame clock baseTf), frames baseTf = some base → base.Complete → base.rows ≠ [] →
    validated.lookback baseTf ≤ base.rows.length →
      ∀ o ∈ screen.comparands,
        ∃ v, o.ev (windows clock baseTf) baseTf frames = .ok (v, frames) ∧ v.last.missing = false

section Enough

variable {checker : Checker} {costCap : ℚ} {screen : Node}

theorem validate_passed (accepted : (validate screen checker costCap).ok = true) :
    (checker.check screen checker.baseTf).Passed := by
  unfold validate Validated.ok at accepted
  rw [List.isEmpty_iff, List.append_eq_nil_iff] at accepted
  exact (Checked.passed_bind.mp accepted.1).1

theorem validate_lookback (screen : Node) (checker : Checker) (costCap : ℚ) (tf : Timeframe) :
    (validate screen checker costCap).lookback tf = (checker.check screen checker.baseTf).lookback tf := by
  simp [validate]

/-- A value is there on the last bar when the history is as long as its need. -/
theorem Value.Fits.last {n d : Nat} {v : Value} (fits : v.Fits (n + 1) t d)
    (free : t ≠ .num → d = 0) : v.last.missing = false ↔ d ≤ n + 1 := by
  cases t with
  | num => exact Value.Numbers.last fits
  | bool =>
    obtain ⟨b, isFlag⟩ := Value.Flags.last fits
    rw [isFlag, free (by decide)]
    simp [Cell.missing]
  | str =>
    obtain ⟨text, rfl⟩ := fits
    rw [free (by decide)]
    simp [Value.last, Cell.missing]
  | cat => exact fits.elim

/-- On complete bars, an accepted value is there exactly when there are as many of them as it needs. -/
theorem Well.last {clock : Clock} {baseTf : Timeframe} {s : Frames clock}
    {frame : Frame clock baseTf} (well : Well baseTf node t) (given : s baseTf = some frame)
    (complete : frame.Complete) (some_ : frame.rows ≠ []) :
    (∃ v, node.ev (windows clock baseTf) baseTf s = .ok (v, s) ∧ v.last.missing = false) ↔
      node.need ≤ frame.rows.length := by
  obtain ⟨v, evaluated, fits⟩ := well.ev given complete
  obtain ⟨n, length⟩ := Nat.exists_eq_add_one.mpr (List.length_pos_iff.mpr some_)
  rw [length] at fits ⊢
  rw [← fits.last well.need_eq_zero]
  constructor
  · rintro ⟨v', evaluated', present⟩
    rw [evaluated] at evaluated'
    obtain ⟨rfl, -⟩ := Prod.mk.inj (Except.ok.inj evaluated')
    exact present
  · exact fun present => ⟨v, evaluated, present⟩

/-- A bar with the value 1 in every column. -/
def unitBar (start : Int) : Row where
  start := start
  open_ := some 1
  high := some 1
  low := some 1
  close := some 1
  volume := some 1
  oi := some 1

/-- Bars that begin when the one before has closed. -/
def unitFrame (clock : Clock) (tf : Timeframe) (n : Nat) : Frame clock tf where
  columns := fun _ => true
  rows := (List.range n).map fun k => unitBar ((barClose clock tf)^[k] 0)
  spaced := by
    have rises : StrictMono fun k => (barClose clock tf)^[k] 0 := by
      apply strictMono_nat_of_lt_succ
      intro k
      rw [Function.iterate_succ_apply']
      exact lt_barClose clock tf _
    rw [List.pairwise_map]
    refine List.pairwise_lt_range.imp ?_
    intro i j lt
    have next : (barClose clock tf)^[i + 1] 0 ≤ (barClose clock tf)^[j] 0 := rises.monotone lt
    rwa [Function.iterate_succ_apply'] at next

theorem unitFrame_complete (clock : Clock) (tf : Timeframe) (n : Nat) : (unitFrame clock tf n).Complete := by
  intro c
  refine ⟨rfl, fun row mem => ?_⟩
  obtain ⟨k, -, rfl⟩ := List.mem_map.mp mem
  cases c <;> rfl

theorem unitFrame_length (clock : Clock) (tf : Timeframe) (n : Nat) : (unitFrame clock tf n).rows.length = n := by
  simp [unitFrame]

/-- The validator's lookback of an accepted screen is enough exactly when none of its operands needs more history, with
the offsets and windows of its nesting added up, than the screen's longest single read. -/
theorem lookbackEnough_iff (clock : Clock) (grammar : screen.onOne checker.baseTf = true)
    (accepted : (validate screen checker costCap).ok = true) :
    LookbackEnough clock screen (validate screen checker costCap) checker.baseTf ↔
      ∀ o ∈ screen.comparands, o.need ≤ screen.reach := by
  have well := check_well screen grammar (validate_passed accepted)
  have lookback : (validate screen checker costCap).lookback checker.baseTf = screen.reach :=
    (validate_lookback screen checker costCap _).trans well.lookback
  constructor
  · intro enough o mem
    obtain ⟨⟨t, typed⟩, within⟩ := well.comparand mem
    by_contra short
    have some_ : 1 ≤ screen.reach := (typed.reach_pos (by omega)).trans within
    -- as many bars as the validator asks for
    let base := unitFrame clock checker.baseTf screen.reach
    have length : base.rows.length = screen.reach := unitFrame_length _ _ _
    have nonempty : base.rows ≠ [] := List.ne_nil_of_length_pos (by omega)
    have complete := unitFrame_complete clock checker.baseTf screen.reach
    let frames : Frames clock := Function.update (fun _ => none) checker.baseTf (some base)
    have given : frames checker.baseTf = some base := Function.update_self _ _ _
    have present := enough frames base given complete nonempty (by rw [lookback, length]) o mem
    have reached := (typed.last given complete nonempty).mp present
    omega
  · intro covered frames base given complete nonempty enough o mem
    obtain ⟨⟨t, typed⟩, -⟩ := well.comparand mem
    rw [lookback] at enough
    exact (typed.last given complete nonempty).mpr ((covered o mem).trans enough)

end Enough

/-! ## The highest high until the bar before -/

section UntilYesterday

theorem representable_one : Py.Representable 1 := by
  refine ⟨?_, 1, 0, by norm_num, by norm_num, by norm_num⟩
  rw [abs_one]
  exact one_lt_pow₀ one_lt_two (by decide)

theorem representable_three : Py.Representable 3 := by
  refine ⟨?_, 3, 0, by norm_num, by norm_num, by norm_num⟩
  have small : |(3 : ℚ)| < 2 ^ 2 := by norm_num
  exact small.trans_le (pow_le_pow_right₀ one_le_two (by decide))

/-- `Lag(Max(high, 3), 1)`. -/
def highUntilYesterday : Node :=
  .call ['L', 'a', 'g']
    [.call ['M', 'a', 'x'] [.field ['h', 'i', 'g', 'h'] 0 none, .num (.finite ⟨3, representable_three⟩)] [] 0 none,
      .num (.finite ⟨1, representable_one⟩)] [] 0 none

/-- `close > Lag(Max(high, 3), 1)`. -/
def aboveYesterday : Node := .compare .gt (.field ['c', 'l', 'o', 's', 'e'] 0 none) highUntilYesterday

def dailyScreen : Checker := { baseTf := .d1, strictUnits := true }

theorem aboveYesterday_accepted : (validate aboveYesterday dailyScreen 200).ok = true := by decide +kernel

/-- Three daily bars are as many as the validator asks for, and the highest high until yesterday is missing on them. -/
theorem aboveYesterday_missing : aboveYesterday.onOne .d1 = true ∧ (validate aboveYesterday dailyScreen 200).ok = true ∧
    ¬ LookbackEnough daysOnly aboveYesterday (validate aboveYesterday dailyScreen 200) .d1 := by
  have grammar : aboveYesterday.onOne .d1 = true := by decide +kernel
  refine ⟨grammar, aboveYesterday_accepted, ?_⟩
  intro enough
  have isOperand : highUntilYesterday ∈ aboveYesterday.comparands := List.mem_cons_of_mem _ List.mem_cons_self
  let base := unitFrame daysOnly .d1 3
  let frames : Frames daysOnly := Function.update (fun _ => none) .d1 (some base)
  have given : frames .d1 = some base := Function.update_self _ _ _
  have length : base.rows.length = 3 := unitFrame_length _ _ _
  have nonempty : base.rows ≠ [] := List.ne_nil_of_length_pos (by omega)
  have complete := unitFrame_complete daysOnly .d1 3
  have asked : (validate aboveYesterday dailyScreen 200).lookback .d1 = 3 := by decide +kernel
  have present := enough frames base given complete nonempty (by omega) _ isOperand
  have well := @check_well dailyScreen aboveYesterday grammar (validate_passed aboveYesterday_accepted)
  obtain ⟨⟨t, typed⟩, -⟩ := well.comparand isOperand
  have needed := (typed.last given complete nonempty).mp present
  have isNeed : highUntilYesterday.need = 4 := by decide +kernel
  omega

theorem lookbackEnough_aboveYesterday : aboveYesterday.onOne .d1 = true ∧
    (validate aboveYesterday dailyScreen 200).ok = true ∧
    (LookbackEnough daysOnly aboveYesterday (validate aboveYesterday dailyScreen 200) .d1 ↔
      ∀ o ∈ aboveYesterday.comparands, o.need ≤ aboveYesterday.reach) :=
  ⟨by decide +kernel, aboveYesterday_accepted,
    @lookbackEnough_iff dailyScreen _ _ daysOnly (by decide +kernel) aboveYesterday_accepted⟩

end UntilYesterday

end AdvanceTrading.Screener
