import AdvanceTrading.Misc.Warmup
import AdvanceTrading.Screener.BarValues

/-!
# The validator

Model of `_Checker` and `validate` (`app/screener/validator.py:71-125`, `:253-370`,
`:377-491`, `:497-519`) with the registry's entries of the five window functions
(`registry.py:281-304`), for a screen without parameters. The fields of a `Spec`
that these five leave at their defaults are left out with the checks that read
them. A refusal keeps its kind, its node and its names; the sentences around them
are left out. Costs are added up exactly.
-/

namespace AdvanceTrading.Screener

open Py (Double)

/-! ## Types and entries -/

/-- NUM, BOOL, CAT and STR. -/
inductive ValueType where
  | num | bool | cat | str
  deriving DecidableEq, Repr

/-- A unit; `any` is a literal's. -/
inductive Measure where
  | any | price | volume | contracts | ratio | count
  deriving DecidableEq, Repr

/-- `T`: a type and a unit. -/
structure Typed where
  type : ValueType
  unit : Option Measure
  deriving DecidableEq

/-- What an argument must be: a whole number of bars, or a value. -/
inductive ArgType where
  | window
  | value (type : ValueType)
  deriving DecidableEq, Repr

/-- `Arg`. -/
structure Arg where
  name : Text
  type : ArgType

/-- The unit a function returns; `same` is that of its first argument with a unit. -/
inductive UnitRule where
  | same
  | of (unit : Measure)
  deriving DecidableEq, Repr

/-- `Spec`. -/
structure Spec where
  returns : ValueType
  unit : UnitRule
  args : List Arg
  cost : ℚ

/-- `MAX_WINDOW`. -/
def maxWindow : Nat := 500

/-- The unit of a field in `FIELDS`. -/
def Column.unit : Column → Measure
  | .open_ | .high | .low | .close => .price
  | .volume => .volume
  | .oi => .contracts

/-- The cost of a field in `FIELDS`. -/
def Column.cost : Column → ℚ
  | _ => 1

/-- The window functions of the registry. -/
inductive WindowFunction where
  | sma | max | min | count | lag
  deriving DecidableEq, Repr

namespace WindowFunction

def ofName (name : Text) : Option WindowFunction :=
  match String.ofList name with
  | "SMA" => some .sma
  | "Max" => some .max
  | "Min" => some .min
  | "Count" => some .count
  | "Lag" => some .lag
  | _ => none

/-- `_X`. -/
def x : Arg := { name := ['x'], type := .value .num }

/-- `_N`. -/
def n : Arg := { name := ['n'], type := .window }

def spec : WindowFunction → Spec
  | sma | max | min | lag => { returns := .num, unit := .same, args := [x, n], cost := 1 }
  | count =>
      { returns := .num, unit := .of .count,
        args := [n, { name := ['c', 'o', 'n', 'd'], type := .value .bool }], cost := 1 }

end WindowFunction

/-- `FUNCTIONS`, as far as the window functions. -/
def functions (name : Text) : Option Spec := (WindowFunction.ofName name).map WindowFunction.spec

/-! ## Findings -/

/-- `Problem`; one that is about the whole screen has no node. -/
structure Problem where
  kind : String
  node : Option Node
  names : List (String × Text)

/-- A result and what was written to `out` on the way. No `lookback` of a timeframe is 0 bars. -/
structure Checked (α : Type) where
  value : α
  problems : List Problem
  lookback : Timeframe → Nat
  cost : ℚ

namespace Checked

variable {α β : Type}

instance : Monad Checked where
  pure a := ⟨a, [], fun _ => 0, 0⟩
  bind c f :=
    ⟨(f c.value).value, c.problems ++ (f c.value).problems,
      fun tf => max (c.lookback tf) ((f c.value).lookback tf), c.cost + (f c.value).cost⟩

/-- `err`. -/
def err (kind : String) (node : Node) (names : List (String × Text)) : Checked Unit :=
  ⟨(), [⟨kind, some node, names⟩], fun _ => 0, 0⟩

/-- `if wrong: err(...)`. -/
def refuseIf (wrong : Prop) [Decidable wrong] (kind : String) (node : Node)
    (names : List (String × Text)) : Checked Unit :=
  if wrong then err kind node names else pure ()

/-- `_need`. -/
def need (tf : Timeframe) (bars : Nat) : Checked Unit := ⟨(), [], fun tf' => if tf' = tf then bars else 0, 0⟩

/-- `out.cost += cost`. -/
def spend (cost : ℚ) : Checked Unit := ⟨(), [], fun _ => 0, cost⟩

/-- Nothing was refused. -/
def Passed (c : Checked α) : Prop := c.problems = []

end Checked

/-! ## The checks -/

/-- What `_Checker` is made with. -/
structure Checker where
  baseTf : Timeframe
  strictUnits : Bool

/-- Units that do not go together, where both are known. -/
def mixes (u v : Option Measure) : Bool := u ≠ v && u ≠ some .any && v ≠ some .any

namespace Checker

variable (checker : Checker)

/-- `_tf` of a node with a timeframe. -/
def tf (node : Node) (own : Timeframe) : Checked Timeframe := do
  Checked.refuseIf (own.minutes < checker.baseTf.minutes) "timeframe_finer" node
    [("tf", own.text), ("base_tf", checker.baseTf.text)]
  return own

/-- `_offset`. -/
def offset (node : Node) (back : Int) : Checked Nat := do
  Checked.refuseIf (back < 0) "look_ahead" node []
  Checked.refuseIf (maxOffset < back) "offset_range" node []
  return back.toNat

/-- `window`; of an infinite literal `int` raises, and nothing is validated. -/
def window (owner : Text) (arg : Node) : Checked Nat :=
  match arg with
  | .num (.finite x) =>
      if x.value.den = 1 ∧ 1 ≤ x.value ∧ x.value ≤ maxWindow then return x.value.num.toNat
      else do
        Checked.err "window_range" arg [("function", owner)]
        return 1
  | .num (.infinite _) => do
      Checked.err "window_range" arg [("function", owner)]
      return 1
  | .param _ => do
      Checked.err "parameter" arg []
      return 1
  | _ => do
      Checked.err "window_not_literal" arg [("function", owner)]
      return 1

/-- `comparable`; `equality` of ==, != and IN. -/
def comparable (node : Node) (left right : Typed) (equality : Bool) : Checked Unit :=
  if left.type = .num ∧ right.type = .num then
    Checked.refuseIf (mixes left.unit right.unit ∧ checker.strictUnits) "unit_mismatch" node []
  else if left.type ∈ [.cat, .str] ∧ right.type ∈ [.cat, .str] ∧ equality then pure ()
  else if left.type = .bool ∧ right.type = .bool ∧ equality then pure ()
  else Checked.err "compare_types" node []

/-- The type and unit of arithmetic, once both sides are checked. -/
def arithmetic (node : Node) (op : ArithOp) (left right : Typed) : Checked Typed :=
  if left.type ≠ .num ∨ right.type ≠ .num then do
    Checked.err "number_expected" node []
    return ⟨.num, some .any⟩
  else
    let other := if left.unit = some .any then right.unit else left.unit
    match op with
    | .add | .sub => do
        Checked.refuseIf (mixes left.unit right.unit ∧ checker.strictUnits) "unit_mismatch" node []
        return ⟨.num, other⟩
    | .mul | .div => return ⟨.num, if left.unit = some .any ∨ right.unit = some .any then other else some .ratio⟩

/-- The type and unit a function returns for the units of its arguments. -/
def returned (spec : Spec) (units : List (Option Measure)) : Typed :=
  match spec.returns, spec.unit with
  | .num, .same => ⟨.num, some ((units.findSome? id).getD .any)⟩
  | .num, .of unit => ⟨.num, some unit⟩
  | type, _ => ⟨type, none⟩

mutual

/-- `check`, and `call` for a function. -/
def check : Node → Timeframe → Checked Typed
  | node@(.num value), _ => do
      Checked.refuseIf (value.isFinite = false) "not_finite" node []
      return ⟨.num, some .any⟩
  | .str _, _ => return ⟨.str, none⟩
  | .bool _, _ => return ⟨.bool, none⟩
  | node@(.param _), _ => do
      Checked.err "parameter" node []
      return ⟨.num, some .any⟩
  | node@(.field name back own), tf =>
      match Column.ofName name with
      | none => do
          if (functions name).isSome then
            Checked.err "function_without_parens" node [("function", name)]
          else
            Checked.err "unknown_field" node []
          return ⟨.num, some .any⟩
      | some c => do
          let ownTf ← own.elim (pure tf) (checker.tf node)
          let bars ← Checker.offset node back
          Checked.need ownTf (bars + 1)
          Checked.spend (c.cost / 10)
          return ⟨.num, some c.unit⟩
  | node@(.call name args kwargs back own), tf =>
      match functions name with
      | none => do
          if (Column.ofName name).isSome then
            Checked.err "field_called" node [("field", name)]
          else
            Checked.err "unknown_function" node []
          return ⟨.num, some .any⟩
      | some spec => do
          let ownTf ← own.elim (pure tf) (checker.tf node)
          let bars ← Checker.offset node back
          Checked.refuseIf (args.length ≠ spec.args.length) "arity" node [("function", name)]
          kwargs.forM fun kwarg => Checked.err "unknown_argument" kwarg.2 [("function", name)]
          let results ← checkArgs name spec.args args ownTf
          let window := (results.filterMap Prod.fst).foldl max 0
          Checked.need ownTf (bars + max window 1)
          Checked.spend (spec.cost * (1 + window / 100))
          return returned spec (results.map Prod.snd)
  | node@(.unary operand), tf => do
      let t ← check operand tf
      Checked.refuseIf (t.type ≠ .num) "number_expected" node []
      return ⟨.num, t.unit⟩
  | node@(.binary op left right), tf => do
      let l ← check left tf
      let r ← check right tf
      checker.arithmetic node op l r
  | node@(.compare op left right), tf => do
      let l ← check left tf
      let r ← check right tf
      checker.comparable node l r (op = .eq || op = .ne)
      return ⟨.bool, none⟩
  | node@(.between value low high), tf => do
      let v ← check value tf
      let lo ← check low tf
      let hi ← check high tf
      checker.comparable node v lo false
      checker.comparable node v hi false
      Checked.refuseIf (v.type ≠ .num) "number_expected" node []
      return ⟨.bool, none⟩
  | node@(.isIn value items), tf => do
      let v ← check value tf
      Checked.refuseIf (items = []) "in_list" node []
      checkListed node v items tf
      return ⟨.bool, none⟩
  | node@(.logic _ items), tf => do
      Checked.refuseIf (items = []) "condition_expected" node []
      checkConditions items tf
      return ⟨.bool, none⟩
  | node@(.not item), tf => do
      let t ← check item tf
      Checked.refuseIf (t.type ≠ .bool) "condition_expected" node []
      return ⟨.bool, none⟩

/-- `argument` of each one given: its window where it is one, and its unit. -/
def checkArgs (owner : Text) : List Arg → List Node → Timeframe → Checked (List (Option Nat × Option Measure))
  | sig :: sigs, arg :: args, tf =>
      match sig.type with
      | .window => do
          let w ← Checker.window owner arg
          let rest ← checkArgs owner sigs args tf
          return (some w, none) :: rest
      | .value type => do
          let t ← check arg tf
          Checked.refuseIf (t.type ≠ type) "argument_type" arg [("function", owner), ("arg", sig.name)]
          let rest ← checkArgs owner sigs args tf
          return (none, t.unit) :: rest
  | _, _, _ => return []

/-- The items of IN are literals the value compares with. -/
def checkListed (node : Node) (v : Typed) : List Node → Timeframe → Checked Unit
  | [], _ => return ()
  | item :: items, tf => do
      match item with
      | .num _ | .str _ | .bool _ | .param _ => do
          let t ← check item tf
          checker.comparable node v t true
      | _ => Checked.err "in_list" item []
      checkListed node v items tf

/-- The items of a group are conditions. -/
def checkConditions : List Node → Timeframe → Checked Unit
  | [], _ => return ()
  | item :: items, tf => do
      let t ← check item tf
      Checked.refuseIf (t.type ≠ .bool) "condition_expected" item []
      checkConditions items tf

end

end Checker

/-- `Validated`. -/
structure Validated where
  problems : List Problem
  lookback : Timeframe → Nat
  cost : ℚ

def Validated.ok (validated : Validated) : Bool := validated.problems.isEmpty

/-- `validate`. -/
def validate (ast : Node) (checker : Checker) (costCap : ℚ) : Validated :=
  let out : Checked Unit := do
    let t ← checker.check ast checker.baseTf
    Checked.refuseIf (t.type ≠ .bool) "not_condition" ast []
  { problems := out.problems ++ if costCap < out.cost then [⟨"cost", none, []⟩] else []
    lookback := out.lookback
    cost := out.cost }

end AdvanceTrading.Screener

/-!
# Window functions

SMA, Max, Min, Count and Lag in `impl` (`app/screener/runtime.py:301-312`,
`:368`, `:580-596`), and `run_screen` (`:1443-1492`) on one symbol, for a screen
of these functions on one timeframe. An operand's values begin at some length of
the history (`Value.Numbers`).
-/

namespace AdvanceTrading.Screener

open Warmup (From rolling)

/-! ## The functions -/

namespace Value

/-- `series`, as numbers: the values of a constant on each of the bars. -/
def toSeries (bars : Nat) : Value → List (Option ℚ)
  | const c => List.replicate bars c.number
  | series cells => cells.map Cell.number

/-- `_as_bool` with an index, as numbers. -/
def toFlags (bars : Nat) : Value → List (Option ℚ)
  | const c => List.replicate bars (some (if c.truthy then 1 else 0))
  | series cells => cells.map fun c => some (if c.asBool then 1 else 0)

/-- A series of numbers. -/
def ofNumbers (xs : List (Option ℚ)) : Value := series (xs.map Cell.ofNumber)

/-- `win`: `int` of a constant. -/
def window : Value → Except Failure Int
  | const c =>
      match c.number with
      | some x => .ok (if 0 ≤ x then ⌊x⌋ else ⌈x⌉)
      | none => .error (.library "int of no number")
  | series _ => .error (.library "int of a series")

end Value

/-- `xs.rolling(w)` and an aggregate. -/
def rolled (xs : List (Option ℚ)) (w : Int) (together : List ℚ → ℚ) : Except Failure Value :=
  if w < 0 then .error (.library "window must be an integer 0 or greater")
  else .ok (Value.ofNumbers (rolling w.toNat together xs))

def mean (xs : List ℚ) : ℚ := xs.sum / xs.length

/-- The five entries of `impl`. -/
def WindowFunction.apply (f : WindowFunction) (bars : Nat) (args : List Value) : Except Failure Value :=
  match f, args with
  | .sma, [x, n] => do rolled (x.toSeries bars) (← n.window) mean
  | .max, [x, n] => do rolled (x.toSeries bars) (← n.window) fun xs => xs.max?.getD 0
  | .min, [x, n] => do rolled (x.toSeries bars) (← n.window) fun xs => xs.min?.getD 0
  | .count, [n, cond] => do rolled (cond.toFlags bars) (← n.window) List.sum
  | .lag, [x, n] => do return (Value.ofNumbers (x.toSeries bars)).shift (← n.window)
  | _, _ => .error (.library "list index out of range")

def windowLibrary {clock : Clock} : Library clock := fun name _ frame args _ =>
  match WindowFunction.ofName name with
  | some f => f.apply frame.rows.length args
  | none => .error (.library "no such function")

/-- The setting of a screen of window functions. -/
def windows (clock : Clock) (baseTf : Timeframe) : Setting clock where
  baseTf := baseTf
  params := fun _ => none
  library := windowLibrary

/-! ## The screen -/

/-- A `Match` with its reason. -/
inductive Outcome where
  | noBars
  | shortHistory
  | notChecked (failure : Failure)
  | noValue
  | decided (matched : Bool)
  deriving DecidableEq

/-- Numbers on `n` bars: a constant, or a series with values from the length `d` on. -/
def Value.Numbers (n d : Nat) : Value → Prop
  | .const c => d = 0 ∧ ∃ x, c = .num x
  | .series cells => ∃ xs, cells = xs.map Cell.ofNumber ∧ xs.length = n ∧ From d xs

/-- Truth values on `n` bars. -/
def Value.Flags (n : Nat) : Value → Prop
  | .const c => ∃ b, c = .flag b
  | .series cells => ∃ bs : List Bool, cells = bs.map Cell.flag ∧ bs.length = n

section Values

variable {n d e : Nat} {v w : Value}

theorem Cell.number_ofNumber (x : Option ℚ) : (Cell.ofNumber x).number = x := by
  cases x <;> rfl

theorem Cell.missing_ofNumber (x : Option ℚ) : (Cell.ofNumber x).missing = false ↔ x.isSome := by
  cases x <;> simp [Cell.ofNumber, Cell.missing]

theorem toSeries_ofNumbers (bars : Nat) (xs : List (Option ℚ)) : (Value.ofNumbers xs).toSeries bars = xs := by
  simp [Value.ofNumbers, Value.toSeries, Function.comp_def, Cell.number_ofNumber]

/-- As a series, with a value from the first bar on at the earliest. -/
theorem Value.Numbers.toSeries (numbers : v.Numbers n d) :
    (v.toSeries n).length = n ∧ From (max 1 d) (v.toSeries n) := by
  cases v with
  | const c =>
    obtain ⟨rfl, x, rfl⟩ := numbers
    refine ⟨List.length_replicate, (Warmup.from_zero ?_).congr (by omega)⟩
    intro y mem
    rw [List.eq_of_mem_replicate mem]
    rfl
  | series cells =>
    obtain ⟨xs, rfl, length, has⟩ := numbers
    show (Value.toSeries n (Value.ofNumbers xs)).length = n ∧ From _ (Value.toSeries n (Value.ofNumbers xs))
    rw [toSeries_ofNumbers]
    exact ⟨length, has.congr (by omega)⟩

theorem Value.Flags.toFlags (flags : v.Flags n) : (v.toFlags n).length = n ∧ From 1 (v.toFlags n) := by
  cases v with
  | const c =>
    refine ⟨List.length_replicate, (Warmup.from_zero ?_).congr (d := 0) rfl⟩
    intro y mem
    rw [List.eq_of_mem_replicate mem]
    rfl
  | series cells =>
    obtain ⟨bs, rfl, length⟩ := flags
    refine ⟨by simpa [Value.toFlags] using length, (Warmup.from_zero ?_).congr (d := 0) rfl⟩
    intro y mem
    obtain ⟨c, -, rfl⟩ := List.mem_map.mp mem
    rfl

theorem numbers_ofNumbers {xs : List (Option ℚ)} (length : xs.length = n) (has : From d xs) :
    (Value.ofNumbers xs).Numbers n d :=
  ⟨xs, rfl, length, has⟩

theorem shift_ofNumbers (back : Nat) (xs : List (Option ℚ)) :
    (Value.ofNumbers xs).shift back = Value.ofNumbers (Warmup.shift back xs) := by
  simp [Value.ofNumbers, Value.shift, Warmup.shift, List.map_take, Cell.ofNumber]

theorem numbers_shift {xs : List (Option ℚ)} (length : xs.length = n) (has : From d xs)
    (positive : 1 ≤ d) (back : Nat) : ((Value.ofNumbers xs).shift back).Numbers n (back + d) := by
  rw [shift_ofNumbers]
  exact numbers_ofNumbers (by simpa using length) (has.shift back positive)

/-- Numbers on the last bar, if the history is long enough. -/
theorem Value.Numbers.last (numbers : v.Numbers (n + 1) d) : v.last.missing = false ↔ d ≤ n + 1 := by
  cases v with
  | const c =>
    obtain ⟨rfl, x, rfl⟩ := numbers
    simp [Value.last, Cell.missing]
  | series cells =>
    obtain ⟨xs, rfl, length, has⟩ := numbers
    rw [last_series (by simpa using length), List.getElem_map, Cell.missing_ofNumber]
    exact has.last length

theorem Value.Flags.last (flags : v.Flags (n + 1)) : ∃ b, v.last = .flag b := by
  cases v with
  | const c => exact flags
  | series cells =>
    obtain ⟨bs, rfl, length⟩ := flags
    exact ⟨bs[n], by rw [last_series (by simpa using length), List.getElem_map]⟩

end Values

/-! ## Operators -/

section Operators

variable {n d e : Nat} {v w : Value}

/-- An operator but division, on numbers that may be missing. -/
def ArithOp.partial_ (op : ArithOp) (x y : Option ℚ) : Option ℚ := x.bind fun a => y.bind fun b => op.apply a b

theorem ArithOp.cells_ofNumber (op : ArithOp) (x y : Option ℚ) :
    op.cells (Cell.ofNumber x) (Cell.ofNumber y) = Cell.ofNumber (op.partial_ x y) := by
  cases x <;> cases y <;> rfl

theorem ArithOp.isSome_partial {op : ArithOp} (noDiv : op ≠ .div) (x y : Option ℚ) :
    (op.partial_ x y).isSome ↔ x.isSome ∧ y.isSome := by
  cases x <;> cases y <;> cases op <;> simp_all [ArithOp.partial_, ArithOp.apply]

theorem Value.Numbers.map₂ {op : ArithOp} (noDiv : op ≠ .div) (left : v.Numbers n d)
    (right : w.Numbers n e) : (Value.map₂ op.cells v w).Numbers n (max d e) := by
  have defined := ArithOp.isSome_partial noDiv
  cases v with
  | const c =>
    obtain ⟨rfl, x, rfl⟩ := left
    cases w with
    | const c' =>
      obtain ⟨rfl, y, rfl⟩ := right
      obtain ⟨z, result⟩ := Option.isSome_iff_exists.mp ((defined (some x) (some y)).mpr ⟨rfl, rfl⟩)
      exact ⟨rfl, z, (op.cells_ofNumber (some x) (some y)).trans (congrArg Cell.ofNumber result)⟩
    | series cells =>
      obtain ⟨ys, rfl, length, has⟩ := right
      refine ⟨ys.map (op.partial_ (some x)), ?_, by simpa using length, ?_⟩
      · simp only [List.map_map]
        exact List.map_congr_left fun y _ => op.cells_ofNumber (some x) y
      · rw [Nat.zero_max]
        exact has.map fun y => by simp [defined]
  | series cells =>
    obtain ⟨xs, rfl, length, has⟩ := left
    cases w with
    | const c' =>
      obtain ⟨rfl, y, rfl⟩ := right
      refine ⟨xs.map fun x => op.partial_ x (some y), ?_, by simpa using length, ?_⟩
      · simp only [List.map_map]
        exact List.map_congr_left fun x _ => op.cells_ofNumber x (some y)
      · rw [Nat.max_zero]
        exact has.map fun x => by simp [defined]
    | series cells' =>
      obtain ⟨ys, rfl, length', has'⟩ := right
      refine ⟨List.zipWith op.partial_ xs ys, ?_, by simp [length, length'], has.map₂ defined has'⟩
      simp only [List.zipWith_map, List.map_zipWith, ArithOp.cells_ofNumber]

theorem Value.Numbers.negated (numbers : v.Numbers n d) :
    (v.map fun c => Cell.ofNumber (c.number.map fun x => -x)).Numbers n d := by
  cases v with
  | const c =>
    obtain ⟨rfl, x, rfl⟩ := numbers
    exact ⟨rfl, -x, rfl⟩
  | series cells =>
    obtain ⟨xs, rfl, length, has⟩ := numbers
    refine ⟨xs.map (Option.map fun x => -x), ?_, by simpa using length, has.map fun x => by simp⟩
    simp only [List.map_map]
    exact List.map_congr_left fun x _ => by simp [Cell.number_ofNumber]

theorem Value.Flags.map₂ (f : Cell → Cell → Bool) (left : v.Sized n) (right : w.Sized n) :
    (Value.map₂ (fun c d => .flag (f c d)) v w).Flags n := by
  have sized := left.map₂ (fun c d => Cell.flag (f c d)) right
  cases v <;> cases w
  · exact ⟨_, rfl⟩
  · exact ⟨_, (List.map_map ..).symm, by simpa [Value.map₂, Value.Sized] using sized⟩
  · exact ⟨_, (List.map_map ..).symm, by simpa [Value.map₂, Value.Sized] using sized⟩
  · exact ⟨_, (List.map_zipWith ..).symm, by simpa [Value.map₂, Value.Sized] using sized⟩

end Operators

end AdvanceTrading.Screener
