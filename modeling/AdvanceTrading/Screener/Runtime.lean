import AdvanceTrading.Screener.Bars
import Mathlib.Data.Char
import Mathlib.Data.List.Lex

/-!
# The runtime

Model of the evaluator of `app/screener/runtime.py:188-312` and of its operators
(`:1302-1341`, `:1393-1396`, `:1495-1497`). The functions of `impl` are a
parameter: a function of the frame a call reads and of its arguments' values. An
operand of a type the validator refuses there gives a missing value. The constants
of cross-sectional calls and the memo of a funnel are left out.
-/

namespace AdvanceTrading.Screener

open Py (Double)

/-! ## Values -/

/-- One value: `None`, NaN, a number, a text or a truth value. -/
inductive Cell where
  | absent
  | nan
  | num (x : ℚ)
  | text (value : Text)
  | flag (value : Bool)
  deriving DecidableEq

namespace Cell

/-- `isna`. -/
def missing : Cell → Bool
  | absent | nan => true
  | num _ | text _ | flag _ => false

/-- `bool(v)`, true of NaN. -/
def truthy : Cell → Bool
  | absent => false
  | nan => true
  | num x => x ≠ 0
  | text value => value ≠ []
  | flag value => value

/-- `_as_bool` of a value in a series. -/
def asBool (c : Cell) : Bool := if c.missing then false else c.truthy

def number : Cell → Option ℚ
  | num x => some x
  | flag value => some (if value then 1 else 0)
  | absent | nan | text _ => none

/-- A number that may be missing. -/
def ofNumber : Option ℚ → Cell
  | some x => num x
  | none => nan

/-- `==`. -/
def same (c d : Cell) : Bool :=
  match c.number, d.number with
  | some x, some y => x = y
  | some _, none | none, some _ => false
  | none, none => !c.missing && c = d

end Cell

/-- A constant, or one symbol's series over the bars of a frame. -/
inductive Value where
  | const (c : Cell)
  | series (cells : List Cell)
  deriving DecidableEq

/-! ## Operators -/

/-- An operator on numbers; no result where a division is by zero. -/
def ArithOp.apply : ArithOp → ℚ → ℚ → Option ℚ
  | .add, x, y => some (x + y)
  | .sub, x, y => some (x - y)
  | .mul, x, y => some (x * y)
  | .div, x, y => if y = 0 then none else some (x / y)

/-- Arithmetic of two values. -/
def ArithOp.cells (op : ArithOp) (c d : Cell) : Cell :=
  match c.number, d.number with
  | some x, some y => Cell.ofNumber (op.apply x y)
  | _, _ => .nan

def CompareOp.holds {α : Type*} [LinearOrder α] : CompareOp → α → α → Bool
  | .gt, x, y => y < x
  | .ge, x, y => y ≤ x
  | .lt, x, y => x < y
  | .le, x, y => x ≤ y
  | .eq, x, y => x = y
  | .ne, x, y => x ≠ y

/-- A comparison of two values, false where one is missing. -/
def CompareOp.cells (op : CompareOp) (c d : Cell) : Bool :=
  if c.missing || d.missing then false
  else
    match c.number, d.number, c, d with
    | some x, some y, _, _ => op.holds x y
    | _, _, .text v, .text w => op.holds v w
    | _, _, _, _ => op = .ne

namespace Value

/-- A unary operation on each value. -/
def map (f : Cell → Cell) : Value → Value
  | const c => const (f c)
  | series cells => series (cells.map f)

/-- A binary operation on the values of each bar. -/
def map₂ (f : Cell → Cell → Cell) : Value → Value → Value
  | const c, const d => const (f c d)
  | const c, series ds => series (ds.map fun d => f c d)
  | series cs, const d => series (cs.map fun c => f c d)
  | series cs, series ds => series (List.zipWith f cs ds)

/-- `_cmp`. -/
def cmp (op : CompareOp) (v w : Value) : Value :=
  if v = const .absent ∨ w = const .absent then const (.flag false)
  else map₂ (fun c d => .flag (op.cells c d)) v w

/-- `_and` and `_or`: a constant counts as `bool` says, a missing value of a series as false. -/
def connect (f : Bool → Bool → Bool) : Value → Value → Value
  | const c, const d => const (.flag (f c.truthy d.truthy))
  | const c, series ds => series (ds.map fun d => .flag (f c.truthy d.asBool))
  | series cs, const d => series (cs.map fun c => .flag (f c.asBool d.truthy))
  | series cs, series ds => series (List.zipWith (fun c d => .flag (f c.asBool d.asBool)) cs ds)

/-- NOT. -/
def negate : Value → Value
  | const c => const (.flag !c.truthy)
  | series cells => series (cells.map fun c => .flag !c.asBool)

/-- IN. -/
def isIn (items : List Cell) : Value → Value
  | const c => const (.flag (c ≠ .absent && items.any c.same))
  | series cells => series (cells.map fun c => .flag (items.any c.same))

/-- `shift`: bars back for a positive offset, bars ahead for a negative one. -/
def shift (offset : Int) : Value → Value
  | const c => const c
  | series cells =>
      series <|
        if 0 ≤ offset then (List.replicate offset.toNat Cell.nan ++ cells).take cells.length
        else (cells ++ List.replicate offset.natAbs Cell.nan).drop offset.natAbs

def isConst : Value → Bool
  | const _ => true
  | series _ => false

/-- The value at a bar. -/
def at_ (k : Nat) : Value → Cell
  | const c => c
  | series cells => cells.getD k .nan

/-- `_last`. -/
def last : Value → Cell
  | const c => c
  | series cells => cells.getLast?.getD .nan

end Value

/-- ALL or ANY, as an operation on truth values. -/
def Group.connective : Group → Bool → Bool → Bool
  | .all => and
  | .any => or

/-! ## Frames by timeframe -/

/-- Evaluations build frames on the way, and may raise. -/
abbrev Eval (clock : Clock) := StateT (Frames clock) (Except Failure)

/-- The functions of `impl`: what a call gives for its frame, arguments and named arguments. -/
abbrev Library (clock : Clock) :=
  Text → (tf : Timeframe) → Frame clock tf → List Value → List (Text × Value) → Except Failure Value

/-- What an evaluation does not change. -/
structure Setting (clock : Clock) where
  baseTf : Timeframe
  params : Text → Option Cell
  library : Library clock

/-- The columns by their names. -/
def Column.ofName (name : Text) : Option Column :=
  match String.ofList name with
  | "open" => some .open_
  | "high" => some .high
  | "low" => some .low
  | "close" => some .close
  | "volume" => some .volume
  | "oi" => some .oi
  | _ => none

/-- A field of a frame, missing throughout where the frame has no such column. -/
def Frame.field {clock : Clock} {tf : Timeframe} (frame : Frame clock tf) (name : Text) : Value :=
  match Column.ofName name with
  | some c => .series ((frame.column c).map Cell.ofNumber)
  | none => .series (frame.rows.map fun _ => .nan)

/-- The last value there is of those known by `t`. -/
def lastKnown (t : Int) (known : List (Int × Cell)) : Cell :=
  ((known.filter fun e => e.1 ≤ t && !e.2.missing).map Prod.snd).getLast?.getD .nan

/-- A series of one frame on the bars of another, by when bars close. The closes of a frame increase,
so no two values are known from the same instant on. -/
def Frame.aligned {clock : Clock} {src dst : Timeframe} (from_ : Frame clock src) (cells : List Cell)
    (onto : Frame clock dst) : List Cell :=
  onto.rows.map fun row =>
    lastKnown (barClose clock dst row.start)
      ((from_.rows.map fun r => barClose clock src r.start).zip cells)

namespace Setting

variable {clock : Clock} (setting : Setting clock)

/-- The frame `tf` is built from, resampled: daily bars for weeks and months of an intraday screen
where there are some. -/
def build (frames : Frames clock) (tf : Timeframe) : Except Failure (Frame clock tf) :=
  let onBase := match frames setting.baseTf with
    | some base => base.resample tf
    | none => .error (.noBars setting.baseTf)
  if setting.baseTf.minutes < Timeframe.d1.minutes ∧ Timeframe.d1.minutes < tf.minutes then
    match frames .d1 with
    | some daily => daily.resample tf
    | none => onBase
  else onBase

/-- `_Eval.frame`. -/
def frame (tf : Timeframe) : Eval clock (Frame clock tf) := do
  let frames ← get
  match frames tf with
  | some given => return given
  | none =>
      let built ← liftM (setting.build frames tf)
      set (Function.update frames tf (some built))
      return built

/-- `_Eval.align`. -/
def align (value : Value) (src dst : Timeframe) : Eval clock Value :=
  match value with
  | .const c => return .const c
  | .series cells =>
      if src = dst then return .series cells
      else do
        let from_ ← setting.frame src
        let onto ← setting.frame dst
        return .series (from_.aligned cells onto)

end Setting

/-- The items of IN are literals and parameters. -/
def listed : List Value → Except Failure (List Cell)
  | [] => .ok []
  | .const c :: rest => (listed rest).map (c :: ·)
  | .series _ :: _ => .error .listedSeries

/-- A literal number; the validator refuses one that is not finite. -/
def literal : Double → Cell
  | .finite x => .num x.value
  | .infinite _ => .nan

section Evaluate

variable {clock : Clock} (setting : Setting clock)

mutual

/-- `_Eval.ev`. -/
def Node.ev : Node → Timeframe → Eval clock Value
  | .num value, _ => return .const (literal value)
  | .str value, _ => return .const (.text value)
  | .bool value, _ => return .const (.flag value)
  | .param name, _ =>
      match setting.params name with
      | some c => return .const c
      | none => throw (.missingParam name)
  | .field name offset own, tf => do
      let frame ← setting.frame (own.getD tf)
      setting.align ((frame.field name).shift offset) (own.getD tf) tf
  | .call name args kwargs offset own, tf => do
      let frame ← setting.frame (own.getD tf)
      let values ← evAll args (own.getD tf)
      let named ← evNamed kwargs (own.getD tf)
      let value ← liftM (setting.library name (own.getD tf) frame values named)
      setting.align (value.shift offset) (own.getD tf) tf
  | .unary operand, tf => do
      let v ← operand.ev tf
      return v.map fun c => Cell.ofNumber (c.number.map fun x => -x)
  | .binary op left right, tf => do
      let v ← left.ev tf
      let w ← right.ev tf
      return Value.map₂ op.cells v w
  | .compare op left right, tf => do
      let v ← left.ev tf
      let w ← right.ev tf
      return Value.cmp op v w
  | .between value low high, tf => do
      let v ← value.ev tf
      let lo ← low.ev tf
      let hi ← high.ev tf
      return Value.connect and (Value.cmp .ge v lo) (Value.cmp .le v hi)
  | .isIn value items, tf => do
      let v ← value.ev tf
      let cells ← evAll items tf
      let literals ← liftM (listed cells)
      return v.isIn literals
  | .logic op items, tf => do
      let parts ← evAll items tf
      match parts with
      | [] => throw .emptyGroup
      | first :: rest => return rest.foldl (Value.connect op.connective) first
  | .not item, tf => do
      let v ← item.ev tf
      return v.negate

/-- The values of some nodes, from left to right. -/
def evAll : List Node → Timeframe → Eval clock (List Value)
  | [], _ => return []
  | node :: rest, tf => do
      let v ← node.ev tf
      let vs ← evAll rest tf
      return v :: vs

/-- The values of named arguments. -/
def evNamed : List (Text × Node) → Timeframe → Eval clock (List (Text × Value))
  | [], _ => return []
  | (key, node) :: rest, tf => do
      let v ← node.ev tf
      let vs ← evNamed rest tf
      return (key, v) :: vs

end

/-- `evaluate` on the frames of a symbol, once it has bars of the base timeframe. -/
def evaluate (node : Node) (frames : Frames clock) : Except Failure Value :=
  match frames setting.baseTf with
  | some base =>
      if base.rows = [] then .error (.noBars setting.baseTf)
      else (node.ev setting setting.baseTf frames).map Prod.fst
  | none => .error (.noBars setting.baseTf)

end Evaluate

end AdvanceTrading.Screener
