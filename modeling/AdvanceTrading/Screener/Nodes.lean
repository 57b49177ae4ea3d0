import AdvanceTrading.Misc.Numerals

/-!
# ScreenQL nodes

Model of `app/screener/nodes.py`: the tree, its canonical text and its JSON form.
Texts are lists of characters. The operators are of their kinds by type (a unary
operator is always a minus); positions, which no comparison reads, are left out.
-/

namespace AdvanceTrading.Screener

open Py (Double)

/-- A text of the query language. -/
abbrev Text := List Char

/-- `TIMEFRAMES`. -/
inductive Timeframe where
  | m1 | m3 | m5 | m15 | m30 | h1 | d1 | w1 | mo1
  deriving DecidableEq, Repr

/-- `ARITH_OPS`. -/
inductive ArithOp where
  | add | sub | mul | div
  deriving DecidableEq, Repr

/-- `COMPARE_OPS`. -/
inductive CompareOp where
  | gt | ge | lt | le | eq | ne
  deriving DecidableEq, Repr

/-- ALL or ANY: AND or OR in the text. -/
inductive Group where
  | all | any
  deriving DecidableEq, Repr

/-- A node; a field's or call's offset counts bars back, and no timeframe is the screen's own. -/
inductive Node where
  | num (value : Double)
  | str (value : Text)
  | bool (value : Bool)
  | param (name : Text)
  | field (name : Text) (offset : Int) (tf : Option Timeframe)
  | call (name : Text) (args : List Node) (kwargs : List (Text × Node)) (offset : Int)
      (tf : Option Timeframe)
  | unary (operand : Node)
  | binary (op : ArithOp) (left right : Node)
  | compare (op : CompareOp) (left right : Node)
  | between (value low high : Node)
  | isIn (value : Node) (items : List Node)
  | logic (op : Group) (items : List Node)
  | not (item : Node)

/-! ## Texts of the small parts -/

def Timeframe.text : Timeframe → Text
  | .m1 => ['1', 'm']
  | .m3 => ['3', 'm']
  | .m5 => ['5', 'm']
  | .m15 => ['1', '5', 'm']
  | .m30 => ['3', '0', 'm']
  | .h1 => ['1', 'h']
  | .d1 => ['1', 'd']
  | .w1 => ['1', 'w']
  | .mo1 => ['1', 'M']

def ArithOp.text : ArithOp → Text
  | .add => ['+']
  | .sub => ['-']
  | .mul => ['*']
  | .div => ['/']

def CompareOp.text : CompareOp → Text
  | .gt => ['>']
  | .ge => ['>', '=']
  | .lt => ['<']
  | .le => ['<', '=']
  | .eq => ['=', '=']
  | .ne => ['!', '=']

/-- `str` of a whole number. -/
def intText (n : Int) : Text :=
  if n < 0 then '-' :: Nat.toDigits 10 n.natAbs else Nat.toDigits 10 n.natAbs

/-! ## Canonical text -/

/-- The numeral of a magnitude: a whole number below 1e15 without a point, else its `repr`. -/
def magnitudeNumeral (x : Py.Finite) : Py.Numeral :=
  if plain : x.value.den = 1 ∧ |x.value| < 10 ^ 15 then { whole := Nat.toDigits 10 x.value.num.natAbs }
  else
    Py.reprNumeral x.magnitude (by
      show 0 < |x.value|
      rw [abs_pos]
      intro zero
      rw [zero] at plain
      norm_num at plain)

/-- `_num`. -/
def numText : Double → Text
  | .finite x => (if x.value < 0 then ['-'] else []) ++ (magnitudeNumeral x).text
  | .infinite negative => (if negative then ['-'] else []) ++ ['i', 'n', 'f']

/-- `_suffix`. -/
def suffix (offset : Int) (tf : Option Timeframe) : Text :=
  (if offset = 0 then [] else '[' :: intText offset ++ [']']) ++
    tf.elim [] fun tf => '@' :: tf.text

/-- `_PREC` of an operator. -/
def ArithOp.prec : ArithOp → Nat
  | .add | .sub => 5
  | .mul | .div => 6

/-- `_prec`. -/
def Node.prec : Node → Nat
  | .logic .any _ => 1
  | .logic .all _ => 2
  | .not _ => 3
  | .compare .. | .between .. | .isIn .. => 4
  | .binary op _ _ => op.prec
  | .unary _ => 7
  | _ => 8

/-- A text in brackets. -/
def bracketed (text : Text) : Text := '(' :: text ++ [')']

/-- `_wrap` of a text whose node binds at `prec`. -/
def wrap (minimum prec : Nat) (text : Text) : Text :=
  if prec < minimum then bracketed text else text

/-- `separator.join(parts)`. -/
def join (separator : Text) : List Text → Text
  | [] => []
  | [part] => part
  | part :: rest => part ++ separator ++ join separator rest

/-- The word between the items of a group. -/
def Group.word : Group → Text
  | .any => [' ', 'O', 'R', ' ']
  | .all => [' ', 'A', 'N', 'D', ' ']

/-- What an item of a group binds at, at the least. -/
def Group.minimum : Group → Nat
  | .any => 2
  | .all => 3

/-- A string literal with its backslashes and quotes escaped. -/
def quoted (value : Text) : Text :=
  '"' :: value.flatMap (fun c => if c = '\\' ∨ c = '"' then ['\\', c] else [c]) ++ ['"']

mutual

/-- `to_text`. -/
def Node.toText : Node → Text
  | .num value => numText value
  | .str value => quoted value
  | .bool value => if value then ['T', 'R', 'U', 'E'] else ['F', 'A', 'L', 'S', 'E']
  | .param name => '$' :: name
  | .field name offset tf => name ++ suffix offset tf
  | .call name args kwargs offset tf =>
      name ++ bracketed (join [',', ' '] (textsOf 0 args ++ kwargTexts kwargs)) ++ suffix offset tf
  | .unary (.num value) => '-' :: bracketed (numText value)
  | .unary operand => '-' :: wrap 7 operand.prec operand.toText
  | .binary op left right =>
      wrap op.prec left.prec left.toText ++ ' ' :: op.text ++
        ' ' :: wrap (op.prec + 1) right.prec right.toText
  | .compare op left right =>
      wrap 5 left.prec left.toText ++ ' ' :: op.text ++ ' ' :: wrap 5 right.prec right.toText
  | .between value low high =>
      wrap 5 value.prec value.toText ++ [' ', 'B', 'E', 'T', 'W', 'E', 'E', 'N', ' '] ++
        wrap 5 low.prec low.toText ++ [' ', 'A', 'N', 'D', ' '] ++ wrap 5 high.prec high.toText
  | .isIn value items =>
      wrap 5 value.prec value.toText ++ [' ', 'I', 'N', ' '] ++
        bracketed (join [',', ' '] (textsOf 0 items))
  | .logic op items => join op.word (textsOf op.minimum items)
  | .not item => ['N', 'O', 'T', ' '] ++ wrap 3 item.prec item.toText

/-- The items' texts, each wrapped where it binds below `minimum`. -/
def textsOf (minimum : Nat) : List Node → List Text
  | [] => []
  | item :: rest => wrap minimum item.prec item.toText :: textsOf minimum rest

/-- The texts of named arguments. -/
def kwargTexts : List (Text × Node) → List Text
  | [] => []
  | (key, value) :: rest => (key ++ '=' :: value.toText) :: kwargTexts rest

end

end AdvanceTrading.Screener
