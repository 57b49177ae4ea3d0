import AdvanceTrading.Misc.Descent
import AdvanceTrading.Screener.Nodes

/-!
# The ScreenQL parser

Model of `app/screener/parser.py`: the tokens of a text and the recursive descent
over them. A parser is given those it calls; `Grammar` is what a level of nesting
offers the level above it, and there are as many levels as the depth counter
allows. The source assigns a node its offset and its timeframe, an assignment over
an earlier one dropping it: here a node keeps the suffixes it was given, in order
(`Written`), and its offset and its timeframe are the last of each kind
(`Written.node`). Messages are constructors with the texts they quote.
-/

namespace AdvanceTrading.ScreenQL

open Screener (Text Node Timeframe ArithOp CompareOp Group)

/-! ## Tokens -/

/-- `KEYWORDS`. -/
inductive Keyword where
  | and | or | not | between | in_ | true_ | false_
  deriving DecidableEq

inductive Op where
  | compare (op : CompareOp)
  | arith (op : ArithOp)
  | openParen | closeParen | comma | openBracket | closeBracket | assign
  deriving DecidableEq

/-- What a token is; the texts of strings, parameters and names are the token's. -/
inductive Kind where
  | num (numeral : Py.Numeral)
  | str
  | param
  | name
  | kw (word : Keyword)
  | tf (tf : Timeframe)
  | op (op : Op)
  | eof
  deriving DecidableEq

/-- `Tok`. -/
structure Tok where
  kind : Kind
  text : Text
  pos : Nat
  deriving DecidableEq

/-- The texts of `ScreenQLSyntaxError`. -/
inductive Message where
  | empty
  | tooLong
  | unknownTimeframe
  | unexpectedCharacter (c : Char)
  | expected (what found : Text)
  | tooDeep
  | unexpected (found : Text)
  | notLiteral (found : Text)
  | timeframeTwice
  | offsetTwice
  | negativeOffset
  | offsetDigits
  | suffixMisplaced
  | argumentTwice (key : Text)
  | positionalAfterNamed
  | noCondition (group : Text)
  | noValue (found : Text)
  deriving DecidableEq

/-- `ScreenQLSyntaxError`. -/
structure SyntaxError where
  message : Message
  pos : Nat
  deriving DecidableEq

def maxText : Nat := 4000

def maxDepth : Nat := 60

/-- `[A-Za-z_]`. -/
def nameStart (c : Char) : Bool := c.isAlpha || c == '_'

/-- `[A-Za-z0-9_]`. -/
def nameChar (c : Char) : Bool := nameStart c || c.isDigit

/-- The keyword a name is, in any case. -/
def Keyword.of (name : Text) : Option Keyword :=
  match name.map Char.toUpper with
  | ['A', 'N', 'D'] => some .and
  | ['O', 'R'] => some .or
  | ['N', 'O', 'T'] => some .not
  | ['B', 'E', 'T', 'W', 'E', 'E', 'N'] => some .between
  | ['I', 'N'] => some .in_
  | ['T', 'R', 'U', 'E'] => some .true_
  | ['F', 'A', 'L', 'S', 'E'] => some .false_
  | _ => none

/-- Digits after a point: the fraction and what is left. -/
def fractionOf : Text → Text × Text
  | '.' :: after =>
      match after.takeWhile Py.isDecimal with
      | [] => ([], '.' :: after)
      | frac => (frac, after.drop frac.length)
  | text => ([], text)

/-- The sign of an exponent and what is left. -/
def signOf : Text → Bool × Text
  | '-' :: after => (true, after)
  | '+' :: after => (false, after)
  | text => (false, text)

/-- An exponent and what is left. -/
def exponentOf : Text → Option (Bool × Text) × Text
  | [] => (none, [])
  | e :: after =>
      if e = 'e' ∨ e = 'E' then
        match (signOf after).2.takeWhile Py.isDecimal with
        | [] => (none, e :: after)
        | digits => (some ((signOf after).1, digits), (signOf after).2.drop digits.length)
      else (none, e :: after)

/-- `num`: the numeral and how long it is. -/
def numeralOf (text : Text) : Option (Py.Numeral × Nat) :=
  match text.takeWhile Py.isDecimal with
  | [] => none
  | whole =>
      let (frac, rest) := fractionOf (text.drop whole.length)
      let (exp, left) := exponentOf rest
      some ({ whole, frac, exp }, text.length - left.length)

/-- How long a string is after its opening quote, its closing quote included. -/
def stringLength : Text → Option Nat
  | [] => none
  | '"' :: _ => some 1
  | ['\\'] => none
  | '\\' :: c :: rest => if c = '\n' then none else (stringLength rest).map (· + 2)
  | _ :: rest => (stringLength rest).map (· + 1)

def timeframes : List Timeframe := [.m1, .m3, .m5, .m15, .m30, .h1, .d1, .w1, .mo1]

/-- `tf`: the timeframe after an `@`. -/
def timeframeOf (text : Text) : Option Timeframe :=
  timeframes.find? fun tf =>
    tf.text.isPrefixOf text && !((text.drop tf.text.length).head?.any nameChar)

/-- `op`: the operator and how long it is. -/
def opOf : Text → Option (Op × Nat)
  | '>' :: '=' :: _ => some (.compare .ge, 2)
  | '<' :: '=' :: _ => some (.compare .le, 2)
  | '=' :: '=' :: _ => some (.compare .eq, 2)
  | '!' :: '=' :: _ => some (.compare .ne, 2)
  | '>' :: _ => some (.compare .gt, 1)
  | '<' :: _ => some (.compare .lt, 1)
  | '+' :: _ => some (.arith .add, 1)
  | '-' :: _ => some (.arith .sub, 1)
  | '*' :: _ => some (.arith .mul, 1)
  | '/' :: _ => some (.arith .div, 1)
  | '(' :: _ => some (.openParen, 1)
  | ')' :: _ => some (.closeParen, 1)
  | ',' :: _ => some (.comma, 1)
  | '[' :: _ => some (.openBracket, 1)
  | ']' :: _ => some (.closeBracket, 1)
  | '=' :: _ => some (.assign, 1)
  | _ => none

/-- `_TOKEN.match`: the kind of the token at the front, none of a blank, and how long it is. -/
def matchToken : Text → Option (Option Kind × Nat)
  | [] => none
  | c :: rest =>
      if Py.isBlank c then some (none, ((c :: rest).takeWhile Py.isBlank).length)
      else
        match numeralOf (c :: rest) with
        | some (numeral, length) => some (some (.num numeral), length)
        | none =>
            if c = '"' then (stringLength rest).map fun length => (some .str, length + 1)
            else if c = '$' ∧ rest.head?.any nameStart then some (some .param, (rest.takeWhile nameChar).length + 1)
            else if nameStart c then
              let name := (c :: rest).takeWhile nameChar
              some (some ((Keyword.of name).elim .name .kw), name.length)
            else if c = '@' then (timeframeOf rest).map fun tf => (some (.tf tf), tf.text.length + 1)
            else (opOf (c :: rest)).map fun (op, length) => (some (.op op), length)

/-- A keyword's text is its upper case. -/
def textOf (kind : Kind) (text : Text) : Text :=
  match kind with
  | .kw _ => text.map Char.toUpper
  | _ => text

/-- The loop of `tokenize` at `pos`; `skip` characters belong to the last match. -/
def tokensFrom : Nat → Nat → Text → Except SyntaxError (List Tok)
  | pos, _, [] => .ok [⟨.eof, [], pos⟩]
  | pos, skip + 1, _ :: rest => tokensFrom (pos + 1) skip rest
  | pos, 0, c :: rest =>
      match matchToken (c :: rest) with
      | none => .error ⟨if c = '@' then .unknownTimeframe else .unexpectedCharacter c, pos⟩
      | some (none, length) => tokensFrom (pos + 1) (length - 1) rest
      | some (some kind, length) =>
          (tokensFrom (pos + 1) (length - 1) rest).map (⟨kind, textOf kind ((c :: rest).take length), pos⟩ :: ·)

/-- `tokenize`. -/
def tokenize (text : Text) : Except SyntaxError (List Tok) :=
  if maxText < text.length then .error ⟨.tooLong, maxText⟩ else tokensFrom 0 0 text

/-! ## The tree as it is written -/

/-- What follows a field or a call. -/
inductive Suffix where
  | offset (n : Nat)
  | tf (tf : Timeframe)
  deriving DecidableEq

/-- A node with the suffixes it was given. -/
inductive Written where
  | num (value : Py.Double)
  | str (value : Text)
  | bool (value : Bool)
  | param (name : Text)
  | field (name : Text) (given : List Suffix)
  | call (name : Text) (args : List Written) (kwargs : List (Text × Written)) (given : List Suffix)
  | unary (operand : Written)
  | binary (op : ArithOp) (left right : Written)
  | compare (op : CompareOp) (left right : Written)
  | between (value low high : Written)
  | isIn (value : Written) (items : List Written)
  | logic (op : Group) (items : List Written)
  | not (item : Written)

/-- The suffixes of a field or a call. -/
def Written.given : Written → Option (List Suffix)
  | .field _ given | .call _ _ _ given => some given
  | _ => none

/-- `node.offset = ...` or `node.tf = ...`. -/
def Written.give (suffix : Suffix) : Written → Written
  | .field name given => .field name (given ++ [suffix])
  | .call name args kwargs given => .call name args kwargs (given ++ [suffix])
  | node => node

/-- The offset that was assigned last; 0 where none was. -/
def offsetOf (given : List Suffix) : Nat :=
  given.foldl (fun n suffix => match suffix with | .offset m => m | .tf _ => n) 0

/-- The timeframe that was assigned last. -/
def tfOf (given : List Suffix) : Option Timeframe :=
  given.foldl (fun tf suffix => match suffix with | .tf x => some x | .offset _ => tf) none

mutual

/-- The node the source builds. -/
def Written.node : Written → Node
  | .num value => .num value
  | .str value => .str value
  | .bool value => .bool value
  | .param name => .param name
  | .field name given => .field name (offsetOf given) (tfOf given)
  | .call name args kwargs given => .call name (nodesOf args) (kwargNodes kwargs) (offsetOf given) (tfOf given)
  | .unary operand => .unary operand.node
  | .binary op left right => .binary op left.node right.node
  | .compare op left right => .compare op left.node right.node
  | .between value low high => .between value.node low.node high.node
  | .isIn value items => .isIn value.node (nodesOf items)
  | .logic op items => .logic op (nodesOf items)
  | .not item => .not item.node

def nodesOf : List Written → List Node
  | [] => []
  | item :: rest => item.node :: nodesOf rest

def kwargNodes : List (Text × Written) → List (Text × Node)
  | [] => []
  | (key, value) :: rest => (key, value.node) :: kwargNodes rest

end

/-! ## The parsers -/

abbrev Parser (α : Type) := Descent Tok SyntaxError α

/-- `self.tok`. -/
def tok : Parser Tok := Descent.look ⟨.eof, [], 0⟩

/-- An error at the next token. -/
def failHere {α : Type} (message : Message) : Parser α := do Descent.fail ⟨message, (← tok).pos⟩

/-- `_is` and `_next`: take the next token where it is of the kind. -/
def takeIf (kind : Kind) : Parser (Option Tok) := Descent.accept fun t => if t.kind = kind then some t else none

/-- `found`. -/
def found (t : Tok) : Text := if t.text = [] then "end of screen".toList else t.text

/-- `_expect`. -/
def expect (kind : Kind) (what : Text) : Parser Unit := do
  match ← takeIf kind with
  | some _ => pure ()
  | none =>
      let t ← tok
      Descent.fail ⟨.expected what (found t), t.pos⟩

/-- What one level of nesting offers the level above it. -/
structure Grammar where
  orExpr : Parser Written
  andExpr : Parser Written
  notExpr : Parser Written
  unary : Parser Written

/-- `_enter`: inside is a level deeper, if there is one. -/
def enter {α : Type} (deeper : Option Grammar) (inside : Grammar → Parser α) : Parser α :=
  match deeper with
  | none => failHere .tooDeep
  | some g => inside g

/-- A group of one is that one. -/
def groupOf (op : Group) : List Written → Written
  | [item] => item
  | items => .logic op items

section

variable (deeper : Option Grammar)

/-- `or_expr`. -/
def orExpr : Parser Written := enter deeper fun g => do
  let first ← g.andExpr
  let items ← Descent.whileSome (takeIf (.kw .or)) (fun items _ => do return items ++ [← g.andExpr]) [first]
  return groupOf .any items

/-- `and_expr`. -/
def andExpr (notExpr : Parser Written) : Parser Written := do
  let first ← notExpr
  let items ← Descent.whileSome (takeIf (.kw .and)) (fun items _ => do return items ++ [← notExpr]) [first]
  return groupOf .all items

/-- `not_expr`. -/
def notExpr (comparison : Parser Written) : Parser Written := do
  match ← takeIf (.kw .not) with
  | some _ => enter deeper fun g => do return .not (← g.notExpr)
  | none => comparison

/-- An operator of `COMPARE_OPS`. -/
def Tok.compareOp (t : Tok) : Option CompareOp :=
  match t.kind with
  | .op (.compare op) => some op
  | _ => none

/-- `comparison`. -/
def comparison (additive literal : Parser Written) : Parser Written := do
  let left ← additive
  match ← Descent.accept Tok.compareOp with
  | some op => return .compare op left (← additive)
  | none =>
      match ← takeIf (.kw .between) with
      | some _ => do
          let low ← additive
          expect (.kw .and) "AND (in BETWEEN low AND high)".toList
          return .between left low (← additive)
      | none =>
          match ← takeIf (.kw .in_) with
          | some _ => do
              expect (.op .openParen) ['(']
              let first ← literal
              let items ← Descent.whileSome (takeIf (.op .comma))
                  (fun items _ => do return items ++ [← literal]) [first]
              expect (.op .closeParen) [')']
              return .isIn left items
          | none => return left

/-- The value of a numeral. -/
def Tok.numeral (t : Tok) : Option Py.Numeral :=
  match t.kind with
  | .num numeral => some numeral
  | _ => none

/-- A minus and a numeral after it. -/
def negative (t u : Tok) : Option Py.Numeral := if t.kind = .op (.arith .sub) then u.numeral else none

/-- `re.sub(r"\\(.)", r"\1", ...)`. -/
def unescape : Text → Text
  | '\\' :: c :: rest => c :: unescape rest
  | c :: rest => c :: unescape rest
  | [] => []

/-- A literal or a parameter. -/
def Tok.value (t : Tok) : Option Written :=
  match t.kind with
  | .num numeral => some (.num numeral.read)
  | .str => some (.str (unescape (t.text.drop 1).dropLast))
  | .kw .true_ => some (.bool true)
  | .kw .false_ => some (.bool false)
  | .param => some (.param (t.text.drop 1))
  | _ => none

/-- `literal`. -/
def literal (primary : Parser Written) : Parser Written := do
  match ← Descent.acceptTwo negative with
  | some numeral => return .num numeral.read.neg
  | none =>
      let t ← tok
      if t.value.isSome then primary else Descent.fail ⟨.notLiteral t.text, t.pos⟩

/-- A plus or a minus. -/
def Tok.addOp (t : Tok) : Option ArithOp :=
  match t.kind with
  | .op (.arith .add) => some .add
  | .op (.arith .sub) => some .sub
  | _ => none

/-- A times or a slash. -/
def Tok.mulOp (t : Tok) : Option ArithOp :=
  match t.kind with
  | .op (.arith .mul) => some .mul
  | .op (.arith .div) => some .div
  | _ => none

/-- `additive`. -/
def additive (term : Parser Written) : Parser Written := do
  let node ← term
  Descent.whileSome (Descent.accept Tok.addOp) (fun node op => do return .binary op node (← term)) node

/-- `term`. -/
def term (unary : Parser Written) : Parser Written := do
  let node ← unary
  Descent.whileSome (Descent.accept Tok.mulOp) (fun node op => do return .binary op node (← unary)) node

/-- `unary`. -/
def unary (suffixed : Parser Written) : Parser Written := do
  match ← takeIf (.op (.arith .sub)) with
  | some _ =>
      match ← Descent.accept Tok.numeral with
      | some numeral => return .num numeral.read.neg
      | none => enter deeper fun g => do return .unary (← g.unary)
  | none => suffixed

/-- The start of a suffix. -/
def Tok.suffixStart (t : Tok) : Option Tok :=
  match t.kind with
  | .op .openBracket | .tf _ => some t
  | _ => none

/-- What the loop of `postfix` keeps. -/
structure Decorated where
  node : Written
  seenOffset : Bool := false
  seenTf : Bool := false

/-- A number's token. -/
def Tok.asNum (t : Tok) : Option Tok := t.numeral.map fun _ => t

/-- The number between the brackets. -/
def offset (bracket : Tok) : Parser Nat := do
  if (← tok).kind = .op (.arith .sub) then Descent.fail ⟨.negativeOffset, bracket.pos⟩
  else
    match ← Descent.accept Tok.asNum with
    | none =>
        let t ← tok
        Descent.fail ⟨.expected "a whole number of bars back".toList (found t), t.pos⟩
    | some num =>
        if num.text.all Py.isDecimal = false ∨ 4 < num.text.length then Descent.fail ⟨.offsetDigits, num.pos⟩
        else do
          expect (.op .closeBracket) [']']
          return Py.natOf num.text

/-- A turn of the loop of `postfix`, the start of the suffix taken. -/
def decorate (d : Decorated) (start : Tok) : Parser Decorated :=
  match start.kind with
  | .tf tf =>
      if d.seenTf then Descent.fail ⟨.timeframeTwice, start.pos⟩
      else return { d with node := d.node.give (.tf tf), seenTf := true }
  | _ =>
      if d.seenOffset then Descent.fail ⟨.offsetTwice, start.pos⟩
      else do
        let n ← offset start
        return { d with node := d.node.give (.offset n), seenOffset := true }

/-- `postfix`. -/
def suffixed (primary : Parser Written) : Parser Written := do
  let node ← primary
  if node.given.isSome then
    let d ← Descent.whileSome (Descent.accept Tok.suffixStart) decorate { node }
    return d.node
  else
    let t ← tok
    if t.suffixStart.isSome then Descent.fail ⟨.suffixMisplaced, t.pos⟩ else return node

/-- The arguments of a call. -/
structure Args where
  args : List Written := []
  kwargs : List (Text × Written) := []

/-- The name of a named argument. -/
def named (t u : Tok) : Option Text := if t.kind = .name ∧ u.kind = .op .assign then some t.text else none

/-- One argument of the call of `t`. -/
def argument (orExpr : Parser Written) (t : Tok) (a : Args) : Parser Args := do
  match ← Descent.acceptTwo named with
  | some key =>
      if a.kwargs.any fun given => given.1 == key then Descent.fail ⟨.argumentTwice key, t.pos⟩
      else return { a with kwargs := a.kwargs ++ [(key, ← orExpr)] }
  | none =>
      if a.kwargs ≠ [] then failHere .positionalAfterNamed
      else return { a with args := a.args ++ [← orExpr] }

/-- The arguments of the call of `t`, up to the closing parenthesis. -/
def arguments (orExpr : Parser Written) (t : Tok) : Parser Args := do
  if (← tok).kind = .op .closeParen then return {}
  else Descent.whileSome (takeIf (.op .comma)) (fun a _ => argument orExpr t a) (← argument orExpr t {})

/-- ALL or ANY, in any case. -/
def groupName (name : Text) : Option Group :=
  match name.map Char.toUpper with
  | ['A', 'L', 'L'] => some .all
  | ['A', 'N', 'Y'] => some .any
  | _ => none

/-- The node of a call: a group of conditions where it is one. -/
def callOf (t : Tok) (a : Args) : Parser Written :=
  match groupName t.text, a.kwargs with
  | some op, [] =>
      match a.args with
      | [] => Descent.fail ⟨.noCondition (t.text.map Char.toUpper), t.pos⟩
      | items => return groupOf op items
  | _, _ => return .call t.text a.args a.kwargs []

/-- A name. -/
def Tok.asName (t : Tok) : Option Tok := if t.kind = .name then some t else none

/-- `primary`. -/
def primary (orExpr : Parser Written) : Parser Written := do
  match ← Descent.accept Tok.value with
  | some node => return node
  | none =>
      match ← Descent.accept Tok.asName with
      | some t =>
          match ← takeIf (.op .openParen) with
          | none => return .field t.text []
          | some _ => enter deeper fun g => do
              let a ← arguments g.orExpr t
              expect (.op .closeParen) [')']
              callOf t a
      | none =>
          match ← takeIf (.op .openParen) with
          | some _ => do
              let node ← orExpr
              expect (.op .closeParen) [')']
              return node
          | none =>
              let t ← tok
              Descent.fail ⟨.noValue (found t), t.pos⟩

/-- A level over the one deeper. -/
def levelOver : Grammar :=
  let primary := primary deeper (orExpr deeper)
  let unary := unary deeper (suffixed primary)
  let notExpr := notExpr deeper (comparison (additive (term unary)) (literal primary))
  { orExpr := orExpr deeper, andExpr := andExpr notExpr, notExpr, unary }

end

/-- The level with `n` levels below it. -/
def grammar : Nat → Grammar
  | 0 => levelOver none
  | n + 1 => levelOver (some (grammar n))

/-- `screen`. -/
def screen : Parser Written := do
  let node ← (grammar maxDepth).orExpr
  let t ← tok
  if t.kind = .eof then return node else Descent.fail ⟨.unexpected t.text, t.pos⟩

/-- What is written in a text. -/
def parseWritten (text : Text) : Except SyntaxError Written :=
  if text.all Py.isBlank then .error ⟨.empty, 0⟩
  else
    match tokenize text with
    | .error e => .error e
    | .ok toks => (screen toks).map Prod.fst

/-- `parse`. -/
def parse (text : Text) : Except SyntaxError Node := (parseWritten text).map Written.node

end AdvanceTrading.ScreenQL
