import AdvanceTrading.Screener.Nodes

/-!
# The JSON form of a node

Model of `to_json` and `from_json` (`app/screener/nodes.py:122-184`). What `str`
and `int` make of a value of another type is given by `Conversions`. Where the
source keeps an operator or a timeframe that is not of the language, for the
validator to refuse, `fromJson` refuses it at once (`foreign`).
-/

namespace AdvanceTrading.Screener

open Py (Double)

/-- A JSON value as Python holds it. -/
inductive Json where
  | null
  | bool (value : Bool)
  | int (value : Int)
  | float (value : Double)
  | str (value : Text)
  | list (items : List Json)
  | dict (entries : List (Text × Json))

/-- The keys of a node's object. -/
def Key.k : Text := ['k']
def Key.v : Text := ['v']
def Key.name : Text := ['n', 'a', 'm', 'e']
def Key.offset : Text := ['o', 'f', 'f', 's', 'e', 't']
def Key.tf : Text := ['t', 'f']
def Key.args : Text := ['a', 'r', 'g', 's']
def Key.kwargs : Text := ['k', 'w', 'a', 'r', 'g', 's']
def Key.op : Text := ['o', 'p']
def Key.operand : Text := ['o', 'p', 'e', 'r', 'a', 'n', 'd']
def Key.left : Text := ['l', 'e', 'f', 't']
def Key.right : Text := ['r', 'i', 'g', 'h', 't']
def Key.value : Text := ['v', 'a', 'l', 'u', 'e']
def Key.low : Text := ['l', 'o', 'w']
def Key.high : Text := ['h', 'i', 'g', 'h']
def Key.items : Text := ['i', 't', 'e', 'm', 's']
def Key.item : Text := ['i', 't', 'e', 'm']

/-- `_TYPES`. -/
inductive Kind where
  | num | str | bool | param | field | call | unary | binary | compare | between | isIn | logic | not
  deriving DecidableEq, Repr

/-- The class names. -/
def Kind.text : Kind → Text
  | .num => ['N', 'u', 'm']
  | .str => ['S', 't', 'r']
  | .bool => ['B', 'o', 'o', 'l']
  | .param => ['P', 'a', 'r', 'a', 'm']
  | .field => ['F', 'i', 'e', 'l', 'd']
  | .call => ['C', 'a', 'l', 'l']
  | .unary => ['U', 'n', 'a', 'r', 'y']
  | .binary => ['B', 'i', 'n', 'a', 'r', 'y']
  | .compare => ['C', 'o', 'm', 'p', 'a', 'r', 'e']
  | .between => ['B', 'e', 't', 'w', 'e', 'e', 'n']
  | .isIn => ['I', 'n']
  | .logic => ['L', 'o', 'g', 'i', 'c']
  | .not => ['N', 'o', 't']

def Group.text : Group → Text
  | .all => ['A', 'L', 'L']
  | .any => ['A', 'N', 'Y']

def Kind.all : List Kind :=
  [.num, .str, .bool, .param, .field, .call, .unary, .binary, .compare, .between, .isIn, .logic, .not]

def ArithOp.all : List ArithOp := [.add, .sub, .mul, .div]

def CompareOp.all : List CompareOp := [.gt, .ge, .lt, .le, .eq, .ne]

def Group.both : List Group := [.all, .any]

def Timeframe.all : List Timeframe := [.m1, .m3, .m5, .m15, .m30, .h1, .d1, .w1, .mo1]

/-! ## Writing -/

/-- The object of a node: its class name and its fields. -/
def object (kind : Kind) (fields : List (Text × Json)) : Json :=
  .dict ((Key.k, .str kind.text) :: fields)

/-- A timeframe, or null. -/
def tfJson (tf : Option Timeframe) : Json := tf.elim .null fun tf => .str tf.text

/-- The fields of a call. -/
def callFields (name : Text) (args : List Json) (kwargs : List (Text × Json)) (offset : Int)
    (tf : Option Timeframe) : List (Text × Json) :=
  [(Key.name, .str name), (Key.args, .list args), (Key.kwargs, .dict kwargs),
    (Key.offset, .int offset), (Key.tf, tfJson tf)]

mutual

/-- `to_json`. -/
def Node.toJson : Node → Json
  | .num value => object .num [(Key.v, .float value)]
  | .str value => object .str [(Key.v, .str value)]
  | .bool value => object .bool [(Key.v, .bool value)]
  | .param name => object .param [(Key.name, .str name)]
  | .field name offset tf =>
      object .field [(Key.name, .str name), (Key.offset, .int offset), (Key.tf, tfJson tf)]
  | .call name args kwargs offset tf =>
      object .call (callFields name (jsonsOf args) (kwargJsons kwargs) offset tf)
  | .unary operand => object .unary [(Key.op, .str ['-']), (Key.operand, operand.toJson)]
  | .binary op left right =>
      object .binary [(Key.op, .str op.text), (Key.left, left.toJson), (Key.right, right.toJson)]
  | .compare op left right =>
      object .compare [(Key.op, .str op.text), (Key.left, left.toJson), (Key.right, right.toJson)]
  | .between value low high =>
      object .between [(Key.value, value.toJson), (Key.low, low.toJson), (Key.high, high.toJson)]
  | .isIn value items => object .isIn [(Key.value, value.toJson), (Key.items, .list (jsonsOf items))]
  | .logic op items => object .logic [(Key.op, .str op.text), (Key.items, .list (jsonsOf items))]
  | .not item => object .not [(Key.item, item.toJson)]

def jsonsOf : List Node → List Json
  | [] => []
  | node :: rest => node.toJson :: jsonsOf rest

def kwargJsons : List (Text × Node) → List (Text × Json)
  | [] => []
  | (key, node) :: rest => (key, node.toJson) :: kwargJsons rest

end

/-! ## Reading -/

/-- Why a tree is refused. -/
inductive JsonProblem where
  /-- "not a ScreenQL node" -/
  | notANode
  /-- "Num needs a number" -/
  | needsNumber
  /-- "malformed ... node": a field is missing or of a type that does not convert. -/
  | malformed (kind : Kind)
  /-- An error of `int` or `float` itself. -/
  | conversion
  /-- Named arguments that are neither empty nor an object. -/
  | noItems
  /-- An operator or a timeframe that is not of the language. -/
  | foreign (value : Json)

/-- What `str` and `int` make of a value that is not already a text or a whole number. -/
structure Conversions where
  str : Json → Text
  int : Json → Except JsonProblem Int

/-- `str(value)`. -/
def Conversions.toStr (conversions : Conversions) : Json → Text
  | .str value => value
  | value => conversions.str value

/-- `int(value)`. -/
def Conversions.toInt (conversions : Conversions) : Json → Except JsonProblem Int
  | .int value => .ok value
  | .bool value => .ok (if value then 1 else 0)
  | value => conversions.int value

/-- `bool(value)`. -/
def Json.truthy : Json → Bool
  | .null => false
  | .bool value => value
  | .int value => value != 0
  | .float (.finite x) => x.value != 0
  | .float (.infinite _) => true
  | .str value => value != []
  | .list items => !items.isEmpty
  | .dict entries => !entries.isEmpty

/-- `entries.get(key)`; what is found is inside. -/
def find (key : Text) : (entries : List (Text × Json)) → Option { value : Json // sizeOf value < sizeOf entries }
  | [] => none
  | (name, value) :: rest =>
      if name = key then some ⟨value, by simp; omega⟩
      else (find key rest).map fun found => ⟨found.1, by have := found.2; simp; omega⟩

/-- `entries[key]`. -/
def require (kind : Kind) (key : Text) (entries : List (Text × Json)) :
    Except JsonProblem { value : Json // sizeOf value < sizeOf entries } :=
  match find key entries with
  | some found => .ok found
  | none => .error (.malformed kind)

/-- The member of an enumeration with this text. -/
def ofText {α : Type} (all : List α) (text : α → Text) (value : Json) : Except JsonProblem α :=
  match value with
  | .str written =>
      match all.find? (text · == written) with
      | some member => .ok member
      | none => .error (.foreign value)
  | _ => .error (.foreign value)

/-- `entries.get("tf")`. -/
def tfOf (entries : List (Text × Json)) : Except JsonProblem (Option Timeframe) :=
  match find Key.tf entries with
  | none | some ⟨.null, _⟩ => .ok none
  | some ⟨value, _⟩ => (ofText Timeframe.all Timeframe.text value).map some

/-- `int(entries.get("offset", 0))`. -/
def offsetOf (conversions : Conversions) (entries : List (Text × Json)) : Except JsonProblem Int :=
  match find Key.offset entries with
  | none => .ok 0
  | some ⟨value, _⟩ => conversions.toInt value

/-- The values a loop over `value` takes; those of a text or an object are no nodes. -/
def elements (kind : Kind) (value : Json) :
    Except JsonProblem (List { item : Json // sizeOf item < sizeOf value }) :=
  match value with
  | .list items => .ok (items.attach.map fun item => ⟨item.1, by
      have := List.sizeOf_lt_of_mem item.2
      simp
      omega⟩)
  | .str [] | .dict [] => .ok []
  | .str _ | .dict _ => .error .notANode
  | _ => .error (.malformed kind)

/-- The named arguments: `(data.get("kwargs") or {}).items()`. -/
def namedOf (entries : List (Text × Json)) :
    Except JsonProblem (List { named : Text × Json // sizeOf named.2 < sizeOf entries }) :=
  match find Key.kwargs entries with
  | none => .ok []
  | some ⟨.dict named, inside⟩ => .ok (named.attach.map fun entry => ⟨entry.1, by
      have := List.sizeOf_lt_of_mem entry.2
      have : sizeOf entry.1.2 < sizeOf entry.1 := by
        cases entry.1
        simp
      simp at inside
      omega⟩)
  | some ⟨value, _⟩ => if value.truthy then .error .noItems else .ok []

/-- The node of one kind, from its fields and what is read inside them: `node` and `nodes` read the
value of a required field, `kwargs` the named arguments. -/
def build (conversions : Conversions) (kind : Kind) (entries : List (Text × Json))
    (node : Text → Except JsonProblem Node) (nodes : Text → Except JsonProblem (List Node))
    (kwargs : Except JsonProblem (List (Text × Node))) : Except JsonProblem Node :=
  match kind with
  | .num => do
      match ← require kind Key.v entries with
      | ⟨.int value, _⟩ =>
          if (Py.ofRat value).isFinite then return .num (Py.ofRat value) else .error .conversion
      | ⟨.float value, _⟩ => return .num value
      | _ => .error .needsNumber
  | .str => do return .str (conversions.toStr (← require kind Key.v entries).1)
  | .bool => do return .bool (← require kind Key.v entries).1.truthy
  | .param => do return .param (conversions.toStr (← require kind Key.name entries).1)
  | .field => do
      let name ← require kind Key.name entries
      return .field (conversions.toStr name.1) (← offsetOf conversions entries) (← tfOf entries)
  | .call => do
      let name ← require kind Key.name entries
      let args ← if (find Key.args entries).isSome then nodes Key.args else pure []
      let kwargs ← kwargs
      return .call (conversions.toStr name.1) args kwargs (← offsetOf conversions entries)
        (← tfOf entries)
  | .unary => do
      let op ← require kind Key.op entries
      let operand ← node Key.operand
      if conversions.toStr op.1 = ['-'] then return .unary operand else .error (.foreign op.1)
  | .binary => do
      let op ← require kind Key.op entries
      let left ← node Key.left
      let right ← node Key.right
      return .binary (← ofText ArithOp.all ArithOp.text op.1) left right
  | .compare => do
      let op ← require kind Key.op entries
      let left ← node Key.left
      let right ← node Key.right
      return .compare (← ofText CompareOp.all CompareOp.text op.1) left right
  | .between => do return .between (← node Key.value) (← node Key.low) (← node Key.high)
  | .isIn => do return .isIn (← node Key.value) (← nodes Key.items)
  | .logic => do
      let op ← require kind Key.op entries
      let items ← nodes Key.items
      return .logic (← ofText Group.both Group.text op.1) items
  | .not => do return .not (← node Key.item)

/-- `from_json`. -/
def fromJson (conversions : Conversions) (data : Json) : Except JsonProblem Node :=
  match data with
  | .dict entries =>
      match find Key.k entries with
      | some ⟨.str written, _⟩ =>
          match Kind.all.find? (·.text == written) with
          | none => .error .notANode
          | some kind =>
              build conversions kind entries
                (fun key => do
                  let value ← require kind key entries
                  fromJson conversions value.1)
                (fun key => do
                  let value ← require kind key entries
                  let items ← elements kind value.1
                  items.mapM fun item => fromJson conversions item.1)
                (do
                  let named ← namedOf entries
                  named.mapM fun entry => do return (entry.1.1, ← fromJson conversions entry.1.2))
      | _ => .error .notANode
  | _ => .error .notANode
termination_by sizeOf data
decreasing_by
  · have := value.2
    simp
    omega
  · have := value.2
    have := item.2
    simp
    omega
  · have := entry.2
    simp
    omega

/-! ## Round trip -/

/-- A loop over the values of a list reads each of them. -/
theorem mapM_elements (kind : Kind) (items : List Json) (read : Json → Except JsonProblem Node) :
    (elements kind (.list items) >>= fun inside =>
      inside.mapM fun item : { item : Json // sizeOf item < sizeOf (Json.list items) } =>
        read item.1) = items.mapM read := by
  show (items.attach.map _).mapM
    (fun item : { item : Json // sizeOf item < sizeOf (Json.list items) } => read item.1) = _
  rw [List.mapM_map]
  show items.attach.mapM (read ∘ Subtype.val) = _
  rw [← List.mapM_map (g := read), List.attach_map_subtype_val]

/-- A named argument is read under its name. -/
def readNamed (conversions : Conversions) (entry : Text × Json) : Except JsonProblem (Text × Node) := do
  return (entry.1, ← fromJson conversions entry.2)

/-- A loop over the named arguments of an object reads each of them. -/
theorem mapM_named {conversions : Conversions} {entries named : List (Text × Json)}
    {inside : sizeOf (Json.dict named) < sizeOf entries}
    (found : find Key.kwargs entries = some ⟨.dict named, inside⟩) :
    (namedOf entries >>= fun inside =>
      inside.mapM fun entry : { named : Text × Json // sizeOf named.2 < sizeOf entries } => do
        return (entry.1.1, ← fromJson conversions entry.1.2)) = named.mapM (readNamed conversions) := by
  unfold namedOf
  rw [found]
  show (named.attach.map _).mapM
    (fun entry : { named : Text × Json // sizeOf named.2 < sizeOf entries } =>
      readNamed conversions entry.1) = _
  rw [List.mapM_map]
  show named.attach.mapM (readNamed conversions ∘ Subtype.val) = _
  rw [← List.mapM_map (g := readNamed conversions), List.attach_map_subtype_val]

/-- An object is read by its kind, from its parts read inside. -/
theorem fromJson_object (conversions : Conversions) (kind : Kind) (fields : List (Text × Json)) :
    fromJson conversions (object kind fields) =
      build conversions kind ((Key.k, .str kind.text) :: fields)
        (fun key => do
          let value ← require kind key ((Key.k, .str kind.text) :: fields)
          fromJson conversions value.1)
        (fun key => do
          let value ← require kind key ((Key.k, .str kind.text) :: fields)
          let items ← elements kind value.1
          items.mapM fun item => fromJson conversions item.1)
        (do
          let named ← namedOf ((Key.k, .str kind.text) :: fields)
          named.mapM fun entry => do return (entry.1.1, ← fromJson conversions entry.1.2)) := by
  rw [object, fromJson]
  cases kind <;> rfl

mutual

/-- What `to_json` writes, `from_json` reads back. -/
theorem fromJson_toJson (conversions : Conversions) :
    ∀ node : Node, fromJson conversions node.toJson = .ok node
  | .num value => by
      rw [Node.toJson, fromJson_object]
      rfl
  | .str value => by
      rw [Node.toJson, fromJson_object]
      rfl
  | .bool value => by
      rw [Node.toJson, fromJson_object]
      rfl
  | .param name => by
      rw [Node.toJson, fromJson_object]
      rfl
  | .field name offset tf => by
      rw [Node.toJson, fromJson_object]
      cases tf with
      | none => rfl
      | some tf => cases tf <;> rfl
  | .call name args kwargs offset tf => by
      rw [Node.toJson, fromJson_object, mapM_named rfl, fromKwargs_toKwargs conversions kwargs]
      have read := mapM_elements .call (jsonsOf args) (fromJson conversions)
      rw [fromJsons_toJsons conversions args] at read
      show ((elements .call (.list (jsonsOf args)) >>= fun inside =>
        inside.mapM fun item : { item : Json // sizeOf item < sizeOf (Json.list (jsonsOf args)) } =>
          fromJson conversions item.1) >>= fun args => _) = _
      rw [read]
      cases tf with
      | none => rfl
      | some tf => cases tf <;> rfl
  | .unary operand => by
      rw [Node.toJson, fromJson_object]
      show (do
        let operand ← fromJson conversions operand.toJson
        if ['-'] = ['-'] then return Node.unary operand else _) = _
      rw [fromJson_toJson conversions operand]
      rfl
  | .binary op left right => by
      rw [Node.toJson, fromJson_object]
      show (do
        let left ← fromJson conversions left.toJson
        let right ← fromJson conversions right.toJson
        return Node.binary (← ofText ArithOp.all ArithOp.text (.str op.text)) left right) = _
      rw [fromJson_toJson conversions left, fromJson_toJson conversions right]
      cases op <;> rfl
  | .compare op left right => by
      rw [Node.toJson, fromJson_object]
      show (do
        let left ← fromJson conversions left.toJson
        let right ← fromJson conversions right.toJson
        return Node.compare (← ofText CompareOp.all CompareOp.text (.str op.text)) left right) = _
      rw [fromJson_toJson conversions left, fromJson_toJson conversions right]
      cases op <;> rfl
  | .between value low high => by
      rw [Node.toJson, fromJson_object]
      show (do
        return Node.between (← fromJson conversions value.toJson) (← fromJson conversions low.toJson)
          (← fromJson conversions high.toJson)) = _
      rw [fromJson_toJson conversions value, fromJson_toJson conversions low,
        fromJson_toJson conversions high]
      rfl
  | .isIn value items => by
      rw [Node.toJson, fromJson_object]
      show (do
        let value ← fromJson conversions value.toJson
        return Node.isIn value (← elements .isIn (.list (jsonsOf items)) >>= fun inside =>
          inside.mapM fun item : { item : Json // sizeOf item < sizeOf (Json.list (jsonsOf items)) } =>
            fromJson conversions item.1)) = _
      rw [mapM_elements, fromJson_toJson conversions value, fromJsons_toJsons conversions items]
      rfl
  | .logic op items => by
      rw [Node.toJson, fromJson_object]
      show (do
        let items ← elements .logic (.list (jsonsOf items)) >>= fun inside =>
          inside.mapM fun item : { item : Json // sizeOf item < sizeOf (Json.list (jsonsOf items)) } =>
            fromJson conversions item.1
        return Node.logic (← ofText Group.both Group.text (.str op.text)) items) = _
      rw [mapM_elements, fromJsons_toJsons conversions items]
      cases op <;> rfl
  | .not item => by
      rw [Node.toJson, fromJson_object]
      show (do return Node.not (← fromJson conversions item.toJson)) = _
      rw [fromJson_toJson conversions item]
      rfl

theorem fromJsons_toJsons (conversions : Conversions) :
    ∀ nodes : List Node, (jsonsOf nodes).mapM (fromJson conversions) = .ok nodes
  | [] => rfl
  | node :: rest => by
      rw [jsonsOf, List.mapM_cons, fromJson_toJson conversions node, fromJsons_toJsons conversions rest]
      rfl

theorem fromKwargs_toKwargs (conversions : Conversions) :
    ∀ kwargs : List (Text × Node), (kwargJsons kwargs).mapM (readNamed conversions) = .ok kwargs
  | [] => rfl
  | (key, node) :: rest => by
      rw [kwargJsons, List.mapM_cons, fromKwargs_toKwargs conversions rest, readNamed,
        fromJson_toJson conversions node]
      rfl

end

end AdvanceTrading.Screener
