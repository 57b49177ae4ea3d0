import AdvanceTrading.Screener.Parser

/-!
# Which suffixes are dropped

`Scan` reads the tokens of a text from left to right and remembers which kinds of
suffix end what it has just read: a closing parenthesis of a grouping, or of a
group of conditions without named arguments, leaves them standing, and nothing
else but a suffix does. A suffix clashes where one of its kind stands. The parsers
follow the scan (`Reader`), so a text that is accepted gives a node two suffixes
of a kind exactly where the scan finds a clash.
-/

namespace AdvanceTrading.ScreenQL

open Screener (Text Node Timeframe ArithOp CompareOp Group)
open Descent (Leads leads_pure leads_fail leads_look leads_accept leads_acceptTwo leads_bind leads_whileSome)

/-! ## The suffixes of a tree -/

def Suffix.isOffset : Suffix → Bool
  | .offset _ => true
  | .tf _ => false

def Suffix.isTf : Suffix → Bool
  | .offset _ => false
  | .tf _ => true

/-- At most one of each kind. -/
def once (given : List Suffix) : Bool :=
  decide (given.countP Suffix.isOffset ≤ 1) && decide (given.countP Suffix.isTf ≤ 1)

mutual

/-- The suffixes of a tree's nodes, as the text has them. -/
def Written.suffixes : Written → List Suffix
  | .num _ | .str _ | .bool _ | .param _ => []
  | .field _ given => given
  | .call _ args kwargs given => suffixesOf args ++ kwargSuffixes kwargs ++ given
  | .unary operand => operand.suffixes
  | .binary _ left right | .compare _ left right => left.suffixes ++ right.suffixes
  | .between value low high => value.suffixes ++ low.suffixes ++ high.suffixes
  | .isIn value items => value.suffixes ++ suffixesOf items
  | .logic _ items => suffixesOf items
  | .not item => item.suffixes

def suffixesOf : List Written → List Suffix
  | [] => []
  | item :: rest => item.suffixes ++ suffixesOf rest

def kwargSuffixes : List (Text × Written) → List Suffix
  | [] => []
  | (_, value) :: rest => value.suffixes ++ kwargSuffixes rest

end

mutual

/-- No node was given two suffixes of a kind. -/
def Written.kept : Written → Bool
  | .num _ | .str _ | .bool _ | .param _ => true
  | .field _ given => once given
  | .call _ args kwargs given => allKept args && kwargsKept kwargs && once given
  | .unary operand => operand.kept
  | .binary _ left right | .compare _ left right => left.kept && right.kept
  | .between value low high => value.kept && low.kept && high.kept
  | .isIn value items => value.kept && allKept items
  | .logic _ items => allKept items
  | .not item => item.kept

def allKept : List Written → Bool
  | [] => true
  | item :: rest => item.kept && allKept rest

def kwargsKept : List (Text × Written) → Bool
  | [] => true
  | (_, value) :: rest => value.kept && kwargsKept rest

end

/-! ## The scan -/

/-- What the scan knows after the tokens it has read: of each open parenthesis whether it leaves suffixes standing,
which kinds stand, the name or the opening bracket just read, the suffixes, and whether two clashed. -/
structure Scan where
  opens : List Bool := []
  offset : Bool := false
  tf : Bool := false
  name : Option Text := none
  bracket : Bool := false
  suffixes : List Suffix := []
  clash : Bool := false

/-- No suffix stands. -/
def Scan.fresh (s : Scan) : Scan := { s with offset := false, tf := false, name := none, bracket := false }

/-- An opening parenthesis: the one of a call leaves nothing standing, where the call is no group. -/
def Scan.openParen (s : Scan) : Scan :=
  { s.fresh with opens := (s.name.all fun name => (groupName name).isSome) :: s.opens }

/-- A closing parenthesis. -/
def Scan.closeParen (s : Scan) : Scan :=
  match s.opens with
  | true :: opens => { s with opens, name := none, bracket := false }
  | _ => { s.fresh with opens := s.opens.tail }

/-- A named argument: its call is no group. -/
def Scan.assign (s : Scan) : Scan := { s.fresh with opens := s.opens.tail.cons false }

/-- The scan reads a token. -/
def Scan.step (s : Scan) (t : Tok) : Scan :=
  match t.kind with
  | .tf tf =>
      { s with
        clash := s.clash || s.tf, tf := true, suffixes := s.suffixes ++ [.tf tf], name := none
        bracket := false }
  | .op .openBracket => { s with clash := s.clash || s.offset, offset := true, name := none, bracket := true }
  | .num _ =>
      { s with
        suffixes := if s.bracket then s.suffixes ++ [.offset (Py.natOf t.text)] else s.suffixes
        name := none
        bracket := false }
  | .op .closeBracket => { s with name := none, bracket := false }
  | .op .openParen => s.openParen
  | .op .closeParen => s.closeParen
  | .op .assign => s.assign
  | .name => { s.fresh with name := some t.text }
  | _ => s.fresh

/-- The scan of the tokens. -/
def scan (toks : List Tok) : Scan := toks.foldl Scan.step {}

/-- The suffixes written in a text. -/
def suffixesIn (text : Text) : List Suffix :=
  match tokenize text with
  | .ok toks => (scan toks).suffixes
  | .error _ => []

/-- A suffix of the text clashes with one that stands. -/
def clashes (text : Text) : Bool :=
  match tokenize text with
  | .ok toks => (scan toks).clash
  | .error _ => false

/-! ## Lists of nodes -/

@[simp] theorem suffixesOf_append (items : List Written) (item : Written) :
    suffixesOf (items ++ [item]) = suffixesOf items ++ item.suffixes := by
  induction items with
  | nil => simp [suffixesOf]
  | cons first rest ih => simp [suffixesOf, ih]

@[simp] theorem allKept_append (items : List Written) (item : Written) :
    allKept (items ++ [item]) = (allKept items && item.kept) := by
  induction items with
  | nil => simp [allKept]
  | cons first rest ih => simp [allKept, ih, Bool.and_assoc]

@[simp] theorem kwargSuffixes_append (kwargs : List (Text × Written)) (key : Text) (value : Written) :
    kwargSuffixes (kwargs ++ [(key, value)]) = kwargSuffixes kwargs ++ value.suffixes := by
  induction kwargs with
  | nil => simp [kwargSuffixes]
  | cons first rest ih => simp [kwargSuffixes, ih]

@[simp] theorem kwargsKept_append (kwargs : List (Text × Written)) (key : Text) (value : Written) :
    kwargsKept (kwargs ++ [(key, value)]) = (kwargsKept kwargs && value.kept) := by
  induction kwargs with
  | nil => simp [kwargsKept]
  | cons first rest ih => simp [kwargsKept, ih, Bool.and_assoc]

theorem countP_eq_zero_iff (given : List Suffix) (p : Suffix → Bool) : given.countP p = 0 ↔ given.any p = false := by
  rw [List.countP_eq_zero, List.any_eq_false]

/-- The test for the suffixes of its own kind. -/
def Suffix.alike : Suffix → Suffix → Bool
  | .offset _ => Suffix.isOffset
  | .tf _ => Suffix.isTf

theorem once_give (given : List Suffix) (suffix : Suffix) :
    once (given ++ [suffix]) = (once given && !given.any suffix.alike) := by
  have more (p : Suffix → Bool) :
      decide (given.countP p + 1 ≤ 1) = (decide (given.countP p ≤ 1) && !given.any p) := by
    have none_ := countP_eq_zero_iff given p
    cases any : given.any p with
    | true =>
      have some_ : given.countP p ≠ 0 := fun zero => absurd (none_.mp zero) (by simp [any])
      simp [some_]
    | false => simp [none_.mpr any]
  unfold once
  rw [List.countP_append, List.countP_append]
  cases suffix with
  | offset n => exact (congrArg (· && _) (more _)).trans (Bool.and_right_comm _ _ _)
  | tf tf => exact (congrArg (_ && ·) (more _)).trans (Bool.and_assoc _ _ _).symm

/-! ## Following a tree -/

/-- From `s` to `s'` the scan read these suffixes, and they clash where they are not kept. -/
structure Moves (s s' : Scan) (suffixes : List Suffix) (kept : Bool) : Prop where
  suffixes : s'.suffixes = s.suffixes ++ suffixes
  clash : s'.clash = (s.clash || !kept)

/-- The suffixes of the node are what stands. -/
def Stands (s : Scan) (node : Written) : Prop :=
  ∀ given, node.given = some given → s.offset = given.any Suffix.isOffset ∧ s.tf = given.any Suffix.isTf

/-- From `s` to `s'` the scan read the node. -/
structure Follows (s : Scan) (node : Written) (s' : Scan) : Prop where
  opens : s'.opens = s.opens
  moves : Moves s s' node.suffixes node.kept
  stands : Stands s' node

/-- From `s` to `s'` the scan read the items, what stands being of one that is alone. -/
structure Items (s : Scan) (items : List Written) (s' : Scan) : Prop where
  some_ : items ≠ []
  opens : s'.opens = s.opens
  moves : Moves s s' (suffixesOf items) (allKept items)
  stands : ∀ only, items = [only] → Stands s' only

/-- Nothing is pending that the next token would be read by. -/
def Scan.Ready (s : Scan) : Prop := s.name = none ∧ s.bracket = false

/-- The scan follows what the parser reads. -/
def Reader (p : Parser Written) : Prop := ∀ s, s.Ready → Leads Scan.step p s (Follows s)

theorem Moves.refl (s : Scan) : Moves s s [] true := ⟨by simp, by simp⟩

variable {s s' s'' : Scan} {k : Bool}

theorem Moves.trans {a b : List Suffix} {l : Bool} (first : Moves s s' a k)
    (then_ : Moves s' s'' b l) : Moves s s'' (a ++ b) (k && l) :=
  ⟨by rw [then_.suffixes, first.suffixes, List.append_assoc], by
    rw [then_.clash, first.clash, Bool.not_and, Bool.or_assoc]⟩

/-- What the scan forgets does not matter. -/
theorem Moves.of_eq {t t' : Scan} {a : List Suffix} (moves : Moves s s' a k)
    (suffixes : t.suffixes = s.suffixes) (clash : t.clash = s.clash)
    (suffixes' : t'.suffixes = s'.suffixes) (clash' : t'.clash = s'.clash) : Moves t t' a k :=
  ⟨by rw [suffixes', suffixes, moves.suffixes], by rw [clash', clash, moves.clash]⟩

theorem ready_fresh (s : Scan) : s.fresh.Ready := ⟨rfl, rfl⟩

variable {node : Written}

/-- The scan reads a node of no suffixes of its own after others. -/
theorem Follows.of_moves (opens : s'.opens = s.opens) (moves : Moves s s' node.suffixes node.kept)
    (plain : node.given = none) : Follows s node s' :=
  ⟨opens, moves, fun given is => by rw [plain] at is; cases is⟩

theorem Follows.single (follows : Follows s node s') : Items s [node] s' where
  some_ := by simp
  opens := follows.opens
  moves := by simpa [suffixesOf, allKept] using follows.moves
  stands := by
    rintro _ ⟨⟩
    exact follows.stands

/-- A group of items. -/
theorem Items.group {s s' : Scan} {items : List Written} (items_ : Items s items s') (op : Group) :
    Follows s (groupOf op items) s' := by
  match items, items_ with
  | [], items_ => exact absurd rfl items_.some_
  | [only], items_ =>
    refine ⟨items_.opens, ?_, items_.stands only rfl⟩
    simpa [groupOf, suffixesOf, allKept] using items_.moves
  | a :: b :: rest, items_ => exact .of_moves items_.opens items_.moves rfl

/-- One more item, after a token that leaves nothing standing. -/
theorem Items.more {items : List Written} {item : Written} (items_ : Items s items s')
    (follows : Follows s'.fresh item s'') : Items s (items ++ [item]) s'' where
  some_ := by simp
  opens := follows.opens.trans items_.opens
  moves := by
    rw [suffixesOf_append, allKept_append]
    exact items_.moves.trans (follows.moves.of_eq rfl rfl rfl rfl)
  stands := by
    intro only alone
    have lengths := congrArg List.length alone
    have := List.length_pos_iff.mpr items_.some_
    simp only [List.length_append, List.length_cons, List.length_nil] at lengths
    omega

/-! ## The scan of the small parsers -/

/-- Tokens after which nothing stands. -/
def Kind.plain : Kind → Bool
  | .kw _ | .op (.compare _) | .op (.arith _) | .op .comma | .str | .param | .eof => true
  | _ => false

variable {t : Tok}

theorem step_plain (plain : t.kind.plain = true) (s : Scan) : s.step t = s.fresh := by
  unfold Scan.step
  unfold Kind.plain at plain
  split <;> simp_all

theorem leads_tok {Q : Tok → Scan → Prop} (holds : ∀ t, Q t s) :
    Leads Scan.step tok s Q := leads_look holds

theorem leads_failHere {α : Type} {message : Message} {Q : α → Scan → Prop} :
    Leads Scan.step (failHere message : Parser α) s Q :=
  leads_bind (leads_tok fun _ => leads_fail)

variable {kind : Kind}

theorem leads_takeIf {Q : Option Tok → Scan → Prop} (stays : Q none s)
    (takes : ∀ t, t.kind = kind → Q (some t) (s.step t)) : Leads Scan.step (takeIf kind) s Q := by
  refine leads_accept stays ?_
  intro t b wanted
  by_cases is : t.kind = kind
  · rw [if_pos is] at wanted
    cases wanted
    exact takes t is
  · rw [if_neg is] at wanted
    cases wanted

theorem leads_expect {what : Text} {Q : Unit → Scan → Prop}
    (takes : ∀ t, t.kind = kind → Q () (s.step t)) : Leads Scan.step (expect kind what) s Q := by
  refine leads_bind (leads_takeIf ?_ ?_)
  · exact leads_bind (leads_tok fun _ => leads_fail)
  · exact fun t is => leads_pure (takes t is)

variable {item : Parser Written}

/-- A list of items, with tokens between them after which nothing stands. -/
theorem leads_items (reads : Reader item) (plain : kind.plain = true) {first : Written}
    (follows : Follows s first s') :
    Leads Scan.step (Descent.whileSome (takeIf kind) (fun items _ => do return items ++ [← item])
      [first]) s' (Items s) := by
  refine leads_whileSome follows.single ?_
  intro items s' items_
  refine leads_takeIf items_ ?_
  intro t is
  have step : s'.step t = s'.fresh := step_plain (by rw [is, plain]) s'
  dsimp only
  rw [step]
  refine leads_bind ((reads _ (ready_fresh _)).imp ?_)
  intro item s'' follows
  exact leads_pure (items_.more follows)

/-! ## The parsers -/

variable {given : List Suffix}

section

variable {deeper : Option Grammar}

/-- The scan follows what a level reads. -/
structure Grammar.Reads (g : Grammar) : Prop where
  orExpr : Reader g.orExpr
  andExpr : Reader g.andExpr
  notExpr : Reader g.notExpr
  unary : Reader g.unary

theorem leads_enter {α : Type} {inside : Grammar → Parser α} {Q : α → Scan → Prop}
    (deeperReads : ∀ g ∈ deeper, g.Reads)
    (leads : ∀ g : Grammar, g.Reads → Leads Scan.step (inside g) s Q) :
    Leads Scan.step (enter deeper inside) s Q := by
  cases deeper with
  | none => exact leads_failHere
  | some g => exact leads g (deeperReads g rfl)

theorem reads_orExpr (deeperReads : ∀ g ∈ deeper, g.Reads) : Reader (orExpr deeper) := by
  intro s ready
  refine leads_enter deeperReads fun g reads => ?_
  refine leads_bind ((reads.andExpr s ready).imp ?_)
  intro first s' follows
  refine leads_bind ((leads_items reads.andExpr rfl follows).imp ?_)
  exact fun items s'' items_ => leads_pure (items_.group .any)

theorem reads_andExpr {notExpr : Parser Written} (reads : Reader notExpr) : Reader (andExpr notExpr) := by
  intro s ready
  refine leads_bind ((reads s ready).imp ?_)
  intro first s' follows
  refine leads_bind ((leads_items reads rfl follows).imp ?_)
  exact fun items s'' items_ => leads_pure (items_.group .all)

theorem reads_notExpr (deeperReads : ∀ g ∈ deeper, g.Reads) {comparison : Parser Written}
    (reads : Reader comparison) : Reader (notExpr deeper comparison) := by
  intro s ready
  refine leads_bind (leads_takeIf (reads s ready) ?_)
  intro t is
  dsimp only
  rw [step_plain (by rw [is]; rfl)]
  refine leads_enter deeperReads fun g gReads => ?_
  refine leads_bind ((gReads.notExpr _ (ready_fresh s)).imp ?_)
  exact fun item s' follows => leads_pure (.of_moves follows.opens (follows.moves.of_eq rfl rfl rfl rfl) rfl)

/-- A node of two, with a token between them after which nothing stands. -/
theorem Follows.pair {left right : Written} (first : Follows s left s')
    (then_ : Follows s'.fresh right s'')
    (suffixes : node.suffixes = left.suffixes ++ right.suffixes)
    (kept : node.kept = (left.kept && right.kept)) (plain : node.given = none) :
    Follows s node s'' := by
  refine .of_moves (then_.opens.trans first.opens) ?_ plain
  rw [suffixes, kept]
  exact first.moves.trans (then_.moves.of_eq rfl rfl rfl rfl)

theorem compareOp_plain {op : CompareOp} (is : t.compareOp = some op) : t.kind.plain = true := by
  unfold Tok.compareOp at is
  unfold Kind.plain
  split at is <;> simp_all

theorem addOp_plain {op : ArithOp} (is : t.addOp = some op) : t.kind.plain = true := by
  unfold Tok.addOp at is
  unfold Kind.plain
  split at is <;> simp_all

theorem mulOp_plain {op : ArithOp} (is : t.mulOp = some op) : t.kind.plain = true := by
  unfold Tok.mulOp at is
  unfold Kind.plain
  split at is <;> simp_all

/-- Binary operators from the left. -/
theorem reads_binary (reads : Reader item) {asOp : Tok → Option ArithOp}
    (plain : ∀ t op, asOp t = some op → t.kind.plain = true) :
    Reader (do
      let node ← item
      Descent.whileSome (Descent.accept asOp) (fun node op => do return .binary op node (← item)) node) := by
  intro s ready
  refine leads_bind ((reads s ready).imp ?_)
  intro first s' follows
  refine leads_whileSome follows ?_
  intro left s' before
  refine leads_accept before ?_
  intro t op is
  dsimp only
  rw [step_plain (plain t op is)]
  refine leads_bind ((reads _ (ready_fresh s')).imp ?_)
  exact fun right s'' after => leads_pure (before.pair after rfl rfl rfl)

theorem reads_additive {term : Parser Written} (reads : Reader term) : Reader (additive term) :=
  reads_binary reads fun _ _ => addOp_plain

theorem reads_term {unary : Parser Written} (reads : Reader unary) : Reader (term unary) :=
  reads_binary reads fun _ _ => mulOp_plain

/-- A number, where none is between brackets. -/
theorem step_num (ready : s.bracket = false) {numeral : Py.Numeral} (is : t.kind = .num numeral) :
    s.step t = { s with name := none, bracket := false } := by
  unfold Scan.step
  rw [is]
  simp [ready]

theorem numeral_kind {numeral : Py.Numeral} (is : t.numeral = some numeral) :
    t.kind = .num numeral := by
  unfold Tok.numeral at is
  split at is
  · cases is
    assumption
  · cases is

theorem reads_unary (deeperReads : ∀ g ∈ deeper, g.Reads) {suffixed : Parser Written}
    (reads : Reader suffixed) : Reader (unary deeper suffixed) := by
  intro s ready
  refine leads_bind (leads_takeIf (reads s ready) ?_)
  intro t is
  dsimp only
  rw [step_plain (by rw [is]; rfl)]
  refine leads_bind (leads_accept ?_ ?_)
  · refine leads_enter deeperReads fun g gReads => ?_
    refine leads_bind ((gReads.unary _ (ready_fresh s)).imp ?_)
    exact fun item s' follows => leads_pure (.of_moves follows.opens (follows.moves.of_eq rfl rfl rfl rfl) rfl)
  · intro t numeral is
    dsimp only
    rw [step_num rfl (numeral_kind is)]
    exact leads_pure (.of_moves rfl ((Moves.refl s).of_eq rfl rfl rfl rfl) rfl)

theorem value_kind (is : t.value = some node) :
    node.given = none ∧ node.suffixes = [] ∧ node.kept = true ∧
      (t.kind.plain = true ∨ ∃ numeral, t.kind = .num numeral) := by
  unfold Tok.value at is
  unfold Kind.plain
  split at is <;> cases is <;> simp_all [Written.given, Written.suffixes, Written.kept]

/-- A literal or a parameter. -/
theorem follows_value (ready : s.Ready) (is : t.value = some node) : Follows s node (s.step t) := by
  obtain ⟨plain, suffixes, kept, token | ⟨numeral, token⟩⟩ := value_kind is
  · rw [step_plain token]
    refine .of_moves rfl ?_ plain
    rw [suffixes, kept]
    exact (Moves.refl s).of_eq rfl rfl rfl rfl
  · rw [step_num ready.2 token]
    refine .of_moves rfl ?_ plain
    rw [suffixes, kept]
    exact (Moves.refl s).of_eq rfl rfl rfl rfl

theorem reads_literal {primary : Parser Written} (reads : Reader primary) : Reader (literal primary) := by
  intro s ready
  refine leads_bind (leads_acceptTwo ?_ ?_)
  · refine leads_bind (leads_tok fun t => ?_)
    split
    · exact reads s ready
    · exact leads_fail
  · intro t u numeral is
    dsimp only
    unfold negative at is
    split at is
    · rename_i minus
      have nothing : s.step t = s.fresh := step_plain (by rw [minus]; rfl) s
      rw [nothing, step_num rfl (numeral_kind is)]
      exact leads_pure (.of_moves rfl ((Moves.refl s).of_eq rfl rfl rfl rfl) rfl)
    · cases is

/-! ## Parentheses -/

theorem step_openParen (is : t.kind = .op .openParen) (s : Scan) : s.step t = s.openParen := by
  unfold Scan.step
  rw [is]

theorem step_closeParen (is : t.kind = .op .closeParen) (s : Scan) : s.step t = s.closeParen := by
  unfold Scan.step
  rw [is]

/-- The opening parenthesis of a grouping. -/
theorem openParen_grouping (ready : s.Ready) :
    s.openParen = { s.fresh with opens := true :: s.opens } := by
  unfold Scan.openParen
  rw [ready.1]
  rfl

/-- The closing parenthesis of a grouping. -/
theorem closeParen_grouping {opens : List Bool} (is : s.opens = true :: opens) :
    s.closeParen = { s with opens, name := none, bracket := false } := by
  unfold Scan.closeParen
  rw [is]

/-- The closing parenthesis of a call. -/
theorem closeParen_call {opens : List Bool} (is : s.opens = false :: opens) :
    s.closeParen = { s.fresh with opens } := by
  unfold Scan.closeParen
  rw [is]
  rfl

theorem reads_comparison {additive literal : Parser Written} (reads : Reader additive)
    (readsLiteral : Reader literal) : Reader (comparison additive literal) := by
  intro s ready
  refine leads_bind ((reads s ready).imp ?_)
  intro left s' follows
  refine leads_bind (leads_accept ?_ ?_)
  · refine leads_bind (leads_takeIf ?_ ?_)
    · refine leads_bind (leads_takeIf (leads_pure follows) ?_)
      intro t is
      dsimp only
      rw [step_plain (by rw [is]; rfl)]
      refine leads_bind (leads_expect ?_)
      intro t is
      rw [step_openParen is, openParen_grouping (ready_fresh s')]
      refine leads_bind ((readsLiteral _ ⟨rfl, rfl⟩).imp ?_)
      intro first s'' firstFollows
      refine leads_bind ((leads_items readsLiteral rfl firstFollows).imp ?_)
      intro items s'' items_
      refine leads_bind (leads_expect ?_)
      intro t is
      rw [step_closeParen is, closeParen_grouping items_.opens]
      refine leads_pure (.of_moves follows.opens ?_ rfl)
      exact follows.moves.trans (items_.moves.of_eq rfl rfl rfl rfl)
    · intro t is
      dsimp only
      rw [step_plain (by rw [is]; rfl)]
      refine leads_bind ((reads _ (ready_fresh s')).imp ?_)
      intro low s'' lowFollows
      refine leads_bind (leads_expect ?_)
      intro t is
      rw [step_plain (by rw [is]; rfl)]
      refine leads_bind ((reads _ (ready_fresh s'')).imp ?_)
      intro high s''' highFollows
      refine leads_pure (.of_moves ((highFollows.opens.trans lowFollows.opens).trans follows.opens) ?_ rfl)
      have lower : Moves s s'' (left.suffixes ++ low.suffixes) (left.kept && low.kept) :=
        follows.moves.trans (lowFollows.moves.of_eq rfl rfl rfl rfl)
      exact lower.trans (highFollows.moves.of_eq rfl rfl rfl rfl)
  · intro t op is
    dsimp only
    rw [step_plain (compareOp_plain is)]
    refine leads_bind ((reads _ (ready_fresh s')).imp ?_)
    exact fun right s'' after => leads_pure (follows.pair after rfl rfl rfl)

/-- The loops over the items of a list and over the operators of a level are `while` loops: no turn is missing. -/
theorem loop_eq {α β : Type} (reads : Reader item) (next : Tok → Option β)
    (add : α → β → Written → α) (a : α) :
    Descent.whileSome (Descent.accept next) (fun a b => do return add a b (← item)) a =
      Descent.turn (Descent.accept next) (fun a b => do return add a b (← item))
        (Descent.whileSome (Descent.accept next) fun a b => do return add a b (← item)) a := by
  refine Descent.whileSome_eq (Descent.takes_accept next) ?_ a
  intro a b toks a' rest ran
  have leads : Leads Scan.step (do return add a b (← item) : Parser _) {} fun _ _ => True :=
    leads_bind ((reads {} ⟨rfl, rfl⟩).imp fun _ _ _ => leads_pure trivial)
  exact leads.length_le ran

/-! ## Suffixes -/

theorem give_given (is : node.given = some given) (suffix : Suffix) :
    (node.give suffix).given = some (given ++ [suffix]) ∧
      (node.give suffix).suffixes = node.suffixes ++ [suffix] ∧
      (node.give suffix).kept = (node.kept && !given.any suffix.alike) := by
  cases node with
  | field name given =>
    cases is
    exact ⟨rfl, rfl, once_give given suffix⟩
  | call name args kwargs given =>
    cases is
    refine ⟨rfl, by simp [Written.give, Written.suffixes], ?_⟩
    simp [Written.give, Written.kept, once_give, Bool.and_assoc]
  | _ => cases is

/-- The scan follows a node that suffixes can be given to. -/
structure Decorates (s : Scan) (node : Written) (s' : Scan) : Prop extends Follows s node s' where
  suffixable : node.given.isSome = true

/-- What stands of a suffix's kind. -/
def Scan.standing (s : Scan) : Suffix → Bool
  | .offset _ => s.offset
  | .tf _ => s.tf

/-- A suffix is read. -/
theorem Decorates.give (decorates : Decorates s node s') (suffix : Suffix) (opens : s''.opens = s'.opens)
    (offset : s''.offset = (s'.offset || suffix.isOffset)) (tf : s''.tf = (s'.tf || suffix.isTf))
    (suffixes : s''.suffixes = s'.suffixes ++ [suffix])
    (clash : s''.clash = (s'.clash || s'.standing suffix)) : Decorates s (node.give suffix) s'' := by
  obtain ⟨given, is⟩ := Option.isSome_iff_exists.mp decorates.suffixable
  obtain ⟨given', suffixes', kept'⟩ := give_given is suffix
  obtain ⟨offsetStands, tfStands⟩ := decorates.stands given is
  have standing : s'.standing suffix = given.any suffix.alike := by
    cases suffix with
    | offset n => exact offsetStands
    | tf tf => exact tfStands
  refine ⟨⟨opens.trans decorates.opens, ⟨?_, ?_⟩, ?_⟩, by rw [given']; rfl⟩
  · rw [suffixes, decorates.moves.suffixes, suffixes', List.append_assoc]
  · rw [clash, decorates.moves.clash, kept', standing]
    simp [Bool.or_assoc]
  · rintro _ isGiven
    cases given'.symm.trans isGiven
    rw [offset, tf, offsetStands, tfStands, List.any_append, List.any_append]
    simp

theorem asNum_kind {num : Tok} (is : t.asNum = some num) :
    num = t ∧ ∃ numeral, t.kind = .num numeral := by
  unfold Tok.asNum at is
  cases numeral : t.numeral with
  | none => simp [numeral] at is
  | some value =>
    rw [numeral] at is
    cases is
    exact ⟨rfl, value, numeral_kind numeral⟩

/-- The number between the brackets is read. -/
theorem leads_offset {bracket : Tok} (decorates : Decorates s node s')
    (isBracket : bracket.kind = .op .openBracket) :
    Leads Scan.step (offset bracket) (s'.step bracket) fun n s'' => Decorates s (node.give (.offset n)) s'' := by
  have opened : s'.step bracket = { s' with
      clash := s'.clash || s'.offset, offset := true, name := none, bracket := true } := by
    unfold Scan.step
    rw [isBracket]
  refine leads_bind (leads_tok fun t => ?_)
  split
  · exact leads_fail
  · refine leads_bind (leads_accept ?_ ?_)
    · exact leads_bind (leads_tok fun _ => leads_fail)
    · intro t num is
      obtain ⟨rfl, numeral, isNum⟩ := asNum_kind is
      dsimp only
      split
      · exact leads_fail
      · refine leads_bind (leads_expect ?_)
        intro u isClose
        refine leads_pure ?_
        have read : ((s'.step bracket).step num).step u =
            { s' with
              clash := s'.clash || s'.offset
              offset := true
              suffixes := s'.suffixes ++ [.offset (Py.natOf num.text)]
              name := none
              bracket := false } := by
          rw [opened]
          unfold Scan.step
          rw [isNum, isClose]
          rfl
        rw [read]
        exact decorates.give (.offset _) rfl (Bool.or_true _).symm (Bool.or_false _).symm rfl rfl

theorem suffixStart_kind {start : Tok} (is : t.suffixStart = some start) :
    start = t ∧ (t.kind = .op .openBracket ∨ ∃ tf, t.kind = .tf tf) := by
  unfold Tok.suffixStart at is
  split at is
  · cases is
    exact ⟨rfl, Or.inl ‹_›⟩
  · cases is
    exact ⟨rfl, Or.inr ⟨_, ‹_›⟩⟩
  · cases is

theorem reads_suffixed {primary : Parser Written} (reads : Reader primary) : Reader (suffixed primary) := by
  intro s ready
  refine leads_bind ((reads s ready).imp ?_)
  intro node s' follows
  split
  · rename_i suffixable
    refine leads_bind (leads_whileSome (I := fun d s' => Decorates s d.node s') ⟨follows, suffixable⟩ ?_ |>.imp ?_)
    · intro d s' decorates
      refine leads_accept decorates ?_
      intro t start is
      obtain ⟨rfl, bracket | ⟨tf, isTf⟩⟩ := suffixStart_kind is
      · dsimp only
        unfold decorate
        rw [bracket]
        dsimp only
        split
        · exact leads_fail
        · refine leads_bind ((leads_offset decorates bracket).imp ?_)
          exact fun n s'' after => leads_pure after
      · dsimp only
        unfold decorate
        rw [isTf]
        dsimp only
        split
        · exact leads_fail
        · refine leads_pure (decorates.give (.tf tf) ?_ ?_ ?_ ?_ ?_) <;> (unfold Scan.step; rw [isTf])
          · exact (Bool.or_false _).symm
          · exact (Bool.or_true _).symm
          · rfl
    · exact fun d s'' decorates => leads_pure decorates.toFollows
  · refine leads_bind (leads_tok fun t => ?_)
    split
    · exact leads_fail
    · exact leads_pure follows

/-! ## Calls and groups -/

/-- From `s` to `s'` the scan read the arguments of a call; a group's parenthesis leaves standing what ends its one
condition. -/
structure Arguing (s : Scan) (isGroup : Bool) (a : Args) (s' : Scan) : Prop where
  opens : s'.opens = (isGroup && a.kwargs.isEmpty) :: s.opens
  moves : Moves s s' (suffixesOf a.args ++ kwargSuffixes a.kwargs) (allKept a.args && kwargsKept a.kwargs)
  stands : ∀ only, a.args = [only] → a.kwargs = [] → Stands s' only

theorem step_name (is : t.kind = .name) (s : Scan) :
    s.step t = { s.fresh with name := some t.text } := by
  unfold Scan.step
  rw [is]

theorem step_assign (is : t.kind = .op .assign) (s : Scan) : s.step t = s.assign := by
  unfold Scan.step
  rw [is]

/-- One more argument is read. -/
theorem leads_argument {orExpr : Parser Written} (reads : Reader orExpr) {isGroup : Bool} {a : Args}
    (ready : s'.Ready) (opens : s'.opens = (isGroup && a.kwargs.isEmpty) :: s.opens)
    (moves : Moves s s' (suffixesOf a.args ++ kwargSuffixes a.kwargs) (allKept a.args && kwargsKept a.kwargs)) :
    Leads Scan.step (argument orExpr t a) s' (Arguing s isGroup) := by
  refine leads_bind (leads_acceptTwo ?_ ?_)
  · dsimp only
    split
    · exact leads_failHere
    · rename_i positional
      have unnamed : a.kwargs = [] := not_not.mp positional
      refine leads_bind ((reads s' ready).imp ?_)
      intro item s'' follows
      refine leads_pure ⟨follows.opens.trans opens, ?_, ?_⟩
      · rw [unnamed] at moves
        have both := moves.trans follows.moves
        simpa [unnamed, kwargSuffixes, kwargsKept] using both
      · intro only alone _
        obtain ⟨-, rfl⟩ : a.args = [] ∧ item = only := by simpa using List.append_eq_singleton_iff.mp alone
        exact follows.stands
  · intro key equals name is
    unfold named at is
    split at is
    · rename_i kinds
      dsimp only
      split
      · exact leads_fail
      · have read : (s'.step key).step equals = { s'.fresh with opens := false :: s.opens } := by
          rw [step_name kinds.1, step_assign kinds.2, Scan.assign]
          simp only [Scan.fresh, opens, List.tail_cons]
        rw [read]
        refine leads_bind ((reads _ ⟨rfl, rfl⟩).imp ?_)
        intro value s'' follows
        refine leads_pure ⟨?_, ?_, ?_⟩
        · rw [follows.opens]
          simp
        · have both := moves.trans (follows.moves.of_eq
            (s := { s'.fresh with opens := false :: s.opens }) (t := s') rfl rfl rfl rfl)
          simpa [List.append_assoc, Bool.and_assoc] using both
        · intro only _ unnamed
          exact absurd unnamed (by simp)
    · cases is

theorem leads_arguments {orExpr : Parser Written} (reads : Reader orExpr) {isGroup : Bool}
    (ready : s'.Ready) (opens : s'.opens = isGroup :: s.opens) (moves : Moves s s' [] true) :
    Leads Scan.step (arguments orExpr t) s' (Arguing s isGroup) := by
  refine leads_bind (leads_tok fun u => ?_)
  split
  · exact leads_pure ⟨by simpa using opens, moves, fun only alone => by cases alone⟩
  · refine leads_bind ((leads_argument (a := {}) reads ready (by simpa using opens) moves).imp ?_)
    intro a s'' arguing
    refine leads_whileSome arguing ?_
    intro a s'' arguing
    refine leads_takeIf arguing ?_
    intro comma is
    dsimp only
    rw [step_plain (by rw [is]; rfl)]
    exact leads_argument reads (ready_fresh s'') arguing.opens (arguing.moves.of_eq rfl rfl rfl rfl)

/-- The closing parenthesis of a call, and its node. -/
theorem leads_callOf {a : Args} (arguing : Arguing s (groupName t.text).isSome a s') :
    Leads Scan.step (callOf t a) s'.closeParen (Follows s) := by
  have opens := arguing.opens
  unfold callOf
  split
  · rename_i op isGroup unnamed
    rw [isGroup, unnamed] at opens
    rw [closeParen_grouping opens]
    split
    · exact leads_fail
    · rename_i items some_
      have items_ : Items s a.args { s' with opens := s.opens, name := none, bracket := false } :=
        ⟨some_, rfl, by
          have moves := arguing.moves
          rw [unnamed] at moves
          exact (by simpa [kwargSuffixes, kwargsKept] using moves : Moves s s' _ _).of_eq rfl rfl rfl rfl,
          fun only alone => arguing.stands only alone unnamed⟩
      exact leads_pure (items_.group op)
  · rename_i noGroup
    have closed : ((groupName t.text).isSome && a.kwargs.isEmpty) = false := by
      cases isGroup : groupName t.text with
      | none => rfl
      | some op =>
        cases unnamed : a.kwargs with
        | nil => exact absurd unnamed (noGroup op isGroup)
        | cons first rest => rfl
    rw [closed] at opens
    rw [closeParen_call opens]
    refine leads_pure ⟨rfl, ?_, ?_⟩
    · have moves : Moves s { s'.fresh with opens := s.opens } _ _ := arguing.moves.of_eq rfl rfl rfl rfl
      simpa [Written.suffixes, Written.kept, once] using moves
    · rintro _ ⟨⟩
      exact ⟨rfl, rfl⟩

theorem asName_kind {name : Tok} (is : t.asName = some name) : name = t ∧ t.kind = .name := by
  unfold Tok.asName at is
  split at is
  · cases is
    exact ⟨rfl, ‹_›⟩
  · cases is

theorem reads_primary (deeperReads : ∀ g ∈ deeper, g.Reads) {orExpr : Parser Written}
    (reads : Reader orExpr) : Reader (primary deeper orExpr) := by
  intro s ready
  refine leads_bind (leads_accept ?_ ?_)
  · refine leads_bind (leads_accept ?_ ?_)
    · refine leads_bind (leads_takeIf ?_ ?_)
      · exact leads_bind (leads_tok fun _ => leads_fail)
      · intro t is
        dsimp only
        rw [step_openParen is, openParen_grouping ready]
        refine leads_bind ((reads _ ⟨rfl, rfl⟩).imp ?_)
        intro node s' follows
        refine leads_bind (leads_expect ?_)
        intro t is
        rw [step_closeParen is, closeParen_grouping follows.opens]
        exact leads_pure ⟨rfl, follows.moves.of_eq rfl rfl rfl rfl, follows.stands⟩
    · intro t name is
      obtain ⟨rfl, isName⟩ := asName_kind is
      dsimp only
      rw [step_name isName]
      refine leads_bind (leads_takeIf ?_ ?_)
      · refine leads_pure ⟨rfl, (Moves.refl s).of_eq rfl rfl rfl rfl, ?_⟩
        rintro _ ⟨⟩
        exact ⟨rfl, rfl⟩
      · intro t is
        dsimp only
        rw [step_openParen is]
        refine leads_enter deeperReads fun g gReads => ?_
        have opened : Moves s ({ s.fresh with name := some name.text } : Scan).openParen [] true :=
          (Moves.refl s).of_eq rfl rfl rfl rfl
        have arguing : Leads Scan.step (arguments g.orExpr name)
            ({ s.fresh with name := some name.text } : Scan).openParen
            (Arguing s (groupName name.text).isSome) := leads_arguments gReads.orExpr ⟨rfl, rfl⟩ rfl opened
        refine leads_bind (arguing.imp ?_)
        intro a s' arguing
        refine leads_bind (leads_expect ?_)
        intro t is
        rw [step_closeParen is]
        exact leads_callOf arguing
  · intro t node is
    exact leads_pure (follows_value ready is)

/-! ## The levels -/

theorem reads_levelOver (deeperReads : ∀ g ∈ deeper, g.Reads) : (levelOver deeper).Reads := by
  have orReads := reads_orExpr deeperReads
  have primaryReads := reads_primary deeperReads orReads
  have unaryReads := reads_unary deeperReads (reads_suffixed primaryReads)
  have comparisonReads := reads_comparison (reads_additive (reads_term unaryReads)) (reads_literal primaryReads)
  have notReads := reads_notExpr deeperReads comparisonReads
  exact ⟨orReads, reads_andExpr notReads, notReads, unaryReads⟩

theorem reads_grammar (n : Nat) : (grammar n).Reads := by
  induction n with
  | zero => exact reads_levelOver (by simp)
  | succ n ih =>
    refine reads_levelOver ?_
    rintro _ ⟨⟩
    exact ih

end

/-! ## The tokens of a text -/

/-- No token of the text is its end. -/
theorem matchToken_kind {text : Text} {length : Nat}
    (matched : matchToken text = some (some kind, length)) : kind ≠ .eof := by
  cases text with
  | nil => cases matched
  | cons c rest =>
    dsimp only [matchToken] at matched
    split at matched
    · cases matched
    · split at matched
      · cases matched
        simp
      · split at matched
        · obtain ⟨n, -, is⟩ := Option.map_eq_some_iff.mp matched
          cases is
          simp
        · split at matched
          · cases matched
            simp
          · split at matched
            · cases matched
              cases Keyword.of ((c :: rest).takeWhile nameChar) <;> simp
            · split at matched
              · obtain ⟨tf, -, is⟩ := Option.map_eq_some_iff.mp matched
                cases is
                simp
              · obtain ⟨op, -, is⟩ := Option.map_eq_some_iff.mp matched
                cases is
                simp

/-- The tokens end with the end, which comes once. -/
theorem tokensFrom_end {pos skip : Nat} {text : Text} {toks : List Tok} (ran : tokensFrom pos skip text = .ok toks) :
    ∃ init e, toks = init ++ [e] ∧ e.kind = .eof ∧ ∀ t ∈ init, t.kind ≠ .eof := by
  induction text generalizing pos skip toks with
  | nil =>
    cases skip <;> cases ran <;> exact ⟨[], _, rfl, rfl, by simp⟩
  | cons c rest ih =>
    cases skip with
    | succ skip => exact ih ran
    | zero =>
      unfold tokensFrom at ran
      cases matched : matchToken (c :: rest) with
      | none =>
        rw [matched] at ran
        cases ran
      | some answer =>
        obtain ⟨kind, length⟩ := answer
        rw [matched] at ran
        cases kind with
        | none => exact ih ran
        | some kind =>
          dsimp only at ran
          cases later : tokensFrom (pos + 1) (length - 1) rest with
          | error e =>
            rw [later] at ran
            cases ran
          | ok toks =>
            rw [later] at ran
            cases ran
            obtain ⟨init, e, rfl, isEnd, others⟩ := ih later
            refine ⟨_ :: init, e, rfl, isEnd, ?_⟩
            intro t mem
            rcases List.mem_cons.mp mem with rfl | mem
            · exact matchToken_kind matched
            · exact others t mem

theorem tokenize_end {text : Text} {toks : List Tok} (ran : tokenize text = .ok toks) :
    ∃ init e, toks = init ++ [e] ∧ e.kind = .eof ∧ ∀ t ∈ init, t.kind ≠ .eof := by
  unfold tokenize at ran
  split at ran
  · cases ran
  · exact tokensFrom_end ran

/-- What is left at the end is the end alone. -/
theorem left_at_end {init used rest : List Tok} {e : Tok} (split : init ++ [e] = used ++ rest)
    (others : ∀ t ∈ init, t.kind ≠ .eof) (atEnd : (rest.headD ⟨.eof, [], 0⟩).kind = .eof) (isEnd : e.kind = .eof) :
    (scan (init ++ [e])).suffixes = (scan used).suffixes ∧ (scan (init ++ [e])).clash = (scan used).clash := by
  have last (toks : List Tok) : scan (toks ++ [e]) = (scan toks).fresh := by
    rw [scan, List.foldl_append, List.foldl_cons, List.foldl_nil, step_plain (by rw [isEnd]; rfl)]
    rfl
  cases rest with
  | nil =>
    rw [split, List.append_nil]
    exact ⟨rfl, rfl⟩
  | cons t more =>
    have isEnd' : t.kind = .eof := atEnd
    cases more using List.reverseRecOn with
    | nil =>
      obtain ⟨rfl, -⟩ := List.append_inj' split rfl
      rw [last]
      exact ⟨rfl, rfl⟩
    | append_singleton more u _ =>
      have : init = used ++ t :: more := by
        have split' : init ++ [e] = (used ++ t :: more) ++ [u] := by simpa using split
        exact (List.append_inj' split' rfl).1
      exact absurd isEnd' (others t (by rw [this]; simp))

/-! ## Kept suffixes are shown -/

/-- What is done for suffixes that are not there changes nothing. -/
theorem foldl_skip {α : Type} {f : α → Suffix → α} {p : Suffix → Bool}
    (skips : ∀ a x, p x = false → f a x = a) (none_ : given.countP p = 0) (a : α) :
    given.foldl f a = a := by
  induction given with
  | nil => rfl
  | cons x rest ih =>
    obtain ⟨first, later⟩ := List.forall_mem_cons.mp (List.countP_eq_zero.mp none_)
    rw [List.foldl_cons, skips a x (by simpa using first)]
    exact ih (List.countP_eq_zero.mpr later)

/-- The one suffix of a kind decides. -/
theorem foldl_once {α : Type} {f : α → Suffix → α} {p : Suffix → Bool} {x : Suffix} {b : α}
    (skips : ∀ a y, p y = false → f a y = a) (alone : given.countP p ≤ 1) (mem : x ∈ given)
    (is : p x = true) (sets : ∀ a, f a x = b) (a : α) : given.foldl f a = b := by
  obtain ⟨before, after, rfl⟩ := List.append_of_mem mem
  rw [List.countP_append, List.countP_cons_of_pos is] at alone
  rw [List.foldl_append, List.foldl_cons, sets]
  exact foldl_skip skips (by omega) b

/-- What a node was given once of its kind is what it shows. -/
theorem once_shown (kept : once given = true) :
    (∀ n, .offset n ∈ given → offsetOf given = n) ∧ ∀ tf, .tf tf ∈ given → tfOf given = some tf := by
  unfold once at kept
  obtain ⟨offsets, tfs⟩ := Bool.and_eq_true_iff.mp kept
  constructor
  · intro n mem
    refine foldl_once ?_ (of_decide_eq_true offsets) mem rfl (fun _ => rfl) 0
    rintro a (m | tf) other
    · cases other
    · rfl
  · intro tf mem
    refine foldl_once ?_ (of_decide_eq_true tfs) mem rfl (fun _ => rfl) none
    rintro a (m | tf) other
    · rfl
    · cases other

/-! ## A text that is accepted -/

/-- The scan follows a screen, and the end comes after it. -/
theorem screen_reads {toks rest : List Tok} {tree : Written} (read : screen toks = .ok (tree, rest)) :
    (rest.headD ⟨.eof, [], 0⟩).kind = .eof ∧ ∃ used, toks = used ++ rest ∧ Follows {} tree (scan used) := by
  cases ran : (grammar maxDepth).orExpr toks with
  | error e =>
    simp only [screen, bind, StateT.bind, Except.bind, ran] at read
    cases read
  | ok answer =>
    obtain ⟨node, left⟩ := answer
    simp only [screen, bind, StateT.bind, Except.bind, ran, tok, Descent.look] at read
    split at read
    · rename_i isEnd
      cases read
      exact ⟨isEnd, (reads_grammar maxDepth).orExpr {} ⟨rfl, rfl⟩ toks tree rest ran⟩
    · cases read

/-- A text that is accepted has the suffixes of its tree, and none was dropped exactly where none clashes. -/
theorem suffixes_kept_iff {text : Text} {node : Node} (accepted : parse text = .ok node) :
    ∃ tree, parseWritten text = .ok tree ∧ tree.node = node ∧ tree.suffixes = suffixesIn text ∧
      (tree.kept = true ↔ clashes text = false) := by
  unfold parse at accepted
  cases written : parseWritten text with
  | error e =>
    rw [written] at accepted
    cases accepted
  | ok tree =>
    rw [written] at accepted
    cases accepted
    refine ⟨tree, rfl, rfl, ?_⟩
    unfold parseWritten at written
    split at written
    · cases written
    · unfold suffixesIn clashes
      cases tokens : tokenize text with
      | error e =>
        rw [tokens] at written
        cases written
      | ok toks =>
        rw [tokens] at written
        dsimp only at written ⊢
        cases read : screen toks with
        | error e =>
          rw [read] at written
          cases written
        | ok answer =>
          rw [read] at written
          obtain ⟨node, rest⟩ := answer
          cases written
          obtain ⟨atEnd, used, split, follows⟩ := screen_reads read
          obtain ⟨init, e, rfl, isEnd, others⟩ := tokenize_end tokens
          obtain ⟨suffixes, clash⟩ := left_at_end split others atEnd isEnd
          rw [suffixes, clash, follows.moves.suffixes, follows.moves.clash]
          simp

/-- A timeframe stands, and no suffix clashes with it. -/
def mixedText : Text := "(high@1d)[1] > low[2]".toList

theorem mixedText_accepted : (parse mixedText).toOption.isSome = true := by decide +kernel

theorem mixed_suffixes_kept :
    ∃ tree, parseWritten mixedText = .ok tree ∧ tree.suffixes = suffixesIn mixedText ∧
      (tree.kept = true ↔ clashes mixedText = false) := by
  cases accepted : parse mixedText with
  | error e => exact absurd mixedText_accepted (by simp [accepted, Except.toOption])
  | ok node =>
    obtain ⟨tree, written, -, suffixes, kept⟩ := suffixes_kept_iff accepted
    exact ⟨tree, written, suffixes, kept⟩

/-- A second offset outside the parentheses, or a second timeframe outside a group of one, overwrites the first. -/
theorem inner_suffix_dropped :
    (parse "(close[1])[2]".toList).toOption.map Node.toText = some "close[2]".toList ∧
      suffixesIn "(close[1])[2]".toList = [.offset 1, .offset 2] ∧
      (parse "ALL(close@1d)@15m".toList).toOption.map Node.toText = some "close@15m".toList ∧
      suffixesIn "ALL(close@1d)@15m".toList = [.tf .d1, .tf .m15] ∧
      (parse "close[1][2]".toList).toOption.map Node.toText = none := by
  decide +kernel

end AdvanceTrading.ScreenQL
