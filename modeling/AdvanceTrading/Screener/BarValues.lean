import AdvanceTrading.Screener.LookAhead

/-!
# Values by bar

What an evaluation gives for a timeframe is a constant or has one value for each
of its bars (`Value.Sized`, `Node.ev_left`), if every function of `impl` does. On
the last bar each operator is then the operation on its operands' last values.
-/

namespace AdvanceTrading.Screener

/-! ## One value a bar -/

/-- A constant, or one value for each of `n` bars. -/
def Value.Sized (n : Nat) : Value → Prop
  | .const _ => True
  | .series cells => cells.length = n

/-- Every function gives one value for each bar of its frame. -/
def PerBar {clock : Clock} (library : Library clock) : Prop :=
  ∀ name tf (frame : Frame clock tf) vs named v, library name tf frame vs named = .ok v → v.Sized frame.rows.length

variable (f : Bool → Bool → Bool)

section Sizes

variable {n : Nat} {v w : Value}

theorem Value.Sized.map (f : Cell → Cell) (sized : v.Sized n) : (v.map f).Sized n := by
  cases v with
  | const c => trivial
  | series cells => exact (List.length_map f).trans sized

theorem Value.Sized.map₂ (f : Cell → Cell → Cell) (left : v.Sized n) (right : w.Sized n) :
    (Value.map₂ f v w).Sized n := by
  cases v <;> cases w <;> simp only [Value.Sized, Value.map₂] at left right ⊢
  · rw [List.length_map, right]
  · rw [List.length_map, left]
  · rw [List.length_zipWith, left, right, Nat.min_self]

theorem Value.Sized.cmp (op : CompareOp) (left : v.Sized n) (right : w.Sized n) : (Value.cmp op v w).Sized n := by
  unfold Value.cmp
  split
  · trivial
  · exact left.map₂ _ right

theorem Value.Sized.connect (left : v.Sized n) (right : w.Sized n) :
    (Value.connect f v w).Sized n := by
  cases v <;> cases w <;> simp only [Value.Sized, Value.connect] at left right ⊢
  · rw [List.length_map, right]
  · rw [List.length_map, left]
  · rw [List.length_zipWith, left, right, Nat.min_self]

theorem Value.Sized.negate (sized : v.Sized n) : v.negate.Sized n := by
  cases v with
  | const c => trivial
  | series cells => exact (List.length_map _).trans sized

theorem Value.Sized.isIn (items : List Cell) (sized : v.Sized n) : (v.isIn items).Sized n := by
  cases v with
  | const c => trivial
  | series cells => exact (List.length_map _).trans sized

theorem Value.Sized.shift (offset : Int) (sized : v.Sized n) : (v.shift offset).Sized n := by
  cases v with
  | const c => trivial
  | series cells =>
    simp only [Value.Sized] at sized
    simp only [Value.shift, Value.Sized]
    split <;> simp <;> omega

theorem Frame.field_sized {clock : Clock} {tf : Timeframe} (frame : Frame clock tf) (name : Text) :
    (frame.field name).Sized frame.rows.length := by
  unfold Frame.field
  cases Column.ofName name with
  | some c =>
    show ((frame.column c).map Cell.ofNumber).length = _
    unfold Frame.column
    split <;> simp
  | none =>
    show (frame.rows.map fun _ => Cell.nan).length = _
    simp

theorem foldl_sized {rest : List Value} (first : v.Sized n) (others : ∀ u ∈ rest, u.Sized n) :
    (rest.foldl (Value.connect f) v).Sized n := by
  induction rest generalizing v with
  | nil => exact first
  | cons u rest ih =>
    rw [List.forall_mem_cons] at others
    exact ih (first.connect f others.1) others.2

end Sizes

section Evaluated

variable {clock : Clock} {setting : Setting clock}

/-- An evaluation keeps the frames it finds, and its value is one of the timeframe's bars. -/
def Left (tf : Timeframe) (s : Frames clock) (v : Value) (s' : Frames clock) : Prop :=
  Grown s s' ∧ ∀ frame, s tf = some frame → v.Sized frame.rows.length

theorem grown_update {s : Frames clock} {tf : Timeframe} (isNew : s tf = none)
    (frame : Frame clock tf) : Grown s (Function.update s tf (some frame)) := by
  intro tf' frame' given
  have ne : tf' ≠ tf := by
    rintro rfl
    rw [isNew] at given
    exact nomatch given
  rw [Function.update_of_ne ne]
  exact given

theorem frame_returns (tf : Timeframe) (s : Frames clock) :
    Returns (setting.frame tf) s fun frame s' => Grown s s' ∧ s' tf = some frame := by
  unfold Setting.frame
  refine (Returns.read ⟨rfl, rfl⟩ : Returns _ s fun a s' => a = s ∧ s' = s).bind ?_
  rintro _ _ ⟨isRead, isLeft⟩
  rw [isRead, isLeft]
  cases given : s tf with
  | some frame => exact .ret ⟨.refl s, given⟩
  | none =>
    refine (Returns.lift fun _ _ => rfl : Returns _ s fun _ s' => s' = s).bind ?_
    rintro built _ isLeft
    rw [isLeft]
    refine (Returns.write rfl : Returns _ _ fun _ s' => s' = Function.update s tf (some built)).bind ?_
    rintro _ _ isLeft
    rw [isLeft]
    exact .ret ⟨grown_update given built, Function.update_self _ _ _⟩

theorem align_returns {src dst : Timeframe} {v : Value} {s : Frames clock} {frame : Frame clock src}
    (given : s src = some frame) (sized : v.Sized frame.rows.length) :
    Returns (setting.align v src dst) s (Left dst s) := by
  unfold Setting.align
  cases v with
  | const c => exact .ret ⟨.refl s, fun _ _ => trivial⟩
  | series cells =>
    dsimp only
    split
    case isTrue same =>
      subst same
      refine .ret ⟨.refl s, ?_⟩
      intro frame' given'
      obtain rfl := Option.some.inj (given.symm.trans given')
      exact sized
    case isFalse =>
      refine (frame_returns src s).bind ?_
      rintro from_ s₁ ⟨grown₁, -⟩
      refine (frame_returns dst s₁).bind ?_
      rintro onto s₂ ⟨grown₂, isOnto⟩
      refine .ret ⟨grown₁.trans grown₂, ?_⟩
      intro frame' given'
      obtain rfl := Option.some.inj (isOnto.symm.trans (grown₂ _ _ (grown₁ _ _ given')))
      exact List.length_map _

mutual

/-- A node's value has one cell for each bar of its timeframe. -/
theorem Node.ev_left (perBar : PerBar setting.library) (node : Node) (tf : Timeframe)
    (s : Frames clock) : Returns (node.ev setting tf) s (Left tf s) := by
  cases node with
  | num | str | bool => exact .ret ⟨.refl s, fun _ _ => trivial⟩
  | param name =>
    simp only [Node.ev]
    cases setting.params name with
    | none => exact .raise _
    | some c => exact .ret ⟨.refl s, fun _ _ => trivial⟩
  | field name offset own =>
    simp only [Node.ev]
    refine (frame_returns _ s).bind ?_
    rintro frame s₁ ⟨grown₁, isFrame⟩
    refine (align_returns isFrame ((frame.field_sized name).shift offset)).mono ?_
    rintro v s₂ ⟨grown₂, sized⟩
    exact ⟨grown₁.trans grown₂, fun frame' given => sized frame' (grown₁ _ _ given)⟩
  | call name args kwargs offset own =>
    simp only [Node.ev]
    refine (frame_returns _ s).bind ?_
    rintro frame s₁ ⟨grown₁, isFrame⟩
    refine (evAll_grown perBar args _ s₁).bind ?_
    rintro values s₂ grown₂
    refine (evNamed_grown perBar kwargs _ s₂).bind ?_
    rintro named s₃ grown₃
    refine (Returns.lift fun v given => ⟨perBar _ _ _ _ _ v given, rfl⟩ :
      Returns _ s₃ fun v s' => v.Sized frame.rows.length ∧ s' = s₃).bind ?_
    rintro v _ ⟨sized, rfl⟩
    have still := grown₃ _ _ (grown₂ _ _ isFrame)
    refine (align_returns still (sized.shift offset)).mono ?_
    rintro w s₄ ⟨grown₄, sized⟩
    have grown := grown₁.trans (grown₂.trans grown₃)
    exact ⟨grown.trans grown₄, fun frame' given => sized frame' (grown _ _ given)⟩
  | unary operand =>
    simp only [Node.ev]
    refine (Node.ev_left perBar operand tf s).bind ?_
    rintro v s₁ ⟨grown₁, sized⟩
    exact .ret ⟨grown₁, fun frame given => (sized frame given).map _⟩
  | binary op left right =>
    simp only [Node.ev]
    refine (Node.ev_left perBar left tf s).bind ?_
    rintro v s₁ ⟨grown₁, sized₁⟩
    refine (Node.ev_left perBar right tf s₁).bind ?_
    rintro w s₂ ⟨grown₂, sized₂⟩
    exact .ret ⟨grown₁.trans grown₂,
      fun frame given => (sized₁ frame given).map₂ _ (sized₂ frame (grown₁ _ _ given))⟩
  | compare op left right =>
    simp only [Node.ev]
    refine (Node.ev_left perBar left tf s).bind ?_
    rintro v s₁ ⟨grown₁, sized₁⟩
    refine (Node.ev_left perBar right tf s₁).bind ?_
    rintro w s₂ ⟨grown₂, sized₂⟩
    exact .ret ⟨grown₁.trans grown₂,
      fun frame given => (sized₁ frame given).cmp _ (sized₂ frame (grown₁ _ _ given))⟩
  | between value low high =>
    simp only [Node.ev]
    refine (Node.ev_left perBar value tf s).bind ?_
    rintro v s₁ ⟨grown₁, sized₁⟩
    refine (Node.ev_left perBar low tf s₁).bind ?_
    rintro lo s₂ ⟨grown₂, sized₂⟩
    refine (Node.ev_left perBar high tf s₂).bind ?_
    rintro hi s₃ ⟨grown₃, sized₃⟩
    refine .ret ⟨grown₁.trans (grown₂.trans grown₃), ?_⟩
    intro frame given
    have given₁ := grown₁ _ _ given
    have given₂ := grown₂ _ _ given₁
    have sized := sized₁ frame given
    exact (sized.cmp _ (sized₂ frame given₁)).connect _ (sized.cmp _ (sized₃ frame given₂))
  | isIn value items =>
    simp only [Node.ev]
    refine (Node.ev_left perBar value tf s).bind ?_
    rintro v s₁ ⟨grown₁, sized⟩
    refine (evAll_grown perBar items tf s₁).bind ?_
    rintro cells s₂ grown₂
    refine (Returns.lift fun _ _ => rfl : Returns _ s₂ fun _ s' => s' = s₂).bind ?_
    rintro literals _ rfl
    exact .ret ⟨grown₁.trans grown₂, fun frame given => (sized frame given).isIn _⟩
  | logic op items =>
    simp only [Node.ev]
    refine (evAll_left perBar items tf s).bind ?_
    rintro parts s₁ ⟨grown₁, sized⟩
    cases parts with
    | nil => exact .raise _
    | cons first rest =>
      refine .ret ⟨grown₁, fun frame given => ?_⟩
      have all := List.forall_mem_cons.mp (sized frame given)
      exact foldl_sized _ all.1 all.2
  | not item =>
    simp only [Node.ev]
    refine (Node.ev_left perBar item tf s).bind ?_
    rintro v s₁ ⟨grown₁, sized⟩
    exact .ret ⟨grown₁, fun frame given => (sized frame given).negate⟩

theorem evAll_left (perBar : PerBar setting.library) (nodes : List Node) (tf : Timeframe) (s : Frames clock) :
    Returns (evAll setting nodes tf) s fun vs s' =>
      Grown s s' ∧ ∀ frame, s tf = some frame → ∀ v ∈ vs, v.Sized frame.rows.length := by
  cases nodes with
  | nil => exact .ret ⟨.refl s, fun _ _ => List.forall_mem_nil _⟩
  | cons node rest =>
    simp only [evAll]
    refine (Node.ev_left perBar node tf s).bind ?_
    rintro v s₁ ⟨grown₁, sized₁⟩
    refine (evAll_left perBar rest tf s₁).bind ?_
    rintro vs s₂ ⟨grown₂, sized₂⟩
    exact .ret ⟨grown₁.trans grown₂, fun frame given =>
      List.forall_mem_cons.mpr ⟨sized₁ frame given, sized₂ frame (grown₁ _ _ given)⟩⟩

theorem evAll_grown (perBar : PerBar setting.library) (nodes : List Node) (tf : Timeframe)
    (s : Frames clock) : Returns (evAll setting nodes tf) s fun _ s' => Grown s s' :=
  (evAll_left perBar nodes tf s).mono fun _ _ left => left.1

theorem evNamed_grown (perBar : PerBar setting.library) (named : List (Text × Node))
    (tf : Timeframe) (s : Frames clock) :
    Returns (evNamed setting named tf) s fun _ s' => Grown s s' := by
  cases named with
  | nil => exact .ret (.refl s)
  | cons entry rest =>
    obtain ⟨key, node⟩ := entry
    simp only [evNamed]
    refine (Node.ev_left perBar node tf s).bind ?_
    rintro v s₁ ⟨grown₁, -⟩
    refine (evNamed_grown perBar rest tf s₁).bind ?_
    rintro vs s₂ grown₂
    exact .ret (grown₁.trans grown₂)

end

end Evaluated

/-! ## The last bar -/

section LastBar

variable {n : Nat} {v w : Value}

/-- The last value of a series of `n + 1` bars. -/
theorem last_series {cells : List Cell} (sized : cells.length = n + 1) : (Value.series cells).last = cells[n] := by
  unfold Value.last
  simp [List.getLast?_eq_getElem?, sized]

theorem last_map (f : Cell → Cell) (sized : v.Sized (n + 1)) : (v.map f).last = f v.last := by
  cases v with
  | const c => rfl
  | series cells =>
    have mapped : (cells.map f).length = n + 1 := (List.length_map f).trans sized
    rw [last_series sized]
    exact (last_series mapped).trans (List.getElem_map f)

theorem last_map₂ (f : Cell → Cell → Cell) (left : v.Sized (n + 1)) (right : w.Sized (n + 1)) :
    (Value.map₂ f v w).last = f v.last w.last := by
  cases v with
  | const c => exact (congrArg Value.last (by cases w <;> rfl)).trans (last_map (f c) right)
  | series cells =>
    cases w with
    | const d => exact last_map (fun c => f c d) left
    | series cells' =>
      have zipped : (List.zipWith f cells cells').length = n + 1 := by
        rw [List.length_zipWith, left, right, Nat.min_self]
      rw [last_series left, last_series right]
      exact (last_series zipped).trans List.getElem_zipWith

theorem last_cmp (op : CompareOp) (left : v.Sized (n + 1)) (right : w.Sized (n + 1)) :
    (Value.cmp op v w).last = .flag (op.cells v.last w.last) := by
  unfold Value.cmp
  split
  case isTrue absent =>
    have none_holds : op.cells v.last w.last = false := by
      unfold CompareOp.cells
      rw [if_pos]
      rcases absent with rfl | rfl <;> simp [Value.last, Cell.missing]
    rw [none_holds]
    rfl
  case isFalse => exact last_map₂ _ left right

theorem connect_eq_map₂ (v w : Value) :
    Value.connect f v w = Value.map₂ (fun c d => .flag (f (if v.isConst then c.truthy else c.asBool)
      (if w.isConst then d.truthy else d.asBool))) v w := by
  cases v <;> cases w <;> rfl

theorem last_connect {a b : Bool} (left : v.Sized (n + 1)) (right : w.Sized (n + 1))
    (first : v.last = .flag a) (second : w.last = .flag b) :
    (Value.connect f v w).last = .flag (f a b) := by
  rw [connect_eq_map₂, last_map₂ _ left right, first, second]
  simp [Cell.truthy, Cell.asBool, Cell.missing]

theorem negate_eq_map (v : Value) :
    v.negate = v.map fun c => .flag !(if v.isConst then c.truthy else c.asBool) := by
  cases v <;> rfl

theorem last_negate {a : Bool} (sized : v.Sized (n + 1)) (was : v.last = .flag a) : v.negate.last = .flag !a := by
  rw [negate_eq_map, last_map _ sized, was]
  simp [Cell.truthy, Cell.asBool, Cell.missing]

theorem absent_same (items : List Cell) : items.any Cell.absent.same = false := by
  rw [List.any_eq_false]
  intro d _
  cases d <;> simp [Cell.same, Cell.number, Cell.missing]

theorem last_isIn (items : List Cell) (sized : v.Sized (n + 1)) :
    (v.isIn items).last = .flag (items.any v.last.same) := by
  cases v with
  | const c =>
    show Cell.flag (decide (c ≠ .absent) && items.any c.same) = .flag (items.any c.same)
    by_cases absent : c = .absent
    · rw [absent, absent_same, Bool.and_false]
    · simp [absent]
  | series cells => exact last_map (fun c => .flag (items.any c.same)) (v := .series cells) sized

end LastBar

end AdvanceTrading.Screener
