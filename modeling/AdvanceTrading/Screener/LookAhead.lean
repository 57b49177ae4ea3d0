import AdvanceTrading.Misc.TwoRuns
import AdvanceTrading.Screener.LaterBars
import AdvanceTrading.Screener.Runtime

/-!
# No look-ahead

A screen evaluated on a symbol's frames and on the same frames with later bars.
Both evaluations build the same frames as far as they are shown by an instant `c`
(`World`), and every value they come to is the same as far as its frame is shown
(`Seen`): a function of a frame by being causal, a field and a shifted series bar
by bar, an aligned one because it looks up what was known at the bar's close.
-/

namespace AdvanceTrading.Screener

variable {clock : Clock}

/-! ## What a later bar may not change -/

/-- The values of the first `n` bars are the same. -/
def FirstAgree (n : Nat) : Value → Value → Prop
  | .const c, .const d => c = d
  | .series cs, .series ds => cs.take n = ds.take n
  | _, _ => False

/-- Arguments by name that agree on the first `n` bars. -/
def NamedAgree (n : Nat) (v w : Text × Value) : Prop := v.1 = w.1 ∧ FirstAgree n v.2 w.2

/-- A causal function: what it gives for the first `n` bars of its frame depends on no later bar. -/
def Causal (library : Library clock) : Prop :=
  ∀ (name : Text) (tf : Timeframe) (f g : Frame clock tf) (n : Nat) (vs ws : List Value)
    (named named' : List (Text × Value)),
    f.columns = g.columns → f.rows.take n = g.rows.take n → n ≤ f.rows.length → n ≤ g.rows.length →
    List.Forall₂ (FirstAgree n) vs ws → List.Forall₂ (NamedAgree n) named named' →
    (∃ e, library name tf f vs named = .error e ∧ library name tf g ws named' = .error e)
      ∨ ∃ v w, library name tf f vs named = .ok v ∧ library name tf g ws named' = .ok w
          ∧ FirstAgree n v w

/-- `MAX_OFFSET`. -/
def maxOffset : Int := 500

/-- `_offset` and `_tf` of the validator: no offset ahead, no timeframe finer than the screen's. -/
def checkedAt (baseTf : Timeframe) (offset : Int) (own : Option Timeframe) : Bool :=
  0 ≤ offset && offset ≤ maxOffset && own.all fun tf => baseTf.minutes ≤ tf.minutes

mutual

/-- The validator's checks of offsets and timeframes, throughout a tree. -/
def Node.checked (baseTf : Timeframe) : Node → Bool
  | .num _ | .str _ | .bool _ | .param _ => true
  | .field _ offset own => checkedAt baseTf offset own
  | .call _ args kwargs offset own =>
      checkedAt baseTf offset own && allChecked baseTf args && namedChecked baseTf kwargs
  | .unary operand => operand.checked baseTf
  | .binary _ left right | .compare _ left right => left.checked baseTf && right.checked baseTf
  | .between value low high =>
      value.checked baseTf && low.checked baseTf && high.checked baseTf
  | .isIn value items => value.checked baseTf && allChecked baseTf items
  | .logic _ items => allChecked baseTf items
  | .not item => item.checked baseTf

def allChecked (baseTf : Timeframe) : List Node → Bool
  | [] => true
  | node :: rest => node.checked baseTf && allChecked baseTf rest

def namedChecked (baseTf : Timeframe) : List (Text × Node) → Bool
  | [] => true
  | (_, node) :: rest => node.checked baseTf && namedChecked baseTf rest

end

/-! ## Values that agree -/

variable (f : Bool → Bool → Bool)

section Agreement

variable {n : Nat} {v v' w w' : Value}

theorem FirstAgree.map (f : Cell → Cell) (agree : FirstAgree n v w) :
    FirstAgree n (v.map f) (w.map f) := by
  cases v <;> cases w <;> simp only [FirstAgree, Value.map] at agree ⊢
  · rw [agree]
  · rw [← List.map_take, agree, List.map_take]

theorem FirstAgree.map₂ (f : Cell → Cell → Cell) (left : FirstAgree n v w)
    (right : FirstAgree n v' w') : FirstAgree n (Value.map₂ f v v') (Value.map₂ f w w') := by
  cases v <;> cases w <;> cases v' <;> cases w' <;>
    simp only [FirstAgree, Value.map₂] at left right ⊢
  · rw [left, right]
  · rw [← List.map_take, right, List.map_take, left]
  · rw [← List.map_take, left, List.map_take, right]
  · rw [List.take_zipWith, List.take_zipWith, left, right]

/-- A constant on one side is the constant on the other. -/
theorem FirstAgree.const_iff (c : Cell) (agree : FirstAgree n v w) : v = .const c ↔ w = .const c := by
  cases v <;> cases w <;> simp only [FirstAgree] at agree <;> simp [agree]

theorem FirstAgree.cmp (op : CompareOp) (left : FirstAgree n v w) (right : FirstAgree n v' w') :
    FirstAgree n (Value.cmp op v v') (Value.cmp op w w') := by
  have absent := or_congr (left.const_iff .absent) (right.const_iff .absent)
  unfold Value.cmp
  by_cases one : v = .const .absent ∨ v' = .const .absent
  · rw [if_pos one, if_pos (absent.mp one)]
    exact rfl
  · rw [if_neg one, if_neg (mt absent.mpr one)]
    exact left.map₂ _ right

theorem FirstAgree.connect (left : FirstAgree n v w) (right : FirstAgree n v' w') :
    FirstAgree n (Value.connect f v v') (Value.connect f w w') := by
  cases v <;> cases w <;> cases v' <;> cases w' <;>
    simp only [FirstAgree, Value.connect] at left right ⊢
  · rw [left, right]
  · rw [← List.map_take, right, List.map_take, left]
  · rw [← List.map_take, left, List.map_take, right]
  · rw [List.take_zipWith, List.take_zipWith, left, right]

theorem FirstAgree.negate (agree : FirstAgree n v w) : FirstAgree n v.negate w.negate := by
  cases v <;> cases w <;> simp only [FirstAgree, Value.negate] at agree ⊢
  · rw [agree]
  · rw [← List.map_take, agree, List.map_take]

theorem FirstAgree.isIn (items : List Cell) (agree : FirstAgree n v w) :
    FirstAgree n (v.isIn items) (w.isIn items) := by
  cases v <;> cases w <;> simp only [FirstAgree, Value.isIn] at agree ⊢
  · rw [agree]
  · rw [← List.map_take, agree, List.map_take]

/-- Bars back, the first `n` values are of the first `n` bars. -/
theorem FirstAgree.shift {offset : Int} (back : 0 ≤ offset) (agree : FirstAgree n v w) :
    FirstAgree n (v.shift offset) (w.shift offset) := by
  cases v <;> cases w <;> simp only [FirstAgree, Value.shift, if_pos back] at agree ⊢
  · exact agree
  · rename_i xs ys
    have lengths : min n xs.length = min n ys.length := by
      simpa using congrArg List.length agree
    have first : ∀ cells : List Cell,
        ((List.replicate offset.toNat Cell.nan ++ cells).take cells.length).take n
          = (List.replicate offset.toNat Cell.nan ++ cells.take n).take (min n cells.length) := by
      intro cells
      rw [List.take_take, List.take_append, List.take_append, List.take_take]
      congr 2
      omega
    rw [first, first, agree, lengths]

end Agreement

/-! ## Side by side -/

/-- How many bars of a frame are shown by `c`. -/
def depth (c : Int) (frames : Frames clock) (tf : Timeframe) : Nat :=
  (frames tf).elim 0 fun f => (f.closedBy c).length

/-- Frames that were there stay. -/
def Grown (frames frames' : Frames clock) : Prop := ∀ tf f, frames tf = some f → frames' tf = some f

theorem Grown.refl (frames : Frames clock) : Grown frames frames := fun _ _ given => given

theorem Grown.trans {a b d : Frames clock} (first : Grown a b) (second : Grown b d) : Grown a d :=
  fun tf f given => second tf f (first tf f given)

/-- The frames of both evaluations, on the way. -/
structure World (baseTf : Timeframe) (short long : Frames clock) (c : Int) (s t : Frames clock) :
    Prop where
  left : Grown short s
  right : Grown long t
  alike : ∀ tf, (s tf = none ∧ t tf = none) ∨ ∃ f g, s tf = some f ∧ t tf = some g ∧ Alike c f g
  leftDaily : ∀ f, s .d1 = some f → Daily baseTf short f
  rightDaily : ∀ g, t .d1 = some g → Daily baseTf long g

/-- Values of a timeframe that agree as far as its frames are shown. -/
def Seen (c : Int) (tf : Timeframe) (frames : Frames clock) (v w : Value) : Prop :=
  FirstAgree (depth c frames tf) v w ∧ (v.isConst = true ∨ (frames tf).isSome)

section Seeing

variable {c : Int} {tf : Timeframe} {frames frames' : Frames clock} {v v' w w' : Value}

theorem Seen.grown (seen : Seen c tf frames v w) (grown : Grown frames frames') :
    Seen c tf frames' v w := by
  obtain ⟨agree, known⟩ := seen
  rcases known with isConst | isSome
  · refine ⟨?_, Or.inl isConst⟩
    cases v <;> cases w <;> simp_all [FirstAgree, Value.isConst]
  · obtain ⟨f, given⟩ := Option.isSome_iff_exists.mp isSome
    have given' := grown tf f given
    refine ⟨?_, Or.inr (by rw [given']; rfl)⟩
    unfold depth at agree ⊢
    rw [given] at agree
    rw [given']
    exact agree

theorem Seen.const (d : Cell) : Seen c tf frames (.const d) (.const d) := ⟨rfl, Or.inl rfl⟩

section

variable (left : Seen c tf frames v w) (right : Seen c tf frames v' w')
include left right

/-- A value made of two others is one of the timeframe where they are. -/
theorem Seen.of_both {op : Value → Value → Value}
    (agree : ∀ n, FirstAgree n v w → FirstAgree n v' w' → FirstAgree n (op v v') (op w w'))
    (const : v.isConst = true → v'.isConst = true → (op v v').isConst = true) :
    Seen c tf frames (op v v') (op w w') := by
  refine ⟨agree _ left.1 right.1, ?_⟩
  rcases left.2 with isConst | isSome
  · rcases right.2 with isConst' | isSome
    · exact Or.inl (const isConst isConst')
    · exact Or.inr isSome
  · exact Or.inr isSome

theorem Seen.cmp (op : CompareOp) : Seen c tf frames (Value.cmp op v v') (Value.cmp op w w') := by
  refine left.of_both right (fun n => FirstAgree.cmp op) ?_
  intro isConst isConst'
  unfold Value.cmp
  split
  · rfl
  · cases v <;> cases v' <;> simp_all [Value.isConst, Value.map₂]

theorem Seen.connect : Seen c tf frames (Value.connect f v v') (Value.connect f w w') := by
  refine left.of_both right (fun n => FirstAgree.connect f) ?_
  intro isConst isConst'
  cases v <;> cases v' <;> simp_all [Value.isConst, Value.connect]

theorem Seen.map₂ (f : Cell → Cell → Cell) :
    Seen c tf frames (Value.map₂ f v v') (Value.map₂ f w w') := by
  refine left.of_both right (fun n => FirstAgree.map₂ f) ?_
  intro isConst isConst'
  cases v <;> cases v' <;> simp_all [Value.isConst, Value.map₂]

end

theorem Seen.of_one (op : Value → Value) (seen : Seen c tf frames v w)
    (agree : ∀ n, FirstAgree n v w → FirstAgree n (op v) (op w))
    (const : (op v).isConst = v.isConst) : Seen c tf frames (op v) (op w) :=
  ⟨agree _ seen.1, by rw [const]; exact seen.2⟩

end Seeing

/-! ## Alignment -/

theorem append_zip {α β : Type*} (xs ys : List α) (zs : List β) :
    (xs ++ ys).zip zs = xs.zip (zs.take xs.length) ++ ys.zip (zs.drop xs.length) := by
  induction xs generalizing zs with
  | nil => simp
  | cons x xs ih =>
    cases zs with
    | nil => simp
    | cons z zs => simp [ih]

/-- What is known by an instant, of the bars shown by then or later. -/
theorem lastKnown_zip {src : Timeframe} (f : Frame clock src) (cells : List Cell) {t c : Int}
    (le : t ≤ c) :
    lastKnown t ((f.rows.map fun r => barClose clock src r.start).zip cells)
      = lastKnown t (((f.closedBy c).map fun r => barClose clock src r.start).zip
          (cells.take (f.closedBy c).length)) := by
  obtain ⟨rest, split, later⟩ := f.split_closedBy c
  have none_ : ((rest.map fun r => barClose clock src r.start).zip
      (cells.drop (f.closedBy c).length)).filter (fun e => e.1 ≤ t && !e.2.missing) = [] := by
    apply List.filter_eq_nil_iff.mpr
    rintro ⟨close, cell⟩ mem known
    obtain ⟨r, inRest, rfl⟩ := List.mem_map.mp (List.of_mem_zip mem).1
    have early : barClose clock src r.start ≤ t := by
      simp only [Bool.and_eq_true, decide_eq_true_iff] at known
      exact known.1
    exact absurd (early.trans le) (not_le.mpr (later r inRest))
  conv_lhs => rw [split]
  unfold lastKnown
  rw [List.map_append, append_zip, List.length_map, List.filter_append, none_, List.append_nil]

theorem aligned_take {src dst : Timeframe} {f g : Frame clock src} {p q : Frame clock dst} {c : Int}
    {cells cells' : List Cell} (alike : Alike c f g) (onto : Alike c p q)
    (agree : cells.take (f.closedBy c).length = cells'.take (f.closedBy c).length) :
    (f.aligned cells p).take (p.closedBy c).length
      = (g.aligned cells' q).take (p.closedBy c).length := by
  have right := q.take_closedBy c
  rw [← onto.2] at right
  unfold Frame.aligned
  rw [← List.map_take, ← List.map_take, p.take_closedBy, right]
  apply List.map_congr_left
  intro row mem
  have le := of_decide_eq_true (List.mem_filter.mp mem).2
  rw [lastKnown_zip f cells le, lastKnown_zip g cells' le, ← alike.2, agree]

/-! ## Frames side by side -/

variable {tf : Timeframe}

section Frames

variable {setting : Setting clock} {short long s t : Frames clock} {c : Int}

/-- What both evaluations hold after a step. -/
def Follows {α : Type} (baseTf : Timeframe) (short long : Frames clock) (c : Int) (s t : Frames clock)
    (rel : Frames clock → α → α → Prop) (v w : α) (s' t' : Frames clock) : Prop :=
  World baseTf short long c s' t' ∧ Grown s s' ∧ Grown t t' ∧ rel s' v w

theorem World.initial (extends_ : Extends setting.baseTf short long)
    (alike : ∀ tf f g, short tf = some f → long tf = some g → Alike c f g) :
    World setting.baseTf short long c short long where
  left := Grown.refl short
  right := Grown.refl long
  alike := by
    intro tf
    cases isF : short tf with
    | none => exact Or.inl ⟨rfl, (extends_.none_iff tf).mp isF⟩
    | some f =>
      cases isG : long tf with
      | none => exact absurd ((extends_.none_iff tf).mpr isG) (by rw [isF]; exact nofun)
      | some g => exact Or.inr ⟨f, g, rfl, rfl, alike tf f g isF isG⟩
  leftDaily := fun _ given => Or.inl given
  rightDaily := fun _ given => Or.inl given

section

variable (world : World setting.baseTf short long c s t)
include world

section

variable (extends_ : Extends setting.baseTf short long)
variable (nothing : NothingLate setting.baseTf short long c)
include extends_ nothing

/-- A frame that is not there yet comes out alike on both sides. -/
theorem World.build (coarser : setting.baseTf.minutes ≤ tf.minutes) (isNew : s tf = none) :
    (∃ e, setting.build s tf = .error e ∧ setting.build t tf = .error e)
      ∨ ∃ f g, setting.build s tf = .ok f ∧ setting.build t tf = .ok g ∧ Alike c f g := by
  have notGiven : short tf = none := by
    cases given : short tf with
    | none => rfl
    | some f => exact absurd (world.left tf f given) (by rw [isNew]; exact nofun)
  obtain ⟨f, g, isF, isG⟩ := extends_.base
  obtain ⟨columns, later, rows⟩ := extends_.append isF isG
  have onBase := resample_alike tf columns
    (collectedRows_of_append rows (nothing.onBase tf f g coarser notGiven isF isG))
  unfold Setting.build
  simp only [world.left _ _ isF, world.right _ _ isG]
  by_cases intraday : setting.baseTf.minutes < Timeframe.d1.minutes
      ∧ Timeframe.d1.minutes < tf.minutes
  · simp only [if_pos intraday]
    rcases world.alike .d1 with ⟨noDay, noDay'⟩ | ⟨d, e, isD, isE, alike⟩
    · simp only [noDay, noDay']
      exact onBase
    · simp only [isD, isE]
      have same := nothing.onDaily tf d e intraday.1 intraday.2 notGiven
        (world.leftDaily d isD) (world.rightDaily e isE)
      obtain ⟨-, later, rows⟩ := (world.leftDaily d isD).append extends_ (world.rightDaily e isE)
      exact resample_alike tf alike.1 (collectedRows_of_append rows same)
  · simp only [if_neg intraday]
    exact onBase

omit nothing in
omit extends_ in
omit world in
/-- A frame that was built, filed on both sides. -/
theorem World.update (world : World setting.baseTf short long c s t) {tf : Timeframe}
    {f g : Frame clock tf} (isNew : s tf = none) (isNew' : t tf = none) (alike : Alike c f g)
    (extends_ : Extends setting.baseTf short long)
    (built : setting.build s tf = .ok f) (built' : setting.build t tf = .ok g) :
    World setting.baseTf short long c (Function.update s tf (some f))
        (Function.update t tf (some g))
      ∧ Grown s (Function.update s tf (some f)) ∧ Grown t (Function.update t tf (some g)) := by
  have filed : ∀ (a : Frames clock) (f : Frame clock tf), a tf = none →
      Grown a (Function.update a tf (some f)) := by
    intro a f none_ tf' f' given
    have ne : tf' ≠ tf := by
      rintro rfl
      rw [none_] at given
      cases given
    rw [Function.update_of_ne ne]
    exact given
  have daily : ∀ (a b : Frames clock) (f : Frame clock tf), Grown a b → b tf = none →
      setting.build b tf = .ok f → (∃ base, a setting.baseTf = some base) →
      (∀ d, b .d1 = some d → Daily setting.baseTf a d) →
      ∀ d, Function.update b tf (some f) .d1 = some d → Daily setting.baseTf a d := by
    rintro a b f grown none_ built ⟨base, isBase⟩ known d given
    by_cases isDay : Timeframe.d1 = tf
    · subst isDay
      rw [Function.update_self] at given
      cases given
      refine Or.inr ⟨?_, base, isBase, ?_⟩
      · cases given : a .d1 with
        | none => rfl
        | some f => exact absurd (grown .d1 f given) (by rw [none_]; exact nofun)
      · simpa [Setting.build, grown _ _ isBase] using built
    · rw [Function.update_of_ne isDay] at given
      exact known d given
  obtain ⟨base, base', isBase, isBase'⟩ := extends_.base
  have left := filed s f isNew
  have right := filed t g isNew'
  refine ⟨⟨world.left.trans left, world.right.trans right, ?_, ?_, ?_⟩, left, right⟩
  · intro tf'
    by_cases isIt : tf' = tf
    · subst isIt
      rw [Function.update_self, Function.update_self]
      exact Or.inr ⟨f, g, rfl, rfl, alike⟩
    · rw [Function.update_of_ne isIt, Function.update_of_ne isIt]
      exact world.alike tf'
  · exact daily short s f world.left isNew built ⟨base, isBase⟩ world.leftDaily
  · exact daily long t g world.right isNew' built' ⟨base', isBase'⟩ world.rightDaily

/-- `frame` on both sides. -/
theorem World.frame (coarser : setting.baseTf.minutes ≤ tf.minutes) :
    Paired (setting.frame tf) (setting.frame tf) s t fun f g s' t' =>
      (World setting.baseTf short long c s' t' ∧ Grown s s' ∧ Grown t t')
        ∧ s' tf = some f ∧ t' tf = some g ∧ Alike c f g := by
  unfold Setting.frame
  refine Paired.read.bind ?_
  rintro _ _ s t ⟨⟨rfl, rfl⟩, rfl, rfl⟩
  rcases world.alike tf with ⟨none_, none_'⟩ | ⟨f, g, isF, isG, alike⟩
  · simp only [none_, none_']
    refine (Paired.lift (fun f g => setting.build s tf = .ok f ∧ setting.build t tf = .ok g
      ∧ Alike c f g) ?_).bind ?_
    · rcases world.build extends_ nothing coarser none_ with raised | ⟨f, g, built, built', alike⟩
      · exact Or.inl raised
      · exact Or.inr ⟨f, g, built, built', built, built', alike⟩
    · rintro f g s' t' ⟨⟨built, built', alike⟩, rfl, rfl⟩
      refine Paired.write.bind ?_
      rintro _ _ _ _ ⟨rfl, rfl⟩
      refine Paired.ret ⟨world.update none_ none_' alike extends_ built built', ?_, ?_, alike⟩
      · exact Function.update_self _ _ _
      · exact Function.update_self _ _ _
  · simp only [isF, isG]
    exact Paired.ret ⟨⟨world, Grown.refl _, Grown.refl _⟩, isF, isG, alike⟩

/-- `align` on both sides. -/
theorem World.align {src dst : Timeframe} (coarser : setting.baseTf.minutes ≤ src.minutes)
    (coarser' : setting.baseTf.minutes ≤ dst.minutes) {v w : Value} (seen : Seen c src s v w) :
    Paired (setting.align v src dst) (setting.align w src dst) s t
      (Follows setting.baseTf short long c s t (Seen c dst)) := by
  obtain ⟨agree, known⟩ := seen
  cases v with
  | const d =>
    cases w with
    | const d' =>
      cases agree
      exact Paired.ret ⟨world, Grown.refl s, Grown.refl t, Seen.const d⟩
    | series => cases agree
  | series cells =>
    cases w with
    | const => cases agree
    | series cells' =>
      unfold Setting.align
      by_cases same : src = dst
      · subst same
        simp only [if_true]
        exact Paired.ret ⟨world, Grown.refl s, Grown.refl t, agree, known⟩
      · simp only [if_neg same]
        refine (world.frame extends_ nothing coarser).bind ?_
        rintro f g s₁ t₁ ⟨⟨world₁, left₁, right₁⟩, isF, -, alike⟩
        refine (world₁.frame extends_ nothing coarser').bind ?_
        rintro p q s₂ t₂ ⟨⟨world₂, left₂, right₂⟩, isP, -, onto⟩
        refine Paired.ret ⟨world₂, left₁.trans left₂, right₁.trans right₂, ?_, ?_⟩
        · have depths : depth c s src = (f.closedBy c).length := by
            rcases known with isConst | isSome
            · cases isConst
            · obtain ⟨f', given⟩ := Option.isSome_iff_exists.mp isSome
              rw [left₁ src f' given] at isF
              cases isF
              unfold depth
              rw [given]
              rfl
          have depths' : depth c s₂ dst = (p.closedBy c).length := by
            unfold depth
            rw [isP]
            rfl
          simp only [FirstAgree, depths] at agree
          simp only [FirstAgree, depths']
          exact aligned_take alike onto agree
        · rw [isP]
          exact Or.inr rfl

end

end

end Frames

/-! ## Evaluations side by side -/

variable {frames : Frames clock} {n : Nat}

section Evaluations

variable {setting : Setting clock} {short long : Frames clock} {c : Int}

/-- Arguments as far as both evaluations see them. -/
theorem agree_of_seen (isDepth : depth c frames tf = n) {vs ws : List Value}
    (seen : List.Forall₂ (Seen c tf frames) vs ws) : List.Forall₂ (FirstAgree n) vs ws :=
  seen.imp fun _ _ both => isDepth ▸ both.1

/-- Named arguments as far as both evaluations see them. -/
def NamedSeen (c : Int) (tf : Timeframe) (frames : Frames clock) (v w : Text × Value) : Prop :=
  v.1 = w.1 ∧ Seen c tf frames v.2 w.2

theorem checkedAt_spec {baseTf : Timeframe} {offset : Int} {own : Option Timeframe}
    (checked : checkedAt baseTf offset own = true) (coarser : baseTf.minutes ≤ tf.minutes) :
    0 ≤ offset ∧ baseTf.minutes ≤ (own.getD tf).minutes := by
  simp only [checkedAt, Bool.and_eq_true, decide_eq_true_iff] at checked
  refine ⟨checked.1.1, ?_⟩
  cases own with
  | none => exact coarser
  | some own => simpa using checked.2

theorem field_seen {f g : Frame clock tf} (given : frames tf = some f) (alike : Alike c f g)
    (name : Text) : Seen c tf frames (f.field name) (g.field name) := by
  refine ⟨?_, Or.inr (by rw [given]; rfl)⟩
  have right := g.take_closedBy c
  rw [← alike.2] at right
  unfold depth
  rw [given]
  simp only [Option.elim, Frame.field]
  split <;> simp only [FirstAgree]
  · unfold Frame.column
    rw [← alike.1]
    split <;> rw [← List.map_take, ← List.map_take, ← List.map_take, ← List.map_take, right,
      f.take_closedBy]
  · rw [← List.map_take, ← List.map_take, right, f.take_closedBy]

theorem listed_agree {vs ws : List Value} (agree : List.Forall₂ (FirstAgree n) vs ws) :
    listed vs = listed ws := by
  induction agree with
  | nil => rfl
  | @cons v w vs ws first _ ih =>
    cases v <;> cases w <;> simp only [FirstAgree] at first <;> simp only [listed]
    rw [first, ih]

theorem foldl_seen {v w : Value} {vs ws : List Value} (first : Seen c tf frames v w)
    (rest : List.Forall₂ (Seen c tf frames) vs ws) :
    Seen c tf frames (vs.foldl (Value.connect f) v) (ws.foldl (Value.connect f) w) := by
  induction rest generalizing v w with
  | nil => exact first
  | cons seen _ ih => exact ih (first.connect f seen)

/-- A causal function's value, seen as far as its frame and arguments are. -/
theorem call_seen (causal : Causal setting.library) {f g : Frame clock tf}
    (given : frames tf = some f) (alike : Alike c f g) (name : Text) {vs ws : List Value}
    {named named' : List (Text × Value)} (args : List.Forall₂ (Seen c tf frames) vs ws)
    (kwargs : List.Forall₂ (NamedSeen c tf frames) named named') :
    (∃ e, setting.library name tf f vs named = .error e
        ∧ setting.library name tf g ws named' = .error e)
      ∨ ∃ v w, setting.library name tf f vs named = .ok v
        ∧ setting.library name tf g ws named' = .ok w ∧ Seen c tf frames v w := by
  have right := g.take_closedBy c
  rw [← alike.2] at right
  have isDepth : depth c frames tf = (f.closedBy c).length := by
    unfold depth
    rw [given]
    rfl
  have bound : (f.closedBy c).length ≤ g.rows.length := by
    rw [alike.2]
    exact List.length_filter_le _ _
  have result := causal name tf f g (f.closedBy c).length vs ws named named' alike.1
    ((f.take_closedBy c).trans right.symm) (List.length_filter_le _ _) bound
    (agree_of_seen isDepth args)
    (kwargs.imp fun _ _ both => ⟨both.1, isDepth ▸ both.2.1⟩)
  rcases result with raised | ⟨v, w, isV, isW, agree⟩
  · exact Or.inl raised
  · exact Or.inr ⟨v, w, isV, isW, isDepth ▸ agree, Or.inr (by rw [given]; rfl)⟩

mutual

/-- A node's values agree as far as both data show the bars. -/
theorem Node.ev_seen (extends_ : Extends setting.baseTf short long)
    (nothing : NothingLate setting.baseTf short long c) (causal : Causal setting.library)
    (node : Node) {tf : Timeframe} {s t : Frames clock}
    (checked : node.checked setting.baseTf = true) (coarser : setting.baseTf.minutes ≤ tf.minutes)
    (world : World setting.baseTf short long c s t) :
    Paired (node.ev setting tf) (node.ev setting tf) s t
      (Follows setting.baseTf short long c s t (Seen c tf)) := by
  cases node with
  | num | str | bool => exact Paired.ret ⟨world, Grown.refl s, Grown.refl t, Seen.const _⟩
  | param name =>
    simp only [Node.ev]
    cases setting.params name with
    | none => exact Paired.raise _
    | some d => exact Paired.ret ⟨world, Grown.refl s, Grown.refl t, Seen.const d⟩
  | field name offset own =>
    obtain ⟨back, coarserOwn⟩ := checkedAt_spec checked coarser
    simp only [Node.ev]
    refine (world.frame extends_ nothing coarserOwn).bind ?_
    rintro f g s₁ t₁ ⟨⟨world₁, left₁, right₁⟩, isF, -, alike⟩
    have seen := (field_seen isF alike name).of_one (Value.shift offset)
      (fun n => FirstAgree.shift back) (by cases f.field name <;> rfl)
    refine (world₁.align extends_ nothing coarserOwn coarser seen).mono ?_
    rintro v w s₂ t₂ ⟨world₂, left₂, right₂, seen₂⟩
    exact ⟨world₂, left₁.trans left₂, right₁.trans right₂, seen₂⟩
  | call name args kwargs offset own =>
    simp only [Node.checked, Bool.and_eq_true] at checked
    obtain ⟨back, coarserOwn⟩ := checkedAt_spec checked.1.1 coarser
    simp only [Node.ev]
    refine (world.frame extends_ nothing coarserOwn).bind ?_
    rintro f g s₁ t₁ ⟨⟨world₁, left₁, right₁⟩, isF, isG, alike⟩
    refine (evAll_seen extends_ nothing causal args checked.1.2 coarserOwn world₁).bind ?_
    rintro vs ws s₂ t₂ ⟨world₂, left₂, right₂, seen₂⟩
    refine (evNamed_seen extends_ nothing causal kwargs checked.2 coarserOwn world₂).bind ?_
    rintro named named' s₃ t₃ ⟨world₃, left₃, right₃, seen₃⟩
    have given := (left₂.trans left₃) _ f isF
    have values := seen₂.imp fun _ _ seen => seen.grown left₃
    refine (Paired.lift _ (call_seen causal given alike name values seen₃)).bind ?_
    rintro v w s₄ t₄ ⟨seen₄, rfl, rfl⟩
    have shifted := seen₄.of_one (Value.shift offset) (fun n => FirstAgree.shift back)
      (by cases v <;> rfl)
    refine (world₃.align extends_ nothing coarserOwn coarser shifted).mono ?_
    rintro v' w' s₅ t₅ ⟨world₅, left₅, right₅, seen₅⟩
    exact ⟨world₅, left₁.trans (left₂.trans (left₃.trans left₅)),
      right₁.trans (right₂.trans (right₃.trans right₅)), seen₅⟩
  | unary operand =>
    simp only [Node.ev]
    refine (Node.ev_seen extends_ nothing causal operand checked coarser world).bind ?_
    rintro v w s₁ t₁ ⟨world₁, left₁, right₁, seen₁⟩
    refine Paired.ret ⟨world₁, left₁, right₁, seen₁.of_one _ (fun n => FirstAgree.map _) ?_⟩
    cases v <;> rfl
  | binary op left right =>
    simp only [Node.checked, Bool.and_eq_true] at checked
    simp only [Node.ev]
    refine (Node.ev_seen extends_ nothing causal left checked.1 coarser world).bind ?_
    rintro v w s₁ t₁ ⟨world₁, left₁, right₁, seen₁⟩
    refine (Node.ev_seen extends_ nothing causal right checked.2 coarser world₁).bind ?_
    rintro v' w' s₂ t₂ ⟨world₂, left₂, right₂, seen₂⟩
    exact Paired.ret ⟨world₂, left₁.trans left₂, right₁.trans right₂, (seen₁.grown left₂).map₂ seen₂ _⟩
  | compare op left right =>
    simp only [Node.checked, Bool.and_eq_true] at checked
    simp only [Node.ev]
    refine (Node.ev_seen extends_ nothing causal left checked.1 coarser world).bind ?_
    rintro v w s₁ t₁ ⟨world₁, left₁, right₁, seen₁⟩
    refine (Node.ev_seen extends_ nothing causal right checked.2 coarser world₁).bind ?_
    rintro v' w' s₂ t₂ ⟨world₂, left₂, right₂, seen₂⟩
    exact Paired.ret ⟨world₂, left₁.trans left₂, right₁.trans right₂, (seen₁.grown left₂).cmp seen₂ op⟩
  | between value low high =>
    simp only [Node.checked, Bool.and_eq_true] at checked
    simp only [Node.ev]
    refine (Node.ev_seen extends_ nothing causal value checked.1.1 coarser world).bind ?_
    rintro v w s₁ t₁ ⟨world₁, left₁, right₁, seen₁⟩
    refine (Node.ev_seen extends_ nothing causal low checked.1.2 coarser world₁).bind ?_
    rintro lo lo' s₂ t₂ ⟨world₂, left₂, right₂, seen₂⟩
    refine (Node.ev_seen extends_ nothing causal high checked.2 coarser world₂).bind ?_
    rintro hi hi' s₃ t₃ ⟨world₃, left₃, right₃, seen₃⟩
    have value' := seen₁.grown (left₂.trans left₃)
    exact Paired.ret ⟨world₃, left₁.trans (left₂.trans left₃), right₁.trans (right₂.trans right₃),
      (value'.cmp (seen₂.grown left₃) .ge).connect _ (value'.cmp seen₃ .le)⟩
  | isIn value items =>
    simp only [Node.checked, Bool.and_eq_true] at checked
    simp only [Node.ev]
    refine (Node.ev_seen extends_ nothing causal value checked.1 coarser world).bind ?_
    rintro v w s₁ t₁ ⟨world₁, left₁, right₁, seen₁⟩
    refine (evAll_seen extends_ nothing causal items checked.2 coarser world₁).bind ?_
    rintro vs ws s₂ t₂ ⟨world₂, left₂, right₂, seen₂⟩
    rw [← listed_agree (agree_of_seen rfl seen₂)]
    cases listed vs with
    | error e => exact Or.inl ⟨e, rfl, rfl⟩
    | ok literals =>
      refine Or.inr ⟨_, _, s₂, t₂, rfl, rfl, world₂, left₁.trans left₂, right₁.trans right₂, ?_⟩
      refine (seen₁.grown left₂).of_one _ (fun n => FirstAgree.isIn literals) ?_
      cases v <;> rfl
  | logic op items =>
    simp only [Node.ev]
    refine (evAll_seen extends_ nothing causal items checked coarser world).bind ?_
    rintro vs ws s₁ t₁ ⟨world₁, left₁, right₁, seen₁⟩
    cases seen₁ with
    | nil => exact Paired.raise _
    | cons first rest => exact Paired.ret ⟨world₁, left₁, right₁, foldl_seen _ first rest⟩
  | not item =>
    simp only [Node.ev]
    refine (Node.ev_seen extends_ nothing causal item checked coarser world).bind ?_
    rintro v w s₁ t₁ ⟨world₁, left₁, right₁, seen₁⟩
    refine Paired.ret ⟨world₁, left₁, right₁, seen₁.of_one _ (fun n => FirstAgree.negate) ?_⟩
    cases v <;> rfl

theorem evAll_seen (extends_ : Extends setting.baseTf short long)
    (nothing : NothingLate setting.baseTf short long c) (causal : Causal setting.library)
    (nodes : List Node) {tf : Timeframe} {s t : Frames clock}
    (checked : allChecked setting.baseTf nodes = true)
    (coarser : setting.baseTf.minutes ≤ tf.minutes)
    (world : World setting.baseTf short long c s t) :
    Paired (evAll setting nodes tf) (evAll setting nodes tf) s t
      (Follows setting.baseTf short long c s t fun frames => List.Forall₂ (Seen c tf frames)) := by
  cases nodes with
  | nil => exact Paired.ret ⟨world, Grown.refl s, Grown.refl t, List.Forall₂.nil⟩
  | cons node rest =>
    simp only [allChecked, Bool.and_eq_true] at checked
    simp only [evAll]
    refine (Node.ev_seen extends_ nothing causal node checked.1 coarser world).bind ?_
    rintro v w s₁ t₁ ⟨world₁, left₁, right₁, seen₁⟩
    refine (evAll_seen extends_ nothing causal rest checked.2 coarser world₁).bind ?_
    rintro vs ws s₂ t₂ ⟨world₂, left₂, right₂, seen₂⟩
    exact Paired.ret ⟨world₂, left₁.trans left₂, right₁.trans right₂,
      List.Forall₂.cons (seen₁.grown left₂) seen₂⟩

theorem evNamed_seen (extends_ : Extends setting.baseTf short long)
    (nothing : NothingLate setting.baseTf short long c) (causal : Causal setting.library)
    (named : List (Text × Node)) {tf : Timeframe} {s t : Frames clock}
    (checked : namedChecked setting.baseTf named = true)
    (coarser : setting.baseTf.minutes ≤ tf.minutes) (world : World setting.baseTf short long c s t) :
    Paired (evNamed setting named tf) (evNamed setting named tf) s t
      (Follows setting.baseTf short long c s t fun frames => List.Forall₂ (NamedSeen c tf frames)) := by
  cases named with
  | nil => exact Paired.ret ⟨world, Grown.refl s, Grown.refl t, List.Forall₂.nil⟩
  | cons entry rest =>
    obtain ⟨key, node⟩ := entry
    simp only [namedChecked, Bool.and_eq_true] at checked
    simp only [evNamed]
    refine (Node.ev_seen extends_ nothing causal node checked.1 coarser world).bind ?_
    rintro v w s₁ t₁ ⟨world₁, left₁, right₁, seen₁⟩
    refine (evNamed_seen extends_ nothing causal rest checked.2 coarser world₁).bind ?_
    rintro vs ws s₂ t₂ ⟨world₂, left₂, right₂, seen₂⟩
    exact Paired.ret ⟨world₂, left₁.trans left₂, right₁.trans right₂,
      List.Forall₂.cons ⟨rfl, seen₁.grown left₂⟩ seen₂⟩

end

variable (extends_ : Extends setting.baseTf short long)
  (nothing : NothingLate setting.baseTf short long c) (causal : Causal setting.library)
include extends_ nothing causal

omit causal nothing in
/-- What is shown by a bar's close of the frames given. -/
theorem given_alike {base : Frame clock setting.baseTf} {last : Row}
    (isBase : short setting.baseTf = some base) (isLast : base.rows.getLast? = some last)
    (le : c ≤ barClose clock setting.baseTf last.start) (tf : Timeframe) (f g : Frame clock tf)
    (isF : short tf = some f) (isG : long tf = some g) : Alike c f g := by
  obtain ⟨base', last', isBase', isLast', all⟩ := extends_
  rw [isBase] at isBase'
  cases isBase'
  rw [isLast] at isLast'
  cases isLast'
  rcases all tf with ⟨no, -⟩ | ⟨f', g', later, isF', isG', columns, -, rows, closes⟩
  · rw [no] at isF
    cases isF
  · rw [isF'] at isF
    rw [isG'] at isG
    cases isF
    cases isG
    refine ⟨columns, ?_⟩
    have none_ : later.filter (fun row => barClose clock tf row.start ≤ c) = [] := by
      apply List.filter_eq_nil_iff.mpr
      intro row mem early
      exact absurd ((of_decide_eq_true early).trans le) (not_le.mpr (closes row mem))
    unfold Frame.closedBy
    rw [rows, List.filter_append, none_, List.append_nil]

variable (setting) in
/-- Where closed buckets collect the same bars, a screen has the same value at a bar. -/
theorem evaluate_same {base : Frame clock setting.baseTf} {k : Nat} {row : Row}
    (isBase : short setting.baseTf = some base) (bar : base.rows[k]? = some row)
    (atClose : c = barClose clock setting.baseTf row.start) {node : Node}
    (checked : node.checked setting.baseTf = true) :
    (evaluate setting node short).map (Value.at_ k) = (evaluate setting node long).map (Value.at_ k) := by
  have inRows : row ∈ base.rows := List.mem_of_getElem? bar
  obtain ⟨last, isLast⟩ : ∃ last, base.rows.getLast? = some last := by
    cases isLast : base.rows.getLast? with
    | none =>
      rw [List.getLast?_eq_none_iff] at isLast
      rw [isLast] at inRows
      cases inRows
    | some last => exact ⟨last, rfl⟩
  have le : c ≤ barClose clock setting.baseTf last.start := by
    obtain ⟨initial, split⟩ := List.getLast?_eq_some_iff.mp isLast
    have increase := base.closes_increase
    rw [split] at inRows increase
    rw [atClose]
    rcases List.mem_append.mp inRows with before | isIt
    · exact ((List.pairwise_append.mp increase).2.2 row before last
        (List.mem_singleton_self last)).le
    · rw [List.mem_singleton.mp isIt]
  have shown : k < depth c short setting.baseTf := by
    obtain ⟨rest, split, later⟩ := base.split_closedBy c
    unfold depth
    rw [isBase]
    by_contra notShown
    rw [split, List.getElem?_append_right (not_lt.mp notShown)] at bar
    exact absurd (later row (List.mem_of_getElem? bar)) (by rw [atClose]; exact lt_irrefl _)
  obtain ⟨p, q, isP, isQ⟩ := extends_.base
  obtain ⟨-, more, rows⟩ := extends_.append isP isQ
  rw [isBase] at isP
  cases isP
  have some_ : base.rows ≠ [] := List.ne_nil_of_mem inRows
  have some_' : q.rows ≠ [] := by
    rw [rows]
    exact List.append_ne_nil_of_left_ne_nil some_ _
  have world := World.initial extends_ (given_alike extends_ isBase isLast le)
  unfold evaluate
  simp only [isBase, isQ, if_neg some_, if_neg some_']
  rcases node.ev_seen extends_ nothing causal checked (le_refl _) world with
    ⟨e, left, right⟩ | ⟨v, w, s', t', left, right, -, grown, -, seen⟩
  · rw [left, right]
  · rw [left, right]
    have value : v.at_ k = w.at_ k := by
      have deep : depth c s' setting.baseTf = depth c short setting.baseTf := by
        unfold depth
        rw [isBase, grown _ _ isBase]
      have agree := seen.1
      rw [deep] at agree
      cases v <;> cases w <;> simp only [FirstAgree] at agree
      · exact agree
      · rename_i cells cells'
        have atBar := congrArg (fun l : List Cell => l[k]?) agree
        simp only [List.getElem?_take_of_lt shown] at atBar
        simp only [Value.at_, List.getD_eq_getElem?_getD, atBar]
    show Except.ok (v.at_ k) = Except.ok (w.at_ k)
    rw [value]

end Evaluations

end AdvanceTrading.Screener
