import AdvanceTrading.Misc.Dict
import AdvanceTrading.Misc.PyText
import Mathlib.Data.List.Chain
import Mathlib.Data.List.Nodup
import Mathlib.Data.List.Perm.Basic

/-!
# Writing bars into the lake

Model of `write_candles` and `write_candles_bulk` (`app/market_lake/ingest.py:123-208`)
for bars with a known volume. A bar whose values changed is written as the next
version of its key. The prices of a row are what the column keeps of the bar's.
-/

namespace AdvanceTrading.Lake

/-- What a row is a version of. -/
structure Key where
  instrumentKey : String
  timeframe : String
  ts : Int
  source : String
  deriving DecidableEq

/-- A `LakeBar` with a volume; `ts` is the bar's end. -/
structure Bar where
  instrumentKey : String
  timeframe : String
  ts : Int
  open_ : ℚ
  high : ℚ
  low : ℚ
  close : ℚ
  volume : Int
  oi : Option Int
  deriving DecidableEq

/-- A row of `md_candles`. -/
structure Row where
  instrumentKey : String
  timeframe : String
  ts : Int
  source : String
  version : Nat
  open_ : ℚ
  high : ℚ
  low : ℚ
  close : ℚ
  volume : Int
  oi : Option Int
  ingestedAt : Int
  deriving DecidableEq

/-- Rounded prices, volume and open interest. -/
structure Values where
  open_ : ℚ
  high : ℚ
  low : ℚ
  close : ℚ
  volume : Int
  oi : Option Int
  deriving DecidableEq

/-- `LakeBar.values`. -/
def Bar.values (b : Bar) : Values :=
  ⟨Py.roundTo 4 b.open_, Py.roundTo 4 b.high, Py.roundTo 4 b.low, Py.roundTo 4 b.close, b.volume, b.oi⟩

/-- The values of the `LakeBar` that is built from a row. -/
def Row.values (r : Row) : Values :=
  ⟨Py.roundTo 4 r.open_, Py.roundTo 4 r.high, Py.roundTo 4 r.low, Py.roundTo 4 r.close, r.volume, r.oi⟩

def Bar.key (source : String) (b : Bar) : Key := ⟨b.instrumentKey, b.timeframe, b.ts, source⟩

def Row.key (r : Row) : Key := ⟨r.instrumentKey, r.timeframe, r.ts, r.source⟩

/-- The rows of a key, in the order they were written. -/
def keyed (k : Key) (rows : List Row) : List Row := rows.filter fun r => r.key = k

/-- The row with the highest version. -/
def newest (rows : List Row) : Option Row :=
  rows.foldl (fun best r => match best with
    | none => some r
    | some b => if b.version < r.version then some r else some b) none

structure WriteResult where
  inserted : Nat := 0
  corrected : Nat := 0
  skipped : Nat := 0
  deriving DecidableEq

section Writers

variable (column : ℚ → ℚ) (source : String) (now : Int)

/-- The row of a bar. `column` is what the database gives back of a price (`Numeric(18, 4)`). -/
def Bar.row (version : Nat) (b : Bar) : Row where
  instrumentKey := b.instrumentKey
  timeframe := b.timeframe
  ts := b.ts
  source := source
  version := version
  open_ := column b.open_
  high := column b.high
  low := column b.low
  close := column b.close
  volume := b.volume
  oi := b.oi
  ingestedAt := now

/-- The row to write for a bar beside the latest of its key: none for the same values, else the next
version. -/
def revise (latest : Option Row) (b : Bar) : Option Row :=
  if latest.map Row.values = some b.values then none
  else some (b.row column source now (latest.elim 1 fun r => r.version + 1))

/-- One more bar in the counts. -/
def WriteResult.count (result : WriteResult) (latest : Option Row) (written : Option Row) : WriteResult :=
  match written, latest with
  | none, _ => { result with skipped := result.skipped + 1 }
  | some _, none => { result with inserted := result.inserted + 1 }
  | some _, some _ => { result with corrected := result.corrected + 1 }

/-- The body of the loop of `write_candles`: the latest version is read for each bar. -/
def writeBar (state : List Row × WriteResult) (b : Bar) : List Row × WriteResult :=
  let latest := newest (keyed (b.key source) state.1)
  let written := revise column source now latest b
  (state.1 ++ written.toList, state.2.count latest written)

/-- `write_candles`. -/
def writeCandles (rows : List Row) (bars : List Bar) : List Row × WriteResult :=
  bars.foldl (writeBar column source now) (rows, {})

/-- `xs[i:i + n] for i in range(0, len(xs), n)`. -/
def chunks {α : Type} (n : Nat) (xs : List α) : List (List α) :=
  (List.range ((xs.length + n - 1) / n)).map fun i => (xs.drop (i * n)).take n

/-- A group of bars of one instrument and timeframe. -/
abbrev Group := (String × String) × List Bar

/-- The one read of a chunk of groups. -/
def readChunk (rows : List Row) (chunk : List Group) : List Row :=
  let ends := chunk.flatMap fun g => g.2.map (·.ts)
  rows.filter fun r =>
    decide (r.instrumentKey ∈ chunk.map (·.1.1)) && decide (r.timeframe ∈ chunk.map (·.1.2)) &&
      decide (r.source = source) &&
      -- `ts >= min(all_ends)` and `ts <= max(all_ends)`
      ends.any (fun e => decide (e ≤ r.ts)) && ends.any fun e => decide (r.ts ≤ e)

/-- The loop over the rows read: the highest version of each key. -/
def latestOf (read : List Row) : Dict Key Row :=
  read.foldl (fun latest r => match Dict.get r.key latest with
    | none => Dict.set r.key r latest
    | some old => if old.version < r.version then Dict.set r.key r latest else latest) []

/-- The body of the second loop of `write_candles_bulk`. -/
def bulkBar (latest : Dict Key Row) (state : List Row × WriteResult) (b : Bar) : List Row × WriteResult :=
  let old := Dict.get (b.key source) latest
  let written := revise column source now old b
  (state.1 ++ written.toList, state.2.count old written)

/-- `write_candles_bulk`; `none` is the ValueError for two bars with one end in a group. -/
def writeCandlesBulk (rows : List Row) (bars : List Bar) : Option (List Row × WriteResult) :=
  let groups := Dict.groupBy (fun b => (b.instrumentKey, b.timeframe)) bars
  if groups.any (fun g => decide ¬ (g.2.map (·.ts)).Nodup) then none
  else
    let latest := latestOf ((chunks 500 groups).flatMap (readChunk source rows))
    let (written, result) := (groups.flatMap (·.2)).foldl (bulkBar column source now latest) ([], {})
    some (rows ++ written, result)

end Writers

/-! ## Runs of writes -/

/-- A call of a writer. -/
structure Call where
  bulk : Bool
  source : String
  now : Int
  bars : List Bar

/-- The table after a call; a refused batch leaves it. -/
def write (column : ℚ → ℚ) (rows : List Row) (c : Call) : List Row :=
  if c.bulk then ((writeCandlesBulk column c.source c.now rows c.bars).map Prod.fst).getD rows
  else (writeCandles column c.source c.now rows c.bars).1

/-- The table after calls on an empty lake. -/
def lake (column : ℚ → ℚ) (calls : List Call) : List Row := calls.foldl (write column) []

/-- The versions of every key are 1..k. -/
def Versioned (rows : List Row) : Prop :=
  ∀ k, (keyed k rows).map (·.version) = List.range' 1 (keyed k rows).length

/-- A later version of a key has other values than the one before. -/
def Revised (rows : List Row) : Prop := ∀ k, (keyed k rows).IsChain fun a b => a.values ≠ b.values

/-- The batch is what the lake already holds. -/
def Current (rows : List Row) (source : String) (bars : List Bar) : Prop :=
  ∀ b ∈ bars, (newest (keyed (b.key source) rows)).map Row.values = some b.values

/-- The column gives back prices that round as the bar's. -/
def Agrees (column : ℚ → ℚ) (b : Bar) : Prop :=
  ∀ p ∈ [b.open_, b.high, b.low, b.close], Py.roundTo 4 (column p) = Py.roundTo 4 p

/-- No two bars of a batch have one key. -/
def DuplicateFree (source : String) (bars : List Bar) : Prop := (bars.map (Bar.key source)).Nodup

section Table

variable {column : ℚ → ℚ} {source : String} {now : Int} {rows : List Row} {bars : List Bar} {b : Bar} {k : Key}

@[simp] theorem keyed_append (k : Key) (rows more : List Row) : keyed k (rows ++ more) = keyed k rows ++ keyed k more :=
  List.filter_append ..

theorem revise_key {latest : Option Row} {r : Row}
    (written : revise column source now latest b = some r) : r.key = b.key source := by
  unfold revise at written
  split at written
  · cases written
  · cases written
    rfl

theorem keyed_revise (latest : Option Row) (b : Bar) (k : Key) :
    keyed k (revise column source now latest b).toList =
      if b.key source = k then (revise column source now latest b).toList else [] := by
  cases written : revise column source now latest b with
  | none => simp [keyed]
  | some r =>
    rw [Option.toList_some, keyed, List.filter_cons, List.filter_nil, revise_key written]
    simp

/-- The newest of rows with versions 1..k is the last. -/
theorem newest_eq (versions : rows.map (·.version) = List.range' 1 rows.length) : newest rows = rows.getLast? := by
  induction rows using List.reverseRecOn with
  | nil => rfl
  | append_singleton rows r ih =>
    rw [List.length_append, List.length_singleton, List.range'_concat, List.map_append] at versions
    obtain ⟨before, last⟩ := List.append_inj' versions rfl
    have number : r.version = 1 + 1 * rows.length := by simpa using last
    have earlier := ih before
    have step : newest (rows ++ [r]) = match newest rows with
        | none => some r
        | some best => if best.version < r.version then some r else some best := by
      unfold newest
      rw [List.foldl_append]
      rfl
    rw [step, earlier, List.getLast?_concat]
    cases held : rows.getLast? with
    | none => rfl
    | some best =>
      have mem : best.version ∈ rows.map (·.version) := List.mem_map_of_mem (List.mem_of_getLast? held)
      rw [before, List.mem_range'_1] at mem
      exact if_pos (by omega)

/-- One more version of a key, where the row is new or says something else. -/
theorem Versioned.writeRow (versioned : Versioned rows) (b : Bar) :
    Versioned (rows ++ (revise column source now (newest (keyed (b.key source) rows)) b).toList) := by
  intro k
  rw [keyed_append, keyed_revise]
  split
  · rename_i here
    subst here
    have own := versioned (b.key source)
    rw [newest_eq own]
    unfold revise
    split
    · simpa using own
    · rw [Option.toList_some, List.map_append, own, List.length_append, List.length_singleton, List.range'_concat]
      congr 1
      -- the version after the last
      cases held : (keyed (b.key source) rows).getLast? with
      | none =>
        rw [List.getLast?_eq_none_iff.mp held]
        rfl
      | some r =>
        have length : (keyed (b.key source) rows).length ≠ 0 := by
          intro none_
          rw [List.length_eq_zero_iff.mp none_] at held
          cases held
        have last : ((keyed (b.key source) rows).map (·.version)).getLast? = some r.version := by
          rw [List.getLast?_map, held]
          rfl
        rw [own, List.getLast?_range'] at last
        have number : r.version = (keyed (b.key source) rows).length := by
          rw [if_neg length] at last
          have := Option.some.inj last
          omega
        simp [Bar.row, number]
        omega
  · simpa using versioned k

theorem row_values (agrees : Agrees column b) (version : Nat) :
    (b.row column source now version).values = b.values := by
  unfold Agrees at agrees
  simp only [List.forall_mem_cons] at agrees
  simp [Row.values, Bar.row, Bar.values, agrees.1, agrees.2.1, agrees.2.2.1, agrees.2.2.2.1]

theorem Revised.writeRow (versioned : Versioned rows) (revised : Revised rows) (agrees : Agrees column b) :
    Revised (rows ++ (revise column source now (newest (keyed (b.key source) rows)) b).toList) := by
  intro k
  rw [keyed_append, keyed_revise]
  split
  · rename_i here
    subst here
    rw [newest_eq (versioned (b.key source))]
    unfold revise
    split
    · simpa using revised (b.key source)
    · rename_i other
      rw [Option.toList_some, List.isChain_append]
      refine ⟨revised _, List.isChain_singleton _, ?_⟩
      intro last held first here
      cases here
      rw [Option.mem_def.mp held] at other
      rw [row_values agrees]
      simpa using other
  · simpa using revised k

/-! ### `write_candles` -/

theorem writeCandles_cons (rows : List Row) (b : Bar) (bars : List Bar) :
    (writeCandles column source now rows (b :: bars)).1 =
      (writeCandles column source now
        (rows ++ (revise column source now (newest (keyed (b.key source) rows)) b).toList) bars).1 := by
  -- the counts do not decide what is written
  have rowsOnly : ∀ (bars : List Bar) (rows : List Row) (r r' : WriteResult),
      (bars.foldl (writeBar column source now) (rows, r)).1 =
        (bars.foldl (writeBar column source now) (rows, r')).1 := by
    intro bars
    induction bars with
    | nil => exact fun _ _ _ => rfl
    | cons b bars ih => exact fun rows r r' => ih _ _ _
  exact rowsOnly bars _ _ _

theorem Versioned.writeCandles (versioned : Versioned rows) :
    Versioned (Lake.writeCandles column source now rows bars).1 := by
  induction bars generalizing rows with
  | nil => exact versioned
  | cons b bars ih =>
    rw [writeCandles_cons]
    exact ih (versioned.writeRow b)

theorem Revised.writeCandles (versioned : Versioned rows) (revised : Revised rows)
    (agrees : ∀ b ∈ bars, Agrees column b) : Revised (Lake.writeCandles column source now rows bars).1 := by
  induction bars generalizing rows with
  | nil => exact revised
  | cons b bars ih =>
    rw [writeCandles_cons]
    exact ih (versioned.writeRow b) (revised.writeRow versioned (agrees b List.mem_cons_self))
      fun b' later => agrees b' (List.mem_cons_of_mem _ later)

/-- A batch that is current stores nothing. -/
theorem writeCandles_current (current : Current rows source bars) :
    (Lake.writeCandles column source now rows bars).1 = rows := by
  induction bars with
  | nil => rfl
  | cons b bars ih =>
    have same : revise column source now (newest (keyed (b.key source) rows)) b = none :=
      if_pos (current b List.mem_cons_self)
    rw [writeCandles_cons, same, Option.toList_none, List.append_nil]
    exact ih fun b' later => current b' (List.mem_cons_of_mem _ later)

/-- Without duplicates, every bar is compared with the rows before the batch. -/
theorem writeCandles_of_duplicateFree (distinct : DuplicateFree source bars) :
    (Lake.writeCandles column source now rows bars).1 =
      rows ++ bars.filterMap fun b => revise column source now (newest (keyed (b.key source) rows)) b := by
  induction bars generalizing rows with
  | nil => exact (List.append_nil _).symm
  | cons b bars ih =>
    obtain ⟨fresh, rest⟩ := List.nodup_cons.mp distinct
    rw [writeCandles_cons, ih rest, List.filterMap_cons]
    have same : bars.filterMap (fun b' => revise column source now (newest (keyed (b'.key source)
        (rows ++ (revise column source now (newest (keyed (b.key source) rows)) b).toList))) b') =
        bars.filterMap fun b' => revise column source now (newest (keyed (b'.key source) rows)) b' := by
      apply List.filterMap_congr
      intro b' later
      have other : b.key source ≠ b'.key source := fun same => fresh (same ▸ List.mem_map_of_mem later)
      rw [keyed_append, keyed_revise, if_neg other, List.append_nil]
    rw [same]
    cases revise column source now (newest (keyed (b.key source) rows)) b with
    | none => simp
    | some r => simp

/-- A batch without duplicates writes at most one row of each of its keys. -/
theorem keyed_filterMap {f : Bar → Option Row} (own : ∀ b r, f b = some r → r.key = b.key source)
    (distinct : DuplicateFree source bars) (mem : b ∈ bars) :
    keyed (b.key source) (bars.filterMap f) = (f b).toList := by
  have others : ∀ bars : List Bar, (∀ b' ∈ bars, b'.key source ≠ b.key source) →
      keyed (b.key source) (bars.filterMap f) = [] := by
    intro bars apart
    apply List.filter_eq_nil_iff.mpr
    intro r listed
    obtain ⟨b', held, made⟩ := List.mem_filterMap.mp listed
    simpa [own b' r made] using apart b' held
  induction bars with
  | nil => cases mem
  | cons first rest ih =>
    obtain ⟨fresh, later⟩ := List.nodup_cons.mp distinct
    have split : (first :: rest).filterMap f = (f first).toList ++ rest.filterMap f := by
      rw [List.filterMap_cons]
      cases f first <;> rfl
    rw [split, keyed_append]
    rcases List.mem_cons.mp mem with rfl | held
    · have none_ := others rest fun b' held same => fresh (same ▸ List.mem_map_of_mem held)
      rw [none_, List.append_nil]
      cases made : f b with
      | none => rfl
      | some r => simp [keyed, own b r made]
    · have other : first.key source ≠ b.key source := fun same => fresh (same ▸ List.mem_map_of_mem held)
      rw [ih later held]
      cases made : f first with
      | none => rfl
      | some r =>
        have gone : keyed (b.key source) [r] = [] := by
          apply List.filter_eq_nil_iff.mpr
          intro r' listed
          rw [List.mem_singleton.mp listed, own first r made]
          simpa using other
        rw [Option.toList_some, gone, List.nil_append]

/-- What has been written without duplicates is current. -/
theorem current_writeCandles (versioned : Versioned rows) (distinct : DuplicateFree source bars)
    (agrees : ∀ b ∈ bars, Agrees column b) :
    Current (Lake.writeCandles column source now rows bars).1 source bars := by
  intro b mem
  have after_ : Versioned (Lake.writeCandles column source now rows bars).1 := versioned.writeCandles
  rw [newest_eq (after_ _), writeCandles_of_duplicateFree distinct, keyed_append,
    keyed_filterMap (fun b r made => revise_key made) distinct mem]
  cases made : revise column source now (newest (keyed (b.key source) rows)) b with
  | some r =>
    rw [Option.toList_some, List.getLast?_concat]
    unfold revise at made
    split at made
    · cases made
    · cases made
      exact congrArg some (row_values (agrees b mem) _)
  | none =>
    rw [Option.toList_none, List.append_nil, ← newest_eq (versioned _)]
    unfold revise at made
    split at made
    · assumption
    · cases made

end Table

/-! ### `write_candles_bulk` -/

section Bulk

variable {column : ℚ → ℚ} {source : String} {now : Int} {rows : List Row} {bars : List Bar}

/-- Every item is in one of the slices. -/
theorem mem_chunks {α : Type} {n : Nat} (positive : 0 < n) {xs : List α} {x : α} (mem : x ∈ xs) :
    ∃ c ∈ chunks n xs, x ∈ c := by
  obtain ⟨j, bound, rfl⟩ := List.mem_iff_getElem.mp mem
  have down := Nat.div_add_mod j n
  have part := Nat.mod_lt j positive
  have inside : j / n < (xs.length + n - 1) / n := by
    apply (Nat.le_div_iff_mul_le positive).mpr
    rw [Nat.succ_mul, Nat.mul_comm]
    omega
  refine ⟨_, List.mem_map.mpr ⟨j / n, List.mem_range.mpr inside, rfl⟩, ?_⟩
  apply List.mem_iff_getElem.mpr
  refine ⟨j % n, ?_, ?_⟩
  · rw [List.length_take, List.length_drop, Nat.mul_comm]
    omega
  · rw [List.getElem_take, List.getElem_drop]
    congr 1
    rw [Nat.mul_comm]
    omega

/-- The step of `newest`. -/
theorem newest_snoc (rows : List Row) (r : Row) : newest (rows ++ [r]) = match newest rows with
    | none => some r
    | some best => if best.version < r.version then some r else some best := by
  unfold newest
  rw [List.foldl_append]
  rfl

theorem newest_eq_none (none_ : newest rows = none) : rows = [] := by
  cases rows using List.reverseRecOn with
  | nil => rfl
  | append_singleton rows r =>
    rw [newest_snoc] at none_
    split at none_
    · cases none_
    · split at none_ <;> cases none_

/-- The newest row is one of the rows, and no row is newer. -/
theorem newest_le {best : Row} (held : newest rows = some best) :
    best ∈ rows ∧ ∀ r ∈ rows, r.version ≤ best.version := by
  induction rows using List.reverseRecOn generalizing best with
  | nil => cases held
  | append_singleton rows r ih =>
    rw [newest_snoc] at held
    cases before : newest rows with
    | none =>
      rw [before] at held
      cases held
      refine ⟨by simp, fun x mem => ?_⟩
      have nothing : rows = [] := newest_eq_none before
      subst nothing
      rw [List.mem_singleton.mp mem]
    | some old =>
      obtain ⟨mem, upto⟩ := ih before
      rw [before] at held
      dsimp only at held
      split at held
      · rename_i newer
        cases held
        refine ⟨by simp, fun x listed => ?_⟩
        rcases List.mem_append.mp listed with older | last
        · exact (upto x older).trans newer.le
        · rw [List.mem_singleton.mp last]
      · rename_i newer
        cases held
        refine ⟨List.mem_append_left _ mem, fun x listed => ?_⟩
        rcases List.mem_append.mp listed with older | last
        · exact upto x older
        · rw [List.mem_singleton.mp last]
          exact not_lt.mp newer

theorem newest_isSome {r : Row} (mem : r ∈ rows) : ∃ best, newest rows = some best := by
  cases held : newest rows with
  | some best => exact ⟨best, rfl⟩
  | none =>
    rw [newest_eq_none held] at mem
    cases mem

/-- Rows of distinct versions, read in any order and any number of times, have one newest row. -/
theorem newest_congr {read : List Row} (distinct : (rows.map (·.version)).Nodup)
    (same : ∀ r, r ∈ read ↔ r ∈ rows) : newest read = newest rows := by
  cases held : newest rows with
  | some best =>
    obtain ⟨mem, upto⟩ := newest_le held
    obtain ⟨other, found⟩ := newest_isSome ((same best).mpr mem)
    obtain ⟨listed, most⟩ := newest_le found
    have both := le_antisymm (upto other ((same other).mp listed)) (most best ((same best).mpr mem))
    rw [found, List.inj_on_of_nodup_map distinct ((same other).mp listed) mem both]
  | none =>
    cases found : newest read with
    | none => rfl
    | some other =>
      obtain ⟨best, some_⟩ := newest_isSome ((same other).mp (newest_le found).1)
      rw [held] at some_
      cases some_

/-- The dictionary of the rows read gives the newest of each key. -/
theorem get_latestOf (k : Key) (read : List Row) : Dict.get k (latestOf read) = newest (keyed k read) := by
  induction read using List.reverseRecOn with
  | nil => rfl
  | append_singleton read r ih =>
    have step : latestOf (read ++ [r]) = match Dict.get r.key (latestOf read) with
        | none => Dict.set r.key r (latestOf read)
        | some old => if old.version < r.version then Dict.set r.key r (latestOf read) else latestOf read := by
      unfold latestOf
      rw [List.foldl_append]
      rfl
    rw [step, keyed_append]
    by_cases here : r.key = k
    · subst here
      have single : keyed r.key [r] = [r] := by simp [keyed]
      rw [single, newest_snoc, ← ih]
      cases held : Dict.get r.key (latestOf read) with
      | none => exact Dict.get_set_self ..
      | some old =>
        dsimp only
        split
        · exact Dict.get_set_self ..
        · exact held
    · have none_ : keyed k [r] = [] := by simp [keyed, here]
      rw [none_, List.append_nil, ← ih]
      cases Dict.get r.key (latestOf read) with
      | none => exact Dict.get_set_of_ne _ _ (Ne.symm here)
      | some old =>
        dsimp only
        split
        · exact Dict.get_set_of_ne _ _ (Ne.symm here)
        · rfl

/-- A chunk that has a bar of the key reads all the rows of the key. -/
theorem keyed_readChunk {chunk : List Group} {g : Group} {b : Bar} (listed : g ∈ chunk)
    (mem : b ∈ g.2) (own : (b.instrumentKey, b.timeframe) = g.1) :
    keyed (b.key source) (readChunk source rows chunk) = keyed (b.key source) rows := by
  unfold keyed readChunk
  rw [List.filter_filter]
  apply List.filter_congr
  intro r _
  by_cases here : r.key = b.key source
  · have end_ : b.ts ∈ chunk.flatMap fun g => g.2.map (·.ts) :=
      List.mem_flatMap.mpr ⟨g, listed, List.mem_map_of_mem mem⟩
    have instrument : r.instrumentKey ∈ chunk.map (·.1.1) := by
      rw [show r.instrumentKey = b.instrumentKey from congrArg Key.instrumentKey here]
      exact List.mem_map.mpr ⟨g, listed, (congrArg Prod.fst own).symm⟩
    have timeframe : r.timeframe ∈ chunk.map (·.1.2) := by
      rw [show r.timeframe = b.timeframe from congrArg Key.timeframe here]
      exact List.mem_map.mpr ⟨g, listed, (congrArg Prod.snd own).symm⟩
    have source_ : r.source = source := congrArg Key.source here
    have ts : r.ts = b.ts := congrArg Key.ts here
    have low : (chunk.flatMap fun g => g.2.map (·.ts)).any (fun e => decide (e ≤ r.ts)) = true :=
      List.any_eq_true.mpr ⟨b.ts, end_, decide_eq_true ts.ge⟩
    have high : (chunk.flatMap fun g => g.2.map (·.ts)).any (fun e => decide (r.ts ≤ e)) = true :=
      List.any_eq_true.mpr ⟨b.ts, end_, decide_eq_true ts.le⟩
    simp only [here, decide_true, instrument, timeframe, source_, low, high, Bool.and_self]
  · simp [here]

/-- The chunks together find the newest row of a bar's key. -/
theorem newest_read (versioned : Versioned rows) {groups : List Group} {g : Group} {b : Bar}
    (listed : g ∈ groups) (mem : b ∈ g.2) (own : (b.instrumentKey, b.timeframe) = g.1) :
    newest (keyed (b.key source) ((chunks 500 groups).flatMap (readChunk source rows))) =
      newest (keyed (b.key source) rows) := by
  apply newest_congr
  · rw [versioned]
    exact List.nodup_range'
  · intro r
    constructor
    · intro found
      obtain ⟨read, here⟩ := List.mem_filter.mp found
      obtain ⟨c, _, inChunk⟩ := List.mem_flatMap.mp read
      exact List.mem_filter.mpr ⟨List.mem_of_mem_filter inChunk, here⟩
    · intro held
      obtain ⟨c, isChunk, inside⟩ := mem_chunks (by decide : 0 < 500) listed
      rw [← keyed_readChunk inside mem own] at held
      obtain ⟨read, here⟩ := List.mem_filter.mp held
      exact List.mem_filter.mpr ⟨List.mem_flatMap.mpr ⟨c, isChunk, read⟩, here⟩

theorem foldl_bulkBar (latest : Dict Key Row) (bars : List Bar) (state : List Row × WriteResult) :
    (bars.foldl (bulkBar column source now latest) state).1 =
      state.1 ++ bars.filterMap fun b => revise column source now (Dict.get (b.key source) latest) b := by
  induction bars generalizing state with
  | nil => exact (List.append_nil _).symm
  | cons b bars ih =>
    rw [List.foldl_cons, ih, List.filterMap_cons]
    cases made : revise column source now (Dict.get (b.key source) latest) b with
    | none => simp [bulkBar, made]
    | some r => simp [bulkBar, made]

/-- The bars of a batch in the order of their groups. -/
def grouped (bars : List Bar) : List Bar :=
  (Dict.groupBy (fun b => (b.instrumentKey, b.timeframe)) bars).flatMap Prod.snd

theorem grouped_perm (bars : List Bar) : (grouped bars).Perm bars := Dict.flatMap_groupBy_perm ..

/-- No group has two bars with one end exactly when the batch has no duplicates. -/
theorem duplicateFree_iff (source : String) (bars : List Bar) :
    DuplicateFree source bars ↔
      ∀ g ∈ Dict.groupBy (fun b => (b.instrumentKey, b.timeframe)) bars, (g.2.map (·.ts)).Nodup := by
  have keys : ∀ g ∈ Dict.groupBy (fun b : Bar => (b.instrumentKey, b.timeframe)) bars,
      g.2.map (Bar.key source) = (g.2.map (·.ts)).map fun ts => ⟨g.1.1, g.1.2, ts, source⟩ := by
    intro g listed
    rw [List.map_map]
    apply List.map_congr_left
    intro b mem
    rw [Dict.snd_of_mem_groupBy listed] at mem
    have own := of_decide_eq_true (List.mem_filter.mp mem).2
    simp [Bar.key, ← own]
  constructor
  · intro distinct g listed
    have part : (g.2.map (Bar.key source)).Nodup := by
      rw [Dict.snd_of_mem_groupBy listed]
      exact distinct.sublist (List.filter_sublist.map _)
    rw [keys g listed] at part
    exact part.of_map
  · intro each
    have whole : ((grouped bars).map (Bar.key source)).Nodup := by
      unfold grouped
      rw [List.map_flatMap, List.nodup_flatMap]
      constructor
      · intro g listed
        rw [keys g listed]
        apply (each g listed).map
        intro t t' same
        exact congrArg Key.ts same
      · have apart := Dict.nodup_keys_groupBy (fun b : Bar => (b.instrumentKey, b.timeframe)) bars
        unfold Dict.keys at apart
        rw [List.Nodup, List.pairwise_map] at apart
        refine apart.imp_of_mem ?_
        intro g g' listed listed' other k mem mem'
        have mem : k ∈ g.2.map (Bar.key source) := mem
        have mem' : k ∈ g'.2.map (Bar.key source) := mem'
        rw [keys g listed] at mem
        rw [keys g' listed'] at mem'
        obtain ⟨t, _, rfl⟩ := List.mem_map.mp mem
        obtain ⟨t', _, same⟩ := List.mem_map.mp mem'
        exact other (Prod.ext (congrArg Key.instrumentKey same).symm (congrArg Key.timeframe same).symm)
    exact ((grouped_perm bars).map _).nodup_iff.mp whole

/-- The bulk writer writes what `write_candles` writes for the batch in the order of its groups. -/
theorem writeCandlesBulk_eq (versioned : Versioned rows) (distinct : DuplicateFree source bars) :
    (writeCandlesBulk column source now rows bars).map Prod.fst =
      some (writeCandles column source now rows (grouped bars)).1 := by
  have free_ : DuplicateFree source (grouped bars) := ((grouped_perm bars).map _).nodup_iff.mpr distinct
  have noDuplicate : ¬ (Dict.groupBy (fun b : Bar => (b.instrumentKey, b.timeframe)) bars).any
      (fun g => decide ¬ (g.2.map (·.ts)).Nodup) = true := by
    rw [List.any_eq_true]
    rintro ⟨g, listed, twice⟩
    exact of_decide_eq_true twice ((duplicateFree_iff source bars).mp distinct g listed)
  unfold writeCandlesBulk
  rw [if_neg noDuplicate]
  simp only [Option.map_some]
  rw [writeCandles_of_duplicateFree free_, foldl_bulkBar, List.nil_append]
  congr 2
  apply List.filterMap_congr
  intro b mem
  obtain ⟨g, listed, inside⟩ := List.mem_flatMap.mp mem
  have own : (b.instrumentKey, b.timeframe) = g.1 := by
    rw [Dict.snd_of_mem_groupBy listed] at inside
    exact of_decide_eq_true (List.mem_filter.mp inside).2
  rw [get_latestOf, newest_read versioned listed inside own]

/-- A batch with duplicates is refused. -/
theorem writeCandlesBulk_refused (twice : ¬ DuplicateFree source bars) :
    writeCandlesBulk column source now rows bars = none := by
  rw [duplicateFree_iff] at twice
  push Not at twice
  obtain ⟨g, listed, twice⟩ := twice
  exact if_pos (List.any_eq_true.mpr ⟨g, listed, decide_eq_true twice⟩)

end Bulk

/-! ### Runs -/

section Runs

variable {column : ℚ → ℚ} {rows : List Row} {c : Call}
variable (versioned : Versioned rows)
include versioned

/-- A call writes what `write_candles` writes for the batch in some order, or nothing. -/
theorem write_eq (column : ℚ → ℚ) (c : Call) :
    write column rows c = rows ∨ ∃ bars, bars.Perm c.bars ∧
      write column rows c = (writeCandles column c.source c.now rows bars).1 := by
  cases bulk : c.bulk with
  | false =>
    refine .inr ⟨c.bars, .refl _, ?_⟩
    simp [write, bulk]
  | true =>
    by_cases distinct : DuplicateFree c.source c.bars
    · refine .inr ⟨grouped c.bars, grouped_perm c.bars, ?_⟩
      simp [write, bulk, writeCandlesBulk_eq versioned distinct]
    · refine .inl ?_
      simp [write, bulk, writeCandlesBulk_refused distinct]

/-- A call only adds rows, stamped with its own time. -/
theorem write_appends (column : ℚ → ℚ) (c : Call) :
    ∃ more, write column rows c = rows ++ more ∧ ∀ r ∈ more, r.ingestedAt = c.now := by
  have each : ∀ (bars : List Bar) (rows : List Row), ∃ more,
      (writeCandles column c.source c.now rows bars).1 = rows ++ more ∧ ∀ r ∈ more, r.ingestedAt = c.now := by
    intro bars
    induction bars with
    | nil => exact fun rows => ⟨[], (List.append_nil _).symm, by simp⟩
    | cons b bars ih =>
      intro rows
      rw [writeCandles_cons]
      obtain ⟨more, same, stamped⟩ :=
        ih (rows ++ (revise column c.source c.now (newest (keyed (b.key c.source) rows)) b).toList)
      refine ⟨_, by rw [same, List.append_assoc], fun r mem => ?_⟩
      rcases List.mem_append.mp mem with first | later
      · unfold revise at first
        split at first
        · cases first
        · rw [Option.toList_some, List.mem_singleton] at first
          rw [first]
          rfl
      · exact stamped r later
  rcases write_eq versioned column c with same | ⟨bars, _, same⟩
  · exact ⟨[], by rw [same, List.append_nil], by simp⟩
  · rw [same]
    exact each bars rows

theorem Versioned.step (c : Call) : Versioned (write column rows c) := by
  rcases write_eq versioned column c with same | ⟨bars, _, same⟩
  · rw [same]
    exact versioned
  · rw [same]
    exact versioned.writeCandles

theorem Revised.step (revised : Revised rows) (agrees : ∀ b ∈ c.bars, Agrees column b) :
    Revised (write column rows c) := by
  rcases write_eq versioned column c with same | ⟨bars, perm, same⟩
  · rw [same]
    exact revised
  · rw [same]
    exact revised.writeCandles versioned fun b mem => agrees b (perm.mem_iff.mp mem)

omit versioned in
theorem versioned_lake (column : ℚ → ℚ) (calls : List Call) : Versioned (lake column calls) := by
  induction calls using List.reverseRecOn with
  | nil => exact fun _ => rfl
  | append_singleton calls c ih =>
    unfold lake at ih ⊢
    rw [List.foldl_append]
    exact ih.step c

omit versioned in
theorem revised_lake {calls : List Call} (agrees : ∀ c ∈ calls, ∀ b ∈ c.bars, Agrees column b) :
    Revised (lake column calls) := by
  induction calls using List.reverseRecOn with
  | nil => exact fun _ => .nil
  | append_singleton calls c ih =>
    have before := ih fun c' mem => agrees c' (List.mem_append_left _ mem)
    have versioned := versioned_lake column calls
    unfold lake at before versioned ⊢
    rw [List.foldl_append]
    exact before.step versioned (agrees c (by simp))

omit versioned in
theorem Current.perm {rows : List Row} {source : String} {bars bars' : List Bar} (current : Current rows source bars)
    (perm : bars'.Perm bars) : Current rows source bars' := fun b mem => current b (perm.mem_iff.mp mem)

/-- A batch that is already current stores nothing. -/
theorem write_current (current : Current rows c.source c.bars) : write column rows c = rows := by
  rcases write_eq versioned column c with same | ⟨bars, perm, same⟩
  · exact same
  · rw [same]
    exact writeCandles_current (current.perm perm)

/-- Both writers leave the same rows for a batch without duplicates, and the batch is current where
the column agrees with its prices. -/
theorem writers_agree (column : ℚ → ℚ) {source : String} (now : Int) {bars : List Bar}
    (distinct : DuplicateFree source bars) :
    (write column rows ⟨true, source, now, bars⟩).Perm (write column rows ⟨false, source, now, bars⟩) ∧
      ((∀ b ∈ bars, Agrees column b) → ∀ bulk, Current (write column rows ⟨bulk, source, now, bars⟩) source bars) := by
  have ungrouped : write column rows ⟨false, source, now, bars⟩ = (writeCandles column source now rows bars).1 := rfl
  have inBulk : write column rows ⟨true, source, now, bars⟩ =
      (writeCandles column source now rows (grouped bars)).1 := by
    simp [write, writeCandlesBulk_eq versioned distinct]
  have free_ : DuplicateFree source (grouped bars) := ((grouped_perm bars).map _).nodup_iff.mpr distinct
  constructor
  · rw [ungrouped, inBulk, writeCandles_of_duplicateFree distinct, writeCandles_of_duplicateFree free_]
    exact ((grouped_perm bars).filterMap _).append_left rows
  · intro agrees bulk
    cases bulk with
    | false => exact current_writeCandles versioned distinct agrees
    | true =>
      rw [inBulk]
      have current : Current (writeCandles column source now rows (grouped bars)).1 source (grouped bars) :=
        current_writeCandles versioned free_ fun b mem => agrees b ((grouped_perm bars).mem_iff.mp mem)
      exact current.perm (grouped_perm bars).symm

end Runs

end AdvanceTrading.Lake
