import AdvanceTrading.MarketLake.Ingest
import AdvanceTrading.Misc.LeastByKey
import Mathlib.Data.Prod.Lex

/-!
# Reading the lake as of a moment

Model of `_rank`, `candles_as_of` and `candle_values_as_of`
(`app/market_lake/asof.py:21-62`), which choose a row for each bar end among
the rows the database returns, in the order it returns them.
-/

namespace AdvanceTrading.Lake

/-- The arguments of a read. No source preference is an empty list. -/
structure Query where
  instrumentKey : String
  timeframe : String
  start : Int
  stop : Int
  asOf : Option Int
  sources : List String

/-- `_rank`: lower is better, unknown sources last. -/
def rank (sources : List String) (source : String) : Nat :=
  if sources = [] then 0 else if source ∈ sources then sources.idxOf source else sources.length

/-- The rows that the query selects, in the database's order. -/
def selected (q : Query) (rows : List Row) : List Row :=
  rows.filter fun r =>
    decide (r.instrumentKey = q.instrumentKey) && decide (r.timeframe = q.timeframe) && decide (q.start < r.ts) &&
      decide (r.ts ≤ q.stop) && (q.asOf.all fun asOf => decide (r.ingestedAt ≤ asOf)) &&
      (decide (q.sources = []) || decide (r.source ∈ q.sources))

/-- The tuple that the choice compares. -/
def choice (sources : List String) (source : String) (version : Nat) : ℕ ×ₗ ℤ :=
  toLex (rank sources source, -(version : Int))

/-- `candles_as_of`. -/
def candlesAsOf (q : Query) (rows : List Row) : List Row :=
  sortBy (·.ts) (leastByKey (·.ts) (fun r => choice q.sources r.source r.version) (selected q rows))

/-- The columns that `candle_values_as_of` selects. -/
structure Columns where
  ts : Int
  source : String
  version : Nat
  open_ : ℚ
  high : ℚ
  low : ℚ
  close : ℚ
  deriving DecidableEq

def Row.columns (r : Row) : Columns := ⟨r.ts, r.source, r.version, r.open_, r.high, r.low, r.close⟩

/-- A bar end with its prices. -/
structure CandleValues where
  ts : Int
  open_ : ℚ
  high : ℚ
  low : ℚ
  close : ℚ
  deriving DecidableEq

def Columns.values (c : Columns) : CandleValues := ⟨c.ts, c.open_, c.high, c.low, c.close⟩

/-- `candle_values_as_of`. -/
def candleValuesAsOf (q : Query) (rows : List Row) : List CandleValues :=
  (sortBy (·.ts) (leastByKey (·.ts) (fun c => choice q.sources c.source c.version)
    ((selected q rows).map Row.columns))).map Columns.values

/-- Two rows that the choice cannot tell apart where it matters: no better row for their bar end. -/
def TopTie (q : Query) (rows : List Row) (r s : Row) : Prop :=
  r ∈ selected q rows ∧ s ∈ selected q rows ∧ r.ts = s.ts ∧ r.version = s.version ∧
    ∀ x ∈ selected q rows, x.ts = r.ts → x.version ≤ r.version

/-- A source preference is given, or no two sources share the highest visible version of a bar. -/
def Unambiguous (q : Query) (rows : List Row) : Prop :=
  q.sources ≠ [] ∨ ∀ r s, TopTie q rows r s → r.source = s.source

variable {sources : List String} {rows' : List Row} {r : Row} {asOf : Int}

section Reads

variable {q : Query} {rows : List Row}

theorem insertionSort_map_ts {α β : Type} (f : α → β) (ts : β → Int) (xs : List α) :
    sortBy ts (xs.map f) = (sortBy (fun x => ts (f x)) xs).map f := by
  unfold sortBy
  induction xs with
  | nil => rfl
  | cons x xs ih =>
    have insert_ : ∀ ys : List α, (ys.map f).orderedInsert (fun a b => ts a ≤ ts b) (f x) =
        (ys.orderedInsert (fun a b => ts (f a) ≤ ts (f b)) x).map f := by
      intro ys
      induction ys with
      | nil => rfl
      | cons y ys ih =>
        simp only [List.map_cons, List.orderedInsert_cons]
        split
        · rfl
        · rw [ih, List.map_cons]
    rw [List.map_cons, List.insertionSort_cons, List.insertionSort_cons, ih, insert_]

/-- The values are those of the rows. -/
theorem candleValuesAsOf_eq (q : Query) (rows : List Row) :
    candleValuesAsOf q rows = (candlesAsOf q rows).map fun r => r.columns.values := by
  unfold candleValuesAsOf candlesAsOf
  rw [leastByKey_map, insertionSort_map_ts, List.map_map]
  rfl

/-- One bar for each end, in order. -/
theorem candlesAsOf_ordered (q : Query) (rows : List Row) : (candlesAsOf q rows).Pairwise fun a b => a.ts < b.ts := by
  have sorted := sortBy_sorted (·.ts)
    (leastByKey (·.ts) (fun r => choice q.sources r.source r.version) (selected q rows))
  have once : ((candlesAsOf q rows).map (·.ts)).Nodup :=
    ((sortBy_perm _ _).map _).nodup_iff.mpr (nodup_leastByKey _)
  rw [List.Nodup, List.pairwise_map] at once
  exact (sorted.and once).imp fun both => lt_of_le_of_ne both.1 both.2

theorem mem_candlesAsOf : r ∈ candlesAsOf q rows ↔
    r ∈ leastByKey (·.ts) (fun r => choice q.sources r.source r.version) (selected q rows) := mem_sortBy

theorem selected_perm (perm : rows'.Perm rows) : (selected q rows').Perm (selected q rows) :=
  perm.filter _

/-- Rows of one key and version are one row. -/
theorem Versioned.single (versioned : Versioned rows) {s : Row} (mem : r ∈ rows) (mem' : s ∈ rows)
    (same : r.key = s.key) (version : r.version = s.version) : r = s := by
  have distinct : ((keyed s.key rows).map (·.version)).Nodup := by
    rw [versioned]
    exact List.nodup_range'
  have here : r ∈ keyed s.key rows := List.mem_filter.mpr ⟨mem, decide_eq_true same⟩
  have there : s ∈ keyed s.key rows := List.mem_filter.mpr ⟨mem', decide_eq_true rfl⟩
  exact List.inj_on_of_nodup_map distinct here there version

/-- A source preference tells the sources it lists apart. -/
theorem rank_injOn (some_ : sources ≠ []) {a b : String} (ha : a ∈ sources) (hb : b ∈ sources)
    (same : rank sources a = rank sources b) : a = b := by
  unfold rank at same
  rw [if_neg some_, if_pos ha, if_neg some_, if_pos hb] at same
  exact (List.idxOf_inj ha).mp same

theorem choice_eq {a b : String} {m n : Nat} :
    choice sources a m = choice sources b n ↔ rank sources a = rank sources b ∧ m = n := by
  unfold choice
  rw [EmbeddingLike.apply_eq_iff_eq, Prod.mk.injEq, neg_inj, Nat.cast_inj]

theorem mem_selected (mem : r ∈ selected q rows) : r ∈ rows ∧ r.instrumentKey = q.instrumentKey ∧
    r.timeframe = q.timeframe ∧ (q.sources ≠ [] → r.source ∈ q.sources) := by
  obtain ⟨listed, all⟩ := List.mem_filter.mp mem
  simp only [Bool.and_eq_true, Bool.or_eq_true, decide_eq_true_eq] at all
  obtain ⟨⟨⟨⟨⟨instrument, timeframe⟩, _⟩, _⟩, _⟩, source⟩ := all
  exact ⟨listed, instrument, timeframe, fun some_ => source.resolve_left some_⟩

/-- With no source preference the choice is the version alone. -/
theorem choice_le_nil (none_ : sources = []) {a b : String} {m n : Nat} :
    choice sources a m ≤ choice sources b n ↔ n ≤ m := by
  unfold choice rank
  rw [if_pos none_, if_pos none_, Prod.Lex.toLex_le_toLex]
  simp

/-- Where the read is unambiguous the least choice of a bar end belongs to one row. -/
theorem Unambiguous.single (clear_ : Unambiguous q rows) (versioned : Versioned rows) :
    ∀ r ∈ selected q rows, ∀ s ∈ selected q rows, r.ts = s.ts →
      choice q.sources r.source r.version = choice q.sources s.source s.version →
      (∀ x ∈ selected q rows, x.ts = r.ts →
        choice q.sources r.source r.version ≤ choice q.sources x.source x.version) → r = s := by
  intro r mem s mem' ts same least
  obtain ⟨ranks, version⟩ := choice_eq.mp same
  obtain ⟨listed, instrument, timeframe, source⟩ := mem_selected mem
  obtain ⟨listed', instrument', timeframe', source'⟩ := mem_selected mem'
  have sources : r.source = s.source := by
    rcases clear_ with some_ | apart
    · exact rank_injOn some_ (source some_) (source' some_) ranks
    · by_cases none_ : q.sources = []
      · apply apart
        refine ⟨mem, mem', ts, version, fun x inside here => ?_⟩
        exact (choice_le_nil none_).mp (least x inside here)
      · exact rank_injOn none_ (source none_) (source' none_) ranks
  apply versioned.single listed listed' _ version
  simp [Row.key, instrument, instrument', timeframe, timeframe', ts, sources]

/-- An unambiguous read does not depend on the order of the rows. -/
theorem candlesAsOf_perm (versioned : Versioned rows) (clear_ : Unambiguous q rows)
    (perm : rows'.Perm rows) : candlesAsOf q rows' = candlesAsOf q rows := by
  have same : ∀ x, x ∈ selected q rows' ↔ x ∈ selected q rows := fun x => (selected_perm perm).mem_iff
  have single := clear_.single versioned
  have single' : ∀ r ∈ selected q rows', ∀ s ∈ selected q rows', r.ts = s.ts →
      choice q.sources r.source r.version = choice q.sources s.source s.version →
      (∀ x ∈ selected q rows', x.ts = r.ts →
        choice q.sources r.source r.version ≤ choice q.sources x.source x.version) → r = s := by
    intro r mem s mem' ts equal least
    exact single r ((same r).mp mem) s ((same s).mp mem') ts equal fun x inside => least x ((same x).mpr inside)
  have members : ∀ x, x ∈ candlesAsOf q rows' ↔ x ∈ candlesAsOf q rows := by
    intro x
    rw [mem_candlesAsOf, mem_candlesAsOf, mem_leastByKey_iff single, mem_leastByKey_iff single', same]
    simp only [same]
  have strict := candlesAsOf_ordered q rows
  have strict' := candlesAsOf_ordered q rows'
  have apart : ∀ {xs : List Row}, xs.Pairwise (fun a b => a.ts < b.ts) → xs.Nodup := by
    intro xs ordered
    exact ordered.imp fun {a b} lt same => absurd (congrArg Row.ts same) (ne_of_lt lt)
  apply ((List.perm_ext_iff_of_nodup (apart strict') (apart strict)).mpr members).eq_of_pairwise _ strict' strict
  intro a b _ _ less more
  exact absurd less (lt_asymm more)

/-- Two sources that share the top version: the first one the database returns is chosen. -/
theorem not_perm_of_tie {s : Row} (none_ : q.sources = []) (tie : TopTie q rows r s)
    (other : r.source ≠ s.source) :
    ∃ rows', rows'.Perm rows ∧ candlesAsOf q rows' ≠ candlesAsOf q rows := by
  obtain ⟨mem, mem', ts, version, top⟩ := tie
  -- whichever of the two comes first is in the read
  have chosen : ∀ x ∈ selected q rows, x.ts = r.ts → x.version = r.version →
      x ∈ candlesAsOf q (x :: rows.erase x) := by
    intro x inside here number
    have perm : (x :: rows.erase x).Perm rows := (List.perm_cons_erase (mem_selected inside).1).symm
    have kept : selected q (x :: rows.erase x) = x :: selected q (rows.erase x) :=
      List.filter_cons_of_pos (List.mem_filter.mp inside).2
    rw [mem_candlesAsOf, kept]
    apply mem_leastByKey_cons
    intro y listed same
    have inRows : y ∈ selected q rows := by
      rw [← (selected_perm perm).mem_iff, kept]
      exact List.mem_cons_of_mem _ listed
    exact (choice_le_nil none_).mpr (number ▸ top y inRows (same.trans here))
  by_contra all
  push Not at all
  have first := all _ (List.perm_cons_erase (mem_selected mem).1).symm
  have second := all _ (List.perm_cons_erase (mem_selected mem').1).symm
  have both : r ∈ candlesAsOf q rows := first ▸ chosen r mem rfl rfl
  have both' : s ∈ candlesAsOf q rows := second ▸ chosen s mem' ts.symm version.symm
  have once : ((candlesAsOf q rows).map (·.ts)).Nodup :=
    ((sortBy_perm _ _).map _).nodup_iff.mpr (nodup_leastByKey _)
  exact other (congrArg Row.source (List.inj_on_of_nodup_map once both both' ts))

/-- Rows ingested after the moment are not read. -/
theorem selected_append {more : List Row} (moment : q.asOf = some asOf)
    (later : ∀ r ∈ more, asOf < r.ingestedAt) : selected q (rows ++ more) = selected q rows := by
  have none_ : selected q more = [] := by
    apply List.filter_eq_nil_iff.mpr
    intro r mem
    have := later r mem
    simp [moment, this]
  have split : selected q (rows ++ more) = selected q rows ++ selected q more := List.filter_append ..
  rw [split, none_, List.append_nil]

/-- A write ingested after the moment changes nothing that is read as of it. -/
theorem selected_write (versioned : Versioned rows) (column : ℚ → ℚ) {c : Call}
    (moment : q.asOf = some asOf) (later : asOf < c.now) :
    selected q (write column rows c) = selected q rows := by
  obtain ⟨more, same, stamped⟩ := write_appends versioned column c
  rw [same]
  exact selected_append moment fun r mem => (stamped r mem).symm ▸ later

end Reads

/-- The read is one answer, whatever order the database returns the rows in, from both readers. -/
def ReadsOne (q : Query) (rows : List Row) : Prop :=
  ∀ rows', rows'.Perm rows → candlesAsOf q rows' = candlesAsOf q rows ∧
    candleValuesAsOf q rows' = (candlesAsOf q rows).map fun r => r.columns.values

theorem readsOne_iff {q : Query} {rows : List Row} (versioned : Versioned rows) :
    ReadsOne q rows ↔ Unambiguous q rows := by
  constructor
  · intro one
    by_cases none_ : q.sources = []
    · refine .inr fun r s tie => ?_
      by_contra other
      obtain ⟨rows', perm, differs⟩ := not_perm_of_tie none_ tie other
      exact differs (one rows' perm).1
    · exact .inl none_
  · intro clear_ rows' perm
    have same := candlesAsOf_perm versioned clear_ perm
    exact ⟨same, by rw [candleValuesAsOf_eq, same]⟩

/-- For every run of writes on an empty lake. The versions of a key are 1..k; a batch that is
current stores nothing; both writers leave the same rows for a batch without duplicates. A read
gives one bar for each end, the same row in both readers, and a write ingested after its moment does
not change it. Where the column gives back prices that round as the bars', consecutive versions
differ and a batch that has been written is current; a read is one answer exactly where it is
unambiguous. -/
theorem lake_asOf (column : ℚ → ℚ) (calls : List Call) :
    Versioned (lake column calls) ∧
    (∀ c, Current (lake column calls) c.source c.bars → write column (lake column calls) c = lake column calls) ∧
    (∀ source now bars, DuplicateFree source bars →
      (write column (lake column calls) ⟨true, source, now, bars⟩).Perm
        (write column (lake column calls) ⟨false, source, now, bars⟩)) ∧
    (∀ q rows, (candlesAsOf q rows).Pairwise fun a b => a.ts < b.ts) ∧
    (∀ q rows, candleValuesAsOf q rows = (candlesAsOf q rows).map fun r => r.columns.values) ∧
    (∀ q asOf c, q.asOf = some asOf → asOf < c.now →
      candlesAsOf q (write column (lake column calls) c) = candlesAsOf q (lake column calls) ∧
      candleValuesAsOf q (write column (lake column calls) c) = candleValuesAsOf q (lake column calls) ∧
      (Unambiguous q (lake column calls) → Unambiguous q (write column (lake column calls) c))) ∧
    ((∀ c ∈ calls, ∀ b ∈ c.bars, Agrees column b) → Revised (lake column calls)) ∧
    (∀ source now bars, DuplicateFree source bars → (∀ b ∈ bars, Agrees column b) → ∀ bulk,
      Current (write column (lake column calls) ⟨bulk, source, now, bars⟩) source bars) ∧
    (∀ q, ReadsOne q (lake column calls) ↔ Unambiguous q (lake column calls)) := by
  have versioned := versioned_lake column calls
  refine ⟨versioned, fun c current => write_current versioned current, ?_, candlesAsOf_ordered,
    candleValuesAsOf_eq, ?_, revised_lake, ?_, fun q => readsOne_iff versioned⟩
  · intro source now bars distinct
    exact (writers_agree versioned column now distinct).1
  · intro q asOf c moment later
    have same := selected_write versioned column moment later
    refine ⟨?_, ?_, ?_⟩
    · unfold candlesAsOf
      rw [same]
    · unfold candleValuesAsOf
      rw [same]
    · unfold Unambiguous TopTie
      rw [same]
      exact id
  · intro source now bars distinct agrees bulk
    exact (writers_agree versioned column now distinct).2 agrees bulk

/-! ## Where it fails -/

/-- A bar of one instrument's day with one price. -/
def flatBar (price : ℚ) : Bar := ⟨"NSE:INFY", "day", 10, price, price, price, price, 1, none⟩

/-- Two sources tell of one day at two prices. -/
def twoSources : List Call := [⟨false, "nse_bhav:cm", 20, [flatBar 100]⟩, ⟨false, "broker:dhan", 30, [flatBar 101]⟩]

/-- A read of that day without a preference. -/
def anySource : Query := ⟨"NSE:INFY", "day", 0, 10, none, []⟩

/-- A column of four decimals that rounds a tie away from zero. -/
def numeric4 (x : ℚ) : ℚ := if 0 ≤ x then ⌊x * 10000 + 1 / 2⌋ / 10000 else -(⌊-x * 10000 + 1 / 2⌋ / 10000)

/-- The answer depends on the order the database returns the two sources in; and 100.03125, which
`round` takes down and the column up, is stored again and again with the same values. -/
theorem twoSources_ambiguous :
    ¬ ReadsOne anySource (lake numeric4 twoSources) ∧
    ¬ Revised (lake numeric4 [⟨false, "broker:dhan", 20, [flatBar (100 + 1 / 32)]⟩,
      ⟨false, "broker:dhan", 30, [flatBar (100 + 1 / 32)]⟩]) := by
  constructor
  · intro one
    have swapped := (one (lake numeric4 twoSources).reverse (List.reverse_perm _)).1
    exact absurd swapped (by decide +kernel)
  · intro revised
    have own := revised ⟨"NSE:INFY", "day", 10, "broker:dhan"⟩
    exact absurd own (by decide +kernel)

end AdvanceTrading.Lake
