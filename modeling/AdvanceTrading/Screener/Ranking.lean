import AdvanceTrading.Misc.Dict
import AdvanceTrading.Misc.PercentRank
import AdvanceTrading.Screener.NodeJson
import Mathlib.Data.String.Basic

/-!
# Ranking systems

Model of `app/screener/ranking.py:102-187` and `:239-280`: reading a tree of
weighted factors, and scoring one cross-section with it. What ScreenQL says of
a factor is a parameter, as the texts that `str` makes of other values are.
Scores are exact.
-/

namespace AdvanceTrading.Screener.Ranking

/-! ## Trees -/

/-- `Node`: a leaf with its factor, or a group. -/
inductive RankNode where
  | leaf (name : Text) (weight : ℚ) (factor : Text) (higherIsBetter sectorNeutral : Bool)
  | group (name : Text) (weight : ℚ) (children : List RankNode)

def RankNode.name : RankNode → Text
  | .leaf name _ _ _ _ => name
  | .group name _ _ => name

def RankNode.weight : RankNode → ℚ
  | .leaf _ weight _ _ _ => weight
  | .group _ weight _ => weight

/-- A leaf without its name. -/
structure Factor where
  factor : Text
  higherIsBetter : Bool
  sectorNeutral : Bool
  deriving DecidableEq

/-- `System`. -/
structure System where
  name : Text
  nodes : List RankNode
  description : Text

mutual

/-- The leaves of a node at `path`, each with its own path. -/
def nodeLeaves : RankNode → Text → List (Text × Factor)
  | .leaf _ _ factor higherIsBetter sectorNeutral, path => [(path, ⟨factor, higherIsBetter, sectorNeutral⟩)]
  | .group _ _ children, path => levelLeaves children path

/-- `walk` of `leaf_paths`. -/
def levelLeaves : List RankNode → Text → List (Text × Factor)
  | [], _ => []
  | x :: rest, path => nodeLeaves x (path ++ '/' :: x.name) ++ levelLeaves rest path

end

/-- `leaf_paths`. -/
def System.leafPaths (system : System) : List (Text × Factor) := levelLeaves system.nodes []

/-! ## Reading a tree -/

/-- `RankingError`, by its text; a node is told by its path and its name. -/
inductive RankingError where
  /-- "a node is an object" -/
  | notObject (path : Text)
  /-- "a node needs a name (at most 60 characters)" -/
  | needsName (path : Text)
  /-- "a node name has no '/' (it separates the parts of a component's path)" -/
  | slash (path name : Text)
  /-- "weight must be a number" -/
  | weightNumber (path name : Text)
  /-- "weight is a percentage above 0 and at most 100" -/
  | weightRange (path name : Text)
  /-- "a node has a factor (a leaf) or children (a group), not both" -/
  | notBoth (path name : Text)
  /-- "neutral is null or "sector"" -/
  | neutral (path name : Text)
  /-- "higher_is_better is true or false" -/
  | higherIsBetter (path name : Text)
  /-- "the factor is a ScreenQL expression (at most 500 characters)" -/
  | factorText (path name : Text)
  /-- "at most 3 levels" -/
  | tooDeep (path name : Text)
  /-- "a level is a non-empty list of nodes" -/
  | emptyLevel (path : Text)
  /-- "the weights of a level add up to 100 (they add up to …)" -/
  | total (path : Text) (total : ℚ)
  /-- "node names repeat within a level" -/
  | repeated (path : Text)
  /-- "a ranking system needs a name (at most 60 characters)" -/
  | systemName
  /-- "the tree is an object with a list of nodes" -/
  | notATree
  /-- "at most 30 factors" -/
  | tooMany
  /-- What ScreenQL says of the factor of the leaf with this name. -/
  | factor (name problem : Text)

/-- `MAX_DEPTH`. -/
def maxDepth : Nat := 3

/-- `MAX_LEAVES`. -/
def maxLeaves : Nat := 30

/-- The keys of a tree. -/
def Key.weight : Text := ['w', 'e', 'i', 'g', 'h', 't']
def Key.factor : Text := ['f', 'a', 'c', 't', 'o', 'r']
def Key.children : Text := ['c', 'h', 'i', 'l', 'd', 'r', 'e', 'n']
def Key.neutral : Text := ['n', 'e', 'u', 't', 'r', 'a', 'l']
def Key.nodes : Text := ['n', 'o', 'd', 'e', 's']
def Key.higherIsBetter : Text :=
  ['h', 'i', 'g', 'h', 'e', 'r', '_', 'i', 's', '_', 'b', 'e', 't', 't', 'e', 'r']

/-- The one text that `neutral` may have. -/
def sectorText : Text := ['s', 'e', 'c', 't', 'o', 'r']

/-- The characters `str.strip` removes. -/
def isSpace (c : Char) : Bool :=
  (9 ≤ c.toNat && c.toNat ≤ 13) || (28 ≤ c.toNat && c.toNat ≤ 32) || (0x2000 ≤ c.toNat && c.toNat ≤ 0x200A) ||
    c.toNat ∈ [0x85, 0xA0, 0x1680, 0x2028, 0x2029, 0x202F, 0x205F, 0x3000]

/-- `text.strip()`. -/
def strip (text : Text) : Text := ((text.dropWhile isSpace).reverse.dropWhile isSpace).reverse

/-- `raw.get(key)`. -/
def field (key : Text) (entries : List (Text × Json)) : Json := ((find key entries).map (·.1)).getD .null

/-- `_number`; a bool and an infinity are no numbers. -/
def number : Json → Option ℚ
  | .int value => some value
  | .float (.finite x) => some x.value
  | _ => none

/-- `str(raw.get("name") or "").strip()`. -/
def nodeName (conversions : Conversions) (entries : List (Text × Json)) : Text :=
  let raw := field Key.name entries
  strip (if raw.truthy then conversions.toStr raw else [])

/-- `raw.get("higher_is_better", True)`, when it is a bool. -/
def betterOf (entries : List (Text × Json)) : Option Bool :=
  match find Key.higherIsBetter entries with
  | none => some true
  | some ⟨.bool value, _⟩ => some value
  | some _ => none

/-- Whether a leaf is sector-neutral, when `neutral` is one of `NEUTRALS`. -/
def neutralOf (entries : List (Text × Json)) : Option Bool :=
  match field Key.neutral entries with
  | .null => some false
  | .str text => if text = sectorText then some true else none
  | _ => none

/-- The branch of `_node` for a leaf. -/
def readLeaf (entries : List (Text × Json)) (path name : Text) (weight : ℚ) (factor : Json) :
    Except RankingError RankNode :=
  match neutralOf entries with
  | none => .error (.neutral path name)
  | some neutral =>
    match betterOf entries with
    | none => .error (.higherIsBetter path name)
    | some better =>
      match factor with
      | .str text =>
        if strip text = [] ∨ 500 < text.length then .error (.factorText path name)
        else .ok (.leaf name weight (strip text) better neutral)
      | _ => .error (.factorText path name)

/-- How the next level is read, where there may be one. -/
abbrev Deeper := Option (Json → Text → Except RankingError (List RankNode))

/-- `_node`. -/
def readNode (conversions : Conversions) (deeper : Deeper) (raw : Json) (path : Text) : Except RankingError RankNode :=
  match raw with
  | .dict entries =>
    let name := nodeName conversions entries
    if name = [] ∨ 60 < name.length then .error (.needsName path)
    else if '/' ∈ name then .error (.slash path name)
    else
      match number (field Key.weight entries) with
      | none => .error (.weightNumber path name)
      | some weight =>
        if ¬ (0 < weight ∧ weight ≤ 100) then .error (.weightRange path name)
        else
          match field Key.factor entries, field Key.children entries with
          | .null, .null => .error (.notBoth path name)
          | .null, children =>
            match deeper with
            | none => .error (.tooDeep path name)
            | some deeper => (deeper children (path ++ '/' :: name)).map (RankNode.group name weight)
          | factor, .null => readLeaf entries path name weight factor
          | _, _ => .error (.notBoth path name)
  | _ => .error (.notObject path)

/-- The nodes of a level, each under the path with its position. -/
def readNodes (read : Json → Text → Except RankingError RankNode) (path : Text) : Nat → List Json →
    Except RankingError (List RankNode)
  | _, [] => .ok []
  | i, raw :: rest =>
    match read raw (path ++ '[' :: (toString i).toList ++ [']']) with
    | .error e => .error e
    | .ok node => (readNodes read path (i + 1) rest).map (node :: ·)

/-- The checks of `_level` on its nodes. -/
def checkLevel (path : Text) (nodes : List RankNode) : Except RankingError (List RankNode) :=
  let total := (nodes.map RankNode.weight).sum
  if 1 / 1000000 < |total - 100| then .error (.total path total)
  else if ¬ (nodes.map RankNode.name).Nodup then .error (.repeated path)
  else .ok nodes

/-- The body of `_level`. -/
def levelOf (read : Json → Text → Except RankingError RankNode) (raw : Json) (path : Text) :
    Except RankingError (List RankNode) :=
  match raw with
  | .list [] => .error (.emptyLevel path)
  | .list items =>
    match readNodes read path 0 items with
    | .error e => .error e
    | .ok nodes => checkLevel path nodes
  | _ => .error (.emptyLevel path)

/-- `_level`, with so many more levels allowed below it. -/
def readLevel (conversions : Conversions) : Nat → Json → Text → Except RankingError (List RankNode)
  | 0 => levelOf (readNode conversions none)
  | more + 1 => levelOf (readNode conversions (some (readLevel conversions more)))

mutual

/-- The leaves of a node with their own names. -/
def nodeFactors : RankNode → List (Text × Text)
  | .leaf name _ factor _ _ => [(name, factor)]
  | .group _ _ children => levelFactors children

/-- `System.leaves`. -/
def levelFactors : List RankNode → List (Text × Text)
  | [] => []
  | x :: rest => nodeFactors x ++ levelFactors rest

end

/-- The loop of `parse` over the leaves. -/
def checkFactors (problem : Text → Option Text) : List (Text × Text) → Except RankingError Unit
  | [] => .ok ()
  | (name, factor) :: rest =>
    match problem factor with
    | some why => .error (.factor name why)
    | none => checkFactors problem rest

/-- `parse`. `problem` is the first refusal of a factor (`:168-186`). -/
def parse (conversions : Conversions) (problem : Text → Option Text) (name : Text) (tree : Json) (description : Text) :
    Except RankingError System :=
  let clean := strip name
  if clean = [] ∨ 60 < clean.length then .error .systemName
  else
    match tree with
    | .dict entries =>
      match readLevel conversions (maxDepth - 1) (field Key.nodes entries) Key.nodes with
      | .error e => .error e
      | .ok nodes =>
        if maxLeaves < (levelFactors nodes).length then .error .tooMany
        else
          match checkFactors problem (levelFactors nodes) with
          | .error e => .error e
          | .ok _ => .ok ⟨clean, nodes, description.take 300⟩
    | _ => .error .notATree

/-! ## Scoring -/

/-- The number of each symbol that has one. -/
abbrev Scores := String → Option ℚ

/-- Each leaf's values by its path: a series of the symbols it knows, some of them without a value. -/
abbrev Values := Dict Text (Dict String (Option ℚ))

/-- `NO_SECTOR`. -/
def noSector : String := "__none__"

/-- The symbols of a cross-section, in order. -/
def symbols (values : Values) : List String := sortBy id (values.flatMap fun e => Dict.keys e.2).dedup

/-- A leaf's values over the symbols of the cross-section. -/
def reading (values : Values) (path : Text) : Scores := fun i => ((Dict.get path values).bind (Dict.get i)).join

/-- The sector of a symbol, in the map that is given. -/
def sectorKey (sectors : Dict String (Option String)) (i : String) : String := (Dict.get i sectors).join.getD noSector

/-- `percentile`. -/
def percentile (index : List String) (values : Scores) (groups : Option (String → String)) (higherIsBetter : Bool) :
    Scores :=
  let x : Scores := if higherIsBetter then values else fun i => (values i).map fun v => -v
  match groups with
  | none => percentRank index x
  | some key => fun i => percentRank (index.filter fun j => key j = key i) x i

/-- The score of a leaf. -/
def leafScore (values : Values) (sectors : Option (Dict String (Option String))) (path : Text)
    (leaf : Factor) : Scores :=
  percentile (symbols values) (reading values path) (if leaf.sectorNeutral then sectors.map sectorKey else none)
    leaf.higherIsBetter

mutual

/-- `node_score`. -/
def nodeScore (values : Values) (sectors : Option (Dict String (Option String))) : RankNode → Text → Scores
  | .leaf _ _ factor higherIsBetter sectorNeutral, path =>
    leafScore values sectors path ⟨factor, higherIsBetter, sectorNeutral⟩
  | .group _ _ children, path => fun i => weightedMean (childScores values sectors children path i)

/-- The weights and scores that the loop of `level_score` adds up for one symbol. -/
def childScores (values : Values) (sectors : Option (Dict String (Option String))) : List RankNode → Text → String →
    List (ℚ × Option ℚ)
  | [], _, _ => []
  | x :: rest, path, i =>
    (x.weight, nodeScore values sectors x (path ++ '/' :: x.name) i) :: childScores values sectors rest path i

end

/-- `level_score`. -/
def levelScore (values : Values) (sectors : Option (Dict String (Option String)))
    (nodes : List RankNode) (path : Text) :
    Scores := fun i => weightedMean (childScores values sectors nodes path i)

mutual

/-- What `node_score` enters into `parts`, in its order. -/
def nodeParts (values : Values) (sectors : Option (Dict String (Option String))) : RankNode → Text →
    List (Text × Scores)
  | .leaf name weight factor higherIsBetter sectorNeutral, path =>
    [(path, nodeScore values sectors (.leaf name weight factor higherIsBetter sectorNeutral) path)]
  | .group name weight children, path =>
    levelParts values sectors children path ++ [(path, nodeScore values sectors (.group name weight children) path)]

def levelParts (values : Values) (sectors : Option (Dict String (Option String))) : List RankNode → Text →
    List (Text × Scores)
  | [], _ => []
  | x :: rest, path => nodeParts values sectors x (path ++ '/' :: x.name) ++ levelParts values sectors rest path

end

/-- The key of the composite in `parts`. -/
def compositeKey : Text := ['c', 'o', 'm', 'p', 'o', 's', 'i', 't', 'e']

/-- `score`: the rank, and every node's score by its path. -/
def score (system : System) (values : Values) (sectors : Option (Dict String (Option String))) :
    Scores × Dict Text Scores :=
  let composite := levelScore values sectors system.nodes []
  let parts := (levelParts values sectors system.nodes []).foldl (fun parts e => Dict.set e.1 e.2 parts) []
  (percentile (symbols values) composite none true, Dict.set compositeKey composite parts)

/-! ## Accepted trees -/

/-- What `parse` makes sure of at every level: names without '/' that do not repeat, and positive weights. -/
inductive RankNode.WellFormed : RankNode → Prop where
  | leaf {name weight factor higherIsBetter sectorNeutral} : '/' ∉ name → 0 < weight →
      RankNode.WellFormed (.leaf name weight factor higherIsBetter sectorNeutral)
  | group {name weight children} : '/' ∉ name → 0 < weight → (children.map RankNode.name).Nodup →
      (∀ x ∈ children, RankNode.WellFormed x) → RankNode.WellFormed (.group name weight children)

/-- A level of accepted nodes. -/
structure LevelWellFormed (nodes : List RankNode) : Prop where
  distinct : (nodes.map RankNode.name).Nodup
  each : ∀ x ∈ nodes, x.WellFormed

theorem RankNode.WellFormed.weight_pos {x : RankNode} (wf : x.WellFormed) : 0 < x.weight := by
  cases wf with
  | leaf _ positive => exact positive
  | group _ positive => exact positive

theorem RankNode.WellFormed.name_plain {x : RankNode} (wf : x.WellFormed) : '/' ∉ x.name := by
  cases wf with
  | leaf plain => exact plain
  | group plain => exact plain

variable {read : Json → Text → Except RankingError RankNode} {name : Text}

section Reading

variable {conversions : Conversions} {deeper : Deeper} {raw : Json} {path : Text}

theorem of_map_ok {ε α β : Type} {f : α → β} {tried : Except ε α} {y : β} (ok : tried.map f = .ok y) :
    ∃ x, tried = .ok x ∧ f x = y := by
  cases tried with
  | error e => cases ok
  | ok x =>
    cases ok
    exact ⟨x, rfl, rfl⟩

theorem readLeaf_ok {entries : List (Text × Json)} {weight : ℚ} {factor : Json} {x : RankNode}
    (read : readLeaf entries path name weight factor = .ok x) :
    ∃ text better neutral, x = .leaf name weight text better neutral := by
  unfold readLeaf at read
  split at read
  · cases read
  · split at read
    · cases read
    · split at read
      · split at read
        · cases read
        · cases read
          exact ⟨_, _, _, rfl⟩
      · cases read

/-- What `_node` accepts is well formed when the levels below it are. -/
theorem readNode_wellFormed
    (below : ∀ deep ∈ deeper, ∀ raw path nodes, deep raw path = .ok nodes → LevelWellFormed nodes)
    {x : RankNode} (read : readNode conversions deeper raw path = .ok x) : x.WellFormed := by
  unfold readNode at read
  split at read
  · simp only at read
    split at read
    · cases read
    · split at read
      · cases read
      · rename_i plain
        split at read
        · cases read
        · split at read
          · cases read
          · rename_i inRange
            have positive := (not_not.mp inRange).1
            split at read
            · cases read
            · split at read
              · cases read
              · rename_i deep
                obtain ⟨children, made, rfl⟩ := of_map_ok read
                obtain ⟨distinct, each⟩ := below deep rfl _ _ _ made
                exact .group plain positive distinct each
            · obtain ⟨text, better, neutral, rfl⟩ := readLeaf_ok read
              exact .leaf plain positive
            · cases read
  · cases read

theorem readNodes_wellFormed (each : ∀ raw path x, read raw path = .ok x → x.WellFormed) {i : Nat}
    {items : List Json} {nodes : List RankNode} (made : readNodes read path i items = .ok nodes) :
    ∀ x ∈ nodes, x.WellFormed := by
  induction items generalizing i nodes with
  | nil =>
    cases made
    simp
  | cons raw rest ih =>
    unfold readNodes at made
    split at made
    · cases made
    · rename_i node first
      obtain ⟨tail, others, rfl⟩ := of_map_ok made
      intro x mem
      rcases List.mem_cons.mp mem with rfl | mem
      · exact each _ _ _ first
      · exact ih others x mem

theorem levelOf_wellFormed (each : ∀ raw path x, read raw path = .ok x → x.WellFormed)
    {nodes : List RankNode} (made : levelOf read raw path = .ok nodes) : LevelWellFormed nodes := by
  unfold levelOf at made
  split at made
  · cases made
  · split at made
    · cases made
    · rename_i all
      unfold checkLevel at made
      simp only at made
      split at made
      · cases made
      · split at made
        · cases made
        · rename_i distinct
          cases made
          exact ⟨not_not.mp distinct, readNodes_wellFormed each all⟩
  · cases made

/-- `_level` accepts well-formed levels only, however deep they may go. -/
theorem readLevel_wellFormed {more : Nat} {nodes : List RankNode}
    (made : readLevel conversions more raw path = .ok nodes) : LevelWellFormed nodes := by
  induction more generalizing raw path nodes with
  | zero => exact levelOf_wellFormed (fun _ _ _ read => readNode_wellFormed (by simp) read) made
  | succ more ih =>
    refine levelOf_wellFormed (fun _ _ _ read => readNode_wellFormed ?_ read) made
    intro deep isDeep raw path nodes read
    cases isDeep
    exact ih read

theorem parse_wellFormed {problem : Text → Option Text} {description : Text} {tree : Json}
    {system : System} (accepted : parse conversions problem name tree description = .ok system) :
    LevelWellFormed system.nodes := by
  unfold parse at accepted
  simp only at accepted
  split at accepted
  · cases accepted
  · split at accepted
    · split at accepted
      · cases accepted
      · rename_i nodes made
        split at accepted
        · cases accepted
        · split at accepted
          · cases accepted
          · cases accepted
            exact readLevel_wellFormed made
    · cases accepted

end Reading

end AdvanceTrading.Screener.Ranking

/-!
# A ranking keeps the order of its factors

What `score` (`app/screener/ranking.py:248-280`) makes of two cross-sections
that differ in one leaf. The leaf with a path is one leaf, as names have no '/';
a symbol raised there is raised at every level above it.
-/

namespace AdvanceTrading.Screener.Ranking

/-! ## Paths -/

variable {nodes : List RankNode} {path : Text} {x : RankNode} {e : Text × Factor}

section Paths

/-- A name is read off a path up to the next '/'. -/
theorem takeWhile_name {name rest : Text} (plain : '/' ∉ name) (after : rest = [] ∨ ∃ more, rest = '/' :: more) :
    (name ++ rest).takeWhile (· ≠ '/') = name := by
  have all : ∀ c ∈ name, (decide (c ≠ '/')) = true := by
    intro c mem
    refine decide_eq_true fun slash => plain (slash ▸ mem)
  rw [List.takeWhile_append_of_pos all]
  rcases after with rfl | ⟨more, rfl⟩ <;> simp

/-- The paths of a node's leaves begin with its own. -/
theorem nodeLeaves_path (wf : x.WellFormed) (mem : e ∈ nodeLeaves x path) :
    ∃ rest, e.1 = path ++ rest ∧ (rest = [] ∨ ∃ more, rest = '/' :: more) := by
  induction wf generalizing path with
  | leaf =>
    rw [nodeLeaves, List.mem_singleton] at mem
    subst mem
    exact ⟨[], by simp, .inl rfl⟩
  | @group name weight children plain positive distinct each ih =>
    rw [nodeLeaves] at mem
    clear distinct
    induction children with
    | nil => cases mem
    | cons x rest ihRest =>
      rw [levelLeaves, List.mem_append] at mem
      rcases mem with mem | mem
      · obtain ⟨more, same, _⟩ := ih x List.mem_cons_self mem
        exact ⟨'/' :: (x.name ++ more), by simp [same], .inr ⟨_, rfl⟩⟩
      · exact ihRest (fun y listed => each y (List.mem_cons_of_mem _ listed))
          (fun y listed => ih y (List.mem_cons_of_mem _ listed)) mem

/-- Leaves of a level are leaves of one of its nodes. -/
theorem mem_levelLeaves :
    e ∈ levelLeaves nodes path ↔ ∃ x ∈ nodes, e ∈ nodeLeaves x (path ++ '/' :: x.name) := by
  induction nodes with
  | nil => simp [levelLeaves]
  | cons x rest ih => simp [levelLeaves, ih]

/-- Two leaves of a level under one path are under one node. -/
theorem node_of_path (wf : LevelWellFormed nodes) {y : RankNode} (memX : x ∈ nodes)
    (memY : y ∈ nodes) {d : Text × Factor} (own : d ∈ nodeLeaves x (path ++ '/' :: x.name))
    (other : e ∈ nodeLeaves y (path ++ '/' :: y.name)) (same : d.1 = e.1) : x = y := by
  obtain ⟨restX, atX, afterX⟩ := nodeLeaves_path (wf.each x memX) own
  obtain ⟨restY, atY, afterY⟩ := nodeLeaves_path (wf.each y memY) other
  have joined : x.name ++ restX = y.name ++ restY := by
    rw [atX, atY] at same
    simpa using same
  have named : x.name = y.name := by
    rw [← takeWhile_name (wf.each x memX).name_plain afterX, joined, takeWhile_name (wf.each y memY).name_plain afterY]
  exact List.inj_on_of_nodup_map wf.distinct memX memY named

/-- A path names one leaf of a node. -/
theorem nodeLeaves_unique (wf : x.WellFormed) {d : Text × Factor} (own : d ∈ nodeLeaves x path)
    (other : e ∈ nodeLeaves x path) (same : d.1 = e.1) : d = e := by
  induction wf generalizing path with
  | leaf =>
    rw [nodeLeaves, List.mem_singleton] at own other
    rw [own, other]
  | group plain positive distinct each ih =>
    rw [nodeLeaves] at own other
    obtain ⟨x, memX, own⟩ := mem_levelLeaves.mp own
    obtain ⟨y, memY, other⟩ := mem_levelLeaves.mp other
    obtain rfl := node_of_path ⟨distinct, each⟩ memX memY own other same
    exact ih x memX own other

/-- A path names one leaf of an accepted tree. -/
theorem levelLeaves_unique (wf : LevelWellFormed nodes) {d : Text × Factor}
    (own : d ∈ levelLeaves nodes path) (other : e ∈ levelLeaves nodes path) (same : d.1 = e.1) :
    d = e := by
  obtain ⟨x, memX, own⟩ := mem_levelLeaves.mp own
  obtain ⟨y, memY, other⟩ := mem_levelLeaves.mp other
  obtain rfl := node_of_path wf memX memY own other same
  exact nodeLeaves_unique (wf.each x memX) own other same

end Paths

/-! ## Editing one leaf -/

variable {change : String → Option ℚ → Option ℚ} {i : String} {q : Text}

section Editing

variable {values : Values} {sectors : Option (Dict String (Option String))} {path : Text}

/-- The values with those of the leaf at `path` changed, symbol by symbol. -/
def edit (values : Values) (path : Text) (change : String → Option ℚ → Option ℚ) : Values :=
  values.map fun e => (e.1, if e.1 = path then e.2.map fun p => (p.1, change p.1 p.2) else e.2)

/-- No symbol comes or goes. -/
theorem symbols_edit (values : Values) (path : Text) (change : String → Option ℚ → Option ℚ) :
    symbols (edit values path change) = symbols values := by
  have same : ((edit values path change).flatMap fun e => Dict.keys e.2) = values.flatMap fun e => Dict.keys e.2 := by
    unfold edit
    rw [List.flatMap_map]
    apply List.flatMap_congr
    intro e _
    simp only
    split
    · simp [Dict.keys]
    · rfl
  unfold symbols
  rw [same]

theorem get_edit (q : Text) : Dict.get q (edit values path change) =
    (Dict.get q values).map fun series =>
      if q = path then series.map fun p => (p.1, change p.1 p.2) else series := by
  induction values with
  | nil => rfl
  | cons e values ih =>
    obtain ⟨key, series⟩ := e
    have step : edit ((key, series) :: values) path change = (key, if key = path then
        series.map fun p => (p.1, change p.1 p.2) else series) :: edit values path change := rfl
    rw [step]
    unfold Dict.get
    by_cases here : key = q
    · subst here
      simp
    · simp [here, ih]

theorem get_changed (series : Dict String (Option ℚ)) (i : String) :
    Dict.get i (series.map fun p => (p.1, change p.1 p.2)) = (Dict.get i series).map (change i) := by
  induction series with
  | nil => rfl
  | cons p series ih =>
    obtain ⟨key, value⟩ := p
    rw [List.map_cons]
    unfold Dict.get
    by_cases here : key = i
    · subst here
      simp
    · simp [here, ih]

@[simp] theorem reading_edit_of_ne (ne : q ≠ path) :
    reading (edit values path change) q = reading values q := by
  funext i
  unfold reading
  simp only [get_edit, if_neg ne, Option.map_id_fun', id_eq]

/-- A change that leaves a symbol without a value without one acts on the readings. -/
theorem reading_edit_self (missing : reading values path i = none → change i none = none) :
    reading (edit values path change) path i = change i (reading values path i) := by
  unfold reading at *
  simp only [get_edit, if_pos]
  cases series : Dict.get path values with
  | none =>
    rw [series] at missing
    exact (missing rfl).symm
  | some series_ =>
    rw [series] at missing
    simp only [Option.map_some, Option.bind_some] at missing ⊢
    rw [get_changed]
    cases found : Dict.get i series_ with
    | none =>
      rw [found] at missing
      exact (missing rfl).symm
    | some value => rfl

end Editing

/-! ## Scores -/

section Scoring

variable {values after : Values} {sectors : Option (Dict String (Option String))}

theorem childScores_eq (values : Values) (sectors : Option (Dict String (Option String)))
    (nodes : List RankNode) (path : Text) (i : String) :
    childScores values sectors nodes path i
      = nodes.map fun x => (x.weight, nodeScore values sectors x (path ++ '/' :: x.name) i) := by
  induction nodes with
  | nil => rw [childScores, List.map_nil]
  | cons x rest ih => rw [childScores, ih, List.map_cons]

/-- A mean of raised scores is raised. -/
theorem raised_mean {f g : RankNode → Scores}
    (each : ∀ x ∈ nodes, 0 < x.weight ∧ Raised i (f x) (g x)) :
    Raised i (fun j => weightedMean (nodes.map fun x => (x.weight, f x j)))
      fun j => weightedMean (nodes.map fun x => (x.weight, g x j)) where
  own := by
    apply weightedMean_rel
    rw [PartsLe, List.forall₂_map_left_iff, List.forall₂_map_right_iff, List.forall₂_same]
    intro x mem
    exact ⟨rfl, (each x mem).1, (each x mem).2.own⟩
  others j ne := by
    apply weightedMean_rel
    rw [PartsLe, List.forall₂_map_left_iff, List.forall₂_map_right_iff, List.forall₂_same]
    intro x mem
    exact ⟨rfl, (each x mem).1, (each x mem).2.others j ne⟩

/-- The percentiles of one changed value: raised when it is, and with the order turned round when it is lowered. -/
theorem raised_percentile {index : List String} {groups : Option (String → String)} {better : Bool}
    {x y : Scores} {v w : ℚ} (before : x i = some v) (later : y i = some w)
    (others : ∀ j, j ≠ i → y j = x j) (improved : if better then v ≤ w else w ≤ v) :
    Raised i (percentile index x groups better) (percentile index y groups better) := by
  unfold percentile
  cases better with
  | true =>
    have own : Option.Rel (· ≤ ·) (x i) (y i) := by
      rw [before, later]
      exact .some (by simpa using improved)
    cases groups with
    | none => exact raised_percentRank own others fun _ => index
    | some key => exact raised_percentRank own others fun i => index.filter fun j => key j = key i
  | false =>
    have own : Option.Rel (· ≤ ·) ((x i).map fun v => -v) ((y i).map fun v => -v) := by
      rw [before, later]
      exact .some (neg_le_neg (by simpa using improved))
    have others : ∀ j, j ≠ i → ((y j).map fun v => -v) = (x j).map fun v => -v := fun j ne => by rw [others j ne]
    cases groups with
    | none => exact raised_percentRank own others fun _ => index
    | some key => exact raised_percentRank own others fun i => index.filter fun j => key j = key i

/-- A strictly increasing change of a leaf's values leaves its percentiles alone, whichever way it is read. -/
theorem percentile_map {f : ℚ → ℚ} (increasing : StrictMono f) (index : List String) (x : Scores)
    (groups : Option (String → String)) (better : Bool) :
    percentile index (fun i => (x i).map f) groups better = percentile index x groups better := by
  have same : ∀ ids i, percentRank ids
      (if better then fun i => (x i).map f else fun i => ((x i).map f).map fun v => -v) i
      = percentRank ids (if better then x else fun i => (x i).map fun v => -v) i := by
    intro ids i
    cases better with
    | true => exact percentRank_map increasing ids x i
    | false =>
      have turned : StrictMono fun v : ℚ => -f (-v) := fun v w lt => neg_lt_neg (increasing (neg_lt_neg lt))
      have flip : (fun i => ((x i).map f).map fun v => -v) = fun i => ((x i).map fun v => -v).map fun v => -f (-v) := by
        funext i
        cases x i <;> simp
      simp only [Bool.false_eq_true, if_false]
      rw [flip]
      exact percentRank_map turned ids (fun i => (x i).map fun v => -v) i
  unfold percentile
  cases groups with
  | none => exact funext fun i => same index i
  | some key => exact funext fun i => same _ i

/-- Improving one symbol's value at one leaf raises the symbol in the score of every node. -/
theorem raised_nodeScore {leaf : Factor} {v w : ℚ} (before : reading values path i = some v)
    (own : ∀ x, change i x = some w) (others : ∀ j x, j ≠ i → change j x = x)
    (improved : if leaf.higherIsBetter then v ≤ w else w ≤ v) (wf : x.WellFormed)
    (only : ∀ e ∈ nodeLeaves x q, e.1 = path → e.2 = leaf) :
    Raised i (nodeScore values sectors x q) (nodeScore (edit values path change) sectors x q) := by
  induction wf generalizing q with
  | @leaf name weight factor higherIsBetter sectorNeutral =>
    rw [nodeScore, nodeScore]
    unfold leafScore
    rw [symbols_edit]
    by_cases here : q = path
    · subst here
      have isLeaf := only (q, ⟨factor, higherIsBetter, sectorNeutral⟩) (by simp [nodeLeaves]) rfl
      have later : reading (edit values q change) q i = some w := by
        rw [reading_edit_self (by simp [before]), own]
      refine raised_percentile before later (fun j ne => ?_) ?_
      · rw [reading_edit_self fun _ => others j none ne, others j _ ne]
      · rw [← isLeaf] at improved
        exact improved
    · rw [reading_edit_of_ne here]
      exact Raised.refl _ _
  | group plain positive distinct each ih =>
    rw [nodeScore, nodeScore]
    simp only [childScores_eq]
    refine raised_mean fun y mem => ⟨(each y mem).weight_pos, ih y mem fun e listed => only e ?_⟩
    rw [nodeLeaves]
    exact mem_levelLeaves.mpr ⟨y, mem, listed⟩

/-- A strictly increasing change of one leaf's values changes no node's score. -/
theorem nodeScore_map {f : ℚ → ℚ} (increasing : StrictMono f) (wf : x.WellFormed) (q : Text) :
    nodeScore (edit values path fun _ v => v.map f) sectors x q = nodeScore values sectors x q := by
  induction wf generalizing q with
  | @leaf name weight factor higherIsBetter sectorNeutral =>
    rw [nodeScore, nodeScore]
    unfold leafScore
    rw [symbols_edit]
    by_cases here : q = path
    · subst here
      have mapped : reading (edit values q fun _ v => v.map f) q = fun i => (reading values q i).map f :=
        funext fun i => reading_edit_self fun _ => rfl
      rw [mapped, percentile_map increasing]
    · rw [reading_edit_of_ne here]
  | @group name weight children plain positive distinct each ih =>
    rw [nodeScore, nodeScore]
    funext i
    rw [childScores_eq, childScores_eq]
    congr 1
    apply List.map_congr_left
    intro y mem
    rw [ih y mem]

theorem mem_symbols_of_reading {v : ℚ} (present : reading values path i = some v) :
    i ∈ symbols values := by
  unfold reading at present
  have found := Option.join_eq_some_iff.mp present
  obtain ⟨series, known, listed⟩ := Option.bind_eq_some_iff.mp found
  unfold symbols
  rw [mem_sortBy, List.mem_dedup, List.mem_flatMap]
  exact ⟨(path, series), Dict.mem_of_get known, Dict.mem_keys_of_get listed⟩

/-- What every score keeps: it is that of a symbol of the cross-section, above 0 and at most 100. -/
def Bounded (values : Values) (scores : Scores) : Prop :=
  ∀ i r, scores i = some r → i ∈ symbols values ∧ 0 < r ∧ r ≤ 100

theorem bounded_percentile {x : Scores} (groups : Option (String → String)) (better : Bool)
    (known : ∀ i v, x i = some v → i ∈ symbols values) :
    Bounded values (percentile (symbols values) x groups better) := by
  have ranked : ∀ ids i r, (i ∈ symbols values → i ∈ ids) →
      percentRank ids (if better then x else fun i => (x i).map fun v => -v) i = some r →
        i ∈ symbols values ∧ 0 < r ∧ r ≤ 100 := by
    intro ids i r listed ranked
    have present : (x i).isSome := by
      have some_ := isSome_percentRank ids (if better then x else fun i => (x i).map fun v => -v) i
      rw [ranked] at some_
      cases better <;> simpa using some_.symm
    obtain ⟨v, has⟩ := Option.isSome_iff_exists.mp present
    exact ⟨known i v has, percentRank_bounds (listed (known i v has)) ranked⟩
  unfold percentile
  intro i r
  cases groups with
  | none => exact ranked _ i r id
  | some key => exact ranked _ i r fun mem => List.mem_filter.mpr ⟨mem, decide_eq_true rfl⟩

theorem bounded_mean {f : RankNode → Scores}
    (each : ∀ x ∈ nodes, 0 < x.weight ∧ Bounded values (f x)) :
    Bounded values fun i => weightedMean (nodes.map fun x => (x.weight, f x i)) := by
  intro i r mean
  constructor
  · obtain ⟨p, mem, present⟩ := exists_of_weightedMean mean
    obtain ⟨x, listed, rfl⟩ := List.mem_map.mp mem
    obtain ⟨s, has⟩ := Option.isSome_iff_exists.mp present
    exact ((each x listed).2 i s has).1
  · refine weightedMean_bounds (fun p mem => ?_) mean
    obtain ⟨x, listed, rfl⟩ := List.mem_map.mp mem
    exact ⟨(each x listed).1, fun s has => ((each x listed).2 i s has).2⟩

theorem bounded_nodeScore (wf : x.WellFormed) (path : Text) :
    Bounded values (nodeScore values sectors x path) := by
  induction wf generalizing path with
  | leaf =>
    rw [nodeScore]
    exact bounded_percentile _ _ fun i v present => mem_symbols_of_reading present
  | group plain positive distinct each ih =>
    rw [nodeScore]
    simp only [childScores_eq]
    exact bounded_mean fun y mem => ⟨(each y mem).weight_pos, ih y mem _⟩

theorem mem_levelParts {e : Text × Scores} :
    e ∈ levelParts values sectors nodes path ↔ ∃ x ∈ nodes, e ∈ nodeParts values sectors x (path ++ '/' :: x.name) := by
  induction nodes with
  | nil => simp [levelParts]
  | cons x rest ih => simp [levelParts, ih]

theorem bounded_nodeParts (wf : x.WellFormed) (path : Text) :
    ∀ e ∈ nodeParts values sectors x path, Bounded values e.2 := by
  induction wf generalizing path with
  | leaf plain positive =>
    intro e mem
    rw [nodeParts, List.mem_singleton] at mem
    subst mem
    exact bounded_nodeScore (.leaf plain positive) path
  | group plain positive distinct each ih =>
    intro e mem
    rw [nodeParts, List.mem_append, List.mem_singleton] at mem
    rcases mem with mem | rfl
    · obtain ⟨y, listed, mem⟩ := mem_levelParts.mp mem
      exact ih y listed _ e mem
    · exact bounded_nodeScore (.group plain positive distinct each) path

end Scoring

/-! ## Systems -/

section Systems

variable {system : System} {values : Values} {sectors : Option (Dict String (Option String))}

/-- The composite, as `score` hands it out with the parts. -/
def compositeOf (scored : Scores × Dict Text Scores) : Scores := (Dict.get compositeKey scored.2).getD fun _ => none

theorem compositeOf_score (system : System) (values : Values) (sectors : Option (Dict String (Option String))) :
    compositeOf (score system values sectors) = levelScore values sectors system.nodes [] := by
  unfold compositeOf score
  simp only
  rw [Dict.get_set_self, Option.getD_some]

theorem rank_score (system : System) (values : Values) (sectors : Option (Dict String (Option String))) :
    (score system values sectors).1 = percentRank (symbols values) (levelScore values sectors system.nodes []) := rfl

/-- What is found in `parts` was entered there. -/
theorem mem_of_get_entered {es : List (Text × Scores)} {key : Text} {scores : Scores} {parts : Dict Text Scores}
    (found : Dict.get key (es.foldl (fun parts e => Dict.set e.1 e.2 parts) parts) = some scores) :
    (key, scores) ∈ es ∨ Dict.get key parts = some scores := by
  induction es generalizing parts with
  | nil => exact .inr found
  | cons e es ih =>
    rcases ih found with mem | earlier
    · exact .inl (List.mem_cons_of_mem _ mem)
    · by_cases same : key = e.1
      · subst same
        rw [Dict.get_set_self] at earlier
        cases earlier
        exact .inl List.mem_cons_self
      · rw [Dict.get_set_of_ne _ _ same] at earlier
        exact .inr earlier

/-- A symbol whose value at one leaf gets better, with all else unchanged, keeps or betters its composite and its
rank, and betters no other composite. -/
def KeepsOrder (system : System) (values : Values) (sectors : Option (Dict String (Option String))) : Prop :=
  ∀ path leaf i v w, (path, leaf) ∈ system.leafPaths → reading values path i = some v →
    (if leaf.higherIsBetter then v ≤ w else w ≤ v) →
      let before := score system values sectors
      let later := score system (edit values path fun j x => if j = i then some w else x) sectors
      Raised i (compositeOf before) (compositeOf later) ∧ Option.Rel (· ≤ ·) (before.1 i) (later.1 i)

/-- Every score and every rank is above 0 and at most 100. -/
def WithinHundred (scored : Scores × Dict Text Scores) : Prop :=
  (∀ i r, scored.1 i = some r → 0 < r ∧ r ≤ 100) ∧
    ∀ path scores, Dict.get path scored.2 = some scores → ∀ i r, scores i = some r → 0 < r ∧ r ≤ 100

/-- The values of one leaf count by their order alone. -/
def OrdersOnly (system : System) (values : Values) (sectors : Option (Dict String (Option String))) : Prop :=
  ∀ path f, StrictMono f →
    (score system (edit values path fun _ v => v.map f) sectors).1 = (score system values sectors).1

section

variable (wf : LevelWellFormed system.nodes)
include wf

theorem keepsOrder : KeepsOrder system values sectors := by
  intro path leaf i v w mem present improved before later
  have raised : Raised i (compositeOf before) (compositeOf later) := by
    rw [compositeOf_score, compositeOf_score]
    unfold levelScore
    simp only [childScores_eq]
    refine raised_mean fun x listed => ⟨(wf.each x listed).weight_pos, ?_⟩
    refine raised_nodeScore present (fun _ => if_pos rfl) (fun j _ ne => if_neg ne) improved (wf.each x listed) ?_
    intro e own same
    have one := levelLeaves_unique wf (mem_levelLeaves.mpr ⟨x, listed, own⟩) mem same
    rw [one]
  refine ⟨raised, ?_⟩
  rw [compositeOf_score, compositeOf_score] at raised
  rw [rank_score, rank_score, symbols_edit]
  exact raised.percentRank_own _

theorem withinHundred : WithinHundred (score system values sectors) := by
  have composite : Bounded values (levelScore values sectors system.nodes []) := by
    unfold levelScore
    simp only [childScores_eq]
    exact bounded_mean fun x mem => ⟨(wf.each x mem).weight_pos, bounded_nodeScore (wf.each x mem) _⟩
  constructor
  · intro i r ranked
    exact (bounded_percentile none true (fun i v has => (composite i v has).1) i r ranked).2
  · intro path scores found i r has
    unfold score at found
    simp only at found
    by_cases isComposite : path = compositeKey
    · subst isComposite
      rw [Dict.get_set_self] at found
      cases found
      exact (composite i r has).2
    · rw [Dict.get_set_of_ne _ _ isComposite] at found
      rcases mem_of_get_entered found with mem | none_
      · obtain ⟨x, listed, mem⟩ := mem_levelParts.mp mem
        exact (bounded_nodeParts (wf.each x listed) _ _ mem i r has).2
      · cases none_

theorem ordersOnly : OrdersOnly system values sectors := by
  intro path f increasing
  have same : levelScore (edit values path fun _ v => v.map f) sectors system.nodes []
      = levelScore values sectors system.nodes [] := by
    funext i
    unfold levelScore
    rw [childScores_eq, childScores_eq]
    congr 1
    apply List.map_congr_left
    intro x mem
    rw [nodeScore_map increasing (wf.each x mem)]
  rw [rank_score, rank_score, same, symbols_edit]

end

/-- For every tree that `parse` accepts and every cross-section: bettering one value of a symbol costs the symbol no
score and no rank and wins no other symbol a score, scores and ranks lie above 0 and are at most 100, and ranks
see the values of a leaf only by their order. -/
theorem ranking_monotone {conversions : Conversions} {problem : Text → Option Text}
    {name description : Text} {tree : Json}
    (accepted : parse conversions problem name tree description = .ok system) (values : Values)
    (sectors : Option (Dict String (Option String))) :
    KeepsOrder system values sectors ∧ WithinHundred (score system values sectors) ∧
      OrdersOnly system values sectors := by
  have wf := parse_wellFormed accepted
  exact ⟨keepsOrder wf, withinHundred wf, ordersOnly wf⟩

end Systems

/-- Two factors of momentum, one of them within the sector, against one that is better when it is lower. -/
def momentumAndCalm : Json :=
  .dict [(Key.nodes, .list
    [.dict [(Screener.Key.name, .str ['M']), (Key.weight, .int 60), (Key.children, .list
      [.dict [(Screener.Key.name, .str ['R']), (Key.factor, .str ['r']), (Key.weight, .int 50)],
        .dict [(Screener.Key.name, .str ['N']), (Key.factor, .str ['n']), (Key.weight, .int 50),
          (Key.neutral, .str sectorText)]])],
      .dict [(Screener.Key.name, .str ['C']), (Key.factor, .str ['c']), (Key.weight, .int 40),
        (Key.higherIsBetter, .bool false)]])]

/-- The system of that tree. -/
def momentumSystem : System :=
  { name := ['m']
    nodes :=
      [.group ['M'] 60 [.leaf ['R'] 50 ['r'] true false, .leaf ['N'] 50 ['n'] true true],
        .leaf ['C'] 40 ['c'] false false]
    description := [] }

/-- Three symbols of two sectors; one has no value for the sector factor. -/
def threeSymbols : Values :=
  [(['/', 'M', '/', 'R'], [("A", some 1), ("B", some 2), ("C", some 2)]),
    (['/', 'M', '/', 'N'], [("A", some 5), ("B", none), ("C", some 4)]),
    (['/', 'C'], [("A", some 3), ("B", some 1), ("C", some 2)])]

/-- The tree is accepted, and its ranking keeps the order of its factors. -/
theorem ranking_monotone_momentum :
    KeepsOrder momentumSystem threeSymbols (some [("A", some "IT"), ("B", some "BANK"), ("C", some "IT")]) ∧
    WithinHundred (score momentumSystem threeSymbols (some [("A", some "IT"), ("B", some "BANK"), ("C", some "IT")])) ∧
    OrdersOnly momentumSystem threeSymbols (some [("A", some "IT"), ("B", some "BANK"), ("C", some "IT")]) :=
  @ranking_monotone momentumSystem ⟨fun _ => [], fun _ => .error .conversion⟩ (fun _ => none) ['m'] [] momentumAndCalm
    (by with_unfolding_all rfl) threeSymbols _

end AdvanceTrading.Screener.Ranking
