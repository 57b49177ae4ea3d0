import AdvanceTrading.Misc.PyText
import Mathlib.Algebra.GroupWithZero.Nat
import Mathlib.Data.List.Infix
import Mathlib.Tactic.Cases

/-!
# Order tags

Model of `app/execution/tagging.py:69-74`: a tag carries a client order id,
whole or shortened. The id itself is a digest of the order row; nothing here
depends on which text it is.
-/

namespace AdvanceTrading.Execution

/-- `CLIENT_ID_MIN_LENGTH`. -/
def clientIdMinLength : Nat := 4

/-- `client_id[:size].upper() in tag.upper()`. -/
def carriesShortened (tag clientId : String) (size : Nat) : Bool :=
  decide ((clientId.toList.take size).map Char.toUpper <:+: tag.toList.map Char.toUpper)

/-- `has_client_id` (`tagging.py:69-74`): the sizes from the whole id down to the shortest. -/
def hasClientId (tag : Option String) (clientId : String) : Bool :=
  match tag with
  | none => false
  | some tag =>
      tag != "" && clientId != "" &&
        (List.range' clientIdMinLength (clientId.length + 1 - clientIdMinLength)).any
          (carriesShortened tag clientId)

end AdvanceTrading.Execution

/-!
# What an order tag keeps

Model of `build_order_tag` (`app/execution/tagging.py:77-129`): an algo id, a
strategy, a client id and a leg share a bounded tag. What the rule-set says of a
broker's tag (`tag_format`) is a parameter. Cleaned parts are lists of ASCII
characters.
-/

namespace AdvanceTrading.Execution

/-- `CHARSETS`. -/
inductive Charset where
  | alnum
  | alnumDash
  deriving DecidableEq, Repr

/-- The characters a charset keeps. -/
def Charset.keeps (charset : Charset) (c : Char) : Bool :=
  c.isAlphanum || charset = .alnumDash && (c = '_' || c = '-')

/-- What `tag_format` returns for a broker. -/
structure TagFormat where
  maxLength : Option Nat := none
  charset : Charset := .alnumDash
  deriving DecidableEq, Repr

/-- `LEG_ENTRY`. -/
def legEntry : List Char := ['E', 'N', 'T']

/-- `sanitize_tag_part`. -/
def sanitizeTagPart (value : List Char) : List Char := value.filter Charset.alnumDash.keeps

/-- The tag length that applies: the adapter's, or the broker's where it is stricter. -/
def TagFormat.effectiveMax (format : TagFormat) (maxLength : Nat) : Nat :=
  match format.maxLength with
  | some limit => if limit = 0 then maxLength else min maxLength limit
  | none => maxLength

namespace TagFormat

variable (format : TagFormat)

/-- `strip.sub("", ...)`. -/
def strip (part : List Char) : List Char := part.filter format.charset.keeps

/-- `algo`, before it is cut. -/
def cleanAlgo (algoId : Option String) : List Char := format.strip (sanitizeTagPart ((algoId.getD "").toList))

/-- `leg_part`, before it is cut. -/
def cleanLeg (leg : String) : List Char :=
  match format.strip ((sanitizeTagPart leg.toList).map Char.toUpper) with
  | [] => legEntry
  | part => part

/-- `cid`, before it is cut. -/
def cleanClient (clientId : Option String) : List Char :=
  (format.strip (sanitizeTagPart ((clientId.getD "").toList))).map Char.toUpper

/-- `sep`. -/
def separator : List Char := format.strip ['-']

end TagFormat

/-- The algo id beside a leg: cut where they do not fit together. -/
def fitAlgo (limit : Nat) (sep algo leg : List Char) : List Char :=
  if algo ≠ [] ∧ limit < algo.length + sep.length + leg.length then
    algo.take (limit - sep.length - leg.length)
  else algo

/-- The characters a fixed part takes, with one separator to the client id. -/
def usedBy (sep part : List Char) : Nat := if part = [] then 0 else part.length + sep.length

/-- The client id beside the algo id and the leg: shortened to fit, left out when that leaves too little. -/
def fitClient (limit : Nat) (sep algo leg client : List Char) : List Char :=
  let fitted := client.take (limit - (usedBy sep algo + usedBy sep leg))
  if fitted.length < clientIdMinLength then [] else fitted

/-- `<client id>-<leg>`. -/
def legBlock (sep client leg : List Char) : List Char := if client = [] then leg else client ++ sep ++ leg

/-- The parts of the tag: the strategy gets what the fixed parts leave. -/
def tagParts (limit : Nat) (sep algo strategy block : List Char) : List (List Char) :=
  let fixed := [algo, block].filter (· ≠ [])
  let fixedLength := (fixed.map List.length).sum + sep.length * (fixed.length - 1)
  let room := limit - fixedLength - sep.length
  if 1 ≤ room ∧ strategy ≠ [] then
    if algo ≠ [] then [algo, strategy.take room, block] else [strategy.take room, block]
  else fixed

/-- `build_order_tag`. -/
def buildOrderTag (format : TagFormat) (strategyId leg : String) (algoId : Option String) (maxLength : Nat)
    (clientId : Option String) : String :=
  let limit := format.effectiveMax maxLength
  let sep := format.separator
  let legPart := (format.cleanLeg leg).take limit
  let algo := fitAlgo limit sep (format.cleanAlgo algoId) legPart
  let client := fitClient limit sep algo legPart (format.cleanClient clientId)
  let strategy := format.strip (sanitizeTagPart strategyId.toList)
  let parts := tagParts limit sep algo strategy (legBlock sep client legPart)
  String.ofList ((sep.intercalate (parts.filter (· ≠ []))).take limit)

/-! ## The parts fit -/

section Parts

variable {limit : Nat} {sep algo strategy leg client block : List Char}

/-- What the fixed parts take: the algo id with a separator, and the block of the leg. -/
theorem fitAlgo_fits (limit : Nat) (sep algo leg : List Char) :
    fitAlgo limit sep algo leg = [] ∨ (fitAlgo limit sep algo leg).length + sep.length + leg.length ≤ limit := by
  unfold fitAlgo
  split
  · next cut =>
    rcases Nat.lt_or_ge (sep.length + leg.length) limit with room | full
    · right
      rw [List.length_take]
      omega
    · left
      rw [show limit - sep.length - leg.length = 0 by omega, List.take_zero]
  · next whole =>
    by_cases empty : algo = []
    · exact .inl empty
    · exact .inr (by simpa [empty] using whole)

theorem fitAlgo_whole (fits : algo.length + sep.length + leg.length ≤ limit) : fitAlgo limit sep algo leg = algo := by
  unfold fitAlgo
  rw [if_neg (by omega)]

/-- A client id that is kept fits beside the algo id and the leg. -/
theorem fitClient_fits (limit : Nat) (sep algo leg client : List Char) :
    fitClient limit sep algo leg client = [] ∨
      (fitClient limit sep algo leg client).length + usedBy sep algo + usedBy sep leg ≤ limit := by
  unfold fitClient
  dsimp only
  split
  · exact .inl rfl
  · next kept =>
    rw [List.length_take, clientIdMinLength] at kept
    rw [List.length_take]
    omega

/-- The fixed parts together fit. -/
theorem fixed_fits (hasLeg : leg ≠ []) (legFits : leg.length ≤ limit) (client' : List Char) :
    let algo := fitAlgo limit sep algo leg
    usedBy sep algo + (legBlock sep (fitClient limit sep algo leg client') leg).length ≤ limit := by
  intro algo'
  have algoFits := fitAlgo_fits limit sep algo leg
  have clientFits := fitClient_fits limit sep algo' leg client'
  unfold legBlock
  split
  · unfold usedBy
    split
    · simpa using legFits
    · next kept =>
      rcases algoFits with none_ | fits
      · exact absurd none_ kept
      · exact fits
  · next kept =>
    rcases clientFits with none_ | fits
    · exact absurd none_ kept
    · rw [usedBy, usedBy, if_neg hasLeg] at fits
      rw [usedBy, List.length_append, List.length_append]
      omega

/-- The joined parts: the algo id first, the block last, within the limit. -/
theorem joined_parts (hasBlock : block ≠ []) (fits : usedBy sep algo + block.length ≤ limit) :
    ∃ middle, sep.intercalate ((tagParts limit sep algo strategy block).filter (· ≠ [])) = algo ++ middle ++ block ∧
      (algo ++ middle ++ block).length ≤ limit := by
  unfold tagParts
  by_cases noAlgo : algo = []
  · subst noAlgo
    have bound : block.length ≤ limit := by simpa [usedBy] using fits
    simp only [List.filter_cons, List.filter_nil, hasBlock, ne_eq, not_true_eq_false, decide_false, not_false_eq_true,
      decide_true, Bool.false_eq_true, if_false, if_true, List.map_cons, List.map_nil, List.sum_cons, List.sum_nil,
      List.length_cons, List.length_nil, Nat.add_zero, Nat.zero_add, Nat.sub_self, Nat.mul_zero]
    split
    · next room =>
      have some_ : strategy.take (limit - block.length - sep.length) ≠ [] := by
        simp only [ne_eq, List.take_eq_nil_iff, room.2, or_false]
        omega
      refine ⟨strategy.take (limit - block.length - sep.length) ++ sep, ?_, ?_⟩
      · simp [some_, hasBlock, List.intercalate_cons_cons]
      · simp only [List.nil_append, List.length_append, List.length_take]
        omega
    · refine ⟨[], ?_, ?_⟩
      · simp [hasBlock]
      · simpa using bound
  · have bound : algo.length + sep.length + block.length ≤ limit := by simpa [usedBy, noAlgo] using fits
    simp only [List.filter_cons, List.filter_nil, hasBlock, noAlgo, ne_eq, not_false_eq_true,
      decide_true, if_true, List.map_cons, List.map_nil, List.sum_cons, List.sum_nil,
      List.length_cons, List.length_nil, Nat.add_zero, Nat.zero_add, Nat.add_sub_cancel, Nat.mul_one]
    split
    · next room =>
      have some_ : strategy.take (limit - (algo.length + block.length + sep.length) - sep.length) ≠ [] := by
        simp only [ne_eq, List.take_eq_nil_iff, room.2, or_false]
        omega
      refine ⟨sep ++ strategy.take (limit - (algo.length + block.length + sep.length) - sep.length) ++ sep, ?_, ?_⟩
      · simp [noAlgo, some_, hasBlock, List.intercalate_cons_cons]
      · simp only [List.length_append, List.length_take]
        omega
    · refine ⟨sep, ?_, ?_⟩
      · simp [noAlgo, hasBlock, List.intercalate_cons_cons]
      · simp only [List.length_append]
        omega

end Parts

/-! ## What a tag keeps -/

/-- An upper case letter stays what it is. -/
theorem toUpper_toUpper (c : Char) : c.toUpper.toUpper = c.toUpper := by
  by_cases lower : 'a'.val ≤ c.val ∧ c.val ≤ 'z'.val
  · have upper : ¬ 'a'.val ≤ c.toUpper.val := by
      have shifted : c.toUpper.val = c.val + ('A'.val - 'a'.val) := by
        delta Char.toUpper
        rw [dif_pos lower]
      have first := UInt32.le_iff_toNat_le.mp lower.1
      have last := UInt32.le_iff_toNat_le.mp lower.2
      have distance : ('A'.val - 'a'.val).toNat = 4294967264 := by decide
      have a : 'a'.val.toNat = 97 := by decide
      have z : 'z'.val.toNat = 122 := by decide
      rw [shifted, UInt32.le_iff_toNat_le, UInt32.toNat_add]
      omega
    exact dif_neg fun both => upper both.1
  · have same : c.toUpper = c := dif_neg lower
    rw [same, same]

section Tag

variable (format : TagFormat) (strategyId leg : String) (algoId : Option String) (maxLength : Nat)
  (clientId : Option String)

theorem cleanLeg_ne_nil : format.cleanLeg leg ≠ [] := by
  unfold TagFormat.cleanLeg
  split
  · exact List.cons_ne_nil _ _
  · next part => exact part

/-- The leg as it stands in the tag. -/
def legPart : List Char := (format.cleanLeg leg).take (format.effectiveMax maxLength)

/-- The algo id as it stands in the tag. -/
def algoPart : List Char :=
  fitAlgo (format.effectiveMax maxLength) format.separator (format.cleanAlgo algoId) (legPart format leg maxLength)

/-- The client id as it stands in the tag. -/
def clientPart : List Char :=
  fitClient (format.effectiveMax maxLength) format.separator (algoPart format leg algoId maxLength)
    (legPart format leg maxLength) (format.cleanClient clientId)

variable {maxLength}

theorem effectiveMax_pos (positive : 1 ≤ maxLength) : 1 ≤ format.effectiveMax maxLength := by
  unfold TagFormat.effectiveMax
  split
  · split
    · exact positive
    · omega
  · exact positive

theorem legPart_ne_nil (positive : 1 ≤ maxLength) : legPart format leg maxLength ≠ [] := by
  unfold legPart
  rw [ne_eq, List.take_eq_nil_iff]
  have limit := effectiveMax_pos format positive
  have some_ := cleanLeg_ne_nil format leg
  simp only [some_, or_false]
  omega

/-- A tag is its algo id, something between, and the block of its client id and leg; it fits. -/
theorem buildOrderTag_eq (positive : 1 ≤ maxLength) :
    ∃ middle, (buildOrderTag format strategyId leg algoId maxLength clientId).toList
        = algoPart format leg algoId maxLength ++ middle ++
          legBlock format.separator (clientPart format leg algoId maxLength clientId) (legPart format leg maxLength) ∧
      (buildOrderTag format strategyId leg algoId maxLength clientId).toList.length ≤
        format.effectiveMax maxLength := by
  have hasLeg := legPart_ne_nil format leg positive
  have legFits : (legPart format leg maxLength).length ≤ format.effectiveMax maxLength := by
    rw [legPart, List.length_take]
    omega
  have fits := @fixed_fits _ format.separator (format.cleanAlgo algoId) _ hasLeg legFits
    (format.cleanClient clientId)
  have hasBlock : legBlock format.separator (clientPart format leg algoId maxLength clientId)
      (legPart format leg maxLength) ≠ [] := by
    unfold legBlock
    split
    · exact hasLeg
    · exact List.append_ne_nil_of_right_ne_nil _ hasLeg
  obtain ⟨middle, joined, bound⟩ :=
      @joined_parts _ _ _ (format.strip (sanitizeTagPart strategyId.toList)) _ hasBlock fits
  have whole : (buildOrderTag format strategyId leg algoId maxLength clientId).toList
      = algoPart format leg algoId maxLength ++ middle ++
        legBlock format.separator (clientPart format leg algoId maxLength clientId) (legPart format leg maxLength) := by
    unfold buildOrderTag
    rw [String.toList_ofList]
    exact (congrArg _ joined).trans (List.take_of_length_le bound)
  exact ⟨middle, whole, by rw [whole]; exact bound⟩

theorem suffix_legBlock (sep client leg : List Char) : leg <:+ legBlock sep client leg := by
  unfold legBlock
  split
  · exact List.suffix_rfl
  · exact List.suffix_append _ _

/-- A client id of the base 36 is cleaned by making it upper case. -/
theorem cleanClient_eq {id : String} (base36 : ∀ c ∈ id.toList, c.isAlphanum = true) :
    format.cleanClient (some id) = id.toList.map Char.toUpper := by
  have kept : ∀ charset : Charset, id.toList.filter charset.keeps = id.toList := by
    intro charset
    apply List.filter_eq_self.mpr
    intro c mem
    simp [Charset.keeps, base36 c mem]
  simp only [TagFormat.cleanClient, TagFormat.strip, sanitizeTagPart, Option.getD_some, kept]

/-- A shortened client id that stands in a tag is found there. -/
theorem hasClientId_of_infix {tag id : String} {size : Nat} (enough : clientIdMinLength ≤ size)
    (atMost : size ≤ id.length) (stands : (id.toList.map Char.toUpper).take size <:+: tag.toList) :
    hasClientId (some tag) id = true := by
  have upper : ((id.toList.take size).map Char.toUpper) <:+: tag.toList.map Char.toUpper := by
    have mapped := stands.map Char.toUpper
    rw [← List.map_take, List.map_map] at mapped
    have twice : Char.toUpper ∘ Char.toUpper = Char.toUpper := funext toUpper_toUpper
    rwa [twice] at mapped
  have someId : id ≠ "" := by
    rintro rfl
    have : size ≤ 0 := atMost
    rw [clientIdMinLength] at enough
    omega
  have someTag : tag ≠ "" := by
    rintro rfl
    have short := stands.length_le
    rw [List.length_take, List.length_map, String.length_toList] at short
    have : ("" : String).toList.length = 0 := rfl
    rw [clientIdMinLength] at enough
    omega
  unfold hasClientId
  simp only [Bool.and_eq_true, bne_iff_ne, List.any_eq_true, List.mem_range']
  exact ⟨⟨someTag, someId⟩, size, ⟨size - clientIdMinLength, by omega, by omega⟩, decide_eq_true upper⟩

/-- A tag fits its limit and keeps, in this order, the whole leg where it fits, the whole algo id where it fits
beside the leg, and a client id that can be found where enough is left beside both. -/
theorem orderTag_keeps (format : TagFormat) (strategyId leg : String) (algoId : Option String)
    (clientId : String) (maxLength : Nat) (positive : 1 ≤ maxLength) (sixLong : clientId.length = 6)
    (base36 : ∀ c ∈ clientId.toList, c.isAlphanum = true) :
    let tag := buildOrderTag format strategyId leg algoId maxLength (some clientId)
    let limit := format.effectiveMax maxLength
    let legLength := (format.cleanLeg leg).length
    tag.toList.length ≤ limit ∧
    (legLength ≤ limit → format.cleanLeg leg <:+ tag.toList) ∧
    ((format.cleanAlgo algoId).length + format.separator.length + legLength ≤ limit →
      format.cleanAlgo algoId <+: tag.toList) ∧
    (usedBy format.separator (format.cleanAlgo algoId) +
      usedBy format.separator (format.cleanLeg leg) + clientIdMinLength
        ≤ limit → hasClientId (some tag) clientId = true) := by
  intro tag limit legLength
  obtain ⟨middle, whole, bound⟩ := buildOrderTag_eq format strategyId leg algoId (some clientId) positive
  have hasLeg := cleanLeg_ne_nil format leg
  have wholeLeg : legLength ≤ limit → legPart format leg maxLength = format.cleanLeg leg :=
    fun fits => List.take_of_length_le fits
  refine ⟨bound, ?_, ?_, ?_⟩
  · intro fits
    have ends := suffix_legBlock format.separator (clientPart format leg algoId maxLength (some clientId))
      (legPart format leg maxLength)
    rw [wholeLeg fits] at ends whole
    rw [show tag.toList = _ from whole]
    exact ends.trans (List.suffix_append _ _)
  · intro fits
    have wholeAlgo : algoPart format leg algoId maxLength = format.cleanAlgo algoId := by
      apply fitAlgo_whole
      rw [wholeLeg (by omega)]
      exact fits
    rw [show tag.toList = _ from whole, wholeAlgo, List.append_assoc]
    exact List.prefix_append _ _
  · intro fits
    have legFits : legLength ≤ limit := by
      rw [usedBy, usedBy, if_neg hasLeg] at fits
      change (format.cleanLeg leg).length ≤ limit
      omega
    have wholeAlgo : algoPart format leg algoId maxLength = format.cleanAlgo algoId := by
      by_cases noAlgo : format.cleanAlgo algoId = []
      · simp [algoPart, fitAlgo, noAlgo]
      · apply fitAlgo_whole
        rw [wholeLeg legFits]
        rw [usedBy, usedBy, if_neg hasLeg, if_neg noAlgo] at fits
        change _ ≤ limit
        omega
    have upperLength : (clientId.toList.map Char.toUpper).length = 6 := by
      rw [List.length_map, String.length_toList, sixLong]
    have enough : clientIdMinLength ≤ limit - (usedBy format.separator (format.cleanAlgo algoId)
        + usedBy format.separator (format.cleanLeg leg)) := by omega
    have kept : clientPart format leg algoId maxLength (some clientId)
        = (clientId.toList.map Char.toUpper).take (limit - (usedBy format.separator (format.cleanAlgo algoId)
            + usedBy format.separator (format.cleanLeg leg))) := by
      unfold clientPart fitClient
      rw [wholeAlgo, wholeLeg legFits, cleanClient_eq format base36]
      dsimp only
      rw [if_neg]
      rw [List.length_take, upperLength, not_lt]
      exact le_min enough (by decide)
    generalize limit - (usedBy format.separator (format.cleanAlgo algoId)
      + usedBy format.separator (format.cleanLeg leg)) = room at enough kept
    have shortened : (clientId.toList.map Char.toUpper).take room =
        (clientId.toList.map Char.toUpper).take (min 6 room) := by
      rw [List.take_eq_take_iff, upperLength]
      omega
    have enoughOfSix : clientIdMinLength ≤ min 6 room := le_min (by decide) enough
    refine hasClientId_of_infix enoughOfSix (by omega) ?_
    rw [← shortened, ← kept, show tag.toList = _ from whole]
    have inBlock : clientPart format leg algoId maxLength (some clientId)
        <:+: legBlock format.separator (clientPart format leg algoId maxLength (some clientId))
          (legPart format leg maxLength) := by
      unfold legBlock
      split
      · next none_ =>
        rw [none_]
        exact List.nil_infix
      · rw [List.append_assoc]
        exact (List.prefix_append _ _).isInfix
    exact inBlock.trans (List.suffix_append _ _).isInfix

/-- An exit of a registered strategy, on a tag of twenty characters. -/
theorem orderTag_keeps_exit :
    buildOrderTag {} "momentum-42" "exit" (some "ALGO7") 20 (some "A1B2C3") = "ALGO7-mo-A1B2C3-EXIT" ∧
      hasClientId (some (buildOrderTag {} "momentum-42" "exit" (some "ALGO7") 20 (some "A1B2C3"))) "A1B2C3" = true := by
  have base36 : ∀ c ∈ "A1B2C3".toList, c.isAlphanum = true := by
    have all : "A1B2C3".toList.all Char.isAlphanum = true := by decide +kernel
    exact List.all_eq_true.mp all
  have keeps := orderTag_keeps {} "momentum-42" "exit" (some "ALGO7") "A1B2C3" 20 (by decide) (by decide +kernel) base36
  have algo : TagFormat.cleanAlgo {} (some "ALGO7") = ['A', 'L', 'G', 'O', '7'] := by decide +kernel
  have leg : TagFormat.cleanLeg {} "exit" = ['E', 'X', 'I', 'T'] := by decide +kernel
  have enough : usedBy (TagFormat.separator {}) (TagFormat.cleanAlgo {} (some "ALGO7"))
      + usedBy (TagFormat.separator {}) (TagFormat.cleanLeg {} "exit") + clientIdMinLength ≤
        TagFormat.effectiveMax {} 20 := by
    rw [algo, leg]
    decide
  exact ⟨by decide +kernel, keeps.2.2.2 enough⟩

end Tag

end AdvanceTrading.Execution
