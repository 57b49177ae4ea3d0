import AdvanceTrading.Misc.Dict
import AdvanceTrading.Misc.HashChain
import AdvanceTrading.Misc.Machine
import AdvanceTrading.Misc.PyFormat
import Mathlib.Data.Rat.Init

/-!
# The audit log

Model of `app/audit/log.py`: what a row's hash covers, how a row is appended, the anchors and the
verification in both modes. Texts are lists of characters; a time is in UTC, as the database keeps
it, so that `_normalize_timestamp` is its `isoformat` however it was read. SHA-256 is a parameter.
-/

namespace AdvanceTrading.Audit

abbrev Text := List Char

def hexDigits : Text := ['0', '1', '2', '3', '4', '5', '6', '7', '8', '9', 'a', 'b', 'c', 'd', 'e', 'f']

/-- `hashlib.sha256(text.encode("utf-8")).hexdigest()`: 64 hexadecimal digits. -/
structure Sha256 where
  hexdigest : Text → Text
  length_eq : ∀ text, (hexdigest text).length = 64
  hex : ∀ text, ∀ c ∈ hexdigest text, c ∈ hexDigits

/-- Digests that a check has read are valid ones. -/
theorem valid_of_all {table : List (Text × Text)}
    (checked : (table.all fun e => e.2.length == 64 && e.2.all hexDigits.contains) = true) :
    ∀ e ∈ table, e.2.length = 64 ∧ ∀ c ∈ e.2, c ∈ hexDigits := by
  intro e mem
  have both := List.all_eq_true.mp checked e mem
  simp only [Bool.and_eq_true, beq_iff_eq, List.all_eq_true, List.contains_iff_mem] at both
  exact both

/-- The digests of the texts in a table; any other text is given zeros. -/
def Sha256.ofTable (table : List (Text × Text)) (valid : ∀ e ∈ table, e.2.length = 64 ∧ ∀ c ∈ e.2, c ∈ hexDigits) :
    Sha256 where
  hexdigest := fun text => ((table.find? fun e => e.1 = text).map (·.2)).getD (List.replicate 64 '0')
  length_eq := by
    intro text
    cases found : table.find? fun e => e.1 = text with
    | none => simp
    | some e => exact (valid e (List.mem_of_find?_eq_some found)).1
  hex := by
    intro text
    cases found : table.find? fun e => e.1 = text with
    | none =>
      intro c mem
      rw [Option.map_none, Option.getD_none] at mem
      rw [List.eq_of_mem_replicate mem]
      decide
    | some e => exact (valid e (List.mem_of_find?_eq_some found)).2

/-- `GENESIS_HASH`. -/
def genesisHash : Text := ['G', 'E', 'N', 'E', 'S', 'I', 'S']

structure AuditLogRecord where
  id : ℕ
  tenantId : Option ℤ
  userId : Option ℤ
  event : Text
  detail : Text
  createdAt : Py.DateTime
  prevHash : Text
  hash : Text
  deriving DecidableEq

structure AuditAnchorRecord where
  id : ℕ
  lastId : ℕ
  headHash : Text
  anchoredAt : Py.DateTime
  deriving DecidableEq

/-- The tables `audit_logs` and `audit_anchors`. -/
structure Tables where
  rows : List AuditLogRecord := []
  anchors : List AuditAnchorRecord := []
  deriving DecidableEq

/-- What `_compute_hash` hashes. -/
def payload (prevHash : Text) (tenantId userId : Option ℤ) (event detail : Text) (createdAt : Py.DateTime) : Text :=
  List.intercalate ['|']
    [prevHash, Py.strOption tenantId, Py.strOption userId, event, detail, Py.isoformat createdAt]

def computeHash (sha : Sha256) (prevHash : Text) (tenantId userId : Option ℤ) (event detail : Text)
    (createdAt : Py.DateTime) : Text :=
  sha.hexdigest (payload prevHash tenantId userId event detail createdAt)

def AuditLogRecord.payload (r : AuditLogRecord) : Text :=
  Audit.payload r.prevHash r.tenantId r.userId r.event r.detail r.createdAt

/-- The rows in `id` order. -/
def inIdOrder (rows : List AuditLogRecord) : List AuditLogRecord := sortBy (·.id) rows

/-- `order_by(AuditLogRecord.id.desc()).limit(1)`. -/
def lastRow (rows : List AuditLogRecord) : Option AuditLogRecord := (inIdOrder rows).getLast?

/-- The hash `write_audit_log` takes as the previous one. -/
def prevHashOf (rows : List AuditLogRecord) : Text := ((lastRow rows).map (·.hash)).getD genesisHash

/-- A call of `write_audit_log`, with its reading of the clock. -/
structure Call where
  tenantId : Option ℤ
  userId : Option ℤ
  event : Text
  detail : Text := []
  createdAt : Py.DateTime

/-- The record of a call that read `prevHash`; the table gives its id when it is flushed. -/
def Call.record (sha : Sha256) (call : Call) (prevHash : Text) (id : ℕ) : AuditLogRecord where
  id := id
  tenantId := call.tenantId
  userId := call.userId
  event := call.event
  detail := call.detail
  createdAt := call.createdAt
  prevHash := prevHash
  hash := computeHash sha prevHash call.tenantId call.userId call.event call.detail call.createdAt

def writeAuditLog (sha : Sha256) (call : Call) (id : ℕ) (rows : List AuditLogRecord) : AuditLogRecord :=
  call.record sha (prevHashOf rows) id

/-- `latest_anchor`. -/
def latestAnchor (anchors : List AuditAnchorRecord) : Option AuditAnchorRecord := (sortBy (·.id) anchors).getLast?

def recordAnchor (id : ℕ) (now : Py.DateTime) (t : Tables) : Option AuditAnchorRecord :=
  (lastRow t.rows).bind fun last =>
    if (latestAnchor t.anchors).any fun previous => previous.lastId = last.id ∧ previous.headHash = last.hash then none
    else some ⟨id, last.id, last.hash, now⟩

/-- The loop of `verify_audit_chain`. -/
def checkRows (sha : Sha256) : Text → List AuditLogRecord → Bool × Option ℕ
  | _, [] => (true, none)
  | expectedPrev, row :: rows =>
    if row.prevHash ≠ expectedPrev then (false, some row.id)
    else if computeHash sha row.prevHash row.tenantId row.userId row.event row.detail row.createdAt ≠ row.hash then
      (false, some row.id)
    else checkRows sha row.hash rows

def verifyAuditChain (sha : Sha256) (sinceAnchor : Bool) (t : Tables) : Bool × Option ℕ :=
  match (if sinceAnchor then latestAnchor t.anchors else none) with
  | none => checkRows sha genesisHash (inIdOrder t.rows)
  | some anchor =>
    match t.rows.find? fun r => r.id = anchor.lastId with
    | none => (false, some anchor.lastId)
    | some anchored =>
      if anchored.hash ≠ anchor.headHash then (false, some anchor.lastId)
      else checkRows sha anchored.prevHash (inIdOrder (t.rows.filter fun r => anchor.lastId ≤ r.id))

/-! ## The rows as a hash chain -/

def chain (sha : Sha256) : HashChain AuditLogRecord Text where
  prev := (·.prevHash)
  hash := (·.hash)
  digest := fun r => sha.hexdigest r.payload

/-- No two of the rows have different payloads with one digest. -/
def CollisionFree (sha : Sha256) (rows : List AuditLogRecord) : Prop :=
  ∀ r ∈ rows, ∀ r' ∈ rows, sha.hexdigest r.payload = sha.hexdigest r'.payload → r.payload = r'.payload

/-- Each row's id is above those before it. -/
def Ordered (rows : List AuditLogRecord) : Prop := rows.Pairwise fun r r' => r.id < r'.id

variable {sha : Sha256} {rows : List AuditLogRecord}

theorem inIdOrder_eq (ordered : Ordered rows) : inIdOrder rows = rows :=
  sortBy_of_sorted (ordered.imp fun less => less.le)

theorem lastRow_eq (ordered : Ordered rows) : lastRow rows = rows.getLast? := by
  rw [lastRow, inIdOrder_eq ordered]

/-- What a writer reads is the head of the rows it sees. -/
theorem prevHashOf_eq (ordered : Ordered rows) : prevHashOf rows = (chain sha).head genesisHash rows := by
  rw [prevHashOf, lastRow_eq ordered]
  rfl

/-- The answer that goes with a first broken row. -/
def verdict : Option AuditLogRecord → Bool × Option ℕ
  | none => (true, none)
  | some r => (false, some r.id)

/-- The loop finds the first broken row. -/
theorem checkRows_eq (expected : Text) :
    checkRows sha expected rows = verdict ((chain sha).firstBroken expected rows) := by
  induction rows generalizing expected with
  | nil => rfl
  | cons r rows ih =>
    rw [checkRows, HashChain.firstBroken, ih]
    have digest : (chain sha).digest r =
        computeHash sha r.prevHash r.tenantId r.userId r.event r.detail r.createdAt := rfl
    rw [digest, show (chain sha).prev r = r.prevHash from rfl, show (chain sha).hash r = r.hash from rfl]
    split_ifs
    · rfl
    · rfl
    · rfl

theorem checkRows_intact {expected : Text} (intact : (chain sha).Intact expected rows) :
    checkRows sha expected rows = (true, none) := by
  rw [checkRows_eq, show (chain sha).firstBroken expected rows = none from intact]
  rfl

/-! ## What a payload tells -/

/-- The texts of the caller as they stand in the payload. -/
def AuditLogRecord.labelled (r : AuditLogRecord) : Text := r.event ++ '|' :: r.detail

theorem AuditLogRecord.payload_eq (r : AuditLogRecord) :
    r.payload = r.prevHash ++ '|' :: (Py.strOption r.tenantId ++ '|' :: (Py.strOption r.userId ++ '|' ::
      (r.labelled ++ '|' :: Py.isoformat r.createdAt))) := by
  simp [AuditLogRecord.payload, Audit.payload, labelled, List.intercalate]

/-- Rows with one payload and hashes for previous hashes agree in all but where the event ends. -/
theorem payload_inj {r r' : AuditLogRecord} (bare : '|' ∉ r.prevHash) (bare' : '|' ∉ r'.prevHash)
    (same : r.payload = r'.payload) :
    r.prevHash = r'.prevHash ∧ r.tenantId = r'.tenantId ∧ r.userId = r'.userId ∧ r.labelled = r'.labelled ∧
      r.createdAt = r'.createdAt := by
  rw [r.payload_eq, r'.payload_eq] at same
  obtain ⟨prev, same⟩ := Py.split_first bare bare' same
  obtain ⟨tenant, same⟩ := Py.split_first (Py.bar_notMem_strOption _) (Py.bar_notMem_strOption _) same
  obtain ⟨user, same⟩ := Py.split_first (Py.bar_notMem_strOption _) (Py.bar_notMem_strOption _) same
  obtain ⟨texts, time⟩ := Py.split_last (Py.bar_notMem_isoformat _) (Py.bar_notMem_isoformat _) same
  exact ⟨prev, Py.strOption_inj tenant, Py.strOption_inj user, texts, Py.isoformat_inj time⟩

theorem bar_notMem_hexdigest (text : Text) : '|' ∉ sha.hexdigest text :=
  fun mem => absurd (sha.hex text _ mem) (by decide)

theorem hexdigest_ne_genesis (text : Text) : sha.hexdigest text ≠ genesisHash := by
  intro same
  have lengths := congrArg List.length same
  rw [sha.length_eq] at lengths
  cases lengths

/-- The previous hashes of an intact chain hold no bar. -/
theorem bar_notMem_prevHash {start : Text} (bare : '|' ∉ start)
    (intact : (chain sha).Intact start rows) : ∀ r ∈ rows, '|' ∉ r.prevHash := by
  induction rows generalizing start with
  | nil => simp
  | cons first rows ih =>
    obtain ⟨follows, holds, rest⟩ := HashChain.intact_cons.mp intact
    have later := ih (holds ▸ bar_notMem_hexdigest first.payload) rest
    intro r mem
    rcases List.mem_cons.mp mem with rfl | mem
    · rw [show r.prevHash = start from follows]
      exact bare
    · exact later r mem

theorem determined (intact : (chain sha).Intact genesisHash rows) (free : CollisionFree sha rows) :
    HashChain.Determined (chain sha) genesisHash rows where
  fresh := fun r _ => hexdigest_ne_genesis r.payload
  prev := fun r mem r' mem' same =>
    have bare := bar_notMem_prevHash (by decide) intact
    (payload_inj (bare r mem) (bare r' mem') (free r mem r' mem' same)).1

end AdvanceTrading.Audit
