/-
Trades as the TypeScript SDK checks them before it sends them
(`sdk/typescript/src/index.ts`).

A JavaScript string is a list of UTF-16 code units, a `bigint` an integer, and a
thrown error an `Except.error` with its class and message.  `cloneTradeTransaction`
checks the fields in the order of the source.  The lemmas say what the check of one
field does to a well-formed text:

* `requireText_returns` — the text is passed on when `jsBlank` is false and it has
  at most the given bytes;
* `all_isTopicUnit` — the pattern of a topic is the test of the server;
* `setSize_map_eq_length` — the set of a field has the size of the list exactly
  when the field never repeats;
* `balanceOf_foldl` — the map holds the sums of the assets.
-/
import Mathlib.Data.List.Dedup
import Mathlib.Data.List.TakeWhile
import DbProxy.KeyedTable
import DbProxy.TradeTransaction
import DbProxy.Utf16
import DbProxy.WireRequests

namespace DbProxy.Sdk

open Text Utf16

/-- A JavaScript string, by its code units. -/
abbrev JsString := List UInt16

/-! ### Interfaces -/

structure DbProxyRecordKey where
  ns : JsString
  key : JsString
deriving DecidableEq

/-- `schemaVersion` is a `number` that holds an integer. -/
structure DbProxyTransactionalRecordWrite where
  record : DbProxyRecordKey
  schema : JsString
  schemaVersion : ℤ
  expectedRevision : ℤ
  payload : Bytes
  updatedAtUnixMs : ℤ

/-- A `DbProxyTradeState` is one of four strings; the check reads them as strings. -/
structure DbProxyTradeTransition where
  tradeId : JsString
  expectedVersion : ℤ
  expectedState : Option JsString
  nextState : JsString
  payload : Bytes
  updatedAtUnixMs : ℤ

structure DbProxyLedgerPosting where
  postingId : JsString
  accountId : JsString
  asset : JsString
  amount : ℤ
  metadata : Bytes

structure DbProxyOutboxEvent where
  eventId : JsString
  topic : JsString
  partitionKey : JsString
  payload : Bytes
  occurredAtUnixMs : ℤ

structure DbProxyTradeTransaction where
  operationId : JsString
  transition : DbProxyTradeTransition
  writes : List DbProxyTransactionalRecordWrite
  ledgerPostings : List DbProxyLedgerPosting
  outboxEvents : List DbProxyOutboxEvent
  result : Bytes

/-! ### Limits -/

def uint64Max : ℤ := 0xffff_ffff_ffff_ffff
def maxNamespaceBytes : ℕ := 128
def maxRecordKeyBytes : ℕ := 512
def maxSchemaBytes : ℕ := 256
def maxIdempotencyKeyBytes : ℕ := 256
def maxTransactionRecords : ℕ := 256
def maxTradeIdBytes : ℕ := 256
def maxLedgerPostings : ℕ := 512
def maxLedgerFieldBytes : ℕ := 256
def maxOutboxEvents : ℕ := 64
def maxOutboxTopicBytes : ℕ := 128
def maxOutboxPartitionKeyBytes : ℕ := 512
def int64Min : ℤ := -0x8000_0000_0000_0000
def int64Max : ℤ := 0x7fff_ffff_ffff_ffff

/-! ### Fields -/

/-- What a check throws. -/
inductive SdkError
  | typeError (message : JsString)
  | rangeError (message : JsString)
deriving DecidableEq

/-- `if (!condition) throw error`. -/
def ensure (condition : Bool) (error : SdkError) : Except SdkError Unit :=
  if condition then .ok () else .error error

/-- The code points of the white space and the line terminators of ECMAScript. -/
def ecmaWhiteSpace (n : ℕ) : Bool :=
  (0x09 ≤ n && n ≤ 0x0D) || n == 0x20 || n == 0xA0 || n == 0x1680 ||
    (0x2000 ≤ n && n ≤ 0x200A) || n == 0x2028 || n == 0x2029 || n == 0x202F ||
    n == 0x205F || n == 0x3000 || n == 0xFEFF

/-- `String.prototype.trim`. -/
def trim (value : JsString) : JsString :=
  ((value.dropWhile (ecmaWhiteSpace ·.toNat)).reverse.dropWhile (ecmaWhiteSpace ·.toNat)).reverse

/-- The loop over the code units; a pair of surrogates counts once, as four bytes. -/
def utf8ByteLength : JsString → ℕ
  | [] => 0
  | [codeUnit] => if codeUnit ≤ 0x7f then 1 else if codeUnit ≤ 0x7ff then 2 else 3
  | codeUnit :: next :: rest =>
    if codeUnit ≤ 0x7f then 1 + utf8ByteLength (next :: rest)
    else if codeUnit ≤ 0x7ff then 2 + utf8ByteLength (next :: rest)
    else if 0xd800 ≤ codeUnit ∧ codeUnit ≤ 0xdbff ∧ 0xdc00 ≤ next ∧ next ≤ 0xdfff then
      4 + utf8ByteLength rest
    else 3 + utf8ByteLength (next :: rest)

def requireText (value : JsString) (name : String) (maximumBytes : ℕ) :
    Except SdkError JsString := do
  ensure ((trim value).length != 0) (.typeError (codeUnits (name ++ " must be a non-empty string")))
  ensure (utf8ByteLength value ≤ maximumBytes) (.rangeError
    (codeUnits (name ++ " exceeds " ++ toString maximumBytes ++ " UTF-8 bytes")))
  return value

def requireUint32 (value : ℤ) (name : String) : Except SdkError ℤ := do
  ensure (0 ≤ value && value ≤ 0xffff_ffff) (.rangeError (codeUnits (name ++ " must be uint32")))
  return value

def requireUint64 (value : ℤ) (name : String) : Except SdkError ℤ := do
  ensure (0 ≤ value && value ≤ uint64Max)
    (.rangeError (codeUnits (name ++ " must be uint64 bigint")))
  return value

def requireInt64 (value : ℤ) (name : String) : Except SdkError ℤ := do
  ensure (int64Min ≤ value && value ≤ int64Max)
    (.rangeError (codeUnits (name ++ " must be int64 bigint")))
  return value

/-- `value.slice()`; the buffer of a caller is not shared. -/
def copyBytes (value : Bytes) : Bytes := value

def requireTradeState (value : JsString) (name : String) : Except SdkError JsString := do
  ensure (value == codeUnits "proposed" || value == codeUnits "escrowed" ||
    value == codeUnits "settled" || value == codeUnits "cancelled")
    (.typeError (codeUnits (name ++ " is not a valid trade state")))
  return value

def isValidTradeTransition (source : Option JsString) (target : JsString) : Bool :=
  (source == none && (target == codeUnits "proposed" || target == codeUnits "escrowed")) ||
  (source == some (codeUnits "proposed") &&
    (target == codeUnits "escrowed" || target == codeUnits "cancelled")) ||
  (source == some (codeUnits "escrowed") &&
    (target == codeUnits "settled" || target == codeUnits "cancelled"))

/-- The class `[A-Za-z0-9._-]`. -/
def isTopicUnit (u : UInt16) : Bool :=
  let n := u.toNat
  (0x41 ≤ n && n ≤ 0x5A) || (0x61 ≤ n && n ≤ 0x7A) || (0x30 ≤ n && n ≤ 0x39) ||
    n == 0x2E || n == 0x5F || n == 0x2D

/-- `new Set(values).size`. -/
def setSize (values : List JsString) : ℕ := values.dedup.length

/-! ### Copies -/

def cloneRecordKey (record : DbProxyRecordKey) : Except SdkError DbProxyRecordKey := do
  let ns ← requireText record.ns "record.namespace" maxNamespaceBytes
  let key ← requireText record.key "record.key" maxRecordKeyBytes
  return ⟨ns, key⟩

def cloneMultiTransactionalRecordWrite (write : DbProxyTransactionalRecordWrite) :
    Except SdkError DbProxyTransactionalRecordWrite := do
  let record ← cloneRecordKey write.record
  let schema ← requireText write.schema "transactionalRecord.schema" maxSchemaBytes
  let schemaVersion ← requireUint32 write.schemaVersion "transactionalRecord.schemaVersion"
  let expectedRevision ←
    requireUint64 write.expectedRevision "transactionalRecord.expectedRevision"
  let updatedAtUnixMs ← requireUint64 write.updatedAtUnixMs "transactionalRecord.updatedAtUnixMs"
  return ⟨record, schema, schemaVersion, expectedRevision, copyBytes write.payload,
    updatedAtUnixMs⟩

def cloneTradeTransition (transition : DbProxyTradeTransition) :
    Except SdkError DbProxyTradeTransition := do
  let expectedVersion ← requireUint64 transition.expectedVersion "tradeTransition.expectedVersion"
  let expectedState ← transition.expectedState.mapM
    (requireTradeState · "tradeTransition.expectedState")
  let nextState ← requireTradeState transition.nextState "tradeTransition.nextState"
  ensure (((expectedVersion == 0) == (expectedState == none)) &&
    isValidTradeTransition expectedState nextState)
    (.typeError (codeUnits "tradeTransition contains an illegal state transition"))
  let tradeId ← requireText transition.tradeId "tradeTransition.tradeId" maxTradeIdBytes
  let updatedAtUnixMs ← requireUint64 transition.updatedAtUnixMs "tradeTransition.updatedAtUnixMs"
  return ⟨tradeId, expectedVersion, expectedState, nextState, copyBytes transition.payload,
    updatedAtUnixMs⟩

def cloneLedgerPosting (posting : DbProxyLedgerPosting) :
    Except SdkError DbProxyLedgerPosting := do
  let amount ← requireInt64 posting.amount "ledgerPosting.amount"
  ensure (amount != 0) (.rangeError (codeUnits "ledgerPosting.amount cannot be zero"))
  let postingId ← requireText posting.postingId "ledgerPosting.postingId" maxLedgerFieldBytes
  let accountId ← requireText posting.accountId "ledgerPosting.accountId" maxLedgerFieldBytes
  let asset ← requireText posting.asset "ledgerPosting.asset" maxLedgerFieldBytes
  return ⟨postingId, accountId, asset, amount, copyBytes posting.metadata⟩

def cloneOutboxEvent (event : DbProxyOutboxEvent) : Except SdkError DbProxyOutboxEvent := do
  let topic ← requireText event.topic "outboxEvent.topic" maxOutboxTopicBytes
  ensure (topic.length != 0 && topic.all isTopicUnit)
    (.typeError (codeUnits "outboxEvent.topic contains unsupported characters"))
  let eventId ← requireText event.eventId "outboxEvent.eventId" maxIdempotencyKeyBytes
  let partitionKey ←
    requireText event.partitionKey "outboxEvent.partitionKey" maxOutboxPartitionKeyBytes
  let occurredAtUnixMs ← requireUint64 event.occurredAtUnixMs "outboxEvent.occurredAtUnixMs"
  return ⟨eventId, topic, partitionKey, copyBytes event.payload, occurredAtUnixMs⟩

/-- A `Map<string, bigint>`, in the order of insertion. -/
abbrev Balances := KeyedTable (Prod.fst : JsString × ℤ → JsString)

/-- `balances.set(asset, (balances.get(asset) ?? 0n) + amount)`. -/
def addBalance (balances : Balances) (posting : DbProxyLedgerPosting) : Balances :=
  balances.upsert (posting.asset, 0 + posting.amount)
    (fun entry => (entry.1, entry.2 + posting.amount)) fun _ => rfl

/-- The second loop throws at the first asset with a balance. -/
def checkBalances (balances : Balances) : Except SdkError Unit :=
  balances.rows.forM fun entry => ensure (entry.2 == 0) (.rangeError
    (codeUnits "tradeTransaction ledger is not balanced for asset " ++ entry.1))

/-- A record in the set of the records: the namespace, `\u0000` and the key. -/
def recordName (record : DbProxyRecordKey) : JsString := record.ns ++ [0] ++ record.key

def cloneTradeTransaction (transaction : DbProxyTradeTransaction) :
    Except SdkError DbProxyTradeTransaction := do
  let operationId ←
    requireText transaction.operationId "tradeTransaction.operationId" maxIdempotencyKeyBytes
  let transition ← cloneTradeTransition transaction.transition
  ensure (transaction.writes.length != 0 && transaction.writes.length ≤ maxTransactionRecords)
    (.rangeError (codeUnits ("tradeTransaction.writes must contain 1.." ++
      toString maxTransactionRecords ++ " records")))
  let writes ← transaction.writes.mapM cloneMultiTransactionalRecordWrite
  ensure (setSize (writes.map fun write => recordName write.record) == writes.length)
    (.typeError (codeUnits "tradeTransaction.writes cannot contain duplicate records"))
  ensure (transaction.ledgerPostings.length ≤ maxLedgerPostings)
    (.rangeError (codeUnits ("tradeTransaction.ledgerPostings cannot exceed " ++
      toString maxLedgerPostings)))
  let ledgerPostings ← transaction.ledgerPostings.mapM cloneLedgerPosting
  ensure (setSize (ledgerPostings.map (·.postingId)) == ledgerPostings.length)
    (.typeError (codeUnits "tradeTransaction.ledgerPostings contain duplicate postingIds"))
  checkBalances (ledgerPostings.foldl addBalance KeyedTable.empty)
  ensure (transaction.outboxEvents.length ≤ maxOutboxEvents)
    (.rangeError (codeUnits ("tradeTransaction.outboxEvents cannot exceed " ++
      toString maxOutboxEvents)))
  let outboxEvents ← transaction.outboxEvents.mapM cloneOutboxEvent
  ensure (setSize (outboxEvents.map (·.eventId)) == outboxEvents.length)
    (.typeError (codeUnits "tradeTransaction.outboxEvents contain duplicate eventIds"))
  return ⟨operationId, transition, writes, ledgerPostings, outboxEvents,
    copyBytes transaction.result⟩

/-! ### What the checks of a field accept -/

theorem ensure_eq_ok {condition : Bool} {error : SdkError} :
    ensure condition error = .ok () ↔ condition = true := by
  cases condition <;> simp [ensure]

theorem ensure_returns (condition : Bool) (error : SdkError) :
    Checks.Returns (ensure condition error) (condition = true) () := by
  intro u
  rw [ensure_eq_ok, and_iff_left rfl]

/-- A check that passes its argument on. -/
theorem ensure_return_returns {α : Type} (condition : Bool) (error : SdkError) (value : α) :
    Checks.Returns (do ensure condition error; return value) (condition = true) value :=
  (ensure_returns condition error).map (g := fun _ => value)

theorem trim_eq_nil {value : JsString} :
    trim value = [] ↔ value.all (ecmaWhiteSpace ·.toNat) = true := by
  rw [trim, List.reverse_eq_nil_iff, List.dropWhile_eq_nil_iff, List.all_eq_true]
  constructor
  · intro h u hu
    by_contra hspace
    -- the first unit that is kept at the front is kept at the end too
    have hkept : value.dropWhile (ecmaWhiteSpace ·.toNat) ≠ [] := by
      rw [ne_eq, List.dropWhile_eq_nil_iff]
      intro hall
      exact hspace (hall u hu)
    have hhead := List.head_dropWhile_not (fun u : UInt16 => ecmaWhiteSpace u.toNat) hkept
    have := h _ (List.mem_reverse.mpr (List.head_mem hkept))
    rw [hhead] at this
    cases this
  · intro h u hu
    exact h u ((List.dropWhile_sublist _).subset (List.mem_reverse.mp hu))

/-- `trim().length === 0`, of a well-formed text. -/
def jsBlank (s : String) : Bool := s.toList.all (ecmaWhiteSpace ·.toNat)

theorem ecmaWhiteSpace_eq_true {n : ℕ} : ecmaWhiteSpace n = true ↔ (0x09 ≤ n ∧ n ≤ 0x0D) ∨
    n = 0x20 ∨ n = 0xA0 ∨ n = 0x1680 ∨ (0x2000 ≤ n ∧ n ≤ 0x200A) ∨ n = 0x2028 ∨ n = 0x2029 ∨
    n = 0x202F ∨ n = 0x205F ∨ n = 0x3000 ∨ n = 0xFEFF := by
  simp only [ecmaWhiteSpace, Bool.or_eq_true, Bool.and_eq_true, decide_eq_true_eq, beq_iff_eq,
    or_assoc]

theorem all_ecmaWhiteSpace (s : String) :
    (codeUnits s).all (ecmaWhiteSpace ·.toNat) = jsBlank s := by
  apply all_codeUnits
  · intro u hlow hhigh
    rw [← Bool.not_eq_true, ecmaWhiteSpace_eq_true]
    omega
  · intro c hbig
    rw [← Bool.not_eq_true, ecmaWhiteSpace_eq_true]
    omega
  · intro u c h
    rw [h]

/-- A unit that is not counted in a pair. -/
theorem utf8ByteLength_cons {u : UInt16} {rest : JsString}
    (h : ¬ (highSurrogate u ∧ ∃ v ∈ rest.head?, lowSurrogate v)) : utf8ByteLength (u :: rest) =
      (if u.toNat ≤ 0x7f then 1 else if u.toNat ≤ 0x7ff then 2 else 3) + utf8ByteLength rest := by
  cases rest with
  | nil =>
    simp only [utf8ByteLength, UInt16.le_iff_toNat_le]
    rfl
  | cons next rest =>
    simp only [utf8ByteLength, UInt16.le_iff_toNat_le]
    have hlead : ¬ ((0xd800 : UInt16).toNat ≤ u.toNat ∧ u.toNat ≤ (0xdbff : UInt16).toNat ∧
        (0xdc00 : UInt16).toNat ≤ next.toNat ∧ next.toNat ≤ (0xdfff : UInt16).toNat) := by
      rintro ⟨hlow, hhigh, hnext⟩
      exact h ⟨⟨hlow, hhigh⟩, next, rfl, hnext⟩
    rw [if_neg hlead]
    show (if u.toNat ≤ 0x7f then _ else if u.toNat ≤ 0x7ff then _ else _) = _
    split
    · rfl
    · split <;> rfl

theorem utf8ByteLength_pair {high low : UInt16} {rest : JsString} (hhigh : highSurrogate high)
    (hlow : lowSurrogate low) :
    utf8ByteLength (high :: low :: rest) = 4 + utf8ByteLength rest := by
  have hpair : (0xd800 : UInt16).toNat ≤ high.toNat ∧ high.toNat ≤ (0xdbff : UInt16).toNat ∧
      (0xdc00 : UInt16).toNat ≤ low.toNat ∧ low.toNat ≤ (0xdfff : UInt16).toNat :=
    ⟨hhigh.1, hhigh.2, hlow⟩
  have hone : ¬ high.toNat ≤ (0x7f : UInt16).toNat := by
    have := hhigh.1
    show ¬ high.toNat ≤ 0x7f
    omega
  have htwo : ¬ high.toNat ≤ (0x7ff : UInt16).toNat := by
    have := hhigh.1
    show ¬ high.toNat ≤ 0x7ff
    omega
  simp only [utf8ByteLength, UInt16.le_iff_toNat_le]
  rw [if_neg hone, if_neg htwo, if_pos hpair]

theorem utf8ByteLength_charUnits (c : Char) (rest : JsString) :
    utf8ByteLength (charUnits c ++ rest) = c.utf8Size + utf8ByteLength rest := by
  rcases charUnits_cases c with ⟨u, hc, hu, hrange, hsmall⟩ | ⟨high, low, hc, hbig, htop, hh, hl⟩
  · have hsingle : ¬ highSurrogate u := by
      rw [highSurrogate]
      omega
    rw [hc, List.singleton_append, utf8ByteLength_cons (fun h => hsingle h.1), hu]
    congr 1
    have hsize := c.utf8Size_eq
    have h1 : c.utf8Size = 1 ↔ c.toNat ≤ 0x7f := Char.utf8Size_eq_one_iff
    have h2 : c.utf8Size = 2 ↔ 0x7f < c.toNat ∧ c.toNat ≤ 0x7ff := Char.utf8Size_eq_two_iff
    have h4 : c.utf8Size = 4 ↔ 0xffff < c.toNat := Char.utf8Size_eq_four_iff
    split
    · omega
    · split <;> omega
  · have hhigh : highSurrogate high := ⟨by omega, by omega⟩
    have hlow : lowSurrogate low := ⟨by omega, by omega⟩
    rw [hc, List.cons_append, List.singleton_append, utf8ByteLength_pair hhigh hlow]
    have h4 : c.utf8Size = 4 ↔ 0xffff < c.toNat := Char.utf8Size_eq_four_iff
    rw [h4.mpr (by omega)]

/-- The loop counts the bytes of a well-formed text. -/
theorem utf8ByteLength_codeUnits (s : String) : utf8ByteLength (codeUnits s) = s.utf8ByteSize := by
  have hlist : ∀ l : List Char,
      utf8ByteLength (l.flatMap charUnits) = (l.map Char.utf8Size).sum := by
    intro l
    induction l with
    | nil => rfl
    | cons c l ih =>
      rw [List.flatMap_cons, utf8ByteLength_charUnits, ih, List.map_cons, List.sum_cons]
  rw [codeUnits, hlist, ← utf8ByteSize_ofList, String.ofList_toList]

theorem requireText_returns (s name : String) (maximumBytes : ℕ) :
    Checks.Returns (requireText (codeUnits s) name maximumBytes)
      (Fits jsBlank (s, maximumBytes)) (codeUnits s) := by
  refine ((ensure_returns _ _).bind (ensure_return_returns _ _ _)).congr (and_congr ?_ ?_)
  · rw [bne_iff_ne, ne_eq, List.length_eq_zero_iff, trim_eq_nil, all_ecmaWhiteSpace,
      Bool.not_eq_true]
  · rw [utf8ByteLength_codeUnits, decide_eq_true_eq]

/-- A check of a range, at an integer in the range. -/
theorem ensure_range_returns {low high value : ℤ} {error : SdkError}
    (h : low ≤ value ∧ value ≤ high) :
    Checks.Returns (do ensure (low ≤ value && value ≤ high) error; return value) True value := by
  refine (ensure_return_returns _ _ _).congr ?_
  rw [Bool.and_eq_true, decide_eq_true_eq, decide_eq_true_eq]
  exact iff_true_intro h

theorem requireUint32_returns {value : ℕ} {name : String} (h : value < 2 ^ 32) :
    Checks.Returns (requireUint32 value name) True (value : ℤ) :=
  ensure_range_returns (by omega)

theorem requireUint64_returns {value : ℕ} {name : String} (h : value < 2 ^ 64) :
    Checks.Returns (requireUint64 value name) True (value : ℤ) :=
  ensure_range_returns (by rw [uint64Max]; omega)

theorem requireInt64_returns {value : ℤ} {name : String}
    (h : -2 ^ 63 ≤ value ∧ value < 2 ^ 63) :
    Checks.Returns (requireInt64 value name) True value :=
  ensure_range_returns (by rw [int64Min, int64Max]; omega)

/-- The name of a state in the SDK. -/
def stateText : TradeState → JsString
  | .proposed => codeUnits "proposed"
  | .escrowed => codeUnits "escrowed"
  | .settled => codeUnits "settled"
  | .cancelled => codeUnits "cancelled"

theorem requireTradeState_returns (state : TradeState) (name : String) :
    Checks.Returns (requireTradeState (stateText state) name) True (stateText state) := by
  refine (ensure_return_returns _ _ _).congr (iff_true_intro ?_)
  cases state <;> simp [stateText]

theorem isValidTradeTransition_eq (source : Option TradeState) (target : TradeState) :
    isValidTradeTransition (source.map stateText) (stateText target) =
      isValidTransition source target := by
  rcases source with _ | source
  · cases target <;> simp [isValidTradeTransition, isValidTransition, stateText]
  · cases source <;> cases target <;>
      simp [isValidTradeTransition, isValidTransition, stateText]

theorem isTopicUnit_eq_true {n : ℕ} (u : UInt16) (h : u.toNat = n) : isTopicUnit u = true ↔
    (0x41 ≤ n ∧ n ≤ 0x5A) ∨ (0x61 ≤ n ∧ n ≤ 0x7A) ∨ (0x30 ≤ n ∧ n ≤ 0x39) ∨ n = 0x2E ∨
      n = 0x5F ∨ n = 0x2D := by
  simp only [isTopicUnit, h, Bool.or_eq_true, Bool.and_eq_true, decide_eq_true_eq, beq_iff_eq,
    or_assoc]

theorem isTopicChar_eq_true {c : Char} : isTopicChar c = true ↔
    (0x41 ≤ c.toNat ∧ c.toNat ≤ 0x5A) ∨ (0x61 ≤ c.toNat ∧ c.toNat ≤ 0x7A) ∨
      (0x30 ≤ c.toNat ∧ c.toNat ≤ 0x39) ∨ c.toNat = 0x2E ∨ c.toNat = 0x5F ∨ c.toNat = 0x2D := by
  have heq : ∀ d : Char, c = d ↔ c.toNat = d.toNat := fun d => Char.toNat_inj.symm
  have hle : ∀ a b : Char, a ≤ b ↔ a.toNat ≤ b.toNat := fun a b => Iff.rfl
  simp only [isTopicChar, isAsciiAlphanumeric, Bool.or_eq_true, Bool.and_eq_true,
    decide_eq_true_eq, beq_iff_eq, heq, hle]
  show (((((0x30 ≤ c.toNat ∧ c.toNat ≤ 0x39) ∨ (0x41 ≤ c.toNat ∧ c.toNat ≤ 0x5A)) ∨
    (0x61 ≤ c.toNat ∧ c.toNat ≤ 0x7A)) ∨ c.toNat = 0x2E) ∨ c.toNat = 0x5F) ∨ c.toNat = 0x2D ↔ _
  omega

/-- The pattern of a topic accepts the characters that the server accepts. -/
theorem all_isTopicUnit (s : String) :
    (codeUnits s).all isTopicUnit = s.toList.all isTopicChar := by
  apply all_codeUnits
  · intro u hlow hhigh
    rw [← Bool.not_eq_true, isTopicUnit_eq_true u rfl]
    omega
  · intro c hbig
    rw [← Bool.not_eq_true, isTopicChar_eq_true]
    omega
  · intro u c h
    rw [Bool.eq_iff_iff, isTopicUnit_eq_true u h, isTopicChar_eq_true]

theorem setSize_eq_length {values : List JsString} :
    setSize values = values.length ↔ values.Nodup := by
  rw [setSize, ← List.dedup_eq_self]
  constructor
  · intro h
    exact (List.dedup_sublist values).eq_of_length h
  · intro h
    rw [h]

/-- The sets of the source are built from a field of each element. -/
theorem setSize_map_eq_length {α β : Type} (name : α → String) {f : α → β} {field : β → JsString}
    (h : ∀ a, field (f a) = codeUnits (name a)) (l : List α) :
    (setSize ((l.map f).map field) == (l.map f).length) = true ↔ (l.map name).Nodup := by
  have hmap : (l.map f).map field = (l.map name).map codeUnits := by
    rw [List.map_map, List.map_map]
    exact List.map_congr_left fun a _ => h a
  rw [beq_iff_eq, ← List.length_map field, setSize_eq_length, hmap]
  exact List.nodup_map_iff fun s t hst => codeUnits_inj.mp hst

/-! ### Balances -/

/-- What the map holds for an asset, zero for an asset it does not hold. -/
def balanceOf (balances : Balances) (asset : JsString) : ℤ :=
  ((balances.lookup asset).map Prod.snd).getD 0

theorem balanceOf_addBalance (balances : Balances) (posting : DbProxyLedgerPosting)
    (asset : JsString) : balanceOf (addBalance balances posting) asset =
      balanceOf balances asset + if asset = posting.asset then posting.amount else 0 := by
  rw [balanceOf, balanceOf, addBalance, KeyedTable.lookup_upsert]
  by_cases h : asset = posting.asset
  · rw [if_pos h, if_pos h]
    cases balances.lookup asset <;> simp
  · rw [if_neg h, if_neg h, add_zero]

/-- The first loop sums up the postings of each asset. -/
theorem balanceOf_foldl (postings : List DbProxyLedgerPosting) (asset : JsString) :
    ∀ balances : Balances, balanceOf (postings.foldl addBalance balances) asset =
      balanceOf balances asset + ((postings.filter (·.asset == asset)).map (·.amount)).sum := by
  induction postings with
  | nil =>
    intro balances
    simp
  | cons posting rest ih =>
    intro balances
    rw [List.foldl_cons, ih, balanceOf_addBalance, List.filter_cons]
    by_cases h : asset = posting.asset
    · simp [h, add_assoc]
    · have hne : ¬ posting.asset = asset := fun heq => h heq.symm
      simp [h, hne]

theorem checkBalances_returns (balances : Balances) :
    Checks.Returns (checkBalances balances) (∀ asset, balanceOf balances asset = 0) () := by
  have hrows : checkBalances balances = .ok () ↔ ∀ entry ∈ balances.rows, entry.2 = 0 := by
    refine Checks.forM_eq_ok.trans (forall₂_congr fun entry _ => ?_)
    exact ensure_eq_ok.trans beq_iff_eq
  intro u
  rw [hrows, and_iff_left rfl]
  constructor
  · intro h asset
    rw [balanceOf]
    cases hfound : balances.lookup asset with
    | none => rfl
    | some entry => exact h entry (KeyedTable.lookup_eq_some.mp hfound).1
  · intro h entry hmem
    have := h entry.1
    rw [balanceOf, KeyedTable.lookup_of_mem hmem] at this
    exact this

end DbProxy.Sdk
