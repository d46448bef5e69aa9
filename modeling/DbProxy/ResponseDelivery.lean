/-
Every accepted request is answered by one frame, unless a batch read does not fit.

The limits for payloads, for the records of a batch and for frames are set separately, and
the first two are enforced only on what a client sends.  So a batch read of stored payloads,
each below its limit, may have no frame.  The writer then fails, and with it every response
that is still to be written on the connection.

* `responses_written` — runs whose batch reads fit;
* `batch_read_breaks_connection` — eight snapshots of the largest payload in one batch read.
-/
import DbProxy.ResponseWriter
import Mathlib.Algebra.Group.Action.Defs
import Mathlib.Algebra.Order.BigOperators.Group.List

namespace DbProxy

open Checks StepMachine

namespace Server

variable {D : Type} [DecidableEq D] {cfg : MemoryConfig D} {plain : Char → Bool}
  {codec : MessageCodec ResponseEnvelope} {limit : ℕ} {s : Server cfg}

def playerSave (key : String) (payload : Bytes) : WireSaveSnapshotRequest :=
  ⟨key, some ⟨"player", key⟩, "profile", 1, payload, none, 10⟩

def saveEnvelope (key : String) (payload : Bytes) : RequestEnvelope :=
  ⟨0, some (.saveSnapshot (playerSave key payload))⟩

/-- A save on a connection of its own. -/
def acceptSave (key : String) (payload : Bytes) : List (ConnectionEvent RequestEnvelope OrderKey) :=
  [.acquire, .admitRequest (saveEnvelope key payload) [.record "player" key] (fun _ => true)
    fun _ => true, .start 0]

def savePlayers (payload : Bytes) : ℕ → List String → List ServerEvent
  | _, [] => []
  | c, key :: keys =>
    (acceptSave key payload).map (.connection c) ++ [.call c 0] ++ savePlayers payload (c + 1) keys

def eightPlayers : List String := ["a", "b", "c", "d", "e", "f", "g", "h"]

/-- A batch read of these players, and a read of another one. -/
def batchEnvelope : RequestEnvelope :=
  ⟨7, some (.loadMultiSnapshot ⟨eightPlayers.map fun key => ⟨"player", key⟩, false, []⟩)⟩

def otherEnvelope : RequestEnvelope :=
  ⟨8, some (.loadSnapshot ⟨some ⟨"player", "z"⟩, false, none⟩)⟩

/-- Both on one connection, up to their calls. -/
def acceptReads : List (ConnectionEvent RequestEnvelope OrderKey) :=
  [.acquire, .admitRequest batchEnvelope (eightPlayers.map fun key => .record "player" key)
      (fun _ => true) fun _ => true,
    .acquire, .admitRequest otherEnvelope [.record "player" "z"] (fun _ => true) fun _ => true,
    .start 0, .start 1]

/-- And after them. -/
def answerReads : List (ConnectionEvent RequestEnvelope OrderKey) :=
  [.finish 0 false, .finish 1 false, .answer 0, .answer 1]

def readTogether : List ServerEvent :=
  acceptReads.map (.connection 8) ++ [.call 8 0, .call 8 1] ++ answerReads.map (.connection 8)

def frameCodec : MessageCodec ResponseEnvelope :=
  ⟨ResponseEnvelope.encodeFrame, fun _ => .error "truncated"⟩

/-- Eight saves of small payloads, then both reads. -/
def fittingRun : List ServerEvent :=
  savePlayers [1, 2] 0 eightPlayers ++
    (readTogether ++ [.connection 8 .write, .connection 8 .write])

section Runs

variable (plain codec)

/-- Steps of one connection in which the backend takes no part. -/
theorem run_connection {c : ℕ} {connection : ServedConnection}
    {es : List (ConnectionEvent RequestEnvelope OrderKey)} (store : MemoryBackend cfg)
    (connections : ℕ → ServedConnection)
    (h : run (ServedConnection.step plain codec limit) (connections c) es = some connection) :
    run (step plain codec limit) ⟨store, connections⟩ (es.map (.connection c)) =
      some ⟨store, Function.update connections c connection⟩ := by
  induction es generalizing connections with
  | nil =>
    rw [run_nil, Option.some_inj] at h
    rw [List.map_nil, run_nil, ← h, Function.update_eq_self]
  | cons e es ih =>
    obtain ⟨m, hm, hrest⟩ := run_cons_eq_some.mp h
    refine run_cons_eq_some.mpr ⟨⟨store, Function.update connections c m⟩, ?_, ?_⟩
    · simp only [step, hm, Option.map_some]
    · have hlast := ih (Function.update connections c m) (by rwa [Function.update_self])
      rwa [Function.update_idem] at hlast

/-- The call of a running handler. -/
theorem step_call {store : MemoryBackend cfg} {connections : ℕ → ServedConnection} {c r : ℕ}
    {connection : ServedConnection} {call : BackendCall} {next : call.Reply → HandlerRun}
    (hphase : connection.tasks.phase r = some .running)
    (hhandler : connection.handlers r = some (.call call next)) :
    step plain codec limit ⟨store, Function.update connections c connection⟩ (.call c r) =
      some ⟨(perform store call).2, Function.update connections c { connection with
        handlers := Function.update connection.handlers r
          (some (resumed next (perform store call).1)) }⟩ := by
  have hwaits : handler (⟨store, Function.update connections c connection⟩ : Server cfg) c r =
      some (.call call next) := by
    simp only [handler, Function.update_self, hphase, if_true, hhandler]
  simp only [step, hwaits, setHandler, Function.update_self, Function.update_idem]

/-- A request is accepted; no signal that is looked at is closed. -/
theorem step_admitRequest {s : ServedConnection} {q : RequestEnvelope} {keys : List OrderKey}
    (hreading : s.tasks.reading) (hheld : s.tasks.held) (hnodup : keys.Nodup)
    (hkeys : keys.toFinset = q.orderKeys) (hframed : RequestBody.Framed q.body) :
    s.step plain codec limit (.admitRequest q keys (fun _ => true) fun _ => true) =
      some { s with tasks := s.tasks.admitted q keys (fun _ => true) fun _ => true } := by
  rw [ServedConnection.step, Connection.step, if_pos ⟨hreading, hheld, hnodup, hkeys, by simp,
    by simp, by simp⟩]
  exact if_pos hframed

/-- The next response has no frame. -/
theorem step_writerFails {s : ServedConnection} {r : ℕ} {response : ResponseEnvelope}
    {rest : List (ℕ × ResponseEnvelope)} (hencode : codec.encode = ResponseEnvelope.encodeFrame)
    (hnext : s.outgoing = (r, response) :: rest) (hwriting : s.tasks.writing)
    (hsize : defaultMaxFrameBytes < response.encodeFrame.length) :
    s.step plain codec 64 .writerFails =
      some { s with tasks := { s.tasks with writing := false }, outgoing := [] } := by
  have hfails : writeMessage codec defaultMaxFrameBytes response =
      .error (.invalidFrameLength response.encodeFrame.length defaultMaxFrameBytes) := by
    rw [writeMessage, hencode, if_pos fun h => not_le.mpr hsize h.2]
  have hframe : s.nextFrame codec = some (r, .error
      (.invalidFrameLength response.encodeFrame.length defaultMaxFrameBytes)) := by
    rw [ServedConnection.nextFrame, hnext, List.head?_cons, Option.map_some, hfails]
  rw [ServedConnection.step, Connection.step, if_pos hwriting, Option.bind_some,
    ServedConnection.move, hframe]

/-! ### The saves -/

/-- A text that can be a request id and a key. -/
def PlainKey (key : String) : Prop :=
  Text.blank key = false ∧ key.utf8ByteSize ≤ maxIdempotencyKeyBytes

instance (key : String) : Decidable (PlainKey key) := inferInstanceAs (Decidable (_ ∧ _))

def playerWrite (key : String) (payload : Bytes) : SnapshotWrite :=
  ⟨key, ⟨"player", key⟩, "profile", 1, payload, none, 10⟩

def playerSnapshot (key : String) (payload : Bytes) : SnapshotEnvelope :=
  ⟨⟨"player", key⟩, "profile", 1, 1, payload, 10⟩

theorem playerSave_toSnapshotWrite {key : String} (hkey : PlainKey key) (payload : Bytes) :
    (playerSave key payload).toSnapshotWrite = .ok (playerWrite key payload) := by
  have hns : validateText "player" "record.namespace" maxNamespaceBytes = .ok () := by decide
  have hrecord : (⟨"player", key⟩ : WireRecordKey).toCore = .ok ⟨"player", key⟩ := by
    have hsize : key.utf8ByteSize ≤ maxRecordKeyBytes := hkey.2.trans (by decide)
    simp only [WireRecordKey.toCore, hns, validateText_eq_ok.mpr ⟨hkey.1, hsize⟩, RecordKey.new,
      hkey.1]
    rfl
  simp only [WireSaveSnapshotRequest.toSnapshotWrite, playerSave, hrecord,
    validateText_eq_ok.mpr hkey]
  rfl

/-- The handler of a save waits for its one call. -/
theorem dispatchSave_run {key : String} {payload : Bytes} (hkey : PlainKey key)
    (hsize : payload.length ≤ defaultMaxPayloadBytes) :
    ∃ next, (dispatchBody plain defaultMaxPayloadBytes (saveEnvelope key payload).body).run =
      .call (.save (playerWrite key payload)) next := by
  have hchecked : validatePayloadSize "save_snapshot.payload"
      (playerSave key payload).payload.length defaultMaxPayloadBytes = .ok () :=
    if_neg (not_lt.mpr hsize)
  rw [saveEnvelope, dispatchBody, dispatchSaveSnapshot, hchecked, playerSave_toSnapshotWrite hkey]
  exact ⟨_, rfl⟩

theorem run_acceptSave (key : String) {payload : Bytes}
    (hsize : payload.length ≤ defaultMaxPayloadBytes) :
    ∃ t, run (ServedConnection.step plain codec 64) (.init 64) (acceptSave key payload) = some t ∧
      t.tasks.phase 0 = some .running ∧ t.handlers 0 =
        some (dispatchBody plain defaultMaxPayloadBytes (saveEnvelope key payload).body).run := by
  have hframed : RequestBody.Framed (saveEnvelope key payload).body := by
    rintro _ ⟨⟩ bytes hbytes
    rw [List.mem_singleton.mp hbytes]
    exact hsize.trans (by decide)
  exact ⟨_, run_cons_eq_some.mpr ⟨_, rfl, run_cons_eq_some.mpr ⟨_, step_admitRequest plain codec rfl
    rfl (List.nodup_singleton _) rfl hframed, rfl⟩⟩, rfl, rfl⟩

/-- A save of a new record under a new id is stored. -/
theorem perform_save {store : MemoryBackend cfg} {key : String} (hkey : PlainKey key)
    (payload : Bytes) (hrecord : store.view.snapshots ⟨"player", key⟩ = none)
    (hid : store.view.snapshotReceipts key = none) :
    (perform store (.save (playerWrite key payload))).2.view =
      store.view.save cfg (playerWrite key payload) := by
  have hrevision : store.view.revision (playerWrite key payload).record = 0 := by
    rw [StoreView.revision, show store.view.snapshots (playerWrite key payload).record = none from
      hrecord]
    rfl
  have hcall : Flat.call cfg store.view (.save (playerWrite key payload)) =
      .ok (.applied 1, store.view.save cfg (playerWrite key payload)) := by
    refine (Flat.save_first hid _).mpr ⟨⟨hkey.1, rfl, ?_⟩, ?_⟩
    · rw [hrevision]
      decide
    · rw [hrevision]
  have hrefines := memoryCall_refines store (.save (playerWrite key payload))
  rw [hcall] at hrefines
  obtain ⟨store', hrun, hview⟩ := hrefines
  rw [perform, hrun]
  exact hview

/-- One save. -/
theorem run_savePlayer {c : ℕ} {key : String} {payload : Bytes} (hkey : PlainKey key)
    (hsize : payload.length ≤ defaultMaxPayloadBytes) (hfresh : s.connections c = .init 64)
    (hrecord : s.store.view.snapshots ⟨"player", key⟩ = none)
    (hid : s.store.view.snapshotReceipts key = none) :
    ∃ t, run (step plain codec 64) s ((acceptSave key payload).map (.connection c) ++
        [.call c 0]) = some t ∧
      t.store.view = s.store.view.save cfg (playerWrite key payload) ∧
      ∀ c' ≠ c, t.connections c' = s.connections c' := by
  obtain ⟨connection, hconnection, hphase, hhandler⟩ :=
    run_acceptSave plain codec key hsize
  obtain ⟨next, hdispatch⟩ := dispatchSave_run plain hkey hsize
  rw [hdispatch] at hhandler
  rw [← hfresh] at hconnection
  refine ⟨_, run_append.mpr ⟨_, run_connection plain codec s.store
    s.connections hconnection,
    run_cons_eq_some.mpr ⟨_, step_call plain codec hphase hhandler, rfl⟩⟩,
    perform_save hkey payload hrecord hid, fun c' hc' => ?_⟩
  exact Function.update_of_ne hc' _ _

/-- The saves of new players store a snapshot of each. -/
theorem run_savePlayers {payload : Bytes} (hsize : payload.length ≤ defaultMaxPayloadBytes) :
    ∀ {keys : List String} {c : ℕ} {s : Server cfg}, keys.Nodup → (∀ key ∈ keys, PlainKey key ∧
        s.store.view.snapshots ⟨"player", key⟩ = none ∧ s.store.view.snapshotReceipts key = none) →
      (∀ c' ≥ c, s.connections c' = .init 64) →
      ∃ t, run (step plain codec 64) s (savePlayers payload c keys) = some t ∧
        (∀ key, t.store.view.snapshots ⟨"player", key⟩ =
          if key ∈ keys then some (playerSnapshot key payload)
          else s.store.view.snapshots ⟨"player", key⟩) ∧
        ∀ c' ≥ c + keys.length, t.connections c' = .init 64
  | [], c, s, _, _, hfresh => ⟨s, rfl, fun key => by simp, hfresh⟩
  | key :: keys, c, s, hnodup, hnew, hfresh => by
    obtain ⟨⟨hkey, hrecord, hid⟩, hrest⟩ := List.forall_mem_cons.mp hnew
    rw [List.nodup_cons] at hnodup
    obtain ⟨m, hm, hview, hothers⟩ := run_savePlayer plain codec hkey hsize
      (hfresh c le_rfl) hrecord hid
    have hsnapshot : ∀ other, m.store.view.snapshots ⟨"player", other⟩ =
        if other = key then some (playerSnapshot key payload)
        else s.store.view.snapshots ⟨"player", other⟩ := by
      intro other
      rw [hview, StoreView.save]
      by_cases hsame : other = key
      · subst hsame
        have hrevision : s.store.view.revision ⟨"player", other⟩ = 0 := by
          rw [StoreView.revision, hrecord]
          rfl
        rw [if_pos rfl]
        exact (Function.update_self ..).trans (congrArg
          (fun n => some { playerSnapshot other payload with revision := n + 1 }) hrevision)
      · rw [if_neg hsame]
        exact Function.update_of_ne (fun h => hsame (congrArg RecordKey.key h)) _ _
    have hnew' : ∀ other ∈ keys, PlainKey other ∧
        m.store.view.snapshots ⟨"player", other⟩ = none ∧
        m.store.view.snapshotReceipts other = none := by
      intro other hother
      have hne : other ≠ key := fun h => hnodup.1 (h ▸ hother)
      obtain ⟨hplain, habsent, hreceipt⟩ := hrest other hother
      refine ⟨hplain, by rwa [hsnapshot, if_neg hne], ?_⟩
      rw [hview]
      exact (Function.update_of_ne hne _ _).trans hreceipt
    have hfresh' : ∀ c' ≥ c + 1, m.connections c' = .init 64 := by
      intro c' hc'
      rw [hothers c' (by omega)]
      exact hfresh c' (by omega)
    obtain ⟨t, hrun, hstored, hlast⟩ := run_savePlayers hsize hnodup.2 hnew' hfresh'
    refine ⟨t, run_append.mpr ⟨m, hm, hrun⟩, fun other => ?_, fun c' hc' => hlast c' ?_⟩
    · rw [hstored, hsnapshot]
      by_cases hother : other ∈ keys
      · rw [if_pos hother, if_pos (List.mem_cons_of_mem _ hother)]
      · by_cases hsame : other = key
        · rw [if_neg hother, if_pos hsame, if_pos (hsame ▸ List.mem_cons_self), hsame]
        · rw [if_neg hother, if_neg hsame, if_neg (by simp [hother, hsame])]
    · rw [List.length_cons] at hc'
      omega

/-! ### The reads -/

/-- What a batch read of the players finds. -/
def playerSnapshots (payload : Bytes) : List (Option SnapshotEnvelope) :=
  eightPlayers.map fun key => some (playerSnapshot key payload)

theorem dispatchBatch_run : ∃ next,
    (dispatchBody plain defaultMaxPayloadBytes batchEnvelope.body).run =
      .call (.loadMulti (eightPlayers.map fun key => ⟨"player", key⟩)) next ∧
    ∀ payload, next (.ok (playerSnapshots payload)) =
      .done (.ok (batchResponse (playerSnapshots payload))) :=
  ⟨_, rfl, fun _ => rfl⟩

theorem dispatchOther_run : ∃ next,
    (dispatchBody plain defaultMaxPayloadBytes otherEnvelope.body).run =
      .call (.load ⟨"player", "z"⟩) next ∧ next (.ok none) = .done (.ok (.loadSnapshot none)) :=
  ⟨_, rfl, rfl⟩

/-- Both handlers have ended. -/
def bothEnded (s : ServedConnection) (first second : Except RpcFailure ResponseBody) :
    ServedConnection :=
  { s with
    handlers := Function.update (Function.update s.handlers 0 (some (.done first))) 1
      (some (.done second)) }

/-- Both reads, up to the point where their responses are in the channel. -/
theorem run_reads : ∃ t,
    run (ServedConnection.step plain codec 64) (.init 64) acceptReads = some t ∧
    t.tasks.phase 0 = some .running ∧ t.tasks.phase 1 = some .running ∧
    t.handlers 0 = some (dispatchBody plain defaultMaxPayloadBytes batchEnvelope.body).run ∧
    t.handlers 1 = some (dispatchBody plain defaultMaxPayloadBytes otherEnvelope.body).run ∧
    ∀ first second, ∃ t', run (ServedConnection.step plain codec 64) (bothEnded t first second)
        answerReads = some t' ∧
      t'.outgoing = [(0, responseEnvelope 7 first), (1, responseEnvelope 8 second)] ∧
      t'.written = [] ∧ t'.tasks.writing ∧ t'.tasks.phase 1 = some .answered :=
  ⟨_, rfl, rfl, rfl, rfl, rfl, fun _ _ => ⟨_, rfl, rfl, rfl, rfl, rfl⟩⟩

/-- A call that only reads. -/
theorem perform_read (store : MemoryBackend cfg) (call : BackendCall) {a : call.Value}
    (h : Flat.call cfg store.view call = .ok (a, store.view)) :
    ∃ store', perform store call = (.ok a, store') ∧ store'.view = store.view := by
  have hrefines := memoryCall_refines store call
  rw [h] at hrefines
  obtain ⟨store', hrun, hview⟩ := hrefines
  exact ⟨store', by rw [perform, hrun], hview⟩

/-- The calls of two handlers that end with them. -/
theorem run_twoCalls {store store0 store1 : MemoryBackend cfg} (connections : ℕ → ServedConnection)
    {connection : ServedConnection} {call0 call1 : BackendCall}
    {next0 : call0.Reply → HandlerRun} {next1 : call1.Reply → HandlerRun} {a0 : call0.Value}
    {a1 : call1.Value} {first second : Except RpcFailure ResponseBody}
    (hphase0 : connection.tasks.phase 0 = some .running)
    (hphase1 : connection.tasks.phase 1 = some .running)
    (hhandler0 : connection.handlers 0 = some (.call call0 next0))
    (hhandler1 : connection.handlers 1 = some (.call call1 next1))
    (hperform0 : perform store call0 = (.ok a0, store0))
    (hperform1 : perform store0 call1 = (.ok a1, store1))
    (hnext0 : next0 (.ok a0) = .done first) (hnext1 : next1 (.ok a1) = .done second) :
    run (step plain codec 64) ⟨store, Function.update connections 8 connection⟩
        [.call 8 0, .call 8 1] =
      some ⟨store1, Function.update connections 8 (bothEnded connection first second)⟩ := by
  refine run_cons_eq_some.mpr ⟨_, step_call plain codec hphase0 hhandler0, ?_⟩
  rw [hperform0]
  simp only [resumed, hnext0]
  refine run_cons_eq_some.mpr ⟨_, step_call plain codec hphase1 hhandler1, ?_⟩
  rw [hperform1]
  simp only [resumed, hnext1]
  rfl

theorem run_readTogether {store : MemoryBackend cfg} {connections : ℕ → ServedConnection}
    {payload : Bytes} (hfresh : connections 8 = .init 64)
    (hstored : ∀ key, store.view.snapshots ⟨"player", key⟩ =
      if key ∈ eightPlayers then some (playerSnapshot key payload) else none) :
    ∃ store' connection, run (step plain codec 64) (⟨store, connections⟩ : Server cfg)
        readTogether = some ⟨store', Function.update connections 8 connection⟩ ∧
      (∃ rest, connection.outgoing =
        (0, responseEnvelope 7 (.ok (batchResponse (playerSnapshots payload)))) :: rest) ∧
      connection.written = [] ∧ connection.tasks.writing ∧
      connection.tasks.phase 1 = some .answered := by
  obtain ⟨t, haccept, hphase0, hphase1, hhandler0, hhandler1, hends⟩ :=
    run_reads plain codec
  obtain ⟨next0, hbatch, hnext0⟩ := dispatchBatch_run plain
  obtain ⟨next1, hother, hnext1⟩ := dispatchOther_run plain
  rw [hbatch] at hhandler0
  rw [hother] at hhandler1
  -- the batch read finds all the players, the other read finds nothing
  have hfound : (eightPlayers.map fun key => (⟨"player", key⟩ : RecordKey)).map
      store.view.snapshots = playerSnapshots payload := by
    rw [List.map_map]
    exact List.map_congr_left fun key hkey => by rw [Function.comp_apply, hstored, if_pos hkey]
  obtain ⟨store0, hperform0, hview0⟩ := perform_read store
    (.loadMulti (eightPlayers.map fun key => ⟨"player", key⟩)) rfl
  rw [hfound] at hperform0
  have habsent : store0.view.snapshots ⟨"player", "z"⟩ = none := by
    rw [hview0, hstored, if_neg (by decide)]
  obtain ⟨store1, hperform1, -⟩ := perform_read store0 (.load ⟨"player", "z"⟩) rfl
  rw [habsent] at hperform1
  obtain ⟨t', hanswers, houtgoing, hwritten, hwriting, hanswered⟩ :=
    hends (.ok (batchResponse (playerSnapshots payload))) (.ok (.loadSnapshot none))
  have hcalls := run_twoCalls plain codec connections hphase0 hphase1 hhandler0 hhandler1 hperform0
    hperform1 (hnext0 payload) hnext1
  rw [← hfresh] at haccept
  have haccepted := run_connection plain codec store connections haccept
  have hlast := run_connection plain codec store1 (Function.update connections 8 (bothEnded t _ _))
    (by rwa [Function.update_self])
  rw [Function.update_idem] at hlast
  exact ⟨store1, t', run_append.mpr ⟨_, run_append.mpr ⟨_, haccepted, hcalls⟩, hlast⟩,
    ⟨_, houtgoing⟩, hwritten, hwriting, hanswered⟩

/-! ### A batch read that does not fit -/

theorem lt_batchFrameBytes {payload : Bytes} (hsize : payload.length = defaultMaxPayloadBytes) :
    defaultMaxFrameBytes < batchFrameBytes 7 (playerSnapshots payload) := by
  have hentry : ∀ n ∈ (playerSnapshots payload).map entryBytes, defaultMaxPayloadBytes ≤ n := by
    intro n hn
    rw [playerSnapshots, List.map_map] at hn
    obtain ⟨key, -, rfl⟩ := List.mem_map.mp hn
    have hpayload := Protobuf.le_contentBytes 5 payload.length
    have hsnapshot : payload.length ≤ snapshotBytes (playerSnapshot key payload) :=
      hpayload.trans ((Nat.le_add_left _ _).trans (Nat.le_add_right _ _))
    exact hsize.symm.trans_le (hsnapshot.trans ((Protobuf.lt_delimitedBytes 1 _).trans
      (Protobuf.lt_delimitedBytes 1 _)).le)
  have hsum := List.card_nsmul_le_sum _ _ hentry
  rw [List.length_map, smul_eq_mul, playerSnapshots, List.length_map] at hsum
  have height : defaultMaxFrameBytes ≤ eightPlayers.length * defaultMaxPayloadBytes := by decide
  calc defaultMaxFrameBytes ≤ ((playerSnapshots payload).map entryBytes).sum := height.trans hsum
    _ < Protobuf.delimitedBytes 17 ((playerSnapshots payload).map entryBytes).sum :=
      Protobuf.lt_delimitedBytes 17 _
    _ ≤ (Protobuf.numberField 1 7).length +
        Protobuf.delimitedBytes 17 ((playerSnapshots payload).map entryBytes).sum :=
      Nat.le_add_left _ _
    _ < batchFrameBytes 7 (playerSnapshots payload) := Protobuf.lt_delimitedBytes 2 _

/-- A payload of the largest size. -/
def largestPayload : Bytes := List.replicate defaultMaxPayloadBytes 0

/-- Eight saves of it, then both reads. -/
def breakingRun : List ServerEvent :=
  savePlayers largestPayload 0 eightPlayers ++ (readTogether ++ [.connection 8 .writerFails])

/-- The writer fails at the batch read, and the other read is never answered. -/
theorem run_breakingRun (cfg : MemoryConfig D)
    (hencode : codec.encode = ResponseEnvelope.encodeFrame) :
    ∃ s, run (step plain codec 64) (init 64 : Server cfg) breakingRun = some s ∧
      (s.connections 8).tasks.phase 1 = some .answered ∧ (s.connections 8).outgoing = [] ∧
      (s.connections 8).written = [] ∧ (s.connections 8).tasks.writing = false := by
  have hsize : largestPayload.length = defaultMaxPayloadBytes := List.length_replicate
  obtain ⟨⟨store, connections⟩, hsaves, hstored, hfresh⟩ := run_savePlayers plain codec
    hsize.le (c := 0) (s := (init 64 : Server cfg)) (show eightPlayers.Nodup by decide)
    (fun key hkey => ⟨by revert key; decide, rfl, rfl⟩) fun _ _ => rfl
  obtain ⟨store', connection, hreads, ⟨rest, hnext⟩, hwritten, hwriting, hanswered⟩ :=
    run_readTogether plain codec (hfresh 8 (by decide)) hstored
  have hlong : defaultMaxFrameBytes < (responseEnvelope 7
      (.ok (batchResponse (playerSnapshots largestPayload)))).encodeFrame.length := by
    rw [length_batchFrame]
    exact lt_batchFrameBytes hsize
  have hfails := step_writerFails plain codec hencode hnext hwriting hlong
  refine ⟨⟨store', Function.update connections 8 { connection with
    tasks := { connection.tasks with writing := false }, outgoing := [] }⟩,
    run_append.mpr ⟨_, hsaves, run_append.mpr ⟨_, hreads, run_cons_eq_some.mpr ⟨_, ?_, rfl⟩⟩⟩, ?_⟩
  · simp only [step, Function.update_self, hfails, Option.map_some, Function.update_idem]
  · simp only [Function.update_self]
    exact ⟨hanswered, trivial, hwritten, trivial⟩

end Runs

end Server

end DbProxy
