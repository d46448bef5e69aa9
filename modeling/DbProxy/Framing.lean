/-
Frames on a connection (`read_message` and `write_message` of
`dbproxy-protocol`).

A message is sent as its length, four bytes big-endian, and its protobuf bytes.
The reader takes the first byte of a length in a read of its own: if there is
none the peer has closed between two frames, and everything after it has to
come in full.

* `readMessage_frame` — a frame is read as its message;
* `readMessage_cut` — a part of a frame is an error;
* `framing_unambiguous` — a stream of frames, cut anywhere and arriving in any
  chunks.

Outside the repository: protobuf, the parameter `MessageCodec`.
-/
import DbProxy.Checks
import DbProxy.ChunkReader
import DbProxy.CoreTypes

namespace DbProxy

open ChunkReader

/-- `encode_to_vec` and `decode` of a message type. -/
structure MessageCodec (μ : Type) where
  encode : μ → Bytes
  decode : Bytes → Except String μ

/-- What `ProtocolError` says about a frame. -/
inductive FrameError
  | unexpectedEof
  | invalidFrameLength (length maximum : ℕ)
  | decode (text : String)
deriving DecidableEq

/-- `u32::to_be_bytes`. -/
def toBeBytes (n : ℕ) : Bytes :=
  [UInt8.ofNat (n / 16777216), UInt8.ofNat (n / 65536), UInt8.ofNat (n / 256), UInt8.ofNat n]

/-- `u32::from_be_bytes`. -/
def fromBeBytes (bytes : Bytes) : ℕ := bytes.foldl (fun n b => 256 * n + b.toNat) 0

section Frames

variable {μ : Type} (codec : MessageCodec μ) (maximum : ℕ)

/-- The bytes that `write_message` writes. -/
def writeMessage (message : μ) : Except FrameError Bytes :=
  let payload := codec.encode message
  if ¬ (1 ≤ payload.length ∧ payload.length ≤ maximum) then
    .error (.invalidFrameLength payload.length maximum)
  -- `u32::try_from(payload.len())`
  else if 4294967296 ≤ payload.length then .error (.invalidFrameLength payload.length maximum)
  else .ok (toBeBytes payload.length ++ payload)

/-- `read_message`, with what it leaves of the stream. -/
def readMessage (chunks : List Bytes) : Except FrameError (Option μ) × List Bytes :=
  let (first, chunks) := read 1 chunks
  if first.length = 0 then (.ok none, chunks)
  else
    match readExact 3 chunks with
    | none => (.error .unexpectedEof, [])
    | some (others, chunks) =>
      let length := fromBeBytes (first ++ others)
      if ¬ (1 ≤ length ∧ length ≤ maximum) then
        (.error (.invalidFrameLength length maximum), chunks)
      else
        match readExact length chunks with
        | none => (.error .unexpectedEof, [])
        | some (payload, chunks) =>
          match codec.decode payload with
          | .error text => (.error (.decode text), chunks)
          | .ok message => (.ok (some message), chunks)

/-- Read messages until the stream ends or fails, in at most so many calls; `none` if they do
not suffice. -/
def readMessages : ℕ → List Bytes → Option (List μ × Except FrameError Unit)
  | 0, _ => none
  | calls + 1, chunks =>
    match readMessage codec maximum chunks with
    | (.error e, _) => some ([], .error e)
    | (.ok none, _) => some ([], .ok ())
    | (.ok (some message), chunks) =>
      (readMessages calls chunks).map fun (messages, result) => (message :: messages, result)

end Frames

/-! ### Lengths -/

theorem length_toBeBytes (n : ℕ) : (toBeBytes n).length = 4 := rfl

theorem fromBeBytes_toBeBytes {n : ℕ} (h : n < 4294967296) : fromBeBytes (toBeBytes n) = n := by
  simp only [fromBeBytes, toBeBytes, List.foldl_cons, List.foldl_nil, UInt8.toNat_ofNat']
  omega

section Frames

variable {μ : Type} {codec : MessageCodec μ} {maximum : ℕ} {message : μ} {frame : Bytes}

theorem writeMessage_ok (h : writeMessage codec maximum message = .ok frame) :
    frame = toBeBytes (codec.encode message).length ++ codec.encode message ∧
      1 ≤ (codec.encode message).length ∧ (codec.encode message).length ≤ maximum ∧
      (codec.encode message).length < 4294967296 := by
  rw [writeMessage] at h
  split_ifs at h with hbounds hwide
  obtain rfl := Except.ok.inj h
  exact ⟨rfl, hbounds.1, hbounds.2, by omega⟩

/-! ### One message -/

theorem readMessage_end {chunks : List Bytes} (hchunks : WellFormed chunks)
    (hflatten : chunks.flatten = []) : (readMessage codec maximum chunks).1 = .ok none := by
  rw [readMessage, read_of_flatten_nil hchunks hflatten]
  rfl

/-- The length of a frame, and what follows it. -/
theorem readMessage_length {chunks : List Bytes} {n : ℕ} {rest : Bytes} (hn : n < 4294967296)
    (hchunks : WellFormed chunks) (hflatten : chunks.flatten = toBeBytes n ++ rest) :
    ∃ left, WellFormed left ∧ left.flatten = rest ∧ readMessage codec maximum chunks =
      if ¬ (1 ≤ n ∧ n ≤ maximum) then (.error (.invalidFrameLength n maximum), left)
      else (readExact n left).elim (.error .unexpectedEof, []) fun (payload, chunks) =>
        ((codec.decode payload).mapError .decode |>.map some, chunks) := by
  -- the first byte of the length is read alone, to tell the end of the stream
  obtain ⟨after, hread, hafter, hothers⟩ := read_one hchunks hflatten
  obtain ⟨left, hexact, hleft, hrest⟩ := readExact_of_le (n := 3) hafter (by
    rw [hothers]
    simp)
  refine ⟨left, hleft, ?_, ?_⟩
  · rw [hrest, hothers]
    rfl
  have hlength : fromBeBytes ([UInt8.ofNat (n / 16777216)] ++ after.flatten.take 3) = n := by
    rw [hothers]
    exact fromBeBytes_toBeBytes hn
  rw [readMessage, hread]
  dsimp only
  rw [if_neg (by simp), hexact]
  dsimp only
  rw [hlength]
  split
  · rfl
  · cases readExact n left with
    | none => rfl
    | some result =>
      obtain ⟨payload, chunks⟩ := result
      dsimp only [Option.elim]
      cases codec.decode payload <;> rfl

/-- A length that is zero or too large is refused before anything else is read. -/
theorem readMessage_refuses {chunks : List Bytes} {n : ℕ} {rest : Bytes} (hn : n < 4294967296)
    (hbad : n = 0 ∨ maximum < n) (hchunks : WellFormed chunks)
    (hflatten : chunks.flatten = toBeBytes n ++ rest) :
    ∃ left, readMessage codec maximum chunks =
      (.error (.invalidFrameLength n maximum), left) ∧ left.flatten = rest := by
  obtain ⟨left, -, hrest, hread⟩ := readMessage_length hn hchunks hflatten
  refine ⟨left, ?_, hrest⟩
  rw [hread, if_pos (by omega)]

/-- A frame is read as its message. -/
theorem readMessage_frame {chunks : List Bytes} {rest : Bytes}
    (hcodec : codec.decode (codec.encode message) = .ok message)
    (hframe : writeMessage codec maximum message = .ok frame) (hchunks : WellFormed chunks)
    (hflatten : chunks.flatten = frame ++ rest) :
    ∃ left, readMessage codec maximum chunks = (.ok (some message), left) ∧ WellFormed left ∧
      left.flatten = rest := by
  obtain ⟨rfl, hpos, hmax, hwide⟩ := writeMessage_ok hframe
  rw [List.append_assoc] at hflatten
  obtain ⟨left, hleft, hpayload, hread⟩ := readMessage_length hwide hchunks hflatten
  obtain ⟨after, hexact, hafter, hrest⟩ := readExact_of_le (n := (codec.encode message).length)
    hleft (by
      rw [hpayload, List.length_append]
      omega)
  refine ⟨after, ?_, hafter, ?_⟩
  · rw [hread, if_neg (by omega), hexact, hpayload, List.take_left]
    dsimp only [Option.elim]
    rw [hcodec]
    rfl
  · rw [hrest, hpayload, List.drop_left]

/-- A part of a frame is an error. -/
theorem readMessage_cut {chunks : List Bytes} {k : ℕ}
    (hframe : writeMessage codec maximum message = .ok frame) (hchunks : WellFormed chunks)
    (hpos : 0 < k) (hcut : k < frame.length) (hflatten : chunks.flatten = frame.take k) :
    (readMessage codec maximum chunks).1 = .error .unexpectedEof := by
  obtain ⟨rfl, hone, hmax, hwide⟩ := writeMessage_ok hframe
  set payload := codec.encode message
  have hlength := length_toBeBytes payload.length
  by_cases hheader : k < 4
  · -- the length is not complete
    obtain ⟨a, elements, hcons⟩ := List.exists_cons_of_ne_nil (l := chunks.flatten) (by
      intro hnil
      have hlen := congrArg List.length hflatten
      rw [hnil, List.length_take, List.length_append] at hlen
      simp only [List.length_nil] at hlen
      omega)
    obtain ⟨after, hread, -, hafter⟩ := read_one hchunks hcons
    have hshort : after.flatten.length < 3 := by
      have hlen := congrArg List.length hflatten
      rw [hcons, List.length_take, List.length_cons] at hlen
      rw [hafter]
      omega
    rw [readMessage, hread]
    dsimp only
    rw [if_neg (by simp), readExact_of_lt hshort]
  · -- the payload is not complete
    have hsplit : chunks.flatten = toBeBytes payload.length ++ payload.take (k - 4) := by
      rw [hflatten, List.take_append, List.take_of_length_le (by omega), hlength]
    obtain ⟨left, -, hpayload, hread⟩ := readMessage_length hwide hchunks hsplit
    have hshort : left.flatten.length < payload.length := by
      rw [List.length_append] at hcut
      rw [hpayload, List.length_take]
      omega
    rw [hread, if_neg (by omega), readExact_of_lt hshort]
    rfl

/-! ### A stream of messages -/

theorem readMessages_succ_end {chunks : List Bytes} {calls : ℕ}
    (h : (readMessage codec maximum chunks).1 = .ok none) :
    readMessages codec maximum (calls + 1) chunks = some ([], .ok ()) := by
  rw [readMessages]
  split
  · simp_all
  · rfl
  · simp_all

theorem readMessages_succ_error {chunks : List Bytes} {calls : ℕ} {e : FrameError}
    (h : (readMessage codec maximum chunks).1 = .error e) :
    readMessages codec maximum (calls + 1) chunks = some ([], .error e) := by
  rw [readMessages]
  split
  · simp_all
  · simp_all
  · simp_all

theorem readMessages_succ_message {chunks left : List Bytes} {calls : ℕ}
    (h : readMessage codec maximum chunks = (.ok (some message), left)) :
    readMessages codec maximum (calls + 1) chunks =
      (readMessages codec maximum calls left).map
        fun (messages, result) => (message :: messages, result) := by
  rw [readMessages, h]

/-- The frames of the messages, one by one. -/
abbrev WrittenAs (codec : MessageCodec μ) (maximum : ℕ) : List μ → List Bytes → Prop :=
  List.Forall₂ fun message frame => writeMessage codec maximum message = .ok frame

theorem readMessages_frames (hcodec : ∀ message, codec.decode (codec.encode message) = .ok message)
    {messages : List μ} {frames : List Bytes} (hframes : WrittenAs codec maximum messages frames) :
    ∀ {chunks : List Bytes} {calls : ℕ}, WellFormed chunks → chunks.flatten = frames.flatten →
      messages.length < calls →
      readMessages codec maximum calls chunks = some (messages, .ok ()) := by
  induction hframes with
  | nil =>
    intro chunks calls hchunks hflatten hcalls
    obtain ⟨m, rfl⟩ : ∃ m, calls = m + 1 := ⟨calls - 1, by omega⟩
    exact readMessages_succ_end (readMessage_end hchunks hflatten)
  | @cons message frame messages frames hhead htail ih =>
    intro chunks calls hchunks hflatten hcalls
    rw [List.length_cons] at hcalls
    obtain ⟨m, rfl⟩ : ∃ m, calls = m + 1 := ⟨calls - 1, by omega⟩
    obtain ⟨left, hread, hleft, hrest⟩ :=
      readMessage_frame (hcodec message) hhead hchunks hflatten
    rw [readMessages_succ_message hread, ih hleft hrest (by omega), Option.map_some]

/-- The stream ends inside the frame of message `i`. -/
theorem readMessages_cut (hcodec : ∀ message, codec.decode (codec.encode message) = .ok message)
    {messages : List μ} {frames : List Bytes} (hframes : WrittenAs codec maximum messages frames) :
    ∀ {cut : ℕ}, cut < frames.flatten.length →
      (∀ i ≤ frames.length, cut ≠ (frames.take i).flatten.length) →
      ∃ i, i < messages.length ∧ (frames.take i).flatten.length < cut ∧
        cut < (frames.take (i + 1)).flatten.length ∧
        ∀ (chunks : List Bytes) (calls : ℕ), WellFormed chunks →
          chunks.flatten = frames.flatten.take cut → messages.length < calls →
          readMessages codec maximum calls chunks =
            some (messages.take i, .error .unexpectedEof) := by
  induction hframes with
  | nil =>
    intro cut hcut
    simp at hcut
  | @cons message frame messages frames hhead htail ih =>
    intro cut hcut hboundary
    rw [List.flatten_cons, List.length_append] at hcut
    have hzero : cut ≠ 0 := by simpa using hboundary 0 (by omega)
    have hone : cut ≠ frame.length := by
      have := hboundary 1 (by rw [List.length_cons]; omega)
      simpa using this
    by_cases hlt : cut < frame.length
    · -- the first frame is not complete
      refine ⟨0, by simp, by simp; omega, by simpa using hlt, ?_⟩
      intro chunks calls hchunks hflatten hcalls
      obtain ⟨m, rfl⟩ : ∃ m, calls = m + 1 := ⟨calls - 1, by omega⟩
      rw [List.flatten_cons, List.take_append_of_le_length (by omega)] at hflatten
      exact readMessages_succ_error
        (readMessage_cut hhead hchunks (by omega) hlt hflatten)
    · -- the first message is read
      obtain ⟨i, hi, hlow, hhigh, hread⟩ := @ih (cut - frame.length) (by omega) (by
        intro i hi heq
        refine hboundary (i + 1) (by rw [List.length_cons]; omega) ?_
        rw [List.take_succ_cons, List.flatten_cons, List.length_append]
        omega)
      refine ⟨i + 1, by rw [List.length_cons]; omega, ?_, ?_, ?_⟩
      · rw [List.take_succ_cons, List.flatten_cons, List.length_append]
        omega
      · rw [List.take_succ_cons, List.flatten_cons, List.length_append]
        omega
      · intro chunks calls hchunks hflatten hcalls
        rw [List.length_cons] at hcalls
        obtain ⟨m, rfl⟩ : ∃ m, calls = m + 1 := ⟨calls - 1, by omega⟩
        rw [List.flatten_cons, List.take_append, List.take_of_length_le (by omega)] at hflatten
        obtain ⟨left, hstep, hleft, hrest⟩ :=
          readMessage_frame (hcodec message) hhead hchunks hflatten
        rw [readMessages_succ_message hstep, hread left m hleft hrest (by omega),
          Option.map_some, List.take_succ_cons]

end Frames

/-- **Framing is unambiguous.**  The bytes of a list of messages give these messages and a clean
end, in whatever chunks they arrive; cut between two boundaries, they give the messages before
the cut and an error; and a length outside the limits is an error with the payload unread. -/
theorem framing_unambiguous {μ : Type} (codec : MessageCodec μ)
    (hcodec : ∀ message, codec.decode (codec.encode message) = .ok message) (maximum : ℕ) :
    (∀ (messages : List μ) (frames : List Bytes),
      messages.mapM (writeMessage codec maximum) = .ok frames →
      (∀ (chunks : List Bytes) (calls : ℕ), WellFormed chunks →
        chunks.flatten = frames.flatten → messages.length < calls →
        readMessages codec maximum calls chunks = some (messages, .ok ())) ∧
      ∀ cut < frames.flatten.length,
        (∀ i ≤ frames.length, cut ≠ (frames.take i).flatten.length) →
        ∃ i, i < messages.length ∧ (frames.take i).flatten.length < cut ∧
          cut < (frames.take (i + 1)).flatten.length ∧
          ∀ (chunks : List Bytes) (calls : ℕ), WellFormed chunks →
            chunks.flatten = frames.flatten.take cut → messages.length < calls →
            readMessages codec maximum calls chunks =
              some (messages.take i, .error .unexpectedEof)) ∧
    ∀ (n : ℕ) (rest : Bytes) (chunks : List Bytes), n < 4294967296 → n = 0 ∨ maximum < n →
      WellFormed chunks → chunks.flatten = toBeBytes n ++ rest →
      ∃ left, readMessage codec maximum chunks =
        (.error (.invalidFrameLength n maximum), left) ∧ left.flatten = rest := by
  refine ⟨fun messages frames hframes => ⟨?_, fun cut hcut hboundary => ?_⟩, ?_⟩
  · exact fun chunks calls hchunks hflatten hcalls =>
      readMessages_frames hcodec (Checks.mapM_eq_ok.mp hframes) hchunks hflatten hcalls
  · exact readMessages_cut hcodec (Checks.mapM_eq_ok.mp hframes) hcut hboundary
  · exact fun n rest chunks hn hbad hchunks hflatten =>
      readMessage_refuses hn hbad hchunks hflatten

/-- protobuf of a message whose only field is a `bool` with number 1. -/
def acceptedCodec : MessageCodec Bool where
  encode accepted := if accepted then [8, 1] else []
  decode
    | [] => .ok false
    | [8, 1] => .ok true
    | _ => .error "invalid"

/-- Two messages that arrive byte by byte, and the same without the last two bytes. -/
theorem framing_unambiguous_bytewise :
    readMessages acceptedCodec 16 3 ([0, 0, 0, 2, 8, 1, 0, 0, 0, 2, 8, 1].map ([·])) =
      some ([true, true], .ok ()) ∧
    readMessages acceptedCodec 16 3 ([0, 0, 0, 2, 8, 1, 0, 0, 0, 2].map ([·])) =
      some ([true], .error .unexpectedEof) ∧
    ∃ left, readMessage acceptedCodec 16 [[0, 0, 1], [0, 8]] =
      (.error (.invalidFrameLength 256 16), left) ∧ left.flatten = [8] := by
  have hcodec : ∀ message, acceptedCodec.decode (acceptedCodec.encode message) = .ok message := by
    intro message
    cases message <;> rfl
  obtain ⟨hframes, hlength⟩ := framing_unambiguous acceptedCodec hcodec 16
  obtain ⟨hall, hcut⟩ := hframes [true, true] [[0, 0, 0, 2, 8, 1], [0, 0, 0, 2, 8, 1]] rfl
  refine ⟨hall _ 3 (by simp [WellFormed]) rfl (by decide), ?_,
    hlength 256 [8] _ (by decide) (by decide) (by simp [WellFormed]) rfl⟩
  obtain ⟨i, hi, hlow, hhigh, hread⟩ := hcut 10 (by decide) (by decide)
  have hone : i = 1 := by
    have hi' : i < 2 := hi
    rcases (show i = 0 ∨ i = 1 by omega) with rfl | rfl
    · exact absurd hhigh (by decide)
    · rfl
  subst hone
  exact hread _ 3 (by simp [WellFormed]) rfl (by decide)

end DbProxy
