/-
# Data frames and the messages of the clients

A data frame is a connection number in four bytes, big-endian, and a payload
(`bridge-protocol.ts`, `bridge.rs`). A client sends control messages and data
frames in one order on its WebSocket; about one connection these are the pieces
of a stream, its end and its reset.

Key definitions: `buildDataFrame`, `sendDataChunks`, `ClientMessage`, `pieces`.
Key theorems: `parseDataFrame_build`, `decode_data_frame_build`,
`sendDataChunks_flatten`.
-/
import ShuvTunnel.ClientHello
import ShuvTunnel.Lib.Hop
import ShuvTunnel.Lib.Wire

namespace ShuvTunnel

/-! ### Frames -/

/-- `DataFrame.MAX_PAYLOAD_SIZE`, and `MAX_PAYLOAD_SIZE` of `bridge.rs`. -/
def MAX_PAYLOAD_SIZE : ℕ := 32768

/-- `setUint32(0, conn, false)`, and the payload behind it. -/
def buildDataFrame (conn : ℕ) (payload : Bytes) : Bytes := Wire.be CONN_ID_SIZE conn ++ payload

namespace Rust

/-- `conn.to_be_bytes()`, and the payload behind it. -/
def encode_data_frame (conn : ℕ) (payload : Bytes) : Bytes := Wire.be CONN_ID_SIZE conn ++ payload

/-- `frame.split_at_checked(CONN_ID_SIZE)`, and `from_be_bytes` of its head. -/
def decode_data_frame (frame : Bytes) : Option (ℕ × Bytes) :=
  if CONN_ID_SIZE ≤ frame.length then some (Wire.ofBe (frame.take CONN_ID_SIZE), frame.drop CONN_ID_SIZE) else none

end Rust

theorem take_build (conn : ℕ) (payload : Bytes) :
    (buildDataFrame conn payload).take CONN_ID_SIZE = Wire.be CONN_ID_SIZE conn := by
  unfold buildDataFrame
  exact List.take_left' (Wire.length_be _ _)

theorem drop_build (conn : ℕ) (payload : Bytes) : (buildDataFrame conn payload).drop CONN_ID_SIZE = payload := by
  unfold buildDataFrame
  exact List.drop_left' (Wire.length_be _ _)

theorem length_build (conn : ℕ) (payload : Bytes) : CONN_ID_SIZE ≤ (buildDataFrame conn payload).length := by
  unfold buildDataFrame
  simp

/-- A number of 32 bits survives the header, in TypeScript. -/
theorem parseDataFrame_build {conn : ℕ} (h : conn < 2 ^ 32) (payload : Bytes) :
    parseDataFrame (buildDataFrame conn payload) = some (conn, payload) := by
  have hconn : getUint32 (buildDataFrame conn payload) = conn := by
    have hread : Wire.ofBe (Wire.be CONN_ID_SIZE conn) = conn := Wire.ofBe_be h
    show Wire.ofBe ((buildDataFrame conn payload).take CONN_ID_SIZE) = conn
    rw [take_build, hread]
  unfold parseDataFrame
  rw [if_neg (Nat.not_lt.mpr (length_build conn payload)), hconn, drop_build]

/-- And in Rust. -/
theorem decode_data_frame_build {conn : ℕ} (h : conn < 2 ^ 32) (payload : Bytes) :
    Rust.decode_data_frame (buildDataFrame conn payload) = some (conn, payload) := by
  have hread : Wire.ofBe (Wire.be CONN_ID_SIZE conn) = conn := Wire.ofBe_be h
  unfold Rust.decode_data_frame
  rw [if_pos (length_build conn payload), take_build, drop_build, hread]

/-! ### Cutting a write into payloads -/

/-- `for (offset = 0; offset < data.byteLength; offset += MAX_PAYLOAD_SIZE)`,
from an offset on. -/
def sendDataLoop (data : Bytes) : ℕ → ℕ → List Bytes
  | 0, _ => []
  | turns + 1, offset =>
    if offset < data.length then
      subarray data offset (offset + MAX_PAYLOAD_SIZE) :: sendDataLoop data turns (offset + MAX_PAYLOAD_SIZE)
    else []

/-- The payloads of `sendData`; the loop takes at most a turn for each byte. -/
def sendDataChunks (data : Bytes) : List Bytes := sendDataLoop data data.length 0

theorem sendDataLoop_flatten {data : Bytes} {turns offset : ℕ} (h : data.length ≤ turns + offset) :
    (sendDataLoop data turns offset).flatten = data.drop offset := by
  induction turns generalizing offset with
  | zero => simp [sendDataLoop, List.drop_eq_nil_of_le (by omega : data.length ≤ offset)]
  | succ turns ih =>
    have hmax : 0 < MAX_PAYLOAD_SIZE := by decide
    unfold sendDataLoop
    by_cases hlt : offset < data.length
    · have hsub : subarray data offset (offset + MAX_PAYLOAD_SIZE) = (data.drop offset).take MAX_PAYLOAD_SIZE := by
        unfold subarray
        simp
      rw [if_pos hlt, List.flatten_cons, ih (by omega), hsub, ← List.drop_drop]
      exact List.take_append_drop _ _
    · rw [if_neg hlt, List.drop_eq_nil_of_le (by omega)]
      rfl

/-- The payloads are the write, cut. -/
theorem sendDataChunks_flatten (data : Bytes) : (sendDataChunks data).flatten = data := by
  unfold sendDataChunks
  rw [sendDataLoop_flatten (by omega)]
  simp

theorem sendDataLoop_length {data : Bytes} {turns offset : ℕ} :
    ∀ payload ∈ sendDataLoop data turns offset, payload.length ≤ MAX_PAYLOAD_SIZE := by
  induction turns generalizing offset with
  | zero => exact fun _ h => nomatch h
  | succ turns ih =>
    unfold sendDataLoop
    split
    · intro payload hp
      rcases List.mem_cons.mp hp with rfl | hp
      · unfold subarray
        rw [Nat.add_sub_cancel_left]
        exact List.length_take_le _ _
      · exact ih payload hp
    · exact fun _ h => nomatch h

/-- No payload is longer than a frame may carry. -/
theorem sendDataChunks_length {data payload : Bytes} (h : payload ∈ sendDataChunks data) :
    payload.length ≤ MAX_PAYLOAD_SIZE :=
  sendDataLoop_length payload h

/-! ### Messages -/

/-- A message from a client. -/
inductive ClientMessage
  | attach (token : String) (routes : List String)
  | ping (time_sent : ℕ)
  | endConn (conn : ℕ)
  | resetConn (conn : ℕ) (code : String)
  | dataFrame (conn : ℕ) (payload : Bytes)
  deriving DecidableEq

namespace ClientMessage

/-- What the object is sent. -/
def message : ClientMessage → Message
  | attach token routes =>
    .text (some (.obj [("type", .str "attach"), ("token", .str token), ("routes", .arr (routes.map .str))]))
  | ping time_sent => .text (some (.obj [("type", .str "ping"), ("time_sent", .num time_sent)]))
  | endConn conn => .text (some (.obj [("type", .str "end"), ("conn", .num conn)]))
  | resetConn conn code => .text (some (.obj [("type", .str "reset"), ("conn", .num conn), ("code", .str code)]))
  | dataFrame conn payload => .binary (buildDataFrame conn payload)

/-- The connection the message is about. -/
def conn? : ClientMessage → Option ℕ
  | endConn conn | resetConn conn _ | dataFrame conn _ => some conn
  | _ => none

/-- The piece of the connection's stream it is. -/
def piece : ClientMessage → Hop.Piece UInt8
  | dataFrame _ payload => .data payload
  | endConn _ => .fin
  | _ => .abort

end ClientMessage

/-- What the messages are to the stream of one connection. -/
def pieces (n : ℕ) (ms : List ClientMessage) : List (Hop.Piece UInt8) :=
  (ms.filter fun m => m.conn? = some n).map (·.piece)

@[simp] theorem pieces_nil (n : ℕ) : pieces n [] = [] := rfl

theorem pieces_append (n : ℕ) (ms ms' : List ClientMessage) : pieces n (ms ++ ms') = pieces n ms ++ pieces n ms' := by
  simp [pieces]

theorem pieces_cons_of_eq {n : ℕ} {m : ClientMessage} (h : m.conn? = some n) (ms : List ClientMessage) :
    pieces n (m :: ms) = m.piece :: pieces n ms := by
  simp [pieces, h]

theorem pieces_cons_of_ne {n : ℕ} {m : ClientMessage} (h : m.conn? ≠ some n) (ms : List ClientMessage) :
    pieces n (m :: ms) = pieces n ms := by
  simp [pieces, h]

theorem pieces_of_forall_ne {n : ℕ} {ms : List ClientMessage} (h : ∀ m ∈ ms, m.conn? ≠ some n) : pieces n ms = [] := by
  unfold pieces
  rw [List.filter_eq_nil_iff.mpr fun m hm => by simpa using h m hm]
  rfl

theorem pieces_mono {n : ℕ} {ms ms' : List ClientMessage} (h : ms <+: ms') : pieces n ms <+: pieces n ms' := by
  obtain ⟨rest, rfl⟩ := h
  rw [pieces_append]
  exact List.prefix_append _ _

theorem pieces_dataFrames (n : ℕ) (payloads : List Bytes) :
    pieces n (payloads.map (.dataFrame n)) = payloads.map .data := by
  induction payloads with
  | nil => rfl
  | cons payload payloads ih =>
    rw [List.map_cons, pieces_cons_of_eq rfl, ih]
    rfl

end ShuvTunnel
