/-
# The bridge's messages

What a bridge socket carries: the client's messages, as the object reads
them, and the server's. A text frame is a JSON text; the object parses it
with `JSON.parse`, whose value the model takes as given (`none` when the text
does not parse). A binary frame is a connection number and a payload
(`bridge-protocol.ts`, `parseDataFrame`).

Route names are checked here too (`validRoute`).
-/
import ShuvTunnel.Record

namespace ShuvTunnel

/-- The bytes of a frame or a stream. -/
abbrev Bytes := List UInt8

/-! ### JSON -/

/-- A JSON value, with its numbers as they are meant. -/
inductive Json
  | null
  | bool (b : Bool)
  | num (x : ℚ)
  | str (s : String)
  | arr (xs : List Json)
  | obj (fields : List (String × Json))

namespace Json

/-- The last field of that name counts, as in `JSON.parse`. -/
def field : Json → String → Option Json
  | obj fields, name => fields.reverse.lookup name
  | _, _ => none

/-- `typeof x === "string"`. -/
def string? : Json → Option String
  | str s => some s
  | _ => none

/-- `typeof x === "number"`. -/
def number? : Json → Option ℚ
  | num x => some x
  | _ => none

/-- `typeof x === "object" && x !== null`. -/
def isObject : Json → Bool
  | arr _ => true
  | obj _ => true
  | _ => false

end Json

/-- A control message: the value its text parses to, when that is an object. -/
def parseControl (message : Option Json) : Option Json := message.filter (·.isObject)

/-! ### Sets of strings -/

/-- `[...new Set(xs)]`: each element once, in the order of its first
occurrence. -/
def setOf {α : Type*} [DecidableEq α] (xs : List α) : List α :=
  xs.foldl (fun acc x => if x ∈ acc then acc else acc ++ [x]) []

theorem nodup_foldl_insert {α : Type*} [DecidableEq α] : ∀ (xs acc : List α), acc.Nodup →
    (xs.foldl (fun acc x => if x ∈ acc then acc else acc ++ [x]) acc).Nodup
  | [], _, h => h
  | x :: xs, acc, h => by
    refine nodup_foldl_insert xs _ ?_
    beta_reduce
    split
    · exact h
    · rename_i hx
      exact List.nodup_append.mpr ⟨h, by simp, fun a ha b hb => by
        obtain rfl := List.mem_singleton.mp hb
        exact fun hab => hx (hab ▸ ha)⟩

theorem setOf_nodup {α : Type*} [DecidableEq α] (xs : List α) : (setOf xs).Nodup :=
  nodup_foldl_insert xs [] List.nodup_nil

/-! ### Routes -/

/-- `[a-z0-9]`. -/
def lowerAlnum (c : Char) : Bool := ('a' ≤ c && c ≤ 'z') || ('0' ≤ c && c ≤ '9')

/-- `^[a-z0-9](?:[a-z0-9-]{0,61}[a-z0-9])?$`. -/
def labelRegex : List Char → Bool
  | [] => false
  | c :: cs => lowerAlnum c && match cs.getLast? with
    | none => true
    | some z => lowerAlnum z && cs.dropLast.length ≤ 61 && cs.dropLast.all fun x => lowerAlnum x || x = '-'

/-- `validRoute` of the object. -/
def validRoute (route : String) : Bool := route = "@" || labelRegex route.toList

/-- A label holds no dot. -/
theorem not_mem_dot_of_labelRegex {cs : List Char} (h : labelRegex cs = true) : '.' ∉ cs := by
  cases cs with
  | nil => simp
  | cons c cs =>
    simp only [labelRegex, Bool.and_eq_true] at h
    obtain ⟨h1, h2⟩ := h
    have hdot : lowerAlnum '.' = false := by decide
    have hc : '.' ≠ c := fun he => by rw [← he, hdot] at h1; cases h1
    rcases List.eq_nil_or_concat' cs with rfl | ⟨ds, z, rfl⟩
    · simpa using hc
    · rw [List.getLast?_concat] at h2
      simp only [List.dropLast_concat, Bool.and_eq_true, List.all_eq_true, Bool.or_eq_true,
        decide_eq_true_eq] at h2
      obtain ⟨⟨hz, -⟩, hall⟩ := h2
      have hz' : '.' ≠ z := fun he => by rw [← he, hdot] at hz; cases hz
      have hds : '.' ∉ ds := fun hm => by
        rcases hall _ hm with h | h
        · rw [hdot] at h; cases h
        · revert h; decide
      simp [hc, hz', hds]

/-- A valid route name is not empty and holds no dot, so `connect` can serve
it. -/
theorem validRoute_spec {route : String} (h : validRoute route = true) :
    route ≠ "" ∧ '.' ∉ route.toList := by
  simp only [validRoute, Bool.or_eq_true, decide_eq_true_eq] at h
  rcases h with rfl | h
  · decide
  · exact ⟨fun he => by rw [he] at h; revert h; decide, not_mem_dot_of_labelRegex h⟩

/-! ### Messages -/

/-- A message from a client: a text frame or a binary one. -/
inductive Message
  | text (value : Option Json)
  | binary (data : Bytes)

/-- A message to a client. -/
inductive ServerMessage
  | pong (time_sent : ℚ)
  | attachError (code : String)
  | attached (session : String) (routes : List String) (heartbeat_ms idle_timeout_ms : ℕ)
  | openConn (conn : ℕ) (peer : String) (sni : Option String) (alpn : String)
  | endConn (conn : ℕ)
  | resetConn (conn : ℕ) (code : String)
  | dataFrame (conn : ℕ) (payload : Bytes)
  deriving DecidableEq

/-- The connection a message is about. -/
def ServerMessage.conn? : ServerMessage → Option ℕ
  | openConn conn .. | endConn conn | resetConn conn _ | dataFrame conn _ => some conn
  | _ => none

/-- `BridgeTiming`. -/
def HEARTBEAT_MS : ℕ := 15000

/-- A bridge that says nothing for this long is closed. -/
def IDLE_TIMEOUT_MS : ℕ := 45000

/-- `DataFrame.CONN_ID_SIZE`. -/
def CONN_ID_SIZE : ℕ := 4

/-- `getUint32(0, false)`: the first four bytes, big-endian. -/
def getUint32 (data : Bytes) : ℕ := (data.take CONN_ID_SIZE).foldl (fun n b => 256 * n + b.toNat) 0

/-- The connection and the payload of a binary frame. -/
def parseDataFrame (data : Bytes) : Option (ℕ × Bytes) :=
  if data.length < CONN_ID_SIZE then none else some (getUint32 data, data.drop CONN_ID_SIZE)

end ShuvTunnel
