/-
# Messages on the control socket

`control.rs` says what the command line and the background service write to each
other: a line with a request, and a line with the response. Both are what `serde`
makes of the types, fields that are left out when there is nothing in them included,
and `serde` reads them back.

A response that was cut short is none: what is written of an object before its brace
is no JSON text.

Key definitions: `Control.requestText`, `Control.responseText`, `Control.readLine`,
`Control.readRequest`, `Control.readResponse`.
Key theorems: `Control.readRequest_requestText`, `Control.readResponse_responseText`,
`Control.readResponse_cut`.
-/
import ShuvTunnel.Config
import ShuvTunnel.HttpApi
import Mathlib.Data.String.Basic

namespace Json

/-- White space behind an object is read over. -/
theorem run_spaces (v : Value) {spaces : List Char} (h : ∀ c ∈ spaces, isSpace c = true) :
    run (complete v []) spaces = some (complete v []) := by
  induction spaces with
  | nil => rfl
  | cons c cs ih =>
    have hc : feed (complete v []) c = some (complete v []) := by
      simp [complete, feed, feedAfter, h c List.mem_cons_self]
    show (feed (complete v []) c).bind _ = _
    rw [hc]
    exact ih fun d hd => h d (List.mem_cons_of_mem _ hd)

variable {fields : List (String × Value)}

theorem run_print_object (h : Printable (.object fields)) :
    run start (print (.object fields)) = some (complete (.object fields) []) := by
  obtain ⟨t, hrun, hcomp⟩ := run_print h []
  cases fields with
  | nil => rfl
  | cons f fields =>
    cases h with
    | object h =>
      have hopen : feed ⟨.firstName, []⟩ '"' = some ⟨.text .start (.name []), []⟩ := rfl
      obtain ⟨t', hrun', hclose⟩ := run_members_print (fun f hf => run_print (h f hf)) (List.cons_ne_nil f fields) hopen
      show run ⟨.firstName, []⟩ (commas (printMembers (f :: fields)) ++ ['}']) = _
      rw [run_append_of hrun']
      show (feed t' '}').bind _ = _
      rw [hclose]
      rfl

theorem parse_print_object (h : Printable (.object fields)) {spaces : List Char}
    (hspaces : ∀ c ∈ spaces, isSpace c = true) : parse (print (.object fields) ++ spaces) = some (.object fields) := by
  unfold parse
  rw [run_append_of (run_print_object h), run_spaces _ hspaces]
  rfl

/-- No strict beginning of a printed object is a JSON text. -/
theorem parse_print_cut (h : Printable (.object fields)) {us ws : List Char}
    (hcut : print (.object fields) = us ++ ws) (hws : ws ≠ []) : parse us = none := by
  unfold parse
  cases hus : run start us with
  | none => rfl
  | some s =>
    cases hf : finish s with
    | none => exact hf
    | some v =>
      have hrun := run_print_object h
      rw [hcut, run_append_of hus] at hrun
      have hmem : '}' ∈ ws := by
        have hlast : (us ++ ws).getLast? = some '}' := by
          rw [← hcut]
          show ('{' :: commas (printMembers fields) ++ ['}']).getLast? = _
          exact List.getLast?_concat
        rw [List.getLast?_append_of_ne_nil us hws] at hlast
        exact List.mem_of_getLast? hlast
      exact absurd hmem ((ended_of_finish hf).run hrun)

end Json

namespace ShuvTunnel

/-! ### Routes in order -/

namespace Routes

/-- The keys come in order, none of them twice. -/
def Ordered (routes : Routes) : Prop := routes.Pairwise fun x y => x.1 < y.1

variable {name target : String} {routes : Routes}

theorem key_of_mem_insert {x : String × String} (h : x ∈ routes.insert name target) :
    x.1 = name ∨ x ∈ routes := by
  induction routes with
  | nil => exact .inl (by rw [List.mem_singleton.mp h])
  | cons y routes ih =>
    unfold insert at h
    split at h
    · rcases List.mem_cons.mp h with rfl | h
      · exact .inl rfl
      · exact .inr h
    · split at h
      · rcases List.mem_cons.mp h with rfl | h
        · exact .inl rfl
        · exact .inr (List.mem_cons_of_mem _ h)
      · rcases List.mem_cons.mp h with rfl | h
        · exact .inr List.mem_cons_self
        · exact (ih h).imp_right (List.mem_cons_of_mem _)

theorem Ordered.insert (h : routes.Ordered) (name target : String) : (routes.insert name target).Ordered := by
  induction routes with
  | nil => exact List.pairwise_singleton _ _
  | cons y routes ih =>
    obtain ⟨hy, hroutes⟩ := List.pairwise_cons.mp h
    unfold Routes.insert
    split
    · rename_i hlt
      refine List.pairwise_cons.mpr ⟨fun x hx => ?_, h⟩
      rcases List.mem_cons.mp hx with rfl | hx
      · exact hlt
      · exact lt_trans hlt (hy x hx)
    · split
      · rename_i heq
        exact List.pairwise_cons.mpr ⟨fun x hx => heq ▸ hy x hx, hroutes⟩
      · rename_i hlt hne
        refine List.pairwise_cons.mpr ⟨fun x hx => ?_, ih hroutes⟩
        rcases key_of_mem_insert hx with he | hx
        · exact he ▸ lt_of_le_of_ne (not_lt.mp hlt) (Ne.symm hne)
        · exact hy x hx

/-- A key behind all others comes last. -/
theorem insert_last (h : ∀ x ∈ routes, x.1 < name) (target : String) :
    routes.insert name target = routes ++ [(name, target)] := by
  induction routes with
  | nil => rfl
  | cons y routes ih =>
    have hy := h y List.mem_cons_self
    unfold insert
    rw [if_neg (lt_asymm hy), if_neg (ne_of_gt hy), ih fun x hx => h x (List.mem_cons_of_mem _ hx)]
    rfl

end Routes

/-- A `BTreeMap` and its order. -/
def RouteMap := { routes : Routes // routes.Ordered }

instance : DecidableEq RouteMap := inferInstanceAs (DecidableEq { routes : Routes // routes.Ordered })

namespace RouteMap

/-- No routes. -/
def empty : RouteMap := ⟨[], List.Pairwise.nil⟩

/-- `BTreeMap::insert`: an entry of that name is replaced. -/
def insert (m : RouteMap) (name target : String) : RouteMap := ⟨m.1.insert name target, m.2.insert name target⟩

end RouteMap

/-! ### The types -/

namespace Control

/-- `ControlCommand`. -/
inductive Command
  | status
  | reload
  | stop
  deriving DecidableEq

/-- `DaemonPhase`. -/
inductive Phase
  | noTunnel
  | provisioning
  | running
  | stopped
  deriving DecidableEq

/-- "Mirror of `shuvtunnel::Status` that can also be deserialized." -/
structure TunnelStatus where
  state : String
  hostname : String
  routes : RouteMap
  session : Option String
  connections : UInt64
  lastError : Option String
  connectedAt : Option UInt64
  deriving DecidableEq

/-- `DaemonStatus`, the daemon as `status` shows it. -/
structure DaemonStatus where
  pid : UInt32
  version : String
  profile : String
  phase : Phase
  tunnel : Option TunnelStatus
  lastError : Option String
  startedAt : UInt64
  deriving DecidableEq

/-- `ControlResponse`. -/
structure Response where
  ok : Bool
  status : Option DaemonStatus
  error : Option String
  deriving DecidableEq

/-! ### What is written -/

/-- The variant in kebab case. -/
def Command.text : Command → String
  | status => "status"
  | reload => "reload"
  | stop => "stop"

/-- The variant in kebab case. -/
def Phase.text : Phase → String
  | noTunnel => "no-tunnel"
  | provisioning => "provisioning"
  | running => "running"
  | stopped => "stopped"

/-- A `None` that is written. -/
def written : Option Json.Value → Json.Value
  | none => .null
  | some v => v

/-- A field that is left out with a `None` in it. -/
def unlessNone (name : String) (v : Option Json.Value) : List (String × Json.Value) :=
  v.toList.map fun v => (name, v)

/-- The fields of a tunnel's status as serde writes them; an option that is none
is `null`. -/
def TunnelStatus.fields (t : TunnelStatus) : List (String × Json.Value) :=
  [("state", .string t.state), ("hostname", .string t.hostname),
    ("routes", .object (t.routes.1.map fun x => (x.1, .string x.2))),
    ("session", written (t.session.map .string)), ("connections", .nat t.connections.toNat),
    ("last_error", written (t.lastError.map .string)),
    ("connected_at", written (t.connectedAt.map fun n => .nat n.toNat))]

/-- The fields of a daemon's status; an option that is none is left out. -/
def DaemonStatus.fields (d : DaemonStatus) : List (String × Json.Value) :=
  [("pid", .nat d.pid.toNat), ("version", .string d.version), ("profile", .string d.profile),
    ("phase", .string d.phase.text)] ++ unlessNone "tunnel" (d.tunnel.map fun t => .object t.fields) ++
    unlessNone "last_error" (d.lastError.map .string) ++ [("started_at", .nat d.startedAt.toNat)]

/-- The fields of a response; an option that is none is left out. -/
def Response.fields (r : Response) : List (String × Json.Value) :=
  [("ok", .bool r.ok)] ++ unlessNone "status" (r.status.map fun d => .object d.fields) ++
    unlessNone "error" (r.error.map .string)

/-- The line that `request` writes. -/
def requestText (command : Command) : List Char :=
  Json.print (.object [("command", .string command.text)]) ++ ['\n']

/-- The line that `handle` writes. -/
def responseText (r : Response) : List Char := Json.print (.object r.fields) ++ ['\n']

/-! ### What is read -/

section Fields

variable {α : Type} (decode : Json.Value → Option α) (fields : List (String × Json.Value)) (name : String)

/-- A field that has to be there. -/
def required : Option α := (Rust.Api.field fields name).bind fun x => x.bind decode

/-- An `Option`, which may be left out. -/
def optional : Option (Option α) :=
  (Rust.Api.field fields name).bind fun
    | none | some .null => some none
    | some v => (decode v).map some

end Fields

/-- A variant without fields, alone or with the `null` of its contents. -/
def variant : Json.Value → Option String
  | .string s => some s
  | .object [(name, .null)] => some name
  | _ => none

/-- Reads a `ControlCommand`. -/
def command (v : Json.Value) : Option Command :=
  (variant v).bind fun
    | "status" => some .status
    | "reload" => some .reload
    | "stop" => some .stop
    | _ => none

/-- Reads a `DaemonPhase`. -/
def phase (v : Json.Value) : Option Phase :=
  (variant v).bind fun
    | "no-tunnel" => some .noTunnel
    | "provisioning" => some .provisioning
    | "running" => some .running
    | "stopped" => some .stopped
    | _ => none

/-- Reads a `bool`. -/
def bool? : Json.Value → Option Bool
  | .bool b => some b
  | _ => none

/-- A number without a sign, a fraction and an exponent, up to a bound. -/
def natBelow (bound : ℕ) : Json.Value → Option ℕ
  | .number text =>
    if text.all Char.isDigit ∧ Nat.ofDigitChars 10 text 0 < bound then some (Nat.ofDigitChars 10 text 0) else none
  | _ => none

/-- Reads a `u32`. -/
def u32 (v : Json.Value) : Option UInt32 := (natBelow UInt32.size v).map .ofNat

/-- Reads a `u64`. -/
def u64 (v : Json.Value) : Option UInt64 := (natBelow UInt64.size v).map .ofNat

/-- The entries of a map, one after the other. -/
def collect : List (String × Json.Value) → RouteMap → Option RouteMap
  | [], m => some m
  | (name, v) :: fields, m => v.string?.bind fun target => collect fields (m.insert name target)

/-- Reads the map of the routes. -/
def routes : Json.Value → Option RouteMap
  | .object fields => collect fields .empty
  | _ => none

/-- Reads a `TunnelStatus`. -/
def tunnelStatus : Json.Value → Option TunnelStatus
  | .object fields =>
    (required Json.Value.string? fields "state").bind fun state =>
      (required Json.Value.string? fields "hostname").bind fun hostname =>
      (required routes fields "routes").bind fun routes =>
      (optional Json.Value.string? fields "session").bind fun session =>
      (required u64 fields "connections").bind fun connections =>
      (optional Json.Value.string? fields "last_error").bind fun lastError =>
      (optional u64 fields "connected_at").map fun connectedAt =>
        ⟨state, hostname, routes, session, connections, lastError, connectedAt⟩
  | _ => none

/-- Reads a `DaemonStatus`. -/
def daemonStatus : Json.Value → Option DaemonStatus
  | .object fields =>
    (required u32 fields "pid").bind fun pid =>
      (required Json.Value.string? fields "version").bind fun version =>
      (required Json.Value.string? fields "profile").bind fun profile =>
      (required phase fields "phase").bind fun phase =>
      (optional tunnelStatus fields "tunnel").bind fun tunnel =>
      (optional Json.Value.string? fields "last_error").bind fun lastError =>
      (required u64 fields "started_at").map fun startedAt =>
        ⟨pid, version, profile, phase, tunnel, lastError, startedAt⟩
  | _ => none

/-- Reads the request of a line. -/
def request : Json.Value → Option Command
  | .object fields => required command fields "command"
  | _ => none

/-- Reads a `ControlResponse`. -/
def response : Json.Value → Option Response
  | .object fields =>
    (required bool? fields "ok").bind fun ok =>
      (optional daemonStatus fields "status").bind fun status =>
      (optional Json.Value.string? fields "error").map fun error => ⟨ok, status, error⟩
  | _ => none

/-- `read_line`, of what `take` lets through: up to a newline, the end of the stream or
the limit, which may not fall inside a character. -/
def readLine (limit : ℕ) : List Char → Bool → Option (List Char)
  | [], ended => if limit = 0 ∨ ended = true then some [] else none
  | c :: cs, ended =>
    if limit = 0 then some []
    else if limit < c.utf8Size then none
    else if c = '\n' then some [c]
    else (readLine (limit - c.utf8Size) cs ended).map (c :: ·)

/-- The command of a line, when the line is a request. -/
def readRequest (line : List Char) : Option Command := (Json.parse line).bind request

/-- The response of what a connection was sent, when it is one. -/
def readResponse (text : List Char) : Option Response := (Json.parse text).bind response

/-! ### What was written is read -/

section Fields

variable {α : Type} {decode : Json.Value → Option α} {fields : List (String × Json.Value)} {name : String}
  {v : Json.Value}

theorem optional_of {x : α} (h : Rust.Api.field fields name = some (some v)) (hx : decode v = some x)
    (hnull : decode .null = none) : optional decode fields name = some (some x) := by
  rw [optional, h]
  cases v with
  | null =>
    rw [hnull] at hx
    cases hx
  | _ => exact congrArg (Option.map some) hx

theorem optional_written {o : Option α} {value : α → Json.Value}
    (h : Rust.Api.field fields name = some (some (written (o.map value)))) (hx : ∀ x, decode (value x) = some x)
    (hnull : decode .null = none) : optional decode fields name = some o := by
  cases o with
  | none =>
    rw [optional, h]
    rfl
  | some x => exact optional_of h (hx x) hnull

end Fields

theorem natBelow_nat {n bound : ℕ} (h : n < bound) : natBelow bound (.nat n) = some n := by
  have hdigits : (Nat.toDigits 10 n).all Char.isDigit = true :=
    List.all_eq_true.mpr fun c hc => Nat.isDigit_of_mem_toDigits (by decide) (by decide) hc
  have hread : Nat.ofDigitChars 10 (Nat.toDigits 10 n) 0 = n := Nat.ofDigitChars_toDigits (by decide) (by decide)
  unfold natBelow Json.Value.nat
  simp [hdigits, hread, h]

theorem u32_nat (n : UInt32) : u32 (.nat n.toNat) = some n := by
  rw [u32, natBelow_nat n.toNat_lt]
  simp

theorem u64_nat (n : UInt64) : u64 (.nat n.toNat) = some n := by
  rw [u64, natBelow_nat n.toNat_lt]
  simp

theorem collect_map {before rest : Routes} {m : RouteMap} (h : (before ++ rest).Ordered) (hm : m.1 = before) :
    collect (rest.map fun x => (x.1, .string x.2)) m = some ⟨before ++ rest, h⟩ := by
  induction rest generalizing before m with
  | nil => exact congrArg some (Subtype.ext (hm.trans (List.append_nil before).symm))
  | cons x rest ih =>
    have hlast : ∀ y ∈ before, y.1 < x.1 := fun y hy =>
      (List.pairwise_append.mp h).2.2 y hy x List.mem_cons_self
    have happend : before ++ x :: rest = before ++ [x] ++ rest := by simp
    have hinsert : (m.insert x.1 x.2).1 = before ++ [x] := by
      show m.1.insert x.1 x.2 = _
      rw [hm]
      exact Routes.insert_last hlast x.2
    show collect (rest.map _) (m.insert x.1 x.2) = _
    rw [ih (happend ▸ h) hinsert]
    simp only [happend]

theorem routes_value (m : RouteMap) : routes (.object (m.1.map fun x => (x.1, .string x.2))) = some m := by
  have h : Routes.Ordered ([] ++ m.1) := m.2
  exact collect_map h rfl

theorem tunnelStatus_fields (t : TunnelStatus) : tunnelStatus (.object t.fields) = some t := by
  have hstate : required Json.Value.string? t.fields "state" = some t.state := rfl
  have hhostname : required Json.Value.string? t.fields "hostname" = some t.hostname := rfl
  have hroutes : required routes t.fields "routes" = some t.routes := routes_value t.routes
  have hsession : optional Json.Value.string? t.fields "session" = some t.session :=
    optional_written rfl (fun _ => rfl) rfl
  have hconnections : required u64 t.fields "connections" = some t.connections := u64_nat t.connections
  have hlast : optional Json.Value.string? t.fields "last_error" = some t.lastError :=
    optional_written rfl (fun _ => rfl) rfl
  have hconnected : optional u64 t.fields "connected_at" = some t.connectedAt := optional_written rfl u64_nat rfl
  simp only [tunnelStatus, hstate, hhostname, hroutes, hsession, hconnections, hlast, hconnected, Option.bind_some,
    Option.map_some]

theorem phase_text (p : Phase) : phase (.string p.text) = some p := by cases p <;> rfl

theorem daemonStatus_fields (d : DaemonStatus) : daemonStatus (.object d.fields) = some d := by
  obtain ⟨pid, version, profile, phase', tunnel, lastError, startedAt⟩ := d
  generalize hd : DaemonStatus.mk pid version profile phase' tunnel lastError startedAt = d
  have hpid : required u32 d.fields "pid" = some pid := by
    subst hd
    cases tunnel <;> cases lastError <;> exact u32_nat pid
  have hversion : required Json.Value.string? d.fields "version" = some version := by
    subst hd
    cases tunnel <;> cases lastError <;> rfl
  have hprofile : required Json.Value.string? d.fields "profile" = some profile := by
    subst hd
    cases tunnel <;> cases lastError <;> rfl
  have hphase : required phase d.fields "phase" = some phase' := by
    subst hd
    cases tunnel <;> cases lastError <;> exact phase_text phase'
  have htunnel : optional tunnelStatus d.fields "tunnel" = some tunnel := by
    subst hd
    cases tunnel with
    | none => cases lastError <;> rfl
    | some t => cases lastError <;> exact optional_of rfl (tunnelStatus_fields t) rfl
  have hlast : optional Json.Value.string? d.fields "last_error" = some lastError := by
    subst hd
    cases tunnel <;> cases lastError <;> rfl
  have hstarted : required u64 d.fields "started_at" = some startedAt := by
    subst hd
    cases tunnel <;> cases lastError <;> exact u64_nat startedAt
  simp only [daemonStatus, hpid, hversion, hprofile, hphase, htunnel, hlast, hstarted, Option.bind_some,
    Option.map_some, hd]

theorem response_fields (r : Response) : response (.object r.fields) = some r := by
  obtain ⟨ok, status, error⟩ := r
  generalize hr : Response.mk ok status error = r
  have hok : required bool? r.fields "ok" = some ok := by
    subst hr
    cases status <;> cases error <;> rfl
  have hstatus : optional daemonStatus r.fields "status" = some status := by
    subst hr
    cases status with
    | none => cases error <;> rfl
    | some d => cases error <;> exact optional_of rfl (daemonStatus_fields d) rfl
  have herror : optional Json.Value.string? r.fields "error" = some error := by
    subst hr
    cases status <;> cases error <;> rfl
  simp only [response, hok, hstatus, herror, Option.bind_some, Option.map_some, hr]

/-! ### The texts -/

theorem printable_written {o : Option Json.Value} (h : ∀ v ∈ o, Json.Printable v) : Json.Printable (written o) := by
  cases o with
  | none => exact .null
  | some v => exact h v rfl

/-- The fields all of whose values are printed. -/
def Printed (fields : List (String × Json.Value)) : Prop := ∀ f ∈ fields, Json.Printable f.2

theorem printed_unlessNone {name : String} {o : Option Json.Value} (h : ∀ v ∈ o, Json.Printable v) :
    Printed (unlessNone name o) := by
  intro f hf
  obtain ⟨v, hv, rfl⟩ := List.mem_map.mp hf
  exact h v (Option.mem_toList.mp hv)

theorem Printed.append {fields fields' : List (String × Json.Value)} (h : Printed fields) (h' : Printed fields') :
    Printed (fields ++ fields') := fun f hf => (List.mem_append.mp hf).elim (h f) (h' f)

theorem printable_map {α : Type} {o : Option α} {value : α → Json.Value} (h : ∀ x, Json.Printable (value x)) :
    ∀ v ∈ o.map value, Json.Printable v := by
  intro v hv
  obtain ⟨x, -, rfl⟩ := Option.map_eq_some_iff.mp hv
  exact h x

theorem printed_tunnelStatus (t : TunnelStatus) : Printed t.fields := by
  intro f hf
  simp only [TunnelStatus.fields, List.mem_cons, List.not_mem_nil, or_false] at hf
  rcases hf with rfl | rfl | rfl | rfl | rfl | rfl | rfl
  · exact .string _
  · exact .string _
  · exact printable_texts _
  · exact printable_written (printable_map fun s => .string s)
  · exact .nat _
  · exact printable_written (printable_map fun s => .string s)
  · exact printable_written (printable_map fun n => .nat n.toNat)

theorem printed_daemonStatus (d : DaemonStatus) : Printed d.fields := by
  have hhead : Printed [("pid", .nat d.pid.toNat), ("version", .string d.version), ("profile", .string d.profile),
      ("phase", .string d.phase.text)] := by
    intro f hf
    simp only [List.mem_cons, List.not_mem_nil, or_false] at hf
    rcases hf with rfl | rfl | rfl | rfl
    · exact .nat _
    · exact .string _
    · exact .string _
    · exact .string _
  have htunnel : Printed (unlessNone "tunnel" (d.tunnel.map fun t => .object t.fields)) :=
    printed_unlessNone (printable_map fun t => .object (printed_tunnelStatus t))
  have hlast : Printed (unlessNone "last_error" (d.lastError.map .string)) :=
    printed_unlessNone (printable_map fun s => .string s)
  have hstarted : Printed [("started_at", .nat d.startedAt.toNat)] := by
    intro f hf
    rw [List.mem_singleton.mp hf]
    exact .nat _
  exact ((hhead.append htunnel).append hlast).append hstarted

theorem printed_response (r : Response) : Printed r.fields := by
  have hok : Printed [("ok", .bool r.ok)] := by
    intro f hf
    rw [List.mem_singleton.mp hf]
    exact .bool _
  exact (hok.append (printed_unlessNone (printable_map fun d => .object (printed_daemonStatus d)))).append
    (printed_unlessNone (printable_map fun s => .string s))

/-- The service reads the command of a request from the line that holds it. -/
theorem readLine_requestText (command : Command) (ended : Bool) :
    readLine 4096 (requestText command) ended = some (requestText command) := by
  cases command <;> cases ended <;> decide

theorem readRequest_requestText (command : Command) : readRequest (requestText command) = some command := by
  cases command <;> rfl

/-- Of a request that is still coming there is no line. -/
theorem readLine_nil : readLine 4096 [] false = none := rfl

theorem isSpace_newline : ∀ c ∈ ['\n'], Json.isSpace c = true := by
  intro c hc
  rw [List.mem_singleton.mp hc]
  rfl

/-- The command line reads the response that the service wrote. -/
theorem readResponse_responseText (r : Response) : readResponse (responseText r) = some r := by
  unfold readResponse responseText
  rw [Json.parse_print_object (.object (printed_response r)) isSpace_newline, Option.bind_some, response_fields]

/-- And none from a part of it, the newline apart. -/
theorem readResponse_cut {r r' : Response} {us ws : List Char} (hcut : responseText r = us ++ ws)
    (h : readResponse us = some r') : r' = r := by
  have hprintable := Json.Printable.object (printed_response r)
  rcases List.append_eq_append_iff.mp hcut with ⟨vs, rfl, hvs⟩ | ⟨vs, hprint, rfl⟩
  · have hspaces : ∀ c ∈ vs, Json.isSpace c = true := fun c hc =>
      isSpace_newline c (hvs ▸ List.mem_append_left ws hc)
    rw [readResponse, Json.parse_print_object hprintable hspaces, Option.bind_some, response_fields] at h
    exact (Option.some.inj h).symm
  · cases vs with
    | nil =>
      rw [readResponse, ← hprint.trans (List.append_nil us), Json.parse_print hprintable, Option.bind_some,
        response_fields] at h
      exact (Option.some.inj h).symm
    | cons c vs =>
      rw [readResponse, Json.parse_print_cut hprintable hprint (List.cons_ne_nil c vs)] at h
      cases h

end Control
end ShuvTunnel
