/-
# The server and the clients resolve a server name

Three pieces of code take a server name apart: the Worker (which tunnel?), the
object's `connect` (which route of the tunnel?), and the client (which of its
routes?). The public names of the routes are resolved alike. They disagree on
two kinds of names: `connect` takes `@` for a label, and compares with the
hostname as it was stored, while the clients lower it.

Key definitions: `Serves`, `SendsOpen`, `OpensFor`, `ResolvesAlike`.
Key theorems: `publicNames`, `sendsOpen_iff`, `resolvesAlike_iff`.
-/
import ShuvTunnel.Names
import ShuvTunnel.Connect

namespace ShuvTunnel

variable {U : Unicode}

/-! ### Public names -/

/-- The Worker finds the tunnel `id` in the name, and its client the route. -/
def ServedBy (U : Unicode) (library : Library) (domain : String) (id : TunnelID) (route sni : String) : Prop :=
  tunnelIDFromHostname U (toLowerCase U sni) domain = some id.value ∧
    library.routeForSni U sni (id.hostname domain) = some route

theorem lower_hostname {domain : String} (hd : toLowerCase U domain = domain) (id : TunnelID) :
    ∀ c ∈ (id.hostname domain).toList, U.Lower c :=
  lower_subdomain id.lower (toLowerCase_eq_self_iff.mp hd)

/-- A client resolves the names that are public names of its routes. -/
theorem Library.routeForSni_public (library : Library) {sni hostname route : String}
    (hr : validRoute route = true) :
    library.routeForSni U sni hostname = some route ↔
      library.lower U sni = publicHostname route (library.lower U hostname) := by
  rw [library.routeForSni_iff]
  unfold publicHostname
  by_cases hroot : route = ROOT_ROUTE
  · have hlabel : labelRegex route.toList = false := by
      rw [hroot]
      decide
    rw [if_pos hroot, hlabel]
    simp [hroot]
  · have hlabel : labelRegex route.toList = true := by
      simp only [validRoute, Bool.or_eq_true, decide_eq_true_eq] at hr
      exact hr.resolve_left hroot
    rw [if_neg hroot, hlabel]
    simp [hroot]

/-- The route `connect` finds: the root route, or what is before the hostname. -/
theorem routeOf_iff {r : StoredTunnel} {sni route : String} :
    Store.routeOf (some r) (some sni) = some route ↔
      (sni = r.hostname ∧ route = ROOT_ROUTE) ∨ sni = subdomain route r.hostname := by
  have hstrip : Store.routeOf (some r) (some sni) =
      if sni = r.hostname then some ROOT_ROUTE
      else (stripSuffix sni.toList ('.' :: r.hostname.toList)).map String.ofList := by
    unfold Store.routeOf stripSuffix
    simp only [Option.map_some, Option.bind_some, Option.getD_some, Option.some.injEq]
    by_cases he : sni = r.hostname
    · rw [if_pos he, if_pos he]
      rfl
    · rw [if_neg he, if_neg he]
      split <;> rfl
  rw [hstrip]
  by_cases he : sni = r.hostname
  · rw [if_pos he, he]
    constructor
    · exact fun h => .inl ⟨rfl, (Option.some.inj h).symm⟩
    · rintro (⟨-, rfl⟩ | h)
      · rfl
      · exact absurd h.symm (subdomain_ne _ _)
  · rw [if_neg he, Option.map_eq_some_iff]
    constructor
    · rintro ⟨label, hl, rfl⟩
      refine .inr ?_
      rw [← String.toList_inj, toList_subdomain, String.toList_ofList]
      exact stripSuffix_eq_some.mp hl
    · rintro (⟨h, -⟩ | h)
      · exact absurd h he
      · exact ⟨route.toList, stripSuffix_eq_some.mpr (by rw [h, toList_subdomain]), String.ofList_toList⟩

/-- The object finds the route in its public name. -/
theorem routeOf_public {r : StoredTunnel} {route : String} :
    Store.routeOf (some r) (some (publicHostname route r.hostname)) = some route := by
  rw [routeOf_iff]
  unfold publicHostname
  split
  · rename_i hroot
    exact .inl ⟨rfl, hroot⟩
  · exact .inr rfl

/-- Public names and pairs of a tunnel and a route are one to one. -/
theorem publicNames (library : Library) {domain : String} (hd : toLowerCase U domain = domain) :
    (∀ (id : TunnelID) (route sni : String), validRoute route = true →
      (∀ c ∈ sni.toList, asciiChar c = true) →
      (ServedBy U library domain id route sni ↔
        toLowerCase U sni = publicHostname route (id.hostname domain))) ∧
    (∀ (id id' : TunnelID) (route route' sni : String), ServedBy U library domain id route sni →
      ServedBy U library domain id' route' sni → id.value = id'.value ∧ route = route') ∧
    (∀ (id : TunnelID) (route : String) (r : StoredTunnel), validRoute route = true →
      r.hostname = id.hostname domain →
      ServedBy U library domain id route (publicHostname route (id.hostname domain)) ∧
        Store.routeOf (some r) (some (publicHostname route (id.hostname domain))) = some route) := by
  refine ⟨fun id route sni hr hs => ?_, fun id id' route route' sni h h' => ?_, fun id route r hr hn => ?_⟩
  · have hlower : library.lower U sni = toLowerCase U sni := by
      cases library with
      | rust => exact (toLowerCase_ascii hs).symm
      | typescript => rfl
    unfold ServedBy
    rw [library.routeForSni_public hr, library.lower_eq_self (lower_hostname hd id), hlower]
    refine ⟨fun h => h.2, fun h => ⟨?_, h⟩⟩
    rw [h]
    exact tunnelIDFromHostname_public hd id hr
  · have hid : id.value = id'.value := Option.some.inj (h.1.symm.trans h'.1)
    have hhost : id.hostname domain = id'.hostname domain := congrArg (subdomain · domain) hid
    have hroute := h'.2
    rw [← hhost] at hroute
    exact ⟨hid, Option.some.inj (h.2.symm.trans hroute)⟩
  · have hl := lower_publicHostname hr (lower_hostname hd id)
    refine ⟨⟨?_, ?_⟩, ?_⟩
    · rw [toLowerCase_eq_self hl]
      exact tunnelIDFromHostname_public hd id hr
    · rw [library.routeForSni_public hr, library.lower_eq_self (lower_hostname hd id)]
      exact library.lower_eq_self hl
    · rw [← hn]
      exact routeOf_public

/-- `api` on a tunnel under a domain of two labels, asked for in capitals. -/
theorem publicNames_api :
    ServedBy plainUnicode .rust "shuv.dev" (.ofSlug [0, 33] (by decide)) "api" "API.ab.shuv.dev" :=
  ((publicNames .rust (U := plainUnicode) (by decide)).1 (.ofSlug [0, 33] (by decide)) "api"
    "API.ab.shuv.dev" (by decide) (List.all_eq_true.mp (by decide))).mpr (by decide)

/-! ### The object sends `open` -/

/-- `connect`, resumed with the ClientHello on the record it read, sends the
bridge `w` its open message. -/
def SendsOpen (P : Platform) (s : Store) (r : StoredTunnel) (hello : Hello) (w : Socket) : Prop :=
  ∃ x o, s.connectHello P (some r) hello = some (x, o) ∧
    ∃ w' ∈ x.bridges.sockets, w'.id = w.id ∧
      ∃ conn frames, w'.sent = w.sent ++ openMessage conn hello :: frames

/-- The open message is sent for `route`. -/
def OpensFor (P : Platform) (s : Store) (r : StoredTunnel) (hello : Hello) (w : Socket) (route : String) : Prop :=
  Store.routeOf (some r) hello.sni = some route ∧ SendsOpen P s r hello w

/-- A ready tunnel, and an open bridge that is found for each of the routes it
attached with. -/
structure Serves (s : Store) (r : StoredTunnel) (w : Socket) : Prop where
  live : r.deletedAt = none
  ready : r.ready = true
  numbered : s.bridges.Numbered
  mem : w ∈ s.bridges.sockets
  isOpen : w.isOpen = true
  attached : w.attached = true
  valid : ∀ route ∈ w.routes, validRoute route = true
  found : ∀ route ∈ w.routes, s.bridges.sockets.find? (fun v => v.claims route) = some w
  number : NumberFree s.bridges

/-- The bridge is sent an open message exactly for the routes it attached
with. -/
theorem sendsOpen_iff {P : Platform} {s : Store} {r : StoredTunnel} {w : Socket} (h : Serves s r w)
    (hello : Hello) :
    SendsOpen P s r hello w ↔ ∃ route ∈ w.routes, Store.routeOf (some r) hello.sni = some route := by
  constructor
  · rintro ⟨x, o, hx, w', hw', hid, conn, frames, hsent⟩
    -- a handler that leaves the sockets alone sends nothing
    have hstill : w' ∈ s.bridges.sockets → False := fun hmem => by
      rw [Bridges.eq_of_id h.numbered hmem h.mem hid] at hsent
      simp at hsent
    unfold Store.connectHello at hx
    simp only at hx
    split at hx
    · rename_i record route bridge hrec hroute hfind
      obtain rfl := Option.some.inj hrec
      split at hx
      · obtain ⟨rfl, -⟩ := Prod.mk.inj (Option.some.inj hx)
        exact absurd hw' hstill
      · have hroute := (truthy_eq_some.mp hroute).1
        have hfind : s.bridges.sockets.find? (fun v => v.claims route) = some bridge := by
          unfold Store.findBridge at hfind
          rwa [hroute] at hfind
        have hbridge : w'.id = bridge.id := by
          by_contra hne
          exact hstill (openChannel_other hx hw' hne)
        obtain rfl := Bridges.eq_of_id h.numbered (List.mem_of_find?_eq_some hfind) h.mem (hbridge.symm.trans hid)
        have hclaims : bridge.claims route = true := by simpa using List.find?_some hfind
        exact ⟨route, (claims_iff.mp hclaims).2, hroute⟩
    · obtain ⟨rfl, -⟩ := Prod.mk.inj (Option.some.inj hx)
      exact absurd hw' hstill
  · rintro ⟨route, hmem, hroute⟩
    obtain ⟨hne, hdot⟩ := validRoute_spec (h.valid route hmem)
    unfold SendsOpen
    rw [connectHello_eq h.live h.ready hroute hne hdot (h.found route hmem)]
    exact openChannel_open hello h.numbered h.mem h.isOpen h.number

/-! ### Server and client -/

/-- The route a client opens a connection on, of those it was given; without
one it answers with a reset, `unknown_route`. -/
def Library.openRoute (U : Unicode) (library : Library) (routes : List String) (sni hostname : String) :
    Option String :=
  (library.routeForSni U sni hostname).filter fun route => routes.contains route

/-- For each route of the bridge, the server sends `open` for it exactly when
the client resolves the name to it; so no `open` is answered with
`unknown_route`. -/
def ResolvesAlike (U : Unicode) (P : Platform) (library : Library) (s : Store) (r : StoredTunnel) (w : Socket)
    (hello : Hello) (sni : String) : Prop :=
  (∀ route ∈ w.routes,
    (OpensFor P s r hello w route ↔ library.routeForSni U sni r.hostname = some route)) ∧
  (SendsOpen P s r hello w → library.openRoute U w.routes sni r.hostname ≠ none)

/-- The names that are not resolved alike: `@` before the hostname, when the
client reads the hostname as it is stored, and else every public name. -/
def Alike (U : Unicode) (library : Library) (routes : List String) (sni hostname : String) : Prop :=
  if library.lower U hostname = hostname then ¬ (ROOT_ROUTE ∈ routes ∧ sni = subdomain ROOT_ROUTE hostname)
  else ∀ route ∈ routes, sni ≠ publicHostname route (library.lower U hostname)

/-- A route resolved alike is known to the client. -/
theorem openRoute_of_alike {P : Platform} {library : Library} {s : Store} {r : StoredTunnel} {w : Socket}
    {hello : Hello} {sni : String} (h : Serves s r w)
    (halike : ∀ route ∈ w.routes,
      (OpensFor P s r hello w route ↔ library.routeForSni U sni r.hostname = some route))
    (hopen : SendsOpen P s r hello w) : library.openRoute U w.routes sni r.hostname ≠ none := by
  obtain ⟨route, hmem, hroute⟩ := (sendsOpen_iff h hello).mp hopen
  have hclient := (halike route hmem).mp ⟨hroute, hopen⟩
  have hsome : library.openRoute U w.routes sni r.hostname = some route := by
    rw [Library.openRoute, hclient, Option.filter_some, if_pos (by simpa using hmem)]
  rw [hsome]
  exact Option.some_ne_none _

/-- A name in lower case has no hostname with a capital in it. -/
theorem hostname_lower {r : StoredTunnel} {sni route : String} (hs : ∀ c ∈ sni.toList, U.Lower c)
    (h : Store.routeOf (some r) (some sni) = some route) : ∀ c ∈ r.hostname.toList, U.Lower c := by
  rcases routeOf_iff.mp h with ⟨rfl, -⟩ | rfl
  · exact hs
  · intro c hc
    refine hs c ?_
    rw [toList_subdomain]
    exact List.mem_append_right _ (List.mem_cons_of_mem _ hc)

/-- Exactly the other names are resolved alike. -/
theorem resolvesAlike_iff {P : Platform} (library : Library) {s : Store} {r : StoredTunnel} {w : Socket}
    {hello : Hello} {name : String} (h : Serves s r w) (hs : hello.sni = some (toLowerCase U name)) :
    ResolvesAlike U P library s r w hello (toLowerCase U name) ↔
      Alike U library w.routes (toLowerCase U name) r.hostname := by
  have hl := lower_toLowerCase (U := U) name
  generalize toLowerCase U name = sni at hs hl
  have hserver : ∀ route ∈ w.routes,
      (OpensFor P s r hello w route ↔ Store.routeOf (some r) (some sni) = some route) := fun route hmem => by
    unfold OpensFor
    rw [hs]
    exact ⟨fun ho => ho.1, fun ho => ⟨ho, (sendsOpen_iff h hello).mpr ⟨route, hmem, by rw [hs]; exact ho⟩⟩⟩
  have hclient : ∀ route ∈ w.routes, (library.routeForSni U sni r.hostname = some route ↔
      sni = publicHostname route (library.lower U r.hostname)) := fun route hmem => by
    rw [library.routeForSni_public (h.valid route hmem), library.lower_eq_self hl]
  have hboth : ResolvesAlike U P library s r w hello sni ↔ ∀ route ∈ w.routes,
      (Store.routeOf (some r) (some sni) = some route ↔
        sni = publicHostname route (library.lower U r.hostname)) := by
    constructor
    · intro ha route hmem
      rw [← hserver route hmem, ← hclient route hmem]
      exact ha.1 route hmem
    · intro ha
      have hfirst : ∀ route ∈ w.routes,
          (OpensFor P s r hello w route ↔ library.routeForSni U sni r.hostname = some route) :=
        fun route hmem => by
          rw [hserver route hmem, hclient route hmem]
          exact ha route hmem
      exact ⟨hfirst, openRoute_of_alike h hfirst⟩
  rw [hboth]
  unfold Alike
  by_cases hlower : library.lower U r.hostname = r.hostname
  · rw [if_pos hlower, hlower]
    constructor
    · rintro ha ⟨hmem, he⟩
      have := (ha _ hmem).mp (routeOf_iff.mpr (.inr he))
      rw [he, publicHostname, if_pos rfl] at this
      exact subdomain_ne _ _ this
    · intro hat route hmem
      rw [routeOf_iff]
      unfold publicHostname
      by_cases hroot : route = ROOT_ROUTE
      · rw [if_pos hroot, hroot]
        constructor
        · rintro (⟨he, -⟩ | he)
          · exact he
          · exact absurd ⟨hroot ▸ hmem, he⟩ hat
        · exact fun he => .inl ⟨he, rfl⟩
      · rw [if_neg hroot]
        exact ⟨fun ho => ho.resolve_left fun hr => hroot hr.2, .inr⟩
  · rw [if_neg hlower]
    -- the object finds no route for a name in lower case
    have hnone : ∀ route, ¬ Store.routeOf (some r) (some sni) = some route := fun route ho =>
      hlower (library.lower_eq_self (hostname_lower hl ho))
    refine forall_congr' fun route => imp_congr_right fun _ => ?_
    constructor
    · exact fun ha he => hnone route (ha.mpr he)
    · exact fun hne => ⟨fun ho => absurd ho (hnone route), fun he => absurd he hne⟩

set_option maxRecDepth 4000 in
theorem serves_serving : ∃ (s : State) (r : StoredTunnel) (w : Socket), Reachable plainPlatform s ∧ Serves s.store r w ∧
    r.hostname = "t.d" ∧ w.routes = ["@"] := by
  obtain ⟨s, r, w, hs, hl, hr, hmem, hfind, ho, ha, hroutes, hchannels, hname⟩ :
      ∃ (s : State) (r : StoredTunnel) (w : Socket), after plainPlatform servingRun = some s ∧
        r.deletedAt = none ∧ r.ready = true ∧ w ∈ s.store.bridges.sockets ∧ s.store.bridges.sockets.find? (fun v => v.claims "@") = some w ∧
        w.isOpen = true ∧ w.attached = true ∧ w.routes = ["@"] ∧ s.store.bridges.channels = [] ∧
        s.store.durable.record = some r ∧ r.hostname = "t.d" :=
    ⟨_, _, _, rfl, rfl, rfl, List.mem_singleton.mpr rfl, rfl, rfl, rfl, rfl, rfl, rfl, rfl⟩
  have hreach := reachable_of_after hs
  have hx := exclusive_of_reachable hreach
  refine ⟨s, r, w, hreach, ?_, hname.2, hroutes⟩
  exact {
    live := hl
    ready := hr
    numbered := hx.numbered
    mem := hmem
    isOpen := ho
    attached := ha
    valid := (hx.valid w hmem ha).2.2
    found := fun route hroute => by
      rw [hroutes, List.mem_singleton] at hroute
      rw [hroute]
      exact hfind
    number := ⟨1, by decide, by decide, by rw [hchannels]; decide⟩ }

/-- A connection for the name, as `parseClientHello` delivers it. -/
def namedHello (name : String) : Hello :=
  { sni := some (toLowerCase plainUnicode name), alpn := "", initial := [], remoteAddress := none }

/-- The name `t.d` is resolved alike. -/
theorem resolvesAlike_serving : ∃ (s : State) (r : StoredTunnel) (w : Socket), Serves s.store r w ∧
    ResolvesAlike plainUnicode plainPlatform .rust s.store r w (namedHello "T.d")
      (toLowerCase plainUnicode "T.d") := by
  obtain ⟨s, r, w, -, h, hname, hroutes⟩ := serves_serving
  refine ⟨s, r, w, h, (resolvesAlike_iff .rust h rfl).mpr ?_⟩
  rw [hname, hroutes, Alike, if_pos (by decide)]
  decide

/-- Every name is resolved alike, in every run. -/
def AlwaysAlike (library : Library) : Prop :=
  ∀ (s : State) (r : StoredTunnel) (w : Socket) (name : String), Reachable plainPlatform s → Serves s.store r w →
    ResolvesAlike plainUnicode plainPlatform library s.store r w (namedHello name) (toLowerCase plainUnicode name)

theorem not_alwaysAlike (library : Library) : ¬ AlwaysAlike library := by
  intro hall
  obtain ⟨s, r, w, hreach, h, hname, hroutes⟩ := serves_serving
  have hroute : Store.routeOf (some r) (namedHello "@.t.d").sni = some "@" :=
    routeOf_iff.mpr (.inr (by rw [hname]; decide))
  have hopen : SendsOpen plainPlatform s.store r (namedHello "@.t.d") w :=
    (sendsOpen_iff h _).mpr ⟨"@", by rw [hroutes]; exact List.mem_singleton.mpr rfl, hroute⟩
  refine (hall s r w "@.t.d" hreach h).2 hopen ?_
  rw [hname, hroutes]
  cases library <;> decide

/-- `@.t.d` is opened on the bridge, and neither client knows a route for it. -/
theorem root_label_unknown : ¬ AlwaysAlike .rust ∧ ¬ AlwaysAlike .typescript :=
  ⟨not_alwaysAlike .rust, not_alwaysAlike .typescript⟩

end ShuvTunnel
