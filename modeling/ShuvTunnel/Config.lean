/-
# The config file of a profile

`config.rs` keeps the routes of a profile in a file of TOML, which the user may
edit, too. `load` takes a file that is not there for one without routes and checks
each route, `save` writes the whole file. What `toml` makes of a text and of the
routes is given.

Key definitions: `Config.load`, `Config.save`, `Config.modified`,
`Config.validate`, `Config.normalize_target`.
-/
import ShuvTunnel.Targets

namespace ShuvTunnel

/-- A `BTreeMap`, by its entries in the order of the keys. -/
abbrev Routes := List (String × String)

namespace Routes

/-- `routes.insert(name, target)`. -/
def insert (name target : String) : Routes → Routes
  | [] => [(name, target)]
  | (name', target') :: routes =>
    if name < name' then (name, target) :: (name', target') :: routes
    else if name = name' then (name, target) :: routes
    else (name', target') :: insert name target routes

/-- `routes.remove(&name)`, with the routes that are left. -/
def remove (name : String) (routes : Routes) : Option (String × Routes) :=
  (routes.lookup name).map fun target => (target, routes.filter fun route => route.1 ≠ name)

end Routes

/-- `Config`: the routes of a profile. -/
structure Config where
  routes : Routes
  deriving DecidableEq

/-- What `toml::from_str` and `toml::to_string` make of a text and of a config. -/
structure Toml where
  from_str : String → Except String Config
  to_string : Config → String

/-- A file, with the time of its last modification. -/
structure ConfigFile where
  modified : ℕ
  content : String

/-- Why a file was not read. -/
inductive ReadError
  | notFound
  | failed (message : String)

/-- `with_context`, as `{:#}` prints it. -/
def withContext {α : Type} (context : String) : Except String α → Except String α :=
  Except.mapError fun error => context ++ ": " ++ error

namespace Config

/-- Expands a bare port to a localhost target: `3000` becomes `127.0.0.1:3000`. -/
def normalize_target (target : String) : String :=
  if !target.toList.isEmpty && (utf8 target).all (fun byte => 0x30 ≤ byte && byte ≤ 0x39) then
    "127.0.0.1:" ++ target
  else target

/-- `validate`, of the arguments of `route add`. -/
def validate (name target : String) : Except String Unit :=
  if !Rust.isValidRoute name then
    .error ("invalid route name '" ++ name ++ "': use '@' or one lowercase DNS label")
  else if (Rust.parse_target target).isNone then
    .error ("invalid target '" ++ target ++
      "': use a port or host:port, for example 3000 or 127.0.0.1:3000")
  else .ok ()

/-- The loop of `load`. -/
def validateAll (path : String) : Routes → Except String Unit
  | [] => .ok ()
  | (name, target) :: routes =>
    match withContext ("in " ++ path) (validate name target) with
    | .error error => .error error
    | .ok () => validateAll path routes

variable (toml : Toml) (path : String)

/-- `load`, of what reading the file comes to. -/
def load : Except ReadError String → Except String Config
  | .error .notFound => .ok ⟨[]⟩
  | .error (.failed message) => .error ("reading " ++ path ++ ": " ++ message)
  | .ok content =>
    match withContext ("parsing " ++ path) (toml.from_str content) with
    | .error error => .error error
    | .ok config => (validateAll path config.routes).map fun () => config

/-- What reading a file comes to, if nothing is in the way. -/
def read : Option String → Except ReadError String
  | none => .error .notFound
  | some content => .ok content

/-- `save`, with the content of the file behind it. What fails leaves the file as it was. -/
def save (failure : Option String) (config : Config) (content : Option String) :
    Except String Unit × Option String :=
  match failure with
  | some message => (.error message, content)
  | none => (.ok (), some (toml.to_string config))

/-- When the file was last changed. -/
def modified (file : Option ConfigFile) : Option ℕ := file.map (·.modified)

/-- The text of a config, where nothing has to be escaped. -/
def print (config : Config) : String :=
  config.routes.foldl (fun text (name, target) =>
    text ++ (if Rust.isLabel name then name else "\"" ++ name ++ "\"") ++ " = \"" ++ target ++ "\"\n") "[routes]\n"

end Config

/-- `toml` on the texts of some configs. -/
def Toml.on (configs : List Config) : Toml where
  from_str content :=
    match configs.find? fun config => config.print = content with
    | some config => .ok config
    | none => .error "TOML parse error"
  to_string := Config.print

/-- A configuration with one route. -/
def apiConfig : Config := ⟨[("api", "127.0.0.1:3000")]⟩

/-- One with another. -/
def webConfig : Config := ⟨[("web", "127.0.0.1:4000")]⟩

end ShuvTunnel
