import Hoprd.Core.Except
import Hoprd.Node.LibConfig
import Hoprd.Net

/-!
# Command line over configuration file (`hoprd/src/cli.rs`)

`tryFrom` is `TryFrom<CliArgs> for HoprdConfig`: it loads the file (or the
defaults), then applies the options section by section in the order of the
source, and last expands a leading `~` in two paths. A panic is a failure of
its own kind.

* `tryFrom_ok`: when it succeeds, the result as one record over the loaded
  configuration, with the value of every fallible option. Everything below is
  read off this record.
* `Layered`: what layering asks, one field of the result at a time: its own
  option's value when given, else the loaded one; and nothing else changed.
* `layered_iff`: the result is layered exactly when `--apiHost` does not reset
  a port that the file had set. The option is parsed as `<host>:3001`, so
  without `--apiPort` it also writes the port.

Reading the file, the YAML parser, the network interfaces, the home directory
and the parsers of `hopr-lib` are parameters (`CliEnv`).
-/
namespace Hoprd.Config

open Core (bind_ok pure_ok)

/-- An `anyhow` error as its chain of messages, outermost first, or a panic. -/
inductive Failure where
  | error (chain : List String)
  | panic (msg : String)
  deriving DecidableEq, Repr

/-- mirrors hoprd/src/cli.rs:136-337 -/
structure CliArgs where
  identity : Option String
  data : Option String
  host : Option HostConfig
  announce : UInt8
  api : UInt8
  apiHost : Option String
  apiPort : Option UInt16
  defaultSessionListenHost : Option HostConfig
  enableExplicitPathSessions : Bool
  disableApiAuthentication : UInt8
  apiToken : Option String
  password : Option String
  blokliUrl : Option String
  blokliDnsOverride : Option (IpAddr × Option UInt16)
  init : UInt8
  forceInit : UInt8
  privateKey : Option String
  testAnnounceLocalAddresses : UInt8
  testPreferLocalAddresses : UInt8
  probeRecheckThreshold : Option UInt64
  configurationFilePath : Option String
  safeAddress : Option String
  moduleAddress : Option String

/-- What `tryFrom` asks of the system and of other crates; errors are their
messages. -/
structure CliEnv (L : LibTypes) (T : Strategy.LeafTypes) where
  readToString : String → Except String String
  parseYaml : String → Except String (HoprdConfig L T)
  defaultConfig : HoprdConfig L T
  getIfAddrs : Except String (List IpAddr)
  homeDir : Option String
  hostFromStr : String → Except String HostConfig
  addressFromStr : String → Except String Address

/-- mirrors rest-api/src/config.rs:8 -/
def DEFAULT_API_PORT : UInt16 := 3001

def SESSION_LISTEN_HOST_AUTO : String := "auto"

section
variable {α β : Type}

/-- `.context(msg)?` -/
def withContext (msg : String) : Except String α → Except Failure α
  | .ok a => .ok a
  | .error e => .error (.error [msg, e])

/-- `if let Some(x) = option { field = f(x)? }` -/
def assign (option : Option α) (f : α → Except Failure β) (field : β) : Except Failure β :=
  match option with
  | some x => f x
  | none => .ok field

/-- `if count > 0 { field = true }` -/
def raise (count : UInt8) (field : Bool) : Bool := if 0 < count then true else field

end

variable {L : LibTypes} {T : Strategy.LeafTypes} (env : CliEnv L T)

/-- mirrors hoprd/src/cli.rs:66-78 -/
def detectLocalIpv4 : Except Failure IpAddr := do
  let addrs ← withContext "failed to enumerate network interfaces" env.getIfAddrs
  match addrs.find? fun ip => ip.isIpv4 && !ip.isLoopback with
  | some ip => return ip
  | none => .error (.error ["no non-loopback IPv4 address found for session listen host"])

/-- mirrors hoprd/src/cli.rs:80-93 -/
def resolveSessionListenHost (host : HostConfig) (detectLocalIpv4 : Except Failure IpAddr) :
    Except Failure SocketAddr :=
  match host.address with
  | .ipv4 addr =>
    match IpAddr.fromStr addr with
    | some ip => .ok ⟨ip, host.port⟩
    | none => .error (.error ["invalid default session listen IP address"])
  | .domain d =>
    if eqIgnoreAsciiCase d SESSION_LISTEN_HOST_AUTO then
      detectLocalIpv4.map fun ip => ⟨ip, host.port⟩
    else .error (.error ["default session listen must be an IP"])

/-- mirrors hoprd/src/cli.rs:343-351 -/
def loadConfig (args : CliArgs) : Except Failure (HoprdConfig L T) :=
  match args.configurationFilePath with
  | some path => do
    let yaml ← withContext s!"failed to read config file '{path}'" (env.readToString path)
    withContext "failed to parse config YAML" (env.parseYaml yaml)
  | none => .ok env.defaultConfig

/-- mirrors hoprd/src/cli.rs:353-364 -/
def applyHost (args : CliArgs) (cfg : HoprdConfig L T) : HoprdConfig L T :=
  { cfg with
    hopr.host := args.host.getD cfg.hopr.host
    hopr.network.announceLocalAddresses :=
      raise args.testAnnounceLocalAddresses cfg.hopr.network.announceLocalAddresses
    hopr.network.preferLocalAddresses :=
      raise args.testPreferLocalAddresses cfg.hopr.network.preferLocalAddresses }

/-- mirrors hoprd/src/cli.rs:366-372 -/
def applySession (args : CliArgs) (cfg : HoprdConfig L T) :
    Except Failure (HoprdConfig L T) := do
  let listenHost ← assign args.defaultSessionListenHost
    (resolveSessionListenHost · (detectLocalIpv4 env))
    cfg.sessionIpForwarding.defaultEntryListenHost
  return { cfg with
    sessionIpForwarding.defaultEntryListenHost := listenHost
    api.enableExplicitPathSessions :=
      if args.enableExplicitPathSessions then true else cfg.api.enableExplicitPathSessions }

/-- mirrors hoprd/src/cli.rs:374-383 -/
def applyDb (args : CliArgs) (cfg : HoprdConfig L T) : HoprdConfig L T :=
  { cfg with
    db.data := args.data.getD cfg.db.data
    db.initializeDb := raise args.init cfg.db.initializeDb
    db.forceInitialize := raise args.forceInit cfg.db.forceInitialize }

/-- The two authentication options, in the order of the source.
mirrors hoprd/src/cli.rs:389-394 -/
def applyAuth (args : CliArgs) (auth : Auth) : Auth :=
  let auth := if 0 < args.disableApiAuthentication ∧ auth ≠ .none then .none else auth
  match args.apiToken with
  | some x => .token x
  | none => auth

/-- `HostConfig::from_str(format!("{}:{}", x, DEFAULT_API_PORT))`.
mirrors hoprd/src/cli.rs:395-400 -/
def parseApiHost (x : String) : Except Failure HostConfig :=
  match env.hostFromStr s!"{x}:{DEFAULT_API_PORT.toNat}" with
  | .ok host => .ok host
  | .error e => .error (.error [s!"invalid api host: {e}"])

/-- mirrors hoprd/src/cli.rs:385-403 -/
def applyApi (args : CliArgs) (cfg : HoprdConfig L T) : Except Failure (HoprdConfig L T) := do
  let host ← assign args.apiHost (parseApiHost env) cfg.api.host
  return { cfg with
    api.enable := raise args.api cfg.api.enable
    api.auth := applyAuth args cfg.api.auth
    api.host := { host with port := args.apiPort.getD host.port } }

/-- mirrors hoprd/src/cli.rs:405-419 -/
def applyIdentity (args : CliArgs) (cfg : HoprdConfig L T) : HoprdConfig L T :=
  { cfg with
    hopr.network.probeRecheckThreshold :=
      (args.probeRecheckThreshold.map fun x => Duration.fromSecs x.toNat).getD
        cfg.hopr.network.probeRecheckThreshold
    identity.file := args.identity.getD cfg.identity.file
    identity.password := args.password.getD cfg.identity.password
    identity.privateKey := args.privateKey.or cfg.identity.privateKey }

def parseAddress (what x : String) : Except Failure Address :=
  withContext s!"invalid {what} address '{x}'" (env.addressFromStr x)

/-- mirrors hoprd/src/cli.rs:421-441 -/
def applyChain (args : CliArgs) (cfg : HoprdConfig L T) : Except Failure (HoprdConfig L T) := do
  let safeAddress ←
    assign args.safeAddress (parseAddress env "safe") cfg.hopr.safeModule.safeAddress
  let moduleAddress ←
    assign args.moduleAddress (parseAddress env "module") cfg.hopr.safeModule.moduleAddress
  return { cfg with
    hopr.announce := raise args.announce cfg.hopr.announce
    blokliUrl := args.blokliUrl.getD cfg.blokliUrl
    blokliDnsOverride := args.blokliDnsOverride.or cfg.blokliDnsOverride
    hopr.safeModule := ⟨safeAddress, moduleAddress⟩ }

/-- `home_dir() + &path[1..]` for a path that starts with `~`. -/
def expandHome (path : String) : Except Failure String :=
  match path.toList with
  | '~' :: rest =>
    match env.homeDir with
    | some home => .ok (home ++ String.ofList rest)
    | none => .error (.panic "home dir for a user must be specified")
  | _ => .ok path

/-- mirrors hoprd/src/cli.rs:443-457 -/
def expandPaths (cfg : HoprdConfig L T) : Except Failure (HoprdConfig L T) := do
  let data ← expandHome env cfg.db.data
  let file ← expandHome env cfg.identity.file
  return { cfg with db.data := data, identity.file := file }

/-- mirrors hoprd/src/cli.rs:339-460 -/
def tryFrom (args : CliArgs) : Except Failure (HoprdConfig L T) := do
  let cfg ← loadConfig env args
  let cfg ← applySession env args (applyHost args cfg)
  let cfg ← applyApi env args (applyDb args cfg)
  let cfg ← applyChain env args (applyIdentity args cfg)
  expandPaths env cfg

/-! ## A successful run -/

/-- The results of the fallible steps. -/
structure Parsed where
  listenHost : SocketAddr
  apiHost : HostConfig
  safeAddress : Address
  moduleAddress : Address
  data : String
  file : String

/-- All options over `cfg`, with the fallible ones already parsed. -/
def layer (args : CliArgs) (cfg : HoprdConfig L T) (p : Parsed) : HoprdConfig L T :=
  { cfg with
    hopr.host := args.host.getD cfg.hopr.host
    hopr.announce := raise args.announce cfg.hopr.announce
    hopr.safeModule := ⟨p.safeAddress, p.moduleAddress⟩
    hopr.network.announceLocalAddresses :=
      raise args.testAnnounceLocalAddresses cfg.hopr.network.announceLocalAddresses
    hopr.network.preferLocalAddresses :=
      raise args.testPreferLocalAddresses cfg.hopr.network.preferLocalAddresses
    hopr.network.probeRecheckThreshold :=
      (args.probeRecheckThreshold.map fun x => Duration.fromSecs x.toNat).getD
        cfg.hopr.network.probeRecheckThreshold
    identity.file := p.file
    identity.password := args.password.getD cfg.identity.password
    identity.privateKey := args.privateKey.or cfg.identity.privateKey
    db.data := p.data
    db.initializeDb := raise args.init cfg.db.initializeDb
    db.forceInitialize := raise args.forceInit cfg.db.forceInitialize
    api.enable := raise args.api cfg.api.enable
    api.auth := applyAuth args cfg.api.auth
    api.host := { p.apiHost with port := args.apiPort.getD p.apiHost.port }
    api.enableExplicitPathSessions :=
      if args.enableExplicitPathSessions then true else cfg.api.enableExplicitPathSessions
    sessionIpForwarding.defaultEntryListenHost := p.listenHost
    blokliUrl := args.blokliUrl.getD cfg.blokliUrl
    blokliDnsOverride := args.blokliDnsOverride.or cfg.blokliDnsOverride }

/-- Each fallible step succeeded, with the value in `p`. -/
structure ParsedFrom (args : CliArgs) (base : HoprdConfig L T) (p : Parsed) : Prop where
  listenHost : assign args.defaultSessionListenHost
    (resolveSessionListenHost · (detectLocalIpv4 env))
    base.sessionIpForwarding.defaultEntryListenHost = .ok p.listenHost
  apiHost : assign args.apiHost (parseApiHost env) base.api.host = .ok p.apiHost
  safeAddress : assign args.safeAddress (parseAddress env "safe")
    base.hopr.safeModule.safeAddress = .ok p.safeAddress
  moduleAddress : assign args.moduleAddress (parseAddress env "module")
    base.hopr.safeModule.moduleAddress = .ok p.moduleAddress
  data : expandHome env (args.data.getD base.db.data) = .ok p.data
  file : expandHome env (args.identity.getD base.identity.file) = .ok p.file

theorem tryFrom_ok {args : CliArgs} {base cfg : HoprdConfig L T}
    (hbase : loadConfig env args = .ok base) (h : tryFrom env args = .ok cfg) :
    ∃ p, ParsedFrom env args base p ∧ cfg = layer args base p := by
  obtain ⟨base', hb, h⟩ := bind_ok h
  rw [hbase] at hb
  obtain rfl := Except.ok.inj hb
  obtain ⟨c1, h1, h⟩ := bind_ok h
  obtain ⟨listenHost, hl, h1⟩ := bind_ok h1
  obtain rfl := pure_ok h1
  obtain ⟨c2, h2, h⟩ := bind_ok h
  obtain ⟨apiHost, ha, h2⟩ := bind_ok h2
  obtain rfl := pure_ok h2
  obtain ⟨c3, h3, h⟩ := bind_ok h
  obtain ⟨safeAddress, hs, h3⟩ := bind_ok h3
  obtain ⟨moduleAddress, hm, h3⟩ := bind_ok h3
  obtain rfl := pure_ok h3
  obtain ⟨data, hd, h⟩ := bind_ok h
  obtain ⟨file, hf, h⟩ := bind_ok h
  obtain rfl := pure_ok h
  exact ⟨⟨listenHost, apiHost, safeAddress, moduleAddress, data, file⟩,
    ⟨hl, ha, hs, hm, hd, hf⟩, rfl⟩

/-! ## Layering -/

/-- `cfg` with every field that some option writes, and `api.auth`, put back to
its value in `base`. -/
def restore (base cfg : HoprdConfig L T) : HoprdConfig L T :=
  { cfg with
    hopr.host := base.hopr.host
    hopr.announce := base.hopr.announce
    hopr.safeModule := base.hopr.safeModule
    hopr.network.announceLocalAddresses := base.hopr.network.announceLocalAddresses
    hopr.network.preferLocalAddresses := base.hopr.network.preferLocalAddresses
    hopr.network.probeRecheckThreshold := base.hopr.network.probeRecheckThreshold
    identity := base.identity
    db := base.db
    api.enable := base.api.enable
    api.auth := base.api.auth
    api.host := base.api.host
    api.enableExplicitPathSessions := base.api.enableExplicitPathSessions
    sessionIpForwarding.defaultEntryListenHost := base.sessionIpForwarding.defaultEntryListenHost
    blokliUrl := base.blokliUrl
    blokliDnsOverride := base.blokliDnsOverride }

/-- Each field of `cfg` other than `api.auth` is given by its own option when
present and by `base` otherwise, up to a leading `~` in the two paths. -/
structure Layered (args : CliArgs) (base cfg : HoprdConfig L T) : Prop where
  host : cfg.hopr.host = args.host.getD base.hopr.host
  announce : cfg.hopr.announce = raise args.announce base.hopr.announce
  safeAddress : assign args.safeAddress (parseAddress env "safe")
    base.hopr.safeModule.safeAddress = .ok cfg.hopr.safeModule.safeAddress
  moduleAddress : assign args.moduleAddress (parseAddress env "module")
    base.hopr.safeModule.moduleAddress = .ok cfg.hopr.safeModule.moduleAddress
  announceLocalAddresses : cfg.hopr.network.announceLocalAddresses =
    raise args.testAnnounceLocalAddresses base.hopr.network.announceLocalAddresses
  preferLocalAddresses : cfg.hopr.network.preferLocalAddresses =
    raise args.testPreferLocalAddresses base.hopr.network.preferLocalAddresses
  probeRecheckThreshold : cfg.hopr.network.probeRecheckThreshold =
    (args.probeRecheckThreshold.map fun x => Duration.fromSecs x.toNat).getD
      base.hopr.network.probeRecheckThreshold
  identityFile : expandHome env (args.identity.getD base.identity.file) = .ok cfg.identity.file
  password : cfg.identity.password = args.password.getD base.identity.password
  privateKey : cfg.identity.privateKey = args.privateKey.or base.identity.privateKey
  dbData : expandHome env (args.data.getD base.db.data) = .ok cfg.db.data
  init : cfg.db.initializeDb = raise args.init base.db.initializeDb
  forceInit : cfg.db.forceInitialize = raise args.forceInit base.db.forceInitialize
  api : cfg.api.enable = raise args.api base.api.enable
  apiHost : (assign args.apiHost (parseApiHost env) base.api.host).map HostConfig.address =
    .ok cfg.api.host.address
  apiPort : cfg.api.host.port = args.apiPort.getD base.api.host.port
  explicitPathSessions : cfg.api.enableExplicitPathSessions =
    if args.enableExplicitPathSessions then true else base.api.enableExplicitPathSessions
  sessionListenHost : assign args.defaultSessionListenHost
    (resolveSessionListenHost · (detectLocalIpv4 env))
    base.sessionIpForwarding.defaultEntryListenHost =
      .ok cfg.sessionIpForwarding.defaultEntryListenHost
  blokliUrl : cfg.blokliUrl = args.blokliUrl.getD base.blokliUrl
  blokliDnsOverride : cfg.blokliDnsOverride = args.blokliDnsOverride.or base.blokliDnsOverride
  rest : restore base cfg = base

/-- Layering holds but for the port of the API host, which is the parsed host's
where no `--apiPort` is given. -/
theorem layered_layer_iff {args : CliArgs} {base : HoprdConfig L T} {p : Parsed}
    (hp : ParsedFrom env args base p) :
    Layered env args base (layer args base p) ↔
      args.apiPort.getD p.apiHost.port = args.apiPort.getD base.api.host.port := by
  refine ⟨fun h => h.apiPort, fun h => ?_⟩
  exact {
    host := rfl
    announce := rfl
    safeAddress := hp.safeAddress
    moduleAddress := hp.moduleAddress
    announceLocalAddresses := rfl
    preferLocalAddresses := rfl
    probeRecheckThreshold := rfl
    identityFile := hp.file
    password := rfl
    privateKey := rfl
    dbData := hp.data
    init := rfl
    forceInit := rfl
    api := rfl
    apiHost := by rw [hp.apiHost]; rfl
    apiPort := h
    explicitPathSessions := rfl
    sessionListenHost := hp.listenHost
    blokliUrl := rfl
    blokliDnsOverride := rfl
    rest := rfl }

theorem parseApiHost_port
    (hport : ∀ (x : String) h, env.hostFromStr s!"{x}:{DEFAULT_API_PORT.toNat}" = .ok h →
      h.port = DEFAULT_API_PORT)
    {x : String} {host : HostConfig} (h : parseApiHost env x = .ok host) :
    host.port = DEFAULT_API_PORT := by
  unfold parseApiHost at h
  split at h
  · rename_i host' hh
    obtain rfl := Except.ok.inj h
    exact hport x host' hh
  · cases h

/-- **Layering** holds of a successful run exactly when `--apiHost` is not given,
or the port is given with it, or the file had the default port. -/
theorem layered_iff
    (hport : ∀ (x : String) h, env.hostFromStr s!"{x}:{DEFAULT_API_PORT.toNat}" = .ok h →
      h.port = DEFAULT_API_PORT)
    (args : CliArgs) (base cfg : HoprdConfig L T) (hbase : loadConfig env args = .ok base)
    (h : tryFrom env args = .ok cfg) :
    Layered env args base cfg ↔
      args.apiHost = none ∨ args.apiPort.isSome ∨ base.api.host.port = DEFAULT_API_PORT := by
  obtain ⟨p, hp, rfl⟩ := tryFrom_ok env hbase h
  rw [layered_layer_iff env hp]
  have ha := hp.apiHost
  cases hport' : args.apiPort with
  | some port => simp
  | none =>
    cases hhost : args.apiHost with
    | none =>
      rw [hhost] at ha
      have ha : base.api.host = p.apiHost := Except.ok.inj ha
      simp [ha]
    | some x =>
      rw [hhost] at ha
      have := parseApiHost_port env hport ha
      simp [this, eq_comm]

/-! ## A file with another port -/

def noArgs : CliArgs where
  identity := none
  data := none
  host := none
  announce := 0
  api := 0
  apiHost := none
  apiPort := none
  defaultSessionListenHost := none
  enableExplicitPathSessions := false
  disableApiAuthentication := 0
  apiToken := none
  password := none
  blokliUrl := none
  blokliDnsOverride := none
  init := 0
  forceInit := 0
  privateKey := none
  testAnnounceLocalAddresses := 0
  testPreferLocalAddresses := 0
  probeRecheckThreshold := none
  configurationFilePath := none
  safeAddress := none
  moduleAddress := none

def plainConfig (auth : Auth) (apiPort : UInt16) : HoprdConfig plainTypes Strategy.unitLeaves where
  hopr := plainUser none
  identity := ⟨"/etc/hoprd/id", "", none⟩
  db := ⟨"/var/lib/hoprd", true, false⟩
  api := ⟨true, auth, ⟨.ipv4 "127.0.0.1", apiPort⟩, false, .robust⟩
  sessionIpForwarding := ⟨⟨.v4 127 0 0 1, 0⟩, ()⟩
  blokliUrl := "https://blokli.example"
  blokliDnsOverride := none
  strategy := ⟨true, Duration.fromSecs 60, []⟩

/-- A system whose one configuration file holds `file`, with a host parser that
knows one address. -/
def plainEnv (file : HoprdConfig plainTypes Strategy.unitLeaves) :
    CliEnv plainTypes Strategy.unitLeaves where
  readToString path := if path = "hoprd.cfg.yaml" then .ok "" else .error "not found"
  parseYaml _ := .ok file
  defaultConfig := plainConfig .none 3001
  getIfAddrs := .ok [.v4 127 0 0 1, .v4 10 0 0 7]
  homeDir := some "/home/hoprd"
  hostFromStr s := if s = "0.0.0.0:3001" then .ok ⟨.ipv4 "0.0.0.0", 3001⟩ else .error "Invalid host"
  addressFromStr _ := .error "Invalid address"

theorem plainEnv_port (file : HoprdConfig plainTypes Strategy.unitLeaves) (s : String)
    (h : HostConfig) (hs : (plainEnv file).hostFromStr s = .ok h) : h.port = DEFAULT_API_PORT := by
  simp only [plainEnv] at hs
  split at hs
  · obtain rfl := Except.ok.inj hs; rfl
  · cases hs

/-- `--apiHost 0.0.0.0` over a file that puts the API on port 8080. -/
def apiHostArgs : CliArgs :=
  { noArgs with apiHost := some "0.0.0.0", configurationFilePath := some "hoprd.cfg.yaml" }

/-- The port is 3001 afterwards, though only the host was given. -/
theorem apiHost_resets_port :
    loadConfig (plainEnv (plainConfig .none 8080)) apiHostArgs = .ok (plainConfig .none 8080) ∧
    ∃ cfg, tryFrom (plainEnv (plainConfig .none 8080)) apiHostArgs = .ok cfg ∧
      cfg.api.host.port = 3001 ∧
      ¬Layered (plainEnv (plainConfig .none 8080)) apiHostArgs (plainConfig .none 8080) cfg := by
  refine ⟨rfl, _, rfl, rfl, fun h => ?_⟩
  exact absurd h.apiPort (by decide)

/-- With the default port in the file, the same options are layered. -/
theorem apiHost_layered_default_port :
    Layered (plainEnv (plainConfig .none 3001)) apiHostArgs (plainConfig .none 3001)
        { plainConfig .none 3001 with api.host := ⟨.ipv4 "0.0.0.0", 3001⟩ } ↔
      apiHostArgs.apiHost = none ∨ apiHostArgs.apiPort.isSome ∨
        (plainConfig .none 3001).api.host.port = DEFAULT_API_PORT :=
  layered_iff (plainEnv (plainConfig .none 3001)) (fun _ => plainEnv_port _ _) _ _ _ rfl rfl

end Hoprd.Config
