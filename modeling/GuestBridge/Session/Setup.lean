import GuestBridge.Config
import GuestBridge.Expr
import GuestBridge.Text.Quoted

/-!
# Setting up a session

A setup says how a bridge is loaded: configuration, globals, imports, and the guest
with its program. Reading a setup gives options; the options and the guest make the
first state.

* `load_of_readOptions_error`: a setup without usable options loads nothing.
-/

namespace GuestBridge

/-- How a bridge is loaded. -/
structure Setup where
  /-- The text of a configuration; the default one is used if there is none. -/
  config : Option String := none
  /-- Names of global functions, in place of those of the configuration. -/
  globals : Option (List String) := none
  /-- Values bound as further globals. -/
  bound : List (String × HostExpr) := []
  /-- The seed of the hash sequence, in place of that of the configuration. -/
  seed : Option UInt32 := none
  hook : Option (List ImportEdit) := none
  locator : String := "idle"
  /-- The program under the locator, if there is one. -/
  program : Option Program := some .idle
  /-- Whether the guest module has the optional exports. -/
  hasOptional : Bool := true

/-- The options with which a bridge is loaded. -/
structure Options where
  hasHook : Bool := false
  globals : OrderedMap String HostValue := {}
  hashSeed : UInt32 := Hasher.defaultSeed

namespace Options

/-- The text that describes options. -/
def describe (o : Options) : String :=
  let names := ", ".intercalate (o.globals.keys.map Text.quote)
  "BridgeOptions \x7b install_imports: " ++ (if o.hasHook then "true" else "false") ++
    ", globals: [" ++ names ++ "], hash_seed: " ++ o.hashSeed.toNat.repr ++ ", .. \x7d"

end Options

namespace BridgeM

/-- A function object for each of the global functions of the given names. -/
def globalTable (names : List String) : BridgeM (OrderedMap String HostValue) :=
  names.foldlM (fun table name => do
    match Global.ofName? name with
    | some g =>
      let f ← allocObject (.function { name := g.name, behaviour := .global g })
      return table.insert g.name (.object f)
    | none => throw (.config (.unknownGlobal name))) {}

/-- The options that a configuration describes, if it can be used. -/
def optionsOf (c : Config) : BridgeM Options := do
  let c ← ofExcept (c.validate.mapError .config)
  return { globals := ← globalTable c.globals, hashSeed := c.hashSeed }

/-- Binds values to names; later ones replace earlier ones. -/
def bindAll (table : OrderedMap String HostValue) (bound : List (String × HostExpr)) :
    BridgeM (OrderedMap String HostValue) :=
  bound.foldlM (fun table b => do return table.insert b.1 (← b.2.read)) table

/-- The options of a setup. -/
def readOptions (s : Setup) : BridgeM Options := do
  -- Each part of the setup replaces what the parts before it gave.
  let config ← match s.config with
    | none => pure ({} : Config)
    | some text => ofExcept ((({} : Config).overlay text).mapError .config)
  let globals ← globalTable (s.globals.getD config.globals)
  let globals ← bindAll globals s.bound
  return { hasHook := s.hook.isSome, globals, hashSeed := s.seed.getD config.hashSeed }

/-- Makes the guest of a setup, and the context of its options. -/
def instantiate (s : Setup) (o : Options) : BridgeM Unit := do
  let imports := (s.hook.getD []).foldl ImportObject.edit .defaults
  modifyContext fun c => { c with globals := o.globals, hasher := .ofSeed o.hashSeed }
  match s.program with
  | some program => setGuest { imports, program, hasOptional := s.hasOptional }
  | none => throw (.load s.locator "no such program")

end BridgeM

/-- A state in which nothing has been made. -/
def World.initial (environment : Environment) : World :=
  { context := { hasher := .ofSeed 0 }, environment }

/-- Loads a bridge: its options, if the setup gives usable ones, and the outcome. -/
def World.load (s : Setup) (environment : Environment) :
    Option Options × Except BridgeError Unit × World :=
  match (BridgeM.readOptions s).outcome (.initial environment) with
  | (.error e, w) => (none, .error e, w)
  | (.ok o, w) =>
    let (result, w) := (BridgeM.instantiate s o).outcome w
    (some o, result, w)

/-- A setup without usable options loads nothing. -/
theorem World.load_of_readOptions_error {s : Setup} {environment : Environment} {e : BridgeError}
    {w : World} (h : (BridgeM.readOptions s).outcome (.initial environment) = (.error e, w)) :
    World.load s environment = (none, .error e, w) := by
  simp [World.load, h]

end GuestBridge
