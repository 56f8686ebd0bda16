/-
  PluginHost.Install

  Which plugins a host may start: those that it lists, that are defined, whose
  file is there, and whose file has the digest that the configuration declares.
-/
import PluginHost.Config
import PluginHost.Digest.Check

namespace PluginHost

/-- What a host knows of a plugin. -/
structure PluginMeta where
  command : String
  arguments : List String
  file : String
  graceSeconds : UInt64
  digest : String
  protocol : String
  deriving DecidableEq, Inhabited

/-- What the configuration says of a plugin, as far as it matters for starting
    it. -/
def PluginMeta.ofEntry (e : Config.PluginEntry) : PluginMeta where
  command := e.command
  arguments := e.arguments
  file := e.file
  graceSeconds := e.graceSeconds
  digest := e.digest
  protocol := e.protocol

/-- Plugins under their names. -/
abbrev PluginSet := NameMap PluginMeta

/-- Whether two digests are equal but for the case of ASCII letters. -/
def sameDigest (a b : String) : Bool :=
  a.toList.map Char.toLower = b.toList.map Char.toLower

/-- A host that plugins are installed for.  Without a configuration there is
    nothing to install. -/
structure Installer where
  host : String
  config : Option Config
  check : DigestCheck

namespace Installer

/-- The plugins that the configuration allows a host. -/
def allowed (config : Config) (host : String) : PluginSet :=
  match config.hosts.get? host with
  | none => .empty
  | some entry =>
    .ofList (entry.plugins.filterMap fun name =>
      (config.plugins.get? name).map fun e => (name, PluginMeta.ofEntry e))

/-- The plugins that the host may use. -/
def resolve (i : Installer) : Option PluginSet :=
  i.config.map (allowed · i.host)

/-- Whether a plugin may be started.  Whoever is asked for digests is in a state `σ`, and
    is asked for none if the file is not there. -/
def inspect {σ : Type} (digest : String → σ → Except IoFault String × σ) (storage : Storage)
    (p : PluginMeta) (s : σ) : Bool × σ :=
  if storage.isPresent p.file then
    match digest p.file s with
    | (.ok d, s) => (sameDigest d p.digest, s)
    | (.error _, s) => (false, s)
  else (false, s)

/-- Those of some plugins that may be started, looked at one after another. -/
def inspectEach {σ : Type} (digest : String → σ → Except IoFault String × σ)
    (storage : Storage) : List (String × PluginMeta) → σ → List (String × PluginMeta) × σ
  | [], s => ([], s)
  | e :: es, s =>
    let (accepted, s) := inspect digest storage e.2 s
    let (kept, s) := inspectEach digest storage es s
    (if accepted then e :: kept else kept, s)

/-- The check of the host, with a list of the files that it was asked for. -/
def noting (i : Installer) (storage : Storage) (file : String) (asked : List String) :
    Except IoFault String × List String :=
  (i.check storage file, asked ++ [file])

/-- What an installation comes to, and the files whose digests it asked for, in
    order. -/
structure Installation where
  outcome : Except Error PluginSet
  asked : List String

/-- Installs those of a set of plugins that may be started; there must be one at
    least. -/
def install (i : Installer) (storage : Storage) (plugins : Option PluginSet) : Installation :=
  match plugins with
  | none => ⟨.error .emptyPlugins, []⟩
  | some plugins =>
    let (kept, asked) := inspectEach (i.noting storage) storage plugins.entries []
    ⟨if kept.isEmpty then .error .noPluginsAvailable else .ok (.ofList kept), asked⟩

end Installer

end PluginHost
