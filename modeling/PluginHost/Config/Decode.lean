/-
  PluginHost.Config.Decode

  A configuration read from a document.  Each record is described once, by its
  fields in the order of declaration; keys that are no field are passed over.
-/
import PluginHost.Config
import PluginHost.Schema
import PluginHost.Toml.Reader

namespace PluginHost

namespace Config

open Schema

/-! ## About -/

/-- The fields of `About`. -/
inductive About.Field where
  | version | author | contributors
  deriving DecidableEq

/-- The fields of `About` as far as they were given. -/
structure About.Draft where
  version : Option String := none
  author : Option String := none
  contributors : Option (List String) := none

/-- The record `About`: every field may be left out. -/
def About.record : Record About.Field About.Draft About where
  title := "Meta"
  fields := [.version, .author, .contributors]
  name
    | .version => "version"
    | .author => "author"
    | .contributors => "contributors"
  fieldOf
    | "version" => some .version
    | "author" => some .author
    | "contributors" => some .contributors
    | _ => none
  blank := {}
  filled draft
    | .version => draft.version.isSome
    | .author => draft.author.isSome
    | .contributors => draft.contributors.isSome
  fill draft
    | .version, d => do return { draft with version := some (← text d) }
    | .author, d => do return { draft with author := some (← text d) }
    | .contributors, d => do return { draft with contributors := some (← list text d) }
  finish draft :=
    .ok ⟨draft.version.getD "", draft.author.getD "", draft.contributors.getD []⟩

/-! ## Settings -/

/-- The fields of `Settings`. -/
inductive Settings.Field where
  | debug
  deriving DecidableEq

/-- The record `Settings`: its only field may be left out. -/
def Settings.record : Record Settings.Field (Option Bool) Settings where
  title := "Settings"
  fields := [.debug]
  name _ := "debug"
  fieldOf
    | "debug" => some .debug
    | _ => none
  blank := none
  filled draft _ := draft.isSome
  fill _ _ d := some <$> bool d
  finish draft := .ok ⟨draft.getD false⟩

/-! ## Plugins -/

/-- The fields of `PluginEntry`. -/
inductive PluginEntry.Field where
  | author | digest | command | arguments | file | graceSeconds | protocol | port
  deriving DecidableEq

/-- The fields of `PluginEntry` as far as they were given. -/
structure PluginEntry.Draft where
  author : Option String := none
  digest : Option String := none
  command : Option String := none
  arguments : Option (List String) := none
  file : Option String := none
  graceSeconds : Option UInt64 := none
  protocol : Option String := none
  port : Option (Option UInt16) := none

/-- The record `PluginEntry`.  The command, the file and the protocol must be
    given, in this order of complaint. -/
def PluginEntry.Draft.finish (draft : PluginEntry.Draft) :
    Except PluginEntry.Field PluginEntry := do
  let some command := draft.command | throw .command
  let some file := draft.file | throw .file
  let some protocol := draft.protocol | throw .protocol
  return {
    author := draft.author.getD ""
    digest := draft.digest.getD ""
    command
    arguments := draft.arguments.getD []
    file
    graceSeconds := draft.graceSeconds.getD 0
    protocol
    port := draft.port.getD none }

/-- The record `PluginEntry`.  The digest goes by two names. -/
def PluginEntry.record : Record PluginEntry.Field PluginEntry.Draft PluginEntry where
  title := "PluginInfo"
  fields := [.author, .digest, .command, .arguments, .file, .graceSeconds, .protocol, .port]
  name
    | .author => "author"
    | .digest => "md5"
    | .command => "exec"
    | .arguments => "exec_args"
    | .file => "exec_file"
    | .graceSeconds => "exec_time"
    | .protocol => "protocol_type"
    | .port => "port"
  fieldOf
    | "author" => some .author
    | "md5" => some .digest
    | "hash" => some .digest
    | "exec" => some .command
    | "exec_args" => some .arguments
    | "exec_file" => some .file
    | "exec_time" => some .graceSeconds
    | "protocol_type" => some .protocol
    | "port" => some .port
    | _ => none
  blank := {}
  filled draft
    | .author => draft.author.isSome
    | .digest => draft.digest.isSome
    | .command => draft.command.isSome
    | .arguments => draft.arguments.isSome
    | .file => draft.file.isSome
    | .graceSeconds => draft.graceSeconds.isSome
    | .protocol => draft.protocol.isSome
    | .port => draft.port.isSome
  fill draft
    | .author, d => do return { draft with author := some (← text d) }
    | .digest, d => do return { draft with digest := some (← text d) }
    | .command, d => do return { draft with command := some (← text d) }
    | .arguments, d => do return { draft with arguments := some (← list text d) }
    | .file, d => do return { draft with file := some (← path d) }
    | .graceSeconds, d => do return { draft with graceSeconds := some (← word64 d) }
    | .protocol, d => do return { draft with protocol := some (← text d) }
    | .port, d => do return { draft with port := some (← option word16 d) }
  finish := PluginEntry.Draft.finish

/-! ## Hosts -/

/-- The fields of `HostEntry`. -/
inductive HostEntry.Field where
  | plugins
  deriving DecidableEq

/-- The record `HostEntry`: its only field may be left out. -/
def HostEntry.record : Record HostEntry.Field (Option (List String)) HostEntry where
  title := "HostInfo"
  fields := [.plugins]
  name _ := "plugins"
  fieldOf
    | "plugins" => some .plugins
    | _ => none
  blank := none
  filled draft _ := draft.isSome
  fill _ _ d := some <$> list text d
  finish draft := .ok ⟨draft.getD []⟩

/-! ## The whole configuration -/

/-- The fields of `Config`. -/
inductive Field where
  | about | settings | plugins | hosts
  deriving DecidableEq

/-- The fields of `Config` as far as they were given. -/
structure Draft where
  about : Option About := none
  settings : Option Settings := none
  plugins : Option (NameMap PluginEntry) := none
  hosts : Option (NameMap HostEntry) := none

/-- The record `Config`: every field may be left out. -/
def record : Record Field Draft Config where
  title := "PluginConfig"
  fields := [.about, .settings, .plugins, .hosts]
  name
    | .about => "meta"
    | .settings => "settings"
    | .plugins => "plugins"
    | .hosts => "hosts"
  fieldOf
    | "meta" => some .about
    | "settings" => some .settings
    | "plugins" => some .plugins
    | "hosts" => some .hosts
    | _ => none
  blank := {}
  filled draft
    | .about => draft.about.isSome
    | .settings => draft.settings.isSome
    | .plugins => draft.plugins.isSome
    | .hosts => draft.hosts.isSome
  fill draft
    | .about, d => do
      return { draft with about := some (← About.record.read .ignored d) }
    | .settings, d => do
      return { draft with settings := some (← Settings.record.read .ignored d) }
    | .plugins, d => do
      let entries ← map (PluginEntry.record.read .ignored) d
      return { draft with plugins := some (.ofList entries) }
    | .hosts, d => do
      let entries ← map (HostEntry.record.read .ignored) d
      return { draft with hosts := some (.ofList entries) }
  finish draft :=
    .ok {
      about := draft.about.getD {}
      settings := draft.settings.getD {}
      plugins := draft.plugins.getD .empty
      hosts := draft.hosts.getD .empty }

/-- The configuration that a document holds. -/
def ofDocument (d : Document) : Read Config :=
  record.read .ignored d

/-- The configuration that a TOML text holds. -/
def parse (s : String) : Read Config :=
  Toml.readAs ofDocument s

end Config

end PluginHost
