/-
  PluginHost.Config.Encode

  A configuration written as a document, with all fields in the order of
  declaration.  A port that is not set is left out.
-/
import PluginHost.Config
import PluginHost.Document

namespace PluginHost

namespace Config

/-- A list of texts as a document. -/
def textsDocument (texts : List String) : Document :=
  .list (texts.map .text)

/-- The document of `About`. -/
def About.toDocument (a : About) : Document :=
  .table [
    ("version", .text a.version),
    ("author", .text a.author),
    ("contributors", textsDocument a.contributors)]

/-- The document of `Settings`. -/
def Settings.toDocument (s : Settings) : Document :=
  .table [("debug", .bool s.debug)]

/-- The document of a port that is set. -/
def portEntry : Option UInt16 → List (String × Document)
  | some p => [("port", .int p.toNat)]
  | none => []

/-- The document of a plugin. -/
def PluginEntry.toDocument (p : PluginEntry) : Document :=
  .table ([
    ("author", .text p.author),
    ("md5", .text p.digest),
    ("exec", .text p.command),
    ("exec_args", textsDocument p.arguments),
    ("exec_file", .text p.file),
    ("exec_time", .int p.graceSeconds.toNat),
    ("protocol_type", .text p.protocol)] ++ portEntry p.port)

/-- The document of a host. -/
def HostEntry.toDocument (h : HostEntry) : Document :=
  .table [("plugins", textsDocument h.plugins)]

/-- The document of values under names. -/
def mapDocument {α : Type} (f : α → Document) (m : NameMap α) : Document :=
  .table (m.map f).entries

/-- The document of a configuration. -/
def toDocument (c : Config) : Document :=
  .table [
    ("meta", c.about.toDocument),
    ("settings", c.settings.toDocument),
    ("plugins", mapDocument PluginEntry.toDocument c.plugins),
    ("hosts", mapDocument HostEntry.toDocument c.hosts)]

end Config

end PluginHost
