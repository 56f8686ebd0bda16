/-
  PluginHost.Call

  What is asked of a plugin, and what it answers.
-/
import PluginHost.Text.Utf8

namespace PluginHost

/-- What is asked of a plugin. -/
inductive Call where
  /-- Whether it is there. -/
  | ping
  /-- To carry out a command on a payload. -/
  | exec (command : String) (payload : Bytes)
  deriving DecidableEq

/-- What a plugin answers: a text to a ping, bytes to a command. -/
inductive Answer where
  | text (s : String)
  | bytes (bs : Bytes)
  deriving DecidableEq

end PluginHost
