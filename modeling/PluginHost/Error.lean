/-
  PluginHost.Error

  Everything that can go wrong, by cause, and the text of each cause.
-/
import PluginHost.Schema
import PluginHost.Text.Hex

namespace PluginHost

/-- Why a file could not be read or a program could not be started. -/
inductive IoFault where
  | notFound
  | permissionDenied
  | notADirectory
  | isADirectory
  /-- The content is no text. -/
  | notText
  /-- The path holds a character that no path may hold. -/
  | illegalPath
  | other (text : String)
  deriving DecidableEq

/-- The text of a fault. -/
def IoFault.message : IoFault → String
  | .notFound => "No such file or directory (os error 2)"
  | .permissionDenied => "Permission denied (os error 13)"
  | .notADirectory => "Not a directory (os error 20)"
  | .isADirectory => "Is a directory (os error 21)"
  | .notText => "stream did not contain valid UTF-8"
  | .illegalPath => "file name contained an unexpected NUL byte"
  | .other text => text

/-- Why the answer of a plugin is no use, though it came. -/
inductive CallFault where
  /-- Its body broke off. -/
  | unreadable
  /-- Its body is no envelope. -/
  | malformed (problem : Problem)
  /-- Its envelope holds no data. -/
  | noData (status : String)
  | other (text : String)

/-- The text of a problem of a document. -/
def Problem.message : Problem → String
  | .form => "malformed document"
  | .content m => m.message

/-- The text of a fault of an answer. -/
def CallFault.message : CallFault → String
  | .unreadable => "unreadable response body"
  | .malformed problem => problem.message
  | .noData status => "response without data (status " ++ status ++ ")"
  | .other text => text

/-- The text of a fault of hexadecimal text. -/
def Hex.Fault.message : Hex.Fault → String
  | .oddLength => "Odd number of digits"
  | .badDigit byte index =>
    "Invalid character " ++ Quoted.char (Char.ofNat byte.toNat) ++ " at position " ++ toString index

/-- Why an operation failed. -/
inductive Error where
  /-- No host of that name is known. -/
  | hostUnknown (host : String)
  /-- There is no configuration to install from. -/
  | emptyPlugins
  /-- Not one of the plugins of a host passed the check. -/
  | noPluginsAvailable
  /-- Some hosts could not be set up, each for its own reason. -/
  | setupFailed (failures : List (String × Error))
  | pluginUnknown (plugin : String)
  /-- There are no settings for connecting to the plugin. -/
  | connectionUnset (plugin : String)
  | cannotStart (plugin : String) (cause : IoFault)
  | alreadyStarted (plugin : String)
  | cannotBeKilled (detail : String)
  /-- The answer to a ping had another status than expected. -/
  | pingRefused (status : Nat)
  /-- The answer to a command had another status than expected. -/
  | execRefused (status : Nat)
  | callFailed (fault : CallFault)
  | protocolUnknown (name : String)
  /-- The request did not reach the plugin, or no answer came back. -/
  | requestFailed (detail : String)
  | connectFailed (detail : String)
  | replyFailed (detail : String)
  /-- The answer holds something else than hexadecimal text. -/
  | undecodable (detail : String)
  | retriesExhausted (attempts : Nat) (last : Error)
  | configNotFound
  | configUnreadable (path : String) (cause : IoFault)
  | configInvalid (problem : Problem)
  deriving Inhabited

namespace Error

/-- The kinds of errors. -/
inductive Kind where
  | hostUnknown | emptyPlugins | noPluginsAvailable | setupFailed | pluginUnknown
  | connectionUnset | cannotStart | alreadyStarted | cannotBeKilled | pingRefused
  | execRefused | callFailed | protocolUnknown | requestFailed | connectFailed
  | replyFailed | undecodable | retriesExhausted | configNotFound | configUnreadable
  | configInvalid
  deriving DecidableEq

/-- All kinds of errors. -/
def Kind.all : List Kind := [
  .hostUnknown, .emptyPlugins, .noPluginsAvailable, .setupFailed, .pluginUnknown,
  .connectionUnset, .cannotStart, .alreadyStarted, .cannotBeKilled, .pingRefused,
  .execRefused, .callFailed, .protocolUnknown, .requestFailed, .connectFailed,
  .replyFailed, .undecodable, .retriesExhausted, .configNotFound, .configUnreadable,
  .configInvalid]

/-- The kind of an error. -/
def kind : Error → Kind
  | .hostUnknown _ => .hostUnknown
  | .emptyPlugins => .emptyPlugins
  | .noPluginsAvailable => .noPluginsAvailable
  | .setupFailed _ => .setupFailed
  | .pluginUnknown _ => .pluginUnknown
  | .connectionUnset _ => .connectionUnset
  | .cannotStart .. => .cannotStart
  | .alreadyStarted _ => .alreadyStarted
  | .cannotBeKilled _ => .cannotBeKilled
  | .pingRefused _ => .pingRefused
  | .execRefused _ => .execRefused
  | .callFailed _ => .callFailed
  | .protocolUnknown _ => .protocolUnknown
  | .requestFailed _ => .requestFailed
  | .connectFailed _ => .connectFailed
  | .replyFailed _ => .replyFailed
  | .undecodable _ => .undecodable
  | .retriesExhausted .. => .retriesExhausted
  | .configNotFound => .configNotFound
  | .configUnreadable .. => .configUnreadable
  | .configInvalid _ => .configInvalid

mutual

/-- The text of an error. -/
def message : Error → String
  | .hostUnknown host => "No hosts available: " ++ host
  | .emptyPlugins => "Cannot install empty plugins"
  | .noPluginsAvailable => "No plugins available"
  | .setupFailed failures => "Failed to set up hosts: " ++ "; ".intercalate (failureTexts failures)
  | .pluginUnknown plugin => "Plugin not found: " ++ plugin
  | .connectionUnset plugin => "No connection settings for plugin: " ++ plugin
  | .cannotStart plugin cause => "Plugin cannot start: " ++ plugin ++ ": " ++ cause.message
  | .alreadyStarted plugin => "Plugin has been started: " ++ plugin
  | .cannotBeKilled detail => "Plugin cannot be killed: " ++ detail
  | .pingRefused status => "Plugin cannot be called (status " ++ toString status ++ ")"
  | .execRefused status => "Plugin cannot exec (status " ++ toString status ++ ")"
  | .callFailed fault => "Plugin communication error: " ++ fault.message
  | .protocolUnknown name => "Illegal protocol: " ++ name
  | .requestFailed detail => "Error request rest connection: " ++ detail
  | .connectFailed detail => "Error rpc connection: " ++ detail
  | .replyFailed detail => "Error rpc response: " ++ detail
  | .undecodable detail => "Cannot decode plugin response: " ++ detail
  | .retriesExhausted attempts last =>
    "Gave up after " ++ toString attempts ++ " attempts: " ++ last.message
  | .configNotFound => "Config file not found"
  | .configUnreadable path cause => "Cannot read config file " ++ path ++ ": " ++ cause.message
  | .configInvalid problem => "Failed to parse configuration: " ++ problem.message

/-- The texts of the failures of hosts. -/
def failureTexts : List (String × Error) → List String
  | [] => []
  | (host, e) :: rest => (host ++ ": " ++ e.message) :: failureTexts rest

end

/-- The text of the fault behind an error of the system. -/
def source? : Error → Option String
  | .cannotStart _ cause => some cause.message
  | .configUnreadable _ cause => some cause.message
  | _ => none

end Error

end PluginHost
