import Lalr.Config
import Lalr.Files.Tree
import Lalr.Text.Encoding

set_option autoImplicit false

/-!
Finding and writing the file with the settings of a project.
-/

namespace Lalr

open Lalr.Text

/-- Why settings cannot be read or written. -/
inductive ConfigError where
  | unreadable (path : String)
  | malformed (path : String)
  | alreadyThere (path : String)
  | unwritable (path : String)
deriving DecidableEq, Repr

/-- The wording of an error. -/
def ConfigError.message : ConfigError → String
  | .unreadable path => "Failed to read config from " ++ path
  | .malformed path => "Failed to parse TOML config from " ++ path
  | .alreadyThere path => path ++ " already exists, use --force to overwrite"
  | .unwritable path => "Failed to write config to " ++ path

namespace Config

/-- The file that holds the settings unless another one is named. -/
def fileName : String := "onescript.toml"

/-- The settings in the bytes of a file. -/
def ofBytes (path : String) (content : List UInt8) : Except ConfigError Config :=
  match utf8? content with
  | none => .error (.unreadable path)
  | some text =>
      match parse? text with
      | none => .error (.malformed path)
      | some config => .ok config

/-- Reads the settings from a file. -/
def load (read : FileReader) (path : String) : Except ConfigError Config :=
  match read path with
  | .error _ => .error (.unreadable path)
  | .ok content => ofBytes path content

/-- Reads the settings from the file that is named, or else from the usual one; if that
is no file the defaults hold. -/
def discover (read : FileReader) (path : Option String) : Except ConfigError Config :=
  match path with
  | some path => load read path
  | none =>
      match read fileName with
      | .error _ => .ok {}
      | .ok content => ofBytes fileName content

/-- Writes settings to a file. -/
def save (config : Config) (tree : FileTree) (path : String) : Except ConfigError FileTree :=
  (tree.write path (encodeUtf8 config.render.toList)).mapError fun _ => .unwritable path

/-- Writes the defaults to a file; one that is there is only replaced by force. -/
def writeDefault (tree : FileTree) (path : String) (force : Bool) : Except ConfigError FileTree :=
  if tree.contains path && !force then .error (.alreadyThere path)
  else save {} tree path

end Config

end Lalr
