import PackageDepot.File.Access
import PackageDepot.Wire.Record
import PackageDepot.Wire.Text

/-!
# Logging

How much is logged, in which format and where. The log goes to a file if a file or a directory is given.
-/

namespace PackageDepot

open PackageDepot.Wire (Codec Record)

/-- How much is logged; each level holds those before it. -/
inductive LogLevel
  | error
  | warn
  | info
  | debug
  | trace
  deriving DecidableEq, Repr

/-- The format of the lines of a log. -/
inductive LogFormat
  | plaintext
  | json
  deriving DecidableEq, Repr

/-- What is asked of a log. -/
structure LogOptions where
  level : Option LogLevel := none
  format : Option LogFormat := none
  directory : Option String := none
  file : Option String := none
  deriving DecidableEq, Repr

namespace LogLevel

/-- The name of a level. -/
def text : LogLevel → String
  | .error => "error"
  | .warn => "warn"
  | .info => "info"
  | .debug => "debug"
  | .trace => "trace"

/-- All levels. -/
def all : List LogLevel := [.error, .warn, .info, .debug, .trace]

def codec : Codec LogLevel := .named text all

end LogLevel

namespace LogFormat

/-- The name of a format. -/
def text : LogFormat → String
  | .plaintext => "plaintext"
  | .json => "json"

/-- All formats. -/
def all : List LogFormat := [.plaintext, .json]

def codec : Codec LogFormat := .named text all

end LogFormat

namespace LogOptions

def codec : Codec LogOptions :=
  .record <| Record.of LogOptions.mk
    |>.also (.mayLack "log-level" level LogLevel.codec)
    |>.also (.mayLack "log-format" format LogFormat.codec)
    |>.also (.mayLack "log-dir" directory .text)
    |>.also (.mayLack "log-file" file .text)

/-- The level that counts. -/
def effectiveLevel (o : LogOptions) : LogLevel := o.level.getD .info

/-- The format that counts. -/
def effectiveFormat (o : LogOptions) : LogFormat := o.format.getD .plaintext

/-- The log goes to a file. -/
def toFile (o : LogOptions) : Bool := o.file.isSome || o.directory.isSome

/-- The file of the log: the one that is given, from the directory on unless it is absolute, or else
one named for the component. There is none if neither a file nor a directory is given. -/
def path? (o : LogOptions) (component : String) : Option String :=
  match o.file, o.directory with
  | some file, some directory => some (File.Path.join directory file)
  | some file, none => some file
  | none, some directory => some (File.Path.join directory (component ++ ".log"))
  | none, none => none

/-- The file of a component's log below the directory that the machine keeps data in. -/
def standardPath (data component : String) : String :=
  File.Path.join (File.Path.join data "package-harbor") (component ++ ".log")

/-- Have the file of the log be there, in a directory that is made for it if need be. -/
def prepare {m : Type → Type} [Monad m] [File.Access m] (o : LogOptions) (component : String) :
    ExceptT File.Fault m Unit := do
  if let some path := o.path? component then
    if let some parent := File.Path.parent? path then
      ExceptT.mk (File.Access.ensureDirectories (m := m) parent)
    ExceptT.mk (File.Access.touch (m := m) path)

end LogOptions

/-- What is logged in the place of a secret. -/
def redacted : String := "[REDACTED]"

end PackageDepot
