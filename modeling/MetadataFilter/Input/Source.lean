import MetadataFilter.Input.Path

/-!
# Where input comes from

A `Source` is a text given directly, a file, or standard input. A `Host` is all that can be read:
files by their paths, environment variables, and standard input. Input is text in UTF-8; a file that
is not there and bytes that are no text cannot be read.
-/

namespace MetadataFilter

inductive Source
  | inline (text : String)
  | file (path : String)
  | stdin
  deriving DecidableEq

/-- How messages name a source. -/
def Source.label : Source → String
  | .inline _ => "inline"
  | .file path => path
  | .stdin => "stdin"

/-- What can be read. -/
structure Host where
  files : List (String × ByteArray) := []
  environment : List (String × String) := []
  stdin : ByteArray := ByteArray.empty

namespace Host

def file? (host : Host) (path : String) : Option ByteArray :=
  (host.files.find? fun (other, _) => FilePath.sameFile other path).map Prod.snd

def environmentValue? (host : Host) (name : String) : Option String :=
  (host.environment.find? (·.1 == name)).map Prod.snd

def text? (host : Host) : Source → Option String
  | .inline text => some text
  | .file path => (host.file? path).bind String.fromUTF8?
  | .stdin => String.fromUTF8? host.stdin

end Host

end MetadataFilter
