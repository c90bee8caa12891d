import DocComments.Comment.Extractor
import DocComments.Config
import DocComments.Report

/-!
# Documenting sources

A documenter takes a source all the way: it extracts the comments and reads their tags. Sources may
also come from files, and then two things can go wrong, which are a `DocError`; extracting and
reading never fail.
-/

namespace DocComments

/-- Why a file cannot be read. -/
inductive ReadFault where
  | notFound
  /-- The bytes are no UTF-8 text. -/
  | invalidData
  | isADirectory
deriving DecidableEq, Repr

/-- What can be read under every path. -/
abbrev Files := String → Except ReadFault ByteArray

/-- Why nothing can be documented. -/
inductive DocError where
  | unreadable (path : String) (fault : ReadFault)
  | config (error : ConfigError)

namespace DocError

/-- The message for the user. -/
def message : DocError → String
  | .unreadable path _ => "Failed to read \x60" ++ path ++ "\x60"
  | .config error => error.message

/-- The code under which the error is documented. -/
def code : DocError → String
  | .unreadable _ _ => "cdoc::io"
  | .config _ => "cdoc::json"

/-- What to do about the error, where there is something to say. -/
def help? : DocError → Option String
  | .unreadable _ _ => some "Check that the file exists and is readable."
  | .config _ => none

end DocError

/-- Extracts comments and reads their tags. -/
structure Documenter where
  extractor : Extractor
  reader : TagReader

namespace Documenter

/-- The comments of a source. -/
def extract (documenter : Documenter) (source : String) : List Comment :=
  documenter.extractor.extract source

/-- The report on a source. -/
def document (documenter : Documenter) (source : String) : Report :=
  documenter.reader.read (documenter.extract source)

/-- The text of a file. A byte order mark is part of it. -/
def readSource (files : Files) (path : String) : Except DocError String :=
  match files path with
  | .error fault => .error (.unreadable path fault)
  | .ok bytes =>
    match String.fromUTF8? bytes with
    | some source => .ok source
    | none => .error (.unreadable path .invalidData)

/-- The report on the source in a file. -/
def documentFile (documenter : Documenter) (files : Files) (path : String) :
    Except DocError Report :=
  (readSource files path).map documenter.document

end Documenter

end DocComments
