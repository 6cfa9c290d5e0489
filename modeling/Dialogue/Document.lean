import Dialogue.Config
import Dialogue.Flow.Definition
import Dialogue.Shape.Node
import Dialogue.Yaml.Document

/-!
# Documents

Definitions and configurations are read from documents, whose format is told by the extension of
their file.
-/

namespace Dialogue

/-- The format of a document. -/
inductive Format where
  | json
  | yaml
  deriving DecidableEq, Repr

/-- A text with its ASCII letters in lower case. -/
def lowerAscii (s : String) : String := String.ofList (s.toList.map Double.lower)

/-- The format that an extension stands for, in any case; JSON unless it is known. -/
def Format.ofExtension (extension : String) : Format :=
  let name := lowerAscii extension
  if name = "yaml" || name = "yml" then .yaml else .json

/-- The extension of a file's name, if it has one: what follows its last dot, unless that is where
the name begins. -/
def nameExtension (name : List Char) : Option (List Char) :=
  if name = ['.', '.'] then none
  else
    let (extension, front) := name.reverse.span (· != '.')
    if front.length ≤ 1 then none else some extension.reverse

/-- The extension of the file at a path; that of JSON if it has none. -/
def extensionOf (path : String) : String :=
  let name := (path.toList.reverse.dropWhile (· == '/')).takeWhile (· != '/')
  ((nameExtension name.reverse).map String.ofList).getD "json"

/-- Reads a document. -/
def readDocument (α : Type) [Wire α] (format : Format) (text : String) : Except Unreadable α :=
  match format with
  | .json =>
    match decodeText α text with
    | .ok a => .ok a
    | .error p => .error (.json p)
  | .yaml =>
    match (Yaml.document? text).bind (Wire.shape α).ofNode? with
    | some w => .ok (Wire.ofWire w)
    | none => .error .yaml

/-- Reads a definition. -/
def Definition.ofDocument (format : Format) (text : String) : Except Fault Definition :=
  match readDocument Definition format text with
  | .ok d => .ok d
  | .error why => .error (.invalidFlow Fault.unparsed (.document why))

/-- Reads a list of definitions. -/
def Definition.listOfDocument (format : Format) (text : String) : Except Fault (List Definition) :=
  match readDocument (List Definition) format text with
  | .ok ds => .ok ds
  | .error why => .error (.invalidFlow Fault.unparsed (.document why))

/-- Reads a configuration. -/
def Config.ofDocument (format : Format) (text : String) : Except Fault Config :=
  match readDocument Config format text with
  | .ok c => .ok c
  | .error why => .error (.config (.document why))

end Dialogue
