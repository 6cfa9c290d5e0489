import Dialogue.Yaml.Tag

/-!
# Tokens of YAML

The pieces that a document is made of once its indentation has been told.
-/

namespace Dialogue.Yaml

/-- How a text is written. -/
inductive Style where
  /-- Without quotes. -/
  | plain
  | quoted
  /-- On lines of its own below a mark. -/
  | lines
  deriving DecidableEq, Repr

/-- A piece of a document. -/
inductive Token where
  | directive (d : Directive)
  | documentStart
  | documentEnd
  /-- Nothing is left. -/
  | textEnd
  /-- A list in lines begins. -/
  | list
  /-- A map in lines begins. -/
  | map
  /-- A list or map in lines ends. -/
  | blockEnd
  | openBracket
  | closeBracket
  | openBrace
  | closeBrace
  /-- The dash of an item. -/
  | item
  | comma
  | key
  | value
  | aliasOf (name : String)
  /-- A name for the node that follows; `outdented` tells that it begins its line. -/
  | anchor (name : String) (outdented : Bool)
  /-- A tag for the node that follows; `outdented` tells that it begins its line. -/
  | tag (handle rest : String) (outdented : Bool)
  | scalar (style : Style) (text : String)
  deriving DecidableEq, Repr

/-- Whether a token is an anchor or a tag that begins its line. -/
def Token.isOutdented : Token → Bool
  | .anchor _ outdented => outdented
  | .tag _ _ outdented => outdented
  | _ => false

end Dialogue.Yaml
