import Courier.Text.Utf8
import Courier.Yaml.Cursor

/-!
# Tokens

The words of a YAML text: the marks that structure it, most of which stand in it as a character or
two and some of which only its indentation tells, and the scalars between them.
-/

namespace Courier.Yaml

open Text

inductive Style where
  | plain
  | singleQuoted
  | doubleQuoted
  | literal
  | folded
deriving DecidableEq, Repr

inductive Lexeme where
  | textEnd
  | version (major minor : Nat)
  | handle (name : String) (meaning : Bytes)
  | documentStart
  | documentEnd
  | blockListStart
  | blockMapStart
  | blockEnd
  | flowListStart
  | flowListEnd
  | flowMapStart
  | flowMapEnd
  | blockEntry
  | flowEntry
  | key
  | value
  | aliasName (name : String)
  | anchor (name : String)
  | tag (handle : String) (suffix : Bytes)
  | scalar (text : List Char) (style : Style)
deriving DecidableEq, Repr

structure Token where
  lexeme : Lexeme
  start : Mark
  stop : Mark
deriving DecidableEq, Repr

end Courier.Yaml
