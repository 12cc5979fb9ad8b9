import ModuleAtlas.Yaml.Tag

/-! Tokens of a YAML text. Indentation shows in them: the lists and maps of a block are opened and
closed like those in brackets. -/

namespace ModuleAtlas.Yaml

inductive Token where
  | version (major minor : Nat)
  | handle (name : String) (lead : Tag)
  | documentStart
  | documentEnd
  | blockList
  | blockMap
  | blockEnd
  | openList
  | closeList
  | openMap
  | closeMap
  | dash
  | comma
  | key
  | colon
  | reference (name : String)
  | anchor (name : String)
  | tag (handle : String) (rest : Tag)
  | scalar (style : Style) (text : String)
  deriving DecidableEq, Repr

end ModuleAtlas.Yaml
