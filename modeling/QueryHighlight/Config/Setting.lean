/-!
The names of the settings. All but the dialect have a second name, under which the query editor
keeps them.
-/

namespace QueryHighlight

/-- The settings in the order in which a list gives them. -/
inductive Setting where
  | dialect
  | comments
  | keywords
  | functions
  | constants
  deriving DecidableEq, Repr

namespace Setting

def all : List Setting := [dialect, comments, keywords, functions, constants]

def name : Setting → String
  | dialect => "dialect"
  | comments => "comments"
  | keywords => "keywords"
  | functions => "functions"
  | constants => "constants"

/-- The names of a setting, one of which is what the query editor calls it. -/
def names : Setting → List String
  | dialect => ["dialect"]
  | comments => ["comments", "commentsEnabled"]
  | keywords => ["keywordSet", "keywords"]
  | functions => ["functionSet", "functions"]
  | constants => ["constantSet", "constants"]

def ofName? (name : String) : Option Setting := all.find? fun setting => setting.names.contains name

end Setting

end QueryHighlight
