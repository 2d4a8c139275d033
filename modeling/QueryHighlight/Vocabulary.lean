import QueryHighlight.Token
import QueryHighlight.WordSet

/-!
What the words of a query mean. A word is looked up, case and all, among the functions, then the
constants, then the keywords; the sets may overlap, and the first that has the word decides.
-/

namespace QueryHighlight

structure Vocabulary where
  functions : WordSet
  constants : WordSet
  keywords : WordSet
  deriving DecidableEq

namespace Vocabulary

def classify (vocabulary : Vocabulary) (word : String) : Kind :=
  if vocabulary.functions.contains word then .function
  else if vocabulary.constants.contains word then .constant
  else if vocabulary.keywords.contains word then .keyword
  else .identifier

/-- Words that a set looked up later has too. -/
def shadowing (vocabulary : Vocabulary) : WordSet :=
  (vocabulary.functions.filter fun word =>
      vocabulary.constants.contains word || vocabulary.keywords.contains word).union
    (vocabulary.constants.filter vocabulary.keywords.contains)

/-- The words of more than one set in ascending order, with the kind that each resolves to. -/
def overlaps (vocabulary : Vocabulary) : List (String × Kind) :=
  vocabulary.shadowing.toList.map fun word => (word, vocabulary.classify word)

end Vocabulary

end QueryHighlight
