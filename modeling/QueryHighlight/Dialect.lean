/-!
The two deployments of the query editor and the words they know. They share functions and
constants, and differ in some keywords and in whether `#` starts a comment.
-/

namespace QueryHighlight

/-- Words of the built-in functions. -/
def functionWords : List String :=
  ["concatpair", "min", "coalesce", "concat", "keystransform", "valuestransform",
    "rangestartswith", "upper", "daytransform", "yeartransform", "variance", "lower",
    "rangeendswith", "minutetransform", "substr", "stddev", "greatest", "datetimedatetransform",
    "secondtransform", "max", "monthtransform", "sum", "isempty", "hourtransform", "unaccent",
    "avg", "slicetransform", "length", "indextransform", "count", "now", "keytransform",
    "arraylentransform", "weekdaytransform", "least"]

/-- Words of the language constants. -/
def constantWords : List String := ["true", "false", "null", "empty"]

inductive Dialect where
  | massmailer
  | mailing
  deriving DecidableEq, Repr

namespace Dialect

instance : Inhabited Dialect := ⟨massmailer⟩

def all : List Dialect := [massmailer, mailing]

def name : Dialect → String
  | massmailer => "massmailer"
  | mailing => "mailing"

def ofName? (name : String) : Option Dialect := all.find? fun dialect => dialect.name == name

/-- The newer editor names columns with `alias` and `as`, the older one with `using`. -/
def keywords : Dialect → List String
  | massmailer =>
    ["and", "or", "not", "is", "between", "alias", "contain", "contains", "start", "starts",
      "end", "ends", "match", "matches", "does", "doesn't", "with", "as"]
  | mailing =>
    ["and", "or", "not", "is", "between", "using", "contain", "contains", "start", "starts",
      "end", "ends", "match", "matches", "does", "doesn't", "with"]

def comments : Dialect → Bool
  | massmailer => true
  | mailing => false

end Dialect

end QueryHighlight
