import NativeGlue.Text.Number
import NativeGlue.Text.Quoted

/-!
# What can be asked about a text

A hole of a template names a text, and the path behind the name may ask further: for the character
at a position, for the kind of what it has reached, for the name of a kind and the kinds it descends
from, for the operations that a kind has. `Facet` is whatever such a path can reach; `Facet.part?`
and `Facet.element` are its two steps, and `Facet.shown` is the text of what was reached.
-/

namespace NativeGlue.Template

open NativeGlue.Text

/-! ## 1. Kinds -/

/-- The kinds of what a path reaches. -/
inductive Kind where
  | text
  | nothing
  | kind
  | row
  /-- An operation of something at hand: a plain one, or one that stands behind an operator. -/
  | bound (operator : Bool)
  /-- An operation of a kind, of nothing in particular. -/
  | free (operator : Bool)
  /-- The kind that all others descend from. -/
  | any
  deriving DecidableEq, Repr, Inhabited

/-- The name of a kind. -/
def Kind.name : Kind → String
  | .text => "str"
  | .nothing => "NoneType"
  | .kind => "type"
  | .row => "tuple"
  | .bound false => "builtin_function_or_method"
  | .bound true => "method-wrapper"
  | .free false => "method_descriptor"
  | .free true => "wrapper_descriptor"
  | .any => "object"

/-- A kind and all that it descends from. -/
def Kind.lineage (k : Kind) : List Kind := if k = .any then [.any] else [k, .any]

/-- The text that describes a kind; only texts, kinds and the kind of all are described. -/
def Kind.description : Kind → String
  | .text =>
    "str(object='') -> str\nstr(bytes_or_buffer[, encoding[, errors]]) -> str\n\n" ++
    "Create a new string object from the given object. If encoding or\n" ++
    "errors is specified, then the object must expose a data buffer\n" ++
    "that will be decoded using the given encoding and error handler.\n" ++
    "Otherwise, returns the result of object.__str__() (if defined)\nor repr(object).\n" ++
    "encoding defaults to sys.getdefaultencoding().\nerrors defaults to 'strict'."
  | .kind =>
    "type(object) -> the object's type\ntype(name, bases, dict, **kwds) -> a new type"
  | .any =>
    "The base class of the class hierarchy.\n\n" ++
    "When called, it accepts no arguments and returns a new featureless\n" ++
    "instance that has no instance attributes and cannot be given any.\n"
  | _ => ""

/-- The operations of a kind that stand behind an operator. -/
def Kind.operators : Kind → List String
  | .text =>
    ["__add__", "__contains__", "__eq__", "__ge__", "__getattribute__", "__getitem__", "__gt__",
      "__hash__", "__iter__", "__le__", "__len__", "__lt__", "__mod__", "__mul__", "__ne__",
      "__repr__", "__rmod__", "__rmul__", "__str__"]
  | .row =>
    ["__add__", "__contains__", "__eq__", "__ge__", "__getattribute__", "__getitem__", "__gt__",
      "__hash__", "__iter__", "__le__", "__len__", "__lt__", "__mul__", "__ne__", "__repr__",
      "__rmul__"]
  | .nothing => ["__bool__", "__repr__"]
  | .kind =>
    ["__call__", "__delattr__", "__getattribute__", "__init__", "__or__", "__repr__", "__ror__",
      "__setattr__"]
  | .bound _ =>
    ["__call__", "__eq__", "__ge__", "__getattribute__", "__gt__", "__hash__", "__le__", "__lt__",
      "__ne__", "__repr__"]
  | .free _ => ["__call__", "__get__", "__getattribute__", "__repr__"]
  | .any =>
    ["__delattr__", "__eq__", "__ge__", "__getattribute__", "__gt__", "__hash__", "__init__",
      "__le__", "__lt__", "__ne__", "__repr__", "__setattr__", "__str__"]

/-- The other operations of a kind. -/
def Kind.operations : Kind → List String
  | .text =>
    ["__format__", "__getnewargs__", "__sizeof__", "capitalize", "casefold", "center", "count",
      "encode", "endswith", "expandtabs", "find", "format", "format_map", "index", "isalnum",
      "isalpha", "isascii", "isdecimal", "isdigit", "isidentifier", "islower", "isnumeric",
      "isprintable", "isspace", "istitle", "isupper", "join", "ljust", "lower", "lstrip",
      "partition", "removeprefix", "removesuffix", "replace", "rfind", "rindex", "rjust",
      "rpartition", "rsplit", "rstrip", "split", "splitlines", "startswith", "strip", "swapcase",
      "title", "translate", "upper", "zfill"]
  | .row => ["__getnewargs__", "count", "index"]
  | .kind =>
    ["__dir__", "__instancecheck__", "__prepare__", "__sizeof__", "__subclasscheck__",
      "__subclasses__", "mro"]
  | .bound _ => ["__reduce__"]
  | .free _ => ["__reduce__"]
  | .nothing => []
  | .any => ["__dir__", "__format__", "__getstate__", "__reduce__", "__reduce_ex__", "__sizeof__"]

/-- The operations that belong to the kind itself, whatever they are asked of. -/
def Kind.makers : Kind → List String
  | .text => ["__new__", "maketrans"]
  | .row => ["__class_getitem__", "__new__"]
  | .nothing | .kind => ["__new__"]
  | .bound _ | .free _ => []
  | .any => ["__init_subclass__", "__new__", "__subclasshook__"]

/-! ## 2. Facets -/

/-- What the path of a hole can reach. -/
inductive Facet where
  | text (s : List Char)
  | nothing
  | kind (k : Kind)
  | row (ks : List Kind)
  /-- An operation of something at hand, and the kind that brings it in. -/
  | bound (operator : Bool) (name : String) (owner : Kind) (subject : Facet)
  /-- An operation of a kind, and the kind that brings it in. -/
  | free (operator : Bool) (name : String) (owner : Kind)
  deriving Repr, Inhabited

/-- The kind of a facet. -/
def Facet.kindOf : Facet → Kind
  | .text _ => .text
  | .nothing => .nothing
  | .kind _ => .kind
  | .row _ => .row
  | .bound op .. => .bound op
  | .free op .. => .free op

/-- What an operation is, by its name, and the kind of a lineage that brings it in. -/
inductive Origin where
  | operator (owner : Kind)
  | operation (owner : Kind)
  | maker (owner : Kind)

/-- Where an operation comes from: the first kind of the lineage that has it. -/
def Kind.origin? (k : Kind) (name : String) : Option Origin :=
  k.lineage.findSome? fun o =>
    if o.operators.contains name then some (.operator o)
    else if o.operations.contains name then some (.operation o)
    else if o.makers.contains name then some (.maker o)
    else none

/-- An operation of a facet by its name. -/
def Facet.operation? (f : Facet) (name : String) : Option Facet :=
  (f.kindOf.origin? name).map fun
    | .operator o => .bound true name o f
    | .operation o => .bound false name o f
    | .maker o => .bound false name o (.kind f.kindOf)

/-- An operation of a kind by its name. -/
def Kind.operation? (k : Kind) (name : String) : Option Facet :=
  (k.origin? name).map fun
    | .operator o => .free true name o
    | .operation o => .free false name o
    | .maker o => .bound false name o (.kind k)

/-- The full name of an operation. An operator goes by the kind that brings it in, any other
operation by the kind it is asked of. -/
def operationName (operator : Bool) (name : String) (owner : Kind) (subject : Facet) : String :=
  let k := if operator then owner else match subject with
    | .kind k => k
    | f => f.kindOf
  k.name ++ "." ++ name

/-- The text of a facet that was made of a text. -/
def Facet.ofString (s : String) : Facet := .text s.toList

/-- The description of a facet. Operations have an empty one. -/
def Facet.description : Facet → Facet
  | .text _ => .ofString Kind.text.description
  | .nothing => .nothing
  | .kind .nothing => .nothing
  | .kind k => .ofString k.description
  | _ => .text []

/-- The parts that a facet has of its own, by their names. -/
def Facet.ownPart? : Facet → String → Option Facet
  | .kind k, "__name__" | .kind k, "__qualname__" => some (.ofString k.name)
  | .kind _, "__module__" => some (.ofString "builtins")
  | .kind k, "__base__" => some (if k = .any then .nothing else .kind .any)
  | .kind k, "__bases__" => some (.row (if k = .any then [] else [.any]))
  | .kind k, "__mro__" => some (.row k.lineage)
  | .bound _ n .., "__name__" | .free _ n _, "__name__" => some (.ofString n)
  | .bound op n o s, "__qualname__" => some (.ofString (operationName op n o s))
  | .bound _ _ _ s, "__self__" => some s
  | .bound false .., "__module__" => some .nothing
  | .bound true _ o _, "__objclass__" | .free _ _ o, "__objclass__" => some (.kind o)
  | .free _ n o, "__qualname__" => some (.ofString (o.name ++ "." ++ n))
  | _, _ => none

/-- The part of a facet with a name. Of a kind these are its own parts, then the operations of what
is of that kind, then those of kinds. -/
def Facet.part? (f : Facet) (name : String) : Option Facet :=
  if name == "__class__" then some (.kind f.kindOf)
  else if name == "__doc__" then some f.description
  else match f with
    | .kind k => (f.ownPart? name).or ((k.operation? name).or (f.operation? name))
    | f => (f.ownPart? name).or (f.operation? name)

/-- The text of a kind. -/
def Kind.shown (k : Kind) : String := "<class '" ++ k.name ++ "'>"

/-- The text of a facet. An operation of something at hand shows what it is asked of by its kind. -/
def Facet.shown : Facet → String
  | .text s => String.ofList s
  | .nothing => "None"
  | .kind k => k.shown
  | .row [k] => "(" ++ k.shown ++ ",)"
  | .row ks => "(" ++ ", ".intercalate (ks.map Kind.shown) ++ ")"
  | .bound true n _ s => "<method-wrapper '" ++ n ++ "' of " ++ s.kindOf.name ++ " object>"
  | .bound false n _ s => "<built-in method " ++ n ++ " of " ++ s.kindOf.name ++ " object>"
  | .free true n o => "<slot wrapper '" ++ n ++ "' of '" ++ o.name ++ "' objects>"
  | .free false n o => "<method '" ++ n ++ "' of '" ++ o.name ++ "' objects>"

end NativeGlue.Template
