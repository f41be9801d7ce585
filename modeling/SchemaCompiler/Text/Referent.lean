import SchemaCompiler.Text.Quoted

/-!
What a place in a pattern can refer to. It names a text at first; from there members lead to the
kind of the text and to its operations, and on to their members.

Addresses in memory are not shown. Left out are what explains an operation (its documentation and its
signature), the kinds of rows that hold entries of one kind, and what the table of a kind says about an
operation that is carried out on nothing.
-/
namespace SchemaCompiler.Text

/-- The kinds of referents. Every kind has `any` above it. -/
inductive Kind where
  | any
  | kind
  | text
  | row
  | nothing
  | number
  | table
  | method
  | slot
  | own
  | free
  | field
  | property
  | boundMethod
  | boundSlot
deriving DecidableEq

/-- What a name of a kind stands for. -/
inductive Role where
  /-- What makes a referent of the kind. -/
  | maker
  /-- An operation with a fixed meaning in expressions. -/
  | slot
  /-- An operation that is called by its name. -/
  | method
  /-- An operation of the kind itself and not of what is of the kind. -/
  | own
  /-- An operation that is carried out on nothing at all. -/
  | free
  | field
  | property
  | description
  | absent
deriving DecidableEq

namespace Kind

def name : Kind → String
  | any => "object"
  | kind => "type"
  | text => "str"
  | row => "tuple"
  | nothing => "NoneType"
  | number => "int"
  | table => "mappingproxy"
  | method => "method_descriptor"
  | slot => "wrapper_descriptor"
  | own => "classmethod_descriptor"
  | free => "staticmethod"
  | field => "member_descriptor"
  | property => "getset_descriptor"
  | boundMethod => "builtin_function_or_method"
  | boundSlot => "method-wrapper"

def shown (k : Kind) : String := s!"<class '{k.name}'>"

/-- A kind and the kinds above it. -/
def lineage (k : Kind) : List Kind := if k == any then [any] else [k, any]

def description? : Kind → Option String
  | any => some <|
    "The base class of the class hierarchy.\n\nWhen called, it accepts no arguments and returns " ++
    "a new featureless\ninstance that has no instance attributes and cannot be given any.\n"
  | kind => some "type(object) -> the object's type\ntype(name, bases, dict, **kwds) -> a new type"
  | text => some <|
    "str(object='') -> str\nstr(bytes_or_buffer[, encoding[, errors]]) -> str\n\n" ++
    "Create a new string object from the given object. If encoding or\n" ++
    "errors is specified, then the object must expose a data buffer\n" ++
    "that will be decoded using the given encoding and error handler.\n" ++
    "Otherwise, returns the result of object.__str__() (if defined)\nor repr(object).\n" ++
    "encoding defaults to sys.getdefaultencoding().\nerrors defaults to 'strict'."
  | row => some <|
    "Built-in immutable sequence.\n\nIf no argument is given, the constructor returns an empty " ++
    "tuple.\nIf iterable is specified the tuple is initialized from iterable's items.\n\n" ++
    "If the argument is a tuple, the return value is the same object."
  | number => some <|
    "int([x]) -> integer\nint(x, base=10) -> integer\n\n" ++
    "Convert a number or string to an integer, or return 0 if no arguments\n" ++
    "are given.  If x is a number, return x.__int__().  For floating point\n" ++
    "numbers, this truncates towards zero.\n\n" ++
    "If x is not a number or if base is given, then x must be a string,\n" ++
    "bytes, or bytearray instance representing an integer literal in the\n" ++
    "given base.  The literal can be preceded by '+' or '-' and be surrounded\n" ++
    "by whitespace.  The base defaults to 10.  Valid bases are 0 and 2-36.\n" ++
    "Base 0 means to interpret the base from the string as an integer literal.\n" ++
    ">>> int('0b100', base=0)\n4"
  | _ => none

/-- How a kind calls for what makes a referent of it, if it says so. -/
def signature? : Kind → Option String
  | any => some "()"
  | row => some "(iterable=(), /)"
  | _ => none

/-- The names of a kind in their order, grouped by what they stand for. -/
def held : Kind → List (Role × List String)
  | any => [
        (.maker, ["__new__"]),
        (.slot, ["__repr__", "__hash__", "__str__", "__getattribute__", "__setattr__",
      "__delattr__", "__lt__", "__le__", "__eq__", "__ne__", "__gt__", "__ge__", "__init__"]),
        (.method, ["__reduce_ex__", "__reduce__", "__getstate__"]),
        (.own, ["__subclasshook__", "__init_subclass__"]),
        (.method, ["__format__", "__sizeof__", "__dir__"]),
        (.property, ["__class__"]),
        (.description, ["__doc__"])]
  | kind => [
        (.maker, ["__new__"]),
        (.slot, ["__repr__", "__call__", "__getattribute__", "__setattr__", "__delattr__",
      "__init__", "__or__", "__ror__"]),
        (.method, ["mro", "__subclasses__"]),
        (.own, ["__prepare__"]),
        (.method, ["__instancecheck__", "__subclasscheck__", "__dir__", "__sizeof__"]),
        (.field, ["__basicsize__", "__itemsize__", "__flags__", "__weakrefoffset__", "__base__",
      "__dictoffset__", "__mro__"]),
        (.property, ["__name__", "__qualname__", "__bases__", "__module__", "__abstractmethods__",
      "__dict__", "__doc__", "__text_signature__", "__annotations__"])]
  | text => [
        (.maker, ["__new__"]),
        (.slot, ["__repr__", "__hash__", "__str__", "__getattribute__", "__lt__", "__le__",
      "__eq__", "__ne__", "__gt__", "__ge__", "__iter__", "__mod__", "__rmod__", "__len__",
      "__getitem__", "__add__", "__mul__", "__rmul__", "__contains__"]),
        (.method, ["encode", "replace", "split", "rsplit", "join", "capitalize", "casefold",
      "title", "center", "count", "expandtabs", "find", "partition", "index", "ljust", "lower",
      "lstrip", "rfind", "rindex", "rjust", "rstrip", "rpartition", "splitlines", "strip",
      "swapcase", "translate", "upper", "startswith", "endswith", "removeprefix", "removesuffix",
      "isascii", "islower", "isupper", "istitle", "isspace", "isdecimal", "isdigit", "isnumeric",
      "isalpha", "isalnum", "isidentifier", "isprintable", "zfill", "format", "format_map",
      "__format__"]),
        (.free, ["maketrans"]),
        (.method, ["__sizeof__", "__getnewargs__"]),
        (.description, ["__doc__"])]
  | row => [
        (.maker, ["__new__"]),
        (.slot, ["__repr__", "__hash__", "__getattribute__", "__lt__", "__le__", "__eq__",
      "__ne__", "__gt__", "__ge__", "__iter__", "__len__", "__getitem__", "__add__", "__mul__",
      "__rmul__", "__contains__"]),
        (.method, ["__getnewargs__", "index", "count"]),
        (.own, ["__class_getitem__"]),
        (.description, ["__doc__"])]
  | nothing => [
        (.maker, ["__new__"]),
        (.slot, ["__repr__", "__bool__"]),
        (.absent, ["__doc__"])]
  | number => [
        (.maker, ["__new__"]),
        (.slot, ["__repr__", "__hash__", "__getattribute__", "__lt__", "__le__", "__eq__",
      "__ne__", "__gt__", "__ge__", "__add__", "__radd__", "__sub__", "__rsub__", "__mul__",
      "__rmul__", "__mod__", "__rmod__", "__divmod__", "__rdivmod__", "__pow__", "__rpow__",
      "__neg__", "__pos__", "__abs__", "__bool__", "__invert__", "__lshift__", "__rlshift__",
      "__rshift__", "__rrshift__", "__and__", "__rand__", "__xor__", "__rxor__", "__or__",
      "__ror__", "__int__", "__float__", "__floordiv__", "__rfloordiv__", "__truediv__",
      "__rtruediv__", "__index__"]),
        (.method, ["conjugate", "bit_length", "bit_count", "to_bytes"]),
        (.own, ["from_bytes"]),
        (.method, ["as_integer_ratio", "__trunc__", "__floor__", "__ceil__", "__round__",
      "__getnewargs__", "__format__", "__sizeof__"]),
        (.property, ["real", "imag", "numerator", "denominator"]),
        (.description, ["__doc__"])]
  | table => [
        (.maker, ["__new__"]),
        (.slot, ["__repr__", "__str__", "__getattribute__", "__lt__", "__le__", "__eq__", "__ne__",
      "__gt__", "__ge__", "__iter__", "__or__", "__ror__", "__ior__", "__len__", "__getitem__",
      "__contains__"]),
        (.method, ["get", "keys", "values", "items", "copy"]),
        (.own, ["__class_getitem__"]),
        (.method, ["__reversed__"]),
        (.absent, ["__doc__", "__hash__"])]
  | method | slot => [
        (.slot, ["__repr__", "__call__", "__getattribute__", "__get__"]),
        (.method, ["__reduce__"]),
        (.field, ["__objclass__", "__name__"]),
        (.property, ["__doc__", "__qualname__", "__text_signature__"])]
  | own => [
        (.slot, ["__repr__", "__call__", "__getattribute__", "__get__"]),
        (.field, ["__objclass__", "__name__"]),
        (.property, ["__doc__", "__qualname__", "__text_signature__"])]
  | free => [
        (.maker, ["__new__"]),
        (.slot, ["__repr__", "__call__", "__get__", "__init__"]),
        (.field, ["__func__", "__wrapped__"]),
        (.property, ["__isabstractmethod__", "__dict__"]),
        (.description, ["__doc__"])]
  | field => [
        (.slot, ["__repr__", "__getattribute__", "__get__", "__set__", "__delete__"]),
        (.method, ["__reduce__"]),
        (.field, ["__objclass__", "__name__"]),
        (.property, ["__doc__", "__qualname__"])]
  | property => [
        (.slot, ["__repr__", "__getattribute__", "__get__", "__set__", "__delete__"]),
        (.field, ["__objclass__", "__name__"]),
        (.property, ["__doc__", "__qualname__"])]
  | boundMethod => [
        (.slot, ["__repr__", "__hash__", "__call__", "__getattribute__", "__lt__", "__le__",
      "__eq__", "__ne__", "__gt__", "__ge__"]),
        (.method, ["__reduce__"]),
        (.field, ["__module__"]),
        (.property, ["__doc__", "__name__", "__qualname__", "__self__", "__text_signature__"])]
  | boundSlot => [
        (.slot, ["__repr__", "__hash__", "__call__", "__getattribute__", "__lt__", "__le__",
      "__eq__", "__ne__", "__gt__", "__ge__"]),
        (.method, ["__reduce__"]),
        (.field, ["__self__"]),
        (.property, ["__objclass__", "__name__", "__qualname__", "__doc__", "__text_signature__"])]

/-- What a name of a kind stands for, without the kinds above it. -/
def role? (k : Kind) (name : String) : Option Role :=
  (k.held.find? (·.2.contains name)).map (·.1)

/-- What the interpreter says about a kind: its marks, how many bytes of memory a referent of the kind
takes and each entry of it, and where its table and what watches it are. -/
def measures (k : Kind) : List (String × Nat) :=
  ["__flags__", "__basicsize__", "__itemsize__", "__dictoffset__", "__weakrefoffset__"].zip <|
    match k with
    | any => [529664, 16, 0, 0, 0]
    | kind => [2148031744, 904, 40, 264, 368]
    | text => [273159424, 80, 0, 0, 0]
    | row => [71849248, 24, 8, 0, 0]
    | nothing => [528640, 16, 0, 0, 0]
    | number => [21501184, 24, 4, 0, 0]
    | table => [545088, 24, 0, 0, 0]
    | method => [678272, 56, 0, 0, 0]
    | slot => [676224, 56, 0, 0, 0]
    | own => [545152, 56, 0, 0, 0]
    | free => [546048, 32, 0, 24, 0]
    | field | property => [545152, 48, 0, 0, 0]
    | boundMethod => [547200, 56, 0, 0, 40]
    | boundSlot => [545152, 32, 0, 0, 0]

end Kind

/-- What a kind holds under a name. -/
structure Operation where
  name : String
  owner : Kind
  role : Role
deriving DecidableEq

namespace Operation

def isSlot (o : Operation) : Bool := o.role == .slot

/-- The kind of what a kind holds. -/
def kind (o : Operation) : Kind :=
  match o.role with
  | .slot => .slot
  | .own => .own
  | .free => .free
  | .field => .field
  | .property => .property
  | _ => .method

/-- An operation that is carried out on a referent of some kind. -/
def shownOn (o : Operation) (subject : Kind) : String :=
  if o.isSlot then s!"<method-wrapper '{o.name}' of {subject.name} object>"
  else s!"<built-in method {o.name} of {subject.name} object>"

def shown (o : Operation) : String :=
  match o.role with
  | .slot => s!"<slot wrapper '{o.name}' of '{o.owner.name}' objects>"
  | .field => s!"<member '{o.name}' of '{o.owner.name}' objects>"
  | .property => s!"<attribute '{o.name}' of '{o.owner.name}' objects>"
  | .free => s!"<staticmethod({o.shownOn .kind})>"
  | _ => s!"<method '{o.name}' of '{o.owner.name}' objects>"

end Operation

/-- What a kind or one of the kinds above it holds under a name. -/
def Kind.operation? (k : Kind) (name : String) : Option Operation :=
  k.lineage.findSome? fun owner => (owner.role? name).map (⟨name, owner, ·⟩)

inductive Referent where
  | text (s : String)
  | number (n : Nat)
  | kind (k : Kind)
  | row (kinds : List Kind)
  | nothing
  | operation (o : Operation)
  /-- An operation together with what it is to be carried out on. -/
  | bound (o : Operation) (subject : Referent)
  /-- All that a kind holds, by names. -/
  | table (k : Kind)

/-- The text that stands for a description. -/
def Kind.describedBy (k : Kind) : String := (k.description?.map quoted).getD "None"

/-- The names of a kind with what it holds under each of them. -/
def Kind.shownTable (k : Kind) : String :=
  let entry (role : Role) (name : String) : String :=
    match role with
    | .maker => Operation.shownOn ⟨name, k, role⟩ .kind
    | .description => k.describedBy
    | .absent => "None"
    | role => Operation.shown ⟨name, k, role⟩
  let entries := k.held.flatMap fun (role, names) =>
    names.map fun name => s!"{quoted name}: {entry role name}"
  "\x7b" ++ ", ".intercalate entries ++ "\x7d"

namespace Referent

def kindOf : Referent → Kind
  | text _ => .text
  | number _ => .number
  | kind _ => .kind
  | row _ => .row
  | nothing => .nothing
  | operation o => o.kind
  | bound o _ => if o.isSlot then .boundSlot else .boundMethod
  | table _ => .table

/-- How messages speak of a referent. -/
def title : Referent → String
  | kind k => s!"type object '{k.name}'"
  | r => s!"'{r.kindOf.name}' object"

def shown : Referent → String
  | text s => s
  | number n => toString n
  | kind k => k.shown
  | row kinds =>
    "(" ++ ", ".intercalate (kinds.map Kind.shown) ++ (if kinds.length == 1 then ",)" else ")")
  | nothing => "None"
  | operation o => o.shown
  | bound o subject => o.shownOn subject.kindOf
  | table k => k.shownTable

def ofText? : Option String → Referent
  | some s => text s
  | none => nothing

/-- The name of an operation behind the name of its kind. -/
def fullName (o : Operation) (k : Kind) : Referent := text s!"{k.name}.{o.name}"

/-- An operation that needs no referent of its kind. -/
def standing (o : Operation) (k : Kind) : Option Referent :=
  match o.role with
  | .maker | .free => some (bound o (kind o.owner))
  | .own => some (bound o (kind k))
  | _ => none

/-- The operation of a kind, carried out on a referent. -/
def boundTo (subject : Referent) (k : Kind) (name : String) : Option Referent := do
  let o ← k.operation? name
  match o.role with
  | .slot | .method => some (bound o subject)
  | _ => standing o k

/-- What a kind holds under a name, carried out on nothing yet. -/
def heldBy (k : Kind) (o : Operation) : Option Referent :=
  match o.role with
  | .description => some (ofText? k.description?)
  | .absent => some nothing
  | .maker | .own | .free => standing o k
  | _ => some (operation o)

/-- The member of a kind. What all kinds have comes first, then what is of the kind. -/
def ofKind (k : Kind) (name : String) : Option Referent :=
  match name with
  | "__class__" => some (kind .kind)
  | "__name__" | "__qualname__" => some (text k.name)
  | "__module__" => some (text "builtins")
  | "__doc__" =>
    some <| if k.role? name == some .property && k != .kind then operation ⟨name, k, .property⟩
      else ofText? k.description?
  | "__mro__" => some (row k.lineage)
  | "__bases__" => some (row (k.lineage.drop 1))
  | "__base__" => some (if k == .any then nothing else kind .any)
  | "__text_signature__" => some (ofText? k.signature?)
  | "__dict__" => some (table k)
  | "__abstractmethods__" => none
  | _ =>
    (k.measures.lookup name).map number <|> (k.operation? name).bind (heldBy k) <|>
      boundTo (kind k) .kind name

/-- The member of an operation that is carried out on `subject`, if it is. -/
def ofOperation (o : Operation) (subject : Option Referent) (name : String) : Option Referent :=
  let isMethod := subject.isSome && !o.isSlot
  match name with
  | "__name__" => some (text o.name)
  | "__qualname__" =>
    some <| match subject with
      | some (kind k) => fullName o k
      | some r => fullName o (if isMethod then r.kindOf else o.owner)
      | none => fullName o o.owner
  | "__objclass__" => if isMethod then none else some (kind o.owner)
  | "__module__" => if isMethod then some nothing else none
  | "__self__" => if o.role == .free then some nothing else subject
  | _ =>
    let r := match subject with
      | some s => bound o s
      | none => operation o
    boundTo r r.kindOf name

/-- The member of a number. -/
def ofNumber (n : Nat) (name : String) : Option Referent :=
  match name with
  | "real" | "numerator" => some (number n)
  | "imag" => some (number 0)
  | "denominator" => some (number 1)
  | _ => boundTo (number n) .number name

/-- The member of a referent. -/
def member? (r : Referent) (name : String) : Option Referent :=
  match r with
  | kind k => ofKind k name
  | r =>
    if name == "__class__" then some (kind r.kindOf)
    else
      match r with
      | operation o => ofOperation o none name
      | bound o subject => ofOperation o (some subject) name
      | r =>
        if name == "__doc__" then some (ofText? r.kindOf.description?)
        else
          match r with
          | number n => ofNumber n name
          | r => boundTo r r.kindOf name

/-- The entry of a table. -/
def entry? (k : Kind) (name : String) : Option Referent := do
  let role ← k.role? name
  match role with
  | .own | .free => some (operation ⟨name, k, role⟩)
  | _ => heldBy k ⟨name, k, role⟩

/-- The notation of a referent: texts stand in quotes, and a table has its kind before it. -/
def quotedForm : Referent → String
  | text s => quoted s
  | table k => s!"{Kind.table.name}({k.shownTable})"
  | r => r.shown

end Referent
end SchemaCompiler.Text
