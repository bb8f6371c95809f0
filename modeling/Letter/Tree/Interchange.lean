import Letter.Tree.Basic

/-!
# Trees as JSON values

A node is written as an object: its tag under `type`, then its fields in order.  Reading
an object looks at the tag first, then reads the fields of that kind that are present, in
their order, and asks last whether a field is missing; members that are no fields of the
kind are not looked at.
-/

namespace Letter

/-- Why a JSON value is not read as a node. -/
inductive DecodeError where
  /-- The value is not an object. -/
  | notObject (typeName : String)
  /-- The tag, shown in its literal form, is not that of a kind. -/
  | unknownTag (literal : String)
  /-- Fields that have to be given are missing. -/
  | missingFields (kind : Kind) (names : List String)
  deriving DecidableEq, Repr

/-- Quoted names in a sentence: `a`, `a and b`, or `a, b, and c`. -/
def enumerated : List String → String
  | [] => ""
  | [a] => quoted a
  | [a, b] => quoted a ++ " and " ++ quoted b
  | names =>
    ", ".intercalate (names.dropLast.map quoted) ++ ", and "
      ++ quoted (names.getLast?.getD "")

/-- The text of an error. -/
def DecodeError.message : DecodeError → String
  | notObject typeName => "'" ++ typeName ++ "' object has no attribute 'get'"
  | unknownTag literal => "Unknown AST node type: " ++ literal
  | missingFields kind names =>
    kind.tag ++ ".__init__() missing " ++ toString names.length
      ++ " required positional argument" ++ (if names.length = 1 then "" else "s") ++ ": "
      ++ enumerated names

namespace Tree

/-! ### Writing -/

/-- The object of a node, given its kind and the values of its fields. -/
def object (kind : Kind) (values : List Json) : Json :=
  .object (("type", .scalar (.text kind.tag)) :: (kind.fields.map Kind.Field.name).zip values)

mutual

/-- The JSON value of a tree. -/
def toJson : Tree → Json
  | scalar v => .scalar v
  | list items => .list (toJsons items)
  | program body => object .program [toJson body]
  | block body => object .block [toJson body]
  | empty => object .empty []
  | expression e => object .expression [toJson e]
  | declare ds => object .declare [toJson ds]
  | declaration id init => object .declaration [toJson id, toJson init]
  | condition test c a => object .condition [toJson test, toJson c, toJson a]
  | assignment o l r => object .assignment [toJson o, toJson l, toJson r]
  | logical o l r => object .logical [toJson o, toJson l, toJson r]
  | binary o l r => object .binary [toJson o, toJson l, toJson r]
  | unary o a => object .unary [toJson o, toJson a]
  | member c o p => object .member [toJson c, toJson o, toJson p]
  | call c as => object .call [toJson c, toJson as]
  | super => object .super []
  | identifier name => object .identifier [toJson name]
  | number v => object .number [toJson v]
  | string v => object .string [toJson v]
  | boolean v => object .boolean [toJson v]
  | null => object .null []

/-- The JSON values of trees. -/
def toJsons : List Tree → List Json
  | [] => []
  | t :: ts => toJson t :: toJsons ts

end

/-! ### Reading -/

/-- What reading each member of an object comes to. -/
abbrev Members : Type := List (String × Except DecodeError Tree)

/-- The first error among the fields that are present. -/
def faultyField? (members : Members) : List Kind.Field → Option DecodeError
  | [] => none
  | f :: later =>
    match members.lookup f.name with
    | some (.error e) => some e
    | _ => faultyField? members later

/-- The names of the fields that have to be given and are not. -/
def missingFields (members : Members) (fields : List Kind.Field) : List String :=
  (fields.filter fun f => f.default?.isNone && (members.lookup f.name).isNone).map
    Kind.Field.name

/-- The value of a field: the one that is present, or else its default. -/
def fieldValue (members : Members) (fields : List Kind.Field) (name : String) : Tree :=
  match members.lookup name with
  | some (.ok t) => t
  | _ => ((fields.find? fun f => f.name == name).bind Kind.Field.default?).getD (.scalar .null)

/-- The node of a kind whose fields are among the members. -/
def ofMembers (kind : Kind) (members : Members) : Except DecodeError Tree :=
  match faultyField? members kind.fields with
  | some e => .error e
  | none =>
    match missingFields members kind.fields with
    | [] => .ok (kind.node (fieldValue members kind.fields))
    | names => .error (.missingFields kind names)

/-- The kind that the tag of an object names. -/
def tagKind (members : List (String × Json)) : Except DecodeError Kind :=
  match members.lookup "type" with
  | none => .error (.unknownTag Scalar.null.literal)
  | some (.scalar (.text s)) =>
    match Kind.ofTag? s with
    | some kind => .ok kind
    | none => .error (.unknownTag (quoted s))
  | some other => .error (.unknownTag other.literal)

mutual

/-- The tree of a JSON value. -/
def ofJson : Json → Except DecodeError Tree
  | .scalar v => .ok (.scalar v)
  | .list items => do return .list (← ofJsons items)
  | .object members => do ofMembers (← tagKind members) (ofJsonMembers members)

/-- The trees of JSON values. -/
def ofJsons : List Json → Except DecodeError (List Tree)
  | [] => .ok []
  | v :: later => do
    let t ← ofJson v
    return t :: (← ofJsons later)

/-- What reading the members of an object comes to. -/
def ofJsonMembers : List (String × Json) → Members
  | [] => []
  | (name, v) :: later => (name, ofJson v) :: ofJsonMembers later

end

/-- The tree of a JSON value that has to be an object. -/
def ofObject (v : Json) : Except DecodeError Tree :=
  match v with
  | .object _ => ofJson v
  | other => .error (.notObject other.typeName)

end Tree

end Letter
