import ExprLang.Member.Collection
import ExprLang.Member.Text
import ExprLang.Member.Time

/-!
# The built-in members of every kind

* `Value.Kind.memberNames`   the names of the members of a kind, in alphabetical order;
* `Value.property?`          reading a property;
* `Value.callMethod?`        calling a method;
* `Value.readMember?`        what `v.Name` reads: an entry of a mapping comes before its properties.

None of them says that there is no such member.
-/

namespace ExprLang

def numberMembers : MemberTable Decimal := [("ToString", .noArguments fun a => .text a.toText)]

def booleanMembers : MemberTable Bool :=
  [("ToString", .noArguments fun b => .text (Value.boolean b).display)]

namespace Value

def Kind.memberNames : Kind → List String
  | .boolean => booleanMembers.names
  | .number => numberMembers.names
  | .text => textMembers.names
  | .dateTime => dateTimeMembers.names
  | .duration => durationMembers.names
  | .sequence => sequenceMembers.names
  | .mapping => mappingMembers.names
  | .null | .callable | .hostObject => []

/-- has the kind a member of the name -/
def Kind.hasMember (k : Kind) (name : String) : Bool := k.memberNames.contains name

def property? (v : Value) (name : String) : Option Value :=
  match v with
  | .boolean b => booleanMembers.read? b name
  | .number a => numberMembers.read? a name
  | .text s => textMembers.read? s name
  | .dateTime t => dateTimeMembers.read? t name
  | .duration d => durationMembers.read? d name
  | .sequence items => sequenceMembers.read? items name
  | .mapping entries => mappingMembers.read? entries name
  | _ => none

def callMethod? (v : Value) (name : String) (args : List Value) :
    Option (Except ArgumentFault Value) :=
  match v with
  | .boolean b => booleanMembers.call? b name args
  | .number a => numberMembers.call? a name args
  | .text s => textMembers.call? s name args
  | .dateTime t => dateTimeMembers.call? t name args
  | .duration d => durationMembers.call? d name args
  | .sequence items => sequenceMembers.call? items name args
  | .mapping entries => mappingMembers.call? entries name args
  | _ => none

/-- the value of the entry that has the name for its key, in a mapping -/
def namedEntry? (v : Value) (name : String) : Option Value :=
  match v with
  | .mapping entries => Entries.find? entries (.text name)
  | _ => none

def readMember? (v : Value) (name : String) : Option Value :=
  match v.namedEntry? name with
  | some entry => some entry
  | none => v.property? name

end Value

end ExprLang
