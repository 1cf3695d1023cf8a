import ExprLang.Member.Argument
import ExprLang.Value.Display

/-!
# Built-in members

A built-in member of the values of a kind is either read, `v.Name`, or called, `v.Name(args)`.
Members of a kind form a table, in the alphabetical order of their names.

* `Member α`         a member of the things `α`;
* `MemberTable α`    the members of the things `α`, by name;
* `Member.noArguments`, `oneArgument`   methods with a fixed number of arguments.
-/

namespace ExprLang

inductive Member (α : Type) where
  | property (read : α → Value)
  | method (call : α → List Value → Except ArgumentFault Value)

abbrev MemberTable (α : Type) := List (String × Member α)

namespace Member

/-- a method without arguments -/
def noArguments {α : Type} (call : α → Value) : Member α :=
  .method fun target args =>
    match args with
    | [] => .ok (call target)
    | args => .error (.count 0 args.length)

/-- a method with one argument -/
def oneArgument {α : Type} (call : α → Value → Except ArgumentFault Value) : Member α :=
  .method fun target args =>
    match args with
    | [arg] => call target arg
    | args => .error (.count 1 args.length)

end Member

/-- a position, or minus one for none -/
def positionValue : Option Nat → Value
  | some i => .count i
  | none => .int (-1)

namespace MemberTable

def names {α : Type} (table : MemberTable α) : List String := table.map (·.1)

/-- the value of a property, none if there is no property of the name -/
def read? {α : Type} (table : MemberTable α) (target : α) (name : String) : Option Value :=
  match table.lookup name with
  | some (.property read) => some (read target)
  | _ => none

/-- the answer of a method, none if there is no method of the name -/
def call? {α : Type} (table : MemberTable α) (target : α) (name : String) (args : List Value) :
    Option (Except ArgumentFault Value) :=
  match table.lookup name with
  | some (.method call) => some (call target args)
  | _ => none

end MemberTable

end ExprLang
