import ExprLang.Member.Builtin

/-!
# Hosts

Members, methods, calls and the indexing of host objects are not the evaluator's own: it asks the
host.  A host answers each request; its answer may depend on the requests before.

* `HostError`, `HostFailure`   why a host has no answer;
* `Request`                    what a host is asked;
* `Host`                       the answers, given the earlier requests, the latest one first;
* `Host.standard`              knows the built-in members and the functions of a table.
-/

namespace ExprLang

/-- why a member that exists gave no value -/
inductive HostFailure where
  /-- the built-in method got other arguments than it needs -/
  | arguments (member : String) (fault : ArgumentFault)
  /-- the host's own message -/
  | raised (message : String)
deriving DecidableEq, Repr

def HostFailure.message : HostFailure → String
  | .arguments member fault => member ++ ": " ++ fault.message
  | .raised message => message

inductive HostError where
  /-- there is no such member -/
  | notFound
  /-- the member cannot be called -/
  | notCallable
  | failed (failure : HostFailure)
deriving DecidableEq, Repr

def HostError.message : HostError → String
  | .notFound => "member not found"
  | .notCallable => "member is not callable"
  | .failed failure => "host call failed: " ++ failure.message

inductive Request where
  /-- `target.name` -/
  | read (target : Value) (name : String)
  /-- `target.name(args)` -/
  | invoke (target : Value) (name : String) (args : List Value)
  /-- `callee(args)` -/
  | call (callee : Value) (args : List Value)
  /-- `target[key]` -/
  | index (target key : Value)

structure Host where
  answer : List Request → Request → Except HostError Value

/-- the functions behind callable values -/
abbrev Functions := Handle → Option (List Value → Except HostError Value)

namespace Host

/-- the built-in property, or the entry, of the name -/
def standardRead (target : Value) (name : String) : Except HostError Value :=
  match target.readMember? name with
  | some v => .ok v
  | none => .error .notFound

/-- the built-in method of the name -/
def standardInvoke (target : Value) (name : String) (args : List Value) : Except HostError Value :=
  match target.callMethod? name args with
  | some (.ok v) => .ok v
  | some (.error fault) => .error (.failed (.arguments name fault))
  | none => .error .notFound

/-- the function behind the callable value -/
def standardCall (functions : Functions) (callee : Value) (args : List Value) :
    Except HostError Value :=
  match callee with
  | .callable handle =>
    match functions handle with
    | some f => f args
    | none => .error .notCallable
  | _ => .error .notCallable

def standardAnswer (functions : Functions) : Request → Except HostError Value
  | .read target name => standardRead target name
  | .invoke target name args => standardInvoke target name args
  | .call callee args => standardCall functions callee args
  | .index _ _ => .error .notFound

def standard (functions : Functions) : Host where
  answer _ request := standardAnswer functions request

end Host

end ExprLang
