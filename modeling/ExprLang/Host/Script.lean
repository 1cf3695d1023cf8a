import ExprLang.Host

/-!
# Scripted hosts

A scripted host is described by tables: what its functions do, and which members, methods and
entries its objects have.  It serves to try expressions without a host of their own.

* `Act`, `ObjectScript`, `Script`   the tables;
* `Script.host`                     the host they describe;
* `Script.reaches`                  does a request get to a function or an object of the script.
-/

namespace ExprLang

/-- what a scripted function does -/
inductive Act where
  /-- gives the first argument, null if there is none -/
  | echo
  /-- gives the number of arguments -/
  | count
  /-- gives the arguments as a sequence -/
  | arguments
  | constant (v : Value)
  | fail (error : HostError)
deriving Inhabited

def Act.run (args : List Value) : Act → Except HostError Value
  | .echo => .ok (args.headD .null)
  | .count => .ok (.count args.length)
  | .arguments => .ok (.sequence args)
  | .constant v => .ok v
  | .fail error => .error error

/-- what a scripted object has -/
structure ObjectScript where
  members : List (String × Except HostError Value)
  methods : List (String × Act)
  entries : List (Value × Except HostError Value)

/-- functions and objects by the identity of their handles -/
structure Script where
  functions : List (Nat × Act) := []
  objects : List (Nat × ObjectScript) := []

namespace Script

/-- the functions of the script -/
def function? (s : Script) : Functions := fun handle =>
  (s.functions.lookup handle.identity).map fun act args => act.run args

/-- the object of the script that a value is -/
def object? (s : Script) : Value → Option ObjectScript
  | .hostObject handle _ => s.objects.lookup handle.identity
  | _ => none

/-- the first entry of the key -/
def lookup? (o : ObjectScript) (key : Value) : Option (Except HostError Value) :=
  (o.entries.find? fun e => e.1.same key).map (·.2)

/-- what is not there is not found -/
def orNotFound (found : Option (Except HostError Value)) : Except HostError Value :=
  found.getD (.error .notFound)

def answer (s : Script) (request : Request) : Except HostError Value :=
  let standard := Host.standardAnswer s.function? request
  match request with
  | .read target name =>
    match s.object? target with
    | some o => orNotFound (o.members.lookup name)
    | none => standard
  | .invoke target name args =>
    match s.object? target with
    | some o => orNotFound ((o.methods.lookup name).map (·.run args))
    | none => standard
  | .index target key =>
    match s.object? target with
    | some o => orNotFound (lookup? o key)
    | none => standard
  | .call _ _ => standard

def host (s : Script) : Host where
  answer _ request := s.answer request

def reaches (s : Script) : Request → Bool
  | .call (.callable handle) _ => (s.function? handle).isSome
  | .call _ _ => false
  | .read target _ | .invoke target _ _ | .index target _ => (s.object? target).isSome

end Script

end ExprLang
