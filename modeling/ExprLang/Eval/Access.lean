import ExprLang.EvalError

/-!
# Members, calls and positions

The steps of an evaluation that reach into values.  A step may ask the host, and may fail; it keeps
the requests that the host got, the latest one first.

* `EvalM`                  an evaluation: a value or an error, and the requests;
* `Host.ask`               the answer to a request, which is kept;
* `Host.readMember`        `target.name`;
* `Host.callValue`         `callee(args)`;
* `Host.callMethod`        `target.name(args)`: a method, or else a member that can be called;
* `Host.valueAt`           `target[key]`.
-/

namespace ExprLang

abbrev EvalM := ExceptT EvalError (StateM (List Request))

/-- an evaluation that asks nothing -/
def EvalM.ofExcept {α : Type} (r : Except EvalError α) : EvalM α := ExceptT.mk (pure r)

/-- the position that a number stands for in a thing of a length -/
def checkedIndex (index : Decimal) (length : Nat) : Except EvalError Nat :=
  if index.isIntegral then
    match index.toIndex? with
    | some i => if i < length then .ok i else .error (.indexOutOfRange index length)
    | none => .error (.indexOutOfRange index length)
  else .error (.fractionalIndex index)

/-- the item at a position -/
def itemAt (items : List Value) (index : Decimal) : Except EvalError Value :=
  (checkedIndex index items.length).map fun i => (items[i]?).getD .null

/-- the character at a position, as a text -/
def characterAt (s : String) (index : Decimal) : Except EvalError Value :=
  (checkedIndex index s.toList.length).map fun i =>
    match s.toList[i]? with
    | some c => .text (String.singleton c)
    | none => .null

/-- the error of a member of a value that the host did not give -/
def memberError (name : String) (target : Value) : HostError → EvalError
  | .notFound => .memberNotFound name target.typeName
  | .notCallable => .notCallable target.typeName
  | .failed failure => .hostFailed name failure

/-- the error of a call, described by the name, that the host did not answer -/
def callError (name : String) (callee : Value) : HostError → EvalError
  | .notFound | .notCallable => .notCallable callee.typeName
  | .failed failure => .hostFailed name failure

/-- the error of a position that the host did not give -/
def indexError (target : Value) : HostError → EvalError
  | .notFound | .notCallable => .notIndexable target.typeName
  | .failed failure => .hostFailed "[]" failure

namespace Host

def ask (h : Host) (request : Request) : EvalM (Except HostError Value) := do
  let earlier ← get
  set (request :: earlier)
  return h.answer earlier request

def readMember (h : Host) (target : Value) (name : String) : EvalM Value := do
  match ← h.ask (.read target name) with
  | .ok v => return v
  | .error e => throw (memberError name target e)

def callValue (h : Host) (callee : Value) (args : List Value) (name : String) : EvalM Value :=
  match callee with
  | .callable _ => do
    match ← h.ask (.call callee args) with
    | .ok v => return v
    | .error e => throw (callError name callee e)
  | _ => throw (.notCallable callee.typeName)

def callMethod (h : Host) (target : Value) (name : String) (args : List Value) : EvalM Value := do
  match ← h.ask (.invoke target name args) with
  | .ok v => return v
  | .error .notFound =>
    let callee ← h.readMember target name
    h.callValue callee args name
  | .error e => throw (memberError name target e)

def valueAt (h : Host) (target key : Value) : EvalM Value :=
  match target, key with
  | .sequence items, .number index => EvalM.ofExcept (itemAt items index)
  | .text s, .number index => EvalM.ofExcept (characterAt s index)
  | .sequence _, _ | .text _, _ => throw (.indexOperands target.kind key.kind)
  | .mapping entries, _ =>
    match Value.Entries.find? entries key with
    | some v => return v
    | none => throw (.keyNotFound key)
  | _, _ => do
    match ← h.ask (.index target key) with
    | .ok v => return v
    | .error e => throw (indexError target e)

end Host

end ExprLang
