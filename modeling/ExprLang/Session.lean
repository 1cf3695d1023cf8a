import ExprLang.Cache
import ExprLang.Engine

/-!
# Sessions

A session is the work with one engine, one cache and one context, step by step.

* `Session`        the state: the context, the cache and the requests that the host got;
* `Session.Step`   what can be done, `Session.Reply` what comes of it;
* `Session.next`   one step;
* `Session.run`    the replies to a list of steps.
-/

namespace ExprLang

structure Session where
  context : Context := {}
  cache : Cache := {}
  /-- the requests to the host, the latest one first -/
  requests : List Request := []

namespace Session

inductive Step where
  /-- evaluates a text, whose tree may come from the cache -/
  | eval (text : String)
  /-- parses a text anew and evaluates it -/
  | parseEval (text : String)
  /-- empties the cache -/
  | clear
  | set (name : String) (v : Value)
  | extend (bindings : List (String × Value))
  | get (name : String)
  | remove (name : String)
  /-- lists the names of the context -/
  | names

inductive Reply where
  /-- of an evaluation -/
  | answer (r : Except ExpressionError Value)
  /-- the value that a name has, or had -/
  | found (v : Option Value)
  /-- sorted by the code points of the characters -/
  | names (names : List String)
  | done

/-- the state after an evaluation -/
def evaluated (s : Session) (answer : Engine.Answer) : Reply × Session :=
  (.answer answer.1, { s with requests := answer.2 })

def next (g : Engine) (s : Session) : Step → Reply × Session
  | .eval text =>
    let (tree, cache) := s.cache.fetch (Text.trim text) g.tree
    let s := { s with cache }
    match tree with
    | .error e => (.answer (.error (.badSyntax e)), s)
    | .ok e => s.evaluated (g.evaluate s.context e s.requests)
  | .parseEval text => s.evaluated (g.run s.context text s.requests)
  | .clear => (.done, { s with cache := s.cache.clear })
  | .set name v => (.done, { s with context := s.context.set name v })
  | .extend bindings => (.done, { s with context := s.context.extend bindings })
  | .get name => (.found (s.context.get? name), s)
  | .remove name =>
    (.found (s.context.get? name), { s with context := s.context.remove name })
  | .names => (.names (s.context.names.mergeSort fun a b => a ≤ b), s)

def run (g : Engine) (s : Session) : List Step → List Reply × Session
  | [] => ([], s)
  | step :: rest =>
    let (reply, s) := s.next g step
    let (replies, s) := s.run g rest
    (reply :: replies, s)

end Session

end ExprLang
