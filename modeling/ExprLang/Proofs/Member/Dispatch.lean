import ExprLang.Proofs.Semantics.Folding
import ExprLang.Proofs.Semantics.Invariant

/-!
# What calling and reading a member come to

* `Value.Kind.hasMethod`, `hasProperty`     has the kind a method, or a property, of the name;
* `Value.builtins?`                         the table of members registered for the kind of a value,
                                            with the thing they are members of;
* `Dispatch`                                what a call `recv.name(args)` comes to: a built-in
                                            method, an entry of a mapping, a property, or nothing;
* `Value.Dispatches recv name args d`       the call comes to `d`: methods come first, then entries,
                                            then properties;
* `Dispatch.outcome`, `Dispatch.requests`   the value or error of such a call, and what the host is
                                            asked;
* `Value.Reads recv name r`                 reading `recv.name` gives `r`: entries come before
                                            properties;
* `Value.dispatch`, `Value.reading`         what a call and a read come to, computed.

Which of its members a kind has does not depend on the value or on the arguments
(`callMethod?_isSome`, `property?_isSome`).  A method is answered, and a property read, by the
member registered under its name (`callMethod?_eq_some`, `property?_eq_some`).  No property is
something of the host (`property?_isHost`), so only an entry can be called instead of a method.
Under the standard host each call comes to exactly one of the four, with that one's outcome:
`Evaluator.eval_dispatches`.
-/

namespace ExprLang

/-! ## the members of a kind -/

namespace MemberTable

variable {α : Type} (table : MemberTable α) (a : α) (name : String)

def hasMethod : Bool :=
  match table.lookup name with
  | some (.method _) => true
  | _ => false

def hasProperty : Bool :=
  match table.lookup name with
  | some (.property _) => true
  | _ => false

theorem call?_isSome (args : List Value) :
    (table.call? a name args).isSome = table.hasMethod name := by
  unfold call? hasMethod
  rcases table.lookup name with _ | _ | _ <;> rfl

theorem read?_isSome : (table.read? a name).isSome = table.hasProperty name := by
  unfold read? hasProperty
  rcases table.lookup name with _ | _ | _ <;> rfl

theorem contains_names :
    table.names.contains name = (table.hasMethod name || table.hasProperty name) := by
  have hlookup : table.names.contains name = (table.lookup name).isSome := by
    unfold names
    induction table with
    | nil => rfl
    | cons m table ih =>
      rw [List.map_cons, List.contains_cons, List.lookup_cons, ih]
      cases name == m.1 <;> rfl
  rw [hlookup, hasMethod, hasProperty]
  rcases table.lookup name with _ | _ | _ <;> rfl

end MemberTable

namespace Value.Kind

def hasMethod (k : Kind) (name : String) : Bool :=
  match k with
  | .boolean => booleanMembers.hasMethod name
  | .number => numberMembers.hasMethod name
  | .text => textMembers.hasMethod name
  | .dateTime => dateTimeMembers.hasMethod name
  | .duration => durationMembers.hasMethod name
  | .sequence => sequenceMembers.hasMethod name
  | .mapping => mappingMembers.hasMethod name
  | .null | .callable | .hostObject => false

def hasProperty (k : Kind) (name : String) : Bool :=
  match k with
  | .boolean => booleanMembers.hasProperty name
  | .number => numberMembers.hasProperty name
  | .text => textMembers.hasProperty name
  | .dateTime => dateTimeMembers.hasProperty name
  | .duration => durationMembers.hasProperty name
  | .sequence => sequenceMembers.hasProperty name
  | .mapping => mappingMembers.hasProperty name
  | .null | .callable | .hostObject => false

theorem hasMember_eq (k : Kind) (name : String) :
    k.hasMember name = (k.hasMethod name || k.hasProperty name) := by
  cases k <;> first | exact MemberTable.contains_names .. | rfl

end Value.Kind

namespace Value

/-- the members of the things of some type, and one of these things -/
structure Builtins where
  Target : Type
  target : Target
  table : MemberTable Target

/-- what is registered for the kind of a value -/
def builtins? : Value → Option Builtins
  | .boolean b => some ⟨Bool, b, booleanMembers⟩
  | .number a => some ⟨Decimal, a, numberMembers⟩
  | .text s => some ⟨String, s, textMembers⟩
  | .dateTime t => some ⟨DateTime, t, dateTimeMembers⟩
  | .duration d => some ⟨Duration, d, durationMembers⟩
  | .sequence items => some ⟨List Value, items, sequenceMembers⟩
  | .mapping entries => some ⟨Entries, entries, mappingMembers⟩
  | .null | .callable _ | .hostObject .. => none

theorem callMethod?_eq (v : Value) (name : String) (args : List Value) :
    v.callMethod? name args = v.builtins?.bind fun b => b.table.call? b.target name args := by
  cases v <;> rfl

theorem property?_eq (v : Value) (name : String) :
    v.property? name = v.builtins?.bind fun b => b.table.read? b.target name := by
  cases v <;> rfl

theorem callMethod?_eq_some {v : Value} {name : String} {args : List Value}
    {answer : Except ArgumentFault Value} : v.callMethod? name args = some answer ↔
      ∃ b call, v.builtins? = some b ∧ b.table.lookup name = some (.method call) ∧
        call b.target args = answer := by
  rw [callMethod?_eq, Option.bind_eq_some_iff]
  simp only [MemberTable.call?_eq_some, exists_and_left]

theorem property?_eq_some {v w : Value} {name : String} : v.property? name = some w ↔
    ∃ b read, v.builtins? = some b ∧ b.table.lookup name = some (.property read) ∧
      read b.target = w := by
  rw [property?_eq, Option.bind_eq_some_iff]
  simp only [MemberTable.read?_eq_some, exists_and_left]

theorem callMethod?_isSome (v : Value) (name : String) (args : List Value) :
    (v.callMethod? name args).isSome = v.kind.hasMethod name := by
  cases v <;> first | exact MemberTable.call?_isSome .. | rfl

theorem property?_isSome (v : Value) (name : String) :
    (v.property? name).isSome = v.kind.hasProperty name := by
  cases v <;> first | exact MemberTable.read?_isSome .. | rfl

end Value

/-! ## no property is a thing of the host -/

def Member.ReadsPlain {α : Type} : Member α → Prop
  | .property read => ∀ a, (read a).kind.isHost = false
  | .method _ => True

theorem MemberTable.read?_isHost {α : Type} {table : MemberTable α}
    (h : ∀ m ∈ table, m.2.ReadsPlain) {a : α} {name : String} {v : Value}
    (hv : table.read? a name = some v) : v.kind.isHost = false := by
  obtain ⟨read, hl, rfl⟩ := read?_eq_some.1 hv
  exact h _ (mem_of_lookup hl) a

theorem readsPlain_dateTimeMembers : ∀ m ∈ dateTimeMembers, m.2.ReadsPlain := by
  unfold dateTimeMembers
  simp only [List.forall_mem_cons]
  exact ⟨trivial, trivial, trivial, trivial, fun _ => rfl, fun _ => rfl, fun _ => rfl,
    fun _ => rfl, fun _ => rfl, fun _ => rfl, fun _ => rfl, fun _ => rfl, trivial, fun _ => rfl,
    nofun⟩

theorem readsPlain_durationMembers : ∀ m ∈ durationMembers, m.2.ReadsPlain := by
  have number (read : Duration → Option Decimal) : (numberProperty read).ReadsPlain := by
    intro d
    cases hr : read d <;> simp only [hr] <;> rfl
  unfold durationMembers
  simp only [List.forall_mem_cons]
  exact ⟨fun _ => rfl, fun _ => rfl, fun _ => rfl, fun _ => rfl, trivial, number _, number _,
    number _, number _, number _, nofun⟩

namespace Value

theorem property?_isHost {v w : Value} {name : String} (h : v.property? name = some w) :
    w.kind.isHost = false := by
  unfold property? at h
  split at h
  · refine MemberTable.read?_isHost ?_ h
    exact List.forall_mem_singleton.2 trivial
  · refine MemberTable.read?_isHost ?_ h
    exact List.forall_mem_singleton.2 trivial
  · refine MemberTable.read?_isHost ?_ h
    unfold textMembers
    simp only [List.forall_mem_cons]
    exact ⟨trivial, trivial, trivial, fun _ => rfl, trivial, trivial, trivial, trivial, trivial,
      trivial, trivial, nofun⟩
  · exact MemberTable.read?_isHost readsPlain_dateTimeMembers h
  · exact MemberTable.read?_isHost readsPlain_durationMembers h
  · refine MemberTable.read?_isHost ?_ h
    unfold sequenceMembers
    simp only [List.forall_mem_cons]
    exact ⟨trivial, fun _ => rfl, trivial, fun _ => rfl, nofun⟩
  · refine MemberTable.read?_isHost ?_ h
    unfold mappingMembers
    simp only [List.forall_mem_cons]
    exact ⟨trivial, fun _ => rfl, fun _ => rfl, fun _ => rfl, nofun⟩
  · cases h

end Value

/-! ## calls and reads -/

/-- what a call of a member comes to -/
inductive Dispatch where
  /-- a built-in method, which gave this answer -/
  | method (answer : Except ArgumentFault Value)
  /-- the entry of a mapping -/
  | entry (v : Value)
  /-- a built-in property of this value -/
  | property (v : Value)
  | missing

namespace Value

inductive Dispatches (recv : Value) (name : String) (args : List Value) : Dispatch → Prop where
  | method {b : Builtins} {call : b.Target → List Value → Except ArgumentFault Value} :
      recv.builtins? = some b → b.table.lookup name = some (.method call) →
      Dispatches recv name args (.method (call b.target args))
  | entry {es : Entries} {v : Value} : recv.kind.hasMethod name = false → recv = .mapping es →
      es.find? (.text name) = some v → Dispatches recv name args (.entry v)
  | property {b : Builtins} {read : b.Target → Value} : recv.kind.hasMethod name = false →
      recv.namedEntry? name = none → recv.builtins? = some b →
      b.table.lookup name = some (.property read) →
      Dispatches recv name args (.property (read b.target))
  | missing : recv.kind.hasMember name = false → recv.namedEntry? name = none →
      Dispatches recv name args .missing

inductive Reads (recv : Value) (name : String) : Except EvalError Value → Prop where
  | entry {es : Entries} {v : Value} : recv = .mapping es → es.find? (.text name) = some v →
      Reads recv name (.ok v)
  | property {b : Builtins} {read : b.Target → Value} : recv.namedEntry? name = none →
      recv.builtins? = some b → b.table.lookup name = some (.property read) →
      Reads recv name (.ok (read b.target))
  | missing : recv.namedEntry? name = none → recv.kind.hasProperty name = false →
      Reads recv name (.error (.memberNotFound name recv.typeName))

end Value

namespace Dispatch

variable (functions : Functions) (recv : Value) (name : String) (args : List Value)

/-- calling an entry: only a function of the host gives a value -/
def entryOutcome (v : Value) : Except EvalError Value :=
  match v with
  | .callable handle =>
    match functions handle with
    | some f =>
      match f args with
      | .ok w => .ok w
      | .error (.failed failure) => .error (.hostFailed name failure)
      | .error .notFound | .error .notCallable => .error (.notCallable handle.typeName)
    | none => .error (.notCallable handle.typeName)
  | v => .error (.notCallable v.typeName)

def outcome : Dispatch → Except EvalError Value
  | .method (.ok v) => .ok v
  | .method (.error fault) => .error (.hostFailed name (.arguments name fault))
  | .entry v => entryOutcome functions name args v
  | .property v => .error (.notCallable v.typeName)
  | .missing => .error (.memberNotFound name recv.typeName)

/-- what calling an entry asks the host: a function is called once -/
def calls : Value → List Request
  | .callable handle => [.call (.callable handle) args]
  | _ => []

/-- what a call asks the host, the latest request first -/
def requests : Dispatch → List Request
  | .method _ => [.invoke recv name args]
  | .entry v => calls args v ++ [.read recv name, .invoke recv name args]
  | .property _ | .missing => [.read recv name, .invoke recv name args]

end Dispatch

/-! ## exactly one applies -/

namespace Value

variable {recv : Value} {name : String} {args : List Value}

theorem namedEntry?_eq_some {v : Value} : recv.namedEntry? name = some v ↔
    ∃ es : Entries, recv = .mapping es ∧ es.find? (.text name) = some v := by
  constructor
  · intro h
    cases recv with
    | mapping es => exact ⟨es, rfl, h⟩
    | _ => cases h
  · rintro ⟨es, rfl, h⟩
    exact h

theorem callMethod?_eq_none :
    recv.callMethod? name args = none ↔ recv.kind.hasMethod name = false := by
  rw [← callMethod?_isSome recv name args, Option.isSome_eq_false_iff, Option.isNone_iff_eq_none]

theorem property?_eq_none : recv.property? name = none ↔ recv.kind.hasProperty name = false := by
  rw [← property?_isSome, Option.isSome_eq_false_iff, Option.isNone_iff_eq_none]

/-- the first of the three that there is -/
def dispatch (recv : Value) (name : String) (args : List Value) : Dispatch :=
  match recv.callMethod? name args, recv.namedEntry? name, recv.property? name with
  | some answer, _, _ => .method answer
  | none, some v, _ => .entry v
  | none, none, some v => .property v
  | none, none, none => .missing

theorem dispatches_dispatch : recv.Dispatches name args (recv.dispatch name args) := by
  unfold dispatch
  split
  · next answer hm =>
    obtain ⟨b, call, hb, hl, rfl⟩ := callMethod?_eq_some.1 hm
    exact .method hb hl
  · next v hm he =>
    obtain ⟨es, hes, hv⟩ := namedEntry?_eq_some.1 he
    exact .entry (callMethod?_eq_none.1 hm) hes hv
  · next v hm he hp =>
    obtain ⟨b, read, hb, hl, rfl⟩ := property?_eq_some.1 hp
    exact .property (callMethod?_eq_none.1 hm) he hb hl
  · next hm he hp =>
    refine .missing ?_ he
    rw [Kind.hasMember_eq, callMethod?_eq_none.1 hm, property?_eq_none.1 hp]
    rfl

theorem Dispatches.eq {d : Dispatch} (h : recv.Dispatches name args d) :
    d = recv.dispatch name args := by
  unfold dispatch
  cases h with
  | method hb hl => rw [callMethod?_eq_some.2 ⟨_, _, hb, hl, rfl⟩]
  | entry hm hes hv =>
    have he := namedEntry?_eq_some.2 ⟨_, hes, hv⟩
    rw [callMethod?_eq_none.2 hm, he]
  | property hm he hb hl =>
    rw [callMethod?_eq_none.2 hm, he, property?_eq_some.2 ⟨_, _, hb, hl, rfl⟩]
  | missing hn he =>
    rw [Kind.hasMember_eq, Bool.or_eq_false_iff] at hn
    rw [callMethod?_eq_none.2 hn.1, he, property?_eq_none.2 hn.2]

/-- what a read comes to -/
def reading (recv : Value) (name : String) : Except EvalError Value :=
  match recv.namedEntry? name, recv.property? name with
  | some v, _ => .ok v
  | none, some v => .ok v
  | none, none => .error (.memberNotFound name recv.typeName)

theorem reads_reading : recv.Reads name (recv.reading name) := by
  unfold reading
  split
  · next v he =>
    obtain ⟨es, hes, hv⟩ := namedEntry?_eq_some.1 he
    exact .entry hes hv
  · next v he hp =>
    obtain ⟨b, read, hb, hl, rfl⟩ := property?_eq_some.1 hp
    exact .property he hb hl
  · next he hp => exact .missing he (property?_eq_none.1 hp)

theorem Reads.eq {r : Except EvalError Value} (h : recv.Reads name r) : r = recv.reading name := by
  unfold reading
  cases h with
  | entry hes hv =>
    have he := namedEntry?_eq_some.2 ⟨_, hes, hv⟩
    rw [he]
  | property he hb hl => rw [he, property?_eq_some.2 ⟨_, _, hb, hl, rfl⟩]
  | missing he hp => rw [he, property?_eq_none.2 hp]

end Value

/-! ## the standard host -/

namespace Host

variable (functions : Functions) (recv : Value) (name : String) (args : List Value)
  (earlier : List Request)

theorem run_ask_standard (request : Request) :
    ((Host.standard functions).ask request).run.run earlier =
      (.ok (standardAnswer functions request), request :: earlier) := rfl

theorem run_readMember : ((Host.standard functions).readMember recv name).run.run earlier =
    (recv.reading name, .read recv name :: earlier) := by
  rw [readMember, EvalM.run_bind, run_ask_standard]
  dsimp only [standardAnswer]
  unfold standardRead Value.readMember? Value.reading
  rcases recv.namedEntry? name with _ | v
  · rcases recv.property? name with _ | v <;> rfl
  · rfl

/-- only a callable value gets to the host -/
theorem run_callValue (v : Value) :
    ((Host.standard functions).callValue v args name).run.run earlier =
      (Dispatch.entryOutcome functions name args v, Dispatch.calls args v ++ earlier) := by
  cases v with
  | callable handle =>
    rw [callValue, EvalM.run_bind, run_ask_standard]
    dsimp only [standardAnswer]
    unfold standardCall Dispatch.entryOutcome
    dsimp only
    rcases functions handle with _ | f
    · rfl
    · dsimp only
      rcases f args with (_ | _ | failure) | w <;> rfl
  | _ => rfl

theorem run_callMethod : ((Host.standard functions).callMethod recv name args).run.run earlier =
    ((recv.dispatch name args).outcome functions recv name args,
      (recv.dispatch name args).requests recv name args ++ earlier) := by
  rw [callMethod, EvalM.run_bind, run_ask_standard]
  dsimp only [standardAnswer]
  unfold standardInvoke Value.dispatch
  rcases hm : recv.callMethod? name args with _ | fault | w
  · dsimp only
    rw [EvalM.run_bind, run_readMember, Value.reading]
    rcases he : recv.namedEntry? name with _ | v
    · rcases hp : recv.property? name with _ | v
      · rfl
      · -- no property is callable, so the host is not asked again
        have hv := Value.property?_isHost hp
        dsimp only
        rw [run_callValue]
        cases v with
        | callable handle => cases hv
        | _ => rfl
    · dsimp only
      rw [run_callValue, Dispatch.requests, List.append_assoc]
      rfl
  · rfl
  · rfl

end Host

namespace Evaluator

/-- under the standard host a call does exactly one of the four things of `Dispatch`, with its
outcome; a read prefers entries to properties, and sees no methods -/
theorem eval_dispatches {functions : Functions} {ev : Evaluator}
    (hh : ev.host = .standard functions) (c : Context) (t : Expr) (name : String) (es : List Expr)
    {recv : Value} {args : List Value} {start between earlier : List Request}
    (ht : (ev.eval c t).run.run start = (.ok recv, between))
    (hes : (ev.evalAll c es).run.run between = (.ok args, earlier)) :
    (∃ d, recv.Dispatches name args d ∧ (∀ d', recv.Dispatches name args d' → d' = d) ∧
      (ev.eval c (.call (.member t name) es)).run.run start =
        (d.outcome functions recv name args, d.requests recv name args ++ earlier)) ∧
    ∃ r, recv.Reads name r ∧ (∀ r', recv.Reads name r' → r' = r) ∧
      (ev.eval c (.member t name)).run.run start = (r, .read recv name :: between) := by
  refine ⟨⟨recv.dispatch name args, Value.dispatches_dispatch, fun _ h => h.eq, ?_⟩,
    recv.reading name, Value.reads_reading, fun _ h => h.eq, ?_⟩
  · rw [eval_method, EvalM.run_bind, ht]
    dsimp only
    rw [EvalM.run_bind, hes, hh]
    exact Host.run_callMethod functions recv name args earlier
  · rw [eval_member, EvalM.run_bind, ht, hh]
    exact Host.run_readMember functions recv name between

/-- a mapping with entries under the names of a method and of a property: the method registered for
mappings is called, and the entry instead of the property -/
theorem eval_dispatches_hidden :
    let echo : Functions := fun _ => some fun args => .ok (.sequence args)
    let ev : Evaluator := ⟨{}, .standard echo⟩
    let f : Value := .callable ⟨0, "Echo"⟩
    let key : Value := .text "Keys"
    let entries : Value.Entries := [(.text "ContainsKey", f), (key, f)]
    let m : Value := .mapping entries
    let contains (es : Value.Entries) (v : Value) : Except ArgumentFault Value :=
      .ok (.boolean (es.contains v))
    let call (name : String) (args : List Expr) : Expr := .call (.member (.constant m) name) args
    (mappingMembers.lookup "ContainsKey" = some (.oneArgument contains) ∧
      contains entries key = .ok (.boolean true) ∧
      m.Dispatches "ContainsKey" [key] (.method (contains entries key)) ∧
      (ev.eval .empty (call "ContainsKey" [.constant key])).run.run [] =
        (.ok (.boolean true), [.invoke m "ContainsKey" [key]])) ∧
      (m.Dispatches "ContainsKey" [] (.method (.error (.count 1 0))) ∧
        (ev.eval .empty (call "ContainsKey" [])).run.run [] =
          (.error (.hostFailed "ContainsKey" (.arguments "ContainsKey" (.count 1 0))),
            [.invoke m "ContainsKey" []])) ∧
      (m.Dispatches "Keys" [key] (.entry f) ∧
        (ev.eval .empty (call "Keys" [.constant key])).run.run [] = (.ok (.sequence [key]),
          [.call f [key], .read m "Keys", .invoke m "Keys" [key]])) ∧
      m.Reads "Keys" (.ok f) ∧
      (ev.eval .empty (.member (.constant m) "Keys")).run.run [] = (.ok f, [.read m "Keys"]) := by
  intro echo ev f key entries m contains call
  have ht : (ev.eval .empty (.constant m)).run.run [] = (.ok m, []) := by
    rw [eval]
    rfl
  have hkey : (ev.evalAll .empty [.constant key]).run.run [] = (.ok [key], []) := by
    simp only [evalAll, eval]
    rfl
  have hnone : (ev.evalAll .empty []).run.run [] = (.ok [], []) := by
    rw [evalAll]
    rfl
  have hb : m.builtins? = some ⟨Value.Entries, entries, mappingMembers⟩ := rfl
  have hl : mappingMembers.lookup "ContainsKey" = some (.oneArgument contains) := rfl
  have hfound : contains entries key = .ok (.boolean true) := rfl
  have hentry : Value.Entries.find? entries (.text "Keys") = some f := rfl
  refine ⟨⟨hl, hfound, .method hb hl, ?_⟩, ⟨.method hb hl, ?_⟩, ⟨.entry rfl rfl hentry, ?_⟩,
    .entry rfl hentry, ?_⟩
  · obtain ⟨⟨d, -, hd, hr⟩, -⟩ := eval_dispatches rfl .empty _ "ContainsKey" _ ht hkey
    rw [hr, ← hd _ (.method hb hl)]
    rfl
  · obtain ⟨⟨d, -, hd, hr⟩, -⟩ := eval_dispatches rfl .empty _ "ContainsKey" _ ht hnone
    rw [hr, ← hd _ (.method hb hl)]
    rfl
  · obtain ⟨⟨d, -, hd, hr⟩, -⟩ := eval_dispatches rfl .empty _ "Keys" _ ht hkey
    rw [hr, ← hd _ (.entry rfl rfl hentry)]
    rfl
  · obtain ⟨-, r, -, hd, hr⟩ := eval_dispatches rfl .empty _ "Keys" _ ht hkey
    rw [hr, ← hd _ (.entry rfl hentry)]

end Evaluator

end ExprLang
