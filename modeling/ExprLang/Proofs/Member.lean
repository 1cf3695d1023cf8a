import ExprLang.Host
import ExprLang.Proofs.Outcome
import ExprLang.Proofs.Value.Equality

/-!
# Built-in members keep keys distinct

* `Value.IsPlain v`            a value that holds no other values;
* `Member.KeepsKeys T m`       from things that satisfy `T`, and arguments with distinct keys, a member
                               makes a value with distinct keys;
* `MemberTable.KeepsKeys T`    all members of a table do;
* `Request.Holds P r`          all values in a request satisfy `P`;
* `Request.Since P start rs`   the requests `rs` are those of `start`, and later ones that hold `P`;
* `Host.KeepsKeys h start`     a host that since `start` is asked with distinct keys answers with them;
* `Functions.KeepKeys`         the functions behind callable values do so, too.

Only the members of mappings give values that hold other values, and these are parts of the mapping.
So the standard host keeps keys distinct if its functions do: `Host.keepsKeys_standard`.
-/

namespace ExprLang

open Value

abbrev Value.IsPlain (v : Value) : Prop := v.kind.isCollection = false

/-! ## members -/

def Member.KeepsKeys {α : Type} (T : α → Prop) : Member α → Prop
  | .property read => ∀ a, T a → KeysDistinct (read a)
  | .method call => ∀ a args, T a → (∀ v ∈ args, KeysDistinct v) → Yields KeysDistinct (call a args)

namespace Member

variable {α : Type} {T : α → Prop}

theorem keepsKeys_property {read : α → Value} (h : ∀ a, (read a).IsPlain) :
    (Member.property read).KeepsKeys T :=
  fun a _ => .plain (h a)

theorem keepsKeys_noArguments {call : α → Value} (h : ∀ a, (call a).IsPlain) :
    (noArguments call).KeepsKeys T := by
  intro a args _ _
  cases args with
  | nil => exact .ok (.plain (h a))
  | cons v vs => exact .error _

theorem keepsKeys_oneArgument {call : α → Value → Except ArgumentFault Value}
    (h : ∀ a v, Yields KeysDistinct (call a v)) : (oneArgument call).KeepsKeys T := by
  intro a args _ _
  match args with
  | [] => exact .error _
  | [v] => exact h a v
  | _ :: _ :: _ => exact .error _

end Member

/-! ## tables -/

def MemberTable.KeepsKeys {α : Type} (T : α → Prop) (table : MemberTable α) : Prop :=
  ∀ m ∈ table, m.2.KeepsKeys T

namespace MemberTable

variable {α : Type} {T : α → Prop} {table : MemberTable α} {name : String} {a : α}

theorem mem_of_lookup {m : Member α} (hm : table.lookup name = some m) : (name, m) ∈ table := by
  obtain ⟨before, after, htable, -⟩ := List.lookup_eq_some_iff.1 hm
  rw [htable]
  exact List.mem_append_right _ (List.mem_cons_self ..)

theorem read?_eq_some {v : Value} : table.read? a name = some v ↔
    ∃ read, table.lookup name = some (.property read) ∧ read a = v := by
  constructor
  · intro h
    unfold read? at h
    split at h
    · next read hl => exact ⟨read, hl, Option.some.inj h⟩
    · cases h
  · rintro ⟨read, hl, rfl⟩
    rw [read?, hl]

theorem call?_eq_some {args : List Value} {answer : Except ArgumentFault Value} :
    table.call? a name args = some answer ↔
      ∃ call, table.lookup name = some (.method call) ∧ call a args = answer := by
  constructor
  · intro h
    unfold call? at h
    split at h
    · next call hl => exact ⟨call, hl, Option.some.inj h⟩
    · cases h
  · rintro ⟨call, hl, rfl⟩
    rw [call?, hl]

theorem KeepsKeys.read?_keysDistinct (h : table.KeepsKeys T) (ha : T a) {v : Value}
    (hv : table.read? a name = some v) : KeysDistinct v := by
  obtain ⟨read, hl, rfl⟩ := read?_eq_some.1 hv
  exact h _ (mem_of_lookup hl) a ha

theorem KeepsKeys.call?_keysDistinct (h : table.KeepsKeys T) (ha : T a) {args : List Value}
    (hargs : ∀ v ∈ args, KeysDistinct v) {r : Except ArgumentFault Value}
    (hr : table.call? a name args = some r) : Yields KeysDistinct r := by
  obtain ⟨call, hl, rfl⟩ := call?_eq_some.1 hr
  exact h _ (mem_of_lookup hl) a args ha hargs

end MemberTable

/-! ## texts, date-times and durations -/

theorem positionValue_plain (i : Option Nat) : (positionValue i).IsPlain := by
  cases i <;> rfl

theorem keepsKeys_searchMember {search : List Char → List Char → Value}
    (h : ∀ p s, (search p s).IsPlain) : (searchMember search).KeepsKeys fun _ => True :=
  Member.keepsKeys_oneArgument fun _ _ => .then_any fun _ => .ok (.plain (h _ _))

theorem callReplace_keysDistinct (s : String) (args : List Value) :
    Yields KeysDistinct (callReplace s args) := by
  unfold callReplace
  split
  · refine .then_any fun p => .then_any fun t => ?_
    dsimp only
    split
    · exact .then_any fun _ => .ok (.plain rfl)
    · exact .ok (.plain rfl)
  · exact .error _

theorem callSubstring_keysDistinct (s : String) (args : List Value) :
    Yields KeysDistinct (callSubstring s args) := by
  unfold callSubstring
  split
  · exact .then_any fun _ => .then_any fun _ => .ok (.plain rfl)
  · exact .then_any fun _ => .then_any fun _ => .then_any fun _ => .then_any fun _ =>
      .ok (.plain rfl)
  · exact .error _

theorem keepsKeys_textMembers : textMembers.KeepsKeys fun _ => True := by
  unfold MemberTable.KeepsKeys textMembers
  simp only [List.forall_mem_cons]
  exact ⟨keepsKeys_searchMember fun _ _ => rfl, keepsKeys_searchMember fun _ _ => rfl,
    keepsKeys_searchMember fun _ _ => positionValue_plain _, Member.keepsKeys_property fun _ => rfl,
    fun s args _ _ => callReplace_keysDistinct s args, keepsKeys_searchMember fun _ _ => rfl,
    fun s args _ _ => callSubstring_keysDistinct s args, Member.keepsKeys_noArguments fun _ => rfl,
    Member.keepsKeys_noArguments fun _ => rfl, Member.keepsKeys_noArguments fun _ => rfl,
    Member.keepsKeys_noArguments fun _ => rfl, nofun⟩

theorem keepsKeys_addMember (unit : Nat) : (addMember unit).KeepsKeys fun _ => True := by
  refine Member.keepsKeys_oneArgument fun t arg => .then_any fun amount => ?_
  split
  · exact .ok (.plain rfl)
  · exact .error _

theorem callDateTimeText_keysDistinct (t : DateTime) (args : List Value) :
    Yields KeysDistinct (callDateTimeText t args) := by
  unfold callDateTimeText
  split
  · exact .ok (.plain rfl)
  · refine .then_any fun pattern => ?_
    split
    · exact .error _
    · split
      · exact .error _
      · exact .ok (.plain rfl)
  · exact .error _

theorem keepsKeys_dateTimeMembers : dateTimeMembers.KeepsKeys fun _ => True := by
  unfold MemberTable.KeepsKeys dateTimeMembers
  simp only [List.forall_mem_cons]
  have property {read : DateTime → Value} (h : ∀ t, (read t).IsPlain) :
      (Member.property read).KeepsKeys fun _ => True := Member.keepsKeys_property h
  exact ⟨keepsKeys_addMember _, keepsKeys_addMember _, keepsKeys_addMember _, keepsKeys_addMember _,
    property fun _ => rfl, property fun _ => rfl, property fun _ => rfl, property fun _ => rfl,
    property fun _ => rfl, property fun _ => rfl, property fun _ => rfl, property fun _ => rfl,
    fun t args _ _ => callDateTimeText_keysDistinct t args, property fun _ => rfl, nofun⟩

theorem keepsKeys_componentProperty (seconds : Int) (modulus : Option Int) :
    (componentProperty seconds modulus).KeepsKeys fun _ => True :=
  Member.keepsKeys_property fun _ => rfl

theorem keepsKeys_numberProperty (read : Duration → Option Decimal) :
    (numberProperty read).KeepsKeys fun _ => True :=
  Member.keepsKeys_property fun d => by cases read d <;> rfl

theorem keepsKeys_durationMembers : durationMembers.KeepsKeys fun _ => True := by
  unfold MemberTable.KeepsKeys durationMembers
  simp only [List.forall_mem_cons]
  exact ⟨keepsKeys_componentProperty _ _, keepsKeys_componentProperty _ _,
    keepsKeys_componentProperty _ _, keepsKeys_componentProperty _ _,
    Member.keepsKeys_noArguments fun _ => rfl, keepsKeys_numberProperty _,
    keepsKeys_numberProperty _, keepsKeys_numberProperty _, keepsKeys_numberProperty _,
    keepsKeys_numberProperty _, nofun⟩

/-! ## collections -/

theorem keepsKeys_sequenceMembers : sequenceMembers.KeepsKeys fun _ => True := by
  unfold MemberTable.KeepsKeys sequenceMembers
  simp only [List.forall_mem_cons]
  exact ⟨Member.keepsKeys_oneArgument fun _ _ => .ok (.plain rfl),
    Member.keepsKeys_property fun _ => rfl,
    Member.keepsKeys_oneArgument fun _ _ => .ok (.plain (positionValue_plain _)),
    Member.keepsKeys_property fun _ => rfl, nofun⟩

/-- the keys and the values of a mapping are sequences of its parts -/
theorem keepsKeys_mappingMembers :
    mappingMembers.KeepsKeys fun es => ∀ e ∈ es, KeysDistinct e.1 ∧ KeysDistinct e.2 := by
  unfold MemberTable.KeepsKeys mappingMembers
  simp only [List.forall_mem_cons]
  refine ⟨Member.keepsKeys_oneArgument fun _ _ => .ok (.plain rfl),
    Member.keepsKeys_property fun _ => rfl, fun es h => ?_, fun es h => ?_, nofun⟩
  · exact .sequence (List.forall_mem_map.2 fun e he => (h e he).1)
  · exact .sequence (List.forall_mem_map.2 fun e he => (h e he).2)

/-! ## values -/

theorem keepsKeys_booleanMembers : booleanMembers.KeepsKeys fun _ => True :=
  List.forall_mem_singleton.2 (Member.keepsKeys_noArguments fun _ => rfl)

theorem keepsKeys_numberMembers : numberMembers.KeepsKeys fun _ => True :=
  List.forall_mem_singleton.2 (Member.keepsKeys_noArguments fun _ => rfl)

namespace Value

variable {v : Value} {name : String} (hv : KeysDistinct v)
include hv

theorem property?_keysDistinct {w : Value} (h : v.property? name = some w) : KeysDistinct w := by
  unfold property? at h
  split at h
  · exact keepsKeys_booleanMembers.read?_keysDistinct trivial h
  · exact keepsKeys_numberMembers.read?_keysDistinct trivial h
  · exact keepsKeys_textMembers.read?_keysDistinct trivial h
  · exact keepsKeys_dateTimeMembers.read?_keysDistinct trivial h
  · exact keepsKeys_durationMembers.read?_keysDistinct trivial h
  · exact keepsKeys_sequenceMembers.read?_keysDistinct trivial h
  · exact keepsKeys_mappingMembers.read?_keysDistinct hv.entries.2 h
  · cases h

theorem callMethod?_keysDistinct {args : List Value} (hargs : ∀ a ∈ args, KeysDistinct a)
    {r : Except ArgumentFault Value} (h : v.callMethod? name args = some r) :
    Yields KeysDistinct r := by
  unfold callMethod? at h
  split at h
  · exact keepsKeys_booleanMembers.call?_keysDistinct trivial hargs h
  · exact keepsKeys_numberMembers.call?_keysDistinct trivial hargs h
  · exact keepsKeys_textMembers.call?_keysDistinct trivial hargs h
  · exact keepsKeys_dateTimeMembers.call?_keysDistinct trivial hargs h
  · exact keepsKeys_durationMembers.call?_keysDistinct trivial hargs h
  · exact keepsKeys_sequenceMembers.call?_keysDistinct trivial hargs h
  · exact keepsKeys_mappingMembers.call?_keysDistinct hv.entries.2 hargs h
  · cases h

theorem readMember?_keysDistinct {w : Value} (h : v.readMember? name = some w) :
    KeysDistinct w := by
  unfold readMember? at h
  split at h
  · next entry hn =>
    cases h
    unfold namedEntry? at hn
    split at hn
    · exact hv.find? hn
    · cases hn
  · exact property?_keysDistinct hv h

end Value

/-! ## hosts -/

def Request.Holds (P : Value → Prop) : Request → Prop
  | .read target _ => P target
  | .invoke target _ args => P target ∧ ∀ v ∈ args, P v
  | .call callee args => P callee ∧ ∀ v ∈ args, P v
  | .index target key => P target ∧ P key

def Request.Since (P : Value → Prop) (start requests : List Request) : Prop :=
  ∃ later, requests = later ++ start ∧ ∀ r ∈ later, r.Holds P

theorem Request.Since.cons {P : Value → Prop} {start requests : List Request} {r : Request}
    (h : Since P start requests) (hr : r.Holds P) : Since P start (r :: requests) := by
  obtain ⟨later, rfl, hl⟩ := h
  exact ⟨r :: later, rfl, List.forall_mem_cons.2 ⟨hr, hl⟩⟩

def Host.KeepsKeys (h : Host) (start : List Request) : Prop :=
  ∀ earlier request, Request.Since KeysDistinct start earlier → request.Holds KeysDistinct →
    Yields KeysDistinct (h.answer earlier request)

def Functions.KeepKeys (functions : Functions) : Prop :=
  ∀ handle f args, functions handle = some f → (∀ v ∈ args, KeysDistinct v) →
    Yields KeysDistinct (f args)

theorem Functions.keepKeys_none : Functions.KeepKeys fun _ => none := by
  intro handle f args h
  cases h

theorem Host.keepsKeys_standard {functions : Functions} (hf : functions.KeepKeys)
    (start : List Request) : (Host.standard functions).KeepsKeys start := by
  intro earlier request _ hr
  show Yields KeysDistinct (standardAnswer functions request)
  cases request with
  | read target name =>
    show Yields KeysDistinct (standardRead target name)
    unfold standardRead
    split
    · next v hv => exact .ok (readMember?_keysDistinct hr hv)
    · exact .error _
  | invoke target name args =>
    show Yields KeysDistinct (standardInvoke target name args)
    unfold standardInvoke
    split
    · next v hv => exact .ok (callMethod?_keysDistinct hr.1 hr.2 hv v rfl)
    · exact .error _
    · exact .error _
  | call callee args =>
    show Yields KeysDistinct (standardCall functions callee args)
    unfold standardCall
    split
    · split
      · next f hh => exact hf _ f args hh hr.2
      · exact .error _
    · exact .error _
  | index target key => exact .error _

end ExprLang
