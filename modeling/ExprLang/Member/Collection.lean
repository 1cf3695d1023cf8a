import ExprLang.Member.Basic

/-!
# Members of sequences and mappings

Items and keys are compared by structural equality: `1` and the text `1` differ, `1` and `1.0` do
not.

* `itemPosition?`                        the first position of an item;
* `sequenceMembers`, `mappingMembers`    the tables.
-/

namespace ExprLang

def itemPosition? (items : List Value) (item : Value) : Option Nat := items.findIdx? (·.same item)

def sequenceMembers : MemberTable (List Value) :=
  [("Contains", .oneArgument fun items item => .ok (.boolean (items.any (·.same item)))),
    ("Count", .property fun items => .count items.length),
    ("IndexOf", .oneArgument fun items item => .ok (positionValue (itemPosition? items item))),
    ("Length", .property fun items => .count items.length)]

def mappingMembers : MemberTable Value.Entries :=
  [("ContainsKey", .oneArgument fun es key => .ok (.boolean (es.contains key))),
    ("Count", .property fun es => .count es.length),
    ("Keys", .property fun es => .sequence (es.map (·.1))),
    ("Values", .property fun es => .sequence (es.map (·.2)))]

end ExprLang
