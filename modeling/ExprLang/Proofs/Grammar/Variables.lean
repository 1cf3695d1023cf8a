import Mathlib
import ExprLang.Proofs.Expr
import ExprLang.Proofs.Grammar.Exactness
import ExprLang.Proofs.Token.Scanning

/-!
# The variables of a text

The variables of an expression are read off its tokens: they are the identifiers with no dot in front
of them.

* `variablesFrom dot ks`       these identifiers, in their order; `dot` says if a dot stands in front;
* `Occurs ks before name`      behind the tokens `before`, the name stands as a variable.

A derivation keeps the order of the tokens, however it groups them (`Derives.variables`).
`parse_names` says of every text what the names of its expression are.
-/

namespace ExprLang

def variablesFrom (dot : Bool) : List TokenKind → List String
  | [] => []
  | .identifier name :: ks =>
    if dot then variablesFrom false ks else name :: variablesFrom false ks
  | .dot :: ks => variablesFrom true ks
  | _ :: ks => variablesFrom false ks

def Occurs (ks before : List TokenKind) (name : String) : Prop :=
  (∃ after, ks = before ++ .identifier name :: after) ∧ before.getLast? ≠ some .dot

/-- does a dot stand behind the tokens -/
def dotBehind (dot : Bool) (ks : List TokenKind) : Bool := (ks.getLast?.map (· == .dot)).getD dot

theorem dotBehind_cons (dot : Bool) (k : TokenKind) (ks : List TokenKind) :
    dotBehind dot (k :: ks) = dotBehind (k == .dot) ks := by
  cases ks with
  | nil => rfl
  | cons l ks =>
    rw [dotBehind, dotBehind, List.getLast?_cons_cons]
    cases hl : (l :: ks).getLast? with
    | none => simp at hl
    | some x => rfl

theorem variablesFrom_cons (dot : Bool) (k : TokenKind) (ks : List TokenKind) :
    variablesFrom dot (k :: ks) = variablesFrom dot [k] ++ variablesFrom (k == .dot) ks := by
  cases k with
  | identifier name => cases dot <;> rfl
  | _ => rfl

theorem variablesFrom_append (dot : Bool) (ks ls : List TokenKind) :
    variablesFrom dot (ks ++ ls) = variablesFrom dot ks ++ variablesFrom (dotBehind dot ks) ls := by
  induction ks generalizing dot with
  | nil => rfl
  | cons k ks ih =>
    rw [List.cons_append, variablesFrom_cons, ih, variablesFrom_cons dot k ks, dotBehind_cons,
      List.append_assoc]

/-! ## expressions -/

def Phrase.mentions : Phrase → List String
  | .expression e | .ternary e | .binary _ _ e | .unary e | .chain _ e | .primary e => e.mentions
  | .items es => Expr.mentionsOfList es
  | .entries ps => Expr.mentionsOfPairs ps

theorem Derives.variables {c n : Nat} {ks : List TokenKind} {ph : Phrase} (h : Derives c n ks ph) :
    variablesFrom false ks = ph.mentions := by
  induction h with
  | expression _ ih | plain _ _ ih | operand _ ih | tighter _ ih | chain _ _ ih | primary _ ih =>
    exact ih
  | unary op _ ih => cases op <;> exact ih
  | atom ha => cases ha <;> simp [variablesFrom, Phrase.mentions, Expr.mentions]
  | noItems => rw [variablesFrom, Phrase.mentions, Expr.mentionsOfList]
  | noEntries => rw [variablesFrom, Phrase.mentions, Expr.mentionsOfPairs]
  | lastItem _ ih => simpa [Phrase.mentions, Expr.mentionsOfList] using ih
  | moreItems _ _ _ ih1 ih2 =>
    simp_all [variablesFrom_append, variablesFrom, Phrase.mentions, Expr.mentionsOfList]
  | lastEntry _ _ ih1 ih2 | moreEntries _ _ _ _ ih1 ih2 =>
    simp_all [variablesFrom_append, variablesFrom, Phrase.mentions, Expr.mentionsOfPairs]
  | conditional | link | member | index | call | group | array | dictionary =>
    simp_all [variablesFrom_append, variablesFrom, Phrase.mentions, Expr.mentions]

/-! ## first occurrences -/

/-- the first `a` of a list stands in front of every `b` -/
def Earlier {α : Type} (xs : List α) (a b : α) : Prop :=
  a ≠ b ∧ ∃ us vs, xs = us ++ a :: vs ∧ b ∉ us

theorem Earlier.of_filter {α : Type} {p : α → Bool} {xs : List α} {a b : α}
    (h : Earlier (xs.filter p) a b) (hb : p b = true) : Earlier xs a b := by
  obtain ⟨hne, us, vs, hxs, hus⟩ := h
  obtain ⟨us', ws, rfl, rfl, hws⟩ := List.filter_eq_append_iff.1 hxs
  obtain ⟨ws', vs', rfl, hws', ha, rfl⟩ := List.filter_eq_cons_iff.1 hws
  refine ⟨hne, us' ++ ws', vs', by rw [List.append_assoc], fun hm => ?_⟩
  rcases List.mem_append.1 hm with hm | hm
  · exact hus (List.mem_filter.2 ⟨hm, hb⟩)
  · exact hws' b hm hb

section
variable {α : Type} [BEq α] [LawfulBEq α]

theorem nodup_eraseDups (xs : List α) : xs.eraseDups.Nodup := by
  induction hl : xs.length using Nat.strongRecOn generalizing xs with
  | ind l ih =>
    cases xs with
    | nil => exact .nil
    | cons x xs =>
      subst hl
      rw [List.eraseDups_cons, List.nodup_cons]
      refine ⟨by simp [List.mem_eraseDups], ih _ ?_ _ rfl⟩
      exact Nat.lt_succ_of_le (List.length_filter_le _ xs)

theorem pairwise_eraseDups (xs : List α) : xs.eraseDups.Pairwise (Earlier xs) := by
  induction hl : xs.length using Nat.strongRecOn generalizing xs with
  | ind l ih =>
    cases xs with
    | nil => exact .nil
    | cons x xs =>
      subst hl
      rw [List.eraseDups_cons, List.pairwise_cons]
      have hx {b : α} (hb : b ∈ (xs.filter fun b => !b == x).eraseDups) : (!b == x) = true :=
        (List.mem_filter.1 (List.mem_eraseDups.1 hb)).2
      constructor
      · intro b hb
        have hb : b ≠ x := by simpa using hx hb
        exact ⟨hb.symm, [], xs, rfl, List.not_mem_nil⟩
      · refine (ih _ (Nat.lt_succ_of_le (List.length_filter_le _ xs)) _ rfl).imp_of_mem ?_
        intro a b _ hb hab
        obtain ⟨hne, us, vs, rfl, hus⟩ := hab.of_filter (hx hb)
        refine ⟨hne, x :: us, vs, rfl, fun hm => ?_⟩
        rcases List.mem_cons.1 hm with rfl | hm
        · simpa using hx hb
        · exact hus hm

end

/-! ## occurrences -/

theorem Occurs.variablesFrom_eq {ks before : List TokenKind} {name : String}
    (h : Occurs ks before name) :
    ∃ vs, variablesFrom false ks = variablesFrom false before ++ name :: vs := by
  obtain ⟨⟨after, rfl⟩, hd⟩ := h
  have hdot : dotBehind false before = false := by
    rw [dotBehind]
    cases hl : before.getLast? with
    | none => rfl
    | some k =>
      rw [hl] at hd
      simpa using hd
  refine ⟨variablesFrom false after, ?_⟩
  rw [variablesFrom_append, hdot]
  rfl

theorem exists_before {dot : Bool} {ks : List TokenKind} {us vs : List String} {name : String}
    (h : variablesFrom dot ks = us ++ name :: vs) :
    ∃ before, (∃ after, ks = before ++ .identifier name :: after) ∧
      dotBehind dot before = false ∧ variablesFrom dot before = us := by
  induction ks generalizing dot us with
  | nil => simp [variablesFrom] at h
  | cons k ks ih =>
    -- behind a token that is no variable, or that is one of those in front of the name
    have step {us' : List String} (hus : us = variablesFrom dot [k] ++ us')
        (h' : variablesFrom (k == .dot) ks = us' ++ name :: vs) :
        ∃ before, (∃ after, k :: ks = before ++ .identifier name :: after) ∧
          dotBehind dot before = false ∧ variablesFrom dot before = us := by
      obtain ⟨before, ⟨after, rfl⟩, hd, hv⟩ := ih h'
      refine ⟨k :: before, ⟨after, rfl⟩, ?_, ?_⟩
      · rw [dotBehind_cons, hd]
      · rw [variablesFrom_cons, hv, hus]
    rw [variablesFrom_cons] at h
    by_cases hk : variablesFrom dot [k] = []
    · rw [hk] at h step
      exact step rfl h
    · obtain ⟨n, rfl, rfl⟩ : ∃ n, k = .identifier n ∧ dot = false := by
        cases k with
        | identifier n =>
          cases dot with
          | false => exact ⟨n, rfl, rfl⟩
          | true => exact absurd rfl hk
        | _ => exact absurd rfl hk
      cases us with
      | nil =>
        cases h
        exact ⟨[], ⟨ks, rfl⟩, rfl, rfl⟩
      | cons u us =>
        obtain ⟨rfl, htail⟩ := List.cons.inj h
        exact step rfl htail

theorem exists_occurs {ks : List TokenKind} {us vs : List String} {name : String}
    (h : variablesFrom false ks = us ++ name :: vs) :
    ∃ before, Occurs ks before name ∧ variablesFrom false before = us := by
  obtain ⟨before, hks, hd, hv⟩ := exists_before h
  refine ⟨before, ⟨hks, fun hl => ?_⟩, hv⟩
  rw [dotBehind, hl] at hd
  cases hd

theorem mem_variablesFrom {ks : List TokenKind} {name : String} :
    name ∈ variablesFrom false ks ↔ ∃ before, Occurs ks before name := by
  constructor
  · intro h
    obtain ⟨us, vs, hus⟩ := List.append_of_mem h
    obtain ⟨before, ho, -⟩ := exists_occurs hus
    exact ⟨before, ho⟩
  · intro h0
    obtain ⟨before, ho⟩ := h0
    obtain ⟨vs, hvs⟩ := ho.variablesFrom_eq
    rw [hvs]
    exact List.mem_append_right _ (List.mem_cons_self ..)

/-- an occurrence that is not behind the first one of another name is in front of it -/
theorem Earlier.occurs {ks : List TokenKind} {a b : String}
    (h : Earlier (variablesFrom false ks) a b) :
    ∃ before, Occurs ks before a ∧
      ∀ before', Occurs ks before' b → before.length < before'.length := by
  obtain ⟨hne, us, vs, hus, hb⟩ := h
  obtain ⟨before, ho, rfl⟩ := exists_occurs hus
  refine ⟨before, ho, fun before' ho' => Nat.lt_of_not_le fun hle => hb ?_⟩
  obtain ⟨after, hks⟩ := ho.1
  obtain ⟨after', hks'⟩ := ho'.1
  have hp : before' <+: before := by
    refine List.prefix_of_prefix_length_le ⟨_, hks'.symm⟩ ⟨_, hks.symm⟩ hle
  obtain ⟨mid, rfl⟩ := hp
  cases mid with
  | nil =>
    rw [hks, List.append_nil] at hks'
    cases List.append_cancel_left hks'
    exact absurd rfl hne
  | cons k mid =>
    rw [hks, List.append_assoc] at hks'
    cases List.append_cancel_left hks'
    have hocc : Occurs (before' ++ .identifier b :: mid) before' b := ⟨⟨mid, rfl⟩, ho'.2⟩
    obtain ⟨ws, hws⟩ := hocc.variablesFrom_eq
    rw [hws]
    exact List.mem_append_right _ (List.mem_cons_self ..)

/-! ## texts -/

/-- the tokens of a text that is parsed are those of its expression and the end -/
theorem tokens_of_parse {o : ParseOptions} {s : String} {e : Expr} (h : parse o s = .ok e) :
    ∃ ts, tokenize o.allowSingleEqualSign s =
        .ok (ts ++ [endToken (Text.byteLength s.toList)]) ∧
      Derives o.maxChainLength o.maxNestingDepth (ts.map Token.kind) (.expression e) := by
  rw [parse] at h
  split at h
  · cases h
  · next ts ht =>
    obtain ⟨us, rfl, hs⟩ := scanned_of_ok ht
    rw [Nat.zero_add] at h ht
    have hstop : (endToken (Text.byteLength s.toList)).kind = .eof := rfl
    refine ⟨us, ht, derives_of_parseTokens hstop hs.ne_eof ?_⟩
    split at h
    · cases h
    · next he =>
      cases h
      exact he

theorem parse_names {o : ParseOptions} {s : String} {e : Expr} (h : parse o s = .ok e) :
    ∃ ts, tokenize o.allowSingleEqualSign s = .ok ts ∧ e.names.Nodup ∧
      (∀ name, name ∈ e.names ↔ ∃ before, Occurs (ts.map Token.kind) before name) ∧
      e.names.Pairwise fun a b => ∃ before, Occurs (ts.map Token.kind) before a ∧
        ∀ before', Occurs (ts.map Token.kind) before' b → before.length < before'.length := by
  obtain ⟨ts, ht, hd⟩ := tokens_of_parse h
  have hv : variablesFrom false ((ts ++ [endToken (Text.byteLength s.toList)]).map Token.kind) =
      e.mentions := by
    rw [List.map_append, variablesFrom_append, hd.variables]
    exact List.append_nil _
  refine ⟨_, ht, nodup_eraseDups _, fun name => ?_, ?_⟩
  · rw [Expr.mem_names, ← hv, mem_variablesFrom]
  · have hp := pairwise_eraseDups e.mentions
    rw [← hv] at hp
    rw [Expr.names, ← hv]
    exact hp.imp Earlier.occurs

/-- `a` is a variable twice, and `b` is none -/
theorem parse_names_member :
    ∃ e ts, parse {} "a.b + f(c, a)" = .ok e ∧ tokenize false "a.b + f(c, a)" = .ok ts ∧
      e.names = ["a", "f", "c"] ∧ ∀ before, ¬ Occurs (ts.map Token.kind) before "b" := by
  have h : parse {} "a.b + f(c, a)" =
      .ok (.binary (.member (.var "a") "b") .add (.call (.var "f") [.var "c", .var "a"])) := by
    cbv
  obtain ⟨ts, ht, -, mem, -⟩ := parse_names h
  refine ⟨_, ts, h, ht, by decide, fun before hb => ?_⟩
  have hm := (mem "b").2 ⟨before, hb⟩
  exact absurd hm (by decide)

end ExprLang
