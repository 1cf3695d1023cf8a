import ExprLang.Proofs.Grammar.Viability

/-!
# Tokens at other places

* `ParseError.moved f e`   the error with the position changed by `f`;
* `SameUpTo f ts us`       tokens of the same kinds; `f` takes the positions of `us` to those of `ts`.

The parser reads tokens by their kinds; where they stand shows only in its errors.
-/

namespace ExprLang

def ParseError.moved (f : Nat → Nat) : ParseError → ParseError
  | .unexpectedToken p expected found => .unexpectedToken (f p) expected found
  | .nestingTooDeep p limit => .nestingTooDeep (f p) limit
  | .chainTooLong p limit => .chainTooLong (f p) limit

def SameUpTo (f : Nat → Nat) (ts us : List Token) : Prop :=
  us.map (fun t => (t.kind, f t.position)) = ts.map fun t => (t.kind, t.position)

namespace SameUpTo

variable {f : Nat → Nat} {ts us : List Token}

theorem alike (h : SameUpTo f ts us) : Alike ts us := by
  have hk := congrArg (List.map Prod.fst) h
  rwa [List.map_map, List.map_map] at hk

theorem sameNext (h : SameUpTo f ts us) : SameNext ts us := by
  have hk := congrArg List.head? h.alike
  rwa [List.head?_map, List.head?_map] at hk

theorem last (h : SameUpTo f ts us) (hne : ts ≠ []) :
    (ts.getLast?.map Token.position).getD 0 = f ((us.getLast?.map Token.position).getD 0) := by
  have hp := congrArg (fun l => l.getLast?.map Prod.snd) h
  simp only [List.getLast?_map, Option.map_map] at hp
  cases ht : ts.getLast? with
  | none => exact absurd (List.getLast?_eq_none_iff.1 ht) hne
  | some t =>
    rw [ht] at hp
    obtain ⟨u, hu, hp⟩ := Option.map_eq_some_iff.1 hp
    rw [hu]
    exact hp.symm

theorem append {a b : List Token} (h : SameUpTo f (a ++ b) us) :
    ∃ a' b', us = a' ++ b' ∧ SameUpTo f a a' ∧ SameUpTo f b b' := by
  rw [SameUpTo, List.map_append] at h
  exact List.map_eq_append_iff.1 h

end SameUpTo

namespace Parser

variable {f : Nat → Nat} {p q : Parser} {ts us : List Token}

theorem position_moved (h : SameUpTo f ts us) (hs : p.stop = f q.stop) :
    p.position ts = f (q.position us) := by
  cases ts with
  | nil =>
    obtain rfl := List.map_eq_nil_iff.1 h
    exact hs
  | cons t ts =>
    obtain ⟨u, us, rfl, ht, -⟩ := List.map_eq_cons_iff.1 h
    exact (congrArg Prod.snd ht).symm

theorem found_moved (h : SameUpTo f ts us) : found ts = found us := by
  cases ts with
  | nil =>
    obtain rfl := List.map_eq_nil_iff.1 h
    rfl
  | cons t ts =>
    obtain ⟨u, us, rfl, ht, -⟩ := List.map_eq_cons_iff.1 h
    have hk : u.kind = t.kind := congrArg Prod.fst ht
    rw [found, found, hk]

theorem fault_moved (h : SameUpTo f ts us) (hn : q.maxNesting = p.maxNesting)
    (hc : q.maxChain = p.maxChain) (hs : p.stop = f q.stop) (x : Fault) :
    p.fault ts x = (q.fault us x).moved f := by
  have hp := position_moved h hs
  cases x with
  | unexpected expected =>
    show ParseError.unexpectedToken _ expected _ = .unexpectedToken _ expected _
    rw [hp, found_moved h]
  | nesting =>
    show ParseError.nestingTooDeep _ _ = .nestingTooDeep _ _
    rw [hp, hn]
  | chain =>
    show ParseError.chainTooLong _ _ = .chainTooLong _ _
    rw [hp, hc]

end Parser

theorem parseTokens_moved {f : Nat → Nat} {ts us : List Token} (h : SameUpTo f ts us)
    (hne : ts ≠ []) (o : ParseOptions) :
    parseTokens o ts = (parseTokens o us).mapError (ParseError.moved f) := by
  have hstop := h.last hne
  rw [parseTokens, parseTokens]
  generalize (ts.getLast?.map Token.position).getD 0 = i at hstop ⊢
  generalize (us.getLast?.map Token.position).getD 0 = j at hstop ⊢
  obtain ⟨a, r, x, rfl, hx, -⟩ :=
    Parser.exists_decided ⟨o.maxNestingDepth, o.maxChainLength, i⟩ ts
  obtain ⟨a', r', rfl, ha, hr⟩ := h.append
  rw [hx.self, hx ⟨o.maxNestingDepth, o.maxChainLength, j⟩ a' r'
    ⟨Nat.le_refl _, Nat.le_refl _, fun _ => rfl, fun _ => rfl⟩ ha.alike hr.sameNext]
  cases x with
  | ok v => rfl
  | error x =>
    have hf := Parser.fault_moved (p := ⟨o.maxNestingDepth, o.maxChainLength, i⟩)
      (q := ⟨o.maxNestingDepth, o.maxChainLength, j⟩) hr rfl rfl hstop x
    exact congrArg Except.error hf

end ExprLang
