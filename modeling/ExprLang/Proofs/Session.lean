import ExprLang.Session

/-!
# The cache of a session

* `Cache.HitTo`, `MissTo`    one more hit, or one more miss, has been counted;
* `Session.Step.isEval`      does a step go through the cache;
* `Session.Step.uncached`    the same step without the cache;
* `Session.Parsed g steps`   the trimmed texts that the steps evaluated through the cache and that
                             were parsed, since the cache was last emptied;
* `Session.Kept`             the invariant: the cache has the trees of just these texts, and has
                             counted every evaluation;
* `Session.Alike`            two sessions differ in their caches at most.

`Parsed` speaks of the steps alone.  `Kept.next` keeps the invariant in a step, and `Kept.run` in a
run, whose steps are appended to the ones before.  `cache_transparent` reads off what a user sees:
the answers are those of a session without a cache, and the counts are those of the steps.
-/

namespace ExprLang

/-! ## one look into the cache -/

namespace Cache

variable {c : Cache} {source : String} {parse : String → Except SyntaxError Expr}

theorem fetch_of_find? {e : Expr} (h : c.find? source = some e) :
    c.fetch source parse = (.ok e, c.hit) := by
  rw [fetch]
  split
  · next e' h' =>
    cases h.symm.trans h'
    rfl
  · next h' => cases h.symm.trans h'

theorem fetch_of_error {e : SyntaxError} (h : c.find? source = none) (hp : parse source = .error e) :
    c.fetch source parse = (.error e, c.miss) := by
  rw [fetch]
  split
  · next h' => cases h.symm.trans h'
  · rw [hp]

theorem fetch_of_ok {e : Expr} (h : c.find? source = none) (hp : parse source = .ok e) :
    c.fetch source parse = (.ok e, c.miss.keep source e h) := by
  rw [fetch]
  split
  · next h' => cases h.symm.trans h'
  · rw [hp]

theorem find?_keep {e : Expr} (h : c.find? source = none) (key : String) :
    (c.miss.keep source e h).find? key = if key = source then some e else c.find? key := by
  show ((source, e) :: c.trees).lookup key = _
  by_cases hk : key = source
  · rw [if_pos hk, hk, List.lookup_cons_self]
  · rw [if_neg hk, List.lookup_cons, beq_false_of_ne hk]
    rfl

/-- a look-up adds what the parser gives, if the cache has nothing else for the text -/
theorem find?_fetch {key : String} {e : Expr}
    (h : ∀ e, c.find? source = some e → parse source = .ok e) :
    (c.fetch source parse).2.find? key = some e ↔
      c.find? key = some e ∨ key = source ∧ parse key = .ok e := by
  cases hf : c.find? source with
  | some e' =>
    rw [fetch_of_find? hf]
    show c.find? key = some e ↔ _
    refine ⟨.inl, ?_⟩
    intro h0
    obtain hk | ⟨rfl, hp⟩ := h0
    · exact hk
    · cases hp.symm.trans (h e' hf)
      exact hf
  | none =>
    cases hp : parse source with
    | error x =>
      rw [fetch_of_error hf hp]
      show c.find? key = some e ↔ _
      refine ⟨.inl, ?_⟩
      intro h0
      obtain hk | ⟨rfl, he⟩ := h0
      · exact hk
      · cases hp.symm.trans he
    | ok e' =>
      rw [fetch_of_ok hf hp]
      show (c.miss.keep source e' hf).find? key = some e ↔ _
      rw [find?_keep]
      by_cases hk : key = source
      · subst hk
        rw [if_pos rfl, hp, hf]
        simp
      · simp [hk]

theorem mem_keys_iff {key : String} : key ∈ c.trees.map (·.1) ↔ ∃ e, c.find? key = some e := by
  constructor
  · intro hm
    cases h : c.find? key with
    | none => exact absurd hm (not_mem_of_lookup h)
    | some e => exact ⟨e, rfl⟩
  · intro hf
    obtain ⟨e, he⟩ := hf
    obtain ⟨xs, ys, h, -⟩ := List.lookup_eq_some_iff.1 he
    rw [h]
    simp

def HitTo (c c' : Cache) : Prop := c'.hits = c.hits + 1 ∧ c'.misses = c.misses

def MissTo (c c' : Cache) : Prop := c'.hits = c.hits ∧ c'.misses = c.misses + 1

theorem HitTo.not_missTo {c' : Cache} (h : c.HitTo c') : ¬ c.MissTo c' := by
  intro hm
  have h1 := h.1
  have h2 := hm.1
  omega

end Cache

namespace Session

/-! ## steps -/

namespace Step

def isEval : Step → Bool
  | .eval _ => true
  | _ => false

def uncached : Step → Step
  | .eval text => .parseEval text
  | step => step

end Step

/-- the trimmed text was evaluated and parsed since the last `clear` -/
def Parsed (g : Engine) (steps : List Step) (key : String) : Prop :=
  ∃ earlier text later, steps = earlier ++ .eval text :: later ∧ .clear ∉ later ∧
    Text.trim text = key ∧ ∃ e, g.tree key = .ok e

variable {g : Engine} {steps : List Step} {key : String}

theorem Parsed.tree (h : Parsed g steps key) : ∃ e, g.tree key = .ok e := by
  obtain ⟨_, _, _, _, _, _, h⟩ := h
  exact h

theorem not_parsed_nil : ¬ Parsed g [] key := by
  intro hp
  obtain ⟨earlier, text, later, h, -⟩ := hp
  simp at h

/-- what one more step adds to the parsed texts, and what it takes away -/
theorem parsed_append {step : Step} : Parsed g (steps ++ [step]) key ↔
    Parsed g steps key ∧ step ≠ .clear ∨
      ∃ text, step = .eval text ∧ Text.trim text = key ∧ ∃ e, g.tree key = .ok e := by
  constructor
  · intro hp
    obtain ⟨earlier, text, later, h, hc, ht⟩ := hp
    -- the new step is the evaluation itself, or comes after it
    rcases List.eq_nil_or_concat later with rfl | ⟨later, last, rfl⟩
    · obtain ⟨-, h⟩ := List.append_inj' h rfl
      exact .inr ⟨text, List.singleton_inj.1 h, ht⟩
    · rw [List.concat_eq_append, ← List.cons_append, ← List.append_assoc] at h
      obtain ⟨rfl, hl⟩ := List.append_inj' h rfl
      obtain rfl := List.singleton_inj.1 hl
      simp only [List.concat_eq_append, List.mem_append, List.mem_singleton, not_or] at hc
      exact .inl ⟨⟨earlier, text, later, rfl, hc.1, ht⟩, Ne.symm hc.2⟩
  · intro h0
    obtain ⟨⟨earlier, text, later, rfl, hc, ht⟩, hs⟩ | ⟨text, rfl, ht⟩ := h0
    · refine ⟨earlier, text, later ++ [step], by simp, ?_, ht⟩
      simp only [List.mem_append, List.mem_singleton, not_or]
      exact ⟨hc, Ne.symm hs⟩
    · exact ⟨steps, text, [], rfl, List.not_mem_nil, ht⟩

/-! ## the invariant -/

structure Kept (g : Engine) (steps : List Step) (c : Cache) : Prop where
  find : ∀ key e, c.find? key = some e ↔ Parsed g steps key ∧ g.tree key = .ok e
  count : c.hits + c.misses = steps.countP Step.isEval

namespace Kept

variable {c : Cache}

theorem empty : Kept g [] {} where
  find _ _ := ⟨nofun, fun h => absurd h.1 not_parsed_nil⟩
  count := rfl

theorem parsed_iff (h : Kept g steps c) : Parsed g steps key ↔ ∃ e, c.find? key = some e := by
  constructor
  · intro hp
    obtain ⟨e, he⟩ := hp.tree
    exact ⟨e, (h.find key e).2 ⟨hp, he⟩⟩
  · intro hf
    obtain ⟨e, he⟩ := hf
    exact ((h.find key e).1 he).1

theorem fetch_fst (h : Kept g steps c) (key : String) : (c.fetch key g.tree).1 = g.tree key := by
  cases hf : c.find? key with
  | some e => rw [Cache.fetch_of_find? hf, ((h.find key e).1 hf).2]
  | none =>
    cases hp : g.tree key with
    | error e => rw [Cache.fetch_of_error hf hp]
    | ok e => rw [Cache.fetch_of_ok hf hp]

/-- a look-up is a hit or a miss as the text is one of the parsed ones or not -/
theorem hit_or_miss (h : Kept g steps c) (key : String) :
    Parsed g steps key ∧ c.HitTo (c.fetch key g.tree).2 ∨
      ¬ Parsed g steps key ∧ c.MissTo (c.fetch key g.tree).2 := by
  cases hf : c.find? key with
  | some e =>
    rw [Cache.fetch_of_find? hf]
    exact .inl ⟨h.parsed_iff.2 ⟨e, hf⟩, rfl, rfl⟩
  | none =>
    refine .inr ⟨by simp [h.parsed_iff, hf], ?_⟩
    cases hp : g.tree key with
    | error e =>
      rw [Cache.fetch_of_error hf hp]
      exact ⟨rfl, rfl⟩
    | ok e =>
      rw [Cache.fetch_of_ok hf hp]
      exact ⟨rfl, rfl⟩

theorem missTo_iff (h : Kept g steps c) :
    c.MissTo (c.fetch key g.tree).2 ↔ ¬ Parsed g steps key := by
  rcases h.hit_or_miss key with ⟨hp, hit⟩ | ⟨hp, miss⟩
  · exact iff_of_false hit.not_missTo (not_not_intro hp)
  · exact iff_of_true miss hp

theorem hitTo_iff (h : Kept g steps c) :
    c.HitTo (c.fetch key g.tree).2 ↔ Parsed g steps key := by
  rcases h.hit_or_miss key with ⟨hp, hit⟩ | ⟨hp, miss⟩
  · exact iff_of_true hit hp
  · exact iff_of_false (fun hit => hit.not_missTo miss) hp

/-- the texts that the cache has are as many as the parsed ones -/
theorem entries (h : Kept g steps c) : ∃ keys : List String, keys.Nodup ∧
    (∀ key, key ∈ keys ↔ Parsed g steps key) ∧ c.stats.entries = keys.length := by
  refine ⟨c.trees.map (·.1), c.nodup, fun key => ?_, (List.length_map _).symm⟩
  rw [Cache.mem_keys_iff, h.parsed_iff]

theorem eval (h : Kept g steps c) (text : String) :
    Kept g (steps ++ [.eval text]) (c.fetch (Text.trim text) g.tree).2 where
  find key e := by
    rw [Cache.find?_fetch fun e he => ((h.find _ e).1 he).2, h.find, parsed_append]
    constructor
    · intro h0
      obtain ⟨hp, he⟩ | ⟨rfl, he⟩ := h0
      · exact ⟨.inl ⟨hp, nofun⟩, he⟩
      · exact ⟨.inr ⟨text, rfl, rfl, e, he⟩, he⟩
    · intro h0
      obtain ⟨⟨hp, -⟩ | ⟨text', ht, rfl, -⟩, he⟩ := h0
      · exact .inl ⟨hp, he⟩
      · cases ht
        exact .inr ⟨rfl, he⟩
  count := by
    have hc := h.count
    have hs : (steps ++ [Step.eval text]).countP Step.isEval = steps.countP Step.isEval + 1 := by
      simp [Step.isEval]
    rcases h.hit_or_miss (Text.trim text) with ⟨-, h1, h2⟩ | ⟨-, h1, h2⟩
    · omega
    · omega

theorem clear (h : Kept g steps c) : Kept g (steps ++ [.clear]) c.clear where
  find key e := by
    refine ⟨nofun, fun hp => ?_⟩
    rcases parsed_append.1 hp.1 with ⟨-, hc⟩ | ⟨text, ht, -⟩
    · exact absurd rfl hc
    · cases ht
  count := by
    show c.hits + c.misses = _
    rw [h.count, List.countP_append]
    rfl

/-- a step that neither looks into the cache nor clears it -/
theorem other (h : Kept g steps c) {step : Step} (he : step.isEval = false)
    (hc : step ≠ .clear) : Kept g (steps ++ [step]) c where
  find key e := by
    rw [h.find, parsed_append]
    refine and_congr_left fun _ => ⟨fun hp => .inl ⟨hp, hc⟩, ?_⟩
    intro h0
    obtain ⟨hp, -⟩ | ⟨text, rfl, -⟩ := h0
    · exact hp
    · cases he
  count := by
    rw [h.count, List.countP_append, List.countP_singleton, he]
    rfl

end Kept

/-! ## steps and runs -/

variable {s : Session}

/-- an evaluation is that of the text, parsed anew -/
theorem next_eval (h : Kept g steps s.cache) (text : String) :
    s.next g (.eval text) = (.answer (g.run s.context text s.requests).1,
      ⟨s.context, (s.cache.fetch (Text.trim text) g.tree).2,
        (g.run s.context text s.requests).2⟩) := by
  have hf := h.fetch_fst (Text.trim text)
  rw [next, Engine.run, Engine.parse, ← hf]
  cases s.cache.fetch (Text.trim text) g.tree with
  | mk tree cache =>
    cases tree with
    | error e => rfl
    | ok e => rfl

theorem Kept.next (h : Kept g steps s.cache) (step : Step) :
    Kept g (steps ++ [step]) (s.next g step).2.cache := by
  cases step with
  | eval text =>
    rw [next_eval h]
    exact h.eval text
  | clear => exact h.clear
  | _ => exact h.other rfl nofun

theorem Kept.run (h : Kept g steps s.cache) (more : List Step) :
    Kept g (steps ++ more) (s.run g more).2.cache := by
  induction more generalizing steps s with
  | nil =>
    rw [List.append_nil]
    exact h
  | cons step more ih =>
    -- the step goes from the front of the run to the end of the history
    rw [← List.singleton_append, ← List.append_assoc]
    exact ih (h.next step)

def Alike (s t : Session) : Prop := s.context = t.context ∧ s.requests = t.requests

theorem next_uncached (h : Kept g steps s.cache) {t : Session} (ha : s.Alike t) (step : Step) :
    (s.next g step).1 = (t.next g step.uncached).1 ∧
      (s.next g step).2.Alike (t.next g step.uncached).2 := by
  obtain ⟨hc, hr⟩ := ha
  cases step with
  | eval text =>
    rw [next_eval h, hc, hr]
    exact ⟨rfl, rfl, rfl⟩
  | parseEval text => simp [Step.uncached, next, evaluated, Alike, hc, hr]
  | _ => simp [Step.uncached, next, Alike, hc, hr]

theorem run_uncached (h : Kept g steps s.cache) {t : Session} (ha : s.Alike t)
    (more : List Step) : (s.run g more).1 = (t.run g (more.map Step.uncached)).1 ∧
      (s.run g more).2.Alike (t.run g (more.map Step.uncached)).2 := by
  induction more generalizing steps s t with
  | nil => exact ⟨rfl, ha⟩
  | cons step more ih =>
    obtain ⟨hr, ha⟩ := next_uncached h ha step
    obtain ⟨hrs, ha⟩ := ih (h.next step) ha
    refine ⟨?_, ha⟩
    show (s.next g step).1 :: ((s.next g step).2.run g more).1 = _
    rw [hr, hrs]
    rfl

theorem next_cache {step : Step} (he : step.isEval = false) (hc : step ≠ .clear) :
    (s.next g step).2.cache = s.cache := by
  cases step with
  | eval text => cases he
  | clear => exact absurd rfl hc
  | _ => rfl

theorem cache_transparent (g : Engine) (c : Context) (earlier : List Request)
    (steps : List Step) :
    let start : Session := ⟨c, {}, earlier⟩
    let s := (start.run g steps).2
    (start.run g steps).1 = (start.run g (steps.map Step.uncached)).1 ∧
    s.Alike (start.run g (steps.map Step.uncached)).2 ∧
    (∀ text, ∃ cache, s.next g (.eval text) = (.answer (g.run s.context text s.requests).1,
      ⟨s.context, cache, (g.run s.context text s.requests).2⟩)) ∧
    s.cache.stats.hits + s.cache.stats.misses = steps.countP Step.isEval ∧
    (∀ text, (s.cache.MissTo (s.next g (.eval text)).2.cache ↔
        ¬ Parsed g steps (Text.trim text)) ∧
      (s.cache.HitTo (s.next g (.eval text)).2.cache ↔ Parsed g steps (Text.trim text))) ∧
    (∃ keys : List String, keys.Nodup ∧ (∀ key, key ∈ keys ↔ Parsed g steps key) ∧
      s.cache.stats.entries = keys.length) ∧
    (∀ step, step.isEval = false → step ≠ .clear → (s.next g step).2.cache = s.cache) ∧
    ∃ cache, s.next g .clear = (.done, ⟨s.context, cache, s.requests⟩) ∧
      cache.stats = ⟨s.cache.stats.hits, s.cache.stats.misses, 0⟩ := by
  intro start s
  have h : Kept g steps s.cache := Kept.run (s := start) .empty steps
  obtain ⟨hr, ha⟩ := run_uncached (s := start) .empty ⟨rfl, rfl⟩ steps
  refine ⟨hr, ha, fun text => ⟨_, next_eval h text⟩, h.count, fun text => ?_, h.entries,
    fun step => next_cache, ⟨_, rfl, rfl⟩⟩
  rw [next_eval h]
  exact ⟨h.missTo_iff, h.hitTo_iff⟩

end Session

end ExprLang
