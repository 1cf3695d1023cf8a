import ExprLang.Expr.Parse

/-!
# Caches of parsed texts

A cache keeps the trees of texts that were parsed, and counts how often a text was there already
(a hit) and how often not (a miss).  A text with an error is a miss and is not kept.

* `Cache.fetch`   the tree of a text, from the cache or else from a parser;
* `Cache.clear`   forgets the trees, but not the counts;
* `Cache.stats`   the counts, and how many trees are kept.
-/

namespace ExprLang

structure Cache where
  trees : List (String × Expr) := []
  hits : Nat := 0
  misses : Nat := 0
  nodup : (trees.map (·.1)).Nodup := by simp

/-- the counts of a cache -/
structure CacheStats where
  hits : Nat
  misses : Nat
  entries : Nat
deriving DecidableEq, Repr

namespace Cache

def find? (c : Cache) (source : String) : Option Expr := c.trees.lookup source

/-- one more hit -/
def hit (c : Cache) : Cache := { c with hits := c.hits + 1 }

/-- one more miss -/
def miss (c : Cache) : Cache := { c with misses := c.misses + 1 }

theorem not_mem_of_lookup {source : String} {trees : List (String × Expr)}
    (h : trees.lookup source = none) : source ∉ trees.map (·.1) := by
  intro hm
  obtain ⟨entry, he, rfl⟩ := List.mem_map.1 hm
  have := List.lookup_eq_none_iff.1 h entry he
  simp at this

/-- the cache with the tree of a text that it has not -/
def keep (c : Cache) (source : String) (e : Expr) (h : c.find? source = none) : Cache :=
  { c with
    trees := (source, e) :: c.trees
    nodup := List.nodup_cons.2 ⟨not_mem_of_lookup h, c.nodup⟩ }

def fetch (c : Cache) (source : String) (parse : String → Except SyntaxError Expr) :
    Except SyntaxError Expr × Cache :=
  match h : c.find? source with
  | some e => (.ok e, c.hit)
  | none =>
    match parse source with
    | .ok e => (.ok e, c.miss.keep source e h)
    | .error e => (.error e, c.miss)

def clear (c : Cache) : Cache := ⟨[], c.hits, c.misses, by simp⟩

def stats (c : Cache) : CacheStats := ⟨c.hits, c.misses, c.trees.length⟩

end Cache

end ExprLang
