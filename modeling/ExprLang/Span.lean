import ExprLang.Text.Bytes
import ExprLang.Text.Digits

/-!
# Spans

A span is a range of byte offsets of a source text, `start` inclusive and `stop` exclusive.  Offsets
are 32-bit words: those of a text below four gigabytes are kept as they are, larger ones wrap.

* `Span.ofOffsets`, `Span.point`   make a span;
* `Span.merge`                     the least span that covers two;
* `Span.slice`                     the text of a span, empty if its ends are not between characters.
-/

namespace ExprLang

structure Span where
  start : UInt32
  stop : UInt32
deriving DecidableEq, Repr

namespace Span

/-- the span between two byte offsets -/
def ofOffsets (start stop : Nat) : Span := ⟨start.toUInt32, stop.toUInt32⟩

/-- the empty span at an offset -/
def point (offset : Nat) : Span := ofOffsets offset offset

/-- the number of bytes of a span, zero if its ends are crossed -/
def length (s : Span) : Nat := s.stop.toNat - s.start.toNat

/-- does a span hold no byte -/
def isEmpty (s : Span) : Bool := s.stop ≤ s.start

def merge (a b : Span) : Span := ⟨min a.start b.start, max a.stop b.stop⟩

def slice (s : Span) (source : String) : String :=
  String.ofList ((Text.slice s.start.toNat s.stop.toNat source.toList).getD [])

/-- `start..stop` -/
def toText (s : Span) : String :=
  String.ofList (Text.digits s.start.toNat ++ ['.', '.'] ++ Text.digits s.stop.toNat)

theorem ofOffsets_start {i j : Nat} (h : i < 4294967296) : (ofOffsets i j).start.toNat = i := by
  simp [ofOffsets]; omega

theorem ofOffsets_stop {i j : Nat} (h : j < 4294967296) : (ofOffsets i j).stop.toNat = j := by
  simp [ofOffsets]; omega

end Span

end ExprLang
