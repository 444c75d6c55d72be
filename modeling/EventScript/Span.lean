/-!
# Source spans

A span is a range of byte offsets in a source text together with the line on which the range
starts. Spans of syntax are joined with `Span.upTo`, which keeps the first start and line and the
last end.
-/

namespace EventScript

/-- A half-open range of byte offsets, with the line (counted from one) of its first byte. -/
structure Span where
  /-- Offset of the first byte. -/
  start : Nat
  /-- Offset just past the last byte. -/
  stop : Nat
  /-- Line of the first byte. -/
  line : Nat
deriving DecidableEq, Inhabited

namespace Span

/-- The range from the start of `first` to the end of `last`, on the line of `first`. -/
def upTo (first last : Span) : Span :=
  ⟨first.start, last.stop, first.line⟩

/-- Joined spans start where the first one starts. -/
@[simp] theorem upTo_start (first last : Span) : (first.upTo last).start = first.start := rfl

/-- Joined spans end where the last one ends. -/
@[simp] theorem upTo_stop (first last : Span) : (first.upTo last).stop = last.stop := rfl

end Span

end EventScript
