namespace PairedSource

/-- A stretch of a text, counted in bytes of its UTF-8 encoding. -/
structure Span where
  offset : Nat
  length : Nat
  deriving Repr, DecidableEq, Inhabited

namespace Span

def stop (span : Span) : Nat :=
  span.offset + span.length

def through (first last : Span) : Span :=
  ⟨first.offset, last.stop - first.offset⟩

end Span

end PairedSource
