/-
Spans: half-open ranges of byte offsets in a text.

A span runs from its start, which belongs to it, to its stop, which does not.  Declared spans have
their start before their stop; a span read from an archive may be the wrong way round, and then it
holds no position and has length zero.

Main definitions:

* `Ambit.Text.Span` — the type, with offsets of 64 bits;
* `Ambit.Text.Span.ofBounds` — a span from its two ends, refused when they are the wrong way round;
* `Ambit.Text.Span.length`, `Ambit.Text.Span.Holds`, `Ambit.Text.Span.Covers` — its length, the
  positions and the spans inside it.
-/

set_option relaxedAutoImplicit false
set_option autoImplicit false

namespace Ambit.Text

/-- A half-open range of byte offsets. -/
structure Span where
  /-- The first offset inside. -/
  start : UInt64
  /-- The first offset past the end. -/
  stop : UInt64
deriving DecidableEq, Repr

namespace Span

/-- The ends of a span that are the wrong way round. -/
structure Inverted where
  start : UInt64
  stop : UInt64
deriving DecidableEq, Repr

def Inverted.message (e : Inverted) : String :=
  s!"Span start ({e.start}) must be <= end ({e.stop})"

/-- The span between two ends in order. -/
def ofBounds (start stop : UInt64) : Except Inverted Span :=
  if start ≤ stop then .ok ⟨start, stop⟩ else .error ⟨start, stop⟩

def between (start stop : Nat) : Span := ⟨start.toUInt64, stop.toUInt64⟩

/-- The number of bytes of a span; a span that is the wrong way round has none. -/
def length (s : Span) : Nat := s.stop.toNat - s.start.toNat

def isEmpty (s : Span) : Bool := s.start == s.stop

/-- The position lies in the span. -/
def Holds (s : Span) (position : UInt64) : Prop := s.start ≤ position ∧ position < s.stop

instance (s : Span) (position : UInt64) : Decidable (s.Holds position) :=
  inferInstanceAs (Decidable (_ ∧ _))

/-- The other span lies in the span. -/
def Covers (s t : Span) : Prop := s.start ≤ t.start ∧ t.stop ≤ s.stop

instance (s t : Span) : Decidable (s.Covers t) := inferInstanceAs (Decidable (_ ∧ _))

/-- The order of spans: by start, then by stop. -/
def Precedes (s t : Span) : Prop := s.start < t.start ∨ s.start = t.start ∧ s.stop < t.stop

instance (s t : Span) : Decidable (s.Precedes t) := inferInstanceAs (Decidable (_ ∨ _))

def render (s : Span) : String := s!"{s.start}..{s.stop}"

end Span

end Ambit.Text
