namespace TreeLint

/-- The half-open range `start..stop` of offsets into the source text. It may be inverted; a check
on trees rules that out. -/
structure Span where
  start : UInt32
  stop : UInt32
deriving DecidableEq, Repr, Inhabited

namespace Span

/-- The empty span at an offset. -/
def point (offset : UInt32) : Span := ⟨offset, offset⟩

def isEmpty (s : Span) : Bool := s.start == s.stop

/-- The inner span lies within the outer one, the bounds included. -/
def contains (outer inner : Span) : Bool :=
  decide (outer.start ≤ inner.start) && decide (inner.stop ≤ outer.stop)

/-- The two spans share an offset. An empty span overlaps nothing. -/
def overlaps (a b : Span) : Bool :=
  !a.isEmpty && !b.isEmpty && decide (a.start < b.stop) && decide (b.start < a.stop)

/-- The order by start and then by end. -/
def le (a b : Span) : Bool :=
  decide (a.start < b.start) || (a.start == b.start && decide (a.stop ≤ b.stop))

def lt (a b : Span) : Bool :=
  decide (a.start < b.start) || (a.start == b.start && decide (a.stop < b.stop))

/-- The order by start in which, of two spans with one start, the longer comes first. -/
def outerLe (a b : Span) : Bool :=
  decide (a.start < b.start) || (a.start == b.start && decide (b.stop ≤ a.stop))

protected def compare (a b : Span) : Ordering :=
  if a = b then .eq else if a.lt b then .lt else .gt

instance : Ord Span := ⟨Span.compare⟩

protected def toString (s : Span) : String :=
  toString s.start.toNat ++ ".." ++ toString s.stop.toNat

instance : ToString Span := ⟨Span.toString⟩

theorem contains_iff {a b : Span} : a.contains b ↔ a.start ≤ b.start ∧ b.stop ≤ a.stop := by
  simp [contains]

@[simp]
theorem contains_self (a : Span) : a.contains a := by
  simp [contains]

theorem contains_trans {a b c : Span} (hab : a.contains b) (hbc : b.contains c) :
    a.contains c := by
  rw [contains_iff] at *
  exact ⟨UInt32.le_trans hab.1 hbc.1, UInt32.le_trans hbc.2 hab.2⟩

theorem lt_trans {a b c : Span} (hab : a.lt b) (hbc : b.lt c) : a.lt c := by
  simp only [lt, Bool.or_eq_true, Bool.and_eq_true, decide_eq_true_eq, beq_iff_eq,
    UInt32.lt_iff_toNat_lt, ← UInt32.toNat_inj] at *
  omega

theorem lt_or_eq_or_gt (a b : Span) : a.lt b ∨ a = b ∨ b.lt a := by
  obtain ⟨s, t⟩ := a
  obtain ⟨s', t'⟩ := b
  simp only [lt, Bool.or_eq_true, Bool.and_eq_true, decide_eq_true_eq, beq_iff_eq, mk.injEq,
    UInt32.lt_iff_toNat_lt, ← UInt32.toNat_inj]
  omega

end Span

end TreeLint
