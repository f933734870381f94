import TreeLint.Syntax.Node

namespace TreeLint

/-- What is known of the static type of an expression. -/
inductive TypeFact where
  | known (isValueType : Bool)
  | unknown
deriving DecidableEq, Repr, Inhabited

namespace TypeFact

def isKnown : TypeFact → Bool
  | known _ => true
  | unknown => false

def isValueType : TypeFact → Bool
  | known isValueType => isValueType
  | unknown => false

end TypeFact

abbrev TypeOracle := Node → TypeFact

structure TypeEntry where
  span : Span
  fact : TypeFact
deriving DecidableEq, Repr

namespace TypeEntry

/-- Puts an entry at its place among sorted ones. It takes the place of an entry at its span. -/
def insertInto (e : TypeEntry) : List TypeEntry → List TypeEntry
  | [] => [e]
  | d :: ds =>
    if e.span = d.span then e :: ds
    else if e.span.lt d.span then e :: d :: ds
    else d :: e.insertInto ds

theorem mem_insertInto {a e : TypeEntry} {ds : List TypeEntry} (h : a ∈ e.insertInto ds) :
    a = e ∨ a ∈ ds := by
  fun_induction insertInto e ds with
  | case1 => simpa using h
  | case2 d ds _ =>
    rcases List.mem_cons.1 h with h | h
    · exact .inl h
    · exact .inr (List.mem_cons_of_mem _ h)
  | case3 => simpa using h
  | case4 d ds _ _ ih =>
    rcases List.mem_cons.1 h with h | h
    · exact .inr (h ▸ List.mem_cons_self)
    · exact (ih h).imp_right (List.mem_cons_of_mem _)

theorem pairwise_insertInto {ds : List TypeEntry} (e : TypeEntry)
    (h : ds.Pairwise fun a b => a.span.lt b.span) :
    (e.insertInto ds).Pairwise fun a b => a.span.lt b.span := by
  fun_induction insertInto e ds with
  | case1 => simp
  | case2 d ds he =>
    rw [List.pairwise_cons] at h ⊢
    exact ⟨fun b hb => he ▸ h.1 b hb, h.2⟩
  | case3 d ds _ hlt =>
    refine List.pairwise_cons.2 ⟨fun b hb => ?_, h⟩
    rcases List.mem_cons.1 hb with rfl | hb
    · exact hlt
    · exact Span.lt_trans hlt ((List.pairwise_cons.1 h).1 b hb)
  | case4 d ds hne hnlt ih =>
    rw [List.pairwise_cons] at h
    refine List.pairwise_cons.2 ⟨fun b hb => ?_, ih h.2⟩
    rcases mem_insertInto hb with rfl | hb
    · rcases Span.lt_or_eq_or_gt b.span d.span with hbd | hbd | hbd
      · exact absurd hbd hnlt
      · exact absurd hbd hne
      · exact hbd
    · exact h.1 b hb

end TypeEntry

/-- Type facts by span. The entries are in strictly increasing order of spans, so equal tables are
written alike. -/
structure TypeTable where
  entries : List TypeEntry
  sorted : entries.Pairwise fun a b => a.span.lt b.span
deriving DecidableEq, Repr

namespace TypeTable

def empty : TypeTable := ⟨[], .nil⟩

instance : Inhabited TypeTable := ⟨empty⟩

def size (t : TypeTable) : Nat := t.entries.length

def isEmpty (t : TypeTable) : Bool := t.entries.isEmpty

/-- Records a fact, in place of any earlier one for its span. -/
def insert (t : TypeTable) (e : TypeEntry) : TypeTable :=
  ⟨e.insertInto t.entries, TypeEntry.pairwise_insertInto e t.sorted⟩

/-- The table of a list of entries. Of several entries for one span the last counts. -/
def ofEntries (es : List TypeEntry) : TypeTable := es.foldl insert empty

def factAt (t : TypeTable) (span : Span) : TypeFact :=
  match t.entries.find? fun e => e.span == span with
  | some e => e.fact
  | none => .unknown

def oracle (t : TypeTable) : TypeOracle := fun n => t.factAt n.span

end TypeTable

end TreeLint
