import Mathlib.Data.List.Induction
import Mathlib.Data.List.Nodup
import Mathlib.Data.List.Sort
import TreeLint.Proofs.StoredDocuments

namespace TreeLint

namespace TypeEntry

variable {d e : TypeEntry} {es : List TypeEntry} {span : Span}

/-- The fact of the last of the entries for a span. -/
def lastFact? (es : List TypeEntry) (span : Span) : Option TypeFact :=
  (es.reverse.find? fun e => e.span == span).map fact

theorem lastFact?_concat (es : List TypeEntry) (e : TypeEntry) (span : Span) :
    lastFact? (es ++ [e]) span = if e.span = span then some e.fact else lastFact? es span := by
  rw [lastFact?, List.reverse_concat, List.find?_cons]
  by_cases h : e.span = span
  · rw [beq_iff_eq.2 h, if_pos h]
    rfl
  · rw [beq_false_of_ne h, if_neg h]
    rfl

theorem isSome_lastFact? : (lastFact? es span).isSome ↔ span ∈ es.map TypeEntry.span := by
  rw [lastFact?, Option.isSome_map, List.find?_isSome, List.mem_map]
  simp only [List.mem_reverse, beq_iff_eq]

theorem of_find?_eq_some (h : (es.find? fun e => e.span == span) = some d) :
    d ∈ es ∧ d.span = span := by
  refine ⟨List.mem_of_find?_eq_some h, ?_⟩
  simpa using List.find?_some h

theorem find?_insertInto (e : TypeEntry) (ds : List TypeEntry) (span : Span) :
    (e.insertInto ds).find? (fun d => d.span == span) =
      if e.span = span then some e else ds.find? fun d => d.span == span := by
  fun_induction insertInto e ds with
  | case1 => by_cases h : e.span = span <;> simp [h]
  | case2 d ds heq => by_cases h : e.span = span <;> simp_all
  | case3 d ds hne hlt => by_cases h : e.span = span <;> simp [h]
  | case4 d ds hne hnlt ih =>
    by_cases h : d.span = span
    · have he : e.span ≠ span := fun he => hne (he.trans h.symm)
      simp [h, he]
    · simp [h, ih]

end TypeEntry

namespace TypeTable

open TypeEntry

variable {t u : TypeTable} {e : TypeEntry} {es : List TypeEntry} {span : Span}

/-- The fact that a table has for a span, if it has one. -/
def fact? (t : TypeTable) (span : Span) : Option TypeFact :=
  (t.entries.find? fun e => e.span == span).map fact

theorem factAt_eq (t : TypeTable) (span : Span) : t.factAt span = (t.fact? span).getD .unknown := by
  rw [factAt, fact?]
  cases t.entries.find? fun e => e.span == span with
  | none => rfl
  | some e => rfl

theorem fact?_insert (t : TypeTable) (e : TypeEntry) (span : Span) :
    (t.insert e).fact? span = if e.span = span then some e.fact else t.fact? span := by
  rw [fact?, insert, find?_insertInto]
  split
  · rfl
  · rfl

/-- Of the entries for one span, the last one counts. -/
theorem fact?_ofEntries (es : List TypeEntry) (span : Span) :
    (ofEntries es).fact? span = lastFact? es span := by
  induction es using List.reverseRecOn with
  | nil => rfl
  | append_singleton es e ih =>
    rw [ofEntries, List.foldl_append, List.foldl_cons, List.foldl_nil, fact?_insert,
      lastFact?_concat, ← ih]
    rfl

theorem nodup_spans (t : TypeTable) : (t.entries.map TypeEntry.span).Nodup := by
  apply List.pairwise_map.2
  apply t.sorted.imp
  intro d e hlt heq
  rw [heq] at hlt
  exact Span.lt_irrefl hlt

theorem mem_entries : e ∈ t.entries ↔ t.fact? e.span = some e.fact := by
  rw [fact?, Option.map_eq_some_iff]
  constructor
  · intro he
    have hfound : (t.entries.find? fun d => d.span == e.span).isSome :=
      List.find?_isSome.2 ⟨e, he, beq_self_eq_true e.span⟩
    obtain ⟨d, hd⟩ := Option.isSome_iff_exists.1 hfound
    obtain ⟨hmem, hspan⟩ := of_find?_eq_some hd
    have hde : d = e := List.inj_on_of_nodup_map t.nodup_spans hmem he hspan
    exact ⟨d, hd, congrArg fact hde⟩
  · rintro ⟨d, hd, hfact⟩
    obtain ⟨hmem, hspan⟩ := of_find?_eq_some hd
    have hde : d = e := by
      cases d
      cases e
      cases hspan
      cases hfact
      rfl
    exact hde ▸ hmem

theorem mem_spans : span ∈ t.entries.map TypeEntry.span ↔ (t.fact? span).isSome := by
  rw [fact?, Option.isSome_map, List.find?_isSome, List.mem_map]
  simp only [beq_iff_eq]

/-- Entries in strictly increasing order are determined by the facts for the spans. -/
theorem entries_eq_of_fact?_eq (h : ∀ span, t.fact? span = u.fact? span) :
    t.entries = u.entries := by
  have : Std.Irrefl fun d e : TypeEntry => (d.span.lt e.span : Prop) :=
    ⟨fun _ => Span.lt_irrefl⟩
  have : Std.Antisymm fun d e : TypeEntry => (d.span.lt e.span : Prop) :=
    ⟨fun _ _ hde hed => absurd (Span.lt_trans hde hed) Span.lt_irrefl⟩
  apply t.sorted.eq_of_mem_iff u.sorted
  intro e
  rw [mem_entries, mem_entries, h]

theorem toJson_eq_iff : t.toJson = u.toJson ↔ ∀ span, t.fact? span = u.fact? span := by
  constructor
  · intro h span
    have hread : ofJson? .text t.toJson = some u := by
      rw [h, ofJson?_toJson]
    rw [ofJson?_toJson, Option.some_inj] at hread
    rw [hread]
  · intro h
    rw [toJson, toJson, entries_eq_of_fact?_eq h]

/-- The table of a list of entries holds each span of the list once, in strictly increasing order.
It answers for a node with the fact of the last entry for its span, it is read back from its entries
and from their stored form, and it is written like that of another list just if they agree on the
last fact of every span. -/
theorem ofEntries_lastFacts (es : List TypeEntry) :
    ((ofEntries es).entries.Pairwise fun d e => d.span.lt e.span) ∧
    (∀ span, ((ofEntries es).entries.map TypeEntry.span).count span =
      if span ∈ es.map TypeEntry.span then 1 else 0) ∧
    (∀ n : Node, (ofEntries es).oracle n = (lastFact? es n.span).getD .unknown) ∧
    ofEntries (ofEntries es).entries = ofEntries es ∧
    ofJson? .text (ofEntries es).toJson = some (ofEntries es) ∧
    ∀ ds, (ofEntries es).toJson = (ofEntries ds).toJson ↔
      ∀ span, lastFact? es span = lastFact? ds span := by
  refine ⟨(ofEntries es).sorted, ?_, ?_, ofEntries_entries _, ofJson?_toJson _, ?_⟩
  · intro span
    have hmem : span ∈ (ofEntries es).entries.map TypeEntry.span ↔ span ∈ es.map TypeEntry.span := by
      rw [mem_spans, fact?_ofEntries, isSome_lastFact?]
    rw [(ofEntries es).nodup_spans.count]
    exact if_congr hmem rfl rfl
  · intro n
    rw [oracle, factAt_eq, fact?_ofEntries]
  · intro ds
    rw [toJson_eq_iff]
    simp only [fact?_ofEntries]

end TypeTable

end TreeLint
