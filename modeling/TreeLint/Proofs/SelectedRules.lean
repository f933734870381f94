import TreeLint.Proofs.FixSteps
import TreeLint.RuleSelection

namespace TreeLint

theorem nodup_eraseDups {α : Type} [BEq α] [LawfulBEq α] (xs : List α) : xs.eraseDups.Nodup := by
  -- What follows the head is erased from the tail first, so the induction is on the length.
  induction hn : xs.length using Nat.strongRecOn generalizing xs with
  | ind n ih =>
    cases xs with
    | nil =>
      rw [List.eraseDups_nil]
      exact List.nodup_nil
    | cons x xs =>
      have hlt : (xs.filter fun y => !y == x).length < n := by
        rw [← hn, List.length_cons]
        exact Nat.lt_succ_of_le (List.length_filter_le _ _)
      rw [List.eraseDups_cons, List.nodup_cons]
      constructor
      · simp
      · exact ih _ hlt _ rfl

namespace RuleSettings

variable {settings settings' : RuleSettings} {origin : RuleOrigin} {id : String}
  {ids known requested requested' xs ys : List String}

theorem mem_canonical : id ∈ canonical ids ↔ id ∈ ids := by
  rw [canonical, List.mem_mergeSort, List.mem_eraseDups]

theorem nodup_canonical (ids : List String) : (canonical ids).Nodup :=
  (List.mergeSort_perm _ _).nodup_iff.2 (nodup_eraseDups ids)

theorem pairwise_canonical (ids : List String) : (canonical ids).Pairwise (· ≤ ·) := by
  have hsorted : (canonical ids).Pairwise fun a b => decide (a ≤ b) := by
    apply List.pairwise_mergeSort
    · intro a b c hab hbc
      exact decide_eq_true (String.le_trans (of_decide_eq_true hab) (of_decide_eq_true hbc))
    · intro a b
      simpa using String.le_total a b
  exact hsorted.imp of_decide_eq_true

/-- The ids stand in order, each once, and they are those with the property. -/
structure Lists (ids : List String) (P : String → Prop) : Prop where
  nodup : ids.Nodup
  inOrder : ids.Pairwise (· ≤ ·)
  mem_iff : ∀ id, id ∈ ids ↔ P id

theorem lists_canonical (ids : List String) : Lists (canonical ids) (· ∈ ids) :=
  ⟨nodup_canonical ids, pairwise_canonical ids, fun _ => mem_canonical⟩

theorem Lists.unique {P : String → Prop} (hxs : Lists xs P) (hys : Lists ys P) : xs = ys := by
  apply List.Perm.eq_of_pairwise
  · intro a b _ _ hab hba
    exact String.le_antisymm hab hba
  · exact hxs.inOrder
  · exact hys.inOrder
  · rw [List.perm_ext_iff_of_nodup hxs.nodup hys.nodup]
    exact fun id => (hxs.mem_iff id).trans (hys.mem_iff id).symm

theorem Lists.congr {P Q : String → Prop} (h : Lists ids P) (hPQ : ∀ id, P id ↔ Q id) :
    Lists ids Q :=
  ⟨h.nodup, h.inOrder, fun id => (h.mem_iff id).trans (hPQ id)⟩

/-- The ids that come from each of the three lists. -/
def listed (settings : RuleSettings) (requested : List String) : RuleOrigin → List String
  | .request => requested
  | .enabled => settings.enabled.getD []
  | .disabled => settings.disabled

/-- The list is looked at. The settings are passed over when rules are asked for. -/
def LooksAt (requested : List String) (origin : RuleOrigin) : Prop :=
  requested = [] ∨ origin = .request

/-- The rule is one of those asked for or, when none is, it is enabled and not disabled. -/
def Selects (settings : RuleSettings) (known requested : List String) (id : String) : Prop :=
  if requested = [] then id ∈ settings.enabled.getD known ∧ id ∉ settings.disabled
  else id ∈ requested

theorem checkKnown_eq_ok_iff (origin : RuleOrigin) :
    checkKnown known origin ids = .ok () ↔ ∀ id ∈ ids, id ∈ known := by
  rw [checkKnown]
  split
  · rename_i id hid
    obtain ⟨as, bs, rfl, -⟩ := (List.find?_eq_some_iff_append.1 hid).2
    have hunknown : id ∉ known := by simpa using List.find?_some hid
    apply iff_of_false
    · intro h
      cases h
    · intro h
      exact hunknown (h id (by simp))
  · rename_i hnone
    apply iff_of_true rfl
    simpa using hnone

theorem checkKnown_bind_eq_ok_iff {rest : Except SelectionError (List String)} :
    (checkKnown known origin ids >>= fun _ => rest) = .ok xs ↔
      (∀ id ∈ ids, id ∈ known) ∧ rest = .ok xs := by
  rw [bind_eq_ok, ← checkKnown_eq_ok_iff origin]
  constructor
  · rintro ⟨⟨⟩, hcheck, hrest⟩
    exact ⟨hcheck, hrest⟩
  · rintro ⟨hcheck, hrest⟩
    exact ⟨(), hcheck, hrest⟩

theorem mem_configured :
    id ∈ settings.configured known ↔ id ∈ settings.enabled.getD known ∧ id ∉ settings.disabled := by
  simp [configured]

theorem select_nil_eq_ok_iff : settings.select known [] = .ok ids ↔
    (∀ id ∈ settings.enabled.getD [], id ∈ known) ∧ (∀ id ∈ settings.disabled, id ∈ known) ∧
      settings.configured known ≠ [] ∧ ids = canonical (settings.configured known) := by
  rw [select, checkKnown_bind_eq_ok_iff, if_pos List.isEmpty_nil, checkKnown_bind_eq_ok_iff,
    checkKnown_bind_eq_ok_iff, and_iff_right (List.forall_mem_nil _)]
  refine and_congr_right fun _ => and_congr_right fun _ => ?_
  cases settings.configured known with
  | nil => simp
  | cons id rest =>
    rw [and_iff_right (List.cons_ne_nil id rest), eq_comm (a := ids)]
    exact ⟨Except.ok.inj, congrArg Except.ok⟩

theorem select_eq_ok_of_requested (h : requested ≠ []) : settings.select known requested = .ok ids ↔
    (∀ id ∈ requested, id ∈ known) ∧ ids = canonical requested := by
  have hempty : ¬ requested.isEmpty := by simpa using h
  rw [select, checkKnown_bind_eq_ok_iff, if_neg hempty]
  refine and_congr_right fun _ => ?_
  rw [eq_comm (a := ids)]
  exact ⟨Except.ok.inj, congrArg Except.ok⟩

theorem eq_canonical_iff {P : String → Prop} (h : ∀ id, id ∈ xs ↔ P id) :
    ids = canonical xs ↔ Lists ids P := by
  constructor
  · rintro rfl
    exact (lists_canonical xs).congr h
  · intro hids
    exact hids.unique ((lists_canonical xs).congr h)

theorem selects_nil : settings.Selects known [] id ↔ id ∈ settings.configured known := by
  rw [Selects, if_pos rfl, mem_configured]

theorem selects_of_requested (h : requested ≠ []) :
    settings.Selects known requested id ↔ id ∈ requested := by
  rw [Selects, if_neg h]

theorem exists_lists (settings : RuleSettings) (known requested : List String) :
    ∃ ids, Lists ids (settings.Selects known requested) := by
  by_cases hnone : requested = []
  · subst hnone
    exact ⟨_, (lists_canonical _).congr fun _ => selects_nil.symm⟩
  · exact ⟨_, (lists_canonical _).congr fun _ => (selects_of_requested hnone).symm⟩

theorem select_eq_ok_iff : settings.select known requested = .ok ids ↔
    (∀ origin, LooksAt requested origin → ∀ id ∈ settings.listed requested origin, id ∈ known) ∧
      (∃ id, settings.Selects known requested id) ∧
      Lists ids (settings.Selects known requested) := by
  by_cases hnone : requested = []
  · subst hnone
    have hlisted : (∀ origin, LooksAt [] origin → ∀ id ∈ settings.listed [] origin, id ∈ known) ↔
        (∀ id ∈ settings.enabled.getD [], id ∈ known) ∧ ∀ id ∈ settings.disabled, id ∈ known := by
      constructor
      · intro h
        exact ⟨h .enabled (.inl rfl), h .disabled (.inl rfl)⟩
      · rintro ⟨henabled, hdisabled⟩ origin -
        cases origin with
        | request => exact List.forall_mem_nil _
        | enabled => exact henabled
        | disabled => exact hdisabled
    have hsome : settings.configured known ≠ [] ↔ ∃ id, settings.Selects known [] id := by
      rw [← List.isEmpty_eq_false_iff, List.isEmpty_eq_false_iff_exists_mem]
      exact exists_congr fun _ => selects_nil.symm
    rw [select_nil_eq_ok_iff, hlisted, hsome, eq_canonical_iff fun _ => selects_nil.symm, and_assoc]
  · have hlisted : (∀ origin, LooksAt requested origin →
        ∀ id ∈ settings.listed requested origin, id ∈ known) ↔ ∀ id ∈ requested, id ∈ known := by
      constructor
      · intro h
        exact h .request (.inr rfl)
      · rintro h origin (hempty | rfl)
        · exact absurd hempty hnone
        · exact h
    have hsome : ∃ id, settings.Selects known requested id := by
      obtain ⟨id, hid⟩ := List.exists_mem_of_ne_nil requested hnone
      exact ⟨id, (selects_of_requested hnone).2 hid⟩
    rw [select_eq_ok_of_requested hnone, hlisted, and_iff_right hsome,
      eq_canonical_iff fun _ => (selects_of_requested hnone).symm]

theorem of_checkKnown_eq_error {e : SelectionError} (h : checkKnown known origin ids = .error e) :
    ∃ id ∈ ids, id ∉ known ∧ e = .unknownRule id origin known := by
  rw [checkKnown] at h
  split at h
  · rename_i id hid
    cases h
    have hunknown : id ∉ known := by simpa using List.find?_some hid
    exact ⟨id, List.mem_of_find?_eq_some hid, hunknown, rfl⟩
  · cases h

/-- A failed selection names an unknown id and one of the lists looked at that it is in, or it has
looked at all of them and nothing is selected. -/
theorem of_select_eq_error {e : SelectionError} (h : settings.select known requested = .error e) :
    (∃ origin, LooksAt requested origin ∧
      ∃ id ∈ settings.listed requested origin, id ∉ known ∧ e = .unknownRule id origin known) ∨
    e = .nothingSelected ∧ ¬ ∃ id, settings.Selects known requested id := by
  rw [select, bind_eq_error] at h
  obtain hcheck | ⟨-, -, h⟩ := h
  · exact .inl ⟨.request, .inr rfl, of_checkKnown_eq_error hcheck⟩
  by_cases hnone : requested = []
  · subst hnone
    rw [if_pos List.isEmpty_nil, bind_eq_error] at h
    obtain hcheck | ⟨-, -, h⟩ := h
    · exact .inl ⟨.enabled, .inl rfl, of_checkKnown_eq_error hcheck⟩
    rw [bind_eq_error] at h
    obtain hcheck | ⟨-, -, h⟩ := h
    · exact .inl ⟨.disabled, .inl rfl, of_checkKnown_eq_error hcheck⟩
    split at h
    · rename_i hconfigured
      cases h
      refine .inr ⟨rfl, ?_⟩
      rintro ⟨id, hid⟩
      rw [selects_nil, hconfigured] at hid
      cases hid
    · cases h
  · have hempty : ¬ requested.isEmpty := by simpa using hnone
    rw [if_neg hempty] at h
    cases h

/-- The lists hold the same ids, in any order and any number of times. -/
def SameIds (xs ys : List String) : Prop := ∀ id, id ∈ xs ↔ id ∈ ys

/-- Either both configurations leave the list of enabled ids out, or both have the same ids in it,
and so have the lists of disabled ids. -/
structure SameSettings (settings settings' : RuleSettings) : Prop where
  enabled : Option.Rel SameIds settings.enabled settings'.enabled
  disabled : SameIds settings.disabled settings'.disabled

theorem SameIds.eq_nil_iff (h : SameIds xs ys) : xs = [] ↔ ys = [] := by
  rw [List.eq_nil_iff_forall_not_mem, List.eq_nil_iff_forall_not_mem]
  exact forall_congr' fun id => not_congr (h id)

theorem SameSettings.sameIds_getD (h : SameSettings settings settings') (xs : List String) :
    SameIds (settings.enabled.getD xs) (settings'.enabled.getD xs) := by
  obtain ⟨enabled, disabled⟩ := settings
  obtain ⟨enabled', disabled'⟩ := settings'
  cases h.enabled with
  | some hids => exact hids
  | none => exact fun _ => Iff.rfl

theorem SameSettings.sameIds_listed (h : SameSettings settings settings')
    (hrequested : SameIds requested requested') (origin : RuleOrigin) :
    SameIds (settings.listed requested origin) (settings'.listed requested' origin) := by
  cases origin with
  | request => exact hrequested
  | enabled => exact h.sameIds_getD []
  | disabled => exact h.disabled

theorem SameSettings.selects_iff (h : SameSettings settings settings')
    (hrequested : SameIds requested requested') (known : List String) (id : String) :
    settings.Selects known requested id ↔ settings'.Selects known requested' id := by
  rw [Selects, Selects]
  by_cases hnone : requested = []
  · rw [if_pos hnone, if_pos (hrequested.eq_nil_iff.1 hnone)]
    exact and_congr (h.sameIds_getD known id) (not_congr (h.disabled id))
  · rw [if_neg hnone, if_neg (mt hrequested.eq_nil_iff.2 hnone)]
    exact hrequested id

theorem SameSettings.select_eq_ok_iff (h : SameSettings settings settings')
    (hrequested : SameIds requested requested') :
    settings.select known requested = .ok ids ↔ settings'.select known requested' = .ok ids := by
  have hlooks (origin : RuleOrigin) : LooksAt requested origin ↔ LooksAt requested' origin :=
    or_congr_left hrequested.eq_nil_iff
  have hselects := h.selects_iff hrequested known
  rw [RuleSettings.select_eq_ok_iff, RuleSettings.select_eq_ok_iff, exists_congr hselects]
  refine and_congr ?_ (and_congr_right fun _ => ?_)
  · refine forall_congr' fun origin => imp_congr (hlooks origin) (forall_congr' fun id => ?_)
    exact imp_congr_left (h.sameIds_listed hrequested origin id)
  · exact ⟨fun hids => hids.congr hselects, fun hids => hids.congr fun id => (hselects id).symm⟩

/-- For any registry: a selection succeeds exactly when every id in a list that it looks at names a
rule of the registry and it selects one at least. It gives the selected ids, in order and each once,
and the order and the repetitions in the three lists do not matter. It looks at the list of the
rules asked for and, only if that is empty, at the configured ones. -/
theorem select_of_listed (settings : RuleSettings) (registry : Registry) (requested : List String) :
    ((∃ ids, settings.select registry.ids requested = .ok ids) ↔
      (∀ origin, LooksAt requested origin →
        ∀ id ∈ settings.listed requested origin, ∃ r ∈ registry.rules, r.id = id) ∧
      ∃ id, settings.Selects registry.ids requested id) ∧
    (∀ ids, settings.select registry.ids requested = .ok ids →
      Lists ids (settings.Selects registry.ids requested)) ∧
    ∀ settings' requested', SameSettings settings settings' → SameIds requested requested' →
      ∀ ids, settings.select registry.ids requested = .ok ids ↔
        settings'.select registry.ids requested' = .ok ids := by
  have hnames (id : String) : (∃ r ∈ registry.rules, r.id = id) ↔ id ∈ registry.ids := by
    rw [Registry.ids, List.mem_map]
  refine ⟨⟨?_, ?_⟩, ?_, ?_⟩
  · rintro ⟨ids, hids⟩
    obtain ⟨hknown, hsome, -⟩ := select_eq_ok_iff.1 hids
    exact ⟨fun origin horigin id hid => (hnames id).2 (hknown origin horigin id hid), hsome⟩
  · rintro ⟨hknown, hsome⟩
    obtain ⟨ids, hids⟩ := exists_lists settings registry.ids requested
    refine ⟨ids, select_eq_ok_iff.2 ⟨fun origin horigin id hid => ?_, hsome, hids⟩⟩
    exact (hnames id).1 (hknown origin horigin id hid)
  · intro ids hids
    exact (select_eq_ok_iff.1 hids).2.2
  · intro settings' requested' hsettings hrequested ids
    exact hsettings.select_eq_ok_iff hrequested

theorem select_of_listed_enabledTwice :
    let settings : RuleSettings :=
      ⟨some [TryMethod.ruleId, ValueEquality.ruleId, TryMethod.ruleId], [ValueEquality.ruleId]⟩
    let settings' : RuleSettings :=
      ⟨some [ValueEquality.ruleId, TryMethod.ruleId], [ValueEquality.ruleId, ValueEquality.ruleId]⟩
    settings.select Registry.builtin.ids [] = .ok [TryMethod.ruleId] ∧
      SameSettings settings settings' ∧
      settings'.select Registry.builtin.ids [] = .ok [TryMethod.ruleId] := by
  intro settings settings'
  obtain ⟨haccepted, hselected, hsame⟩ := select_of_listed settings .builtin []
  have hknown : ∀ origin, LooksAt [] origin → ∀ id ∈ settings.listed [] origin,
      ∃ r ∈ Registry.builtin.rules, r.id = id := by
    intro origin _
    cases origin <;> decide
  have hids (id : String) : id ∈ [TryMethod.ruleId] ↔ settings.Selects Registry.builtin.ids [] id := by
    have hconfigured : settings.configured Registry.builtin.ids =
        [TryMethod.ruleId, TryMethod.ruleId] := by decide
    rw [selects_nil, hconfigured, List.mem_cons, List.mem_cons, List.mem_cons, or_self_left]
  have hlists : Lists [TryMethod.ruleId] (settings.Selects Registry.builtin.ids []) :=
    ⟨by decide, by simp, hids⟩
  obtain ⟨ids, hselect⟩ := haccepted.2 ⟨hknown, TryMethod.ruleId, (hids _).1 (by decide)⟩
  obtain rfl := (hselected ids hselect).unique hlists
  have henabled : SameIds [TryMethod.ruleId, ValueEquality.ruleId, TryMethod.ruleId]
      [ValueEquality.ruleId, TryMethod.ruleId] := by
    intro id
    simp only [List.mem_cons]
    tauto
  have hdisabled : SameIds [ValueEquality.ruleId] [ValueEquality.ruleId, ValueEquality.ruleId] := by
    intro id
    simp
  have hsettings : SameSettings settings settings' := ⟨.some henabled, hdisabled⟩
  exact ⟨hselect, hsettings, (hsame settings' [] hsettings (fun _ => Iff.rfl) _).1 hselect⟩

/-- An unknown id among the enabled ones goes unnoticed when a rule is asked for. -/
theorem unknown_enabled_unnoticed :
    let settings : RuleSettings := ⟨some ["Nope"], []⟩
    settings.select Registry.builtin.ids [TryMethod.ruleId] = .ok [TryMethod.ruleId] ∧
      "Nope" ∈ settings.listed [TryMethod.ruleId] .enabled ∧
      ¬ ∃ r ∈ Registry.builtin.rules, r.id = "Nope" := by
  intro settings
  exact ⟨by decide +kernel, by decide, by decide⟩

end RuleSettings

end TreeLint
