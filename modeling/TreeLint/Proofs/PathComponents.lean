import Mathlib.Data.List.TakeDrop
import TreeLint.FilePath

namespace TreeLint

theorem splitSlash_ne_nil (bs : Bytes) : splitSlash bs ≠ [] := by
  cases bs with
  | nil => simp [splitSlash]
  | cons b bs =>
    rw [splitSlash]
    split
    · simp
    · split
      · simp
      · simp

theorem exists_splitSlash_eq_cons (bs : Bytes) : ∃ s ss, splitSlash bs = s :: ss :=
  List.exists_cons_of_ne_nil (splitSlash_ne_nil bs)

theorem splitSlash_append (as bs : Bytes) :
    splitSlash (as ++ slash :: bs) = splitSlash as ++ splitSlash bs := by
  induction as with
  | nil => simp [splitSlash]
  | cons a as ih =>
    rw [List.cons_append, splitSlash, splitSlash, ih]
    split
    · rfl
    · obtain ⟨s, ss, hs⟩ := exists_splitSlash_eq_cons as
      rw [hs]
      rfl

theorem splitSlash_of_not_mem {bs : Bytes} (h : slash ∉ bs) : splitSlash bs = [bs] := by
  induction bs with
  | nil => rfl
  | cons b bs ih =>
    rw [List.mem_cons, not_or] at h
    rw [splitSlash, if_neg (Ne.symm h.1), ih h.2]

theorem splitSlash_ne_of_ne_nil {bs : Bytes} (h : bs ≠ []) : splitSlash bs ≠ [[]] := by
  cases bs with
  | nil => exact absurd rfl h
  | cons b bs =>
    obtain ⟨s, ss, hs⟩ := exists_splitSlash_eq_cons bs
    rw [splitSlash, hs]
    split
    · simp
    · simp

theorem not_mem_of_mem_splitSlash {bs s : Bytes} (h : s ∈ splitSlash bs) : slash ∉ s := by
  induction bs generalizing s with
  | nil =>
    rw [splitSlash, List.mem_singleton] at h
    simp [h]
  | cons b bs ih =>
    rw [splitSlash] at h
    split at h
    · rcases List.mem_cons.1 h with rfl | h
      · exact List.not_mem_nil
      · exact ih h
    · rename_i hb
      obtain ⟨t, ts, ht⟩ := exists_splitSlash_eq_cons bs
      rw [ht] at h ih
      rcases List.mem_cons.1 h with rfl | h
      · rw [List.mem_cons, not_or]
        exact ⟨Ne.symm hb, ih List.mem_cons_self⟩
      · exact ih (List.mem_cons_of_mem t h)

namespace FilePath

/-- A name that a file or a directory can have. -/
structure IsFileName (name : Bytes) : Prop where
  ne_nil : name ≠ []
  ne_current : name ≠ [point]
  ne_parent : name ≠ [point, point]
  unbroken : slash ∉ name

theorem isFileName_iff {name : Bytes} :
    IsFileName name ↔ name ≠ [] ∧ name ≠ [point] ∧ name ≠ [point, point] ∧ slash ∉ name :=
  ⟨fun h => ⟨h.ne_nil, h.ne_current, h.ne_parent, h.unbroken⟩,
    fun ⟨hnil, hcurrent, hparent, hunbroken⟩ => ⟨hnil, hcurrent, hparent, hunbroken⟩⟩

instance (name : Bytes) : Decidable (IsFileName name) := decidable_of_iff _ isFileName_iff.symm

variable {p q : FilePath} {name s t : Bytes} {ss : List Bytes}

theorem innerComponent?_nil : innerComponent? [] = none := rfl

theorem innerComponent?_of_isFileName (h : IsFileName name) :
    innerComponent? name = some (.normal name) := by
  rw [innerComponent?, if_neg (not_or.2 ⟨h.ne_nil, h.ne_current⟩), if_neg h.ne_parent]

theorem isFileName_of_innerComponent? (hs : slash ∉ s)
    (h : innerComponent? s = some (.normal name)) : IsFileName name := by
  rw [innerComponent?] at h
  split at h
  · cases h
  · split at h
    · cases h
    · rename_i hinner hparent
      cases h
      rw [not_or] at hinner
      exact ⟨hinner.1, hinner.2, hparent, hs⟩

/-- What the first segment stands for when others follow or it is not empty. -/
def firstComponents (s : Bytes) : List Component :=
  if s = [] then [.root]
  else if s = [point] then [.current]
  else (innerComponent? s).toList

def segmentComponents : List Bytes → List Component
  | [] => []
  | s :: ss =>
    if s = [] ∧ ss = [] then [] else firstComponents s ++ ss.filterMap innerComponent?

def textComponents (text : Bytes) : List Component := segmentComponents (splitSlash text)

theorem map_fst_innerPieces (before : Bytes) (ss : List Bytes) :
    (innerPieces before ss).map Prod.fst = ss.filterMap innerComponent? := by
  induction ss generalizing before with
  | nil => rfl
  | cons s ss ih =>
    rw [innerPieces, List.map_append, ih]
    cases hs : innerComponent? s with
    | none => rw [List.filterMap_cons_none hs]; rfl
    | some c => rw [List.filterMap_cons_some hs]; rfl

theorem exists_innerComponent? (hs : s ≠ []) (hcurrent : s ≠ [point]) :
    ∃ c, innerComponent? s = some c := by
  rw [innerComponent?, if_neg (not_or.2 ⟨hs, hcurrent⟩)]
  split
  · exact ⟨_, rfl⟩
  · exact ⟨_, rfl⟩

theorem exists_pieces_eq (h : splitSlash p.text = s :: ss) (hne : ¬ (s = [] ∧ ss = [])) :
    ∃ c, firstComponents s = [c] ∧
      p.pieces = (c, if s = [] then [slash] else s) :: innerPieces s ss := by
  rw [pieces, h]
  dsimp only
  by_cases hs : s = []
  · subst hs
    have hss : ss ≠ [] := fun hss => hne ⟨rfl, hss⟩
    rw [if_pos rfl, if_pos rfl, if_neg hss]
    exact ⟨.root, rfl, rfl⟩
  · rw [if_neg hs, if_neg hs]
    by_cases hcurrent : s = [point]
    · subst hcurrent
      rw [if_pos rfl]
      exact ⟨.current, rfl, rfl⟩
    · obtain ⟨c, hc⟩ := exists_innerComponent? hs hcurrent
      rw [if_neg hcurrent, hc]
      refine ⟨c, ?_, rfl⟩
      rw [firstComponents, if_neg hs, if_neg hcurrent, hc]
      rfl

theorem components_eq (p : FilePath) : p.components = textComponents p.text := by
  obtain ⟨s, ss, h⟩ := exists_splitSlash_eq_cons p.text
  rw [components, textComponents, h, segmentComponents]
  split
  · rename_i hempty
    obtain ⟨rfl, rfl⟩ := hempty
    rw [pieces, h]
    rfl
  · rename_i hne
    obtain ⟨c, hc, hpieces⟩ := exists_pieces_eq h hne
    rw [hpieces, List.map_cons, map_fst_innerPieces, hc]
    rfl

theorem segmentComponents_concat (t : Bytes) (ts : List Bytes) (s : Bytes) :
    segmentComponents (t :: (ts ++ [s])) =
      firstComponents t ++ ts.filterMap innerComponent? ++ (innerComponent? s).toList := by
  rw [segmentComponents, if_neg (by simp), List.filterMap_append, List.append_assoc]
  cases hs : innerComponent? s with
  | none => rw [List.filterMap_cons_none hs]; rfl
  | some c => rw [List.filterMap_cons_some hs]; rfl

theorem textComponents_append (text : Bytes) (hs : slash ∉ s) :
    textComponents (text ++ slash :: s) =
      textComponents (text ++ [slash]) ++ (innerComponent? s).toList := by
  obtain ⟨t, ts, ht⟩ := exists_splitSlash_eq_cons text
  rw [textComponents, textComponents, splitSlash_append, splitSlash_append, ht,
    splitSlash_of_not_mem hs, splitSlash, List.cons_append, List.cons_append,
    segmentComponents_concat, segmentComponents_concat, innerComponent?_nil, Option.toList_none,
    List.append_nil]

theorem textComponents_slash {text : Bytes} (h : text ≠ []) :
    textComponents (text ++ [slash]) = textComponents text := by
  obtain ⟨t, ts, ht⟩ := exists_splitSlash_eq_cons text
  have hne : ¬ (t = [] ∧ ts = []) := by
    rintro ⟨rfl, rfl⟩
    exact splitSlash_ne_of_ne_nil h ht
  rw [textComponents, textComponents, splitSlash_append, ht, splitSlash, List.cons_append,
    segmentComponents_concat, segmentComponents, if_neg hne, innerComponent?_nil,
    Option.toList_none, List.append_nil]

theorem textComponents_of_isFileName (h : IsFileName name) :
    textComponents name = [.normal name] := by
  rw [textComponents, splitSlash_of_not_mem h.unbroken, segmentComponents,
    if_neg fun hempty => h.ne_nil hempty.1, firstComponents, if_neg h.ne_nil,
    if_neg h.ne_current, innerComponent?_of_isFileName h]
  rfl

theorem textComponents_joinText (base : Bytes) (h : IsFileName name) :
    textComponents (joinText base name) = textComponents base ++ [.normal name] := by
  rw [joinText]
  by_cases hbase : base = []
  · rw [if_pos (.inl hbase), hbase, List.nil_append, textComponents_of_isFileName h]
    rfl
  · by_cases hlast : base.getLast? = some slash
    · obtain ⟨init, rfl⟩ := List.getLast?_eq_some_iff.1 hlast
      rw [if_pos (.inr hlast), List.append_assoc, List.singleton_append,
        textComponents_append init h.unbroken, innerComponent?_of_isFileName h]
      rfl
    · rw [if_neg (not_or.2 ⟨hbase, hlast⟩), textComponents_append base h.unbroken,
        textComponents_slash hbase, innerComponent?_of_isFileName h]
      rfl

theorem components_join (p : FilePath) (h : IsFileName name) :
    (p.join name).components = p.components ++ [.normal name] := by
  rw [components_eq, components_eq, join, textComponents_joinText _ h]

theorem components_foldl_join (p : FilePath) {names : List Bytes}
    (h : ∀ name ∈ names, IsFileName name) :
    (names.foldl join p).components = p.components ++ names.map .normal := by
  induction names generalizing p with
  | nil => simp
  | cons name names ih =>
    obtain ⟨hname, hnames⟩ := List.forall_mem_cons.1 h
    rw [List.foldl_cons, ih _ hnames, components_join p hname, List.append_assoc]
    rfl

theorem textComponents_of_innerPieces {before text : Bytes} {c : Component}
    {front back : List (Component × Bytes)} (hss : ∀ s ∈ ss, slash ∉ s)
    (h : innerPieces before ss = front ++ (c, text) :: back) :
    textComponents text =
      textComponents (before ++ [slash]) ++ front.map Prod.fst ++ [c] := by
  induction ss generalizing before front with
  | nil => simp [innerPieces] at h
  | cons s ss ih =>
    obtain ⟨hs, hss⟩ := List.forall_mem_cons.1 hss
    have hbefore := textComponents_append before hs
    have hupTo : textComponents (before ++ slash :: s ++ [slash]) =
        textComponents (before ++ slash :: s) := textComponents_slash (by simp)
    rw [innerPieces] at h
    cases hc : innerComponent? s with
    | none =>
      rw [hc] at h hbefore
      rw [ih hss h, hupTo, hbefore]
      simp
    | some d =>
      rw [hc] at h hbefore
      cases front with
      | nil =>
        cases h
        rw [hbefore]
        simp
      | cons piece front =>
        obtain ⟨rfl, hrest⟩ := List.cons_eq_cons.1 h
        rw [ih hss hrest, hupTo, hbefore]
        simp

theorem textComponents_of_pieces {text : Bytes} {c : Component}
    {front back : List (Component × Bytes)} (h : p.pieces = front ++ (c, text) :: back) :
    textComponents text = front.map Prod.fst ++ [c] := by
  obtain ⟨s, ss, hs⟩ := exists_splitSlash_eq_cons p.text
  have hunbroken : ∀ t ∈ s :: ss, slash ∉ t := fun t ht => not_mem_of_mem_splitSlash (hs ▸ ht)
  obtain ⟨hfirst, hrest⟩ := List.forall_mem_cons.1 hunbroken
  by_cases hempty : s = [] ∧ ss = []
  · obtain ⟨rfl, rfl⟩ := hempty
    rw [pieces, hs] at h
    simp at h
  · obtain ⟨d, hd, hpieces⟩ := exists_pieces_eq hs hempty
    rw [hpieces] at h
    cases front with
    | nil =>
      cases h
      rw [List.map_nil, List.nil_append, ← hd]
      split
      · rename_i hnil
        rw [hnil]
        rfl
      · rename_i hne
        rw [textComponents, splitSlash_of_not_mem hfirst, segmentComponents,
          if_neg fun hnil => hne hnil.1]
        exact List.append_nil _
    | cons piece front =>
      obtain ⟨rfl, hinner⟩ := List.cons_eq_cons.1 h
      have hdirectory : textComponents (s ++ [slash]) = [d] := by
        have hconcat := segmentComponents_concat s [] []
        rw [textComponents, splitSlash_append, splitSlash_of_not_mem hfirst, splitSlash, ← hd]
        simpa [innerComponent?_nil] using hconcat
      rw [textComponents_of_innerPieces hrest hinner, hdirectory]
      rfl

theorem textComponents_parentText (p : FilePath) :
    textComponents p.parentText = p.components.dropLast := by
  rw [parentText, components, ← List.map_dropLast]
  split
  · rename_i c text h
    obtain ⟨front, hfront⟩ := List.getLast?_eq_some_iff.1 h
    have hne : p.pieces ≠ [] := by
      intro hnil
      rw [hnil] at h
      cases h
    have hpieces : p.pieces = front ++ (c, text) :: [p.pieces.getLast hne] := by
      rw [List.append_cons, ← hfront, List.dropLast_concat_getLast]
    rw [textComponents_of_pieces hpieces, hfront, List.map_append]
    rfl
  · rename_i h
    rw [List.getLast?_eq_none_iff.1 h]
    rfl

theorem components_withFileName (hp : p.fileName?.isSome) (h : IsFileName name) :
    (p.withFileName name).components = p.components.dropLast ++ [.normal name] := by
  rw [components_eq, withFileName, if_pos hp, textComponents_joinText _ h, textComponents_parentText]

theorem components_of_fileName? (h : p.fileName? = some name) :
    p.components = p.components.dropLast ++ [.normal name] := by
  rw [fileName?] at h
  split at h
  · rename_i last hlast
    cases h
    obtain ⟨front, hfront⟩ := List.getLast?_eq_some_iff.1 hlast
    rw [hfront, List.dropLast_concat]
  · cases h

theorem fileName?_of_components {front : List Component}
    (h : p.components = front ++ [.normal name]) : p.fileName? = some name := by
  rw [fileName?, h, List.getLast?_concat]

theorem isFileName_of_mem (h : .normal name ∈ p.components) : IsFileName name := by
  obtain ⟨s, ss, hs⟩ := exists_splitSlash_eq_cons p.text
  have hunbroken : ∀ t ∈ s :: ss, slash ∉ t := fun t ht => not_mem_of_mem_splitSlash (hs ▸ ht)
  obtain ⟨hfirst, hrest⟩ := List.forall_mem_cons.1 hunbroken
  rw [components_eq, textComponents, hs, segmentComponents] at h
  split at h
  · cases h
  · rcases List.mem_append.1 h with h | h
    · rw [firstComponents] at h
      split at h
      · simp at h
      · split at h
        · simp at h
        · exact isFileName_of_innerComponent? hfirst (Option.mem_toList.1 h)
    · obtain ⟨t, ht, hname⟩ := List.mem_filterMap.1 h
      exact isFileName_of_innerComponent? (hrest t ht) hname

theorem isFileName_of_fileName? (h : p.fileName? = some name) : IsFileName name := by
  apply isFileName_of_mem (p := p)
  rw [components_of_fileName? h]
  exact List.mem_append_right _ List.mem_cons_self

theorem splitExtension_eq (name : Bytes) : splitExtension name = (name, none) ∨
    ∃ stem extension, name = stem ++ point :: extension ∧
      splitExtension name = (stem, some extension) := by
  rw [splitExtension, List.span_eq_takeWhile_dropWhile]
  dsimp only
  split
  · rename_i c stem hrest
    split
    · exact .inl rfl
    · refine .inr ⟨stem.reverse, (name.reverse.takeWhile (· ≠ point)).reverse, ?_, rfl⟩
      have hpoint := List.head?_dropWhile_not (fun b => decide (b ≠ point)) name.reverse
      have hreverse : name.reverse.takeWhile (· ≠ point) ++ c :: stem = name.reverse := by
        rw [← hrest, List.takeWhile_append_dropWhile]
      rw [hrest] at hpoint
      have hc : c = point := by simpa using hpoint
      rw [hc] at hreverse
      apply List.reverse_inj.1
      rw [List.reverse_append, List.reverse_cons, List.reverse_reverse, List.reverse_reverse,
        List.append_assoc, List.singleton_append, hreverse]
  · exact .inl rfl

theorem mem_of_mem_splitExtension {b : UInt8} (h : b ∈ (splitExtension name).1) : b ∈ name := by
  rcases splitExtension_eq name with hwhole | ⟨stem, extension, hname, hcut⟩
  · rwa [hwhole] at h
  · rw [hcut] at h
    rw [hname]
    exact List.mem_append_left _ h

theorem slash_not_mem_stem (p : FilePath) : slash ∉ p.stem := by
  rw [stem]
  split
  · rename_i name hname
    exact fun h => (isFileName_of_fileName? hname).unbroken (mem_of_mem_splitExtension h)
  · exact List.not_mem_nil

theorem fileName?_of_extension {extension : Bytes} (h : p.extension? = some extension) :
    p.fileName? = some (p.stem ++ point :: extension) := by
  obtain ⟨name, hname, hextension⟩ := Option.bind_eq_some_iff.1 h
  rw [stem, hname]
  dsimp only
  rcases splitExtension_eq name with hwhole | ⟨stem, extension', hcs, hcut⟩
  · rw [hwhole] at hextension
    cases hextension
  · rw [hcut] at hextension ⊢
    cases hextension
    rw [← hcs]

theorem slash_not_mem_fixedName (p : FilePath) : slash ∉ p.fixedName := by
  intro h
  have hslash : '/' ∈ Utf8.decode p.stem ++ fixedSuffix := Utf8.mem_of_mem_encode (by decide) h
  rcases List.mem_append.1 hslash with hstem | hsuffix
  · exact p.slash_not_mem_stem (Utf8.mem_of_mem_decode (by decide) hstem)
  · exact absurd hsuffix (by decide)

theorem isFileName_fixedName (p : FilePath) : IsFileName p.fixedName := by
  have hlength : 3 ≤ p.fixedName.length := by
    have hsuffix : 3 ≤ (Utf8.encode fixedSuffix).length := by decide
    rw [fixedName, Utf8.encode_append, List.length_append]
    omega
  have hlong (name : Bytes) (h : name.length < 3) : p.fixedName ≠ name := by
    rintro rfl
    omega
  exact ⟨hlong [] (by decide), hlong [point] (by decide), hlong [point, point] (by decide),
    p.slash_not_mem_fixedName⟩

theorem components_fixed (h : p.fileName?.isSome) :
    p.fixed.components = p.components.dropLast ++ [.normal p.fixedName] := by
  rw [fixed, components_withFileName h p.isFileName_fixedName]

theorem exists_components_fixed (p : FilePath) :
    ∃ front, p.fixed.components = front ++ [.normal p.fixedName] := by
  by_cases h : p.fileName?.isSome
  · exact ⟨_, components_fixed h⟩
  · refine ⟨p.components, ?_⟩
    rw [fixed, withFileName, if_neg h, components_eq, textComponents_joinText _ p.isFileName_fixedName,
      ← components_eq]

theorem isFixed_of_components {front : List Component}
    (h : q.components = front ++ [.normal p.fixedName]) : q.isFixed := by
  rw [isFixed, fileName?_of_components h, Option.any_some, fixedName, Utf8.decode_encode,
    List.isSuffixOf_iff_suffix]
  exact List.suffix_append _ _

theorem isFixed_fixed (p : FilePath) : p.fixed.isFixed := by
  obtain ⟨front, h⟩ := p.exists_components_fixed
  exact isFixed_of_components h

theorem fixedName_inj : p.fixedName = q.fixedName ↔ Utf8.decode p.stem = Utf8.decode q.stem := by
  rw [fixedName, fixedName, Utf8.encode_inj, List.append_left_inj]

/-- The paths are in one directory, and decoding makes their stems alike. -/
def FixedAlike (p q : FilePath) : Prop :=
  p.components.dropLast = q.components.dropLast ∧ Utf8.decode p.stem = Utf8.decode q.stem

theorem components_fixed_eq_iff (hp : p.fileName?.isSome) (hq : q.fileName?.isSome) :
    p.fixed.components = q.fixed.components ↔ p.FixedAlike q := by
  rw [components_fixed hp, components_fixed hq, FixedAlike, ← fixedName_inj]
  constructor
  · intro h
    obtain ⟨hfront, hlast⟩ := List.append_inj' h rfl
    rw [List.singleton_inj, Component.normal.injEq] at hlast
    exact ⟨hfront, hlast⟩
  · rintro ⟨hfront, hname⟩
    rw [hfront, hname]

/-- Documents with one extension and with stems that are texts have different fixed forms. -/
theorem FixedAlike.components_eq {extension : Bytes} {cs ds : List Char} (h : p.FixedAlike q)
    (hp : p.extension? = some extension) (hq : q.extension? = some extension)
    (hpstem : p.stem = Utf8.encode cs) (hqstem : q.stem = Utf8.encode ds) :
    p.components = q.components := by
  obtain ⟨hfront, hdecoded⟩ := h
  have hstem : p.stem = q.stem := by
    rw [hpstem, hqstem, Utf8.decode_encode, Utf8.decode_encode] at hdecoded
    rw [hpstem, hqstem, hdecoded]
  rw [components_of_fileName? (fileName?_of_extension hp),
    components_of_fileName? (fileName?_of_extension hq), hfront, hstem]

end FilePath

end TreeLint
