import Mathlib.Data.List.Nodup
import TreeLint.CommandLine.Run

namespace TreeLint

namespace Component

variable {a b c : Component} {as bs cs : List Component}

theorem lt_iff : a.lt b ↔ a.rank < b.rank ∨ ∃ x y, a = .normal x ∧ b = .normal y ∧ x < y := by
  cases a <;> cases b <;> simp [lt, rank]

theorem lt_irrefl (a : Component) : ¬ a.lt a := by
  rw [lt_iff]
  rintro (hrank | ⟨x, y, rfl, heq, hxy⟩)
  · exact Nat.lt_irrefl _ hrank
  · cases heq
    exact List.lt_irrefl x hxy

theorem lt_trans (hab : a.lt b) (hbc : b.lt c) : a.lt c := by
  rw [lt_iff] at *
  rcases hab with hab | ⟨x, y, rfl, rfl, hxy⟩
  · rcases hbc with hbc | ⟨y, z, rfl, rfl, -⟩
    · exact .inl (Nat.lt_trans hab hbc)
    · exact .inl hab
  · rcases hbc with hbc | ⟨_, z, heq, rfl, hyz⟩
    · exact .inl hbc
    · cases heq
      exact .inr ⟨x, z, rfl, rfl, List.lt_trans hxy hyz⟩

theorem eq_or_normal_of_rank_eq (h : a.rank = b.rank) :
    a = b ∨ ∃ x y, a = .normal x ∧ b = .normal y := by
  cases a <;> cases b <;> simp_all [rank]

theorem lt_or_eq_or_gt (a b : Component) : a.lt b ∨ a = b ∨ b.lt a := by
  simp only [lt_iff]
  rcases Nat.lt_trichotomy a.rank b.rank with hrank | hrank | hrank
  · exact .inl (.inl hrank)
  · rcases eq_or_normal_of_rank_eq hrank with heq | ⟨x, y, rfl, rfl⟩
    · exact .inr (.inl heq)
    · by_cases hxy : x < y
      · exact .inl (.inr ⟨x, y, rfl, rfl, hxy⟩)
      · by_cases heq : x = y
        · exact .inr (.inl (congrArg _ heq))
        · have hyx : y < x :=
            List.not_le.1 fun hle => heq (List.le_antisymm hle (List.not_lt.1 hxy))
          exact .inr (.inr (.inr ⟨y, x, rfl, rfl, hyx⟩))
  · exact .inr (.inr (.inl hrank))

theorem listLe_cons : listLe (a :: as) (b :: bs) ↔ a.lt b ∨ a = b ∧ listLe as bs := by
  rw [listLe]
  split
  · rename_i heq
    rw [heq]
    simp [lt_irrefl b]
  · rename_i hne
    simp [hne]

theorem listLe_trans (hab : listLe as bs) (hbc : listLe bs cs) : listLe as cs := by
  induction as generalizing bs cs with
  | nil => rw [listLe]
  | cons a as ih =>
    cases bs with
    | nil => cases hab
    | cons b bs =>
      cases cs with
      | nil => cases hbc
      | cons c cs =>
        rw [listLe_cons] at *
        rcases hab with hab | ⟨rfl, hab⟩
        · rcases hbc with hbc | ⟨rfl, -⟩
          · exact .inl (lt_trans hab hbc)
          · exact .inl hab
        · exact hbc.imp_right (And.imp_right (ih hab))

theorem listLe_total (as bs : List Component) : listLe as bs ∨ listLe bs as := by
  induction as generalizing bs with
  | nil => exact .inl (by rw [listLe])
  | cons a as ih =>
    cases bs with
    | nil => exact .inr (by rw [listLe])
    | cons b bs =>
      rw [listLe_cons, listLe_cons]
      rcases lt_or_eq_or_gt a b with hab | rfl | hba
      · exact .inl (.inl hab)
      · exact (ih bs).imp (fun h => .inr ⟨rfl, h⟩) fun h => .inr ⟨rfl, h⟩
      · exact .inr (.inl hba)

theorem listLe_antisymm (hab : listLe as bs) (hba : listLe bs as) : as = bs := by
  induction as generalizing bs with
  | nil =>
    cases bs with
    | nil => rfl
    | cons b bs => cases hba
  | cons a as ih =>
    cases bs with
    | nil => cases hab
    | cons b bs =>
      rw [listLe_cons] at hab hba
      rcases hab with hab | ⟨rfl, hab⟩
      · rcases hba with hba | ⟨rfl, -⟩
        · exact absurd (lt_trans hab hba) (lt_irrefl a)
        · exact absurd hab (lt_irrefl b)
      · rcases hba with hba | ⟨-, hba⟩
        · exact absurd hba (lt_irrefl a)
        · rw [ih hab hba]

end Component

namespace FilePath

variable {p q r : FilePath}

theorem le_trans (hpq : p.le q) (hqr : q.le r) : p.le r := Component.listLe_trans hpq hqr

theorem le_total (p q : FilePath) : p.le q ∨ q.le p := Component.listLe_total _ _

theorem components_eq_of_le (hpq : p.le q) (hqp : q.le p) : p.components = q.components :=
  Component.listLe_antisymm hpq hqp

/-- The first path comes before the second one, and not the other way round. -/
def Before (p q : FilePath) : Prop := p.le q ∧ ¬ q.le p

theorem Before.components_ne (h : p.Before q) : p.components ≠ q.components := by
  intro heq
  have hle : q.le p := by
    have hpq := h.1
    rw [le, heq] at hpq
    rwa [le, heq]
  exact h.2 hle

theorem before_of_le (hle : p.le q) (hne : p.components ≠ q.components) : p.Before q :=
  ⟨hle, fun hge => hne (components_eq_of_le hle hge)⟩

theorem Before.trans_le (hpq : p.Before q) (hqr : q.le r) : p.Before r :=
  ⟨le_trans hpq.1 hqr, fun hrp => hpq.2 (le_trans hqr hrp)⟩

theorem pairwise_le_mergeSort (ps : List FilePath) :
    (ps.mergeSort le).Pairwise fun p q => p.le q := by
  apply List.pairwise_mergeSort
  · intro p q r hpq hqr
    exact le_trans hpq hqr
  · intro p q
    rw [Bool.or_eq_true]
    exact le_total p q

variable {ps qs : List FilePath}

theorem nodup_components (h : ps.Pairwise Before) : (ps.map components).Nodup := by
  rw [List.nodup_iff_pairwise_ne, List.pairwise_map]
  exact h.imp Before.components_ne

theorem map_components_eq (hps : ps.Pairwise Before) (hqs : qs.Pairwise Before)
    (h : ∀ cs, cs ∈ ps.map components ↔ cs ∈ qs.map components) :
    ps.map components = qs.map components := by
  have hperm : (ps.map components).Perm (qs.map components) :=
    (List.perm_ext_iff_of_nodup (nodup_components hps) (nodup_components hqs)).2 h
  have hordered (rs : List FilePath) (hrs : rs.Pairwise Before) :
      (rs.map components).Pairwise fun cs ds => Component.listLe cs ds :=
    List.pairwise_map.2 (hrs.imp And.left)
  exact hperm.eq_of_pairwise (fun _ _ _ _ => Component.listLe_antisymm) (hordered ps hps)
    (hordered qs hqs)

end FilePath

namespace CommandLine

variable {p q : FilePath} {ps : List FilePath}

theorem dropAfter_sublist (p : FilePath) (ps : List FilePath) :
    (dropRepeats.dropAfter p ps).Sublist ps := by
  fun_induction dropRepeats.dropAfter p ps with
  | case1 => exact .refl []
  | case2 p q ps heq ih => exact ih.cons q
  | case3 p q ps hne ih => exact ih.cons_cons q

theorem dropRepeats_sublist (ps : List FilePath) : (dropRepeats ps).Sublist ps := by
  cases ps with
  | nil => exact .refl []
  | cons p ps => exact (dropAfter_sublist p ps).cons_cons p

theorem pairwise_dropAfter (h : (p :: ps).Pairwise fun p q => p.le q) :
    (p :: dropRepeats.dropAfter p ps).Pairwise FilePath.Before := by
  induction ps generalizing p with
  | nil => exact List.pairwise_singleton _ p
  | cons q ps ih =>
    obtain ⟨hp, hq⟩ := List.pairwise_cons.1 h
    rw [dropRepeats.dropAfter]
    split
    · exact ih (h.sublist ((List.sublist_cons_self q ps).cons_cons p))
    · rename_i hne
      have hpq : p.Before q := FilePath.before_of_le (hp q List.mem_cons_self) hne
      have hrest := ih hq
      refine List.pairwise_cons.2 ⟨?_, hrest⟩
      intro r hr
      rcases List.mem_cons.1 hr with rfl | hr
      · exact hpq
      · exact hpq.trans_le ((List.pairwise_cons.1 hrest).1 r hr).1

theorem pairwise_dropRepeats (h : ps.Pairwise fun p q => p.le q) :
    (dropRepeats ps).Pairwise FilePath.Before := by
  cases ps with
  | nil => exact .nil
  | cons p ps => exact pairwise_dropAfter h

theorem exists_mem_dropAfter (h : q ∈ ps) :
    ∃ r ∈ p :: dropRepeats.dropAfter p ps, r.components = q.components := by
  fun_induction dropRepeats.dropAfter p ps with
  | case1 p => cases h
  | case2 p s ps heq ih =>
    rcases List.mem_cons.1 h with rfl | h
    · exact ⟨p, List.mem_cons_self, heq⟩
    · exact ih h
  | case3 p s ps hne ih =>
    rcases List.mem_cons.1 h with rfl | h
    · exact ⟨q, List.mem_cons_of_mem p List.mem_cons_self, rfl⟩
    · obtain ⟨r, hr, hcomponents⟩ := ih h
      exact ⟨r, List.mem_cons_of_mem p hr, hcomponents⟩

theorem exists_mem_dropRepeats (h : q ∈ ps) :
    ∃ r ∈ dropRepeats ps, r.components = q.components := by
  cases ps with
  | nil => cases h
  | cons p ps =>
    rcases List.mem_cons.1 h with rfl | h
    · exact ⟨q, List.mem_cons_self, rfl⟩
    · exact exists_mem_dropAfter h

theorem documents_of_expand {w : Workspace} {excludes : Excludes} {args : List FilePath}
    (hexpand : args.flatMap (expand w excludes) = ps) (hordered : ps.Pairwise fun p q => p.le q) :
    documents w excludes args = dropRepeats ps := by
  rw [documents, hexpand, List.mergeSort_of_pairwise hordered]

theorem pairwise_documents (w : Workspace) (excludes : Excludes) (args : List FilePath) :
    (documents w excludes args).Pairwise FilePath.Before :=
  pairwise_dropRepeats (FilePath.pairwise_le_mergeSort _)

end CommandLine

end TreeLint
