import Mathlib.Data.List.Basic
import TreeLint.Json.Token
import TreeLint.Syntax.Rendering

namespace TreeLint

theorem append_inj_of_ends {α : Type} (Ends : α → Prop) {as bs cs ds : List α}
    (has : ∀ a ∈ as, ¬ Ends a) (hbs : ∀ b ∈ bs, ¬ Ends b) (hcs : ∀ c ∈ cs.head?, Ends c)
    (hds : ∀ d ∈ ds.head?, Ends d) (h : as ++ cs = bs ++ ds) : as = bs ∧ cs = ds := by
  induction as generalizing bs with
  | nil =>
    cases bs with
    | nil => exact ⟨rfl, h⟩
    | cons b bs =>
      cases h
      exact absurd (hcs b rfl) (hbs b List.mem_cons_self)
  | cons a as ih =>
    cases bs with
    | nil =>
      cases h
      exact absurd (hds a rfl) (has a List.mem_cons_self)
    | cons b bs =>
      obtain ⟨rfl, hrest⟩ := List.cons.inj h
      have has' : ∀ a ∈ as, ¬ Ends a := fun x hx => has x (List.mem_cons_of_mem a hx)
      have hbs' : ∀ b ∈ bs, ¬ Ends b := fun x hx => hbs x (List.mem_cons_of_mem a hx)
      obtain ⟨rfl, rfl⟩ := ih has' hbs' hrest
      exact ⟨rfl, rfl⟩

namespace Text

variable {c d : Char} {as bs cs ds w : List Char} {n : Nat} {s t : String}

/-- The number that hexadecimal digits stand for. -/
def hexNumber (digits : List Char) : Nat :=
  digits.foldl (fun value c => 16 * value + (Json.hexValue? c).getD 0) 0

theorem hexValue?_digitChar (h : n < 16) : Json.hexValue? n.digitChar = some n := by
  have hall : ∀ i : Fin 16, Json.hexValue? i.val.digitChar = some i.val := by decide
  exact hall ⟨n, h⟩

theorem hexNumber_toDigits (n : Nat) : hexNumber (Nat.toDigits 16 n) = n := by
  induction n using Nat.strongRecOn with
  | ind n ih =>
    by_cases hn : n < 16
    · rw [Nat.toDigits_of_lt_base hn, hexNumber, List.foldl_cons, List.foldl_nil,
        hexValue?_digitChar hn, Option.getD_some]
      omega
    · have hlast : n % 16 < 16 := Nat.mod_lt n (by decide)
      have hfront := ih (n / 16) (by omega)
      rw [hexNumber] at hfront
      rw [Nat.toDigits_of_base_le (by decide) (Nat.le_of_not_lt hn), hexNumber, List.foldl_append,
        hfront, List.foldl_cons, List.foldl_nil, hexValue?_digitChar hlast, Option.getD_some]
      omega

theorem isSome_hexValue?_of_mem (h : c ∈ Nat.toDigits 16 n) : (Json.hexValue? c).isSome := by
  induction n using Nat.strongRecOn with
  | ind n ih =>
    by_cases hn : n < 16
    · rw [Nat.toDigits_of_lt_base hn, List.mem_singleton] at h
      rw [h, hexValue?_digitChar hn, Option.isSome_some]
    · rw [Nat.toDigits_of_base_le (by decide) (Nat.le_of_not_lt hn), List.mem_append,
        List.mem_singleton] at h
      rcases h with h | rfl
      · exact ih (n / 16) (by omega) h
      · rw [hexValue?_digitChar (Nat.mod_lt n (by decide)), Option.isSome_some]

/-- The character that a letter stands for behind a backslash. -/
def letterEscape? : Char → Option Char
  | '"' => some '"'
  | '\\' => some '\\'
  | 'n' => some '\n'
  | 'r' => some '\r'
  | 't' => some '\t'
  | '0' => some (Char.ofNat 0)
  | _ => none

/-- The ways to spell a character in quoted text. -/
inductive Spells (c : Char) : List Char → Prop where
  | plain (hquote : c ≠ '"') (hslash : c ≠ '\\') : Spells c [c]
  | letter {e : Char} (h : letterEscape? e = some c) : Spells c ['\\', e]
  | code : Spells c ('\\' :: 'u' :: '\x7b' :: (Nat.toDigits 16 c.toNat ++ ['\x7d']))

theorem spells_escapeLiteral (c : Char) : Spells c (escapeLiteral c) := by
  rw [escapeLiteral]
  split_ifs with hquote hslash hline hreturn htab hnull hunprintable
  · subst hquote
    exact .letter rfl
  · subst hslash
    exact .letter rfl
  · subst hline
    exact .letter rfl
  · subst hreturn
    exact .letter rfl
  · subst htab
    exact .letter rfl
  · obtain rfl : c = Char.ofNat 0 := by
      rw [← Char.ofNat_toNat c, hnull]
    exact .letter rfl
  · exact .code
  · exact .plain hquote hslash

theorem ne_brace_of_mem_toDigits (h : c ∈ Nat.toDigits 16 n) : ¬ c = '\x7d' := by
  rintro rfl
  have hdigit := isSome_hexValue?_of_mem h
  cases hdigit

/-- No spelling is the beginning of another one. -/
theorem Spells.append_inj {v : List Char} (hv : Spells c v) (hw : Spells d w) (h : v ++ cs = w ++ ds) :
    c = d ∧ cs = ds := by
  cases hv with
  | plain hquote hslash =>
    cases hw with
    | plain =>
      cases h
      exact ⟨rfl, rfl⟩
    | letter hd =>
      cases h
      exact absurd rfl hslash
    | code =>
      cases h
      exact absurd rfl hslash
  | letter hc =>
    cases hw with
    | plain hquote hslash =>
      cases h
      exact absurd rfl hslash
    | letter hd =>
      cases h
      exact ⟨Option.some.inj (hc.symm.trans hd), rfl⟩
    | code =>
      cases h
      cases hc
  | code =>
    cases hw with
    | plain hquote hslash =>
      cases h
      exact absurd rfl hslash
    | letter hd =>
      cases h
      cases hd
    | code =>
      have hdigits :
          Nat.toDigits 16 c.toNat ++ '\x7d' :: cs = Nat.toDigits 16 d.toNat ++ '\x7d' :: ds := by
        simpa using h
      obtain ⟨hnumber, hrest⟩ := append_inj_of_ends (· = '\x7d') (fun _ => ne_brace_of_mem_toDigits)
        (fun _ => ne_brace_of_mem_toDigits) (by simp) (by simp) hdigits
      have hcode : c.toNat = d.toNat := by
        rw [← hexNumber_toDigits c.toNat, hnumber, hexNumber_toDigits]
      exact ⟨Char.toNat_inj.1 hcode, (List.cons.inj hrest).2⟩

theorem Spells.append_ne_quote_cons (h : Spells c w) : w ++ cs ≠ '"' :: ds := by
  intro heq
  cases h with
  | plain hquote =>
    cases heq
    exact hquote rfl
  | letter => cases heq
  | code => cases heq

theorem flatMap_escapeLiteral_append_inj
    (h : as.flatMap escapeLiteral ++ '"' :: cs = bs.flatMap escapeLiteral ++ '"' :: ds) :
    as = bs ∧ cs = ds := by
  induction as generalizing bs with
  | nil =>
    cases bs with
    | nil =>
      cases h
      exact ⟨rfl, rfl⟩
    | cons b bs =>
      rw [List.flatMap_cons, List.append_assoc] at h
      exact absurd h.symm (spells_escapeLiteral b).append_ne_quote_cons
  | cons a as ih =>
    rw [List.flatMap_cons, List.append_assoc] at h
    cases bs with
    | nil => exact absurd h (spells_escapeLiteral a).append_ne_quote_cons
    | cons b bs =>
      rw [List.flatMap_cons, List.append_assoc] at h
      obtain ⟨rfl, hrest⟩ := (spells_escapeLiteral a).append_inj (spells_escapeLiteral b) h
      obtain ⟨rfl, rfl⟩ := ih hrest
      exact ⟨rfl, rfl⟩

theorem toList_quoted_append (s : String) (cs : List Char) :
    (quoted s).toList ++ cs = '"' :: (s.toList.flatMap escapeLiteral ++ '"' :: cs) := by
  simp [quoted]

/-- A text that begins with a quotation determines what is quoted and what follows. -/
theorem quoted_append_inj (h : (quoted s).toList ++ cs = (quoted t).toList ++ ds) : s = t ∧ cs = ds := by
  rw [toList_quoted_append, toList_quoted_append] at h
  obtain ⟨hst, rfl⟩ := flatMap_escapeLiteral_append_inj (List.cons.inj h).2
  exact ⟨String.toList_inj.1 hst, rfl⟩

end Text

end TreeLint
