import Mathlib.Data.List.TakeDrop
import Mathlib.Data.List.TakeWhile
import TreeLint.Json.Print
import TreeLint.Json.Token

namespace TreeLint.Json

section Scanning

variable {before : List Token} {read cs ds : List Char} {c : Char} {n : Nat} {t : Token} {v : Json}

/-- The tokens of a text that may end here. -/
def finishScan : Scan × List Token → Option (List Token)
  | (.between, ts) => some ts.reverse
  | (.word read, ts) => (word? read.reverse).map fun value => ts.reverse ++ [.atom value]
  | _ => none

/-- The tokens of the rest of a text, behind those before it in reverse. -/
def scanRest (s : Scan) (before : List Token) (cs : List Char) : Option (List Token) :=
  (scanFrom s before cs).bind finishScan

theorem tokens?_eq (cs : List Char) : tokens? cs = scanRest .between [] cs := by
  rw [tokens?, scanRest]
  cases scanFrom .between [] cs with
  | none => rfl
  | some state =>
    obtain ⟨s, ts⟩ := state
    cases s <;> rfl

theorem scanRest_step {s s' : Scan} (h : stepScan s c = some (s', [])) :
    scanRest s before (c :: cs) = scanRest s' before cs := by
  rw [scanRest, scanFrom, h]
  rfl

theorem scanRest_token {s s' : Scan} (h : stepScan s c = some (s', [t])) :
    scanRest s before (c :: cs) = scanRest s' (t :: before) cs := by
  rw [scanRest, scanFrom, h]
  rfl

/-- A character that ends a word. -/
def isDelimiter (c : Char) : Bool := isBlank c || c = '"' || (punctuation? c).isSome

theorem scanRest_blank (h : isBlank c) :
    scanRest .between before (c :: cs) = scanRest .between before cs := by
  apply scanRest_step
  rw [stepScan, stepBetween, if_pos h]

theorem scanRest_punctuation (h : punctuation? c = some t) :
    scanRest .between before (c :: cs) = scanRest .between (t :: before) cs := by
  apply scanRest_token
  have hblank : isBlank c = false ∧ ¬ c = '"' := by
    revert h
    rw [punctuation?.eq_def]
    split <;> simp [isBlank]
  rw [stepScan, stepBetween, hblank.1, if_neg Bool.false_ne_true, if_neg hblank.2, h]

theorem scanRest_newline (l : Layout) (level : Nat) :
    scanRest .between before (l.newline level ++ cs) = scanRest .between before cs := by
  have hspaces (n : Nat) : scanRest .between before (List.replicate n ' ' ++ cs) =
      scanRest .between before cs := by
    induction n with
    | zero => rfl
    | succ n ih =>
      rw [List.replicate_succ, List.cons_append, scanRest_blank rfl, ih]
  rw [Layout.newline]
  split
  · rw [List.cons_append, scanRest_blank rfl, hspaces]
  · rfl

theorem scanRest_colon (l : Layout) :
    scanRest .between before (l.colon ++ cs) = scanRest .between (.colon :: before) cs := by
  rw [Layout.colon]
  split
  · rw [List.cons_append, List.cons_append, scanRest_punctuation rfl, scanRest_blank rfl]
    rfl
  · rw [List.cons_append, scanRest_punctuation rfl]
    rfl

theorem hexValue?_hexDigit (h : n < 16) : hexValue? (hexDigit n) = some n := by
  have hall : ∀ n : Fin 16, hexValue? (hexDigit n) = some n.val := by decide
  exact hall ⟨n, h⟩

theorem scanRest_escape {e : Char} (h : simpleEscape? e = some c) :
    scanRest (.text (some read)) before ('\\' :: e :: cs) =
      scanRest (.text (some (c :: read))) before cs := by
  have hunit : e ≠ 'u' := by
    rintro rfl
    cases h
  have hstep : stepScan (.escape (some read)) e = some (.text (some (c :: read)), []) := by
    rw [stepScan, stepEscape, if_neg hunit, h]
    rfl
  rw [scanRest_step rfl, scanRest_step hstep]

theorem scanRest_unit (h : c.toNat < 0x20) :
    scanRest (.text (some read)) before
      ('\\' :: 'u' :: '0' :: '0' :: hexDigit (c.toNat / 16) :: hexDigit (c.toNat % 16) :: cs) =
        scanRest (.text (some (c :: read))) before cs := by
  have hhigh : hexValue? (hexDigit (c.toNat / 16)) = some (c.toNat / 16) :=
    hexValue?_hexDigit (by omega)
  have hlow : hexValue? (hexDigit (c.toNat % 16)) = some (c.toNat % 16) :=
    hexValue?_hexDigit (Nat.mod_lt _ (by decide))
  have hthird : stepScan (.unit (some read) none ['0', '0']) (hexDigit (c.toNat / 16)) =
      some (.unit (some read) none ['0', '0', hexDigit (c.toNat / 16)], []) := by
    rw [stepScan, hhigh]
    rfl
  have hlast : stepScan (.unit (some read) none ['0', '0', hexDigit (c.toNat / 16)])
      (hexDigit (c.toNat % 16)) = some (.text (some (c :: read)), []) := by
    have hvalues : ['0', '0', hexDigit (c.toNat / 16), hexDigit (c.toNat % 16)].mapM hexValue? =
        some [0, 0, c.toNat / 16, c.toNat % 16] := by
      simp only [List.mapM_cons, List.mapM_nil, hhigh, hlow]
      rfl
    have hcode : c.toNat / 16 * 16 + c.toNat % 16 = c.toNat := by omega
    have hfinish : finishUnit (some read) none c.toNat = .text (some (c :: read)) := by
      rw [finishUnit, if_neg (by omega), if_neg (by omega), Option.map_some, Char.ofNat_toNat]
    rw [stepScan, hlow]
    simp only [List.cons_append, List.nil_append]
    rw [hvalues]
    simp [hcode, hfinish]
  rw [scanRest_step rfl, scanRest_step rfl, scanRest_step rfl, scanRest_step rfl]
  change scanRest (.unit (some read) none ['0', '0']) before _ = _
  rw [scanRest_step hthird, scanRest_step hlast]

theorem scanRest_escapeChar (c : Char) :
    scanRest (.text (some read)) before (escapeChar c ++ cs) =
      scanRest (.text (some (c :: read))) before cs := by
  rw [escapeChar]
  split_ifs with hquote hslash hback hfeed hline hreturn htab hcontrol
  · subst hquote
    exact scanRest_escape rfl
  · subst hslash
    exact scanRest_escape rfl
  · subst hback
    exact scanRest_escape rfl
  · subst hfeed
    exact scanRest_escape rfl
  · subst hline
    exact scanRest_escape rfl
  · subst hreturn
    exact scanRest_escape rfl
  · subst htab
    exact scanRest_escape rfl
  · exact scanRest_unit hcontrol
  · apply scanRest_step
    rw [stepScan, stepText, if_neg hquote, if_neg hslash, if_neg hcontrol]
    rfl

theorem scanRest_printString (s : String) :
    scanRest .between before (printString s ++ cs) =
      scanRest .between (.atom (.string s) :: before) cs := by
  have hchars (ds read : List Char) :
      scanRest (.text (some read)) before (ds.flatMap escapeChar ++ '"' :: cs) =
        scanRest .between (.atom (.string (String.ofList (read.reverse ++ ds))) :: before) cs := by
    induction ds generalizing read with
    | nil =>
      rw [List.append_nil]
      exact scanRest_token rfl
    | cons d ds ih =>
      rw [List.flatMap_cons, List.append_assoc, scanRest_escapeChar, ih, List.reverse_cons,
        List.append_assoc, List.singleton_append]
  rw [printString, List.cons_append, List.append_assoc, scanRest_step rfl]
  exact (hchars s.toList []).trans (by rw [List.reverse_nil, List.nil_append, String.ofList_toList])

/-- The text begins with a delimiter, if it goes on at all. -/
def Delimited (cs : List Char) : Prop := ∀ c ∈ cs.head?, isDelimiter c

theorem scanRest_word (hread : word? read.reverse = some v) (h : Delimited cs) :
    scanRest (.word read) before cs = scanRest .between (.atom v :: before) cs := by
  cases cs with
  | nil =>
    rw [scanRest, scanRest, scanFrom, scanFrom]
    simp [finishScan, hread]
  | cons c cs =>
    have hc : isDelimiter c := h c rfl
    rw [isDelimiter] at hc
    have hword : stepScan (.word read) c =
        some ((stepBetween c).1, (stepBetween c).2 ++ [.atom v]) := by
      rw [stepScan, if_pos hc, hread]
      rfl
    rw [scanRest, scanRest, scanFrom, scanFrom, hword, stepScan]
    simp only [Option.bind_eq_bind, Option.bind_some, List.append_assoc, List.singleton_append]

theorem scanRest_letters (h : ∀ d ∈ ds, ¬ isDelimiter d) :
    scanRest (.word read) before (ds ++ cs) = scanRest (.word (ds.reverse ++ read)) before cs := by
  induction ds generalizing read with
  | nil => rfl
  | cons d ds ih =>
    obtain ⟨hd, hds⟩ := List.forall_mem_cons.1 h
    have hstep : stepScan (.word read) d = some (.word (d :: read), []) := by
      rw [isDelimiter] at hd
      rw [stepScan, if_neg hd]
    rw [List.cons_append, scanRest_step hstep, ih hds, List.reverse_cons, List.append_assoc]
    rfl

theorem scanRest_wordText (hword : word? ds = some v) (hne : ds ≠ [])
    (hds : ds.all fun d => !isDelimiter d) (h : Delimited cs) :
    scanRest .between before (ds ++ cs) = scanRest .between (.atom v :: before) cs := by
  cases ds with
  | nil => exact absurd rfl hne
  | cons d ds =>
    have hletters : ∀ e ∈ d :: ds, ¬ isDelimiter e := by simpa using hds
    obtain ⟨hd, hds⟩ := List.forall_mem_cons.1 hletters
    have hfirst : stepScan .between d = some (.word [d], []) := by
      simp only [isDelimiter, Bool.or_eq_true, decide_eq_true_eq, not_or,
        Option.not_isSome_iff_eq_none] at hd
      obtain ⟨⟨hblank, hquote⟩, hpunctuation⟩ := hd
      rw [stepScan, stepBetween, if_neg hblank, if_neg hquote, hpunctuation]
    have hread : word? (ds.reverse ++ [d]).reverse = some v := by
      rwa [List.reverse_append, List.reverse_reverse]
    rw [List.cons_append, scanRest_step hfirst, scanRest_letters hds, scanRest_word hread h]

theorem mem_of_isDelimiter (h : isDelimiter c) :
    c ∈ [' ', '\n', '\r', '\t', '"', '\x7b', '\x7d', '[', ']', ':', ','] := by
  rw [isDelimiter, isBlank, punctuation?.eq_def] at h
  split at h <;> simp_all [or_assoc]

theorem not_isDelimiter_of_isDigit (h : c.isDigit) : ¬ isDelimiter c := by
  intro hc
  have hall : [' ', '\n', '\r', '\t', '"', '\x7b', '\x7d', '[', ']', ':', ','].all
      fun d => !d.isDigit := by
    decide
  have hdigit := List.all_eq_true.1 hall c (mem_of_isDelimiter hc)
  rw [h] at hdigit
  cases hdigit

theorem toDigits_eq_zero_cons (h : Nat.toDigits 10 n = '0' :: ds) : ds = [] := by
  induction n using Nat.strongRecOn generalizing ds with
  | ind n ih =>
    by_cases hn : n < 10
    · rw [Nat.toDigits_of_lt_base hn] at h
      exact (List.cons.inj h).2.symm
    · rw [Nat.toDigits_of_base_le (by decide) (Nat.le_of_not_lt hn)] at h
      cases hfront : Nat.toDigits 10 (n / 10) with
      | nil => exact absurd hfront Nat.toDigits_ne_nil
      | cons d front =>
        rw [hfront, List.cons_append, List.cons.injEq] at h
        rw [h.1] at hfront
        have hzero : n / 10 = 0 := by
          rw [ih (n / 10) (by omega) hfront] at hfront
          rw [← Nat.ofDigitChars_ten_toDigits (n := n / 10), hfront]
          rfl
        omega

theorem spanDigits_eq (h : ∀ d ∈ ds, d.isDigit) : spanDigits ds = (ds, []) := by
  rw [spanDigits, List.span_eq_takeWhile_dropWhile, List.takeWhile_eq_self_iff.2 h,
    List.dropWhile_eq_nil_iff.2 h]

theorem isDigit_of_mem_toDigits (h : c ∈ Nat.toDigits 10 n) : c.isDigit :=
  Nat.isDigit_of_mem_toDigits (by decide) (by decide) h

theorem digitsValue_toDigits (n : Nat) : digitsValue (Nat.toDigits 10 n) = n :=
  Nat.ofDigitChars_ten_toDigits

theorem spanDigits_toDigits (n : Nat) :
    spanDigits (Nat.toDigits 10 n) = (Nat.toDigits 10 n, []) :=
  spanDigits_eq fun _ => isDigit_of_mem_toDigits

theorem fraction?_nil : fraction? [] = some ([], none) := rfl

theorem number?_toDigits (n : Nat) : number? (Nat.toDigits 10 n) = some (.int n) := by
  rw [number?, spanDigits_toDigits]
  · split
    · rename_i hnil
      exact absurd (Prod.mk.inj hnil).1 Nat.toDigits_ne_nil
    · rename_i hzero
      cases toDigits_eq_zero_cons (Prod.mk.inj hzero).1
    · rename_i hdigits
      cases hdigits
      rw [fraction?_nil]
      simp [digitsValue_toDigits]
  · intro cs hminus
    have hdash : '-'.isDigit := isDigit_of_mem_toDigits (hminus ▸ List.mem_cons_self)
    cases hdash

theorem number?_negative (h : n ≠ 0) : number? ('-' :: Nat.toDigits 10 n) = some (.int (-n)) := by
  have hzero : Nat.toDigits 10 n ≠ ['0'] := by
    intro hdigits
    apply h
    rw [← digitsValue_toDigits n, hdigits]
    rfl
  rw [number?, spanDigits_toDigits]
  split
  · rename_i hnil
    exact absurd (Prod.mk.inj hnil).1 Nat.toDigits_ne_nil
  · rename_i hlead
    cases toDigits_eq_zero_cons (Prod.mk.inj hlead).1
  · rename_i hdigits
    cases hdigits
    rw [fraction?_nil]
    simp [digitsValue_toDigits, hzero]

theorem printInt_ofNat (n : Nat) : printInt n = Nat.toDigits 10 n := by
  change (toString n).toList = _
  rw [Nat.toString_eq_ofList_toDigits, String.toList_ofList]

theorem printInt_negSucc (n : Nat) : printInt (.negSucc n) = '-' :: Nat.toDigits 10 (n + 1) := by
  change ("-" ++ toString (n + 1)).toList = _
  rw [String.toList_append, Nat.toString_eq_ofList_toDigits, String.toList_ofList,
    String.toList_ofList]
  rfl

theorem number?_printInt (value : Int) : number? (printInt value) = some (.int value) := by
  cases value with
  | ofNat n =>
    change number? (printInt n) = _
    rw [printInt_ofNat, number?_toDigits]
    rfl
  | negSucc n =>
    rw [printInt_negSucc, number?_negative (Nat.succ_ne_zero n)]
    rfl

theorem mem_printInt {value : Int} (h : c ∈ printInt value) : c = '-' ∨ c.isDigit := by
  cases value with
  | ofNat n =>
    change c ∈ printInt n at h
    rw [printInt_ofNat] at h
    exact .inr (isDigit_of_mem_toDigits h)
  | negSucc n =>
    rw [printInt_negSucc] at h
    rcases List.mem_cons.1 h with h | h
    · exact .inl h
    · exact .inr (isDigit_of_mem_toDigits h)

theorem word?_printInt (value : Int) : word? (printInt value) = some (.int value) := by
  have hletter (word : List Char) (c : Char) (hc : c ∈ word) (hminus : c ≠ '-')
      (hdigit : ¬ c.isDigit) : printInt value ≠ word := by
    rintro rfl
    exact (mem_printInt hc).elim hminus hdigit
  rw [word?, if_neg (hletter _ 'n' (by decide) (by decide) (by decide)),
    if_neg (hletter _ 't' (by decide) (by decide) (by decide)),
    if_neg (hletter _ 'f' (by decide) (by decide) (by decide)), number?_printInt]

theorem scanRest_printInt (value : Int) (h : Delimited cs) :
    scanRest .between before (printInt value ++ cs) =
      scanRest .between (.atom (.int value) :: before) cs := by
  apply scanRest_wordText (word?_printInt value)
  · cases value with
    | ofNat n =>
      change printInt n ≠ []
      rw [printInt_ofNat]
      exact Nat.toDigits_ne_nil
    | negSucc n =>
      rw [printInt_negSucc]
      exact List.cons_ne_nil _ _
  · rw [List.all_eq_true]
    intro c hc
    rcases mem_printInt hc with rfl | hdigit
    · rfl
    · simp [not_isDelimiter_of_isDigit hdigit]
  · exact h

end Scanning

end TreeLint.Json
