import TreeLint.Proofs.JsonWords
import TreeLint.Proofs.QuotedText
import TreeLint.Syntax.Rendering

namespace TreeLint

/-- What may follow an operand. -/
def EndsOperand (c : Char) : Prop := c = ' ' ∨ c = ')'

instance : DecidablePred EndsOperand := fun c => inferInstanceAs (Decidable (c = ' ' ∨ c = ')'))

/-- The words of the notation, which name nothing. -/
def reservedWords : List String := ["is", "not", "null", "default", "true", "false"]

/-- A letter comes first, the name goes on up to a blank or a closing parenthesis, and it is no
reserved word. Letters, digits and underscores of any kind may follow. -/
structure IsName (name : String) : Prop where
  letter : ∃ c ∈ name.toList.head?, c.isAlpha
  unbroken : ∀ c ∈ name.toList, ¬ EndsOperand c
  unreserved : name ∉ reservedWords

theorem isName_of_letters {c : Char} {cs : List Char} (hc : c.isAlpha)
    (hcs : ∀ d ∈ cs, d.isAlphanum ∨ d = '_' ∨ 128 ≤ d.toNat) (h : String.ofList (c :: cs) ∉ reservedWords) :
    IsName (String.ofList (c :: cs)) := by
  refine ⟨⟨c, by simp, hc⟩, ?_, h⟩
  intro d hd hends
  rw [String.toList_ofList, List.mem_cons] at hd
  have hword : d.isAlphanum ∨ d = '_' ∨ 128 ≤ d.toNat := by
    rcases hd with rfl | hd
    · exact .inl (by rw [Char.isAlphanum, hc, Bool.true_or])
    · exact hcs d hd
  rcases hends with rfl | rfl
  · exact absurd hword (by decide)
  · exact absurd hword (by decide)

/-- What a word stands for: a literal if it is one of their words or a number, else a name. -/
def readWord (word : List Char) : Shape Node :=
  if word = "null".toList then .literal .null
  else if word = "default".toList then .literal .default
  else if word = "true".toList then .literal (.bool true)
  else if word = "false".toList then .literal (.bool false)
  else
    match Json.number? word with
    | some (.int n) => .literal (.int (.ofInt n))
    | _ => .identifier (String.ofList word)

/-- Names and literals. -/
inductive IsLeaf : Shape Node → Prop where
  | identifier {name : String} (h : IsName name) : IsLeaf (.identifier name)
  | literal {value : LiteralValue} : IsLeaf (.literal value)

theorem IsLeaf.not_isCompound {shape : Shape Node} (h : IsLeaf shape) : ¬ shape.kind.isCompound := by
  cases h with
  | identifier => exact Bool.false_ne_true
  | literal => exact Bool.false_ne_true

/-- A word goes on up to what may follow an operand, and its first character opens nothing. -/
structure IsWord (word : List Char) : Prop where
  first : ∃ c ∈ word.head?, c ≠ '(' ∧ c ≠ '"'
  unbroken : ∀ c ∈ word, ¬ EndsOperand c

theorem isWord_of_mem_reservedWords {word : String} (h : word ∈ reservedWords) : IsWord word.toList := by
  have hfirst : ∀ w ∈ reservedWords, ∃ c ∈ w.toList.head?, c ≠ '(' ∧ c ≠ '"' := by
    simp [reservedWords]
  have hunbroken : ∀ w ∈ reservedWords, ∀ c ∈ w.toList, ¬ EndsOperand c := by
    simp [reservedWords, EndsOperand]
  exact ⟨hfirst word h, hunbroken word h⟩

theorem IsName.isWord {name : String} (h : IsName name) : IsWord name.toList := by
  obtain ⟨c, hc, hletter⟩ := h.letter
  refine ⟨⟨c, hc, ?_, ?_⟩, h.unbroken⟩
  · rintro rfl
    cases hletter
  · rintro rfl
    cases hletter

theorem not_isDigit_of_isAlpha {c : Char} (h : c.isAlpha) : ¬ c.isDigit := by
  have hletter : 'A'.toNat ≤ c.toNat := by
    rcases Bool.or_eq_true_iff.1 h with hupper | hlower
    · exact (of_decide_eq_true hupper).1
    · have hsmall : 'a'.toNat ≤ c.toNat := of_decide_eq_true (Bool.and_eq_true_iff.1 hlower).1
      exact Nat.le_trans (by decide) hsmall
  rw [Char.isDigit_iff_toNat]
  rintro ⟨-, hdigit⟩
  exact absurd (Nat.le_trans hletter hdigit) (by decide)

theorem number?_eq_none_of_isAlpha {c : Char} {cs : List Char} (h : c.isAlpha) :
    Json.number? (c :: cs) = none := by
  have hdigit := not_isDigit_of_isAlpha h
  have hspan : Json.spanDigits (c :: cs) = ([], c :: cs) := by
    rw [Json.spanDigits, List.span_eq_takeWhile_dropWhile, List.takeWhile_cons_of_neg hdigit,
      List.dropWhile_cons_of_neg hdigit]
  rw [Json.number?, hspan]
  intro ds hminus
  cases hminus
  cases h

theorem readWord_name {name : String} (h : IsName name) :
    readWord name.toList = .identifier name := by
  have hne (word : String) (hword : word ∈ reservedWords) : name.toList ≠ word.toList := by
    intro heq
    exact h.unreserved (String.toList_inj.1 heq ▸ hword)
  have hnumber : Json.number? name.toList = none := by
    obtain ⟨c, hc, hletter⟩ := h.letter
    obtain ⟨cs, hcs⟩ := List.head?_eq_some_iff.1 hc
    rw [hcs]
    exact number?_eq_none_of_isAlpha hletter
  rw [readWord, if_neg (hne "null" (by decide)), if_neg (hne "default" (by decide)),
    if_neg (hne "true" (by decide)), if_neg (hne "false" (by decide)), hnumber]
  simp

theorem readWord_printInt (value : Int64) :
    readWord (Json.printInt value.toInt) = .literal (.int value) := by
  have hne (word : String) (c : Char) (hc : c ∈ word.toList) (hminus : c ≠ '-') (hdigit : ¬ c.isDigit) :
      Json.printInt value.toInt ≠ word.toList := by
    intro heq
    rw [← heq] at hc
    exact (Json.mem_printInt hc).elim hminus hdigit
  rw [readWord, if_neg (hne "null" 'n' (by decide) (by decide) (by decide)),
    if_neg (hne "default" 'd' (by decide) (by decide) (by decide)),
    if_neg (hne "true" 't' (by decide) (by decide) (by decide)),
    if_neg (hne "false" 'f' (by decide) (by decide) (by decide)), Json.number?_printInt]
  simp

theorem isWord_printInt (value : Int) : IsWord (Json.printInt value) := by
  constructor
  · cases hword : Json.printInt value with
    | nil =>
      have hnumber := Json.number?_printInt value
      rw [hword] at hnumber
      cases hnumber
    | cons c cs =>
      refine ⟨c, rfl, ?_⟩
      have hc : c ∈ Json.printInt value := hword ▸ List.mem_cons_self
      rcases Json.mem_printInt hc with rfl | hdigit
      · decide
      · constructor
        · rintro rfl
          cases hdigit
        · rintro rfl
          cases hdigit
  · intro c hc hends
    rcases Json.mem_printInt hc with rfl | hdigit
    · exact absurd hends (by decide)
    · rcases hends with rfl | rfl
      · cases hdigit
      · cases hdigit

/-- How a leaf is spelled: with a word that is read as the leaf, or with a quotation. -/
inductive Spelled : Shape Node → List Char → Prop where
  | word {shape : Shape Node} {word : List Char} (hword : IsWord word) (hread : readWord word = shape) :
      Spelled shape word
  | quotation (s : String) : Spelled (.literal (.string s)) (Text.quoted s).toList

theorem spelled_render (value : LiteralValue) : Spelled (.literal value) value.render.toList := by
  cases value with
  | null => exact .word (isWord_of_mem_reservedWords (by decide)) rfl
  | default => exact .word (isWord_of_mem_reservedWords (by decide)) rfl
  | bool value =>
    cases value with
    | false => exact .word (isWord_of_mem_reservedWords (by decide)) rfl
    | true => exact .word (isWord_of_mem_reservedWords (by decide)) rfl
  | int value => exact .word (isWord_printInt _) (readWord_printInt value)
  | string value => exact .quotation value

theorem IsLeaf.spelled {shape : Shape Node} (h : IsLeaf shape) :
    Spelled shape (shape.map Node.rendered).render.toList := by
  cases h with
  | identifier hname => exact .word hname.isWord (readWord_name hname)
  | literal => exact spelled_render _

/-- The text is at its end, or goes on with what may follow an operand. -/
def FollowsOperand (cs : List Char) : Prop := ∀ c ∈ cs.head?, EndsOperand c

variable {s t : Shape Node} {v w cs ds : List Char}

theorem IsWord.append_inj (hv : IsWord v) (hw : IsWord w) (hcs : FollowsOperand cs)
    (hds : FollowsOperand ds) (h : v ++ cs = w ++ ds) : v = w ∧ cs = ds :=
  append_inj_of_ends EndsOperand hv.unbroken hw.unbroken hcs hds h

theorem IsWord.append_ne_cons {d : Char} (hv : IsWord v) (hd : d = '(' ∨ d = '"') :
    v ++ cs ≠ d :: ds := by
  obtain ⟨c, hc, hopen, hquote⟩ := hv.first
  obtain ⟨rest, rfl⟩ := List.head?_eq_some_iff.1 hc
  intro h
  cases h
  exact hd.elim hopen hquote

theorem Spelled.append_ne_open (hv : Spelled s v) : v ++ cs ≠ '(' :: ds := by
  cases hv with
  | word hword => exact hword.append_ne_cons (.inl rfl)
  | quotation text =>
    intro h
    rw [Text.toList_quoted_append] at h
    cases h

/-- A text that begins with a leaf determines the leaf and what follows. -/
theorem Spelled.append_inj (hv : Spelled s v) (hw : Spelled t w) (hcs : FollowsOperand cs)
    (hds : FollowsOperand ds) (h : v ++ cs = w ++ ds) : s = t ∧ cs = ds := by
  cases hv with
  | word hv hread =>
    cases hw with
    | word hw hread' =>
      obtain ⟨rfl, rfl⟩ := hv.append_inj hw hcs hds h
      exact ⟨hread.symm.trans hread', rfl⟩
    | quotation text =>
      rw [Text.toList_quoted_append] at h
      exact absurd h (hv.append_ne_cons (.inr rfl))
  | quotation text =>
    cases hw with
    | word hw =>
      rw [Text.toList_quoted_append] at h
      exact absurd h.symm (hw.append_ne_cons (.inr rfl))
    | quotation text' =>
      obtain ⟨rfl, rfl⟩ := Text.quoted_append_inj h
      exact ⟨rfl, rfl⟩

theorem followsOperand_blank (cs : List Char) : FollowsOperand (' ' :: cs) := by
  intro c hc
  cases hc
  exact .inl rfl

theorem followsOperand_close (cs : List Char) : FollowsOperand (')' :: cs) := by
  intro c hc
  cases hc
  exact .inr rfl

theorem IsLeaf.append_ne_not (hs : IsLeaf s) (hv : Spelled s v) (hcs : FollowsOperand cs) :
    v ++ cs ≠ "not".toList ++ ' ' :: ds := by
  intro h
  cases hv with
  | word hword hread =>
    have hnot : IsWord "not".toList := isWord_of_mem_reservedWords (by decide)
    obtain ⟨rfl, -⟩ := hword.append_inj hnot hcs (followsOperand_blank ds) h
    cases hread
    cases hs with
    | identifier hname => exact hname.unreserved (by decide)
  | quotation text =>
    rw [Text.toList_quoted_append] at h
    cases h

end TreeLint
