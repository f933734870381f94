import TreeLint.Json.Parse
import TreeLint.Proofs.JsonWords

namespace TreeLint.Json

/-- A value that its text determines: without fractions, garbled texts and integers beyond a word.
-/
inductive Plain : Json → Prop where
  | null : Plain .null
  | bool (value : Bool) : Plain (.bool value)
  | int {value : Int} (h : value.natAbs < Decimal.wordBound) : Plain (.int value)
  | string (value : String) : Plain (.string value)
  | array {items : List Json} (h : ∀ v ∈ items, Plain v) : Plain (.array items)
  | object {fields : List (String × Json)} (h : ∀ f ∈ fields, Plain f.2) : Plain (.object fields)

mutual

/-- The tokens that spell a value. -/
def spell : Json → List Token
  | array items => .openBracket :: (spellItems items ++ [.closeBracket])
  | object fields => .openBrace :: (spellFields fields ++ [.closeBrace])
  | v => [.atom v]

def spellItems : List Json → List Token
  | [] => []
  | [v] => spell v
  | v :: vs => spell v ++ .comma :: spellItems vs

def spellFields : List (String × Json) → List Token
  | [] => []
  | [(k, v)] => .atom (.string k) :: .colon :: spell v
  | (k, v) :: fs => .atom (.string k) :: .colon :: (spell v ++ .comma :: spellFields fs)

end

section Scanning

variable {before : List Token} {cs : List Char} {c : Char} {v : Json}

/-- The scanner turns the value in print, in any layout, into the tokens that spell it. -/
def Scans (v : Json) : Prop :=
  ∀ (l : Layout) (level : Nat) (before : List Token) (cs : List Char), Delimited cs →
    scanRest .between before (printAt l level v ++ cs) =
      scanRest .between ((spell v).reverse ++ before) cs

theorem delimited_cons (h : isDelimiter c) : Delimited (c :: cs) := by
  intro d hd
  cases hd
  exact h

theorem delimited_newline (l : Layout) (level : Nat) (h : isDelimiter c) :
    Delimited (l.newline level ++ c :: cs) := by
  rw [Layout.newline]
  split
  · exact delimited_cons rfl
  · exact delimited_cons h

theorem scanRest_printItems {items : List Json} (hitems : ∀ v ∈ items, v.Scans) (l : Layout)
    (level : Nat) (h : Delimited cs) :
    scanRest .between before (printItems l level items ++ cs) =
      scanRest .between ((spellItems items).reverse ++ before) cs := by
  induction items generalizing before with
  | nil => rfl
  | cons v items ih =>
    obtain ⟨hv, hitems⟩ := List.forall_mem_cons.1 hitems
    cases items with
    | nil =>
      rw [printItems, List.append_assoc, scanRest_newline, hv l level before cs h, spellItems]
    | cons w items =>
      have hcomma : isDelimiter ',' := rfl
      change scanRest _ _ ((l.newline level ++ printAt l level v ++
        ',' :: printItems l level (w :: items)) ++ cs) = _
      rw [List.append_assoc, List.append_assoc, scanRest_newline, List.cons_append,
        hv l level before _ (delimited_cons hcomma), scanRest_punctuation rfl, ih hitems]
      change _ = scanRest _ ((spell v ++ .comma :: spellItems (w :: items)).reverse ++ _) _
      rw [List.reverse_append, List.reverse_cons, List.append_assoc, List.append_assoc]
      rfl

theorem scanRest_printFields {fields : List (String × Json)} (hfields : ∀ f ∈ fields, f.2.Scans)
    (l : Layout) (level : Nat) (h : Delimited cs) :
    scanRest .between before (printFields l level fields ++ cs) =
      scanRest .between ((spellFields fields).reverse ++ before) cs := by
  induction fields generalizing before with
  | nil => rfl
  | cons f fields ih =>
    obtain ⟨name, v⟩ := f
    obtain ⟨hv, hfields⟩ := List.forall_mem_cons.1 hfields
    have hname (rest : List Char) : scanRest .between before
        (l.newline level ++ (printString name ++ (l.colon ++ rest))) =
          scanRest .between (.colon :: .atom (.string name) :: before) rest := by
      rw [scanRest_newline, scanRest_printString, scanRest_colon]
    cases fields with
    | nil =>
      rw [printFields, List.append_assoc, List.append_assoc, List.append_assoc, hname,
        hv l level _ cs h, spellFields, List.reverse_cons, List.reverse_cons]
      simp only [List.append_assoc, List.cons_append, List.nil_append]
    | cons g fields =>
      have hcomma : isDelimiter ',' := rfl
      change scanRest _ _ ((l.newline level ++ printString name ++ l.colon ++ printAt l level v ++
        ',' :: printFields l level (g :: fields)) ++ cs) = _
      rw [List.append_assoc, List.append_assoc, List.append_assoc, List.append_assoc, hname,
        List.cons_append, hv l level _ _ (delimited_cons hcomma), scanRest_punctuation rfl,
        ih hfields]
      change _ = scanRest _ ((.atom (.string name) :: .colon ::
        (spell v ++ .comma :: spellFields (g :: fields))).reverse ++ _) _
      simp only [List.reverse_append, List.reverse_cons, List.append_assoc, List.cons_append,
        List.nil_append]

theorem Plain.scans (h : v.Plain) : v.Scans := by
  induction h with
  | null =>
    intro l level before cs hcs
    change scanRest _ _ ("null".toList ++ cs) = _
    exact scanRest_wordText rfl (by decide) (by decide) hcs
  | bool value =>
    intro l level before cs hcs
    cases value with
    | false =>
      change scanRest _ _ ("false".toList ++ cs) = _
      exact scanRest_wordText rfl (by decide) (by decide) hcs
    | true =>
      change scanRest _ _ ("true".toList ++ cs) = _
      exact scanRest_wordText rfl (by decide) (by decide) hcs
  | int =>
    intro l level before cs hcs
    exact scanRest_printInt _ hcs
  | string value =>
    intro l level before cs hcs
    exact scanRest_printString value
  | @array items _ ih =>
    intro l level before cs hcs
    have hclose : isDelimiter ']' := rfl
    cases items with
    | nil =>
      change scanRest _ _ ('[' :: ']' :: cs) = _
      rw [scanRest_punctuation rfl, scanRest_punctuation rfl]
      rfl
    | cons v items =>
      change scanRest _ _ ('[' :: (printItems l (level + 1) (v :: items) ++ l.newline level ++
        [']']) ++ cs) = _
      rw [List.cons_append, scanRest_punctuation rfl, List.append_assoc, List.append_assoc,
        List.singleton_append,
        scanRest_printItems ih l (level + 1) (delimited_newline l level hclose), scanRest_newline,
        scanRest_punctuation rfl, spell]
      simp only [List.reverse_append, List.reverse_cons, List.append_assoc, List.cons_append,
        List.nil_append, List.reverse_nil]
  | @object fields _ ih =>
    intro l level before cs hcs
    have hclose : isDelimiter '\x7d' := rfl
    cases fields with
    | nil =>
      change scanRest _ _ ('\x7b' :: '\x7d' :: cs) = _
      rw [scanRest_punctuation rfl, scanRest_punctuation rfl]
      rfl
    | cons f fields =>
      change scanRest _ _ ('\x7b' :: (printFields l (level + 1) (f :: fields) ++ l.newline level ++
        ['\x7d']) ++ cs) = _
      rw [List.cons_append, scanRest_punctuation rfl, List.append_assoc, List.append_assoc,
        List.singleton_append,
        scanRest_printFields ih l (level + 1) (delimited_newline l level hclose), scanRest_newline,
        scanRest_punctuation rfl, spell]
      simp only [List.reverse_append, List.reverse_cons, List.append_assoc, List.cons_append,
        List.nil_append, List.reverse_nil]

theorem Plain.tokens?_printAt (h : v.Plain) (l : Layout) (level : Nat) :
    tokens? (printAt l level v) = some (spell v) := by
  have hscan := h.scans l level [] [] (by simp [Delimited])
  rw [List.append_nil, List.append_nil] at hscan
  rw [tokens?_eq, hscan]
  change some (spell v).reverse.reverse = _
  rw [List.reverse_reverse]

end Scanning

section Parsing

variable {outer : List Frame} {ts : List Token} {t : Token} {v : Json} {e e' : Expected}

/-- The parser builds the value from the tokens that spell it, wherever a value may come. -/
def Builds (v : Json) : Prop :=
  ∀ (outer : List Frame) (ts : List Token),
    parseFrom (.value outer) (spell v ++ ts) = parseFrom (complete v outer) ts

theorem parseFrom_cons (h : stepParse e t = some e') :
    parseFrom e (t :: ts) = parseFrom e' ts := by
  rw [parseFrom, h]
  rfl

theorem parseFrom_firstItem (v : Json) (items : List Json) :
    parseFrom (.firstItem outer) (spellItems (v :: items) ++ ts) =
      parseFrom (.value (.array [] :: outer)) (spellItems (v :: items) ++ ts) := by
  cases items <;> cases v <;> rfl

theorem parseFrom_firstName (f : String × Json) (fields : List (String × Json)) :
    parseFrom (.firstName outer) (spellFields (f :: fields) ++ ts) =
      parseFrom (.name (some []) outer) (spellFields (f :: fields) ++ ts) := by
  cases fields <;> rfl

theorem parseFrom_spellItems {items : List Json} (hv : v.Builds) (hitems : ∀ v ∈ items, v.Builds)
    (done : List Json) :
    parseFrom (.value (.array done :: outer)) (spellItems (v :: items) ++ .closeBracket :: ts) =
      parseFrom (complete (.array (done.reverse ++ v :: items)) outer) ts := by
  induction items generalizing v done with
  | nil =>
    have hclose : stepParse (.itemEnd (v :: done) outer) .closeBracket =
        some (complete (.array (done.reverse ++ [v])) outer) := by
      rw [stepParse, List.reverse_cons]
    rw [spellItems, hv, complete, parseFrom_cons hclose]
  | cons w items ih =>
    obtain ⟨hw, hitems⟩ := List.forall_mem_cons.1 hitems
    change parseFrom _ ((spell v ++ .comma :: spellItems (w :: items)) ++ _) = _
    rw [List.append_assoc, hv, complete, List.cons_append, parseFrom_cons rfl, ih hw hitems,
      List.reverse_cons, List.append_assoc, List.singleton_append]

theorem parseFrom_spellFields {name : String} {fields : List (String × Json)} (hv : v.Builds)
    (hfields : ∀ f ∈ fields, f.2.Builds) (done : List (String × Json)) :
    parseFrom (.name (some done) outer) (spellFields ((name, v) :: fields) ++ .closeBrace :: ts) =
      parseFrom (complete (.object (done.reverse ++ (name, v) :: fields)) outer) ts := by
  induction fields generalizing name v done with
  | nil =>
    have hclose : stepParse (.fieldEnd (some ((name, v) :: done)) outer) .closeBrace =
        some (complete (.object (done.reverse ++ [(name, v)])) outer) := by
      rw [stepParse, ofReadFields, List.reverse_cons]
    rw [spellFields, List.cons_append, parseFrom_cons rfl, List.cons_append, parseFrom_cons rfl, hv,
      complete]
    exact parseFrom_cons hclose
  | cons f fields ih =>
    obtain ⟨hf, hfields⟩ := List.forall_mem_cons.1 hfields
    change parseFrom _ (.atom (.string name) :: .colon ::
      (spell v ++ .comma :: spellFields (f :: fields)) ++ _) = _
    rw [List.cons_append, parseFrom_cons rfl, List.cons_append, parseFrom_cons rfl,
      List.append_assoc, hv, complete, List.cons_append]
    change parseFrom (.fieldEnd (some ((name, v) :: done)) outer) _ = _
    rw [parseFrom_cons rfl, ih hf hfields, List.reverse_cons, List.append_assoc,
      List.singleton_append]

theorem Plain.builds (h : v.Plain) : v.Builds := by
  induction h with
  | null => exact fun _ _ => rfl
  | bool => exact fun _ _ => rfl
  | int => exact fun _ _ => rfl
  | string => exact fun _ _ => rfl
  | @array items _ ih =>
    intro outer ts
    cases items with
    | nil => rfl
    | cons v items =>
      obtain ⟨hv, hitems⟩ := List.forall_mem_cons.1 ih
      rw [spell, List.cons_append, parseFrom_cons rfl, List.append_assoc, parseFrom_firstItem]
      exact parseFrom_spellItems hv hitems []
  | @object fields _ ih =>
    intro outer ts
    cases fields with
    | nil => rfl
    | cons f fields =>
      obtain ⟨hf, hfields⟩ := List.forall_mem_cons.1 ih
      rw [spell, List.cons_append, parseFrom_cons rfl, List.append_assoc, parseFrom_firstName]
      exact parseFrom_spellFields hf hfields []

/-- Reading a printed value gives the value back. -/
theorem Plain.parse?_print (h : v.Plain) (l : Layout) :
    parse? (String.ofList (printAt l 0 v)) = some v := by
  have hbuild := h.builds [] []
  rw [List.append_nil] at hbuild
  rw [parse?, String.toList_ofList, h.tokens?_printAt]
  change ofTokens? (spell v) = some v
  rw [ofTokens?, hbuild]
  rfl

end Parsing

end TreeLint.Json
