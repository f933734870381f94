namespace TreeLint

/-- A text as a file system has it. The bytes need not be the encoding of characters. -/
abbrev Bytes := List UInt8

namespace Utf8

def encode (cs : List Char) : Bytes := cs.flatMap String.utf8EncodeChar

/-- The character whose encoding bytes begin with. -/
def firstChar? (bytes : Bytes) : Option Char := bytes.toByteArray.utf8DecodeChar? 0

/-- How many bytes follow a first byte in the encodings that it begins. -/
def followers (first : UInt8) : Nat :=
  if first < 0xC2 then 0
  else if first < 0xE0 then 1
  else if first < 0xF0 then 2
  else if first < 0xF5 then 3
  else 0

/-- The byte can be the second one. This leaves out encodings that are longer than they need be,
those of surrogates, and those of numbers above all characters. -/
def isSecond (first second : UInt8) : Bool :=
  (if first = 0xE0 then 0xA0 else if first = 0xF0 then 0x90 else 0x80) ≤ second &&
    second ≤ (if first = 0xED then 0x9F else if first = 0xF4 then 0x8F else 0xBF)

def isLater (byte : UInt8) : Bool := 0x80 ≤ byte && byte ≤ 0xBF

/-- How many of the bytes behind a first byte go on with an encoding that it begins. -/
def begun (first : UInt8) : Bytes → Nat
  | [] => 0
  | second :: rest =>
    if 0 < followers first && isSecond first second then
      1 + ((rest.take (followers first - 1)).takeWhile isLater).length
    else
      0

/-- What stands for bytes that are no encoding. -/
def replacement : Char := '\uFFFD'

/-- The characters of bytes behind the first ones, as many as are given. Each longest beginning of
an encoding that does not go on becomes one replacement character, and so does any other byte. -/
def decodeFrom : Nat → Bytes → List Char
  | _, [] => []
  | skipped + 1, _ :: bytes => decodeFrom skipped bytes
  | 0, first :: bytes =>
    match firstChar? (first :: bytes) with
    | some c => c :: decodeFrom (c.utf8Size - 1) bytes
    | none => replacement :: decodeFrom (begun first bytes) bytes

def decode (bytes : Bytes) : List Char := decodeFrom 0 bytes

/-- The characters that bytes are the encoding of. -/
def decode? (bytes : Bytes) : Option (List Char) :=
  if encode (decode bytes) = bytes then some (decode bytes) else none

variable {bytes : Bytes} {c d : Char} {cs ds : List Char}

theorem encode_cons (c : Char) (cs : List Char) :
    encode (c :: cs) = String.utf8EncodeChar c ++ encode cs := List.flatMap_cons

theorem encode_append (cs ds : List Char) : encode (cs ++ ds) = encode cs ++ encode ds :=
  List.flatMap_append

theorem firstChar?_encodeChar (c : Char) (bytes : Bytes) :
    firstChar? (String.utf8EncodeChar c ++ bytes) = some c := by
  rw [firstChar?, List.toByteArray_append]
  exact ByteArray.utf8DecodeChar?_utf8EncodeChar_append

theorem exists_of_firstChar? (h : firstChar? bytes = some c) :
    ∃ rest, bytes = String.utf8EncodeChar c ++ rest := by
  obtain ⟨rest, hrest⟩ := ByteArray.exists_of_utf8DecodeChar?_eq_some h
  refine ⟨rest.data.toList, ?_⟩
  simpa using congrArg (fun b => b.data.toList) hrest

theorem decodeFrom_eq (n : Nat) (bytes : Bytes) : decodeFrom n bytes = decode (bytes.drop n) := by
  induction n generalizing bytes with
  | zero => rfl
  | succ n ih =>
    cases bytes with
    | nil => rfl
    | cons b bytes => exact ih bytes

theorem decode_encodeChar_append (c : Char) (bytes : Bytes) :
    decode (String.utf8EncodeChar c ++ bytes) = c :: decode bytes := by
  have hfirst := firstChar?_encodeChar c bytes
  have hlength := String.length_utf8EncodeChar c
  obtain ⟨b, bs, hbytes⟩ := List.exists_cons_of_ne_nil (String.utf8EncodeChar_ne_nil (c := c))
  rw [hbytes] at hlength hfirst ⊢
  rw [List.cons_append] at hfirst ⊢
  rw [decode, decodeFrom, hfirst]
  dsimp only
  rw [decodeFrom_eq, ← hlength, List.length_cons, Nat.add_sub_cancel, List.drop_left]

@[simp]
theorem decode_encode (cs : List Char) : decode (encode cs) = cs := by
  induction cs with
  | nil => rfl
  | cons c cs ih => rw [encode_cons, decode_encodeChar_append, ih]

theorem encode_inj : encode cs = encode ds ↔ cs = ds := by
  constructor
  · intro h
    rw [← decode_encode cs, h, decode_encode]
  · exact congrArg encode

theorem decode?_eq_some : decode? bytes = some cs ↔ encode cs = bytes := by
  constructor
  · intro h
    rw [decode?] at h
    split at h
    · rename_i hencoded
      cases h
      exact hencoded
    · cases h
  · rintro rfl
    rw [decode?, decode_encode, if_pos rfl]

theorem encodeChar_of_lt (h : c.toNat < 128) : String.utf8EncodeChar c = [UInt8.ofNat c.toNat] := by
  have hv : c.val.toNat ≤ 0x7f := Nat.le_of_lt_succ h
  exact if_pos hv

theorem eq_of_mem_encodeChar (hc : c.toNat < 128) :
    UInt8.ofNat c.toNat ∈ String.utf8EncodeChar d → d = c := by
  have hbyte (n : Nat) : UInt8.ofNat c.toNat = UInt8.ofNat n ↔ c.toNat = n % 256 := by
    rw [← UInt8.toNat_inj, UInt8.toNat_ofNat', UInt8.toNat_ofNat', Nat.mod_eq_of_lt (by omega)]
  fun_cases String.utf8EncodeChar d with
  | case1 v hv =>
    rw [List.mem_singleton, hbyte]
    intro h
    have hvalue : v = c.toNat := by omega
    exact Char.toNat_inj.1 hvalue
  | case2 =>
    simp only [List.mem_cons, List.not_mem_nil, or_false, hbyte]
    omega
  | case3 =>
    simp only [List.mem_cons, List.not_mem_nil, or_false, hbyte]
    omega
  | case4 =>
    simp only [List.mem_cons, List.not_mem_nil, or_false, hbyte]
    omega

/-- A byte below 128 stands for its character only, wherever it is in an encoding. -/
theorem mem_of_mem_encode (hc : c.toNat < 128) (h : UInt8.ofNat c.toNat ∈ encode cs) : c ∈ cs := by
  obtain ⟨d, hd, hbyte⟩ := List.mem_flatMap.1 h
  rwa [← eq_of_mem_encodeChar hc hbyte]

theorem mem_of_mem_decode (hc : c.toNat < 128) (h : c ∈ decode bytes) :
    UInt8.ofNat c.toNat ∈ bytes := by
  have hfrom (n : Nat) (bytes : Bytes) : c ∈ decodeFrom n bytes → UInt8.ofNat c.toNat ∈ bytes := by
    fun_induction decodeFrom n bytes with
    | case1 => exact fun h => absurd h List.not_mem_nil
    | case2 skipped byte bytes ih => exact fun h => List.mem_cons_of_mem byte (ih h)
    | case3 first bytes d hd ih =>
      intro h
      rcases List.mem_cons.1 h with rfl | h
      · obtain ⟨rest, hrest⟩ := exists_of_firstChar? hd
        rw [hrest, encodeChar_of_lt hc]
        exact List.mem_cons_self
      · exact List.mem_cons_of_mem first (ih h)
    | case4 first bytes hd ih =>
      intro h
      rcases List.mem_cons.1 h with rfl | h
      · exact absurd hc (by decide)
      · exact List.mem_cons_of_mem first (ih h)
  exact hfrom 0 bytes h

end Utf8

end TreeLint
