import InfoScreen.Boot.Record
import InfoScreen.Proofs.Digits

/-!
# Bytes as pairs of digits

Two hexadecimal digits of either case spell a byte.  Records are read from the encoding of a text,
byte by byte, but the texts that can be read are just those whose characters are such digits, an
even number of them: no byte of a character outside ASCII is the code of a digit.
-/

namespace InfoScreen

namespace Text

def IsHexDigit (c : Char) (d : Nat) : Prop := d < 16 ∧ c.toLower = d.digitChar

/-- Digits that spell bytes, the high digit of a byte first. -/
inductive SpellsBytes : List Char → List UInt8 → Prop
  | nil : SpellsBytes [] []
  | cons {high low : Char} {byte : UInt8} {digits : List Char} {bytes : List UInt8}
      (hhigh : IsHexDigit high (byte.toNat / 16)) (hlow : IsHexDigit low (byte.toNat % 16))
      (hrest : SpellsBytes digits bytes) : SpellsBytes (high :: low :: digits) (byte :: bytes)

def lowerDigits (bytes : List UInt8) : List Char :=
  bytes.flatMap fun byte ↦ [(byte.toNat / 16).digitChar, (byte.toNat % 16).digitChar]

section Digits

variable {c : Char} {d : Nat}

/-- A character outside ASCII comes behind every character inside. -/
theorem not_le_of_ascii {bound : Char} (hc : 128 ≤ c.toNat) (hbound : bound.toNat < 128) :
    ¬c ≤ bound := by
  intro hle
  have hcode : c.toNat ≤ bound.toNat := hle
  omega

theorem ascii_of_hexDigit? (h : hexDigit? c = some d) : c.toNat < 128 := by
  refine Nat.lt_of_not_le fun hle ↦ ?_
  have hnone : hexDigit? c = none := by
    simp [hexDigit?, not_le_of_ascii hle (show '9'.toNat < 128 by decide),
      not_le_of_ascii hle (show 'f'.toNat < 128 by decide),
      not_le_of_ascii hle (show 'F'.toNat < 128 by decide)]
  rw [hnone] at h
  cases h

theorem IsHexDigit.ascii (h : IsHexDigit c d) : c.toNat < 128 := by
  obtain ⟨hd, hlower⟩ := h
  refine Nat.lt_of_not_le fun hle ↦ ?_
  have hsame : c.toLower = c :=
    dif_neg fun hupper ↦ not_le_of_ascii hle (show 'Z'.toNat < 128 by decide) hupper.2
  have hdigit : ∀ d < 16, d.digitChar.toNat < 128 := by decide
  rw [← hsame, hlower] at hle
  exact Nat.not_le_of_lt (hdigit d hd) hle

/-- The digits that are read are those of either case. -/
theorem hexDigit?_eq_some_iff : hexDigit? c = some d ↔ IsHexDigit c d := by
  by_cases hc : c.toNat < 128
  · -- the digits of the sixteen values, looked up in the whole of ASCII
    have hsound : ∀ n < 128, ∀ d ∈ hexDigit? (Char.ofNat n), IsHexDigit (Char.ofNat n) d := by
      unfold IsHexDigit
      decide +kernel
    have hcomplete : ∀ n < 128, ∀ d < 16, (Char.ofNat n).toLower = d.digitChar →
        hexDigit? (Char.ofNat n) = some d := by decide +kernel
    obtain ⟨n, hn, rfl⟩ : ∃ n < 128, c = Char.ofNat n := ⟨c.toNat, hc, (Char.ofNat_toNat c).symm⟩
    exact ⟨hsound n hn d, fun h ↦ hcomplete n hn d h.1 h.2⟩
  · exact ⟨fun h ↦ absurd (ascii_of_hexDigit? h) hc, fun h ↦ absurd h.ascii hc⟩

theorem IsHexDigit.isBlank_eq_false (h : IsHexDigit c d) : isBlank c = false := by
  have hblank : ∀ n < 128, (hexDigit? (Char.ofNat n)).isSome → isBlank (Char.ofNat n) = false := by
    decide +kernel
  have hdigit := hexDigit?_eq_some_iff.mpr h
  rw [← c.ofNat_toNat] at hdigit ⊢
  exact hblank c.toNat h.ascii (by rw [hdigit, Option.isSome_some])

theorem IsHexDigit.unique {other : Nat} (h : IsHexDigit c d) (hother : IsHexDigit c other) :
    d = other := by
  rw [← hexDigit?_eq_some_iff] at h hother
  exact Option.some.inj (h.symm.trans hother)

end Digits

section Spelling

variable {digits : List Char} {bytes : List UInt8}

theorem SpellsBytes.isHexDigit (h : SpellsBytes digits bytes) :
    ∀ c ∈ digits, ∃ d, IsHexDigit c d := by
  induction h with
  | nil => simp
  | cons hhigh hlow _ ih =>
    simp only [List.forall_mem_cons]
    exact ⟨⟨_, hhigh⟩, ⟨_, hlow⟩, ih⟩

theorem SpellsBytes.length_eq (h : SpellsBytes digits bytes) :
    digits.length = 2 * bytes.length := by
  induction h with
  | nil => rfl
  | cons _ _ _ ih =>
    rw [List.length_cons, List.length_cons, List.length_cons, ih]
    omega

/-- The digits that spell bytes differ from each other in their case only. -/
theorem spellsBytes_iff :
    SpellsBytes digits bytes ↔ digits.map Char.toLower = lowerDigits bytes := by
  constructor
  · intro h
    induction h with
    | nil => rfl
    | cons hhigh hlow _ ih =>
      rw [List.map_cons, List.map_cons, hhigh.2, hlow.2, ih]
      rfl
  · intro h
    induction bytes generalizing digits with
    | nil =>
      obtain rfl := List.map_eq_nil_iff.mp h
      exact .nil
    | cons byte rest ih =>
      match digits, h with
      | [_], h => cases (List.cons.inj h).2
      | high :: low :: digits, h =>
        obtain ⟨hhigh, h⟩ := List.cons.inj h
        obtain ⟨hlow, h⟩ := List.cons.inj h
        have hlt := byte.toNat_lt
        exact .cons ⟨by omega, hhigh⟩ ⟨by omega, hlow⟩ (ih h)

end Spelling

end Text

namespace Boot

open Text

/-! ## Reading the bytes of a text -/

section Reading

variable {c : Char} {code : UInt8} {bytes : List UInt8} {text : List Char}

/-- The character with a code of one byte. -/
def codeChar (code : UInt8) : Char := Char.ofNat code.toNat

theorem toNat_codeChar (code : UInt8) : (codeChar code).toNat = code.toNat := by
  have hvalid : code.toNat.isValidChar := .inl (Nat.lt_trans code.toNat_lt (by decide))
  rw [codeChar, Char.ofNat, dif_pos hvalid]
  rfl

/-- The encoding of an ASCII character is its code. -/
theorem utf8EncodeChar_of_ascii (hc : c.toNat < 128) : String.utf8EncodeChar c = [c.toUInt8] := by
  have hle : c.val.toNat ≤ 127 := Nat.le_of_lt_succ hc
  simp only [String.utf8EncodeChar, hle, if_true]
  rfl

theorem map_utf8EncodeChar_of_ascii (hc : c.toNat < 128) :
    (String.utf8EncodeChar c).map codeChar = [c] := by
  have hcode : c.toUInt8.toNat = c.toNat := Nat.mod_eq_of_lt (Nat.lt_trans hc (by decide))
  rw [utf8EncodeChar_of_ascii hc, List.map_singleton, codeChar, hcode, Char.ofNat_toNat]

/-- The encoding of any other character begins with a byte that is no ASCII code. -/
theorem exists_mem_utf8EncodeChar (hc : 128 ≤ c.toNat) :
    ∃ code ∈ String.utf8EncodeChar c, 128 ≤ code.toNat := by
  have hlt : ¬c.val.toNat ≤ 127 := Nat.not_le_of_lt hc
  simp only [String.utf8EncodeChar, hlt, if_false]
  split
  · refine ⟨_, List.mem_cons_self, ?_⟩
    rw [UInt8.toNat_ofNat']
    omega
  · split
    · refine ⟨_, List.mem_cons_self, ?_⟩
      rw [UInt8.toNat_ofNat']
      omega
    · refine ⟨_, List.mem_cons_self, ?_⟩
      rw [UInt8.toNat_ofNat']
      omega

theorem digitValue?_eq_some_iff {value : UInt8} :
    digitValue? code = some value ↔ IsHexDigit (codeChar code) value.toNat := by
  rw [digitValue?, Option.map_eq_some_iff]
  constructor
  · rintro ⟨d, hd, rfl⟩
    have hdigit := hexDigit?_eq_some_iff.mp hd
    rwa [UInt8.toNat_ofNat_of_lt' (Nat.lt_trans hdigit.1 (by decide))]
  · intro h
    exact ⟨value.toNat, hexDigit?_eq_some_iff.mpr h, UInt8.ofNat_toNat⟩

theorem digitValue?_eq_none_iff :
    digitValue? code = none ↔ ∀ d, ¬IsHexDigit (codeChar code) d := by
  rw [digitValue?, Option.map_eq_none_iff, Option.eq_none_iff_forall_ne_some]
  exact forall_congr' fun d ↦ not_congr hexDigit?_eq_some_iff

/-- The byte that is made of the values of two digits. -/
theorem toNat_mul_add {high low : UInt8} (hhigh : high.toNat < 16) (hlow : low.toNat < 16) :
    (high * 16 + low).toNat = high.toNat * 16 + low.toNat := by
  rw [UInt8.toNat_add, UInt8.toNat_mul]
  change (high.toNat * 16 % 256 + low.toNat) % 256 = _
  omega

/-- Two at a time, digits are read as they are spelled. -/
theorem readPairs_eq_ok_iff (index : Nat) (codes : List UInt8) (heven : codes.length % 2 = 0) :
    readPairs index codes = .ok bytes ↔ SpellsBytes (codes.map codeChar) bytes := by
  fun_induction readPairs index codes generalizing bytes with
  | case1 index high low rest hhigh =>
    refine ⟨nofun, ?_⟩
    rintro ⟨⟩
    next hdigit _ _ => exact absurd hdigit (digitValue?_eq_none_iff.mp hhigh _)
  | case2 index high low rest _ hlow _ =>
    refine ⟨nofun, ?_⟩
    rintro ⟨⟩
    next _ hdigit _ => exact absurd hdigit (digitValue?_eq_none_iff.mp hlow _)
  | case3 index high low rest h l hlow hhigh ih =>
    rw [digitValue?_eq_some_iff] at hhigh hlow
    have hbyte := toNat_mul_add hhigh.1 hlow.1
    have hl := hlow.1
    have hrest : rest.length % 2 = 0 := by
      rw [List.length_cons, List.length_cons] at heven
      omega
    constructor
    · intro hread
      cases hothers : readPairs (index + 2) rest with
      | error error =>
        rw [hothers] at hread
        cases hread
      | ok others =>
        rw [hothers] at hread
        obtain rfl := Except.ok.inj hread
        refine .cons ?_ ?_ ((ih hrest).mp hothers)
        · rwa [hbyte, show (h.toNat * 16 + l.toNat) / 16 = h.toNat by omega]
        · rwa [hbyte, show (h.toNat * 16 + l.toNat) % 16 = l.toNat by omega]
    · rintro ⟨⟩
      next byte others hhigh' hlow' hothers =>
        have hsame : h * 16 + l = byte := by
          apply UInt8.toNat_inj.mp
          rw [hbyte, hhigh.unique hhigh', hlow.unique hlow', Nat.div_add_mod']
        rw [(ih hrest).mpr hothers, ← hsame]
        rfl
  | case4 codes index hshort =>
    match codes with
    | [] =>
      constructor
      · intro hread
        obtain rfl := Except.ok.inj hread
        exact .nil
      · rintro ⟨⟩
        rfl
    | [_] => simp at heven
    | high :: low :: rest => exact (hshort high low rest rfl).elim

/-- The codes of an ASCII text are its characters. -/
theorem map_codeChar_of_ascii (hascii : ∀ c ∈ text, c.toNat < 128) :
    (text.flatMap String.utf8EncodeChar).map codeChar = text := by
  induction text with
  | nil => rfl
  | cons c rest ih =>
    obtain ⟨hc, hrest⟩ := List.forall_mem_cons.mp hascii
    rw [List.flatMap_cons, List.map_append, map_utf8EncodeChar_of_ascii hc, ih hrest]
    rfl

/-- A text whose codes are the digits of some bytes is ASCII. -/
theorem ascii_of_spellsBytes
    (h : SpellsBytes ((text.flatMap String.utf8EncodeChar).map codeChar) bytes) :
    ∀ c ∈ text, c.toNat < 128 := by
  intro c hc
  refine Nat.lt_of_not_le fun hle ↦ ?_
  obtain ⟨code, hcode, hlarge⟩ := exists_mem_utf8EncodeChar hle
  have hmem : codeChar code ∈ (text.flatMap String.utf8EncodeChar).map codeChar :=
    List.mem_map_of_mem (List.mem_flatMap.mpr ⟨c, hc, hcode⟩)
  obtain ⟨d, hdigit⟩ := h.isHexDigit _ hmem
  have hsmall := hdigit.ascii
  rw [toNat_codeChar] at hsmall
  omega

/-- The bytes of a text are those that its digits spell. -/
theorem readBytes_eq_ok_iff : readBytes text = .ok bytes ↔ SpellsBytes text bytes := by
  have hspelled : SpellsBytes ((text.flatMap String.utf8EncodeChar).map codeChar) bytes ↔
      SpellsBytes text bytes := by
    constructor
    · intro h
      rwa [map_codeChar_of_ascii (ascii_of_spellsBytes h)] at h
    · intro h
      rwa [map_codeChar_of_ascii]
      intro c hc
      obtain ⟨d, hdigit⟩ := h.isHexDigit c hc
      exact hdigit.ascii
  rw [← hspelled, readBytes]
  split
  next hodd =>
    refine ⟨nofun, fun h ↦ ?_⟩
    have hlength := h.length_eq
    rw [List.length_map] at hlength
    omega
  next hodd => exact readPairs_eq_ok_iff 0 _ (by omega)

end Reading

end Boot

end InfoScreen
