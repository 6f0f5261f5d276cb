import Calculator.Proofs.Reconstruction

/-!
# Written numbers are scanned back

The text of a finite number is that of a literal, behind a minus sign if the
number has one. Scanning this text finds the number again, with all its bits, and
nothing else. So the leaves of a rendered tree can be taken as literals, and no
two numbers have the same text.
-/

namespace Calculator

/-- The characters are digits, a point, and digits again, at least one on each
side. -/
def IsPointed (chars : List Char) : Prop :=
  ∃ whole fraction : List Char, chars = whole ++ '.' :: fraction ∧ whole ≠ [] ∧ fraction ≠ [] ∧
    ∀ c ∈ whole ++ fraction, c.isDigit = true

/-- A literal with a fraction is digits around a point. -/
theorem Literal.Proper.isPointed {literal : Literal} (hproper : literal.Proper)
    (hfraction : literal.fraction ≠ []) : IsPointed literal.chars := by
  refine ⟨literal.whole, literal.fraction, chars_pointed _ hfraction, hproper.whole_ne_nil,
    hfraction, ?_⟩
  intro c hc
  rcases List.mem_append.mp hc with hwhole | hbehind
  · exact hproper.whole_digits c hwhole
  · exact hproper.fraction_digits c hbehind

/-- The text of a literal is made of this literal alone. -/
theorem Literal.Proper.tiled {literal : Literal} (hproper : literal.Proper) (offset : Nat) :
    Tiled offset literal.chars
      [⟨.number literal.value, offset, offset + byteSize literal.chars⟩] none := by
  have hlongest : LongestSpelling literal.chars [] := by
    intro token longer _ hprefix
    simpa using hprefix.length_le
  have htiled : Tiled offset (literal.chars ++ []) _ none :=
    .cons_lexeme (.number hproper) hlongest (.finished allBlank_nil)
  rwa [List.append_nil] at htiled

namespace Number

open Float.Model Float.Model.UnpackedFloat

/-! ## Numbers with a sign -/

/-- The numbers with a pattern below infinity are finite. -/
theorem isFinite_iff_pattern {value : Float} :
    value.isFinite = true ↔ pattern value < Magnitude.infinity := by
  refine ⟨pattern_lt_of_isFinite, ?_⟩
  intro hpattern
  have hexponent : ¬ @unpackExponent Format.binary64 value.toBits.toBitVec = -1#11 := by
    rw [unpackExponent_eq_max_iff]
    exact Nat.not_le.mpr hpattern
  have hunpack : (UnpackedFloat.unpack Format.binary64 value.toBits.toBitVec).isFinite = true := by
    rw [UnpackedFloat.unpack, if_neg hexponent]
    split_ifs <;> rfl
  exact hunpack

/-- Negating twice changes nothing. -/
theorem unpacked_neg_neg (unpacked : UnpackedFloat) : unpacked.neg.neg = unpacked := by
  cases unpacked with
  | zero sign => cases sign <;> rfl
  | finite sign => cases sign <;> rfl
  | infinity sign => cases sign <;> rfl
  | notANumber => rfl

/-- Negation clears the sign bit. -/
theorem neg_eq_ofBits_pattern {value : Float} (hsign : signBit ≤ value.toBits.toNat)
    (hnumber : pattern value ≤ Magnitude.infinity) :
    -value = Float.ofBits (UInt64.ofNat (pattern value)) := by
  have hplain := toNat_ofNat_pattern hnumber
  have hopposite : UnpackedFloat.unpack Format.binary64 value.toBits.toBitVec =
      (UnpackedFloat.unpack Format.binary64 (UInt64.ofNat (pattern value)).toBitVec).neg :=
    unpack_signed (hplain.trans_le hnumber) (by
      rw [UInt64.toNat_toBitVec, UInt64.toNat_toBitVec, hplain, signBit_add_pattern hsign])
  calc -value
      = .ofModel (Float.Model.pack
          (UnpackedFloat.unpack Format.binary64 value.toBits.toBitVec).neg) := rfl
    _ = .ofModel (Float.Model.pack (UnpackedFloat.unpack Format.binary64
          (UInt64.ofNat (pattern value)).toBitVec)) := by rw [hopposite, unpacked_neg_neg]
    _ = Float.ofBits (UInt64.ofNat (pattern value)) := rfl

/-- Without its sign, a number has its pattern as bits. -/
theorem toNat_toBits_neg {value : Float} (hsign : signBit ≤ value.toBits.toNat)
    (hnumber : pattern value ≤ Magnitude.infinity) :
    (-value).toBits.toNat = pattern value := by
  rw [neg_eq_ofBits_pattern hsign hnumber, toBits_ofBits_pattern hnumber,
    toNat_ofNat_pattern hnumber]

/-- A finite number with a sign is opposite to a finite number without one. -/
theorem isFinite_neg {value : Float} (hfinite : value.isFinite = true)
    (hsign : signBit ≤ value.toBits.toNat) :
    (-value).isFinite = true ∧ (-value).toBits.toNat < signBit := by
  have hpattern := pattern_lt_of_isFinite hfinite
  have hbits := toNat_toBits_neg hsign (Nat.le_of_lt hpattern)
  have hinfinity : Magnitude.infinity < signBit := by decide
  have hunsigned : (-value).toBits.toNat < signBit := by omega
  refine ⟨?_, hunsigned⟩
  rw [isFinite_iff_pattern, pattern, Nat.mod_eq_of_lt hunsigned, hbits]
  exact hpattern

/-! ## The text of a number -/

/-- A finite number without a sign is written as a literal with its value. -/
theorem exists_literal_of_isFinite {value : Float} (hfinite : value.isFinite = true)
    (hsign : value.toBits.toNat < signBit) :
    ∃ literal : Literal, literal.Proper ∧ literal.fraction ≠ [] ∧
      literal.chars = (pointedText value).toList ∧ literal.value = value := by
  have hpattern := pattern_lt_of_isFinite hfinite
  obtain ⟨literal, hproper, hfraction, hchars, hvalue⟩ := exists_literal hpattern
  refine ⟨literal, hproper, hfraction, ?_, ?_⟩
  · rw [pointedText, String.toList_ofList, spelled_eq_magnitudeText (Nat.le_of_lt hpattern),
      if_neg (Nat.not_le.mpr hsign), hchars]
  · rw [hvalue, ofBits_pattern hsign]

/-- A number with a sign is written as its opposite behind a minus sign. -/
theorem pointedText_neg {value : Float} (hfinite : value.isFinite = true)
    (hsign : signBit ≤ value.toBits.toNat) :
    pointedText value = "-" ++ pointedText (-value) := by
  have hpattern := Nat.le_of_lt (pattern_lt_of_isFinite hfinite)
  have hunsigned := (isFinite_neg hfinite hsign).2
  have hsame : pattern (-value) = pattern value := by
    rw [pattern, Nat.mod_eq_of_lt hunsigned, toNat_toBits_neg hsign hpattern]
  have hopposite : pattern (-value) ≤ Magnitude.infinity := by rwa [hsame]
  apply String.toList_inj.mp
  rw [pointedText, pointedText, String.toList_append, String.toList_ofList, String.toList_ofList,
    spelled_eq_magnitudeText hpattern, if_pos hsign, spelled_eq_magnitudeText hopposite,
    if_neg (Nat.not_le.mpr hunsigned), hsame, String.toList_ofList, List.singleton_append]

/-! ## Scanning the text -/

/-- The text is a literal with a fraction, and scanning it finds the number from
its first byte to its last, and then the end. -/
structure IsLiteralOf (text : String) (value : Float) : Prop where
  /-- The text is digits around a point. -/
  pointed : IsPointed text.toList
  /-- Nothing but the number is found in the text. -/
  scanned : (scan text).items =
    [.ok ⟨.number value, 0, text.utf8ByteSize⟩, .ok (Lexeme.atEnd text.utf8ByteSize)]

/-- A finite number without a sign is written as a literal. -/
theorem isLiteralOf_pointedText {value : Float} (hfinite : value.isFinite = true)
    (hsign : value.toBits.toNat < signBit) : IsLiteralOf (pointedText value) value := by
  obtain ⟨literal, hproper, hfraction, hchars, hvalue⟩ := exists_literal_of_isFinite hfinite hsign
  have htiled := hproper.tiled 0
  rw [hchars, hvalue, byteSize_toList, Nat.zero_add] at htiled
  refine ⟨?_, ?_⟩
  · rw [← hchars]
    exact hproper.isPointed hfraction
  · rw [scan_eq_of_tiled htiled]
    rfl

/-- In the text of a finite number with a sign, the minus sign and the opposite
number are found. -/
theorem items_scan_pointedText {value : Float} (hfinite : value.isFinite = true)
    (hsign : signBit ≤ value.toBits.toNat) :
    (scan (pointedText value)).items =
      [.ok ⟨.operator .subtract, 0, 1⟩, .ok ⟨.number (-value), 1, (pointedText value).utf8ByteSize⟩,
        .ok (Lexeme.atEnd (pointedText value).utf8ByteSize)] := by
  obtain ⟨hfinite', hunsigned⟩ := isFinite_neg hfinite hsign
  obtain ⟨literal, hproper, _, hchars, hvalue⟩ := exists_literal_of_isFinite hfinite' hunsigned
  have htext : (pointedText value).toList = ['-'] ++ literal.chars := by
    rw [pointedText_neg hfinite hsign, String.toList_append, hchars]
    rfl
  have hsize : (pointedText value).utf8ByteSize = 1 + byteSize literal.chars := by
    rw [← byteSize_toList, htext, byteSize_append]
    rfl
  have htiled : Tiled 0 (['-'] ++ literal.chars) _ none :=
    .cons_lexeme (.operator .subtract) (longestSpelling_symbol rfl _) (hproper.tiled _)
  rw [← htext] at htiled
  rw [scan_eq_of_tiled htiled, hsize, hvalue]
  rfl

/-- Numbers with the same text are the same. -/
theorem eq_of_pointedText_eq {value other : Float} (htext : pointedText value = pointedText other) :
    value = other := by
  have hspelled : spelled Decimal.pointed value = spelled Decimal.pointed other :=
    String.ofList_injective htext
  have hread := read?_spelled value
  rw [hspelled, read?_spelled other] at hread
  exact (Option.some.inj hread).symm

end Number

/-- The leaves of a tree are among the words of its text. -/
theorem Tree.mem_words_of_mem_leaves {t : Tree} {value : Float} (hvalue : value ∈ t.leaves) :
    (Number.pointedText value).toList ∈ t.render.toList.splitOn ' ' := by
  rw [← t.filterMap_number?_items] at hvalue
  obtain ⟨item, hmem, hnumber⟩ := List.mem_filterMap.mp hvalue
  have hitem : item = .number value := by
    cases item <;> simp_all [Item.number?]
  rw [t.words_render, Number.pointedText, String.toList_ofList]
  exact List.mem_map.mpr ⟨item, hmem, by rw [hitem]; rfl⟩

/-- The text of a finite number without a sign is a literal, and scanning it finds
exactly this number. The text of a finite number with a sign is that of the
opposite number behind a minus sign, and both are found in it. A finite leaf of a
parsed tree is a word of the rendered tree that is a literal and denotes the leaf.
No two numbers have the same text. -/
theorem Number.pointedText_scanned_back :
    (∀ value : Float, value.isFinite = true → value.toBits.toNat < signBit →
      IsLiteralOf (pointedText value) value) ∧
    (∀ value : Float, value.isFinite = true → signBit ≤ value.toBits.toNat →
      (-value).isFinite = true ∧ (-value).toBits.toNat < signBit ∧
      pointedText value = "-" ++ pointedText (-value) ∧
      (scan (pointedText value)).items =
        [.ok ⟨.operator .subtract, 0, 1⟩,
          .ok ⟨.number (-value), 1, (pointedText value).utf8ByteSize⟩,
          .ok (Lexeme.atEnd (pointedText value).utf8ByteSize)]) ∧
    (∀ {settings : Settings} {source : String} {tree : Tree}, settings.parse source = .ok tree →
      ∀ value ∈ tree.leaves, value.isFinite = true →
        (pointedText value).toList ∈ tree.render.toList.splitOn ' ' ∧
        IsLiteralOf (pointedText value) value) ∧
    Function.Injective pointedText := by
  refine ⟨fun _ => isLiteralOf_pointedText, ?_, ?_, fun _ _ => eq_of_pointedText_eq⟩
  · intro value hfinite hsign
    obtain ⟨hfinite', hunsigned⟩ := isFinite_neg hfinite hsign
    exact ⟨hfinite', hunsigned, pointedText_neg hfinite hsign,
      items_scan_pointedText hfinite hsign⟩
  · intro settings source tree hparse value hvalue hfinite
    have hmagnitude : value.toBits.toNat ≤ Magnitude.infinity :=
      Settings.isMagnitude_of_parse hparse value hvalue
    have hunsigned : value.toBits.toNat < signBit := Nat.lt_of_le_of_lt hmagnitude (by decide)
    exact ⟨Tree.mem_words_of_mem_leaves hvalue, isLiteralOf_pointedText hfinite hunsigned⟩

-- Negative zero keeps its sign in the text.
example : Number.pointedText (-0.0) = "-0.0" ∧
    (scan "-0.0").lexemes = [⟨.operator .subtract, 0, 1⟩, ⟨.number 0.0, 1, 4⟩] := by
  decide +kernel

end Calculator
