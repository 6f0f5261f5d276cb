import Calculator.Proofs.FlatMachine
import Calculator.Proofs.Tiling

/-!
# Blanks between tokens do not matter

Blanks may be inserted into a text wherever no token is torn apart. The text
then scans into the same tokens, since no spelling holds a blank, and only the
offsets behind the insertion move. So parsing gives the same tree, or the same
fault at the place where its cause has moved to.
-/

namespace Calculator

/-! ## Moving positions -/

/-- Where a position of a text lies after `distance` bytes were inserted at an
offset. -/
def shifted (offset distance position : Nat) : Nat :=
  if offset ≤ position then position + distance else position

/-- A lexeme after an insertion that does not lie inside it. -/
def Lexeme.shift (offset distance : Nat) (lexeme : Lexeme) : Lexeme :=
  if offset ≤ lexeme.start then ⟨lexeme.token, lexeme.start + distance, lexeme.stop + distance⟩
  else lexeme

/-- An unrecognized character after an insertion. -/
def Unrecognized.shift (offset distance : Nat) (unrecognized : Unrecognized) : Unrecognized :=
  ⟨unrecognized.character, shifted offset distance unrecognized.position⟩

/-- A fault after an insertion. Its texts and its limit stay as they are. -/
def Fault.shift (offset distance : Nat) : Fault → Fault
  | .unrecognized cause => .unrecognized (cause.shift offset distance)
  | .emptyInput => .emptyInput
  | .unexpectedToken expected found position =>
    .unexpectedToken expected found (shifted offset distance position)
  | .unexpectedEnd expected position => .unexpectedEnd expected (shifted offset distance position)
  | .unclosedGroup openedAt position =>
    .unclosedGroup (shifted offset distance openedAt) (shifted offset distance position)
  | .trailingToken token position => .trailingToken token (shifted offset distance position)
  | .nestingTooDeep limit position => .nestingTooDeep limit (shifted offset distance position)

/-- The scan of a text after an insertion. -/
def Scan.shift (offset distance : Nat) (scan : Scan) : Scan :=
  ⟨scan.lexemes.map (Lexeme.shift offset distance),
    scan.fault.map (Unrecognized.shift offset distance), scan.size + distance⟩

/-- How far scanning has come does not depend on the lexemes found. -/
theorem Scan.reach_cons (lexeme : Lexeme) (lexemes : List Lexeme) (fault : Option Unrecognized)
    (size : Nat) : reach ⟨lexeme :: lexemes, fault, size⟩ = reach ⟨lexemes, fault, size⟩ := rfl

section Shifting

variable {offset distance : Nat}

/-- A position behind the insertion moves. -/
theorem shifted_of_le {position : Nat} (hle : offset ≤ position) :
    shifted offset distance position = position + distance :=
  if_pos hle

/-- A lexeme behind the insertion moves. -/
theorem Lexeme.shift_of_le {lexeme : Lexeme} (hle : offset ≤ lexeme.start) :
    lexeme.shift offset distance =
      ⟨lexeme.token, lexeme.start + distance, lexeme.stop + distance⟩ :=
  if_pos hle

/-- A lexeme in front of the insertion stays. -/
theorem Lexeme.shift_of_lt {lexeme : Lexeme} (hlt : lexeme.start < offset) :
    lexeme.shift offset distance = lexeme :=
  if_neg (Nat.not_le.mpr hlt)

/-- An insertion leaves the tokens alone. -/
@[simp] theorem Lexeme.token_shift (lexeme : Lexeme) :
    (lexeme.shift offset distance).token = lexeme.token := by
  unfold shift
  split <;> rfl

/-- A lexeme starts where its start has moved to. -/
@[simp] theorem Lexeme.start_shift (lexeme : Lexeme) :
    (lexeme.shift offset distance).start = shifted offset distance lexeme.start := by
  unfold shift shifted
  split <;> rfl

/-- The tokens of a scan stay the same. -/
theorem Scan.map_token_shift (offset distance : Nat) (scan : Scan) :
    (scan.shift offset distance).lexemes.map Lexeme.token = scan.lexemes.map Lexeme.token := by
  simp only [shift, List.map_map]
  exact List.map_congr_left fun lexeme _ => lexeme.token_shift

end Shifting

/-! ## Dividing a text with inserted blanks -/

/-- A blank ends every spelling, so inserted blanks make none longer. -/
theorem LongestSpelling.insert {part before after blanks : List Char}
    (h : LongestSpelling part (before ++ after)) (hblanks : AllBlank blanks) :
    LongestSpelling part (before ++ (blanks ++ after)) := by
  intro token longer hspelled hprefix
  by_cases hle : longer.length ≤ part.length
  · exact hle
  have hpart : part <+: longer :=
    List.prefix_of_prefix_length_le ⟨_, rfl⟩ hprefix (by omega)
  obtain ⟨extra, rfl⟩ := hpart
  have hextra : extra <+: before ++ (blanks ++ after) :=
    (List.prefix_append_right_inj part).mp hprefix
  cases blanks with
  | nil => exact h hspelled hprefix
  | cons blank blanks =>
    by_cases hshort : extra.length ≤ before.length
    · -- The longer spelling would already stand in the text without the blanks.
      have hbefore : extra <+: before :=
        List.prefix_of_prefix_length_le hextra ⟨_, rfl⟩ hshort
      have hstands : extra <+: before ++ after := hbefore.trans ⟨after, rfl⟩
      exact h hspelled ((List.prefix_append_right_inj part).mpr hstands)
    · have hblank : before ++ [blank] <+: extra := by
        apply List.prefix_of_prefix_length_le _ hextra
        · simp only [List.length_append, List.length_singleton]
          omega
        · exact ⟨blanks ++ after, by simp⟩
      have hmem : blank ∈ part ++ extra :=
        List.mem_append_right _ (hblank.subset (by simp))
      have hnot := hspelled.isBlank_of_mem hmem
      rw [hblanks blank (by simp)] at hnot
      cases hnot

/-- Gaps that meet are one gap. -/
theorem AllBlank.append {first second : List Char} (hfirst : AllBlank first)
    (hsecond : AllBlank second) : AllBlank (first ++ second) := by
  intro c hc
  rcases List.mem_append.mp hc with hc | hc
  · exact hfirst c hc
  · exact hsecond c hc

/-- Part of a gap is a gap. -/
theorem AllBlank.of_append {first second : List Char} (h : AllBlank (first ++ second)) :
    AllBlank first ∧ AllBlank second :=
  ⟨fun c hc => h c (List.mem_append_left _ hc), fun c hc => h c (List.mem_append_right _ hc)⟩

namespace Tiled

variable {offset distance position : Nat} {text : List Char} {lexemes : List Lexeme}
  {fault : Option Unrecognized}

/-- A text that stands further behind is divided in the same way. -/
theorem translate (h : Tiled offset text lexemes fault) (hle : position ≤ offset) :
    Tiled (offset + distance) text (lexemes.map (Lexeme.shift position distance))
      (fault.map (Unrecognized.shift position distance)) := by
  induction h with
  | finished hgap => exact .finished hgap
  | @stopped offset gap rest c hgap hblank hno =>
    have hmoved : shifted position distance (offset + byteSize gap) =
        offset + distance + byteSize gap := by
      rw [shifted_of_le (by omega)]
      omega
    simp only [List.map_nil, Option.map_some, Unrecognized.shift, hmoved]
    exact .stopped hgap hblank hno
  | @lexeme offset gap text rest token lexemes fault hgap hspelled hlongest _ ih =>
    have hrest := ih (by omega)
    have hstart : offset + byteSize gap + distance = offset + distance + byteSize gap := by omega
    have hstop : offset + byteSize gap + byteSize text + distance =
        offset + distance + byteSize gap + byteSize text := by omega
    rw [List.map_cons, Lexeme.shift_of_le (by simp only; omega)]
    simp only [hstart, hstop] at hrest ⊢
    exact .lexeme hgap hspelled hlongest hrest

/-- A gap in front of a text widens its first gap. -/
theorem prepend {gap : List Char} (hgap : AllBlank gap)
    (h : Tiled (offset + byteSize gap) text lexemes fault) :
    Tiled offset (gap ++ text) lexemes fault := by
  induction gap generalizing offset with
  | nil => exact h
  | cons c gap ih =>
    have hblank : isBlank c = true := hgap c (by simp)
    apply cons_blank hblank
    apply ih fun c' hc' => hgap c' (by simp [hc'])
    rwa [byteSize_cons, utf8Size_of_isBlank hblank, ← Nat.add_assoc] at h

/-- Behind part of its first gap a text is divided in the same way. -/
theorem of_prepend {gap : List Char} (hgap : AllBlank gap)
    (h : Tiled offset (gap ++ text) lexemes fault) :
    Tiled (offset + byteSize gap) text lexemes fault := by
  obtain ⟨lexemes', hfound, htiled⟩ := scanFrom_tiled (offset + byteSize gap) [] text
  have hscan := h.scanFrom_eq []
  rw [scanFrom_gap hgap] at hscan
  rw [hscan] at hfound htiled
  have hlexemes : lexemes = lexemes' := hfound
  rw [hlexemes]
  exact htiled

/-- Blanks inserted into the first gap move all that follows. -/
theorem insert_gap {before blanks after : List Char}
    (h : Tiled offset (before ++ after) lexemes fault) (hbefore : AllBlank before)
    (hblanks : AllBlank blanks) :
    Tiled offset (before ++ (blanks ++ after))
      (lexemes.map (Lexeme.shift (offset + byteSize before) (byteSize blanks)))
      (fault.map (Unrecognized.shift (offset + byteSize before) (byteSize blanks))) :=
  prepend hbefore (prepend hblanks ((of_prepend hbefore h).translate (Nat.le_refl _)))

/-- Blanks inserted where they tear no token apart move what is behind them. -/
theorem insert {before blanks after : List Char} (h : Tiled offset text lexemes fault)
    (htext : text = before ++ after) (hblanks : AllBlank blanks)
    (hlexemes : ∀ lexeme ∈ lexemes,
      offset + byteSize before ≤ lexeme.start ∨ lexeme.stop ≤ offset + byteSize before)
    (hfault : ∀ unrecognized, fault = some unrecognized →
      offset + byteSize before ≤ unrecognized.position) :
    Tiled offset (before ++ (blanks ++ after))
      (lexemes.map (Lexeme.shift (offset + byteSize before) (byteSize blanks)))
      (fault.map (Unrecognized.shift (offset + byteSize before) (byteSize blanks))) := by
  -- What is inserted into a gap has only blanks of that gap in front of it.
  have hfront {gap rest before : List Char} (hgap : AllBlank gap)
      (htext : gap ++ rest = before ++ after) (hle : byteSize before ≤ byteSize gap) :
      AllBlank before := by
    obtain ⟨middle, rfl, _⟩ := exists_append_of_byteSize_le htext.symm hle
    exact hgap.of_append.1
  induction h generalizing before with
  | @finished offset gap hgap =>
    subst htext
    exact insert_gap (.finished hgap) hgap.of_append.1 hblanks
  | @stopped offset gap rest c hgap hblank hno =>
    have hle := hfault _ rfl
    have hbefore := hfront hgap htext (by simp only at hle; omega)
    apply insert_gap _ hbefore hblanks
    rw [← htext]
    exact .stopped hgap hblank hno
  | @lexeme offset gap part rest token lexemes fault hgap hspelled hlongest hrest ih =>
    rcases hlexemes _ (List.mem_cons_self ..) with hle | hle
    · have hbefore := hfront hgap htext (by simp only at hle; omega)
      apply insert_gap _ hbefore hblanks
      rw [← htext]
      exact .lexeme hgap hspelled hlongest hrest
    · have hpos := hspelled.byteSize_pos
      simp only at hle
      rw [← List.append_assoc] at htext
      obtain ⟨middle, rfl, rfl⟩ := exists_append_of_byteSize_le htext
        (by rw [byteSize_append]; omega)
      have hoffset : offset + byteSize gap + byteSize part + byteSize middle =
          offset + byteSize (gap ++ part ++ middle) := by
        simp only [byteSize_append]
        omega
      have hih := ih rfl
        (by rw [hoffset]; exact fun lexeme hlexeme => hlexemes lexeme (by simp [hlexeme]))
        (by rw [hoffset]; exact hfault)
      rw [hoffset] at hih
      rw [List.map_cons, Lexeme.shift_of_lt (by simp only [byteSize_append]; omega),
        List.append_assoc, List.append_assoc]
      exact .lexeme hgap hspelled (hlongest.insert hblanks) hih

/-- A text can be divided at every offset inside a gap. -/
theorem exists_split (h : Tiled offset text lexemes fault) {size : Nat}
    (hsize : offset + byteSize text = size) {gap : Nat × Nat}
    (hgap : gap ∈ gapsAround offset (Scan.reach ⟨lexemes, fault, size⟩) lexemes)
    (hstart : gap.1 ≤ position) (hstop : position ≤ gap.2) :
    ∃ before after, text = before ++ after ∧ offset + byteSize before = position := by
  obtain ⟨part, behind, ⟨before, rfl, hbefore, hpart⟩, hblank⟩ := h.blank hsize gap hgap
  have hone : ∀ c ∈ part, c.utf8Size = 1 := fun c hc => utf8Size_of_isBlank (hblank c hc)
  have hlength := byteSize_eq_length hone
  have htake : byteSize (part.take (position - gap.1)) = position - gap.1 := by
    rw [byteSize_eq_length fun c hc => hone c (List.mem_of_mem_take hc), List.length_take]
    omega
  refine ⟨before ++ part.take (position - gap.1), part.drop (position - gap.1) ++ behind, ?_, ?_⟩
  · rw [List.append_assoc, ← List.append_assoc (part.take _), List.take_append_drop]
  · rw [byteSize_append, htake]
    omega

/-- Scanning comes no less far than the offset at which it starts. -/
theorem le_reach (h : Tiled offset text lexemes fault) {size : Nat}
    (hsize : offset + byteSize text = size) : offset ≤ Scan.reach ⟨lexemes, fault, size⟩ := by
  induction h with
  | finished _ =>
    rw [← hsize]
    exact Nat.le_add_right _ _
  | stopped _ _ _ => exact Nat.le_add_right _ _
  | lexeme _ _ _ _ ih =>
    simp only [byteSize_append] at hsize
    have hle := ih (by omega)
    rw [Scan.reach_cons]
    omega

/-- A gap lies outside every lexeme and ends no further behind than scanning has
come. -/
theorem outside (h : Tiled offset text lexemes fault) {size : Nat}
    (hsize : offset + byteSize text = size) {gap : Nat × Nat}
    (hgap : gap ∈ gapsAround offset (Scan.reach ⟨lexemes, fault, size⟩) lexemes)
    (hstart : gap.1 ≤ position) (hstop : position ≤ gap.2) :
    offset ≤ position ∧ position ≤ Scan.reach ⟨lexemes, fault, size⟩ ∧
      ∀ lexeme ∈ lexemes, position ≤ lexeme.start ∨ lexeme.stop ≤ position := by
  induction h with
  | finished _ =>
    rw [List.mem_singleton.mp hgap] at hstart hstop
    exact ⟨hstart, hstop, by simp⟩
  | stopped _ _ _ =>
    rw [List.mem_singleton.mp hgap] at hstart hstop
    exact ⟨hstart, hstop, by simp⟩
  | @lexeme offset gap text rest _ _ _ _ _ _ hrest ih =>
    have hbehind : offset + byteSize gap + byteSize text + byteSize rest = size := by
      simp only [byteSize_append] at hsize
      omega
    rw [Scan.reach_cons] at hgap ⊢
    rcases List.mem_cons.mp hgap with rfl | hgap
    · -- The gap in front of the first lexeme is in front of all of them.
      simp only at hstart hstop
      have hreach := hrest.le_reach hbehind
      refine ⟨by omega, by omega, ?_⟩
      intro lexeme hlexeme
      rcases List.mem_cons.mp hlexeme with rfl | hlexeme
      · exact Or.inl hstop
      · have hle := (hrest.start_lt_stop lexeme hlexeme).1
        omega
    · obtain ⟨hle, hend, hlexemes⟩ := ih hbehind hgap
      refine ⟨by omega, hend, ?_⟩
      intro lexeme hlexeme
      rcases List.mem_cons.mp hlexeme with rfl | hlexeme
      · exact Or.inr hle
      · exact hlexemes lexeme hlexeme

end Tiled

/-! ## Offsets between tokens -/

/-- Every lexeme ends one gap and starts another. -/
theorem exists_gapsAround {lexemes : List Lexeme} {lexeme : Lexeme} (hlexeme : lexeme ∈ lexemes)
    (start stop : Nat) :
    (∃ before, (before, lexeme.start) ∈ gapsAround start stop lexemes) ∧
      ∃ behind, (lexeme.stop, behind) ∈ gapsAround start stop lexemes := by
  induction lexemes generalizing start with
  | nil => cases hlexeme
  | cons first rest ih =>
    rcases List.mem_cons.mp hlexeme with rfl | hlexeme
    · refine ⟨⟨start, by simp [gapsAround]⟩, ?_⟩
      cases rest with
      | nil => exact ⟨stop, by simp [gapsAround]⟩
      | cons second rest => exact ⟨second.start, by simp [gapsAround]⟩
    · obtain ⟨⟨before, hbefore⟩, behind, hbehind⟩ := ih hlexeme first.stop
      exact ⟨⟨before, List.mem_cons_of_mem _ hbefore⟩, behind, List.mem_cons_of_mem _ hbehind⟩

/-- The last gap ends where scanning does. -/
theorem exists_gapsAround_last (lexemes : List Lexeme) (start stop : Nat) :
    ∃ before, (before, stop) ∈ gapsAround start stop lexemes := by
  induction lexemes generalizing start with
  | nil => exact ⟨start, by simp [gapsAround]⟩
  | cons lexeme lexemes ih =>
    obtain ⟨before, hbefore⟩ := ih lexeme.stop
    exact ⟨before, List.mem_cons_of_mem _ hbefore⟩

/-- The offsets of a text that lie between its tokens. -/
inductive Scan.Between (scan : Scan) : Nat → Prop
  /-- A lexeme starts here. The end of the input is one, too. -/
  | start {lexeme : Lexeme} : .ok lexeme ∈ scan.items → Between scan lexeme.start
  /-- A lexeme ends here. -/
  | stop {lexeme : Lexeme} : .ok lexeme ∈ scan.items → Between scan lexeme.stop
  /-- The offset lies in a gap. -/
  | gap {first last offset : Nat} : (first, last) ∈ gapsAround 0 scan.reach scan.lexemes →
      first ≤ offset → offset ≤ last → Between scan offset
  /-- The character at which scanning stops stands here. -/
  | fault {unrecognized : Unrecognized} : .error unrecognized ∈ scan.items →
      Between scan unrecognized.position

/-- The items of a scan are its lexemes and what stands at its end. -/
theorem Scan.mem_items {scan : Scan} {item : Except Unrecognized Lexeme}
    (hitem : item ∈ scan.items) :
    (∃ lexeme ∈ scan.lexemes, item = .ok lexeme) ∨
      item = .ok ⟨.endOfInput, scan.reach, scan.reach⟩ ∨
      ∃ unrecognized, item = .error unrecognized ∧ unrecognized.position = scan.reach := by
  unfold items at hitem
  rcases List.mem_append.mp hitem with hlexeme | hlast
  · obtain ⟨lexeme, hmem, rfl⟩ := List.mem_map.mp hlexeme
    exact Or.inl ⟨lexeme, hmem, rfl⟩
  · rw [List.mem_singleton.mp hlast]
    cases hfault : scan.fault with
    | none =>
      have hreach : scan.reach = scan.size := by simp only [reach, hfault]
      rw [hreach]
      exact Or.inr (Or.inl rfl)
    | some unrecognized =>
      have hreach : scan.reach = unrecognized.position := by simp only [reach, hfault]
      exact Or.inr (Or.inr ⟨unrecognized, rfl, hreach.symm⟩)

/-- Every offset between tokens lies in a gap or at its edge. -/
theorem Scan.Between.exists_gap {source : String} {offset : Nat}
    (h : (scan source).Between offset) :
    ∃ gap ∈ gapsAround 0 (scan source).reach (scan source).lexemes,
      gap.1 ≤ offset ∧ offset ≤ gap.2 := by
  have hordered : ∀ gap ∈ gapsAround 0 (scan source).reach (scan source).lexemes,
      gap.1 ≤ gap.2 := by
    intro gap hgap
    obtain ⟨part, behind, ⟨before, _, _, hstop⟩, _⟩ :=
      (scan_tiled source).blank (by rw [Nat.zero_add, byteSize_toList]) gap hgap
    omega
  obtain ⟨last, hlast⟩ :=
    exists_gapsAround_last (scan source).lexemes 0 (scan source).reach
  have hreach : ∃ gap ∈ gapsAround 0 (scan source).reach (scan source).lexemes,
      gap.1 ≤ (scan source).reach ∧ (scan source).reach ≤ gap.2 :=
    ⟨_, hlast, hordered _ hlast, Nat.le_refl _⟩
  cases h with
  | start hitem =>
    rcases mem_items hitem with ⟨_, hlexeme, heq⟩ | heq | ⟨_, heq, _⟩ <;> cases heq
    · obtain ⟨⟨before, hgap⟩, _⟩ := exists_gapsAround hlexeme 0 (scan source).reach
      exact ⟨_, hgap, hordered _ hgap, Nat.le_refl _⟩
    · exact hreach
  | stop hitem =>
    rcases mem_items hitem with ⟨_, hlexeme, heq⟩ | heq | ⟨_, heq, _⟩ <;> cases heq
    · obtain ⟨_, behind, hgap⟩ := exists_gapsAround hlexeme 0 (scan source).reach
      exact ⟨_, hgap, Nat.le_refl _, hordered _ hgap⟩
    · exact hreach
  | gap hgap hfirst hlast => exact ⟨_, hgap, hfirst, hlast⟩
  | fault hitem =>
    rcases mem_items hitem with ⟨_, _, heq⟩ | heq | ⟨_, heq, hposition⟩ <;> cases heq
    rw [hposition]
    exact hreach

/-- Blanks inserted between tokens leave the tokens as they are, and move those
behind the insertion. -/
theorem scan_insert {before after blanks : String} (hblanks : AllBlank blanks.toList)
    (hbetween : (scan (before ++ after)).Between before.utf8ByteSize) :
    scan (before ++ blanks ++ after) =
      (scan (before ++ after)).shift before.utf8ByteSize blanks.utf8ByteSize := by
  have htiled := scan_tiled (before ++ after)
  obtain ⟨gap, hgap, hfirst, hlast⟩ := hbetween.exists_gap
  obtain ⟨_, hreach, hlexemes⟩ :=
    htiled.outside (by rw [Nat.zero_add, byteSize_toList]) hgap hfirst hlast
  have hfault : ∀ unrecognized, (scan (before ++ after)).fault = some unrecognized →
      before.utf8ByteSize ≤ unrecognized.position := by
    intro unrecognized hfault
    simpa only [Scan.reach, hfault] using hreach
  have hposition : before.utf8ByteSize = 0 + byteSize before.toList := by
    rw [Nat.zero_add, byteSize_toList]
  rw [hposition] at hlexemes hfault
  have hinserted := htiled.insert String.toList_append hblanks hlexemes hfault
  rw [← hposition, byteSize_toList, ← List.append_assoc, ← String.toList_append,
    ← String.toList_append] at hinserted
  rw [scan_eq_of_tiled hinserted, Scan.shift]
  congr 1
  simp only [scan, String.utf8ByteSize_append]
  omega

/-! ## The machine on moved items -/

section Machines

variable {offset distance limit size : Nat}

/-- An item of a scan after an insertion. -/
def shiftItem (offset distance : Nat) : Except Unrecognized Lexeme → Except Unrecognized Lexeme
  | .error unrecognized => .error (unrecognized.shift offset distance)
  | .ok lexeme => .ok (lexeme.shift offset distance)

/-- The machine after an insertion: the open parentheses have moved. -/
def Machine.shift (offset distance : Nat) (m : Machine) : Machine :=
  { m with opened := m.opened.map (shifted offset distance) }

/-- The items of a scan move with it, if the end of the text lies behind the
insertion. -/
theorem Scan.items_shift {scan : Scan} (hsize : offset ≤ scan.size) :
    (scan.shift offset distance).items = scan.items.map (shiftItem offset distance) := by
  obtain ⟨lexemes, fault, size⟩ := scan
  have hend : (Lexeme.atEnd size).shift offset distance = Lexeme.atEnd (size + distance) :=
    Lexeme.shift_of_le hsize
  cases fault with
  | none => simp [items, shift, shiftItem, hend]
  | some unrecognized => simp [items, shift, shiftItem]

/-- What the machine expects as an operand does not depend on positions. -/
theorem Machine.readOperand_shift (m : Machine) (lexeme : Lexeme) :
    (m.shift offset distance).readOperand limit (shifted offset distance size)
        (lexeme.shift offset distance) =
      ((m.readOperand limit size lexeme).map (shift offset distance)).mapError
        (Fault.shift offset distance) := by
  obtain ⟨mode, opened, started⟩ := m
  unfold readOperand
  rw [lexeme.token_shift, lexeme.start_shift]
  cases lexeme.token with
  | number value => rfl
  | leftParen =>
    simp only [shift, List.length_map]
    split <;> rfl
  | endOfInput => cases started <;> rfl
  | operator op => rfl
  | rightParen => rfl

/-- What the machine expects behind an operand does not depend on positions. -/
theorem Machine.readOperator_shift (m : Machine) (lexeme : Lexeme) :
    (m.shift offset distance).readOperator (shifted offset distance size)
        (lexeme.shift offset distance) =
      ((m.readOperator size lexeme).map (shift offset distance)).mapError
        (Fault.shift offset distance) := by
  obtain ⟨mode, opened, started⟩ := m
  unfold readOperator
  rw [lexeme.token_shift, lexeme.start_shift]
  cases lexeme.token <;> cases opened <;> rfl

/-- The machine takes the same step on a moved item. -/
theorem Machine.step_shift (offset distance limit size : Nat) (m : Machine)
    (item : Except Unrecognized Lexeme) :
    (m.shift offset distance).step limit (shifted offset distance size)
        (shiftItem offset distance item) =
      ((m.step limit size item).map (shift offset distance)).mapError
        (Fault.shift offset distance) := by
  obtain unrecognized | lexeme := item
  · rfl
  · obtain ⟨mode, opened, started⟩ := m
    cases mode with
    | operand => exact readOperand_shift ⟨.operand, opened, started⟩ lexeme
    | operator => exact readOperator_shift ⟨.operator, opened, started⟩ lexeme

/-- The machine fails on moved items where it fails on the items. -/
theorem Machine.run_shift (offset distance : Nat) {m : Machine}
    {items : List (Except Unrecognized Lexeme)} {found : Fault}
    (hrun : m.run limit size items = .error found) :
    (m.shift offset distance).run limit (shifted offset distance size)
      (items.map (shiftItem offset distance)) = .error (found.shift offset distance) := by
  induction items generalizing m with
  | nil => cases hrun
  | cons item items ih =>
    have hmoved := step_shift offset distance limit size m item
    cases hstep : m.step limit size item with
    | error found' =>
      rw [run_of_step_error hstep] at hrun
      cases hrun
      rw [hstep] at hmoved
      exact run_of_step_error hmoved _
    | ok m' =>
      rw [run_of_step hstep] at hrun
      rw [hstep] at hmoved
      rw [List.map_cons, run_of_step hmoved]
      exact ih hrun

end Machines

/-! ## Parsing with inserted blanks -/

/-- A moved scan is read into the same tree, or to the moved fault. -/
theorem expression_shift {s s' : Cursor} {scan : Scan} {offset distance limit : Nat}
    (hsize : offset ≤ scan.size) (hfaces : s.Faces scan 0 limit)
    (hfaces' : s'.Faces (scan.shift offset distance) 0 limit) :
    s'.expression.1 = s.expression.1.mapError (Fault.shift offset distance) := by
  have htokens := Scan.map_token_shift offset distance scan
  cases hread : s.expression.1 with
  | ok tree =>
    obtain ⟨hfault, hderives, hdeep⟩ := hfaces.derives_of_expression (Prod.ext hread rfl)
    have hfault' : (scan.shift offset distance).fault = none := by
      simp only [Scan.shift, hfault, Option.map_none]
    rw [← htokens] at hderives hdeep
    obtain ⟨_, hread'⟩ := hfaces'.expression_of_derives hfault' hderives hdeep
    rw [hread']
    rfl
  | error found =>
    have hrun := (hfaces.expression_eq_error_iff found).mp hread
    have hmoved := Machine.run_shift offset distance hrun
    rw [shifted_of_le hsize, ← Scan.items_shift hsize] at hmoved
    exact (hfaces'.expression_eq_error_iff _).mpr hmoved

/-- Blanks between tokens do not matter. The text can be divided at every offset
between its tokens, and with blanks inserted there it is parsed into the same
tree, or fails with the same fault, in which every position at the offset or
behind it has moved by the size of the blanks. -/
theorem Settings.parse_insert_blanks (settings : Settings) (source blanks : String) (offset : Nat)
    (hoffset : (scan source).Between offset) (hblanks : AllBlank blanks.toList) :
    (∃ before after, source = before ++ after ∧ before.utf8ByteSize = offset) ∧
    ∀ before after, source = before ++ after → before.utf8ByteSize = offset →
      settings.parse (before ++ blanks ++ after) =
        (settings.parse source).mapError (Fault.shift offset blanks.utf8ByteSize) := by
  obtain ⟨gap, hgap, hfirst, hlast⟩ := hoffset.exists_gap
  constructor
  · obtain ⟨before, after, htext, hposition⟩ :=
      (scan_tiled source).exists_split (by rw [Nat.zero_add, byteSize_toList]) hgap hfirst hlast
    refine ⟨String.ofList before, String.ofList after, ?_, ?_⟩
    · rw [← String.ofList_append, ← htext, String.ofList_toList]
    · rw [Nat.zero_add] at hposition
      exact hposition
  · rintro before after rfl rfl
    have hsize : before.utf8ByteSize ≤ (scan (before ++ after)).size := by
      simp only [scan, String.utf8ByteSize_append]
      omega
    rw [settings.parse_eq_untraced, settings.parse_eq_untraced]
    apply expression_shift hsize (Cursor.faces_ofSource _ _)
    rw [← scan_insert hblanks hoffset]
    exact Cursor.faces_ofSource _ _

/-- Blanks in front of an operator move the character that is refused behind
it. -/
theorem Settings.parse_insert_blanks_at_operator :
    (scan "1+$").Between 1 ∧ AllBlank " \t".toList ∧
      Settings.parse {} "1 \t+$" = (Settings.parse {} "1+$").mapError (Fault.shift 1 2) := by
  have hscan : scan "1+$" =
      ⟨[⟨.number 1, 0, 1⟩, ⟨.operator .add, 1, 2⟩], some ⟨'$', 2⟩, 3⟩ := by decide +kernel
  have hoffset : (scan "1+$").Between 1 := by
    rw [hscan]
    have hmem : Except.ok ⟨.operator .add, 1, 2⟩ ∈ Scan.items
        ⟨[⟨.number 1, 0, 1⟩, ⟨.operator .add, 1, 2⟩], some ⟨'$', 2⟩, 3⟩ := by simp [Scan.items]
    exact .start hmem
  have hblanks : AllBlank " \t".toList := by
    intro c hc
    have hchars : c = ' ' ∨ c = '\t' := by simpa using hc
    rcases hchars with rfl | rfl <;> decide
  exact ⟨hoffset, hblanks,
    (Settings.parse_insert_blanks {} "1+$" " \t" 1 hoffset hblanks).2 "1" "+$" rfl rfl⟩

end Calculator
