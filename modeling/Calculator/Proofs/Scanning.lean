import Calculator.Scan

/-!
# The order of the lexemes of a scan

Scanning goes through a text from its front, so the lexemes start at increasing
offsets, and the character at which scanning stops lies behind all of them. The
end of the input is none of the lexemes.
-/

namespace Calculator

/-- No character stands for the end of the input. -/
theorem Token.ofChar?_ne_endOfInput {c : Char} {token : Token} (h : Token.ofChar? c = some token) :
    token ≠ .endOfInput := by
  rintro rfl
  unfold Token.ofChar? at h
  split at h <;> simp at h

/-- A literal that starts with a digit covers at least one byte. -/
theorem Literal.size_split_pos {c : Char} (rest : List Char) (hdigit : c.isDigit = true) :
    0 < (split (c :: rest)).1.size := by
  have hwhole : 0 < (split (c :: rest)).1.whole.length := by
    simp [split, hdigit]
  unfold size
  split <;> omega

/-- Whatever was found before, scanning adds no end of the input to it. -/
theorem scanFrom_isReal (offset : Nat) (found : List Lexeme) (text : List Char)
    (hfound : ∀ lexeme ∈ found, lexeme.isReal = true) :
    ∀ lexeme ∈ (scanFrom offset found text).1, lexeme.isReal = true := by
  fun_induction scanFrom offset found text with
  | case1 offset found => simpa using hfound
  | case2 offset found c rest hblank ih => exact ih hfound
  | case3 offset found c rest hblank token htoken ih =>
    apply ih
    intro lexeme hlexeme
    rcases List.mem_cons.mp hlexeme with rfl | hlexeme
    · have hne := Token.ofChar?_ne_endOfInput htoken
      cases token <;> simp_all [Lexeme.isReal]
    · exact hfound lexeme hlexeme
  | case4 offset found c rest hblank htoken hdigit literal stop ih =>
    apply ih
    intro lexeme hlexeme
    rcases List.mem_cons.mp hlexeme with rfl | hlexeme
    · rfl
    · exact hfound lexeme hlexeme
  | case5 offset found c rest hblank htoken hdigit => simpa using hfound

/-- The lexemes of a scan are all real. -/
theorem scan_isReal (source : String) :
    ∀ lexeme ∈ (scan source).lexemes, lexeme.isReal = true :=
  scanFrom_isReal 0 [] source.toList (by simp)

/-- The lexemes start at increasing offsets, and a fault lies behind them. -/
structure Scan.Ascending (lexemes : List Lexeme) (fault : Option Unrecognized) : Prop where
  /-- Each lexeme starts in front of the later ones. -/
  starts : lexemes.Pairwise fun first second => first.start < second.start
  /-- The fault is behind every lexeme. -/
  fault_behind : ∀ unrecognized, fault = some unrecognized →
    ∀ lexeme ∈ lexemes, lexeme.start < unrecognized.position

/-- Scanning keeps the order, if what was found before lies in front of the
offset in reverse order. -/
theorem scanFrom_ascending (offset : Nat) (found : List Lexeme) (text : List Char)
    (hfound : found.Pairwise fun second first => first.start < second.start)
    (hbelow : ∀ lexeme ∈ found, lexeme.start < offset) :
    Scan.Ascending (scanFrom offset found text).1 (scanFrom offset found text).2 := by
  have hnext {token : Token} {offset stop : Nat} {found : List Lexeme} (hlt : offset < stop)
      (hbelow : ∀ lexeme ∈ found, lexeme.start < offset) :
      ∀ lexeme ∈ (⟨token, offset, stop⟩ : Lexeme) :: found, lexeme.start < stop := by
    intro lexeme hlexeme
    rcases List.mem_cons.mp hlexeme with rfl | hlexeme
    · exact hlt
    · exact Nat.lt_trans (hbelow lexeme hlexeme) hlt
  fun_induction scanFrom offset found text with
  | case1 offset found =>
    refine ⟨List.pairwise_reverse.mpr hfound, ?_⟩
    intro unrecognized h
    cases h
  | case2 offset found c rest hblank ih =>
    exact ih hfound fun lexeme hlexeme => Nat.lt_succ_of_lt (hbelow lexeme hlexeme)
  | case3 offset found c rest hblank token htoken ih =>
    exact ih (List.pairwise_cons.mpr ⟨hbelow, hfound⟩) (hnext (Nat.lt_succ_self _) hbelow)
  | case4 offset found c rest hblank htoken hdigit literal stop ih =>
    have hlt : offset < stop := Nat.lt_add_of_pos_right (Literal.size_split_pos rest hdigit)
    exact ih (List.pairwise_cons.mpr ⟨hbelow, hfound⟩) (hnext hlt hbelow)
  | case5 offset found c rest hblank htoken hdigit =>
    refine ⟨List.pairwise_reverse.mpr hfound, ?_⟩
    intro unrecognized h lexeme hlexeme
    cases h
    exact hbelow lexeme (List.mem_reverse.mp hlexeme)

/-- The lexemes and the fault of a scan are in the order of the text. -/
theorem scan_ascending (source : String) :
    Scan.Ascending (scan source).lexemes (scan source).fault :=
  scanFrom_ascending 0 [] source.toList List.Pairwise.nil (by simp)

end Calculator
