import Calculator.Proofs.Rules

/-!
# What a cursor faces

The lookahead hides whether the next lexeme has been looked at. What matters to
an untraced rule is the rest of the scan that lies ahead, whether its first
lexeme is already the lookahead or not. The operations of a cursor are
described here by what they do to that rest.
-/

namespace Calculator

/-- The lookahead and the upcoming lexemes of a cursor present the rest of a
scan. -/
inductive Scan.Presented : Scan → Option Lexeme → List Lexeme → Prop
  /-- The next lexeme has not been looked at. -/
  | unseen (lexemes : List Lexeme) (fault : Option Unrecognized) (size : Nat) :
      Presented ⟨lexemes, fault, size⟩ none lexemes
  /-- The next lexeme has been looked at. -/
  | seen (lexeme : Lexeme) (lexemes : List Lexeme) (fault : Option Unrecognized) (size : Nat) :
      Presented ⟨lexeme :: lexemes, fault, size⟩ (some lexeme) lexemes
  /-- The end of the input has been looked at. -/
  | ended (size : Nat) : Presented ⟨[], none, size⟩ (some (Lexeme.atEnd size)) []

/-- An untraced cursor with the rest of a scan ahead and with `nesting` groups
open out of `limit`. -/
structure Cursor.Faces (s : Cursor) (ahead : Scan) (nesting limit : Nat) : Prop where
  /-- The lexemes of the scan are those ahead of the cursor. -/
  presented : ahead.Presented s.lookahead s.upcoming
  /-- The fault of the scan has not been reported. -/
  fault_eq : s.fault = ahead.fault
  /-- The scan ends where the text of the cursor does. -/
  size_eq : s.size = ahead.size
  /-- The groups that are open. -/
  nesting_eq : s.nesting = nesting
  /-- The groups that may be open. -/
  limit_eq : s.limit = limit
  /-- No more groups are open than may be. -/
  nesting_le : nesting ≤ limit
  /-- The end of the input is not among the lexemes. -/
  real : ∀ lexeme ∈ ahead.lexemes, lexeme.isReal = true
  /-- Nothing is recorded. -/
  disabled : s.tracer.enabled = false

namespace Cursor.Faces

variable {s : Cursor} {ahead : Scan} {lexeme : Lexeme} {lexemes : List Lexeme}
  {fault : Option Unrecognized} {size nesting limit : Nat}

/-- Looking at a lexeme changes nothing ahead, and consuming it then removes
it. -/
theorem peek_cons (h : s.Faces ⟨lexeme :: lexemes, fault, size⟩ nesting limit) :
    ∃ s₁, s.peek = (.ok lexeme, s₁) ∧ s₁.Faces ⟨lexeme :: lexemes, fault, size⟩ nesting limit ∧
      (s₁.consume lexeme).Faces ⟨lexemes, fault, size⟩ nesting limit := by
  obtain ⟨lookahead, upcoming, fault', size', nesting', limit', tracer⟩ := s
  obtain ⟨hpresented, hfault, hsize, hnesting, hlimit, hle, hreal, hdisabled⟩ := h
  have hrest : ∀ lexeme ∈ lexemes, lexeme.isReal = true := fun l hl =>
    hreal l (List.mem_cons_of_mem _ hl)
  have hquiet : (tracer.consume lexeme).enabled = false := by
    unfold Tracer.consume
    split <;> exact hdisabled
  simp only at hpresented
  cases hpresented with
  | unseen =>
    exact ⟨_, rfl, ⟨.seen .., hfault, hsize, hnesting, hlimit, hle, hreal, hdisabled⟩,
      ⟨.unseen .., hfault, hsize, hnesting, hlimit, hle, hrest, hquiet⟩⟩
  | seen =>
    exact ⟨_, rfl, ⟨.seen .., hfault, hsize, hnesting, hlimit, hle, hreal, hdisabled⟩,
      ⟨.unseen .., hfault, hsize, hnesting, hlimit, hle, hrest, hquiet⟩⟩

/-- At the end of the text a look finds the end of the input. -/
theorem peek_end (h : s.Faces ⟨[], none, size⟩ nesting limit) :
    ∃ s₁, s.peek = (.ok (Lexeme.atEnd size), s₁) ∧ s₁.Faces ⟨[], none, size⟩ nesting limit := by
  obtain ⟨lookahead, upcoming, fault', size', nesting', limit', tracer⟩ := s
  obtain ⟨hpresented, hfault, hsize, hnesting, hlimit, hle, hreal, hdisabled⟩ := h
  simp only at hpresented hfault hsize
  subst hfault hsize
  cases hpresented with
  | unseen => exact ⟨_, rfl, ⟨.ended _, rfl, rfl, hnesting, hlimit, hle, hreal, hdisabled⟩⟩
  | ended => exact ⟨_, rfl, ⟨.ended _, rfl, rfl, hnesting, hlimit, hle, hreal, hdisabled⟩⟩

/-- Behind the last lexeme a look meets the fault of the scan. -/
theorem peek_fault {unrecognized : Unrecognized}
    (h : s.Faces ⟨[], some unrecognized, size⟩ nesting limit) :
    ∃ s₁, s.peek = (.error (.unrecognized unrecognized), s₁) := by
  obtain ⟨lookahead, upcoming, fault', size', nesting', limit', tracer⟩ := s
  obtain ⟨hpresented, hfault, hsize, hnesting, hlimit, hle, hreal, hdisabled⟩ := h
  simp only at hpresented hfault
  subst hfault
  cases hpresented with
  | unseen => exact ⟨_, rfl⟩

/-- A lexeme that was looked at is the first one ahead, or the end of the input
behind the last one. -/
theorem of_peek_ok {s₁ : Cursor} (h : s.Faces ⟨lexemes, fault, size⟩ nesting limit)
    (hpeek : s.peek = (.ok lexeme, s₁)) :
    s₁.Faces ⟨lexemes, fault, size⟩ nesting limit ∧
      ((∃ rest, lexemes = lexeme :: rest ∧
          (s₁.consume lexeme).Faces ⟨rest, fault, size⟩ nesting limit) ∨
        (lexemes = [] ∧ fault = none ∧ lexeme = Lexeme.atEnd size)) := by
  cases lexemes with
  | cons first rest =>
    obtain ⟨s₂, hpeek₂, hfaces, hconsume⟩ := h.peek_cons
    rw [hpeek₂] at hpeek
    cases hpeek
    exact ⟨hfaces, Or.inl ⟨rest, rfl, hconsume⟩⟩
  | nil =>
    cases fault with
    | none =>
      obtain ⟨s₂, hpeek₂, hfaces⟩ := h.peek_end
      rw [hpeek₂] at hpeek
      cases hpeek
      exact ⟨hfaces, Or.inr ⟨rfl, rfl, rfl⟩⟩
    | some unrecognized =>
      obtain ⟨s₂, hpeek₂⟩ := h.peek_fault
      rw [hpeek₂] at hpeek
      cases hpeek

/-- A look fails only with the fault of the scan, and behind its last lexeme. -/
theorem of_peek_error {s₁ : Cursor} {found : Fault}
    (h : s.Faces ⟨lexemes, fault, size⟩ nesting limit) (hpeek : s.peek = (.error found, s₁)) :
    lexemes = [] ∧ ∃ unrecognized, fault = some unrecognized ∧
      found = .unrecognized unrecognized := by
  cases lexemes with
  | cons first rest =>
    obtain ⟨s₂, hpeek₂, _⟩ := h.peek_cons
    rw [hpeek₂] at hpeek
    cases hpeek
  | nil =>
    cases fault with
    | none =>
      obtain ⟨s₂, hpeek₂, _⟩ := h.peek_end
      rw [hpeek₂] at hpeek
      cases hpeek
    | some unrecognized =>
      obtain ⟨s₂, hpeek₂⟩ := h.peek_fault
      rw [hpeek₂] at hpeek
      cases hpeek
      exact ⟨rfl, unrecognized, rfl, rfl⟩

/-- A group is opened if the limit allows it. -/
theorem openGroup_eq (h : s.Faces ahead nesting limit) (hlt : nesting < limit) (position : Nat) :
    ∃ s₁, s.openGroup position = (.ok (), s₁) ∧ s₁.Faces ahead (nesting + 1) limit := by
  have hopen : ¬ s.limit ≤ s.nesting := by
    rw [h.limit_eq, h.nesting_eq]
    omega
  refine ⟨{ s with nesting := s.nesting + 1 }, by simp only [openGroup, if_neg hopen], ?_⟩
  exact ⟨h.presented, h.fault_eq, h.size_eq, congrArg (· + 1) h.nesting_eq, h.limit_eq, hlt, h.real,
    h.disabled⟩

/-- No group is opened beyond the limit. -/
theorem openGroup_error (h : s.Faces ahead limit limit) (position : Nat) :
    s.openGroup position = (.error (.nestingTooDeep limit position), s) := by
  have hfull : s.limit ≤ s.nesting := Nat.le_of_eq (h.limit_eq.trans h.nesting_eq.symm)
  unfold openGroup
  rw [if_pos hfull, h.limit_eq]

/-- A group that was opened is one of the groups open. -/
theorem of_openGroup_ok {s₁ : Cursor} {position : Nat} (h : s.Faces ahead nesting limit)
    (hopen : s.openGroup position = (.ok (), s₁)) : s₁.Faces ahead (nesting + 1) limit := by
  by_cases hlt : nesting < limit
  · obtain ⟨s₂, hopen₂, hfaces⟩ := h.openGroup_eq hlt position
    rw [hopen₂] at hopen
    cases hopen
    exact hfaces
  · have hfull : nesting = limit := Nat.le_antisymm h.nesting_le (Nat.le_of_not_lt hlt)
    subst hfull
    rw [h.openGroup_error position] at hopen
    cases hopen

/-- A group is refused only when as many are open as may be. -/
theorem of_openGroup_error {s₁ : Cursor} {position : Nat} {found : Fault}
    (h : s.Faces ahead nesting limit) (hopen : s.openGroup position = (.error found, s₁)) :
    nesting = limit ∧ found = .nestingTooDeep limit position := by
  by_cases hlt : nesting < limit
  · obtain ⟨s₂, hopen₂, _⟩ := h.openGroup_eq hlt position
    rw [hopen₂] at hopen
    cases hopen
  · have hfull : nesting = limit := Nat.le_antisymm h.nesting_le (Nat.le_of_not_lt hlt)
    subst hfull
    rw [h.openGroup_error position] at hopen
    cases hopen
    exact ⟨rfl, rfl⟩

/-- Closing a group leaves one less open. -/
theorem closeGroup (h : s.Faces ahead (nesting + 1) limit) :
    s.closeGroup.Faces ahead nesting limit :=
  ⟨h.presented, h.fault_eq, h.size_eq, by simp [Cursor.closeGroup, h.nesting_eq], h.limit_eq,
    Nat.le_of_succ_le h.nesting_le, h.real, h.disabled⟩

end Cursor.Faces

end Calculator
