import Calculator.Proofs.Accounting
import Calculator.Proofs.Facing
import Calculator.Proofs.Scanning

/-!
# What lies ahead of a cursor

Ahead of a cursor are the lookahead and the upcoming lexemes, and behind them the
fault of the scan or the end of the input. A look ahead moves the border between
lookahead and upcoming lexemes, but nothing of what lies ahead. A cursor that is
used through calls never holds the end of the input in front of anything else.
-/

namespace Calculator

/-- The rest of the scan that lies ahead. The end of the input is no lexeme of it,
also when it is the lookahead. -/
def Cursor.rest (s : Cursor) : Scan :=
  ⟨(s.lookahead.toList ++ s.upcoming).filter Lexeme.isReal, s.fault, s.size⟩

/-- What a cursor still delivers, one after the other: the lexemes ahead, and at
last the end of the input or the unrecognized character. -/
def Cursor.items (s : Cursor) : List (Except Unrecognized Lexeme) := s.rest.items

namespace Cursor

/-- A look at a lexeme, or at the end of the input, leaves the same ahead. -/
theorem rest_of_peek {s s₁ : Cursor} {ahead : Lexeme} (hpeek : s.peek = (.ok ahead, s₁)) :
    s₁.rest = s.rest := by
  rcases s.peek_cases with ⟨ahead', _, hcase⟩ | ⟨ahead', more, hlookahead, hupcoming, hcase⟩ |
    ⟨cause, _, _, _, hcase⟩ | ⟨hlookahead, hupcoming, _, hcase⟩
  · rw [hcase] at hpeek
    cases hpeek
    rfl
  · rw [hcase] at hpeek
    cases hpeek
    simp [rest, hlookahead, hupcoming]
  · rw [hcase] at hpeek
    cases hpeek
  · rw [hcase] at hpeek
    cases hpeek
    simp [rest, hlookahead, hupcoming, Lexeme.isReal, Lexeme.atEnd]

/-- A look ahead passes no lexeme, also where it meets the fault. -/
theorem lexemes_rest_peek (s : Cursor) : s.peek.2.rest.lexemes = s.rest.lexemes := by
  unfold peek
  split <;> simp_all [rest, Lexeme.isReal, Lexeme.atEnd]

/-- A look ahead opens and closes no group. -/
theorem nesting_peek (s : Cursor) : s.peek.2.nesting = s.nesting := by
  unfold peek
  split <;> rfl

/-- The lexemes pending are those of the rest of the scan. -/
theorem pending_eq_length_rest (s : Cursor) : s.pending = s.rest.lexemes.length :=
  List.countP_eq_length_filter

end Cursor

/-! ## Cursors that are ready to read -/

/-- An untraced cursor that keeps to its limit, with the end of the input nowhere
but at the end. -/
structure Cursor.Ready (s : Cursor) : Prop where
  /-- The end of the input is not among the upcoming lexemes. -/
  upcoming_real : ∀ lexeme ∈ s.upcoming, lexeme.isReal = true
  /-- The end of the input is the lookahead only when nothing else is ahead. -/
  lookahead_end : ∀ ahead, s.lookahead = some ahead → ahead.isReal = false →
    ahead = Lexeme.atEnd s.size ∧ s.upcoming = [] ∧ s.fault = none
  /-- No more groups are open than may be. -/
  nesting_le : s.nesting ≤ s.limit
  /-- Nothing is recorded. -/
  disabled : s.tracer.enabled = false

namespace Cursor

variable {s : Cursor} {ahead : Scan} {nesting limit : Nat}

/-- A cursor that is ready faces the rest of the scan. -/
theorem Ready.faces (h : s.Ready) : s.Faces s.rest s.nesting s.limit := by
  refine ⟨?_, rfl, rfl, rfl, rfl, h.nesting_le, fun _ hlexeme => (List.mem_filter.mp hlexeme).2,
    h.disabled⟩
  have hupcoming : s.upcoming.filter Lexeme.isReal = s.upcoming :=
    List.filter_eq_self.mpr h.upcoming_real
  unfold rest
  cases hlookahead : s.lookahead with
  | none =>
    rw [Option.toList_none, List.nil_append, hupcoming]
    exact .unseen ..
  | some ahead =>
    cases hreal : ahead.isReal with
    | true =>
      rw [Option.toList_some, List.singleton_append, List.filter_cons_of_pos hreal, hupcoming]
      exact .seen ..
    | false =>
      obtain ⟨rfl, hnothing, hfault⟩ := h.lookahead_end ahead hlookahead hreal
      rw [hnothing, hfault]
      exact .ended s.size

/-- A cursor that faces the rest of a scan is ready to read it. -/
theorem Faces.ready (h : s.Faces ahead nesting limit) : s.Ready ∧ s.rest = ahead := by
  obtain ⟨lookahead, upcoming, fault, size, nesting', limit', tracer⟩ := s
  obtain ⟨hpresented, hfault, hsize, hnesting, hlimit, hle, hreal, hdisabled⟩ := h
  simp only at hpresented hfault hsize hnesting hlimit hdisabled
  subst hfault hsize hnesting hlimit
  cases hpresented with
  | unseen =>
    refine ⟨⟨hreal, (fun _ hahead => nomatch hahead), hle, hdisabled⟩, ?_⟩
    simpa [rest] using hreal
  | seen lexeme =>
    rw [List.forall_mem_cons] at hreal
    refine ⟨⟨hreal.2, ?_, hle, hdisabled⟩, ?_⟩
    · rintro _ ⟨⟩ hend
      rw [hreal.1] at hend
      cases hend
    · simpa [rest, hreal.1] using hreal.2
  | ended =>
    refine ⟨⟨hreal, ?_, hle, hdisabled⟩, rfl⟩
    rintro _ ⟨⟩ _
    exact ⟨rfl, rfl, rfl⟩

/-- Through every sequence of calls the tracer stays enabled or disabled. -/
theorem enabled_after (s : Cursor) (calls : List Call) :
    (s.after calls).tracer.enabled = s.tracer.enabled := by
  induction calls generalizing s with
  | nil => rfl
  | cons call calls ih =>
    have hperform := Contract.recording_kept.perform
      (fun _ => Tracer.consumptions_consume _ _) s call
    exact (ih _).trans hperform.1

/-- Whatever calls are made on the untraced cursor of a text, also when some fail,
they leave a cursor that is ready. -/
theorem ready_after (source : String) (limit : Nat) (calls : List Call) :
    ((ofSource source {} limit).after calls).Ready := by
  have hfollows := (follows_ofSource source {} limit).after calls
  have hreal := scan_isReal source
  have hstart : (ofSource source {} limit).nesting ≤ limit := Nat.zero_le limit
  obtain ⟨hlimit, hnesting⟩ := nesting_le_after hstart calls
  have hdisabled := (ofSource source {} limit).enabled_after calls
  refine ⟨?_, ?_, by rw [hlimit]; exact hnesting, hdisabled⟩
  · intro lexeme hlexeme
    rcases hfollows.ahead with ⟨_, hlexemes⟩ | ⟨_, hupcoming, _⟩
    · apply hreal
      rw [← hlexemes]
      exact List.mem_append_right _ hlexeme
    · rw [hupcoming] at hlexeme
      cases hlexeme
  · intro ahead hahead hend
    rcases hfollows.ahead with ⟨_, hlexemes⟩ | ⟨hfault, hupcoming, hatEnd, _⟩
    · have hmem : ahead ∈ (scan source).lexemes := by
        rw [← hlexemes, hahead]
        simp
      rw [hreal ahead hmem] at hend
      cases hend
    · rw [hfollows.size_eq]
      exact ⟨hatEnd ahead hahead, hupcoming, hfault⟩

end Cursor

end Calculator
