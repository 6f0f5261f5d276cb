import Calculator.Scan
import Calculator.Trace

/-!
# Cursors

A cursor goes through the lexemes of a scan one at a time, with one lexeme of
lookahead. It also counts the groups that are open and drives the tracer. Every
operation answers with a result and the cursor it leaves behind, also when it
fails, since a cursor can be used further after a fault.
-/

namespace Calculator

/-- The lexemes still to be read, and the state of reading them. -/
structure Cursor where
  /-- The lexeme that was looked at but not consumed. -/
  lookahead : Option Lexeme
  /-- The lexemes behind the lookahead. -/
  upcoming : List Lexeme
  /-- The character behind the upcoming lexemes that begins no token. It is
  reported once. -/
  fault : Option Unrecognized
  /-- The number of bytes of the text, where its end lies. -/
  size : Nat
  /-- The number of open groups. -/
  nesting : Nat
  /-- How many groups may be open at once. -/
  limit : Nat
  /-- The record of what happened. -/
  tracer : Tracer
  deriving DecidableEq

/-- The cursor at the start of a text. -/
def Cursor.ofSource (source : String) (tracer : Tracer) (limit : Nat) : Cursor :=
  let scanned := scan source
  { lookahead := none, upcoming := scanned.lexemes, fault := scanned.fault, size := scanned.size,
    nesting := 0, limit, tracer }

/-- The number of lexemes ahead, not counting the end of the input. -/
def Cursor.pending (s : Cursor) : Nat :=
  (s.lookahead.toList ++ s.upcoming).countP Lexeme.isReal

/-- Looks at the next lexeme without consuming it. Behind the last lexeme comes
the fault of the scan, once, and then the end of the input for ever. -/
def Cursor.peek (s : Cursor) : Except Fault Lexeme × Cursor :=
  match s.lookahead, s.upcoming, s.fault with
  | some ahead, _, _ => (.ok ahead, s)
  | none, ahead :: rest, _ => (.ok ahead, { s with lookahead := some ahead, upcoming := rest })
  | none, [], some fault => (.error (.unrecognized fault), { s with fault := none })
  | none, [], none =>
    (.ok (Lexeme.atEnd s.size), { s with lookahead := some (Lexeme.atEnd s.size) })

/-- Drops the lookahead, which is `ahead`, and records that it is consumed. -/
def Cursor.consume (s : Cursor) (ahead : Lexeme) : Cursor :=
  { s with lookahead := none, tracer := s.tracer.consume ahead }

/-- Goes on after a successful operation, and keeps a fault with its cursor. -/
@[inline]
def andThen {α β : Type} (r : Except Fault α × Cursor)
    (next : α → Cursor → Except Fault β × Cursor) : Except Fault β × Cursor :=
  match r with
  | (.error fault, s) => (.error fault, s)
  | (.ok a, s) => next a s

/-- Takes the next lexeme. -/
def Cursor.advance (s : Cursor) : Except Fault Lexeme × Cursor :=
  andThen s.peek fun ahead s => (.ok ahead, s.consume ahead)

/-- Notes that a rule is entered. Only an enabled tracer has a look at the
lexeme ahead, and then meets the fault of the scan if that is what comes next. -/
def Cursor.enter (s : Cursor) (rule : String) : Except Fault Unit × Cursor :=
  if s.tracer.enabled then
    andThen s.peek fun ahead s => (.ok (), { s with tracer := s.tracer.enter rule ahead })
  else (.ok (), s)

/-- Notes that a rule is left, looking ahead in the same way as `Cursor.enter`. -/
def Cursor.exit (s : Cursor) (rule : String) : Except Fault Unit × Cursor :=
  if s.tracer.enabled then
    andThen s.peek fun ahead s => (.ok (), { s with tracer := s.tracer.exit rule ahead })
  else (.ok (), s)

/-- Opens a group whose parenthesis stands at `position`, unless as many groups
are open as may be. -/
def Cursor.openGroup (s : Cursor) (position : Nat) : Except Fault Unit × Cursor :=
  if s.limit ≤ s.nesting then (.error (.nestingTooDeep s.limit position), s)
  else (.ok (), { s with nesting := s.nesting + 1 })

/-- Closes the innermost open group. -/
def Cursor.closeGroup (s : Cursor) : Cursor :=
  { s with nesting := s.nesting - 1 }

/-! ## What lies ahead -/

/-- Looking ahead loses no lexeme. -/
theorem Cursor.pending_peek (s : Cursor) : s.peek.2.pending = s.pending := by
  unfold peek
  split <;> simp_all [pending, Lexeme.isReal, Lexeme.atEnd]

/-- A lexeme that was looked at is the lookahead. -/
theorem Cursor.lookahead_of_peek {s s₁ : Cursor} {ahead : Lexeme}
    (hpeek : s.peek = (.ok ahead, s₁)) : s₁.lookahead = some ahead := by
  unfold peek at hpeek
  split at hpeek <;> simp_all <;> grind

/-- Consuming a lexeme other than the end of the input leaves fewer ahead. -/
theorem Cursor.pending_consume_lt {s : Cursor} {ahead : Lexeme}
    (hahead : s.lookahead = some ahead) (hreal : ahead.isReal = true) :
    (s.consume ahead).pending < s.pending := by
  simp [pending, consume, hahead, hreal]

/-- Entering a rule consumes nothing. -/
theorem Cursor.pending_enter (s : Cursor) (rule : String) :
    (s.enter rule).2.pending = s.pending := by
  have hpeek := s.pending_peek
  unfold enter
  split
  · cases h : s.peek with
    | mk r s₁ => cases r <;> simp_all [andThen, pending]
  · rfl

/-- Leaving a rule consumes nothing. -/
theorem Cursor.pending_exit (s : Cursor) (rule : String) :
    (s.exit rule).2.pending = s.pending := by
  have hpeek := s.pending_peek
  unfold exit
  split
  · cases h : s.peek with
    | mk r s₁ => cases r <;> simp_all [andThen, pending]
  · rfl

/-- Opening a group consumes nothing. -/
theorem Cursor.pending_openGroup (s : Cursor) (position : Nat) :
    (s.openGroup position).2.pending = s.pending := by
  unfold openGroup
  split <;> rfl

/-- Closing a group consumes nothing. -/
theorem Cursor.pending_closeGroup (s : Cursor) : s.closeGroup.pending = s.pending := rfl

/-- Entering a rule leaves the lexemes ahead as they are. -/
theorem Cursor.pending_of_enter {s s₁ : Cursor} {rule : String} {r : Except Fault Unit}
    (henter : s.enter rule = (r, s₁)) : s₁.pending = s.pending := by
  have h := s.pending_enter rule
  rwa [henter] at h

/-- Looking ahead leaves the lexemes ahead as they are. -/
theorem Cursor.pending_of_peek {s s₁ : Cursor} {r : Except Fault Lexeme}
    (hpeek : s.peek = (r, s₁)) : s₁.pending = s.pending := by
  have h := s.pending_peek
  rwa [hpeek] at h

/-- Opening a group leaves the lexemes ahead as they are. -/
theorem Cursor.pending_of_openGroup {s s₁ : Cursor} {position : Nat} {r : Except Fault Unit}
    (hopen : s.openGroup position = (r, s₁)) : s₁.pending = s.pending := by
  have h := s.pending_openGroup position
  rwa [hopen] at h

/-- Consuming what was looked at leaves fewer lexemes ahead, the end of the
input excepted. -/
theorem Cursor.pending_consume_of_peek {s s₁ : Cursor} {ahead : Lexeme}
    (hpeek : s.peek = (.ok ahead, s₁)) (hreal : ahead.isReal = true) :
    (s₁.consume ahead).pending < s.pending :=
  pending_of_peek hpeek ▸ pending_consume_lt (lookahead_of_peek hpeek) hreal

end Calculator
