import Calculator.Proofs.Ahead
import Calculator.Proofs.Control

/-!
# The rules come to an end

Control goes down from rule to rule without a lexeme being consumed only a few
times in a row. Every group and every turn of a loop that goes on consumes one,
and what is left on the stack takes a few steps for each call. Hence every call of
a rule comes back after a number of steps that is linear in the lexemes ahead,
whatever the limit and the tracer are, and however the cursor was used before.

What a rule consumes are the next lexemes ahead, at least one if it succeeds, and
never the end of the input.
-/

namespace Calculator

variable {α : Type}

/-! ## What one step does -/

/-- The number of lexemes ahead. -/
def Control.pending : Control → Nat
  | .call _ s _ _ => s.pending
  | .answer r _ _ => r.2.pending

/-- How far down a rule can go until a lexeme is consumed or a call comes back. -/
def Rule.rank : Rule → Nat
  | .expression => 9
  | .chain .additive => 7
  | .chain .multiplicative => 4
  | .factor => 1

/-- A turn of a loop comes back unless it consumes an operator. -/
def Task.rank : Task → Nat
  | .rule called => called.rank
  | .turn _ _ => 1

/-- Every task takes a step. -/
theorem Task.rank_pos (task : Task) : 0 < task.rank := by
  rcases task with (_ | (_ | _) | _) | _ <;> exact Nat.succ_pos _

/-- The steps behind a call that has come back, up to one that consumes a lexeme.
Two of the frames lead to a turn of a loop. -/
def Frame.weight : Frame → Nat
  | .finish => 1
  | .begin _ => 2
  | .join _ _ _ => 2
  | .close _ => 1

/-- Every frame takes a step. -/
theorem Frame.weight_pos (frame : Frame) : 0 < frame.weight := by
  cases frame <;> exact Nat.succ_pos _

/-- What one step can do. -/
inductive Control.Leads : Control → Control → Prop
  /-- A call comes back. -/
  | back {task : Task} {s : Cursor} {stack : List Frame} {taken taken' : List Lexeme}
      {r : Reading} : r.2.pending ≤ s.pending →
      Leads (.call task s stack taken) (.answer r stack taken')
  /-- A rule calls the one below it, not for a group. -/
  | down {rule below : Rule} {s s' : Cursor} {frame : Frame} {stack : List Frame}
      {taken : List Lexeme} : s'.pending ≤ s.pending → below.rank + frame.weight < rule.rank →
      (∀ openedAt, frame ≠ .close openedAt) →
      Leads (.call (.rule rule) s stack taken) (.call (.rule below) s' (frame :: stack) taken)
  /-- A factor goes into the group whose parenthesis it has consumed. -/
  | inside {s s' : Cursor} {openedAt : Nat} {stack : List Frame} {taken taken' : List Lexeme} :
      s'.pending < s.pending →
      Leads (.call (.rule .factor) s stack taken)
        (.call (.rule (.chain .additive)) s' (.close openedAt :: stack) taken')
  /-- A loop goes on behind the operator that it has consumed. -/
  | goesOn {p : Precedence} {op : Operator} {left : Tree} {operand : Rule} {s s' : Cursor}
      {stack : List Frame} {taken taken' : List Lexeme} : s'.pending < s.pending →
      operand.rank ≤ 4 →
      Leads (.call (.turn p left) s stack taken)
        (.call (.rule operand) s' (.join p op left :: stack) taken')
  /-- An answer is handed to the caller, which comes back too. -/
  | up {r r' : Reading} {frame : Frame} {stack : List Frame} {taken taken' : List Lexeme} :
      r'.2.pending ≤ r.2.pending →
      Leads (.answer r (frame :: stack) taken) (.answer r' stack taken')
  /-- A loop takes its next turn. -/
  | round {p : Precedence} {tree left : Tree} {s : Cursor} {frame : Frame} {stack : List Frame}
      {taken : List Lexeme} : 1 < frame.weight →
      Leads (.answer (.ok tree, s) (frame :: stack) taken) (.call (.turn p left) s stack taken)

/-- A sequence leaves no more lexemes ahead than its operations. -/
theorem pending_andThen_le {β : Type} {r : Except Fault α × Cursor}
    {next : α → Cursor → Except Fault β × Cursor} {n : Nat} (hr : r.2.pending ≤ n)
    (hnext : ∀ a s, s.pending ≤ n → (next a s).2.pending ≤ n) :
    (andThen r next).2.pending ≤ n := by
  obtain ⟨fault | a, s⟩ := r
  · exact hr
  · exact hnext a s hr

/-- The check that nothing is left behind a tree consumes nothing. -/
theorem Cursor.pending_finish_le (s : Cursor) (tree : Tree) :
    (s.finish tree).2.pending ≤ s.pending := by
  apply pending_andThen_le (Nat.le_of_eq s.pending_peek)
  intro ahead s₁ hle
  cases ahead.token <;> exact hle

namespace Control

/-- A call that goes on after an operation, or comes back with its fault. -/
theorem Leads.call_onward {task : Task} {s : Cursor} {stack : List Frame}
    {taken taken' : List Lexeme} {r : Except Fault α × Cursor} {next : α → Cursor → Control}
    (hle : r.2.pending ≤ s.pending)
    (hnext : ∀ a s₁, r = (.ok a, s₁) → Leads (.call task s stack taken) (next a s₁)) :
    Leads (.call task s stack taken) (onward r stack taken' next) := by
  obtain ⟨fault | a, s₁⟩ := r
  · exact .back hle
  · exact hnext a s₁ rfl

/-- What the first step of a rule does. -/
theorem leads_enter (rule : Rule) (s : Cursor) (stack : List Frame) (taken : List Lexeme) :
    Leads (.call (.rule rule) s stack taken) (rule.enter s stack taken) := by
  cases rule with
  | expression =>
    apply Leads.call_onward (Nat.le_of_eq s.pending_peek)
    intro ahead s₁ hpeek
    have hle := Nat.le_of_eq (Cursor.pending_of_peek hpeek)
    split
    · exact .down hle (by decide) (by simp)
    · exact .back hle
  | chain p =>
    apply Leads.call_onward (Nat.le_of_eq (s.pending_enter p.rule))
    intro _ s₁ henter
    exact .down (Nat.le_of_eq (Cursor.pending_of_enter henter)) (by cases p <;> decide) (by simp)
  | factor =>
    apply Leads.call_onward (Nat.le_of_eq (s.pending_enter factorRule))
    intro _ s₁ henter
    have hentered := Cursor.pending_of_enter henter
    apply Leads.call_onward (Nat.le_of_eq (s₁.pending_peek.trans hentered))
    intro ahead s₂ hpeek
    have hpeeked := (Cursor.pending_of_peek hpeek).trans hentered
    have hconsumed (hreal : ahead.isReal = true) : (s₂.consume ahead).pending < s.pending :=
      hentered ▸ Cursor.pending_consume_of_peek hpeek hreal
    cases htoken : ahead.token with
    | number value =>
      have hlt := hconsumed (by simp [Lexeme.isReal, htoken])
      apply Leads.back
      rw [Cursor.pending_leave]
      exact Nat.le_of_lt hlt
    | leftParen =>
      have hlt := hconsumed (by simp [Lexeme.isReal, htoken])
      apply Leads.call_onward
      · rw [Cursor.pending_openGroup]
        exact Nat.le_of_lt hlt
      · intro _ s₃ hopen
        exact .inside (Cursor.pending_of_openGroup hopen ▸ hlt)
    | operator op => exact .back (Nat.le_of_eq hpeeked)
    | rightParen => exact .back (Nat.le_of_eq hpeeked)
    | endOfInput => exact .back (Nat.le_of_eq hpeeked)

/-- What a turn of a loop does. -/
theorem leads_turn (p : Precedence) (left : Tree) (s : Cursor) (stack : List Frame)
    (taken : List Lexeme) :
    Leads (.call (.turn p left) s stack taken) (p.turn left s stack taken) := by
  apply Leads.call_onward (Nat.le_of_eq s.pending_peek)
  intro ahead s₁ hpeek
  have hleave : (s₁.leave p.rule left).2.pending ≤ s.pending :=
    Nat.le_of_eq ((s₁.pending_leave p.rule left).trans (Cursor.pending_of_peek hpeek))
  split
  · rename_i op hop
    split
    · have hlt := Cursor.pending_consume_of_peek hpeek (Lexeme.isReal_of_operator? hop)
      exact .goesOn hlt (by cases p <;> decide)
    · exact .back hleave
  · exact .back hleave

/-- What an answer to a caller does. -/
theorem leads_resume (r : Reading) (frame : Frame) (stack : List Frame) (taken : List Lexeme) :
    Leads (.answer r (frame :: stack) taken)
      (onward r stack taken fun tree s => frame.resume tree s stack taken) := by
  obtain ⟨fault | tree, s⟩ := r
  · exact .up (Nat.le_refl _)
  · cases frame with
    | finish => exact .up (s.pending_finish_le tree)
    | begin p => exact .round Nat.one_lt_two
    | join p op left => exact .round Nat.one_lt_two
    | close openedAt =>
      apply Leads.up
      apply pending_andThen_le (s.pending_close_le openedAt tree)
      intro inner s₁ hle
      rwa [Cursor.pending_leave]

/-- Unless the first call has come back, a step leads on. -/
theorem finished_or_leads (c : Control) :
    (∃ r taken, c = .answer r [] taken) ∨ c.Leads c.step := by
  cases c with
  | call task s stack taken =>
    cases task with
    | rule rule => exact Or.inr (leads_enter rule s stack taken)
    | turn p left => exact Or.inr (leads_turn p left s stack taken)
  | answer r stack taken =>
    cases stack with
    | nil => exact Or.inl ⟨r, taken, rfl⟩
    | cons frame stack => exact Or.inr (leads_resume r frame stack taken)

/-! ## The number of steps -/

/-- What is left to do behind the calls that have not come back. -/
def load : List Frame → Nat
  | [] => 0
  | frame :: stack => frame.weight + load stack

/-- A bound on the steps that are left. A lexeme that is consumed pays for eight of
them. -/
def size : Control → Nat
  | .call task s stack _ => 8 * s.pending + task.rank + load stack
  | .answer r stack _ => 8 * r.2.pending + load stack

/-- Each step leaves less to do. -/
theorem Leads.size_lt {c c' : Control} (h : c.Leads c') : c'.size < c.size := by
  cases h with
  | @back task s stack taken taken' r hle =>
    have hrank := task.rank_pos
    simp only [size]
    omega
  | down hle hrank _ =>
    simp only [size, Task.rank, load]
    omega
  | inside hlt =>
    -- Control may go down as far as from a sum again. The parenthesis pays for it.
    simp only [size, Task.rank, Rule.rank, load, Frame.weight]
    omega
  | goesOn hlt hrank =>
    simp only [size, Task.rank, load, Frame.weight]
    omega
  | @up r r' frame stack taken taken' hle =>
    have hweight := frame.weight_pos
    simp only [size, load]
    omega
  | round hweight =>
    simp only [size, Task.rank, load]
    omega

/-- Steps behind steps. -/
theorem run_add_succ (n m : Nat) (c : Control) : c.run (n + m + 1) = (c.run n).run (m + 1) := by
  rw [Nat.add_assoc, Nat.add_comm]
  exact Function.iterate_add_apply step (m + 1) n c

/-- A final answer stays. -/
theorem run_answer (n : Nat) (r : Reading) (taken : List Lexeme) :
    (answer r [] taken).run n = .answer r [] taken :=
  Function.iterate_fixed rfl n

/-- A run of enough steps comes back. -/
theorem finished_of_size_le {n : Nat} {c : Control} (hn : c.size ≤ n) :
    ∃ r taken, c.run n = .answer r [] taken := by
  induction n generalizing c with
  | zero =>
    rcases c.finished_or_leads with hfinished | hleads
    · exact hfinished
    · have hlt := hleads.size_lt
      omega
  | succ n ih =>
    rcases c.finished_or_leads with ⟨r, taken, rfl⟩ | hleads
    · exact ⟨r, taken, run_answer (n + 1) r taken⟩
    · have hlt := hleads.size_lt
      exact ih (by omega)

/-- It comes back with what is read and consumed. -/
theorem run_of_size_le {n : Nat} {c : Control} (hn : c.size ≤ n) :
    c.run n = .answer c.outcome.1 [] c.outcome.2 := by
  obtain ⟨r, taken, hrun⟩ := finished_of_size_le hn
  have houtcome : (r, taken) = c.outcome := by
    rw [← outcome_run n c, hrun]
    rfl
  rw [hrun, ← houtcome]

/-! ## The lexemes ahead along a run -/

/-- A step puts no lexeme back. -/
theorem Leads.pending_le {c c' : Control} (h : c.Leads c') : c'.pending ≤ c.pending := by
  cases h with
  | back hle => exact hle
  | down hle => exact hle
  | inside hlt => exact Nat.le_of_lt hlt
  | goesOn hlt => exact Nat.le_of_lt hlt
  | up hle => exact hle
  | round => exact Nat.le_refl _

/-- A property that is kept where a step leads is kept along a run. -/
theorem run_induction {P : Control → Prop} (hstep : ∀ {c c'}, P c → c.Leads c' → P c')
    {c : Control} (hc : P c) (n : Nat) : P (c.run n) := by
  induction n generalizing c with
  | zero => exact hc
  | succ n ih =>
    rcases c.finished_or_leads with ⟨r, taken, rfl⟩ | hleads
    · rw [run_answer]
      exact hc
    · exact ih (hstep hc hleads)

/-- A run puts no lexeme back. -/
theorem pending_run_le (n : Nat) (c : Control) : (c.run n).pending ≤ c.pending :=
  run_induction (P := fun c' => c'.pending ≤ c.pending)
    (fun hle hleads => Nat.le_trans hleads.pending_le hle) (Nat.le_refl _) n

/-- Where control goes into a group, fewer lexemes are ahead than ever before. -/
theorem pending_lt_of_inside {n openedAt : Nat} {c : Control} {s : Cursor} {stack : List Frame}
    {taken : List Lexeme}
    (hrun : c.run (n + 1) = .call (.rule (.chain .additive)) s (.close openedAt :: stack) taken) :
    s.pending < c.pending := by
  have hle := pending_run_le n c
  have hstep : (c.run n).step = c.run (n + 1) := (Function.iterate_succ_apply' step n c).symm
  rcases (c.run n).finished_or_leads with ⟨r, taken', hfinished⟩ | hleads
  · rw [hfinished, hrun] at hstep
    cases hstep
  · rw [hstep, hrun] at hleads
    generalize c.run n = c' at hleads hle
    cases hleads with
    | down _ _ hframe => exact absurd rfl (hframe openedAt)
    | inside hlt => exact Nat.lt_of_lt_of_le hlt hle

/-- Control is behind a turn of a loop that had `n` lexemes ahead, on a stack of a
height: it has consumed a lexeme, or it has left the loop. -/
def Behind (n height : Nat) : Control → Prop
  | .call (.rule _) s _ _ => s.pending < n
  | .call (.turn _ _) s stack _ => s.pending < n ∨ s.pending ≤ n ∧ stack.length < height
  | .answer r stack _ => r.2.pending < n ∨ r.2.pending ≤ n ∧ stack.length ≤ height

/-- A turn leads behind it. -/
theorem Leads.behind_of_turn {p : Precedence} {left : Tree} {s : Cursor} {stack : List Frame}
    {taken : List Lexeme} {c : Control} (h : Leads (.call (.turn p left) s stack taken) c) :
    c.Behind s.pending stack.length := by
  cases h with
  | back hle => exact Or.inr ⟨hle, Nat.le_refl _⟩
  | goesOn hlt => exact hlt

/-- Control stays behind a turn. -/
theorem Leads.behind {n height : Nat} {c c' : Control} (hc : c.Behind n height)
    (h : c.Leads c') : c'.Behind n height := by
  -- Until a lexeme is consumed there are only answers, and turns below the loop that
  -- was left. Neither makes the stack higher.
  cases h with
  | @back task s stack taken taken' r hle =>
    cases task with
    | rule rule => exact Or.inl (Nat.lt_of_le_of_lt hle hc)
    | turn p left =>
      simp only [Behind] at hc ⊢
      omega
  | down hle => exact Nat.lt_of_le_of_lt hle hc
  | inside hlt => exact Nat.lt_trans hlt hc
  | goesOn hlt =>
    simp only [Behind] at hc ⊢
    omega
  | up hle =>
    simp only [Behind, List.length_cons] at hc ⊢
    omega
  | round _ =>
    simp only [Behind, List.length_cons] at hc ⊢
    omega

/-- Between two turns of a loop a lexeme is consumed. The turns of one loop are
those on one stack. -/
theorem pending_lt_of_turn {n : Nat} {p p' : Precedence} {left left' : Tree} {s s' : Cursor}
    {stack : List Frame} {taken taken' : List Lexeme}
    (hrun : (call (.turn p left) s stack taken).run (n + 1) =
      .call (.turn p' left') s' stack taken') : s'.pending < s.pending := by
  have hbehind := run_induction (fun hc hleads => Leads.behind hc hleads)
    (leads_turn p left s stack taken).behind_of_turn n
  change Behind _ _ ((call (.turn p left) s stack taken).run (n + 1)) at hbehind
  rw [hrun] at hbehind
  simp only [Behind] at hbehind
  omega

end Control

/-! ## The lexemes that are consumed -/

/-- What is consumed are the next lexemes ahead. -/
def Contract.passing : Contract := fun s taken _ s' =>
  s.rest.lexemes = taken ++ s'.rest.lexemes

/-- A lexeme that is consumed is the next one ahead. -/
theorem Contract.passing_consume {s : Cursor} {ahead : Lexeme} (hahead : s.lookahead = some ahead)
    (hreal : ahead.isReal = true) : passing s [ahead] none (s.consume ahead) := by
  simp [passing, Cursor.rest, Cursor.consume, hahead, hreal]

/-- The rules consume the next lexemes ahead. -/
theorem Contract.passing_kept : Contract.passing.Kept where
  nothing _ := rfl
  trans := by
    intro s s₁ s₂ first second _ hfirst hsecond
    change s.rest.lexemes = _
    rw [hfirst, hsecond, List.append_assoc]
  peek s := s.lexemes_rest_peek.symm
  enter _ _ := rfl
  exit _ _ := rfl
  consume := passing_consume
  openGroup := by
    intro s ahead hahead htoken
    have hconsume := passing_consume hahead (by simp [Lexeme.isReal, htoken])
    rcases (s.consume ahead).openGroup_cases ahead.start with hopen | hopen
    · rw [hopen]
      exact hconsume
    · rw [hopen]
      exact hconsume
  closeGroup _ := rfl
  refuse _ _ := rfl

namespace Rule

/-- A rule consumes the next lexemes ahead. -/
theorem rest_eq_taken_append (rule : Rule) (s : Cursor) :
    s.rest.lexemes = rule.taken s ++ (rule.read s).2.rest.lexemes := by
  have hkept := Contract.passing_kept
  cases rule with
  | expression => exact hkept.expression s
  | chain p => exact hkept.rules.1 p s
  | factor => exact hkept.rules.2.2.2 s

/-- A rule that succeeds leaves fewer lexemes ahead. -/
theorem pending_lt_of_read {rule : Rule} {s s' : Cursor} {tree : Tree}
    (hread : rule.read s = (.ok tree, s')) : s'.pending < s.pending := by
  have hchain {p : Precedence} {s s' : Cursor} {tree : Tree}
      (hread : s.chain p = (.ok tree, s')) : s'.pending < s.pending := by
    have hlt := (Descent.chain p s).property.lt tree (congrArg Prod.fst hread)
    rwa [show (Descent.chain p s).val = (.ok tree, s') from hread] at hlt
  cases rule with
  | expression =>
    rw [read, s.expression_eq_finish] at hread
    obtain ⟨ahead, s₁, hpeek, hread⟩ := andThen_eq_ok hread
    split at hread
    · obtain ⟨inner, s₂, hinner, hfinish⟩ := andThen_eq_ok hread
      have hle := s₂.pending_finish_le inner
      rw [hfinish] at hle
      exact Cursor.pending_of_peek hpeek ▸ Nat.lt_of_le_of_lt hle (hchain hinner)
    · cases hread
  | chain p => exact hchain hread
  | factor =>
    rw [read, ← s.operand_multiplicative] at hread
    exact Cursor.pending_lt_of_operand hread

/-- A call of a rule comes to an end and makes progress. -/
structure Progresses (rule : Rule) (s : Cursor) : Prop where
  /-- The call comes back after a number of steps that is linear in the lexemes
  ahead, with what the rule reads and consumes. -/
  ends : ∀ n, 8 * s.pending + 9 ≤ n →
    (Control.start rule s).run n = .answer (rule.read s) [] (rule.taken s)
  /-- It consumes no more than is ahead. -/
  taken_le : (rule.taken s).length ≤ s.pending
  /-- It leaves what it does not consume. -/
  pending_eq : (rule.read s).2.pending = s.pending - (rule.taken s).length
  /-- It consumes at least one lexeme if it succeeds. -/
  taken_pos : ∀ tree, (rule.read s).1 = .ok tree → 0 < (rule.taken s).length
  /-- It never consumes the end of the input. -/
  taken_real : ∀ lexeme ∈ rule.taken s, lexeme.token ≠ .endOfInput
  /-- Each turn of a loop has fewer lexemes ahead than the turns of it before. -/
  turns : ∀ n m p p' left left' s₁ s₂ stack taken taken',
    (Control.start rule s).run n = .call (.turn p left) s₁ stack taken →
    (Control.start rule s).run (n + m + 1) = .call (.turn p' left') s₂ stack taken' →
    s₂.pending < s₁.pending
  /-- Each descent into a group has fewer lexemes ahead than there were before. -/
  descents : ∀ n m openedAt s₂ stack taken,
    (Control.start rule s).run (n + m + 1) =
      .call (.rule (.chain .additive)) s₂ (.close openedAt :: stack) taken →
    s₂.pending < ((Control.start rule s).run n).pending

/-- Every call of a rule on any cursor makes progress. -/
theorem progresses (rule : Rule) (s : Cursor) : rule.Progresses s := by
  have hrest := rule.rest_eq_taken_append s
  have hcount : s.pending = (rule.taken s).length + (rule.read s).2.pending := by
    rw [s.pending_eq_length_rest, hrest, List.length_append, Cursor.pending_eq_length_rest]
  refine ⟨?_, by omega, by omega, ?_, ?_, ?_, ?_⟩
  · intro n hn
    have hrank : rule.rank ≤ 9 := by rcases rule with _ | (_ | _) | _ <;> decide
    have hsize : (Control.start rule s).size ≤ n := by
      change 8 * s.pending + rule.rank + 0 ≤ n
      omega
    rw [Control.run_of_size_le hsize, Control.outcome_start]
  · intro tree hok
    have hlt : (rule.read s).2.pending < s.pending := pending_lt_of_read (Prod.ext hok rfl)
    omega
  · intro lexeme hlexeme
    have hahead : lexeme ∈ s.rest.lexemes := hrest ▸ List.mem_append_left _ hlexeme
    exact Lexeme.isReal_iff.mp (List.mem_filter.mp hahead).2
  · intro n m p p' left left' s₁ s₂ stack taken taken' hfirst hsecond
    rw [Control.run_add_succ, hfirst] at hsecond
    exact Control.pending_lt_of_turn hsecond
  · intro n m openedAt s₂ stack taken hinside
    rw [Control.run_add_succ] at hinside
    exact Control.pending_lt_of_inside hinside

end Rule

/-! ## Sessions -/

/-- The lexemes ahead in a session are those of the text that have not been
consumed. -/
theorem Cursor.pending_after (source : String) (tracer : Tracer) (limit : Nat)
    (calls : List Call) :
    ((ofSource source tracer limit).after calls).pending +
        ((ofSource source tracer limit).taken calls).countP Lexeme.isReal =
      (scan source).lexemes.length := by
  have hfollows := (follows_ofSource source tracer limit).after calls
  have hreal : (scan source).lexemes.countP Lexeme.isReal = (scan source).lexemes.length :=
    List.countP_eq_length.mpr (scan_isReal source)
  rw [List.nil_append] at hfollows
  rcases hfollows.ahead with ⟨_, hlexemes⟩ | ⟨_, hupcoming, hend, count, htaken⟩
  · rw [← hreal, ← hlexemes, List.append_assoc, List.countP_append, Nat.add_comm]
    rfl
  · have hnothing : ((ofSource source tracer limit).after calls).pending = 0 := by
      apply List.countP_eq_zero.mpr
      intro lexeme hlexeme
      rw [hupcoming, List.append_nil, Option.mem_toList] at hlexeme
      rw [hend lexeme hlexeme]
      exact Bool.false_ne_true
    have hatEnd : (Lexeme.atEnd (scan source).size).isReal = false := rfl
    rw [hnothing, htaken, List.countP_append, hreal, List.countP_replicate, hatEnd]
    simp

/-- In every session on a text, with either tracer, under every limit and whatever
calls have failed before, a call of any rule comes to an end and makes
progress. -/
theorem Rule.progresses_in_session (source : String) (traced : Bool) (limit : Nat)
    (calls : List Call) (rule : Rule) :
    ((Cursor.ofSource source { enabled := traced } limit).after calls).pending +
        ((Cursor.ofSource source { enabled := traced } limit).taken calls).countP Lexeme.isReal =
      (scan source).lexemes.length ∧
    rule.Progresses ((Cursor.ofSource source { enabled := traced } limit).after calls) :=
  ⟨Cursor.pending_after source { enabled := traced } limit calls, rule.progresses _⟩

-- The loop of this sum takes a turn with four lexemes ahead and a last one with
-- none, and in between control goes into the group with two.
example :
    ([6, 9, 20].map fun n =>
      match (Control.start (.chain .additive) (Cursor.ofSource "1+(2)" {} 1)).run n with
      | .call (.turn _ _) s [] _ => some s.pending
      | .call (.rule (.chain .additive)) s (.close _ :: _) _ => some s.pending
      | _ => none) = [some 4, some 2, some 0] := by
  decide +kernel

end Calculator
