import Calculator.Proofs.Linearisation
import Calculator.Proofs.Moves

/-!
# The accounts of open groups and open rules

A cursor counts the groups that are open, and its tracer the rules that are. A
call that fails leaves both counts as they stood at its fault, and later calls
start from there. This file keeps account of what is opened and not closed along
the moves of a call. The counts rise by exactly that, no count is ever lowered
below zero, and the groups keep to the limit in every cursor on the way.
-/

namespace Calculator

variable {α β : Type}

/-! ## What is left open -/

/-- The groups that are open after a move, the innermost first. A group that is
refused is not open, and there is no closing without an open group. -/
def Cursor.regroup? (s : Cursor) (groups : List Nat) : Move → Option (List Nat)
  | .openGroup position =>
    match (s.openGroup position).1 with
    | .ok () => some (position :: groups)
    | .error _ => some groups
  | .closeGroup => if groups = [] then none else some groups.tail
  | _ => some groups

/-- The groups that are open after several moves. -/
def Cursor.unclosed? (s : Cursor) (groups : List Nat) : List Move → Option (List Nat)
  | [] => some groups
  | next :: moves =>
    (s.regroup? groups next).bind fun groups => (s.move next).unclosed? groups moves

/-- The rules that are entered and not left among the records, the innermost
first. Only the innermost of them can be left. -/
def unmatched? (rules : List String) : List Record → Option (List String)
  | [] => some rules
  | record :: records =>
    match record.event with
    | .enter rule _ => unmatched? (rule :: rules) records
    | .exit rule _ => if rules.head? = some rule then unmatched? rules.tail records else none
    | .consume _ => unmatched? rules records

/-- What is left open by two stretches of records is left open by the second one
after the first. -/
theorem unmatched?_append (rules : List String) (first second : List Record) :
    unmatched? rules (first ++ second) =
      (unmatched? rules first).bind fun rules => unmatched? rules second := by
  induction first generalizing rules with
  | nil => rfl
  | cons record first ih =>
    simp only [List.cons_append, unmatched?]
    cases record.event with
    | enter rule ahead => exact ih _
    | exit rule ahead =>
      by_cases hrule : rules.head? = some rule
      · simp only [if_pos hrule, ih]
      · simp only [if_neg hrule, Option.bind_none]
    | consume lexeme => exact ih _

/-! ## Accounts -/

/-- A cursor on the way of a call that began at `base`. The groups and rules are
those that the call has opened and not closed. -/
structure Cursor.Owes (base s : Cursor) (groups : List Nat) (rules : List String) : Prop where
  /-- The limit stays. -/
  limit_eq : s.limit = base.limit
  /-- The tracer stays enabled or disabled. -/
  enabled_eq : s.tracer.enabled = base.tracer.enabled
  /-- The open groups are counted. -/
  nesting_eq : s.nesting = base.nesting + groups.length
  /-- They keep to the limit. -/
  nesting_le : s.nesting ≤ s.limit
  /-- The open rules are counted. -/
  depth_eq : s.tracer.depth = base.tracer.depth + rules.length
  /-- The open rules are those recorded, and a disabled tracer records nothing. -/
  emitted : ∃ records, s.tracer.records.toList = base.tracer.records.toList ++ records ∧
    unmatched? [] records = some rules ∧ (base.tracer.enabled = false → records = [])

/-- A cursor at which a move can be made: its open groups keep to the limit, a
group is open to be closed, and so is a rule to be left. -/
structure Cursor.Permits (s : Cursor) (next : Move) : Prop where
  /-- The open groups keep to the limit. -/
  nesting_le : s.nesting ≤ s.limit
  /-- A group is open where one is closed. -/
  nesting_pos : next = .closeGroup → 0 < s.nesting
  /-- A rule is open where one is left. -/
  depth_pos : ∀ rule, next = .exit rule → s.tracer.enabled = true → 0 < s.tracer.depth

/-- The moves lead to the cursor `s'`, which owes the groups and rules. -/
structure Cursor.Accounted (base s : Cursor) (groups : List Nat) (moves : List Move) (s' : Cursor)
    (groups' : List Nat) (rules' : List String) : Prop where
  /-- The moves lead to the cursor. -/
  play_eq : s.play moves = s'
  /-- Every move can be made. -/
  permits : ∀ step ∈ s.trail moves, step.1.Permits step.2
  /-- The moves leave the groups open. -/
  unclosed_eq : s.unclosed? groups moves = some groups'
  /-- The cursor owes what was left open. -/
  owes : base.Owes s' groups' rules'

namespace Cursor

/-- Several moves are played one stretch after the other. -/
theorem play_append (s : Cursor) (first second : List Move) :
    s.play (first ++ second) = (s.play first).play second :=
  List.foldl_append

/-- A trail goes on from the cursor behind its first stretch. -/
theorem trail_append (s : Cursor) (first second : List Move) :
    s.trail (first ++ second) = s.trail first ++ (s.play first).trail second := by
  induction first generalizing s with
  | nil => rfl
  | cons next first ih => exact congrArg ((s, next) :: ·) (ih (s.move next))

/-- The groups left open by a first stretch are open to the second. -/
theorem unclosed?_append (s : Cursor) (groups : List Nat) (first second : List Move) :
    s.unclosed? groups (first ++ second) =
      (s.unclosed? groups first).bind fun groups => (s.play first).unclosed? groups second := by
  induction first generalizing s groups with
  | nil => rfl
  | cons next first ih =>
    simp only [List.cons_append, unclosed?, Option.bind_assoc]
    congr 1
    funext groups
    exact ih (s.move next) groups

end Cursor

section Accounts

variable {base s s' s₁ s₂ : Cursor} {groups groups' groups₁ groups₂ : List Nat}
  {rules rules' rules₁ rules₂ : List String} {moves first second : List Move}

/-- Accounts are kept across two stretches of moves. -/
theorem Cursor.Accounted.trans (hfirst : base.Accounted s groups first s₁ groups₁ rules₁)
    (hsecond : base.Accounted s₁ groups₁ second s₂ groups₂ rules₂) :
    base.Accounted s groups (first ++ second) s₂ groups₂ rules₂ where
  play_eq := by rw [play_append, hfirst.play_eq, hsecond.play_eq]
  permits := by
    intro step hstep
    rw [trail_append, hfirst.play_eq] at hstep
    rcases List.mem_append.mp hstep with hstep | hstep
    · exact hfirst.permits step hstep
    · exact hsecond.permits step hstep
  unclosed_eq := by
    rw [unclosed?_append, hfirst.unclosed_eq, hfirst.play_eq]
    exact hsecond.unclosed_eq
  owes := hsecond.owes

/-- Without moves nothing changes. -/
theorem Cursor.Owes.nothing (h : base.Owes s groups rules) :
    base.Accounted s groups [] s groups rules :=
  ⟨rfl, by simp [trail], rfl, h⟩

/-- A single move that can be made. -/
theorem Cursor.Accounted.of_move {next : Move} (hpermits : s.Permits next)
    (hgroups : s.regroup? groups next = some groups')
    (howes : base.Owes (s.move next) groups' rules') :
    base.Accounted s groups [next] (s.move next) groups' rules' :=
  ⟨rfl, by simpa [trail] using hpermits, by rw [unclosed?, hgroups]; rfl, howes⟩

/-- The moves of an operation keep the accounts. If it succeeds, the groups and
rules are left open; if it fails, some that are accounted for. -/
def Cursor.Settles (base s : Cursor) (groups : List Nat) (moves : List Move) (groups' : List Nat)
    (rules' : List String) (r : Except Fault α × Cursor) : Prop :=
  match r with
  | (.ok _, s') => base.Accounted s groups moves s' groups' rules'
  | (.error _, s') => ∃ groups'' rules'', base.Accounted s groups moves s' groups'' rules''

/-- A single move keeps the accounts if it changes them only when it succeeds. -/
theorem Cursor.Settles.single (rules : List String) {r : Except Fault α × Cursor}
    {next : Move} (hpermits : s.Permits next) (hmove : s.move next = r.2)
    (hok : ∀ a, r.1 = .ok a →
      s.regroup? groups next = some groups' ∧ base.Owes r.2 groups' rules')
    (herror : ∀ fault, r.1 = .error fault →
      s.regroup? groups next = some groups ∧ base.Owes r.2 groups rules) :
    base.Settles s groups [next] groups' rules' r := by
  obtain ⟨fault | a, s'⟩ := r <;> simp only at hmove <;> subst hmove
  · obtain ⟨hgroups, howes⟩ := herror fault rfl
    exact ⟨groups, rules, .of_move hpermits hgroups howes⟩
  · obtain ⟨hgroups, howes⟩ := hok a rfl
    exact .of_move hpermits hgroups howes

/-- Moves that were made before an operation are accounted for with it. -/
theorem Cursor.Accounted.prepend {r : Except Fault α × Cursor}
    (hfirst : base.Accounted s groups first s₁ groups₁ rules₁)
    (hsecond : base.Settles s₁ groups₁ second groups' rules' r) :
    base.Settles s groups (first ++ second) groups' rules' r := by
  obtain ⟨fault | a, s'⟩ := r
  · obtain ⟨groups₂, rules₂, hsecond⟩ := hsecond
    exact ⟨groups₂, rules₂, hfirst.trans hsecond⟩
  · exact hfirst.trans hsecond

/-- Accounts are kept across a sequence if they are kept across its operations. -/
theorem Cursor.Settles.andThen {r : Except Fault α × Cursor}
    {more : (a : α) → (s : Cursor) → r = (.ok a, s) → List Move}
    {next : α → Cursor → Except Fault β × Cursor}
    (hfirst : base.Settles s groups first groups₁ rules₁ r)
    (hnext : ∀ a s₁ hr, base.Owes s₁ groups₁ rules₁ →
      base.Settles s₁ groups₁ (more a s₁ hr) groups' rules' (next a s₁)) :
    base.Settles s groups (first ++ movesAfter r more) groups' rules'
      (Calculator.andThen r next) := by
  obtain ⟨fault | a, s₁⟩ := r
  · obtain ⟨groups₂, rules₂, hfailed⟩ := hfirst
    exact ⟨groups₂, rules₂, by simpa [movesAfter] using hfailed⟩
  · exact hfirst.prepend (hnext a s₁ rfl hfirst.owes)

/-! ## The moves keep the accounts -/

namespace Cursor.Owes

/-- What is owed does not change where the counts and the tracer stay. -/
theorem of_same (h : base.Owes s groups rules) (hnesting : s'.nesting = s.nesting)
    (hlimit : s'.limit = s.limit) (htracer : s'.tracer = s.tracer) :
    base.Owes s' groups rules where
  limit_eq := hlimit.trans h.limit_eq
  enabled_eq := by rw [htracer, h.enabled_eq]
  nesting_eq := hnesting.trans h.nesting_eq
  nesting_le := by rw [hnesting, hlimit]; exact h.nesting_le
  depth_eq := by rw [htracer, h.depth_eq]
  emitted := by rw [htracer]; exact h.emitted

/-- A cursor that differs only in its number of open groups owes these. -/
theorem of_nesting (h : base.Owes s groups rules)
    (hnesting : s'.nesting = base.nesting + groups'.length) (hle : s'.nesting ≤ s.limit)
    (hlimit : s'.limit = s.limit) (htracer : s'.tracer = s.tracer) :
    base.Owes s' groups' rules where
  limit_eq := hlimit.trans h.limit_eq
  enabled_eq := by rw [htracer, h.enabled_eq]
  nesting_eq := hnesting
  nesting_le := by rw [hlimit]; exact hle
  depth_eq := by rw [htracer, h.depth_eq]
  emitted := by rw [htracer]; exact h.emitted

/-- One more record changes which rules are open. -/
theorem of_record (h : base.Owes s groups rules) {record : Record}
    (henabled : s.tracer.enabled = true) (hrecord : unmatched? rules [record] = some rules')
    (hnesting : s'.nesting = s.nesting) (hlimit : s'.limit = s.limit)
    (htracer : s'.tracer = s.tracer.extended (base.tracer.depth + rules'.length) [record]) :
    base.Owes s' groups rules' where
  limit_eq := hlimit.trans h.limit_eq
  enabled_eq := by rw [htracer, ← h.enabled_eq, henabled]; rfl
  nesting_eq := hnesting.trans h.nesting_eq
  nesting_le := by rw [hnesting, hlimit]; exact h.nesting_le
  depth_eq := by rw [htracer]; rfl
  emitted := by
    obtain ⟨records, hrecords, hunmatched, _⟩ := h.emitted
    refine ⟨records ++ [record], ?_, ?_, ?_⟩
    · simp [htracer, Tracer.extended, hrecords]
    · rw [unmatched?_append, hunmatched]
      exact hrecord
    · intro hdisabled
      rw [← h.enabled_eq, henabled] at hdisabled
      cases hdisabled

/-- A move other than closing a group or leaving a rule can always be made. -/
theorem permits (h : base.Owes s groups rules) {next : Move} (hclose : next ≠ .closeGroup)
    (hexit : ∀ rule, next ≠ .exit rule) : s.Permits next :=
  ⟨h.nesting_le, fun heq => absurd heq hclose, fun rule heq => absurd heq (hexit rule)⟩

/-- What is owed does not change with a look ahead. -/
theorem of_peek (h : base.Owes s groups rules) : base.Owes s.peek.2 groups rules := by
  have hsame : s.peek.2.nesting = s.nesting ∧ s.peek.2.limit = s.limit := by
    rcases s.peek_cases with ⟨ahead, _, hpeek⟩ | ⟨ahead, rest, _, _, hpeek⟩ |
      ⟨cause, _, _, _, hpeek⟩ | ⟨_, _, _, hpeek⟩ <;> rw [hpeek] <;> exact ⟨rfl, rfl⟩
  exact h.of_same hsame.1 hsame.2 (tracer_of_peek rfl)

/-- What is owed does not change where a lexeme is consumed. -/
theorem of_consume (h : base.Owes s groups rules) (ahead : Lexeme) :
    base.Owes (s.consume ahead) groups rules := by
  cases henabled : s.tracer.enabled with
  | false => exact h.of_same rfl rfl (by simp [Cursor.consume, Tracer.consume, henabled])
  | true =>
    have hrecord : unmatched? rules [⟨s.tracer.depth, .consume ahead⟩] = some rules := rfl
    refine h.of_record henabled hrecord rfl rfl ?_
    rw [← h.depth_eq]
    exact Tracer.consume_eq_extended henabled ahead

/-- What is owed does not change where a lexeme is taken. -/
theorem of_advance (h : base.Owes s groups rules) : base.Owes s.advance.2 groups rules := by
  have hpeeked := h.of_peek
  unfold Cursor.advance
  cases hpeek : s.peek with
  | mk r s₁ =>
    rw [hpeek] at hpeeked
    cases r with
    | error fault => exact hpeeked
    | ok ahead => exact hpeeked.of_consume ahead

/-- A look ahead opens and closes nothing. -/
theorem peek (h : base.Owes s groups rules) :
    base.Settles s groups [.peek] groups rules s.peek :=
  .single rules (h.permits (by simp) (by simp)) rfl (fun _ _ => ⟨rfl, h.of_peek⟩)
    fun _ _ => ⟨rfl, h.of_peek⟩

/-- Consuming the lookahead is a move that takes it. -/
theorem consume (h : base.Owes s groups rules) {ahead : Lexeme}
    (hahead : s.lookahead = some ahead) :
    base.Accounted s groups [.advance] (s.consume ahead) groups rules := by
  have hmove : s.move .advance = s.consume ahead := by
    rw [move, Cursor.advance, Stretch.peek_of_lookahead hahead, andThen_ok]
  rw [← hmove]
  exact .of_move (h.permits (by simp) (by simp)) rfl h.of_advance

/-- A look ahead and a note about it change which rules are open. -/
theorem note (h : base.Owes s groups rules) {next : Move} (hpermits : s.Permits next)
    (hgroups : s.regroup? groups next = some groups) (entry : Lexeme → Tracer → Tracer)
    (hmove : s.move next = (andThen s.peek fun ahead s =>
      ((.ok (), { s with tracer := entry ahead s.tracer }) : Except Fault Unit × Cursor)).2)
    (hentry : ∀ {s₁ : Cursor} ahead, base.Owes s₁ groups rules → s₁.tracer = s.tracer →
      base.Owes { s₁ with tracer := entry ahead s₁.tracer } groups rules') :
    base.Settles s groups [next] groups rules' (andThen s.peek fun ahead s =>
      ((.ok (), { s with tracer := entry ahead s.tracer }) : Except Fault Unit × Cursor)) := by
  have hpeeked := h.of_peek
  have htracer : s.peek.2.tracer = s.tracer := tracer_of_peek rfl
  apply Settles.single rules hpermits hmove
  · intro _ hok
    refine ⟨hgroups, ?_⟩
    obtain ⟨ahead, s₁, hpeek, _⟩ := andThen_eq_ok (Prod.ext hok rfl)
    rw [hpeek] at hpeeked htracer ⊢
    exact hentry ahead hpeeked htracer
  · intro fault herror
    refine ⟨hgroups, ?_⟩
    rcases andThen_eq_error (Prod.ext herror rfl) with hpeek | ⟨ahead, s₁, _, hnext⟩
    · rwa [hpeek] at hpeeked
    · cases hnext

/-- The rules that are open once a rule is entered. Only an enabled tracer opens
it. -/
def opening (base : Cursor) (rule : String) (rules : List String) : List String :=
  if base.tracer.enabled then rule :: rules else rules

/-- Entering a rule opens it. -/
theorem enter (h : base.Owes s groups rules) (rule : String) :
    base.Settles s groups [.enter rule] groups (opening base rule rules) (s.enter rule) := by
  have hpermits : s.Permits (.enter rule) := h.permits (by simp) (by simp)
  unfold opening
  rw [← h.enabled_eq]
  cases henabled : s.tracer.enabled with
  | false =>
    apply Settles.single rules hpermits rfl <;> rw [enter_of_disabled henabled]
    · exact fun _ _ => ⟨rfl, h⟩
    · rintro _ ⟨⟩
  | true =>
    have henter := enter_of_enabled henabled rule
    rw [henter, if_pos rfl]
    apply h.note hpermits rfl (fun ahead tracer => tracer.enter rule ahead)
      (congrArg Prod.snd henter)
    intro s₁ ahead h₁ htracer
    rw [← htracer] at henabled
    have hrecord : unmatched? rules [⟨s₁.tracer.depth, .enter rule ahead⟩] =
        some (rule :: rules) := rfl
    refine h₁.of_record henabled hrecord rfl rfl ?_
    rw [List.length_cons, ← Nat.add_assoc, ← h₁.depth_eq]
    exact Tracer.enter_eq_extended henabled rule ahead

/-- Leaving the innermost open rule closes it. -/
theorem leave {rule : String} (h : base.Owes s groups (opening base rule rules)) (tree : Tree) :
    base.Settles s groups [.exit rule] groups rules (s.leave rule tree) := by
  have hexit : base.Settles s groups [.exit rule] groups rules (s.exit rule) := by
    unfold opening at h
    rw [← h.enabled_eq] at h
    cases henabled : s.tracer.enabled with
    | false =>
      have hexit : s.exit rule = (.ok (), s) := by simp [exit, henabled]
      have hpermits : s.Permits (.exit rule) :=
        ⟨h.nesting_le, by simp, by simp [henabled]⟩
      rw [henabled] at h
      apply Settles.single rules hpermits rfl <;> rw [hexit]
      · exact fun _ _ => ⟨rfl, h⟩
      · rintro _ ⟨⟩
    | true =>
      have hexit : s.exit rule = andThen s.peek fun ahead s =>
          (.ok (), { s with tracer := s.tracer.exit rule ahead }) := by simp [exit, henabled]
      rw [henabled, if_pos rfl] at h
      have hdepth := h.depth_eq
      rw [List.length_cons] at hdepth
      have hpermits : s.Permits (.exit rule) :=
        ⟨h.nesting_le, by simp, fun _ _ _ => by omega⟩
      rw [hexit]
      apply h.note hpermits rfl (fun ahead tracer => tracer.exit rule ahead)
        (congrArg Prod.snd hexit)
      intro s₁ ahead h₁ htracer
      rw [← htracer] at henabled hdepth
      have hrecord : unmatched? (rule :: rules) [⟨s₁.tracer.depth - 1, .exit rule ahead⟩] =
          some rules := by simp [unmatched?]
      refine h₁.of_record henabled hrecord rfl rfl ?_
      have hlower : base.tracer.depth + rules.length = s₁.tracer.depth - 1 := by omega
      rw [hlower]
      exact Tracer.exit_eq_extended henabled rule ahead
  unfold Cursor.leave
  cases hresult : s.exit rule with
  | mk result s' =>
    rw [hresult] at hexit
    cases result <;> exact hexit

/-- Opening a group counts it, unless it is refused. -/
theorem openGroup (h : base.Owes s groups rules) (position : Nat) :
    base.Settles s groups [.openGroup position] (position :: groups) rules
      (s.openGroup position) := by
  have hnesting := h.nesting_eq
  have hpermits : s.Permits (.openGroup position) := h.permits (by simp) (by simp)
  by_cases hfull : s.limit ≤ s.nesting
  · have hrefused : s.openGroup position = (.error (.nestingTooDeep s.limit position), s) := by
      rw [Cursor.openGroup, if_pos hfull]
    apply Settles.single rules hpermits rfl <;> simp only [regroup?, hrefused]
    · rintro _ ⟨⟩
    · exact fun _ _ => ⟨trivial, h⟩
  · have hopened : s.openGroup position = (.ok (), { s with nesting := s.nesting + 1 }) := by
      rw [Cursor.openGroup, if_neg hfull]
    apply Settles.single rules hpermits rfl <;> simp only [regroup?, hopened]
    · intro _ _
      refine ⟨trivial, h.of_nesting ?_ ?_ rfl rfl⟩ <;> simp only [List.length_cons] <;> omega
    · rintro _ ⟨⟩

/-- Closing a group takes it off the count. -/
theorem closeGroup {position : Nat} (h : base.Owes s (position :: groups) rules) :
    base.Accounted s (position :: groups) [.closeGroup] s.closeGroup groups rules := by
  have hnesting := h.nesting_eq
  have hle := h.nesting_le
  rw [List.length_cons] at hnesting
  have hpermits : s.Permits .closeGroup := ⟨hle, fun _ => by omega, by simp⟩
  have hclosed : base.Owes s.closeGroup groups rules := by
    refine h.of_nesting ?_ ?_ rfl rfl <;> simp only [Cursor.closeGroup] <;> omega
  exact .of_move hpermits (by simp [regroup?]) hclosed

/-- Where the lookahead is refused, what is owed is left open. -/
theorem refuse (h : base.Owes s groups rules) (fault : Fault) :
    base.Settles s groups [] groups' rules' ((.error fault, s) : Except Fault α × Cursor) :=
  ⟨groups, rules, h.nothing⟩

end Cursor.Owes

/-! ## The rules keep the accounts -/

namespace Cursor.Owes

/-- Closing a group pays for it. -/
theorem close {position : Nat} (h : base.Owes s (position :: groups) rules) (openedAt : Nat)
    (inner : Tree) :
    base.Settles s (position :: groups) s.closeMoves groups rules (s.close openedAt inner) := by
  apply h.peek.andThen
  intro ahead s₁ hpeek h₁
  cases htoken : ahead.token with
  | rightParen =>
    have htaken := h₁.consume (lookahead_of_peek hpeek)
    exact htaken.trans htaken.owes.closeGroup
  | endOfInput => exact h₁.refuse _
  | number value => exact h₁.refuse _
  | operator op => exact h₁.refuse _
  | leftParen => exact h₁.refuse _

end Cursor.Owes

/-- Every rule that succeeds pays for what it opens. The rest of a chain also
pays for the chain. -/
theorem Cursor.rules_settle (base : Cursor) :
    (∀ p s, ∀ groups rules, base.Owes s groups rules →
      base.Settles s groups (s.chainMoves p) groups rules (s.chain p)) ∧
    (∀ p s, ∀ groups rules, base.Owes s groups rules →
      base.Settles s groups (s.operandMoves p) groups rules (s.operand p)) ∧
    (∀ p left s, ∀ groups rules, base.Owes s groups (Owes.opening base p.rule rules) →
      base.Settles s groups (s.restMoves p left) groups rules (s.chainRest p left)) ∧
    ∀ s, ∀ groups rules, base.Owes s groups rules →
      base.Settles s groups s.factorMoves groups rules s.factor := by
  apply descent_induction
  · intro p s ih groups rules h
    rw [chain_eq, chainMoves]
    apply (h.enter p.rule).andThen
    intro _ s₁ henter h₁
    obtain ⟨hoperand, hrest⟩ := ih s₁ henter
    apply (hoperand groups _ h₁).andThen
    intro left s₂ hleft h₂
    exact hrest left s₂ hleft groups rules h₂
  · intro s hchain
    rwa [operand_additive, operandMoves]
  · intro s hfactor
    rwa [operand_multiplicative, operandMoves]
  · intro p left s ih groups rules h
    rw [chainRest_eq_chainRestAt, restMoves]
    apply h.peek.andThen
    intro ahead s₁ hpeek h₁
    rcases ahead.stops_or_goesOn p with hstop | ⟨op, hop, hprecedence⟩
    · rw [chainRestAt_of_stop hstop]
      split
      · exact h₁.leave left
      · rename_i op hop
        rw [if_neg (hstop op hop)]
        exact h₁.leave left
    · obtain ⟨hoperand, hrest⟩ := ih ahead s₁ op hpeek hop hprecedence
      rw [chainRestAt_of_operator hop hprecedence]
      have htaken := h₁.consume (lookahead_of_peek hpeek)
      split
      · simp_all
      · rename_i op' hop'
        obtain rfl : op = op' := by simpa [hop] using hop'
        rw [if_pos hprecedence]
        apply htaken.prepend
        apply (hoperand groups _ htaken.owes).andThen
        intro right s₂ hright h₂
        exact hrest right s₂ hright groups rules h₂
  · intro s ih groups rules h
    rw [factor_eq_factorAt, factorMoves]
    apply (h.enter factorRule).andThen
    intro _ s₁ henter h₁
    apply h₁.peek.andThen
    intro ahead s₂ hpeek h₂
    have htaken := h₂.consume (lookahead_of_peek hpeek)
    unfold factorAt
    cases htoken : ahead.token with
    | number value => exact htaken.prepend (htaken.owes.leave (.leaf value))
    | leftParen =>
      apply htaken.prepend
      unfold Cursor.group
      rw [andThen_assoc]
      apply (htaken.owes.openGroup ahead.start).andThen
      intro _ s₃ hopen h₃
      rw [andThen_assoc]
      apply (ih s₁ ahead s₂ s₃ henter hpeek htoken hopen _ _ h₃).andThen
      intro inner s₄ _ h₄
      apply (h₄.close ahead.start inner).andThen
      intro tree s₅ _ h₅
      exact h₅.leave tree
    | operator op => exact h₂.refuse _
    | rightParen => exact h₂.refuse _
    | endOfInput => exact h₂.refuse _

/-- Nothing is opened or closed by the check that nothing is left behind a tree. -/
theorem Cursor.Owes.finish (h : base.Owes s groups rules) (tree : Tree) :
    base.Settles s groups [.peek] groups rules (s.finish tree) := by
  have hfinish : base.Settles s groups ([.peek] ++ movesAfter s.peek fun _ _ _ => []) groups rules
      (s.finish tree) := by
    apply h.peek.andThen
    intro ahead s₁ _ h₁
    cases ahead.token with
    | endOfInput => exact h₁.nothing
    | number value => exact h₁.refuse _
    | operator op => exact h₁.refuse _
    | leftParen => exact h₁.refuse _
    | rightParen => exact h₁.refuse _
  have hnothing : (movesAfter s.peek fun _ _ _ => []) = [] := by
    obtain ⟨fault | ahead, s₁⟩ := s.peek <;> rfl
  rwa [hnothing] at hfinish

/-- Reading a whole text pays for what it opens, if it succeeds. -/
theorem Cursor.Owes.expression (h : base.Owes s groups rules) :
    base.Settles s groups s.expressionMoves groups rules s.expression := by
  rw [expression_eq_finish]
  apply h.peek.andThen
  intro ahead s₁ _ h₁
  by_cases hreal : ahead.isReal = true
  · rw [if_pos hreal, if_pos hreal]
    apply ((rules_settle base).1 .additive s₁ groups rules h₁).andThen
    intro tree s₂ _ h₂
    exact h₂.finish tree
  · rw [if_neg hreal, if_neg hreal]
    exact h₁.refuse _

end Accounts

/-! ## Sessions -/

/-- How one call changes the counts of a cursor, and the cursors on its way. -/
structure Cursor.Balances (s : Cursor) (call : Call) : Prop where
  /-- The moves of the call lead to the cursor that it leaves behind. -/
  play_eq : s.play (s.movesOf call) = (s.perform call).2
  /-- No move exceeds the limit, closes a group where none is open, or leaves a
  rule where none is open. -/
  permits : ∀ step ∈ s.trail (s.movesOf call), step.1.Permits step.2
  /-- The open groups keep to the limit behind the call. -/
  nesting_le : (s.perform call).2.nesting ≤ s.limit
  /-- Looking at a lexeme and taking one leave both counts as they were. -/
  lexeme : call = .peek ∨ call = .advance → (s.perform call).2.nesting = s.nesting ∧
    (s.perform call).2.tracer.depth = s.tracer.depth
  /-- So does a rule that succeeds. -/
  success : ∀ tree, (s.perform call).1 = .tree (.ok tree) →
    (s.perform call).2.nesting = s.nesting ∧ (s.perform call).2.tracer.depth = s.tracer.depth
  /-- The count of groups rises by those that the call has opened and not closed. -/
  groups : ∃ groups, s.unclosed? [] (s.movesOf call) = some groups ∧
    (s.perform call).2.nesting = s.nesting + groups.length
  /-- The count of rules rises by those that the call has recorded to be entered
  and not to be left. With tracing off it records nothing. -/
  rules : ∃ records rules,
    (s.perform call).2.tracer.records.toList = s.tracer.records.toList ++ records ∧
    unmatched? [] records = some rules ∧
    (s.perform call).2.tracer.depth = s.tracer.depth + rules.length ∧
    (s.tracer.enabled = false → records = [])

/-- A cursor owes nothing to itself. -/
theorem Cursor.owes_self {s : Cursor} (hle : s.nesting ≤ s.limit) : s.Owes s [] [] :=
  ⟨rfl, rfl, rfl, hle, rfl, [], by simp, rfl, fun _ => rfl⟩

/-- Every call is accounted for, and owes nothing unless it is a rule that
fails. -/
theorem Cursor.accounted_perform {s : Cursor} (hle : s.nesting ≤ s.limit) (call : Call) :
    ∃ groups rules, s.Accounted s [] (s.movesOf call) (s.perform call).2 groups rules ∧
      ((∀ fault, (s.perform call).1 ≠ .tree (.error fault)) → groups = [] ∧ rules = []) := by
  have h := owes_self hle
  have hread {moves : List Move} {r : Reading} (hsettles : s.Settles s [] moves [] [] r) :
      ∃ groups rules, s.Accounted s [] moves r.2 groups rules ∧
        ((∀ fault, Answer.tree r.1 ≠ .tree (.error fault)) → groups = [] ∧ rules = []) := by
    obtain ⟨fault | tree, s'⟩ := r
    · obtain ⟨groups, rules, haccounted⟩ := hsettles
      exact ⟨groups, rules, haccounted, fun hno => absurd rfl (hno fault)⟩
    · exact ⟨[], [], hsettles, fun _ => ⟨rfl, rfl⟩⟩
  cases call with
  | peek =>
    have hpermits : s.Permits .peek := h.permits (by simp) (by simp)
    have hpeek := Accounted.of_move hpermits rfl h.of_peek
    exact ⟨[], [], hpeek, fun _ => ⟨rfl, rfl⟩⟩
  | advance =>
    have hpermits : s.Permits .advance := h.permits (by simp) (by simp)
    have hadvance := Accounted.of_move hpermits rfl h.of_advance
    exact ⟨[], [], hadvance, fun _ => ⟨rfl, rfl⟩⟩
  | chain p => exact hread ((rules_settle s).1 p s [] [] h)
  | factor => exact hread ((rules_settle s).2.2.2 s [] [] h)
  | expression => exact hread h.expression

/-- A call on a cursor that keeps to its limit balances. -/
theorem Cursor.balances {s : Cursor} (hle : s.nesting ≤ s.limit) (call : Call) :
    s.Balances call := by
  obtain ⟨groups, rules, haccounted, hnothing⟩ := accounted_perform hle call
  have howes := haccounted.owes
  have hunchanged (hok : ∀ fault, (s.perform call).1 ≠ .tree (.error fault)) :
      (s.perform call).2.nesting = s.nesting ∧
        (s.perform call).2.tracer.depth = s.tracer.depth := by
    obtain ⟨rfl, rfl⟩ := hnothing hok
    exact ⟨howes.nesting_eq, howes.depth_eq⟩
  refine ⟨haccounted.play_eq, haccounted.permits, ?_, ?_, ?_, ?_, ?_⟩
  · rw [← howes.limit_eq]
    exact howes.nesting_le
  · rintro (rfl | rfl)
    · exact hunchanged (by rintro _ ⟨⟩)
    · exact hunchanged (by rintro _ ⟨⟩)
  · intro tree hok
    exact hunchanged fun fault herror => by simp [hok] at herror
  · exact ⟨groups, haccounted.unclosed_eq, howes.nesting_eq⟩
  · obtain ⟨records, hrecords, hunmatched, hdisabled⟩ := howes.emitted
    exact ⟨records, rules, hrecords, hunmatched, howes.depth_eq, hdisabled⟩

/-- However a cursor is used, it keeps to its limit. -/
theorem Cursor.nesting_le_after {s : Cursor} (hle : s.nesting ≤ s.limit) (calls : List Call) :
    (s.after calls).limit = s.limit ∧ (s.after calls).nesting ≤ s.limit := by
  induction calls generalizing s with
  | nil => exact ⟨rfl, hle⟩
  | cons call calls ih =>
    obtain ⟨groups, rules, haccounted, _⟩ := accounted_perform hle call
    obtain ⟨hlimit, hnesting⟩ := ih haccounted.owes.nesting_le
    rw [haccounted.owes.limit_eq] at hlimit hnesting
    exact ⟨hlimit, hnesting⟩

/-- In every session on a text, whatever calls have failed before, the open
groups keep to the limit, and the next call balances: what it adds to the counts
is what it opens and does not close, which is nothing unless it fails, and no
move of it lowers a count that is zero. -/
theorem Cursor.session_balances (source : String) (traced : Bool) (limit : Nat)
    (calls : List Call) (call : Call) :
    ((ofSource source { enabled := traced } limit).after calls).limit = limit ∧
      ((ofSource source { enabled := traced } limit).after calls).nesting ≤ limit ∧
      ((ofSource source { enabled := traced } limit).after calls).Balances call := by
  have hstart : (ofSource source { enabled := traced } limit).nesting ≤ limit := Nat.zero_le limit
  obtain ⟨hlimit, hnesting⟩ := nesting_le_after hstart calls
  refine ⟨hlimit, hnesting, balances ?_ call⟩
  rw [hlimit]
  exact hnesting

end Calculator
