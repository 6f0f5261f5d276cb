import Calculator.Proofs.Linearisation

/-!
# Replaying a trace

A trace can be replayed by keeping a stack of the rules that are open. Entering
pushes a rule, and leaving must pop the rule of the same name. Every record must
be as deep as there are rules open around it. The rules keep the stack of their
own trace: one that succeeds leaves the stack as it was, and one that fails
leaves some stack behind.
-/

namespace Calculator

variable {α β : Type}

/-- The open rules around a record. A rule that is being left is not open any
more. -/
def Record.around (record : Record) (opened : List String) : List String :=
  match record.event with
  | .exit _ _ => opened.tail
  | _ => opened

/-- The rules that are open after a record, the innermost first. The record must
be as deep as there are rules open around it, and only the innermost rule can be
left. -/
def Record.replay? (opened : List String) (record : Record) : Option (List String) :=
  if record.depth = (record.around opened).length then
    match record.event with
    | .enter rule _ => some (rule :: opened)
    | .exit rule _ => if opened.head? = some rule then some opened.tail else none
    | .consume _ => some opened
  else none

/-- The rules that are open after all records. -/
def replay? (opened : List String) (records : List Record) : Option (List String) :=
  records.foldlM Record.replay? opened

/-- Records are replayed one stretch after the other. -/
theorem replay?_append {opened opened' : List String} {first : List Record}
    (hfirst : replay? opened first = some opened') (second : List Record) :
    replay? opened (first ++ second) = replay? opened' second := by
  unfold replay? at hfirst ⊢
  rw [List.foldlM_append, hfirst]
  rfl

/-- Every record is indented by two spaces for each rule open around it. -/
def Indented (records : List Record) : Prop :=
  ∀ before record behind, records = before ++ record :: behind →
    ∃ opened, replay? [] before = some opened ∧
      record.text = String.ofList (List.replicate (2 * (record.around opened).length) ' ') ++
        record.event.text

/-- Records that can be replayed are indented. -/
theorem indented_of_replay? {records : List Record} {opened : List String}
    (h : replay? [] records = some opened) : Indented records := by
  rintro before record behind rfl
  unfold replay? at h
  rw [List.foldlM_append] at h
  obtain ⟨opened', hbefore, hrest⟩ := Option.bind_eq_some_iff.mp h
  rw [List.foldlM_cons] at hrest
  obtain ⟨opened'', hrecord, _⟩ := Option.bind_eq_some_iff.mp hrest
  refine ⟨opened', hbefore, ?_⟩
  unfold Record.replay? at hrecord
  split at hrecord
  · rename_i hdepth
    rw [← hdepth]
    rfl
  · cases hrecord

/-! ## The stack of a cursor -/

/-- The trace of a cursor can be replayed and leaves the rules open. -/
structure Cursor.Opens (s : Cursor) (opened : List String) : Prop where
  /-- The cursor makes a trace. -/
  enabled : s.tracer.enabled = true
  /-- The rules are counted. -/
  depth_eq : s.tracer.depth = opened.length
  /-- The records open and close the rules. -/
  replay_eq : replay? [] s.tracer.records.toList = some opened

/-- If a result is a success, the rules `opened'` are open behind it. If it is a
fault, then some rules are. -/
def LeavesOpen (opened' : List String) (r : Except Fault α × Cursor) : Prop :=
  match r with
  | (.ok _, s) => s.Opens opened'
  | (.error _, s) => ∃ opened, s.Opens opened

/-- After a success the open rules are known to what follows. -/
theorem LeavesOpen.andThen {opened opened' : List String} {r : Except Fault α × Cursor}
    {next : α → Cursor → Except Fault β × Cursor} (hfirst : LeavesOpen opened r)
    (hnext : ∀ a s, r = (.ok a, s) → s.Opens opened → LeavesOpen opened' (next a s)) :
    LeavesOpen opened' (Calculator.andThen r next) := by
  obtain ⟨fault | a, s⟩ := r
  · exact hfirst
  · exact hnext a s rfl hfirst

namespace Cursor.Opens

variable {s : Cursor} {opened : List String}

/-- One more record that can be replayed leads to the rules open after it. -/
theorem extended (h : s.Opens opened) {s' : Cursor} {record : Record} {opened' : List String}
    (hrecord : record.replay? opened = some opened')
    (htracer : s'.tracer = s.tracer.extended opened'.length [record]) : s'.Opens opened' where
  enabled := by rw [htracer]; rfl
  depth_eq := by rw [htracer]; rfl
  replay_eq := by
    have hrecords : s'.tracer.records.toList = s.tracer.records.toList ++ [record] := by
      simp [htracer, Tracer.extended]
    rw [hrecords, replay?_append h.replay_eq]
    simp [replay?, hrecord]

/-- A look ahead opens and closes nothing. -/
theorem peek (h : s.Opens opened) : LeavesOpen opened s.peek := by
  have htracer : s.peek.2.tracer = s.tracer := tracer_of_peek rfl
  have hopens : s.peek.2.Opens opened :=
    ⟨by rw [htracer, h.enabled], by rw [htracer, h.depth_eq], by rw [htracer, h.replay_eq]⟩
  cases hpeek : s.peek with
  | mk r s₁ =>
    rw [hpeek] at hopens
    cases r with
    | error fault => exact ⟨opened, hopens⟩
    | ok ahead => exact hopens

/-- Consuming a lexeme opens and closes nothing. -/
theorem consume (h : s.Opens opened) (ahead : Lexeme) : (s.consume ahead).Opens opened := by
  have hrecord : Record.replay? opened ⟨s.tracer.depth, .consume ahead⟩ = some opened := by
    simp [Record.replay?, Record.around, h.depth_eq]
  apply h.extended hrecord
  rw [← h.depth_eq]
  exact Tracer.consume_eq_extended h.enabled ahead

/-- Entering a rule opens it. -/
theorem enter (h : s.Opens opened) (rule : String) :
    LeavesOpen (rule :: opened) (s.enter rule) := by
  rw [enter_of_enabled h.enabled]
  apply h.peek.andThen
  intro ahead s₁ _ h₁
  have hrecord : Record.replay? opened ⟨s₁.tracer.depth, .enter rule ahead⟩ =
      some (rule :: opened) := by
    simp [Record.replay?, Record.around, h₁.depth_eq]
  apply h₁.extended hrecord
  rw [List.length_cons, ← h₁.depth_eq]
  exact Tracer.enter_eq_extended h₁.enabled rule ahead

/-- Leaving the innermost rule closes it. -/
theorem leave {rule : String} (h : s.Opens (rule :: opened)) (tree : Tree) :
    LeavesOpen opened (s.leave rule tree) := by
  have hexit : LeavesOpen opened (s.exit rule) := by
    rw [exit, if_pos h.enabled]
    apply h.peek.andThen
    intro ahead s₁ _ h₁
    have hdepth : s₁.tracer.depth - 1 = opened.length := by
      rw [h₁.depth_eq]
      rfl
    have hrecord : Record.replay? (rule :: opened) ⟨s₁.tracer.depth - 1, .exit rule ahead⟩ =
        some opened := by
      simp [Record.replay?, Record.around, hdepth]
    apply h₁.extended hrecord
    rw [← hdepth]
    exact Tracer.exit_eq_extended h₁.enabled rule ahead
  exact hexit.andThen fun _ s₁ _ h₁ => h₁

/-- Closing a group opens and closes no rule. -/
theorem close (h : s.Opens opened) (openedAt : Nat) (inner : Tree) :
    LeavesOpen opened (s.close openedAt inner) := by
  apply h.peek.andThen
  intro ahead s₁ _ h₁
  have hclosed := h₁.consume ahead
  cases ahead.token with
  | rightParen => exact ⟨hclosed.enabled, hclosed.depth_eq, hclosed.replay_eq⟩
  | endOfInput => exact ⟨opened, h₁⟩
  | number value => exact ⟨opened, h₁⟩
  | operator op => exact ⟨opened, h₁⟩
  | leftParen => exact ⟨opened, h₁⟩

/-- A group opens and closes no rule, if the chain inside it does not. -/
theorem group (h : s.Opens opened) {openedAt : Nat}
    (hchain : ∀ s₁, s.openGroup openedAt = (.ok (), s₁) → s₁.Opens opened →
      LeavesOpen opened (s₁.chain .additive)) :
    LeavesOpen opened (s.group openedAt) := by
  have hopen : LeavesOpen opened (s.openGroup openedAt) := by
    rcases s.openGroup_cases openedAt with hcase | hcase
    · rw [hcase]
      exact ⟨opened, h⟩
    · rw [hcase]
      exact ⟨h.enabled, h.depth_eq, h.replay_eq⟩
  apply hopen.andThen
  intro _ s₁ hopened h₁
  apply (hchain s₁ hopened h₁).andThen
  intro inner s₂ _ h₂
  exact h₂.close openedAt inner

end Cursor.Opens

/-- Every rule that succeeds closes what it opens. The rest of a chain also
closes the chain. -/
theorem Cursor.rules_leaveOpen :
    (∀ p s, ∀ opened, Cursor.Opens s opened → LeavesOpen opened (s.chain p)) ∧
    (∀ p s, ∀ opened, Cursor.Opens s opened → LeavesOpen opened (s.operand p)) ∧
    (∀ p left s, ∀ opened, Cursor.Opens s (p.rule :: opened) →
      LeavesOpen opened (s.chainRest p left)) ∧
    ∀ s, ∀ opened, Cursor.Opens s opened → LeavesOpen opened s.factor := by
  apply descent_induction
  · intro p s ih opened h
    rw [chain_eq]
    apply (h.enter p.rule).andThen
    intro _ s₁ henter h₁
    obtain ⟨hoperand, hrest⟩ := ih s₁ henter
    apply (hoperand _ h₁).andThen
    intro left s₂ hleft h₂
    exact hrest left s₂ hleft opened h₂
  · intro s hchain
    rwa [operand_additive]
  · intro s hfactor
    rwa [operand_multiplicative]
  · intro p left s ih opened h
    rw [chainRest_eq_chainRestAt]
    apply h.peek.andThen
    intro ahead s₁ hpeek h₁
    rcases ahead.stops_or_goesOn p with hstop | ⟨op, hop, hprecedence⟩
    · rw [chainRestAt_of_stop hstop]
      exact h₁.leave left
    · rw [chainRestAt_of_operator hop hprecedence]
      obtain ⟨hoperand, hrest⟩ := ih ahead s₁ op hpeek hop hprecedence
      apply (hoperand _ (h₁.consume ahead)).andThen
      intro right s₂ hright h₂
      exact hrest right s₂ hright opened h₂
  · intro s ih opened h
    rw [factor_eq_factorAt]
    apply (h.enter factorRule).andThen
    intro _ s₁ henter h₁
    apply h₁.peek.andThen
    intro ahead s₂ hpeek h₂
    unfold factorAt
    cases htoken : ahead.token with
    | number value => exact (h₂.consume ahead).leave _
    | leftParen =>
      have hgroup := (h₂.consume ahead).group fun s₃ hopen =>
        ih s₁ ahead s₂ s₃ henter hpeek htoken hopen _
      apply hgroup.andThen
      intro tree s₃ _ h₃
      exact h₃.leave tree
    | operator op => exact ⟨_, h₂⟩
    | rightParen => exact ⟨_, h₂⟩
    | endOfInput => exact ⟨_, h₂⟩

/-- Reading a whole text closes what it opens, if it succeeds. -/
theorem Cursor.Opens.expression {s : Cursor} {opened : List String} (h : s.Opens opened) :
    LeavesOpen opened s.expression := by
  rw [expression_eq_finish]
  apply h.peek.andThen
  intro ahead s₁ _ h₁
  split
  · apply (rules_leaveOpen.1 _ s₁ opened h₁).andThen
    intro tree s₂ _ h₂
    apply h₂.peek.andThen
    intro ahead s₃ _ h₃
    cases ahead.token with
    | endOfInput => exact h₃
    | number value => exact ⟨opened, h₃⟩
    | operator op => exact ⟨opened, h₃⟩
    | leftParen => exact ⟨opened, h₃⟩
    | rightParen => exact ⟨opened, h₃⟩
  · exact ⟨opened, h₁⟩

end Calculator
