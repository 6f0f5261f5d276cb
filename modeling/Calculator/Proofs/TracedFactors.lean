import Calculator.Proofs.Ahead
import Calculator.Proofs.Parsing

/-!
# Single factors under tracing

An untraced factor does not look at what stands behind it. A traced one does when
it is left, and hands on the fault if that is what it finds. So of all rules the
one for factors can be told apart under tracing when it is called by itself, and
this happens exactly where an unrecognized character stands directly behind a
factor that was read: there the traced rule fails, and uses the fault up, although
the factor is complete.
-/

namespace Calculator

namespace Cursor

/-- The cursor with an enabled tracer. -/
def traced (s : Cursor) (depth : Nat) (records : Array Record) : Cursor :=
  { s with tracer := ⟨true, depth, records⟩ }

/-- The unrecognized character is what a look ahead meets. -/
structure AtFault (s : Cursor) (cause : Unrecognized) : Prop where
  /-- Nothing has been looked at. -/
  lookahead : s.lookahead = none
  /-- No lexeme stands in front of the character. -/
  upcoming : s.upcoming = []
  /-- The character has not been reported. -/
  fault : s.fault = some cause

/-- A look ahead fails exactly with the character that is met. -/
theorem peek_eq_error_iff {s s₁ : Cursor} {found : Fault} :
    s.peek = (.error found, s₁) ↔
      ∃ cause, found = .unrecognized cause ∧ s.AtFault cause ∧ s₁ = { s with fault := none } := by
  constructor
  · intro hpeek
    rcases s.peek_cases with ⟨_, _, hcase⟩ | ⟨_, _, _, _, hcase⟩ |
      ⟨cause, hlookahead, hupcoming, hfault, hcase⟩ | ⟨_, _, _, hcase⟩
    · rw [hcase] at hpeek
      cases hpeek
    · rw [hcase] at hpeek
      cases hpeek
    · rw [hcase] at hpeek
      cases hpeek
      exact ⟨cause, rfl, ⟨hlookahead, hupcoming, hfault⟩, rfl⟩
    · rw [hcase] at hpeek
      cases hpeek
  · rintro ⟨cause, rfl, ⟨hlookahead, hupcoming, hfault⟩, rfl⟩
    unfold peek
    simp only [hlookahead, hupcoming, hfault]

/-! ## What a traced factor leaves behind -/

/-- With an enabled tracer, a rule is left with the lookahead filled. -/
theorem lookahead_of_leave {s s₁ : Cursor} {rule : String} {tree tree' : Tree}
    (henabled : s.tracer.enabled = true) (hleave : s.leave rule tree = (.ok tree', s₁)) :
    s₁.lookahead ≠ none := by
  obtain ⟨_, s₂, hexit, hsame⟩ := andThen_eq_ok hleave
  cases hsame
  rw [exit, if_pos henabled] at hexit
  obtain ⟨ahead, s₃, hpeek, hnote⟩ := andThen_eq_ok hexit
  cases hnote
  change s₃.lookahead ≠ none
  rw [lookahead_of_peek hpeek]
  exact Option.some_ne_none ahead

/-- Behind a traced factor the lookahead is filled. -/
theorem lookahead_of_factor {s s' : Cursor} {tree : Tree} (henabled : s.tracer.enabled = true)
    (hfactor : s.factor = (.ok tree, s')) : s'.lookahead ≠ none := by
  have hkept := Contract.recording_kept
  rw [factor_eq_factorAt] at hfactor
  obtain ⟨_, s₁, henter, hfactor⟩ := andThen_eq_ok hfactor
  obtain ⟨ahead, s₂, hpeek, hfactor⟩ := andThen_eq_ok hfactor
  have henabled₁ : s₁.tracer.enabled = true := by
    have hholds := hkept.enterRule s .factor
    rw [henter] at hholds
    exact hholds.1.trans henabled
  have henabled₂ : s₂.tracer.enabled = true := by rw [tracer_of_peek hpeek, henabled₁]
  unfold factorAt at hfactor
  cases htoken : ahead.token with
  | number value =>
    simp only [htoken] at hfactor
    have hconsumed := (s₂.tracer.consumptions_consume ahead).1.trans henabled₂
    exact lookahead_of_leave hconsumed hfactor
  | leftParen =>
    simp only [htoken] at hfactor
    obtain ⟨inner, s₃, hgroup, hleave⟩ := andThen_eq_ok hfactor
    have hholds := hkept.grouping (lookahead_of_peek hpeek) htoken fun s₄ _ => hkept.rules.1 _ s₄
    rw [hgroup] at hholds
    exact lookahead_of_leave (hholds.1.trans henabled₂) hleave
  | operator op => simp [htoken] at hfactor
  | rightParen => simp [htoken] at hfactor
  | endOfInput => simp [htoken] at hfactor

/-- A success that leaves the lookahead filled is settled. -/
theorem settled_eq_self {r : Reading}
    (hfilled : ∀ tree s, r = (.ok tree, s) → s.lookahead ≠ none) : settled r = r := by
  obtain ⟨fault | tree, s⟩ := r
  · rfl
  · have hne := hfilled tree s rfl
    obtain ⟨ahead, hahead⟩ := Option.ne_none_iff_exists'.mp hne
    have hpeek : s.peek = (.ok ahead, s) := by
      unfold peek
      simp [hahead]
    rw [settled, andThen_ok, hpeek, andThen_ok]

/-- A traced factor is the untraced one followed by a look ahead. -/
theorem quietly_traced_factor (s : Cursor) (depth : Nat) (records : Array Record) :
    quietly (s.traced depth records).factor = settled s.quiet.factor := by
  have hsettled : settled (quietly (s.traced depth records).factor) = settled s.quiet.factor :=
    quietly_rules.2.2.2 (s.traced depth records)
  rw [← hsettled]
  symm
  apply settled_eq_self
  intro tree s' hok
  cases hfactor : (s.traced depth records).factor with
  | mk r s₁ =>
    rw [hfactor] at hok
    cases hok
    have hfilled : s₁.lookahead ≠ none := lookahead_of_factor rfl hfactor
    exact hfilled

end Cursor

/-! ## Where the two readings agree -/

/-- Two readings give the same tree or fault, leave the same ahead, with the fault
of the scan if it is still to be reported, and leave as many groups open. -/
structure Reading.Agrees (r r' : Reading) : Prop where
  /-- The same tree, or the same fault. -/
  result : r.1 = r'.1
  /-- The same is ahead. -/
  items : r.2.items = r'.2.items
  /-- As many groups are open. -/
  nesting : r.2.nesting = r'.2.nesting

namespace Reading

/-- Agreement does not depend on the tracer. -/
theorem agrees_quietly_iff {r r' : Reading} : Agrees (quietly r) r' ↔ Agrees r r' :=
  ⟨fun h => ⟨h.result, h.items, h.nesting⟩, fun h => ⟨h.result, h.items, h.nesting⟩⟩

/-- A look ahead makes no difference unless it meets an unrecognized character. -/
theorem agrees_settled {r : Reading}
    (hclear : ∀ tree s cause, r = (.ok tree, s) → ¬ s.AtFault cause) : Agrees (settled r) r := by
  obtain ⟨fault | tree, s⟩ := r
  · exact ⟨rfl, rfl, rfl⟩
  · have hnesting := s.nesting_peek
    rw [settled, andThen_ok]
    cases hpeek : s.peek with
    | mk look s₁ =>
      rw [hpeek] at hnesting
      cases look with
      | ok ahead => exact ⟨rfl, congrArg Scan.items (Cursor.rest_of_peek hpeek), hnesting⟩
      | error found =>
        obtain ⟨cause, _, hat, _⟩ := Cursor.peek_eq_error_iff.mp hpeek
        exact absurd hat (hclear tree s cause rfl)

/-- A look ahead at an unrecognized character is a failure. -/
theorem settled_of_atFault {s : Cursor} {cause : Unrecognized} (hat : s.AtFault cause)
    (tree : Tree) :
    settled (.ok tree, s) = (.error (.unrecognized cause), { s with fault := none }) := by
  rw [settled, andThen_ok, Cursor.peek_eq_error_iff.mpr ⟨cause, rfl, hat, rfl⟩, andThen_error]

end Reading

/-- From every cursor, a factor is read the same with and without tracing exactly
if the untraced rule does not end directly before an unrecognized character. Where
it does, the traced rule fails with this character, which is then used up, and
only the groups that are open are the same. -/
theorem Cursor.factor_agrees_iff (s : Cursor) (depth : Nat) (records : Array Record) :
    ((s.traced depth records).factor.Agrees s.quiet.factor ↔
      ¬ ∃ tree cause, s.quiet.factor.1 = .ok tree ∧ s.quiet.factor.2.AtFault cause) ∧
    ∀ tree cause, s.quiet.factor.1 = .ok tree → s.quiet.factor.2.AtFault cause →
      (s.traced depth records).factor.1 = .error (.unrecognized cause) ∧
      (s.traced depth records).factor.2.fault = none ∧
      (s.traced depth records).factor.2.nesting = s.quiet.factor.2.nesting := by
  have hfactor := s.quietly_traced_factor depth records
  have hfails : ∀ tree cause, s.quiet.factor.1 = .ok tree → s.quiet.factor.2.AtFault cause →
      quietly (s.traced depth records).factor =
        (.error (.unrecognized cause), { s.quiet.factor.2 with fault := none }) := by
    intro tree cause hok hat
    have huntraced : s.quiet.factor = (.ok tree, s.quiet.factor.2) := Prod.ext hok rfl
    rw [hfactor, huntraced]
    exact Reading.settled_of_atFault hat tree
  refine ⟨⟨?_, ?_⟩, ?_⟩
  · rintro hagrees ⟨tree, cause, hok, hat⟩
    have herror := congrArg Prod.fst (hfails tree cause hok hat)
    have hsame := herror.symm.trans (hagrees.result.trans hok)
    cases hsame
  · intro hclear
    rw [← Reading.agrees_quietly_iff, hfactor]
    apply Reading.agrees_settled
    intro tree s' cause hok hat
    exact hclear ⟨tree, cause, by rw [hok], by rwa [hok]⟩
  · intro tree cause hok hat
    have htraced := hfails tree cause hok hat
    exact ⟨congrArg Prod.fst htraced, congrArg (fun r => r.2.fault) htraced,
      congrArg (fun r => r.2.nesting) htraced⟩

/-- Behind the number of this text stands a character that begins no token. Without
tracing the number is read, with tracing the rule fails. -/
theorem Cursor.factor_disagrees_before_character :
    (ofSource "1$" { enabled := false } 256).factor.1 = .ok (.leaf 1) ∧
      (ofSource "1$" { enabled := true } 256).factor.1 = .error (.unrecognized ⟨'$', 1⟩) ∧
      ¬ (ofSource "1$" { enabled := true } 256).factor.Agrees
        (ofSource "1$" { enabled := false } 256).factor := by
  have hscan : scan "1$" = ⟨[⟨.number 1, 0, 1⟩], some ⟨'$', 1⟩, 2⟩ := by decide +kernel
  have hfaces := faces_ofSource "1$" 256
  rw [hscan] at hfaces
  obtain ⟨s', hfactor, hfaces'⟩ := hfaces.factor_number rfl
  obtain ⟨s₁, hpeek⟩ := hfaces'.peek_fault
  have hquiet : quietly (ofSource "1$" { enabled := true } 256).factor =
      (.error (.unrecognized ⟨'$', 1⟩), s₁) := by
    have hsettled : quietly (ofSource "1$" { enabled := true } 256).factor =
        settled (ofSource "1$" {} 256).factor :=
      (ofSource "1$" {} 256).quietly_traced_factor 0 #[]
    rw [hsettled, hfactor, settled, andThen_ok, hpeek, andThen_error]
  have huntraced : (ofSource "1$" { enabled := false } 256).factor.1 = .ok (.leaf 1) :=
    congrArg Prod.fst hfactor
  have htraced : (ofSource "1$" { enabled := true } 256).factor.1 =
      .error (.unrecognized ⟨'$', 1⟩) := congrArg Prod.fst hquiet
  refine ⟨huntraced, htraced, ?_⟩
  intro hagrees
  have hsame := hagrees.result
  rw [huntraced, htraced] at hsame
  cases hsame

end Calculator
