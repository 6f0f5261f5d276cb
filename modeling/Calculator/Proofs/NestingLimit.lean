import Calculator.Proofs.TraceShape
import Calculator.Proofs.ViablePrefix

/-!
# The limit does nothing but limit

A text that is parsed under a limit, or fails for another reason, does the same
under every larger limit. A text fails because of the limit exactly if reading
it, under this limit or a larger one, consumes a left parenthesis in front of
which as many groups are open as the limit allows. The first such parenthesis is
the one reported. Groups that were closed again are not open.

The flat machine shows this. Under a larger limit it takes the same steps until
it comes to that parenthesis, and the lexemes that it goes over are those that
the rules consume.
-/

namespace Calculator

/-! ## Where a group is opened -/

/-- Behind the lexemes `before` a left parenthesis opens a group while `depth`
groups are open: `opened` that were open in front of the lexemes, and those that
were opened and not closed among them. -/
structure OpensAt (opened depth : Nat) (lexemes before : List Lexeme) (paren : Lexeme) : Prop where
  /-- The parenthesis is one of the lexemes. -/
  stands : before ++ [paren] <+: lexemes
  /-- It is a left parenthesis. -/
  token_eq : paren.token = .leftParen
  /-- The groups that are open in front of it. -/
  depth_eq : opened + (before.map Lexeme.token).count .leftParen =
    depth + (before.map Lexeme.token).count .rightParen

/-- More lexemes behind the parenthesis change nothing. -/
theorem OpensAt.of_prefix {opened depth : Nat} {lexemes lexemes' before : List Lexeme}
    {paren : Lexeme} (h : OpensAt opened depth lexemes before paren)
    (hbegins : lexemes <+: lexemes') : OpensAt opened depth lexemes' before paren :=
  ⟨h.stands.trans hbegins, h.token_eq, h.depth_eq⟩

/-- The parenthesis is the first one that opens a group while `depth` groups are
open. -/
structure OpensFirst (depth : Nat) (lexemes before : List Lexeme) (paren : Lexeme) : Prop
    extends OpensAt 0 depth lexemes before paren where
  /-- No other such parenthesis stands further in front. -/
  first : ∀ before' paren', OpensAt 0 depth lexemes before' paren' → before.length ≤ before'.length

/-- The first lexeme is the parenthesis, or it stands in front of it. -/
theorem OpensAt.of_cons {opened depth : Nat} {lexemes before : List Lexeme}
    {lexeme paren : Lexeme} (h : OpensAt opened depth (lexeme :: lexemes) before paren) :
    (before = [] ∧ lexeme.token = .leftParen ∧ opened = depth) ∨
    ∃ rest, before = lexeme :: rest ∧ ∀ opened',
      opened' + [lexeme.token].count .rightParen = opened + [lexeme.token].count .leftParen →
      OpensAt opened' depth lexemes rest paren := by
  obtain ⟨hstands, htoken, hdepth⟩ := h
  cases before with
  | nil =>
    obtain ⟨rfl, _⟩ := List.cons_prefix_cons.mp hstands
    exact Or.inl ⟨rfl, htoken, by simpa using hdepth⟩
  | cons first rest =>
    obtain ⟨rfl, hrest⟩ := List.cons_prefix_cons.mp hstands
    refine Or.inr ⟨rest, rfl, ?_⟩
    intro opened' hopened
    refine ⟨hrest, htoken, ?_⟩
    rw [List.map_cons, ← List.singleton_append, List.count_append, List.count_append] at hdepth
    omega

/-! ## The machine under two limits -/

namespace Machine

variable {m m' : Machine} {limit limit' size : Nat} {lexeme : Lexeme} {lexemes : List Lexeme}
  {found : Fault}

/-- The machine keeps the groups that were opened and not closed. -/
theorem opened_of_step (hstep : m.step limit size (.ok lexeme) = .ok m') :
    m'.opened.length + [lexeme.token].count .rightParen =
      m.opened.length + [lexeme.token].count .leftParen := by
  cases step_eq_ok_iff.mp hstep with
  | number htoken => simp [htoken]
  | leftParen htoken hlt => simp [htoken]
  | operator htoken => simp [htoken]
  | rightParen htoken => simp [htoken]
  | atEnd htoken => simp [htoken]

/-- A run keeps the groups that were opened and not closed. -/
theorem opened_of_run (hrun : m.run limit size (lexemes.map .ok) = .ok m') :
    m'.opened.length + (lexemes.map Lexeme.token).count .rightParen =
      m.opened.length + (lexemes.map Lexeme.token).count .leftParen := by
  induction lexemes generalizing m with
  | nil =>
    cases hrun
    rfl
  | cons lexeme lexemes ih =>
    obtain ⟨m₁, hstep, hrest⟩ := run_cons_eq_ok hrun
    have hfirst := opened_of_step hstep
    have hmore := ih hrest
    rw [List.map_cons, ← List.singleton_append, List.count_append, List.count_append]
    omega

/-- No step opens more groups than the limit allows. -/
theorem opened_le_of_run (hrun : m.run limit size (lexemes.map .ok) = .ok m')
    (hle : m.opened.length ≤ limit) : m'.opened.length ≤ limit := by
  induction lexemes generalizing m with
  | nil =>
    cases hrun
    exact hle
  | cons lexeme lexemes ih =>
    obtain ⟨m₁, hstep, hrest⟩ := run_cons_eq_ok hrun
    apply ih hrest
    cases step_eq_ok_iff.mp hstep with
    | number _ => exact hle
    | leftParen _ hlt => exact hlt
    | operator _ => exact hle
    | rightParen _ => exact Nat.le_of_succ_le hle
    | atEnd _ => exact hle

/-- A fault that is not about the limit is met under every larger limit. -/
theorem run_error_of_le {fault : Option Unrecognized} (hle : limit ≤ limit')
    (hreal : ∀ lexeme ∈ lexemes, lexeme.isReal = true)
    (hfound : ∀ l position, found ≠ .nestingTooDeep l position)
    (hrun : m.run limit size (Scan.items ⟨lexemes, fault, size⟩) = .error found) :
    m.run limit' size (Scan.items ⟨lexemes, fault, size⟩) = .error found := by
  rcases exists_failure hrun with
    ⟨before, bad, behind, m', rfl, hbefore, hstep⟩ | ⟨m', hall, hlast⟩
  · rw [Scan.items_append, run_append_of_run (run_of_le hle hbefore), Scan.items_cons]
    rcases step_eq_error (hreal bad (by simp)) hstep with ⟨_, _, rfl⟩ | ⟨hrefused, _⟩
    · exact absurd rfl (hfound limit bad.start)
    · exact run_of_step_error (hrefused limit') _
  · have hmore := run_append_of_run (run_of_le hle hall) (Scan.items ⟨[], fault, size⟩)
    rw [← Scan.items_append, List.append_nil] at hmore
    rw [hmore]
    rcases hlast with ⟨unrecognized, rfl, rfl⟩ | ⟨rfl, hstep⟩
    · exact run_of_step_error rfl []
    · -- The limit does not matter at the end of the input.
      have hend : m'.step limit' size (.ok (Lexeme.atEnd size)) = .error found := by
        obtain ⟨mode, opened, started⟩ := m'
        cases mode with
        | operand => exact hstep
        | operator => exact hstep
      exact run_of_step_error hend []

/-! ## The lexemes that the machine goes over -/

/-- The lexemes that the machine goes over before its run ends. A parenthesis
that opens one group too many is among them. -/
def goneOver (limit size : Nat) (m : Machine) : List Lexeme → List Lexeme
  | [] => []
  | lexeme :: lexemes =>
    match m.step limit size (.ok lexeme) with
    | .ok m' => lexeme :: m'.goneOver limit size lexemes
    | .error (.nestingTooDeep _ _) => [lexeme]
    | .error _ => []

/-- After a step the machine goes over the other lexemes. -/
theorem goneOver_of_step (hstep : m.step limit size (.ok lexeme) = .ok m')
    (lexemes : List Lexeme) :
    m.goneOver limit size (lexeme :: lexemes) = lexeme :: m'.goneOver limit size lexemes := by
  simp only [goneOver, hstep]

/-- The machine goes over a parenthesis too many and no further. -/
theorem goneOver_of_tooDeep {l position : Nat}
    (hstep : m.step limit size (.ok lexeme) = .error (.nestingTooDeep l position))
    (lexemes : List Lexeme) : m.goneOver limit size (lexeme :: lexemes) = [lexeme] := by
  simp only [goneOver, hstep]

/-- The machine does not go over a lexeme that is refused for another reason. -/
theorem goneOver_of_refused (hstep : m.step limit size (.ok lexeme) = .error found)
    (hfound : ∀ l position, found ≠ .nestingTooDeep l position) (lexemes : List Lexeme) :
    m.goneOver limit size (lexeme :: lexemes) = [] := by
  simp only [goneOver, hstep]

/-- The machine goes over everything that a run without a fault goes over. -/
theorem goneOver_append_of_run (hrun : m.run limit size (lexemes.map .ok) = .ok m')
    (more : List Lexeme) :
    m.goneOver limit size (lexemes ++ more) = lexemes ++ m'.goneOver limit size more := by
  induction lexemes generalizing m with
  | nil =>
    cases hrun
    rfl
  | cons lexeme lexemes ih =>
    obtain ⟨m₁, hstep, hrest⟩ := run_cons_eq_ok hrun
    rw [List.cons_append, goneOver_of_step hstep, ih hrest, List.cons_append]

/-- Where an operand is expected, the machine goes over a left parenthesis under
every limit. -/
theorem exists_goneOver_leftParen (hmode : m.mode = .operand) (htoken : lexeme.token = .leftParen)
    (limit size : Nat) (lexemes : List Lexeme) :
    ∃ rest, m.goneOver limit size (lexeme :: lexemes) = lexeme :: rest := by
  obtain ⟨mode, opened, started⟩ := m
  cases hmode
  by_cases hlt : opened.length < limit
  · exact ⟨_, goneOver_of_step (step_leftParen htoken hlt) lexemes⟩
  · exact ⟨[], goneOver_of_tooDeep (step_leftParen_error htoken (by omega)) lexemes⟩

/-- Under a larger limit the machine goes at least as far. -/
theorem goneOver_prefix_of_le (hle : limit ≤ limit')
    (hreal : ∀ lexeme ∈ lexemes, lexeme.isReal = true) :
    m.goneOver limit size lexemes <+: m.goneOver limit' size lexemes := by
  induction lexemes generalizing m with
  | nil => exact List.prefix_rfl
  | cons lexeme lexemes ih =>
    cases hstep : m.step limit size (.ok lexeme) with
    | ok m₁ =>
      rw [goneOver_of_step hstep, goneOver_of_step (step_of_le hle hstep)]
      apply (List.prefix_cons_inj lexeme).mpr
      exact ih fun lexeme' hlexeme => hreal lexeme' (List.mem_cons_of_mem _ hlexeme)
    | error found =>
      rcases step_eq_error (hreal lexeme (by simp)) hstep with
        ⟨hmode, htoken, rfl⟩ | ⟨_, hfound⟩
      · obtain ⟨rest, hrest⟩ := exists_goneOver_leftParen hmode htoken limit' size lexemes
        rw [goneOver_of_tooDeep hstep, hrest]
        exact ⟨rest, rfl⟩
      · rw [goneOver_of_refused hstep (by rintro l position rfl; simp at hfound)]
        exact List.nil_prefix

/-- Where the machine reports a group too many, it has gone over a parenthesis
with as many groups open as the limit allows, and this was the last lexeme. -/
theorem exists_opensAt_of_tooDeep {fault : Option Unrecognized} {l position : Nat}
    (hle : m.opened.length ≤ limit) (hreal : ∀ lexeme ∈ lexemes, lexeme.isReal = true)
    (hrun : m.run limit size (Scan.items ⟨lexemes, fault, size⟩) =
      .error (.nestingTooDeep l position)) :
    l = limit ∧ ∃ before paren, m.goneOver limit size lexemes = before ++ [paren] ∧
      OpensAt m.opened.length limit (before ++ [paren]) before paren ∧ paren.start = position := by
  rcases exists_failure hrun with
    ⟨before, bad, behind, m', rfl, hbefore, hstep⟩ | ⟨m', _, ⟨_, _, heq⟩ | ⟨_, hstep⟩⟩
  · rcases step_eq_error (hreal bad (by simp)) hstep with ⟨hmode, htoken, hfound⟩ | ⟨_, hfound⟩
    · cases hfound
      have hcount := opened_of_run hbefore
      have hmost := opened_le_of_run hbefore hle
      have hleast : limit ≤ m'.opened.length := by
        apply Nat.le_of_not_lt
        intro hlt
        obtain ⟨mode, opened, started⟩ := m'
        cases hmode
        rw [step_leftParen htoken hlt] at hstep
        cases hstep
      refine ⟨rfl, before, bad, ?_, ⟨List.prefix_rfl, htoken, by omega⟩, rfl⟩
      rw [goneOver_append_of_run hbefore, goneOver_of_tooDeep hstep]
    · simp at hfound
  · cases heq
  · cases (step_atEnd_eq_error hstep).1

/-- If the machine goes over a parenthesis with as many groups open as a smaller
limit allows, then under that limit it reports a group too many, and there or
earlier. -/
theorem tooDeep_of_opensAt {before : List Lexeme} {paren : Lexeme} (fault : Option Unrecognized)
    (hle : limit ≤ limit') (hreal : ∀ lexeme ∈ lexemes, lexeme.isReal = true)
    (hopens : OpensAt m.opened.length limit (m.goneOver limit' size lexemes) before paren) :
    (∃ position, m.run limit size (Scan.items ⟨lexemes, fault, size⟩) =
      .error (.nestingTooDeep limit position)) ∧
    (m.goneOver limit size lexemes).length ≤ before.length + 1 := by
  induction lexemes generalizing m before with
  | nil =>
    have hnil := List.prefix_nil.mp hopens.stands
    simp at hnil
  | cons lexeme lexemes ih =>
    rw [Scan.items_cons]
    cases hstep : m.step limit size (.ok lexeme) with
    | ok m₁ =>
      rw [goneOver_of_step (step_of_le hle hstep)] at hopens
      rw [run_of_step hstep, goneOver_of_step hstep]
      rcases hopens.of_cons with ⟨_, htoken, hfull⟩ | ⟨rest, rfl, hrest⟩
      · -- Under the smaller limit no group could be opened here.
        cases step_eq_ok_iff.mp hstep with
        | leftParen _ hlt =>
          simp only at hfull
          omega
        | number htoken' => rw [htoken'] at htoken; cases htoken
        | operator htoken' => rw [htoken'] at htoken; cases htoken
        | rightParen htoken' => rw [htoken'] at htoken; cases htoken
        | atEnd htoken' => rw [htoken'] at htoken; cases htoken
      · obtain ⟨hrun, hlength⟩ :=
          ih (fun lexeme' hlexeme => hreal lexeme' (List.mem_cons_of_mem _ hlexeme))
            (hrest _ (opened_of_step hstep))
        refine ⟨hrun, ?_⟩
        simp only [List.length_cons]
        omega
    | error found =>
      rcases step_eq_error (hreal lexeme (by simp)) hstep with
        ⟨_, _, rfl⟩ | ⟨hrefused, hfound⟩
      · rw [goneOver_of_tooDeep hstep]
        refine ⟨⟨_, run_of_step_error hstep _⟩, ?_⟩
        simp only [List.length_singleton]
        omega
      · rw [goneOver_of_refused (hrefused limit') (by rintro l position rfl; simp at hfound)]
          at hopens
        have hnil := List.prefix_nil.mp hopens.stands
        simp at hnil

end Machine

/-! ## What is consumed under a limit -/

/-- Only one lexeme of a scan starts at an offset. -/
theorem Scan.Ascending.eq_of_start {lexemes before behind : List Lexeme} {lexeme lexeme' : Lexeme}
    {fault : Option Unrecognized} (h : Ascending lexemes fault)
    (hsplit : lexemes = before ++ lexeme :: behind) (hmem : lexeme' ∈ lexemes)
    (hstart : lexeme'.start = lexeme.start) : lexeme' = lexeme := by
  obtain ⟨before', behind', hsplit'⟩ := List.append_of_mem hmem
  have hfilter : lexemes.filter (·.start < lexeme.start) = before := by
    rw [hsplit] at h ⊢
    exact h.filter_start
  have hfilter' : lexemes.filter (·.start < lexeme'.start) = before' := by
    rw [hsplit'] at h ⊢
    exact h.filter_start
  rw [hstart, hfilter] at hfilter'
  rw [hsplit, hfilter'] at hsplit'
  have htail := List.append_cancel_left hsplit'
  cases htail
  rfl

/-- The lexemes that are consumed in front of a fault are those that the machine
goes over. -/
theorem Fault.Consumed.eq_goneOver {lexemes consumed : List Lexeme} {fault : Option Unrecognized}
    {limit size : Nat} {found : Fault} (h : found.Consumed lexemes consumed)
    (hreal : ∀ lexeme ∈ lexemes, lexeme.isReal = true) (hascending : Scan.Ascending lexemes fault)
    (hrun : Machine.initial.run limit size (Scan.items ⟨lexemes, fault, size⟩) = .error found) :
    consumed = Machine.initial.goneOver limit size lexemes := by
  rcases Machine.exists_failure hrun with
    ⟨before, bad, behind, m, hsplit, hbefore, hstep⟩ | ⟨m, hall, hlast⟩
  · have hfilter : lexemes.filter (·.start < bad.start) = before := by
      rw [hsplit] at hascending ⊢
      exact hascending.filter_start
    have hgone : Machine.initial.goneOver limit size lexemes =
        before ++ m.goneOver limit size (bad :: behind) := by
      rw [hsplit, Machine.goneOver_append_of_run hbefore]
    rw [hgone]
    rcases Machine.step_eq_error (hreal bad (by rw [hsplit]; simp)) hstep with
      ⟨_, _, rfl⟩ | ⟨_, ⟨expected, rfl⟩ | rfl⟩
    · obtain ⟨paren, hmem, _, hstart, rfl⟩ := h
      rw [hfilter, Machine.goneOver_of_tooDeep hstep,
        hascending.eq_of_start hsplit hmem hstart]
    · rw [Machine.goneOver_of_refused hstep (by simp), List.append_nil, ← hfilter]
      exact h
    · rw [Machine.goneOver_of_refused hstep (by simp), List.append_nil, ← hfilter]
      exact h
  · have hgone := Machine.goneOver_append_of_run hall []
    rw [List.append_nil, Machine.goneOver, List.append_nil] at hgone
    rw [hgone]
    rcases hlast with ⟨unrecognized, rfl, rfl⟩ | ⟨_, hstep⟩
    · have hbehind := hascending.fault_behind unrecognized rfl
      have hfilter : lexemes.filter (·.start < unrecognized.position) = lexemes := by
        rw [List.filter_eq_self]
        intro lexeme hlexeme
        simpa using hbehind lexeme hlexeme
      exact Eq.trans h hfilter
    · have hend := (Machine.step_atEnd_eq_error hstep).1
      cases found with
      | emptyInput => exact h
      | unexpectedEnd expected position => exact h
      | unclosedGroup openedAt position => exact h
      | unrecognized unrecognized => cases hend
      | unexpectedToken expected text position => cases hend
      | trailingToken text position => cases hend
      | nestingTooDeep l position => cases hend

/-- The lexemes that are recorded as consumed while a text is read are those that
the machine goes over. -/
theorem Settings.consumptions_eq_goneOver (source : String) (limit : Nat) :
    consumptions (Settings.records ⟨true, limit⟩ source) =
      Machine.initial.goneOver limit source.utf8ByteSize (scan source).lexemes := by
  have hfaces := Cursor.faces_ofSource source limit
  have huntraced := Settings.parse_eq_untraced ⟨true, limit⟩ source
  rcases hread : Settings.read ⟨true, limit⟩ source with ⟨result, s'⟩
  have hrecords : Settings.records ⟨true, limit⟩ source = s'.tracer.records.toList := by
    simp only [Settings.records, hread]
  have hparse : Settings.parse ⟨true, limit⟩ source = result := by
    simp only [Settings.parse, hread]
  rw [hparse] at huntraced
  rw [hrecords]
  cases result with
  | ok tree =>
    obtain ⟨d, hlexemes, _, hshape⟩ := Cursor.records_of_expression hread
    obtain ⟨_, hderives, hdeep⟩ :=
      hfaces.derives_of_expression (Prod.ext huntraced.symm rfl)
    have hrun : Machine.initial.run limit source.utf8ByteSize ((scan source).lexemes.map .ok) =
        .ok ⟨.operator, [], true⟩ := hderives.run_phrase _ false rfl hdeep
    have hgone := Machine.goneOver_append_of_run hrun []
    rw [List.append_nil, Machine.goneOver, List.append_nil] at hgone
    rw [hshape, d.consumptions_records, hlexemes, hgone]
  | error found =>
    obtain ⟨hfollows, hconsumed, hstops⟩ := Cursor.consumed_of_expression hread
    obtain ⟨hwhere, hcause⟩ := hstops found rfl
    have hrun := (hfaces.expression_eq_error_iff found).mp huntraced.symm
    exact (hfollows.consumed_of_stopsAt hwhere hcause hconsumed (scan_ascending source)
      (scan_isReal source)).eq_goneOver (scan_isReal source) (scan_ascending source) hrun

/-! ## Parsing under two limits -/

section Limits

variable {source : String} {limit limit' : Nat}

/-- What is no matter of the limit does not change with a larger one. -/
theorem Settings.parse_eq_of_le {traced traced' : Bool} (hle : limit ≤ limit')
    (hparse : ∀ l position,
      Settings.parse ⟨traced, limit⟩ source ≠ .error (.nestingTooDeep l position)) :
    Settings.parse ⟨traced', limit'⟩ source = Settings.parse ⟨traced, limit⟩ source := by
  have hfaces := Cursor.faces_ofSource source limit
  have hfaces' := Cursor.faces_ofSource source limit'
  simp only [Settings.parse_eq_untraced] at hparse ⊢
  cases hread : (Cursor.ofSource source {} limit).expression.1 with
  | ok tree =>
    obtain ⟨hfault, hderives, hdeep⟩ := hfaces.derives_of_expression (Prod.ext hread rfl)
    obtain ⟨s', hread'⟩ :=
      hfaces'.expression_of_derives hfault hderives (Nat.le_trans hdeep hle)
    rw [hread']
  | error found =>
    have hrun := (hfaces.expression_eq_error_iff found).mp hread
    have hfound (l position : Nat) : found ≠ .nestingTooDeep l position := by
      rintro rfl
      exact hparse l position hread
    exact (hfaces'.expression_eq_error_iff found).mpr
      (Machine.run_error_of_le hle (scan_isReal source) hfound hrun)

/-- The parenthesis that is reported is the first one that opens a group while as
many are open as the limit allows. -/
theorem Settings.opensFirst_of_tooDeep {traced : Bool} {l position : Nat} (hle : limit ≤ limit')
    (hparse : Settings.parse ⟨traced, limit⟩ source = .error (.nestingTooDeep l position)) :
    l = limit ∧ ∃ before paren,
      OpensFirst limit (consumptions (Settings.records ⟨true, limit'⟩ source)) before paren ∧
        paren.start = position := by
  rw [Settings.parse_eq_untraced] at hparse
  have hreal := scan_isReal source
  have hrun := ((Cursor.faces_ofSource source limit).expression_eq_error_iff _).mp hparse
  obtain ⟨hlimit, before, paren, hgone, hopens, hstart⟩ :=
    Machine.exists_opensAt_of_tooDeep (Nat.zero_le limit) hreal hrun
  have hfurther : before ++ [paren] <+:
      Machine.initial.goneOver limit' source.utf8ByteSize (scan source).lexemes := by
    rw [← hgone]
    exact Machine.goneOver_prefix_of_le hle hreal
  rw [Settings.consumptions_eq_goneOver]
  refine ⟨hlimit, before, paren, ⟨hopens.of_prefix hfurther, ?_⟩, hstart⟩
  intro before' paren' hopens'
  have hlength := (Machine.tooDeep_of_opensAt (m := Machine.initial) none hle hreal hopens').2
  rw [hgone, List.length_append, List.length_singleton] at hlength
  omega

/-- The limit does nothing but limit. Unless a text fails because of the limit,
it is parsed into the same tree, or fails with the same fault, under every larger
limit. It fails because of the limit exactly if reading it under the larger limit
consumes a left parenthesis while as many groups are open as the limit allows,
and then the first such parenthesis is reported. -/
theorem Settings.parse_under_larger_limit (source : String) (traced traced' : Bool)
    (limit limit' : Nat) (hle : limit ≤ limit') :
    ((∀ l position, Settings.parse ⟨traced, limit⟩ source ≠ .error (.nestingTooDeep l position)) →
      Settings.parse ⟨traced', limit'⟩ source = Settings.parse ⟨traced, limit⟩ source) ∧
    ((∃ l position, Settings.parse ⟨traced, limit⟩ source = .error (.nestingTooDeep l position)) ↔
      ∃ before paren,
        OpensAt 0 limit (consumptions (Settings.records ⟨true, limit'⟩ source)) before paren) ∧
    ∀ l position, Settings.parse ⟨traced, limit⟩ source = .error (.nestingTooDeep l position) →
      l = limit ∧ ∃ before paren,
        OpensFirst limit (consumptions (Settings.records ⟨true, limit'⟩ source)) before paren ∧
          paren.start = position := by
  refine ⟨Settings.parse_eq_of_le hle, ⟨?_, ?_⟩, fun _ _ => Settings.opensFirst_of_tooDeep hle⟩
  · rintro ⟨l, position, hparse⟩
    obtain ⟨_, before, paren, hfirst, _⟩ := Settings.opensFirst_of_tooDeep hle hparse
    exact ⟨before, paren, hfirst.toOpensAt⟩
  · rintro ⟨before, paren, hopens⟩
    rw [Settings.consumptions_eq_goneOver] at hopens
    obtain ⟨position, hrun⟩ := (Machine.tooDeep_of_opensAt (m := Machine.initial)
      (scan source).fault hle (scan_isReal source) hopens).1
    exact ⟨limit, position, Settings.parse_error_of_run rfl hrun⟩

end Limits

/-- The group that was closed does not count, so the parenthesis at offset 5 is
the first one that opens a group inside another. -/
theorem Settings.parse_under_larger_limit_behind_group :
    1 ≤ 3 ∧ Settings.parse ⟨false, 1⟩ "(1)*((2" = .error (.nestingTooDeep 1 5) ∧
      ∃ before paren,
        OpensFirst 1 (consumptions (Settings.records ⟨true, 3⟩ "(1)*((2")) before paren ∧
          paren.start = 5 := by
  have hscan : scan "(1)*((2" = ⟨[⟨.leftParen, 0, 1⟩, ⟨.number 1, 1, 2⟩, ⟨.rightParen, 2, 3⟩,
      ⟨.operator .multiply, 3, 4⟩, ⟨.leftParen, 4, 5⟩, ⟨.leftParen, 5, 6⟩, ⟨.number 2, 6, 7⟩],
      none, 7⟩ := by decide +kernel
  have hparse : Settings.parse ⟨false, 1⟩ "(1)*((2" = .error (.nestingTooDeep 1 5) :=
    Settings.parse_error_of_run hscan rfl
  have hle : 1 ≤ 3 := by omega
  have hfirst := (Settings.parse_under_larger_limit "(1)*((2" false false 1 3 hle).2.2 1 5 hparse
  exact ⟨hle, hparse, hfirst.2⟩

end Calculator
