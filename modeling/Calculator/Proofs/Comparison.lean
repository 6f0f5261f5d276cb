import Calculator.Proofs.Coincidence
import Calculator.Proofs.Quantities

/-!
# Comparing trees

Two trees are compared by a loop over pending pairs, which stops at the first pair
that differs. Each turn takes one leaf or node off both sides, so the loop cannot
go on for longer than the smaller tree has parts, and at every point the trees are
equal if and only if all pending pairs agree. Numbers are equal if they have the
same value. This is not a reflexive relation, but it is symmetric and transitive,
and so is equality of trees.
-/

namespace Calculator

/-! ## Equal numbers -/

namespace Number

/-- Two numbers have the same value: they are finite and stand for the same
rational number, or they are infinite and have the same sign. -/
inductive Equal : Float → Float → Prop
  /-- Finite numbers are equal if they stand for the same rational number. -/
  | finite {x y : Float} : x.isFinite = true → y.isFinite = true → quantity x = quantity y →
      Equal x y
  /-- Infinite numbers are equal if they have the same sign. -/
  | infinite {x y : Float} : x.isInf = true → y.isInf = true → sign x = sign y → Equal x y

/-- The sign of a number is in its sign bit. -/
theorem sign_eq_negative_iff (x : Float) : sign x = .negative ↔ signBit ≤ x.toBits.toNat := by
  unfold sign
  split_ifs with hnegative
  · exact ⟨fun _ => hnegative, fun _ => rfl⟩
  · exact ⟨fun h => absurd h (by decide), fun h => absurd h hnegative⟩

/-- The numbers with the pattern zero are the two zeros. -/
theorem pattern_eq_zero_iff {x : Float} : pattern x = 0 ↔ x = 0 ∨ x = -0 := by
  constructor
  · intro hzero
    by_cases hnegative : signBit ≤ x.toBits.toNat
    · right
      exact eq_of_pattern_eq ⟨fun _ => by decide, fun _ => hnegative⟩ (hzero.trans (by decide))
    · left
      exact eq_of_pattern_eq ⟨fun h => absurd h hnegative, fun h => absurd h (by decide)⟩
        (hzero.trans (by decide))
  · rintro (rfl | rfl) <;> decide

/-- Finite numbers that stand for the same rational number have the same pattern. -/
theorem pattern_eq_of_quantity_eq {x y : Float} (hx : pattern x < Magnitude.infinity)
    (hy : pattern y < Magnitude.infinity) (hsame : quantity x = quantity y) :
    pattern x = pattern y := by
  have hquanta := abs_quantity hx
  rw [hsame, abs_quantity hy] at hquanta
  exact Magnitude.quanta_strictMono.injective (by exact_mod_cast hquanta.symm)

/-- A finite number other than zero is negative exactly if its sign bit is set. -/
theorem signBit_le_iff {x : Float} (hx : pattern x < Magnitude.infinity) (hne : quantity x ≠ 0) :
    signBit ≤ x.toBits.toNat ↔ quantity x < 0 := by
  have hsigned := quantity_signed hx
  split_ifs at hsigned with hnegative
  · exact ⟨fun _ => lt_of_le_of_ne hsigned hne, fun _ => hnegative⟩
  · exact ⟨fun h => absurd h hnegative, fun h => absurd h (not_lt.mpr hsigned)⟩

/-- A finite number is not the value that is no number, and neither is an infinite
one. -/
theorem ne_nan_of_pattern_le {x : Float} (hx : pattern x ≤ Magnitude.infinity) : x ≠ Float.nan :=
  fun hnan => absurd (eq_nan_iff_pattern.mp hnan) (Nat.not_lt.mpr hx)

/-- Equal numbers are the same, or they are zeros. -/
theorem Equal.eq_or_zero {x y : Float} (h : Equal x y) :
    pattern x ≤ Magnitude.infinity ∧ pattern y ≤ Magnitude.infinity ∧
      (x = y ∨ pattern x = 0 ∧ pattern y = 0) := by
  cases h with
  | finite hx hy hsame =>
    rw [isFinite_iff_pattern] at hx hy
    have hpattern := pattern_eq_of_quantity_eq hx hy hsame
    refine ⟨hx.le, hy.le, ?_⟩
    by_cases hzero : quantity x = 0
    · rw [quantity_eq_zero_iff hx] at hzero
      exact Or.inr ⟨hzero, hpattern.symm.trans hzero⟩
    · left
      have hne : quantity y ≠ 0 := hsame ▸ hzero
      refine eq_of_pattern_eq ?_ hpattern
      rw [signBit_le_iff hx hzero, signBit_le_iff hy hne, hsame]
  | infinite hx hy hsign =>
    rw [isInf_iff_pattern] at hx hy
    refine ⟨hx.le, hy.le, Or.inl (eq_of_pattern_eq ?_ (hx.trans hy.symm))⟩
    rw [← sign_eq_negative_iff, ← sign_eq_negative_iff, hsign]

/-- A number that is one equals itself. -/
theorem Equal.refl {x : Float} (hx : pattern x ≤ Magnitude.infinity) : Equal x x := by
  rcases Nat.lt_or_eq_of_le hx with hfinite | hinfinite
  · exact .finite (isFinite_iff_pattern.mpr hfinite) (isFinite_iff_pattern.mpr hfinite) rfl
  · exact .infinite (isInf_iff_pattern.mpr hinfinite) (isInf_iff_pattern.mpr hinfinite) rfl

/-- The zeros are equal. -/
theorem Equal.of_zero {x y : Float} (hx : pattern x = 0) (hy : pattern y = 0) : Equal x y := by
  have hxFinite : pattern x < Magnitude.infinity := hx ▸ (by decide)
  have hyFinite : pattern y < Magnitude.infinity := hy ▸ (by decide)
  refine .finite (isFinite_iff_pattern.mpr hxFinite) (isFinite_iff_pattern.mpr hyFinite) ?_
  rw [(quantity_eq_zero_iff hxFinite).mpr hx, (quantity_eq_zero_iff hyFinite).mpr hy]

/-- The comparison of numbers decides whether they have the same value. -/
theorem beq_iff_equal (x y : Float) : (x == y) = true ↔ Equal x y := by
  rw [Float.beq_iff_ne_nan_and_eq]
  constructor
  · rintro ⟨hx, _, rfl | ⟨rfl, rfl⟩ | ⟨rfl, rfl⟩⟩
    · exact .refl (Nat.not_lt.mp fun hnan => hx (eq_nan_iff_pattern.mpr hnan))
    · exact .of_zero (by decide) (by decide)
    · exact .of_zero (by decide) (by decide)
  · intro h
    obtain ⟨hx, hy, hcases⟩ := h.eq_or_zero
    refine ⟨ne_nan_of_pattern_le hx, ne_nan_of_pattern_le hy, ?_⟩
    rcases hcases with rfl | ⟨hx, hy⟩
    · exact Or.inl rfl
    · rcases pattern_eq_zero_iff.mp hx with rfl | rfl <;>
        rcases pattern_eq_zero_iff.mp hy with rfl | rfl <;> simp

/-- Equality of numbers is symmetric. -/
theorem Equal.symm {x y : Float} (h : Equal x y) : Equal y x := by
  cases h with
  | finite hx hy hsame => exact .finite hy hx hsame.symm
  | infinite hx hy hsign => exact .infinite hy hx hsign.symm

/-- Equality of numbers is transitive. -/
theorem Equal.trans {x y z : Float} (h : Equal x y) (h' : Equal y z) : Equal x z := by
  obtain ⟨hx, _, rfl | ⟨hzero, hzero'⟩⟩ := h.eq_or_zero
  · exact h'
  · obtain ⟨_, _, rfl | ⟨_, hzero''⟩⟩ := h'.eq_or_zero
    · exact h
    · exact .of_zero hzero hzero''

/-- What is not a number equals nothing. -/
theorem not_equal_of_isNaN {x y : Float} (hnan : x.isNaN = true ∨ y.isNaN = true) :
    ¬ Equal x y := by
  intro h
  obtain ⟨hx, hy, _⟩ := h.eq_or_zero
  simp only [Float.isNaN_eq_decide_eq_nan, decide_eq_true_eq] at hnan
  rcases hnan with hnan | hnan
  · exact ne_nan_of_pattern_le hx hnan
  · exact ne_nan_of_pattern_le hy hnan

end Number

/-! ## The turns of the loop -/

/-- The pairs of operands that are pending in place of a pair that does not differ
at its roots, the left ones first. -/
def nextPairs? : Tree × Tree → Option (List (Tree × Tree))
  | (.leaf a, .leaf b) => if a == b then some [] else none
  | (.node op left right, .node op' left' right') =>
    if op = op' then some [(left, left'), (right, right')] else none
  | (.leaf _, .node ..) => none
  | (.node .., .leaf _) => none

/-- In this many turns, the loop comes from the first pending pairs to the second. -/
inductive Compares : List (Tree × Tree) → ℕ → List (Tree × Tree) → Prop
  /-- Before its first turn, the loop is where it started. -/
  | start (pending : List (Tree × Tree)) : Compares pending 0 pending
  /-- The first pending pair is replaced by the pairs of its operands. -/
  | turn {pair : Tree × Tree} {next rest pending : List (Tree × Tree)} {turns : ℕ} :
      nextPairs? pair = some next → Compares (next ++ rest) turns pending →
      Compares (pair :: rest) (turns + 1) pending

/-- The loop stops with an outcome. -/
inductive Stops : List (Tree × Tree) → Bool → Prop
  /-- If no pair is pending, the trees are equal. -/
  | finished : Stops [] true
  /-- At a pair that differs, they are not, whatever else is pending. -/
  | mismatch {pair : Tree × Tree} (rest : List (Tree × Tree)) :
      nextPairs? pair = none → Stops (pair :: rest) false

/-- One turn keeps what is to be found out. -/
theorem allEqual_cons (pair : Tree × Tree) (rest : List (Tree × Tree)) :
    allEqual (pair :: rest) =
      match nextPairs? pair with
      | some next => allEqual (next ++ rest)
      | none => false := by
  obtain ⟨a | ⟨op, left, right⟩, b | ⟨op', left', right'⟩⟩ := pair
  · rw [allEqual, nextPairs?]
    split_ifs <;> rfl
  · rw [allEqual, nextPairs?]
  · rw [allEqual, nextPairs?]
  · rw [allEqual, nextPairs?]
    split_ifs <;> rfl

/-- One turn takes a leaf or a node off both sides. -/
theorem totalSize_nextPairs {pair : Tree × Tree} {next : List (Tree × Tree)}
    (hnext : nextPairs? pair = some next) :
    1 + totalSize (next.map Prod.fst) = pair.1.size ∧
      1 + totalSize (next.map Prod.snd) = pair.2.size := by
  obtain ⟨a | ⟨op, left, right⟩, b | ⟨op', left', right'⟩⟩ := pair
  · rw [nextPairs?] at hnext
    split_ifs at hnext
    cases hnext
    exact ⟨rfl, rfl⟩
  · cases hnext
  · cases hnext
  · rw [nextPairs?] at hnext
    split_ifs at hnext
    cases hnext
    simp only [List.map_cons, List.map_nil, totalSize, Tree.size]
    omega

namespace Compares

variable {pending pending' : List (Tree × Tree)} {turns : ℕ}

/-- The turns keep what is to be found out. -/
theorem allEqual_eq (h : Compares pending turns pending') :
    allEqual pending = allEqual pending' := by
  induction h with
  | start pending => rfl
  | turn hnext _ ih => rw [allEqual_cons, hnext, ← ih]

/-- The turns are counted by the parts that were taken off each side. -/
theorem totalSize_eq (h : Compares pending turns pending') :
    turns + totalSize (pending'.map Prod.fst) = totalSize (pending.map Prod.fst) ∧
      turns + totalSize (pending'.map Prod.snd) = totalSize (pending.map Prod.snd) := by
  induction h with
  | start pending => simp
  | turn hnext _ ih =>
    obtain ⟨hfst, hsnd⟩ := totalSize_nextPairs hnext
    simp only [List.map_append, totalSize_append] at ih
    simp only [List.map_cons, totalSize]
    omega

/-- Another turn can follow. -/
theorem snoc (h : Compares pending turns pending') {pair : Tree × Tree}
    {next rest : List (Tree × Tree)} (hpending : pending' = pair :: rest)
    (hnext : nextPairs? pair = some next) : Compares pending (turns + 1) (next ++ rest) := by
  induction h with
  | start pending =>
    subst hpending
    exact .turn hnext (.start _)
  | turn hnext' _ ih => exact .turn hnext' (ih hpending)

/-- The loop stops, and its outcome is that of the comparison. -/
theorem exists_stops (pending : List (Tree × Tree)) :
    ∃ turns final, Compares pending turns final ∧ Stops final (allEqual pending) := by
  induction hsize : totalSize (pending.map Prod.fst) using Nat.strongRecOn generalizing pending with
  | ind size ih =>
    cases pending with
    | nil => exact ⟨0, [], .start [], by rw [allEqual]; exact .finished⟩
    | cons pair rest =>
      have hcons := allEqual_cons pair rest
      cases hnext : nextPairs? pair with
      | none =>
        rw [hnext] at hcons
        exact ⟨0, pair :: rest, .start _, by rw [hcons]; exact .mismatch rest hnext⟩
      | some next =>
        rw [hnext] at hcons
        have hsmaller : totalSize ((next ++ rest).map Prod.fst) < size := by
          have hparts := (totalSize_nextPairs hnext).1
          rw [List.map_cons, totalSize] at hsize
          rw [List.map_append, totalSize_append]
          omega
        obtain ⟨turns, final, hturns, hstops⟩ := ih _ hsmaller (next ++ rest) rfl
        exact ⟨turns + 1, final, .turn hnext hturns, by rwa [hcons]⟩

end Compares

/-- Where the loop stops, it knows the outcome of the comparison. -/
theorem Stops.allEqual_eq {pending : List (Tree × Tree)} {outcome : Bool}
    (h : Stops pending outcome) : allEqual pending = outcome := by
  cases h with
  | finished => rw [allEqual]
  | mismatch rest hnext => rw [allEqual_cons, hnext]

/-- The loop stops unless another turn follows. -/
theorem stops_or_next (pending : List (Tree × Tree)) :
    (∃ outcome, Stops pending outcome) ∨
      ∃ pair next rest, pending = pair :: rest ∧ nextPairs? pair = some next := by
  cases pending with
  | nil => exact Or.inl ⟨true, .finished⟩
  | cons pair rest =>
    cases hnext : nextPairs? pair with
    | none => exact Or.inl ⟨false, .mismatch rest hnext⟩
    | some next => exact Or.inr ⟨pair, next, rest, rfl, hnext⟩

/-! ## Equality of trees -/

namespace Tree

variable {same : Float → Float → Prop} {a b c : Tree}

/-- Agreement is symmetric if the relation of the leaves is. -/
theorem Agree.symm (hsymm : ∀ {x y}, same x y → same y x) (h : Agree same a b) :
    Agree same b a := by
  induction h with
  | leaf hsame => exact .leaf (hsymm hsame)
  | node op _ _ ihleft ihright => exact .node op ihleft ihright

/-- Agreement is transitive if the relation of the leaves is. -/
theorem Agree.trans (htrans : ∀ {x y z}, same x y → same y z → same x z) (h : Agree same a b)
    (h' : Agree same b c) : Agree same a c := by
  induction h generalizing c with
  | leaf hsame =>
    cases h' with
    | leaf hsame' => exact .leaf (htrans hsame hsame')
  | node op _ _ ihleft ihright =>
    cases h' with
    | node _ hleft hright => exact .node op (ihleft hleft) (ihright hright)

/-- The comparison of pending pairs finds out whether the trees of every pair have
the same shape, the same operators and equal numbers. -/
theorem allEqual_iff_agree (pending : List (Tree × Tree)) :
    allEqual pending = true ↔ ∀ pair ∈ pending, Agree Number.Equal pair.1 pair.2 := by
  have hequal : Number.Equal = fun x y => (x == y) = true := by
    funext x y
    exact propext (Number.beq_iff_equal x y).symm
  rw [allEqual_iff, hequal]

/-- Trees are equal exactly if they agree. -/
theorem equal_iff (a b : Tree) : a.equal b = true ↔ Agree Number.Equal a b := by
  rw [equal, allEqual_iff_agree, List.forall_mem_singleton]

/-- The comparison of two trees stops, after as many turns as leaves and nodes were
taken off each of them, and finds out whether they have the same shape, the same
operators and equal numbers. At every point before, this is the question whether
all pending pairs agree. Zero equals negative zero, and what is not a number equals
nothing. Equality is symmetric and transitive, and a tree equals itself exactly if
all its leaves are numbers. -/
theorem equal_decides (a b : Tree) :
    (a.equal b = true ↔ Agree Number.Equal a b) ∧
      (∃ turns final, Compares [(a, b)] turns final ∧ Stops final (a.equal b)) ∧
      (∀ {turns pending}, Compares [(a, b)] turns pending →
        turns + totalSize (pending.map Prod.fst) = a.size ∧
        turns + totalSize (pending.map Prod.snd) = b.size ∧
        (a.equal b = true ↔ ∀ pair ∈ pending, Agree Number.Equal pair.1 pair.2) ∧
        ((∃ pending', Compares [(a, b)] (turns + 1) pending') ∨
          ∃ outcome, Stops pending outcome) ∧
        ∀ outcome, Stops pending outcome → a.equal b = outcome) ∧
      Number.Equal 0 (-0) ∧
      (∀ x y : Float, x.isNaN = true ∨ y.isNaN = true → ¬ Number.Equal x y) ∧
      a.equal b = b.equal a ∧
      (∀ c, a.equal b = true → b.equal c = true → a.equal c = true) ∧
      (a.equal a = true ↔ ∀ x ∈ a.leaves, x.isNaN = false) := by
  refine ⟨equal_iff a b, Compares.exists_stops _, ?_, .of_zero (by decide) (by decide),
    fun x y => Number.not_equal_of_isNaN, ?_, ?_, ?_⟩
  · intro turns pending h
    have hsame : a.equal b = allEqual pending := h.allEqual_eq
    obtain ⟨hfst, hsnd⟩ := h.totalSize_eq
    refine ⟨hfst, hsnd, by rw [hsame, allEqual_iff_agree], ?_, ?_⟩
    · rcases stops_or_next pending with hstops | ⟨pair, next, rest, hpending, hnext⟩
      · exact Or.inr hstops
      · exact Or.inl ⟨next ++ rest, h.snoc hpending hnext⟩
    · intro outcome hstops
      rw [hsame, hstops.allEqual_eq]
  · rw [Bool.eq_iff_iff, equal_iff, equal_iff]
    exact ⟨Agree.symm Number.Equal.symm, Agree.symm Number.Equal.symm⟩
  · intro c
    rw [equal_iff, equal_iff, equal_iff]
    exact Agree.trans Number.Equal.trans
  · rw [equal_self_iff]
    simp only [Float.isNaN_eq_decide_eq_nan, decide_eq_false_iff_not]
    exact ⟨fun hnumbers x hx hnan => hnumbers (hnan ▸ hx), fun h hnan => h _ hnan rfl⟩

end Tree

end Calculator
