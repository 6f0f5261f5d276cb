import Calculator.Tree.Equality
import Calculator.Proofs.Leaves
import Calculator.Proofs.PostorderText

/-!
# Equality of parsed trees

Comparing two trees, comparing their texts and comparing their bits are three
different questions. They differ on trees with negative zeros and with values
that are not numbers. No literal denotes such a number, so on parsed trees all
three give the same answer.
-/

namespace Calculator

/-! ## Trees that agree -/

/-- Two trees have the same shape and the same operators, and the numbers at
their leaves are related. -/
inductive Tree.Agree (same : Float → Float → Prop) : Tree → Tree → Prop
  /-- Single numbers agree if they are related. -/
  | leaf {a b : Float} : same a b → Agree same (.leaf a) (.leaf b)
  /-- Nodes agree if they have the same operator and their operands agree. -/
  | node (op : Operator) {left left' right right' : Tree} :
      Agree same left left' → Agree same right right' →
      Agree same (.node op left right) (.node op left' right')

namespace Tree.Agree

variable {same same' : Float → Float → Prop} {a b : Tree}

/-- Trees that agree still do so if their leaves are related in another way. -/
theorem imp (h : Agree same a b)
    (hleaves : ∀ x ∈ a.leaves, ∀ y ∈ b.leaves, same x y → same' x y) : Agree same' a b := by
  induction h with
  | leaf hsame => exact .leaf (hleaves _ (by simp [leaves]) _ (by simp [leaves]) hsame)
  | node op _ _ ihleft ihright =>
    refine .node op (ihleft ?_) (ihright ?_)
    · intro x hx y hy
      exact hleaves x (List.mem_append_left _ hx) y (List.mem_append_left _ hy)
    · intro x hx y hy
      exact hleaves x (List.mem_append_right _ hx) y (List.mem_append_right _ hy)

/-- A tree agrees with itself if each of its leaves is related to itself. -/
theorem refl (t : Tree) (hleaves : ∀ x ∈ t.leaves, same x x) : Agree same t t := by
  induction t with
  | leaf value => exact .leaf (hleaves value (by simp [leaves]))
  | node op left right ihleft ihright =>
    refine .node op (ihleft ?_) (ihright ?_)
    · exact fun x hx => hleaves x (List.mem_append_left _ hx)
    · exact fun x hx => hleaves x (List.mem_append_right _ hx)

/-- Trees whose leaves have the same bits are the same. -/
theorem eq_of_sameBits (h : Agree (fun x y => x.toBits = y.toBits) a b) : a = b := by
  induction h with
  | leaf hbits => rw [Float.toBits_inj.mp hbits]
  | node op _ _ ihleft ihright => rw [ihleft, ihright]

end Tree.Agree

/-- The comparison of pending pairs finds out whether the trees of every pair
agree. -/
theorem allEqual_iff (pending : List (Tree × Tree)) :
    allEqual pending = true ↔
      ∀ pair ∈ pending, Tree.Agree (fun x y => (x == y) = true) pair.1 pair.2 := by
  fun_induction allEqual pending with
  | case1 => simp
  | case2 a b rest hsame ih =>
    rw [ih, List.forall_mem_cons]
    exact ⟨fun hrest => ⟨.leaf hsame, hrest⟩, fun h => h.2⟩
  | case3 a b rest hdiffer =>
    rw [List.forall_mem_cons]
    constructor
    · rintro ⟨⟩
    · rintro ⟨⟨hsame⟩, _⟩
      exact absurd hsame hdiffer
  | case4 leftA rightA op leftB rightB rest ih =>
    simp only [ih, List.forall_mem_cons]
    constructor
    · rintro ⟨hleft, hright, hrest⟩
      exact ⟨.node op hleft hright, hrest⟩
    · rintro ⟨hnode, hrest⟩
      cases hnode with
      | node _ hleft hright => exact ⟨hleft, hright, hrest⟩
  | case5 opA leftA rightA opB leftB rightB rest hop =>
    rw [List.forall_mem_cons]
    constructor
    · rintro ⟨⟩
    · rintro ⟨⟨⟩, _⟩
      exact absurd rfl hop
  | case6 =>
    rw [List.forall_mem_cons]
    constructor
    · rintro ⟨⟩
    · rintro ⟨⟨⟩, _⟩
  | case7 =>
    rw [List.forall_mem_cons]
    constructor
    · rintro ⟨⟩
    · rintro ⟨⟨⟩, _⟩

/-- Trees are equal if they agree in shape and operators and their numbers are
equal in arithmetic. -/
theorem Tree.equal_iff_agree (a b : Tree) :
    a.equal b = true ↔ Agree (fun x y => (x == y) = true) a b := by
  rw [equal, allEqual_iff, List.forall_mem_singleton]

/-! ## Equal numbers -/

namespace Number

/-- A magnitude is a number. -/
theorem IsMagnitude.ne_nan {value : Float} (h : IsMagnitude value) : value ≠ Float.nan := by
  intro hnan
  exact absurd (Nat.le_trans (Nat.mod_le _ _) h) (Nat.not_le.mpr (eq_nan_iff_pattern.mp hnan))

/-- Negative zero is no magnitude. -/
theorem not_isMagnitude_neg_zero : ¬ IsMagnitude (-0) := by
  unfold IsMagnitude
  decide

/-- Magnitudes are equal in arithmetic only if they are the same. -/
theorem IsMagnitude.beq_iff_eq {a b : Float} (ha : IsMagnitude a) (hb : IsMagnitude b) :
    (a == b) = true ↔ a = b := by
  rw [Float.beq_iff_ne_nan_and_eq]
  constructor
  · rintro ⟨_, _, rfl | ⟨_, rfl⟩ | ⟨rfl, _⟩⟩
    · rfl
    · exact absurd hb not_isMagnitude_neg_zero
    · exact absurd ha not_isMagnitude_neg_zero
  · rintro rfl
    exact ⟨ha.ne_nan, ha.ne_nan, Or.inl rfl⟩

end Number

/-! ## Three ways to compare trees -/

/-- For two trees it makes no difference whether the trees, their texts or their
bits are compared, and if they are equal, their values have the same bits. -/
structure Tree.Coincide (a b : Tree) : Prop where
  /-- Equal trees are those with the same text. -/
  equal_iff_render : a.equal b = true ↔ a.render = b.render
  /-- Trees with the same text are those with the same shape, the same operators
  and the same bits at their leaves. -/
  render_iff_sameBits : a.render = b.render ↔ Agree (fun x y => x.toBits = y.toBits) a b
  /-- Equal trees have the same value. -/
  evaluate_eq : a.equal b = true → a.evaluate.toBits = b.evaluate.toBits

/-- Trees have the same text exactly if their leaves have the same bits. -/
theorem Tree.render_eq_iff (a b : Tree) :
    a.render = b.render ↔ Agree (fun x y => x.toBits = y.toBits) a b := by
  constructor
  · intro hrender
    rw [eq_of_render_eq hrender]
    exact Agree.refl b fun _ _ => rfl
  · intro hagree
    rw [hagree.eq_of_sameBits]

/-- Comparison coincides with identity where all leaves are magnitudes. -/
theorem Tree.coincide_of_isMagnitude {a b : Tree} (ha : ∀ x ∈ a.leaves, Number.IsMagnitude x)
    (hb : ∀ y ∈ b.leaves, Number.IsMagnitude y) : a.Coincide b := by
  have hsame : a.equal b = true ↔ Agree (fun x y => x.toBits = y.toBits) a b := by
    rw [equal_iff_agree]
    have hleaves (x : Float) (hx : x ∈ a.leaves) (y : Float) (hy : y ∈ b.leaves) :
        (x == y) = true ↔ x.toBits = y.toBits := by
      rw [(ha x hx).beq_iff_eq (hb y hy), Float.toBits_inj]
    constructor
    · intro h
      exact h.imp fun x hx y hy => (hleaves x hx y hy).mp
    · intro h
      exact h.imp fun x hx y hy => (hleaves x hx y hy).mpr
  refine ⟨hsame.trans (render_eq_iff a b).symm, render_eq_iff a b, ?_⟩
  intro hequal
  rw [(hsame.mp hequal).eq_of_sameBits]

/-- A tree equals itself exactly if all its leaves are numbers. -/
theorem Tree.equal_self_iff (t : Tree) : t.equal t = true ↔ Float.nan ∉ t.leaves := by
  rw [equal_iff_agree]
  constructor
  · intro h hnan
    induction t with
    | leaf value =>
      cases h with
      | leaf hself =>
        rw [← List.mem_singleton.mp hnan] at hself
        exact absurd hself (by decide)
    | node op left right ihleft ihright =>
      cases h with
      | node _ hleft hright =>
        rcases List.mem_append.mp hnan with hnan | hnan
        · exact ihleft hleft hnan
        · exact ihright hright hnan
  · intro hnumbers
    refine Agree.refl t fun x hx => ?_
    rw [Float.beq_iff_ne_nan_and_eq]
    have hne : x ≠ Float.nan := fun hnan => hnumbers (hnan ▸ hx)
    exact ⟨hne, hne, Or.inl rfl⟩

/-- However two texts are parsed, it makes no difference whether the trees, their
texts or their bits are compared, and a parsed tree equals itself. All its leaves
are magnitudes. A tree with a leaf that is not a number does not even coincide
with itself, and zero does not coincide with negative zero. -/
theorem Settings.coincide_of_parse {settings₁ settings₂ : Settings} {source₁ source₂ : String}
    {a b : Tree} (ha : settings₁.parse source₁ = .ok a) (hb : settings₂.parse source₂ = .ok b) :
    a.Coincide b ∧ a.equal a = true ∧ (∀ value ∈ a.leaves, Number.IsMagnitude value) ∧
      (∀ t : Tree, Float.nan ∈ t.leaves → ¬ t.Coincide t) ∧
      ¬ Tree.Coincide (.leaf 0) (.leaf (-0)) := by
  have hleaves := isMagnitude_of_parse ha
  refine ⟨Tree.coincide_of_isMagnitude hleaves (isMagnitude_of_parse hb), ?_, hleaves, ?_, ?_⟩
  · rw [Tree.equal_self_iff]
    exact fun hnan => (hleaves _ hnan).ne_nan rfl
  · intro t hnan hcoincide
    exact (Tree.equal_self_iff t).mp (hcoincide.equal_iff_render.mpr rfl) hnan
  · intro hcoincide
    have hequal : (Tree.leaf 0).equal (.leaf (-0)) = true :=
      (Tree.equal_iff_agree _ _).mpr (.leaf (by decide))
    have hsame : Tree.leaf 0 = .leaf (-0) :=
      Tree.eq_of_render_eq (hcoincide.equal_iff_render.mp hequal)
    exact absurd (Tree.leaf.inj hsame) (by decide)

/-- Two spellings of a sum parse into trees that coincide. -/
theorem Settings.coincide_of_parse_spellings :
    Settings.parse {} "1+0" = .ok (.node .add (.leaf 1) (.leaf 0)) ∧
      Settings.parse { limit := 1 } "(1.0 + 0.00)" = .ok (.node .add (.leaf 1) (.leaf 0)) ∧
      Tree.Coincide (.node .add (.leaf 1) (.leaf 0)) (.node .add (.leaf 1) (.leaf 0)) := by
  have hscan : scan "1+0" =
      ⟨[⟨.number 1, 0, 1⟩, ⟨.operator .add, 1, 2⟩, ⟨.number 0, 2, 3⟩], none, 3⟩ := by
    decide +kernel
  have hscan' : scan "(1.0 + 0.00)" =
      ⟨[⟨.leftParen, 0, 1⟩, ⟨.number 1, 1, 4⟩, ⟨.operator .add, 5, 6⟩, ⟨.number 0, 7, 11⟩,
        ⟨.rightParen, 11, 12⟩], none, 12⟩ := by
    decide +kernel
  have hsum : Derives .expression [.number 1, .operator .add, .number 0]
      (.node .add (.leaf 1) (.leaf 0)) :=
    .joined (.of_factor (.number 1)) rfl (.of_factor (.number 0))
  have hparse : Settings.parse {} "1+0" = .ok (.node .add (.leaf 1) (.leaf 0)) :=
    Settings.parse_of_derives hscan hsum (by decide)
  have hparse' : Settings.parse { limit := 1 } "(1.0 + 0.00)" =
      .ok (.node .add (.leaf 1) (.leaf 0)) :=
    Settings.parse_of_derives hscan' (.of_factor (.group hsum)) (by decide)
  exact ⟨hparse, hparse', (Settings.coincide_of_parse hparse hparse').1⟩

end Calculator
