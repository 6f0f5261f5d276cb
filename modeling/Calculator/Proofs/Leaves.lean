import Calculator.Parse
import Calculator.Proofs.Bits
import Calculator.Proofs.Parsing
import Calculator.Proofs.Rounding
import Calculator.Proofs.Tiling

/-!
# The leaves of parsed trees

The leaves of a parsed tree are the numbers of its text, in order. Every one of
them is the value of a literal, and a literal has no sign: its value is a
magnitude up to infinity, even if it is too large or too small to be
represented.
-/

namespace Calculator

/-- The numbers at the leaves of a tree, from left to right. -/
def Tree.leaves : Tree → List Float
  | .leaf value => [value]
  | .node _ left right => left.leaves ++ right.leaves

/-- The number that a token denotes, if it denotes one. -/
def Token.number? : Token → Option Float
  | .number value => some value
  | _ => none

/-- The leaves of a phrase's tree are the numbers of the phrase, in order. -/
theorem Derives.leaves_eq {category : Category} {tokens : List Token} {tree : Tree}
    (h : Derives category tokens tree) : tree.leaves = tokens.filterMap Token.number? := by
  induction h with
  | single _ ih => exact ih
  | joined _ _ _ ihleft ihright =>
    rw [Tree.leaves, ihleft, ihright, List.filterMap_append]
    rfl
  | number value => rfl
  | @group tokens tree _ ih =>
    have hleft (rest : List Token) :
        (Token.leftParen :: rest).filterMap Token.number? = rest.filterMap Token.number? := rfl
    have hright : [Token.rightParen].filterMap Token.number? = [] := rfl
    rw [ih, hleft, List.filterMap_append, hright, List.append_nil]

/-- The number has no sign: its bits are a pattern up to that of infinity. -/
def Number.IsMagnitude (value : Float) : Prop := value.toBits.toNat ≤ Magnitude.infinity

/-- The value of a literal is a magnitude. -/
theorem Literal.isMagnitude_value (literal : Literal) : Number.IsMagnitude literal.value := by
  have hmagnitude : (Decimal.ofDigits literal.whole literal.fraction).magnitude ≤
      Magnitude.infinity := Magnitude.nearest_le_infinity _ _
  rw [Number.IsMagnitude, value, Decimal.toFloat, Number.toBits_ofBits_pattern hmagnitude,
    Number.toNat_ofNat_pattern hmagnitude]
  exact hmagnitude

/-- A number among the tokens of a scan is a magnitude. -/
theorem isMagnitude_of_mem_scan {source : String} {value : Float}
    (hmem : .number value ∈ (scan source).lexemes.map Lexeme.token) :
    Number.IsMagnitude value := by
  obtain ⟨lexeme, hlexeme, htoken⟩ := List.mem_map.mp hmem
  obtain ⟨part, behind, _, hspelled, _⟩ := (scan_tiled source).spelled lexeme hlexeme
  rw [htoken] at hspelled
  cases hspelled with
  | number _ => exact Literal.isMagnitude_value _

/-- The leaves of a parsed tree are magnitudes. -/
theorem Settings.isMagnitude_of_parse {settings : Settings} {source : String} {tree : Tree}
    (hparse : settings.parse source = .ok tree) :
    ∀ value ∈ tree.leaves, Number.IsMagnitude value := by
  intro value hvalue
  rw [(derives_of_parse hparse).leaves_eq] at hvalue
  obtain ⟨token, hmem, htoken⟩ := List.mem_filterMap.mp hvalue
  unfold Token.number? at htoken
  split at htoken <;> cases htoken
  exact isMagnitude_of_mem_scan hmem

end Calculator
