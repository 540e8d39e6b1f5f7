/-
A float literal denotes its number. Two facts meet here: the shortest decimal rounds to the
number that it was made from (`shortest_roundsTo`), and its text is read as a float with just
that decimal (`Decimal.denotes_text`). Hence the text decides the number, sign of zero included,
unless it is not a number at all; and no float is taken for an integer.
-/
import LuaSource.Proofs.NumeralReadBack
import LuaSource.Proofs.ShortestDecimal

namespace LuaSource

open Binary64 (RoundsTo)

/-! ## Values of expressions -/

/-- The binary number `x` is a value of the expression. What a numeral spells is rounded, and
the minus before it is the sign, that of zero too. Patterns that are not a number are not told
apart, and an integer has no binary number for its value. -/
inductive Quantity.HasValue : Quantity → Binary64 → Prop
  | nan {x : Binary64} : x.value = .nan → HasValue .nan x
  | infinite {x : Binary64} {negative : Bool} : x.value = .infinite negative →
      HasValue (.infinite negative) x
  | float {x : Binary64} {negative : Bool} {d : Decimal} : x.negative = negative →
      x.RoundsTo d.toRat → HasValue (.float negative d) x

/-- **A value is one pattern**, unless it is not a number. -/
theorem Quantity.HasValue.unique {v : Quantity} {x y : Binary64} (hx : v.HasValue x)
    (hy : v.HasValue y) (hnan : x.value ≠ .nan) : x = y := by
  cases hx with
  | nan h => exact absurd h hnan
  | infinite h =>
    cases hy with
    | infinite h' =>
      obtain ⟨hs, ho⟩ := Binary64.of_value_infinite h
      obtain ⟨hs', ho'⟩ := Binary64.of_value_infinite h'
      exact Binary64.eq_of_ordinal_eq (hs.trans hs'.symm) (ho.trans ho'.symm)
  | float hs h =>
    cases hy with
    | float hs' h' =>
      exact Binary64.eq_of_ordinal_eq (hs.trans hs'.symm) (h.ordinal_unique h')

/-! ## Texts of floats -/

theorem float_of_finite {x : Binary64} {negative : Bool} {m : Nat} {q : Int}
    (h : x.value = .finite negative m q) : ∃ cs d,
      (float x).toList = Literal.signed x.negative cs ∧ Numeral.FloatText cs d ∧
        x.RoundsTo d.toRat := by
  obtain ⟨d, hd, hrat⟩ := Decimal.denotes_text Literal.window (shortest m q)
  refine ⟨_, d, ?_, hd, hrat ▸ shortest_roundsTo h⟩
  rw [float, String.toList_ofList, Literal.floatChars, h, (Binary64.of_value_finite h).2.1]

theorem read?_float (x : Binary64) :
    ∃ v, Quantity.read? (float x).toList = some v ∧ v.HasValue x := by
  cases h : x.value with
  | nan =>
    rw [float, String.toList_ofList, Literal.floatChars, h]
    exact ⟨.nan, by decide, .nan h⟩
  | infinite negative =>
    rw [float, String.toList_ofList, Literal.floatChars, h]
    refine ⟨.infinite negative, ?_, .infinite h⟩
    cases negative <;> decide
  | finite negative m q =>
    obtain ⟨cs, d, htext, hd, hround⟩ := float_of_finite h
    exact ⟨_, htext ▸ Quantity.read?_signed_floatText x.negative hd, .float rfl hround⟩

/-- **Float literals are faithful.** What is not a number is a quotient without a value, and an
infinity is a name with its sign. Every finite number, the subnormal ones and both zeros among
them, is a minus exactly if its sign bit is set, and then a numeral with a point or an exponent.
It is read as a float, never as an integer, and its exact number rounds to the number written.
So two patterns share a text only if neither is a number, and no text is an integer's too. -/
theorem float_faithful :
    (∀ x : Binary64,
      (match x.value with
        | .nan => float x = "(0/0)"
        | .infinite _ => float x = if x.negative then "-math.huge" else "math.huge"
        | .finite _ _ _ => ∃ cs d, (float x).toList = Literal.signed x.negative cs ∧
            Numeral.FloatText cs d ∧ Numeral.read? cs = some (.float d) ∧ x.RoundsTo d.toRat) ∧
      ∃ v, Quantity.read? (float x).toList = some v ∧ v.HasValue x) ∧
    (∀ x y : Binary64, x.value ≠ .nan → float x = float y → x = y) ∧
    ∀ (x : Binary64) (v : Int64), float x ≠ integer v := by
  refine ⟨fun x => ⟨?_, read?_float x⟩, fun x y hnan he => ?_, fun x v he => ?_⟩
  · cases h : x.value with
    | nan =>
      show float x = "(0/0)"
      rw [float, Literal.floatChars, h]
      rfl
    | infinite negative =>
      show float x = if x.negative then "-math.huge" else "math.huge"
      rw [(Binary64.of_value_infinite h).1, float, Literal.floatChars, h]
      cases negative <;> rfl
    | finite negative m q =>
      obtain ⟨cs, d, htext, hd, hround⟩ := float_of_finite h
      exact ⟨cs, d, htext, hd, hd.read?, hround⟩
  · obtain ⟨v, hv, hx⟩ := read?_float x
    obtain ⟨w, hw, hy⟩ := read?_float y
    rw [he, hw] at hv
    cases hv
    exact hx.unique hy hnan
  · obtain ⟨w, hw, hx⟩ := read?_float x
    rw [he, Quantity.read?_integer v] at hw
    cases hw
    cases hx

/-- One tenth is not a binary number. The pattern that is written `0.1` is the nearest to it,
and the next pattern already has another text. -/
theorem float_faithful_tenth :
    let x : Binary64 := ⟨0x3FB999999999999A⟩
    x.value ≠ .nan ∧ float x = "0.1" ∧ float ⟨0x3FB999999999999B⟩ ≠ "0.1" := by
  have htext : float ⟨0x3FB999999999999A⟩ = "0.1" := by decide +kernel
  refine ⟨by decide, htext, fun h => ?_⟩
  have := float_faithful.2.1 ⟨0x3FB999999999999A⟩ ⟨0x3FB999999999999B⟩ (by decide)
    (htext.trans h.symm)
  cases this

/-- Both zeros, the least number and the greatest one. -/
example : float ⟨0⟩ = "0.0" ∧ float ⟨0x8000000000000000⟩ = "-0.0" ∧ float ⟨1⟩ = "5e-324" ∧
    float ⟨0x7FEFFFFFFFFFFFFF⟩ = "1.7976931348623157e308" := by
  decide +kernel

end LuaSource
