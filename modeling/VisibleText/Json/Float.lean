/-!
Floating-point numbers of 53 bits in exact arithmetic: the nearest one to a quotient, and the fewest
digits that read back as one. A number here is not negative; its value is `mantissa * 2 ^ exponent`.
-/
namespace VisibleText.Json

structure Float53 where
  mantissa : Nat
  exponent : Int
deriving DecidableEq, Repr, Inhabited

namespace Float53

def zero : Float53 := ⟨0, -1074⟩

def scale (num den : Nat) (e : Int) : Nat × Nat :=
  match e with
  | .ofNat n => (num <<< n, den)
  | .negSucc n => (num, den <<< (n + 1))

def nearest (num den : Nat) : Nat :=
  let q := num / den
  let r := num % den
  if den < 2 * r || (den = 2 * r && q % 2 = 1) then q + 1 else q

def log2 (num den : Nat) : Int :=
  let e : Int := (num.log2 : Int) - den.log2
  let (n, d) := scale num den (-e)
  if n < d then e - 1 else e

def ofQuotient? (num den : Nat) : Option Float53 :=
  if num = 0 then some zero
  else
    let e := max (log2 num den - 52) (-1074)
    let (n, d) := scale num den (-e)
    let m := nearest n d
    let (m, e) := if m = 1 <<< 53 then (1 <<< 52, e + 1) else (m, e)
    if 971 < e then none else some ⟨m, e⟩

def isZero (x : Float53) : Bool := x.mantissa = 0

def quotient (x : Float53) : Nat × Nat := scale x.mantissa 1 x.exponent

def mul? (x y : Float53) : Option Float53 :=
  let (a, b) := x.quotient
  let (c, d) := y.quotient
  ofQuotient? (a * c) (b * d)

def div? (x y : Float53) : Option Float53 :=
  let (a, b) := x.quotient
  let (c, d) := y.quotient
  ofQuotient? (a * d) (b * c)

def pow10 (n : Nat) : Float53 := (ofQuotient? (Nat.pow 10 n) 1).getD zero

def ofDecimal? : Nat → Nat → Int → Option Float53
  | 0, _, _ => none
  | fuel + 1, significand, exponent => do go fuel (← ofQuotient? significand 1) exponent
where
  go : Nat → Float53 → Int → Option Float53
    | 0, x, _ => some x
    | _ + 1, x, .ofNat n => if n ≤ 308 then x.mul? (pow10 n) else if x.isZero then some x else none
    | fuel + 1, x, .negSucc n =>
      if n + 1 ≤ 308 then x.div? (pow10 (n + 1))
      else if x.isZero then some x
      else do go fuel (← x.div? (pow10 308)) (.negSucc n + 308)

/-- The bounds of the quotients that round to a positive number, times four, over the power of two
of the exponent. -/
def interval (x : Float53) : Nat × Nat :=
  let low := if x.mantissa = 1 <<< 52 && x.exponent ≠ -1074 then 4 * x.mantissa - 1 else 4 * x.mantissa - 2
  (low, 4 * x.mantissa + 2)

def quotientLt (a b : Nat × Nat) : Bool := a.1 * b.2 < b.1 * a.2

def roundsTo (x : Float53) (q : Nat × Nat) : Bool :=
  let (low, high) := x.interval
  let lowQ := scale low 4 x.exponent
  let highQ := scale high 4 x.exponent
  if x.mantissa % 2 = 0 then !quotientLt q lowQ && !quotientLt highQ q
  else quotientLt lowQ q && quotientLt q highQ

def decimal (n : Nat) : Int → Nat × Nat
  | .ofNat e => (n * Nat.pow 10 e, 1)
  | .negSucc e => (n, Nat.pow 10 (e + 1))

def onGrid? (x : Float53) (e : Int) : Option Nat :=
  let (a, b) := x.quotient
  let (n, d) := match e with
    | .ofNat k => (a, b * Nat.pow 10 k)
    | .negSucc k => (a * Nat.pow 10 (k + 1), b)
  let below := n / d
  let fits := fun m => 0 < m && x.roundsTo (decimal m e)
  match fits below, fits (below + 1) with
  | true, true => some (nearest n d)
  | true, false => some below
  | false, true => some (below + 1)
  | false, false => none

def log10 (x : Float53) : Int :=
  let q := x.quotient
  let guess : Int := ((log2 q.1 q.2) * 30103) / 100000
  let up := fun e => if !quotientLt q (decimal 1 (e + 1)) then e + 1 else e
  let down := fun e => if quotientLt q (decimal 1 e) then e - 1 else e
  up (up (down (down guess)))

def shortest (x : Float53) : Nat × Int :=
  let top := x.log10
  let found := (List.range 17).findSome? fun n : Nat =>
    let e := top - (n : Int)
    (x.onGrid? e).map (·, e)
  strip 20 (found.getD (0, 0))
where
  strip : Nat → Nat × Int → Nat × Int
    | 0, p => p
    | fuel + 1, (n, e) => if n % 10 = 0 && n ≠ 0 then strip fuel (n / 10, e + 1) else (n, e)

/-- The text of a number: positional where its first digit stands at most sixteen places before, or
at most four zeros behind, the point, else with an exponent. -/
def render (x : Float53) : String :=
  if x.isZero then "0.0"
  else
    let (n, e) := x.shortest
    let ds := (toString n).toList
    let point := (ds.length : Int) + e
    let zeros := fun (k : Int) => List.replicate k.toNat '0'
    if 0 ≤ e && point ≤ 16 then String.ofList (ds ++ zeros e) ++ ".0"
    else if 0 < point && point ≤ 16 then
      String.ofList (ds.take point.toNat) ++ "." ++ String.ofList (ds.drop point.toNat)
    else if -5 < point && point ≤ 0 then "0." ++ String.ofList (zeros (-point) ++ ds)
    else
      let fraction := if ds.length = 1 then "" else "." ++ String.ofList (ds.drop 1)
      String.ofList (ds.take 1) ++ fraction ++ "e" ++ toString (point - 1)

end Float53

end VisibleText.Json
