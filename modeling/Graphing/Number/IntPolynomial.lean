/-
  Graphing.Number.IntPolynomial

  Polynomials in several variables with integer coefficients: sums, products,
  exact quotients and the greatest common divisor, which is found by
  remainders in the first variable with all contents taken out.
-/

namespace Graphing

/-- A polynomial in `n` variables: without variables an integer, otherwise the coefficients of the
ascending powers of the first variable. The last coefficient of a list is not zero. -/
def IntPolynomial : Nat → Type
  | 0 => Int
  | n + 1 => List (IntPolynomial n)

namespace IntPolynomial

/-! ## Shape -/

/-- The value of a polynomial without variables. -/
def toInt (c : IntPolynomial 0) : Int := c

/-- The polynomial zero. -/
def zero : (n : Nat) → IntPolynomial n
  | 0 => (0 : Int)
  | _ + 1 => ([] : List _)

/-- Whether a polynomial is zero. -/
def isZero : (n : Nat) → IntPolynomial n → Bool
  | 0, c => decide (toInt c = 0)
  | _ + 1, cs => List.isEmpty cs

/-- Coefficients without the zeros behind the last other one. -/
def trim (n : Nat) (cs : List (IntPolynomial n)) : IntPolynomial (n + 1) :=
  (cs.reverse.dropWhile (isZero n)).reverse

/-- A constant polynomial. -/
def constant : (n : Nat) → Int → IntPolynomial n
  | 0, c => c
  | n + 1, c => trim n [constant n c]

/-- A coefficient times a power of the first variable. -/
def monomial (n : Nat) (c : IntPolynomial n) (k : Nat) : IntPolynomial (n + 1) :=
  trim n (List.replicate k (zero n) ++ [c])

/-- One more than the degree in the first variable; zero for the polynomial zero. -/
def size (n : Nat) (p : IntPolynomial (n + 1)) : Nat := List.length p

/-- The coefficient of the highest power of the first variable. -/
def leading (n : Nat) (p : IntPolynomial (n + 1)) : IntPolynomial n :=
  (List.getLast? p).getD (zero n)

/-- The integer that leads a polynomial and all its leading coefficients. -/
def leadingInt : (n : Nat) → IntPolynomial n → Int
  | 0, c => c
  | n + 1, p => leadingInt n (leading n p)

/-! ## Arithmetic -/

/-- The sum. -/
def add : (n : Nat) → IntPolynomial n → IntPolynomial n → IntPolynomial n
  | 0, a, b => Int.add a b
  | n + 1, a, b =>
    trim n (List.zipWithAll
      (fun x y => match x, y with
        | some x, some y => add n x y
        | some x, none => x
        | none, some y => y
        | none, none => zero n)
      a b)

/-- The product. -/
def mul : (n : Nat) → IntPolynomial n → IntPolynomial n → IntPolynomial n
  | 0, a, b => Int.mul a b
  | n + 1, a, b =>
    List.foldr
      (fun c acc => add (n + 1) (trim n (List.map (mul n c) b)) (trim n (zero n :: acc)))
      (zero (n + 1)) a

/-- The difference. -/
def sub (n : Nat) (a b : IntPolynomial n) : IntPolynomial n :=
  add n a (mul n (constant n (-1)) b)

/-! ## Division -/

/-- Long division by `b`, where `divide?` divides coefficients; `none` if a remainder is left. -/
def longDivision? (n : Nat)
    (divide? : IntPolynomial n → IntPolynomial n → Option (IntPolynomial n))
    (b : IntPolynomial (n + 1)) :
    (fuel : Nat) → IntPolynomial (n + 1) → Option (IntPolynomial (n + 1))
  | 0, a => if isZero (n + 1) a then some (zero (n + 1)) else none
  | fuel + 1, a =>
    if isZero (n + 1) a then some (zero (n + 1))
    else if size n a < size n b then none
    else do
      let c ← divide? (leading n a) (leading n b)
      let q := monomial n c (size n a - size n b)
      let rest ← longDivision? n divide? b fuel (sub (n + 1) a (mul (n + 1) q b))
      return add (n + 1) q rest

/-- The quotient, if the second polynomial divides the first one. -/
def divide? : (n : Nat) → IntPolynomial n → IntPolynomial n → Option (IntPolynomial n)
  | 0, a, b => if toInt b ≠ 0 ∧ toInt a % toInt b = 0 then some (toInt a / toInt b) else none
  | n + 1, a, b =>
    if isZero (n + 1) b then none else longDivision? n (divide? n) b (size n a) a

/-- The remainder by `b` of a multiple of `a`, without division of coefficients. -/
def pseudoRemainder (n : Nat) (b : IntPolynomial (n + 1)) :
    (fuel : Nat) → IntPolynomial (n + 1) → IntPolynomial (n + 1)
  | 0, a => a
  | fuel + 1, a =>
    if isZero (n + 1) a || size n a < size n b then a
    else
      let scaled := mul (n + 1) (monomial n (leading n b) 0) a
      let part := mul (n + 1) (monomial n (leading n a) (size n a - size n b)) b
      pseudoRemainder n b fuel (sub (n + 1) scaled part)

/-! ## The greatest common divisor -/

/-- The last remainder other than zero; `primitive` takes the content out of each remainder. -/
def lastRemainder (n : Nat) (primitive : IntPolynomial (n + 1) → IntPolynomial (n + 1)) :
    (fuel : Nat) → IntPolynomial (n + 1) → IntPolynomial (n + 1) → IntPolynomial (n + 1)
  | 0, a, _ => a
  | fuel + 1, a, b =>
    if isZero (n + 1) b then a
    else lastRemainder n primitive fuel b (primitive (pseudoRemainder n b (size n a) a))

/-- The greatest common divisor, with a positive leading integer. -/
def gcd : (n : Nat) → IntPolynomial n → IntPolynomial n → IntPolynomial n
  | 0, a, b => Int.ofNat (Int.gcd a b)
  | n + 1, a, b =>
    let content (p : IntPolynomial (n + 1)) : IntPolynomial n := List.foldl (gcd n) (zero n) p
    let primitive (p : IntPolynomial (n + 1)) : IntPolynomial (n + 1) :=
      let c := content p
      List.map (fun x => (divide? n x c).getD x) p
    let last := lastRemainder n primitive (size n a + size n b + 1) (primitive a) (primitive b)
    let g := mul (n + 1) (monomial n (gcd n (content a) (content b)) 0) last
    if leadingInt (n + 1) g < 0 then mul (n + 1) (constant (n + 1) (-1)) g else g

end IntPolynomial
end Graphing
