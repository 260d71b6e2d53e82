import IscsiTarget.Model.Header

/-!
# Text parameters

The text functions a Login or Text Request goes through: `data_to_text_array`
cuts a data segment at its NUL bytes, `split` cuts a string at a separator, and
`stoi` is `std::stoi`, which throws on what it cannot convert.
-/

namespace IscsiTarget

/-- A string literal of the source as its bytes. -/
def ascii (s : String) : Bytes := s.toList.map fun c => UInt8.ofNat c.toNat

/-- The loop of `data_to_text_array`; `pair` is the string being collected. What
is left behind the last NUL is a string too, unless it is empty. -/
def dataToTextArrayLoop : Bytes → Bytes → List Bytes
  | pair, [] => if pair = [] then [] else [pair]
  | pair, b :: data =>
    if b = 0 then pair :: dataToTextArrayLoop [] data
    else dataToTextArrayLoop (pair ++ [b]) data

/-- `data_to_text_array`. -/
def dataToTextArray (data : Bytes) : List Bytes := dataToTextArrayLoop [] data

/-- `std::string::find`: the first position `splitter` occurs at. -/
def findBytes (splitter : Bytes) : Bytes → Option ℕ
  | [] => if splitter = [] then some 0 else none
  | b :: rest =>
    if splitter.isPrefixOf (b :: rest) then some 0
    else (findBytes splitter rest).map (· + 1)

/-- The loop of `split`. Each turn takes at least the separator off the string,
so for a separator that is not empty `turns` above the length is enough. -/
def splitLoop (splitter : Bytes) : ℕ → Bytes → List Bytes
  | 0, _ => []
  | turns + 1, inp =>
    match findBytes splitter inp with
    | none => if inp.length > 0 then [inp] else []
    | some pos =>
      let rest := inp.drop (pos + splitter.length)
      if rest.length = 0 then [inp.take pos, []]
      else inp.take pos :: splitLoop splitter turns rest

/-- `split`. -/
def split (inp splitter : Bytes) : List Bytes := splitLoop splitter (inp.length + 1) inp

/-- What `std::stoi` can throw. -/
inductive StoiError
  | invalidArgument
  | outOfRange
  deriving DecidableEq, Repr

/-- `isspace` in the C locale. -/
def isSpace (b : UInt8) : Bool := b == 32 || (9 ≤ b && b ≤ 13)

def isDigit (b : UInt8) : Bool := 48 ≤ b && b ≤ 57

/-- The value of a string of decimal digits. -/
def decimal (digits : Bytes) : ℕ := digits.foldl (fun v d => v * 10 + (d.toNat - 48)) 0

/-- `std::stoi`: white space, a sign, then as many digits as there are; what
follows them is ignored. -/
def stoi (s : Bytes) : Except StoiError ℤ :=
  let s := s.dropWhile isSpace
  let (neg, s) :=
    match s with
    | 45 :: rest => (true, rest)
    | 43 :: rest => (false, rest)
    | _ => (false, s)
  let digits := s.takeWhile isDigit
  if digits = [] then .error .invalidArgument
  else
    let v : ℤ := if neg then -(decimal digits : ℤ) else decimal digits
    if v < -2 ^ 31 ∨ 2 ^ 31 ≤ v then .error .outOfRange else .ok v

/-- `strtoll` in base ten: like `stoi`, but 0 for what it cannot convert, and
the nearest `long long` for what does not fit. -/
def strtoll (s : Bytes) : ℤ :=
  let s := s.dropWhile isSpace
  let (neg, s) :=
    match s with
    | 45 :: rest => (true, rest)
    | 43 :: rest => (false, rest)
    | _ => (false, s)
  let digits := s.takeWhile isDigit
  let v : ℤ := if neg then -(decimal digits : ℤ) else decimal digits
  max (-2 ^ 63) (min v (2 ^ 63 - 1))

/-- `atoll`. -/
def atoll (s : Bytes) : ℤ := strtoll s

/-- `atoi`, which cuts the `long` down to an `int`. -/
def atoi (s : Bytes) : ℤ := (strtoll s).bmod (2 ^ 32)

/-- The digits `%u` prints. -/
def unsignedText (n : ℕ) : Bytes :=
  if n = 0 then [48] else (Nat.digits 10 n).reverse.map fun d => UInt8.ofNat (48 + d)

/-- What `%d` prints. -/
def signedText (v : ℤ) : Bytes :=
  if v < 0 then 45 :: unsignedText v.natAbs else unsignedText v.natAbs

/-- `std::string::find` for a single character. -/
def findChar (c : UInt8) (s : Bytes) : Option ℕ := s.findIdx? (· == c)

/-- `std::string::rfind` for a single character. -/
def rfindChar (c : UInt8) (s : Bytes) : Option ℕ :=
  (findChar c s.reverse).map (s.length - 1 - ·)

/-- The conversion of an `int` to `uint32_t`. -/
def intToUint32 (v : ℤ) : UInt32 := UInt32.ofNat (v % 2 ^ 32).toNat

/-- `has_CRC32C`. -/
def hasCRC32C (value : Bytes) : Bool := (split value (ascii ",")).any (· == ascii "CRC32C")

example : split (ascii "a=b=") (ascii "=") = [ascii "a", ascii "b", []] := by decide

end IscsiTarget
