import PackageDepot.Toml.Value
import PackageDepot.Text.Digits

/-!
# Texts, numbers and dates in TOML

Readers take the rest of a text and answer what they read with what is left. Those of quoted texts
recurse on fuel; every round consumes a character.
-/

namespace PackageDepot.Toml

/-- Blanks inside a line. -/
def isBlank (c : Char) : Bool := c == ' ' || c == '\t'

/-- Leave out blanks. -/
def skipBlanks (cs : List Char) : List Char := cs.dropWhile isBlank

/-- Read the end of a line. -/
def readNewline : List Char → Option (List Char)
  | '\n' :: rest => some rest
  | '\r' :: '\n' :: rest => some rest
  | _ => none

/-- Leave out blanks and line ends. -/
def skipLines : List Char → List Char
  | '\r' :: '\n' :: rest => skipLines rest
  | '\n' :: rest => skipLines rest
  | ' ' :: rest => skipLines rest
  | '\t' :: rest => skipLines rest
  | cs => cs

/-- A character that may stand in texts and comments. -/
def isPrintable (c : Char) : Bool := c == '\t' || (' ' ≤ c && c != '\x7f')

/-! ## Quoted texts -/

/-- Read a character that is given by its number in `count` digits. -/
def readCode (count : Nat) (cs : List Char) : Option (Char × List Char) := do
  let digits := cs.take count
  if digits.length < count then none
  return (← Text.charOfCode? (← Text.number? 16 digits), cs.drop count)

/-- Read an escape behind its backslash. -/
def readEscape : List Char → Option (Char × List Char)
  | 'b' :: rest => some ('\x08', rest)
  | 't' :: rest => some ('\t', rest)
  | 'n' :: rest => some ('\n', rest)
  | 'f' :: rest => some ('\x0c', rest)
  | 'r' :: rest => some ('\r', rest)
  | '"' :: rest => some ('"', rest)
  | '\\' :: rest => some ('\\', rest)
  | 'u' :: rest => readCode 4 rest
  | 'U' :: rest => readCode 8 rest
  | _ => none

/-- Read a text behind its opening quote, up to the closing one. -/
def readLine (quote : Char) : Nat → List Char → List Char → Option (String × List Char)
  | 0, _, _ => none
  | fuel + 1, text, cs =>
    match cs with
    | [] => none
    | c :: rest =>
      if c == quote then some (String.ofList text.reverse, rest)
      else if c == '\\' && quote == '"' then
        match readEscape rest with
        | some (c, rest) => readLine quote fuel (c :: text) rest
        | none => none
      else if isPrintable c then readLine quote fuel (c :: text) rest
      else none

/-- Read a text of several lines up to its three closing quotes. Up to two quotes may stand in front
of them, and a backslash at the end of a line joins it to the next text. -/
def readLines (quote : Char) : Nat → List Char → List Char → Option (String × List Char)
  | 0, _, _ => none
  | fuel + 1, text, cs =>
    match cs with
    | [] => none
    | c :: rest =>
      if c == quote then
        let quotes := (cs.takeWhile (· == quote)).length
        if 3 ≤ quotes then
          let kept := min (quotes - 3) 2
          some (String.ofList (text.reverse ++ List.replicate kept quote), cs.drop (kept + 3))
        else readLines quote fuel (quote :: text) rest
      else
        match readNewline cs with
        | some rest => readLines quote fuel ('\n' :: text) rest
        | none =>
          if c == '\\' && quote == '"' then
            match readNewline (skipBlanks rest) with
            | some rest => readLines quote fuel text (skipLines rest)
            | none =>
              match readEscape rest with
              | some (c, rest) => readLines quote fuel (c :: text) rest
              | none => none
          else if isPrintable c then readLines quote fuel (c :: text) rest
          else none

/-- Read a text that begins with a quote. -/
def readText (cs : List Char) : Option (String × List Char) :=
  match cs with
  | '"' :: '"' :: '"' :: rest => readLines '"' cs.length [] ((readNewline rest).getD rest)
  | '\'' :: '\'' :: '\'' :: rest => readLines '\'' cs.length [] ((readNewline rest).getD rest)
  | '"' :: rest => readLine '"' cs.length [] rest
  | '\'' :: rest => readLine '\'' cs.length [] rest
  | _ => none

/-! ## Numbers -/

/-- Read digits with single underscores between them. -/
def readDigits (isDigit : Char → Bool) : List Char → Option (List Char × List Char)
  | c :: rest => if isDigit c then some (go [c] rest) else none
  | [] => none
where
  /-- The digits behind those that were read. -/
  go (digits : List Char) : List Char → List Char × List Char
    | '_' :: c :: rest => if isDigit c then go (c :: digits) rest else (digits.reverse, '_' :: c :: rest)
    | c :: rest => if isDigit c then go (c :: digits) rest else (digits.reverse, c :: rest)
    | [] => (digits.reverse, [])

/-- Read an optional sign. -/
def readSign : List Char → Bool × List Char
  | '-' :: rest => (true, rest)
  | '+' :: rest => (false, rest)
  | rest => (false, rest)

/-- Read a whole number without leading zeros. -/
def readWhole : List Char → Option (List Char × List Char)
  | '0' :: rest => some (['0'], rest)
  | cs => readDigits Char.isDigit cs

/-- A whole number of 64 bits. -/
def int? (i : Int) : Option Value :=
  if -(Nat.pow 2 63 : Int) ≤ i ∧ i < Nat.pow 2 63 then some (.int i) else none

/-- Read a whole number: decimal with an optional sign, or of base 16, 8 or 2. -/
def readInt (cs : List Char) : Option (Value × List Char) :=
  match cs with
  | '0' :: 'x' :: rest => inBase 16 rest
  | '0' :: 'o' :: rest => inBase 8 rest
  | '0' :: 'b' :: rest => inBase 2 rest
  | cs => do
    let (negative, rest) := readSign cs
    let (digits, rest) ← readWhole rest
    let n : Int := Decimal.digitsValue digits
    return (← int? (if negative then -n else n), rest)
where
  /-- Read digits of a base. -/
  inBase (base : Nat) (cs : List Char) : Option (Value × List Char) := do
    let (digits, rest) ← readDigits (fun c => (Text.digit? base c).isSome) cs
    return (← int? (← Text.number? base digits), rest)

/-- Read the exponent of a number, as it is written without underscores. -/
def readExponent : List Char → Option (List Char × List Char)
  | c :: rest =>
    if c != 'e' && c != 'E' then none
    else
      let (negative, rest) := readSign rest
      (readDigits Char.isDigit rest).map fun (digits, rest) =>
        (if negative then 'e' :: '-' :: digits else 'e' :: digits, rest)
  | [] => none

/-- Read a number with places or an exponent, which must not be beyond all bounds. -/
def readFloat (cs : List Char) : Option (Value × List Char) := do
  let (negative, rest) := readSign cs
  let (whole, rest) ← readWhole rest
  let (tail, rest) ← match rest with
    | '.' :: rest => do
      let (places, rest) ← readDigits Char.isDigit rest
      match readExponent rest with
      | some (exponent, rest) => some ('.' :: places ++ exponent, rest)
      | none =>
        if rest.head?.any fun c => c == 'e' || c == 'E' then none else some ('.' :: places, rest)
    | rest => readExponent rest
  let d ← Decimal.ofString? (String.ofList (whole ++ tail))
  let x := ({ d with negative }).toBinary64
  if !negative && !x.isFinite then none else some (.float x, rest)

/-- Read the name of a number that is not finite. -/
def readSpecialFloat (cs : List Char) : Option (Value × List Char) :=
  let (negative, rest) := readSign cs
  match rest with
  | 'i' :: 'n' :: 'f' :: rest => some (.float (.ofFloat (if negative then -1.0 / 0.0 else 1.0 / 0.0)), rest)
  | 'n' :: 'a' :: 'n' :: rest => some (.float (.ofFloat (0.0 / 0.0)), rest)
  | _ => none

/-! ## Dates and times -/

/-- Read a number of `count` digits within bounds. -/
def readField (count low high : Nat) (cs : List Char) : Option (Nat × List Char) :=
  let digits := cs.take count
  let n := Decimal.digitsValue digits
  if digits.length == count && digits.all Char.isDigit && low ≤ n && n ≤ high then
    some (n, cs.drop count)
  else none

/-- Read a certain character. -/
def readMark (c : Char) : List Char → Option (List Char)
  | d :: rest => if c == d then some rest else none
  | [] => none

/-- Number of days in a month. -/
def daysIn (year month : Nat) : Nat :=
  if month == 2 then if year % 4 == 0 && (year % 100 != 0 || year % 400 == 0) then 29 else 28
  else if month == 4 || month == 6 || month == 9 || month == 11 then 30
  else 31

/-- Pass over a day. -/
def readDay (cs : List Char) : Option (List Char) := do
  let (year, rest) ← readField 4 0 9999 cs
  let (month, rest) ← readField 2 1 12 (← readMark '-' rest)
  let (_, rest) ← readField 2 1 (daysIn year month) (← readMark '-' rest)
  return rest

/-- Pass over a time of day. -/
def readTime (cs : List Char) : Option (List Char) := do
  let (_, rest) ← readField 2 0 23 cs
  let (_, rest) ← readField 2 0 59 (← readMark ':' rest)
  let (_, rest) ← readField 2 0 60 (← readMark ':' rest)
  match rest with
  | '.' :: rest =>
    if rest.head?.any Char.isDigit then some (rest.dropWhile Char.isDigit) else none
  | rest => some rest

/-- Pass over an offset, if there is one. -/
def readOffset (cs : List Char) : Option (List Char) :=
  match cs with
  | 'Z' :: rest => some rest
  | 'z' :: rest => some rest
  | c :: rest =>
    if c != '+' && c != '-' then some cs
    else do
      let (_, rest) ← readField 2 0 23 rest
      let (_, rest) ← readField 2 0 59 (← readMark ':' rest)
      return rest
  | [] => some []

/-- Pass over a day, with the time of day if it follows, or over a time of day. -/
def skipDate (cs : List Char) : Option (List Char) :=
  match readDay cs with
  | none => readTime cs
  | some rest =>
    match rest with
    | c :: more =>
      if (c == 'T' || c == 't' || c == ' ') && (readField 2 0 23 more).any fun r => r.2.head? == some ':'
      then (readTime more).bind readOffset
      else some rest
    | [] => some rest

/-- Read a date. -/
def readDate (cs : List Char) : Option (Value × List Char) :=
  (skipDate cs).map fun rest =>
    (.date (String.ofList (cs.take (cs.length - rest.length))), rest)

/-- Read a number or a date. -/
def readNumber (cs : List Char) : Option (Value × List Char) :=
  (readDate cs).or ((readFloat cs).or ((readSpecialFloat cs).or (readInt cs)))

end PackageDepot.Toml
