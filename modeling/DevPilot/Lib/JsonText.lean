import DevPilot.Lib.JsonValue

/-!
The text form of JSON values: the writer `json.dumps(..., ensure_ascii=False)`
in its layouts, the tolerant reader `json.loads`, and their round trip.
-/

namespace PyJson

variable {F : Type}

structure Digits where
  chars : List Char
  nonempty : chars ≠ []
  digits : chars.all Char.isDigit = true
deriving DecidableEq

structure Exponent where
  negative : Bool
  digits : Digits
deriving DecidableEq

/-- What makes a number literal a float: a fraction, an exponent or both. -/
inductive FloatTail
  | fraction (digits : Digits) (exponent : Option Exponent)
  | exponent (e : Exponent)
deriving DecidableEq

structure FloatLit where
  negative : Bool
  whole : Nat
  tail : FloatTail
deriving DecidableEq

inductive FloatText
  | literal (l : FloatLit)
  | nan
  | infinity (negative : Bool)
deriving DecidableEq

/-- How the host prints floats and reads them back: the shortest
representation that reads back as the same float. -/
structure FloatFormat (F : Type) where
  repr : F → FloatText
  read : FloatText → F
  read_repr : ∀ x, read (repr x) = x

def literalFormat : FloatFormat FloatText := ⟨id, id, fun _ => rfl⟩

def intText (n : Int) : List Char :=
  (if n < 0 then ['-'] else []) ++ Nat.toDigits 10 n.natAbs

def exponentText (e : Exponent) : List Char :=
  'e' :: (if e.negative then '-' else '+') :: e.digits.chars

def tailText : FloatTail → List Char
  | .fraction d none => '.' :: d.chars
  | .fraction d (some e) => '.' :: d.chars ++ exponentText e
  | .exponent e => exponentText e

def floatText : FloatText → List Char
  | .literal l => (if l.negative then ['-'] else []) ++ Nat.toDigits 10 l.whole ++ tailText l.tail
  | .nan => ['N', 'a', 'N']
  | .infinity negative => (if negative then ['-'] else []) ++ "Infinity".toList

def hexDigit (n : Nat) : Char := Nat.digitChar n

/-- `ensure_ascii=False`: only quotes, backslashes and C0 controls are
escaped, every other character is written raw. -/
def escapeChar (c : Char) : List Char :=
  if c = '"' then ['\\', '"']
  else if c = '\\' then ['\\', '\\']
  else if c = '\n' then ['\\', 'n']
  else if c = '\r' then ['\\', 'r']
  else if c = '\t' then ['\\', 't']
  else if c = '\x08' then ['\\', 'b']
  else if c = '\x0c' then ['\\', 'f']
  else if c.toNat < 32 then ['\\', 'u', '0', '0', hexDigit (c.toNat / 16), hexDigit (c.toNat % 16)]
  else [c]

def escape (cs : List Char) : List Char := cs.flatMap escapeChar

def quote (s : String) : List Char := '"' :: escape s.toList ++ ['"']

/-- The separators `json.dumps` is called with. -/
inductive Layout
  | spaced
  | compact
  | indented (width : Nat)
deriving DecidableEq

namespace Layout

/-- The line break before an item at nesting depth `level`. -/
def brk : Layout → Nat → List Char
  | .indented width, level => '\n' :: List.replicate (width * level) ' '
  | _, _ => []

def itemSep : Layout → Nat → List Char
  | .spaced, _ => [',', ' ']
  | .compact, _ => [',']
  | .indented width, level => ',' :: '\n' :: List.replicate (width * level) ' '

def keySep : Layout → List Char
  | .compact => [':']
  | _ => [':', ' ']

end Layout

mutual

def dump (fmt : FloatFormat F) (ly : Layout) (level : Nat) : Json F → List Char
  | .null => "null".toList
  | .bool true => "true".toList
  | .bool false => "false".toList
  | .int n => intText n
  | .float x => floatText (fmt.repr x)
  | .str s => quote s
  | .arr [] => ['[', ']']
  | .arr (v :: vs) =>
      '[' :: (ly.brk (level + 1) ++ (dump fmt ly (level + 1) v ++
        (dumpItems fmt ly (level + 1) vs ++ (ly.brk level ++ [']']))))
  | .obj [] => ['{', '}']
  | .obj ((k, v) :: ms) =>
      '{' :: (ly.brk (level + 1) ++ (quote k ++ (ly.keySep ++ (dump fmt ly (level + 1) v ++
        (dumpMembers fmt ly (level + 1) ms ++ (ly.brk level ++ ['}']))))))

def dumpItems (fmt : FloatFormat F) (ly : Layout) (level : Nat) : List (Json F) → List Char
  | [] => []
  | v :: vs => ly.itemSep level ++ (dump fmt ly level v ++ dumpItems fmt ly level vs)

def dumpMembers (fmt : FloatFormat F) (ly : Layout) (level : Nat) : Members F → List Char
  | [] => []
  | (k, v) :: ms => ly.itemSep level ++ (quote k ++ (ly.keySep ++ (dump fmt ly level v ++
      dumpMembers fmt ly level ms)))

end

def dumps (fmt : FloatFormat F) (ly : Layout) (v : Json F) : List Char := dump fmt ly 0 v

def isWs (c : Char) : Bool := c == ' ' || c == '\t' || c == '\n' || c == '\r'

def skipWs (s : List Char) : List Char := s.dropWhile isWs

def hexVal (c : Char) : Option Nat :=
  if c.isDigit then some (c.toNat - 48)
  else if 'a' ≤ c ∧ c ≤ 'f' then some (c.toNat - 87)
  else if 'A' ≤ c ∧ c ≤ 'F' then some (c.toNat - 55)
  else none

def hex4 (a b c d : Char) : Option Nat := do
  let a ← hexVal a
  let b ← hexVal b
  let c ← hexVal c
  let d ← hexVal d
  return ((a * 16 + b) * 16 + c) * 16 + d

def simpleEscape : Char → Option Char
  | '"' => some '"'
  | '\\' => some '\\'
  | '/' => some '/'
  | 'b' => some '\x08'
  | 'f' => some '\x0c'
  | 'n' => some '\n'
  | 'r' => some '\r'
  | 't' => some '\t'
  | _ => none

/-- The rest of a string literal after its opening quote. Characters are
Unicode scalar values, so a `\u` escape of an unpaired surrogate, which the
writer never produces, is rejected. -/
def scanString : List Char → Option (List Char × List Char)
  | [] => none
  | '"' :: r => some ([], r)
  | '\\' :: 'u' :: a :: b :: c :: d :: r =>
      match hex4 a b c d with
      | none => none
      | some u =>
          if u < 0xD800 ∨ 0xE000 ≤ u then
            (scanString r).map fun p => (Char.ofNat u :: p.1, p.2)
          else match r with
            | '\\' :: 'u' :: a' :: b' :: c' :: d' :: r' =>
                match hex4 a' b' c' d' with
                | none => none
                | some u' =>
                    if u < 0xDC00 ∧ 0xDC00 ≤ u' ∧ u' < 0xE000 then
                      (scanString r').map fun p =>
                        (Char.ofNat (0x10000 + (u - 0xD800) * 0x400 + (u' - 0xDC00)) :: p.1, p.2)
                    else none
            | _ => none
  | '\\' :: c :: r =>
      match simpleEscape c with
      | none => none
      | some c' => (scanString r).map fun p => (c' :: p.1, p.2)
  | c :: r => if c.toNat < 32 then none else (scanString r).map fun p => (c :: p.1, p.2)

def dropPrefix? : List Char → List Char → Option (List Char)
  | [], s => some s
  | p :: ps, c :: s => if p = c then dropPrefix? ps s else none
  | _ :: _, [] => none

def digits? (s : List Char) : Option (Digits × List Char) :=
  if h : s.takeWhile Char.isDigit ≠ [] then
    some (⟨s.takeWhile Char.isDigit, h, List.all_takeWhile⟩, s.dropWhile Char.isDigit)
  else none

def whole? (s : List Char) : Option (Nat × List Char) :=
  match s with
  | '0' :: r => some (0, r)
  | s => (digits? s).map fun p => (Nat.ofDigitChars 10 p.1.chars 0, p.2)

def exponent? (s : List Char) : Option (Exponent × List Char) :=
  match s with
  | c :: r =>
      if c = 'e' ∨ c = 'E' then
        match r with
        | '-' :: r => (digits? r).map fun p => (⟨true, p.1⟩, p.2)
        | '+' :: r => (digits? r).map fun p => (⟨false, p.1⟩, p.2)
        | r => (digits? r).map fun p => (⟨false, p.1⟩, p.2)
      else none
  | [] => none

def fraction? (s : List Char) : Option (Digits × List Char) :=
  match s with
  | '.' :: r => digits? r
  | _ => none

def floatTail? (s : List Char) : Option (FloatTail × List Char) :=
  match fraction? s with
  | some (d, r) =>
      match exponent? r with
      | some (e, r) => some (.fraction d (some e), r)
      | none => some (.fraction d none, r)
  | none => (exponent? s).map fun p => (.exponent p.1, p.2)

def unsigned (fmt : FloatFormat F) (negative : Bool) (s : List Char) : Option (Json F × List Char) :=
  match whole? s with
  | none => none
  | some (w, r) =>
      match floatTail? r with
      | some (t, r) => some (.float (fmt.read (.literal ⟨negative, w, t⟩)), r)
      | none => some (.int (if negative then -w else w), r)

def number? (fmt : FloatFormat F) (s : List Char) : Option (Json F × List Char) :=
  match s with
  | '-' :: r => unsigned fmt true r
  | s => unsigned fmt false s

def word? (w : String) (v : Json F) (s : List Char) : Option (Json F × List Char) :=
  (dropPrefix? w.toList s).map fun r => (v, r)

def parseScalar (fmt : FloatFormat F) (s : List Char) : Option (Json F × List Char) :=
  [word? "null" .null s, word? "true" (.bool true) s, word? "false" (.bool false) s,
    number? fmt s, word? "NaN" (.float (fmt.read .nan)) s,
    word? "Infinity" (.float (fmt.read (.infinity false))) s,
    word? "-Infinity" (.float (fmt.read (.infinity true))) s].findSome? id

mutual

def parseValue (fmt : FloatFormat F) : Nat → List Char → Option (Json F × List Char)
  | 0, _ => none
  | fuel + 1, s =>
      match s with
      | '"' :: r => (scanString r).map fun p => (.str (String.ofList p.1), p.2)
      | '[' :: r =>
          match skipWs r with
          | ']' :: r => some (.arr [], r)
          | r => (parseItems fmt fuel r).map fun p => (.arr p.1, p.2)
      | '{' :: r =>
          match skipWs r with
          | '}' :: r => some (.obj [], r)
          | '"' :: r => (parseMembers fmt fuel r).map fun p => (.obj (Members.ofPairs p.1), p.2)
          | _ => none
      | s => parseScalar fmt s

def parseItems (fmt : FloatFormat F) : Nat → List Char → Option (List (Json F) × List Char)
  | 0, _ => none
  | fuel + 1, s =>
      match parseValue fmt fuel s with
      | none => none
      | some (v, r) =>
          match skipWs r with
          | ']' :: r => some ([v], r)
          | ',' :: r => (parseItems fmt fuel (skipWs r)).map fun p => (v :: p.1, p.2)
          | _ => none

/-- The members of an object, from inside the quotes of the first key. -/
def parseMembers (fmt : FloatFormat F) : Nat → List Char → Option (Members F × List Char)
  | 0, _ => none
  | fuel + 1, s =>
      match scanString s with
      | none => none
      | some (k, r) =>
          match skipWs r with
          | ':' :: r =>
              match parseValue fmt fuel (skipWs r) with
              | none => none
              | some (v, r) =>
                  match skipWs r with
                  | '}' :: r => some ([(String.ofList k, v)], r)
                  | ',' :: r =>
                      match skipWs r with
                      | '"' :: r => (parseMembers fmt fuel r).map fun p =>
                          ((String.ofList k, v) :: p.1, p.2)
                      | _ => none
                  | _ => none
          | _ => none

end

/-- `json.loads`; `none` is a `JSONDecodeError`. Nesting is bounded by the
length of the text, which serves as fuel. -/
def loads (fmt : FloatFormat F) (s : List Char) : Option (Json F) :=
  match parseValue fmt (s.length + 1) (skipWs s) with
  | some (v, r) => if skipWs r = [] then some v else none
  | none => none

end PyJson
