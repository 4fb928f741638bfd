import Mathlib.Algebra.Group.Nat.Defs
import AlephCvm.JsonRecords
import AlephCvm.Utf8Text

/-!
# Texts of JSON trees

How a tree is written as a text, on one line or indented, and how a text or
the bytes of a body are read as a tree.  The reader passes over blanks between
the tokens.  It takes a string that stands for no text, because of a lone half
of a pair of units or of bytes that are no character, as one that is not
decoded: a record that passes over the string can still be read.
-/

namespace JsonRecords

open Utf8Text

variable {α : Type}

/-! ## Writing -/

def isBlank (symbol : Char) : Bool :=
  symbol == ' ' || symbol == '\n' || symbol == '\t' || symbol == '\r'

/-- What stands in front of an element on its level, and what stands behind a
colon. -/
structure Layout where
  newline : ℕ → List Char
  space : List Char
  newline_blank : ∀ level, ∀ symbol ∈ newline level, isBlank symbol = true
  space_blank : ∀ symbol ∈ space, isBlank symbol = true

def Layout.compact : Layout where
  newline := fun _ => []
  space := []
  newline_blank := by simp
  space_blank := by simp

def Layout.pretty : Layout where
  newline := fun level => '\n' :: List.replicate (2 * level) ' '
  space := [' ']
  newline_blank := by
    intro level symbol hsymbol
    rcases List.mem_cons.mp hsymbol with rfl | hblank
    · rfl
    · rw [List.eq_of_mem_replicate hblank]
      rfl
  space_blank := by
    intro symbol hsymbol
    rw [List.mem_singleton.mp hsymbol]
    rfl

def nibble (value : ℕ) : Char :=
  if value < 10 then Char.ofNat (48 + value) else Char.ofNat (87 + value)

def escape (symbol : Char) : List Char :=
  if symbol = '"' then ['\\', '"']
  else if symbol = '\\' then ['\\', '\\']
  else if symbol.toNat = 8 then ['\\', 'b']
  else if symbol.toNat = 9 then ['\\', 't']
  else if symbol.toNat = 10 then ['\\', 'n']
  else if symbol.toNat = 12 then ['\\', 'f']
  else if symbol.toNat = 13 then ['\\', 'r']
  else if symbol.toNat < 32 then
    ['\\', 'u', '0', '0', nibble (symbol.toNat / 16),
      nibble (symbol.toNat % 16)]
  else [symbol]

def writeText (text : String) : List Char :=
  '"' :: (text.toList.flatMap escape ++ ['"'])

mutual

def writeTree (layout : Layout) (level : ℕ) : Json → List Char
  | .null => ['n', 'u', 'l', 'l']
  | .bool true => ['t', 'r', 'u', 'e']
  | .bool false => ['f', 'a', 'l', 's', 'e']
  | .unsigned value => (toString value.toNat).toList
  | .otherNumber text => text.toList
  | .string text => writeText text
  | .undecoded => []
  | .array [] => ['[', ']']
  | .array (item :: rest) =>
      '[' :: (layout.newline (level + 1) ++
        (writeTree layout (level + 1) item ++ writeItems layout level rest))
  | .object [] => ['{', '}']
  | .object ((name, value) :: rest) =>
      '{' :: (layout.newline (level + 1) ++
        (writeText name ++ ':' :: (layout.space ++
          (writeTree layout (level + 1) value ++
            writeFields layout level rest))))

/-- The items behind the first one. -/
def writeItems (layout : Layout) (level : ℕ) : List Json → List Char
  | [] => layout.newline level ++ [']']
  | item :: rest =>
      ',' :: (layout.newline (level + 1) ++
        (writeTree layout (level + 1) item ++ writeItems layout level rest))

def writeFields (layout : Layout) (level : ℕ) :
    List (String × Json) → List Char
  | [] => layout.newline level ++ ['}']
  | (name, value) :: rest =>
      ',' :: (layout.newline (level + 1) ++
        (writeText name ++ ':' :: (layout.space ++
          (writeTree layout (level + 1) value ++
            writeFields layout level rest))))

end

def writeJson (layout : Layout) (json : Json) : String :=
  String.ofList (writeTree layout 0 json)

/-! ## Reading -/

def skipBlanks (symbols : List Symbol) : List Symbol :=
  symbols.dropWhile fun symbol => symbol.any isBlank

def nibbleValue (symbol : Char) : Option ℕ :=
  let code := symbol.toNat
  if 48 ≤ code ∧ code ≤ 57 then some (code - 48)
  else if 65 ≤ code ∧ code ≤ 70 then some (code - 55)
  else if 97 ≤ code ∧ code ≤ 102 then some (code - 87)
  else none

def readUnit (first second third last : Symbol) : Option ℕ := do
  let first ← first.bind nibbleValue
  let second ← second.bind nibbleValue
  let third ← third.bind nibbleValue
  let last ← last.bind nibbleValue
  return first * 4096 + second * 256 + third * 16 + last

def unescape : Char → Option Char
  | '"' => some '"'
  | '\\' => some '\\'
  | '/' => some '/'
  | 'b' => some (Char.ofNat 8)
  | 't' => some (Char.ofNat 9)
  | 'n' => some (Char.ofNat 10)
  | 'f' => some (Char.ofNat 12)
  | 'r' => some (Char.ofNat 13)
  | _ => none

/-- The second half of a pair of units.  Where there is none, the first half
is no character. -/
def readLow (high : ℕ) (symbols : List Symbol) : Symbol × List Symbol :=
  match symbols with
  | some '\\' :: some 'u' :: first :: second :: third :: last :: rest =>
      match readUnit first second third last with
      | some low =>
          if 0xDC00 ≤ low ∧ low < 0xE000 then
            (some (Char.ofNat
              (0x10000 + (high - 0xD800) * 0x400 + (low - 0xDC00))), rest)
          else (none, symbols)
      | none => (none, symbols)
  | symbols => (none, symbols)

/-- One character of a string. -/
def readSymbol : List Symbol → Option (Symbol × List Symbol)
  | some '\\' :: some 'u' :: first :: second :: third :: last :: rest => do
      let unit ← readUnit first second third last
      if 0xD800 ≤ unit ∧ unit < 0xDC00 then return readLow unit rest
      else if 0xDC00 ≤ unit ∧ unit < 0xE000 then return (none, rest)
      else return (some (Char.ofNat unit), rest)
  | some '\\' :: symbol :: rest => do
      let symbol ← symbol.bind unescape
      return (some symbol, rest)
  | some symbol :: rest =>
      if symbol.toNat < 32 then none else some (some symbol, rest)
  | none :: rest => some (none, rest)
  | [] => none

/-- The characters of a string up to its closing quote, when each of them is
one. -/
def readText : ℕ → List Symbol →
    Option (Option (List Char) × List Symbol)
  | 0, _ => none
  | fuel + 1, symbols =>
      if symbols.head? = some (some '"') then some (some [], symbols.tail)
      else do
        let (symbol, rest) ← readSymbol symbols
        let (text, rest) ← readText fuel rest
        return (symbol.bind fun symbol => text.map fun text => symbol :: text,
          rest)

def readQuoted (symbols : List Symbol) :
    Option (Option String × List Symbol) := do
  let (text, rest) ← readText symbols.length symbols
  return (text.map String.ofList, rest)

def isNumeral (symbol : Char) : Bool :=
  symbol.isDigit || symbol == '-' || symbol == '+' || symbol == '.' ||
    symbol == 'e' || symbol == 'E'

def isInteger (digits : List Char) : Bool :=
  !digits.isEmpty && digits.all Char.isDigit &&
    (digits.head? != some '0' || digits.length == 1)

def isExponent : List Char → Bool
  | [] => true
  | symbol :: rest =>
      (symbol == 'e' || symbol == 'E') &&
        (let digits := match rest with
          | '+' :: digits => digits
          | '-' :: digits => digits
          | digits => digits
        !digits.isEmpty && digits.all Char.isDigit)

def isFraction : List Char → Bool
  | '.' :: rest =>
      !(rest.takeWhile Char.isDigit).isEmpty &&
        isExponent (rest.dropWhile Char.isDigit)
  | rest => isExponent rest

def isNumber (token : List Char) : Bool :=
  let unsigned := match token with
    | '-' :: rest => rest
    | rest => rest
  isInteger (unsigned.takeWhile Char.isDigit) &&
    isFraction (unsigned.dropWhile Char.isDigit)

def readNumber (symbols : List Symbol) : Option (Json × List Symbol) :=
  let token := (symbols.takeWhile fun symbol =>
    symbol.any isNumeral).filterMap id
  let rest := symbols.dropWhile fun symbol => symbol.any isNumeral
  if isInteger token then
    let value := Nat.ofDigitChars 10 token 0
    if value < 2 ^ 64 then some (.unsigned (UInt64.ofNat value), rest)
    else some (.otherNumber (String.ofList token), rest)
  else if isNumber token then
    some (.otherNumber (String.ofList token), rest)
  else none

def readScalar : List Symbol → Option (Json × List Symbol)
  | some '"' :: rest => do
      let (text, rest) ← readQuoted rest
      return (text.elim .undecoded .string, rest)
  | some 'n' :: some 'u' :: some 'l' :: some 'l' :: rest => some (.null, rest)
  | some 't' :: some 'r' :: some 'u' :: some 'e' :: rest =>
      some (.bool true, rest)
  | some 'f' :: some 'a' :: some 'l' :: some 's' :: some 'e' :: rest =>
      some (.bool false, rest)
  | symbols => readNumber symbols

/-- What follows an element: the closing symbol, or a comma and the next
element. -/
def readRest (read : List Symbol → Option (α × List Symbol))
    (closing : Char) : ℕ → List Symbol → Option (List α × List Symbol)
  | 0, _ => none
  | fuel + 1, symbols =>
      match skipBlanks symbols with
      | [] => none
      | symbol :: rest =>
          if symbol = some closing then some ([], rest)
          else if symbol = some ',' then do
            let (item, rest) ← read (skipBlanks rest)
            let (items, rest) ← readRest read closing fuel rest
            return (item :: items, rest)
          else none

def readElements (read : List Symbol → Option (α × List Symbol))
    (closing : Char) (symbols : List Symbol) :
    Option (List α × List Symbol) :=
  let symbols := skipBlanks symbols
  if symbols.head? = some (some closing) then some ([], symbols.tail)
  else do
    let (item, rest) ← read symbols
    let (items, rest) ← readRest read closing rest.length rest
    return (item :: items, rest)

def readField (read : List Symbol → Option (Json × List Symbol)) :
    List Symbol → Option ((Option String × Json) × List Symbol)
  | some '"' :: rest => do
      let (name, rest) ← readQuoted rest
      match skipBlanks rest with
      | some ':' :: rest => do
          let (value, rest) ← read (skipBlanks rest)
          return ((name, value), rest)
      | _ => none
  | _ => none

/-- The object with these fields, when each name is a text. -/
def objectOf (fields : List (Option String × Json)) : Json :=
  match fields.mapM fun field =>
      field.1.map fun name => (name, field.2) with
  | some fields => .object fields
  | none => .undecoded

/-- Every bracket takes one of the levels that are left. -/
def readValue : ℕ → List Symbol → Option (Json × List Symbol)
  | 0, symbols => readScalar symbols
  | depth + 1, symbols =>
      match symbols with
      | some '[' :: rest => do
          let (items, rest) ← readElements (readValue depth) ']' rest
          return (.array items, rest)
      | some '{' :: rest => do
          let (fields, rest) ←
            readElements (readField (readValue depth)) '}' rest
          return (objectOf fields, rest)
      | symbols => readScalar symbols

/-- There are no more levels than symbols. -/
def readSymbols (symbols : List Symbol) : Option Json := do
  let (json, rest) ← readValue symbols.length (skipBlanks symbols)
  if (skipBlanks rest).isEmpty then some json else none

def readJson (text : String) : Option Json :=
  readSymbols (text.toList.map some)

def readBytes (bytes : List UInt8) : Option Json :=
  readSymbols (symbolsOf bytes)

/-- So many levels are gone down into fields that are not passed over. -/
def maxLevels : ℕ := 127

mutual

/-- Each part of the tree has been decoded, and it has at most so many
levels. -/
def Json.isBuffered : ℕ → Json → Bool
  | _, .undecoded => false
  | 0, .array _ => false
  | 0, .object _ => false
  | depth + 1, .array items => itemsBuffered depth items
  | depth + 1, .object fields => fieldsBuffered depth fields
  | _, _ => true

def itemsBuffered : ℕ → List Json → Bool
  | _, [] => true
  | depth, item :: rest => item.isBuffered depth && itemsBuffered depth rest

def fieldsBuffered : ℕ → List (String × Json) → Bool
  | _, [] => true
  | depth, (_, value) :: rest =>
      value.isBuffered depth && fieldsBuffered depth rest

end

end JsonRecords
