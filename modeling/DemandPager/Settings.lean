/-
# Settings written as text

Options can be written down as a TOML document. The value of an option is an
integer or a truth value and its key is a single name, so a document that sets
options is a list of lines, each of which is blank or has the form `key = value`,
with blanks and a comment around it as one likes. All else that TOML has (tables,
dotted keys, strings, dates, arrays) makes a document that sets no option, and is
refused, as are unknown keys, repeated keys and values out of range.

A key may be written bare or in quotes of either kind. An integer has a sign and
no leading zero, or a base mark and no sign; single underscores may stand between
its digits.

Key definitions: `Settings.readKey`, `Settings.readInteger`, `Settings.readLine`,
`Options.parse?`, `Options.load`.
-/
import DemandPager.Options

namespace DemandPager
namespace Settings

inductive Value
  | number (n : Nat)
  | truth (b : Bool)
deriving DecidableEq, Repr

def isBlank (c : Char) : Bool := c == ' ' || c == '\t'

def skipBlanks (cs : List Char) : List Char := cs.dropWhile isBlank

def isBare (c : Char) : Bool := c.isAlphanum || c == '_' || c == '-'

/-- Comments may hold every character that is no control character, and tabs. -/
def inComment (c : Char) : Bool := c == '\t' || (0x20 ≤ c.toNat && c.toNat != 0x7f)

/-- The mark that opens and closes a quoted key. -/
def quoteMark : Char := Char.ofNat 34

def literalMark : Char := Char.ofNat 39

/-- The value of a digit; 36 for a character that is none. -/
def digitValue (c : Char) : Nat :=
  if '0' ≤ c && c ≤ '9' then c.toNat - 48
  else if 'a' ≤ c && c ≤ 'z' then c.toNat - 87
  else if 'A' ≤ c && c ≤ 'Z' then c.toNat - 55
  else 36

/-- Reads digits of a base to the end; an underscore may stand before each. -/
def readDigits (base : Nat) : (acc : Nat) → List Char → Option Nat
  | acc, [] => some acc
  | acc, '_' :: c :: cs =>
    if digitValue c < base then readDigits base (acc * base + digitValue c) cs else none
  | acc, c :: cs =>
    if digitValue c < base then readDigits base (acc * base + digitValue c) cs else none

/-- Reads a numeral of a base to the end. It begins with a digit. -/
def readNumeral (base : Nat) : List Char → Option Nat
  | [] => none
  | c :: cs => if digitValue c < base then readDigits base (digitValue c) cs else none

/-- Reads a numeral of base ten that has no leading zero. -/
def readDecimal : List Char → Option Nat
  | ['0'] => some 0
  | '0' :: _ => none
  | cs => readNumeral 10 cs

/-- Reads an integer to the end, if it is not negative and fits in sixty-four bits
with a sign. -/
def readInteger (cs : List Char) : Option Nat :=
  let value := match cs with
    | '0' :: 'x' :: ds => readNumeral 16 ds
    | '0' :: 'o' :: ds => readNumeral 8 ds
    | '0' :: 'b' :: ds => readNumeral 2 ds
    | '+' :: ds => readDecimal ds
    | '-' :: ds => (readDecimal ds).filter (· == 0)
    | ds => readDecimal ds
  value.filter (2 * · < wordBound)

def readValue (cs : List Char) : Option Value :=
  if cs = "true".toList then some (.truth true)
  else if cs = "false".toList then some (.truth false)
  else (readInteger cs).map .number

/-- Reads exactly `n` digits of base sixteen as the number of a character. -/
def readCharNumber (n : Nat) (cs : List Char) : Option (Char × List Char) := do
  let ds := cs.take n
  guard (ds.length = n && ds.all (digitValue · < 16))
  let number := ds.foldl (fun acc c => acc * 16 + digitValue c) 0
  guard (number < 0xd800 || (0xdfff < number && number < 0x110000))
  return (Char.ofNat number, cs.drop n)

/-- Reads what follows a backslash in a quoted key. -/
def readEscape : List Char → Option (Char × List Char)
  | 'b' :: cs => some (Char.ofNat 8, cs)
  | 't' :: cs => some ('\t', cs)
  | 'n' :: cs => some ('\n', cs)
  | 'f' :: cs => some (Char.ofNat 12, cs)
  | 'r' :: cs => some ('\r', cs)
  | 'u' :: cs => readCharNumber 4 cs
  | 'U' :: cs => readCharNumber 8 cs
  | c :: cs => if c == quoteMark || c == '\\' then some (c, cs) else none
  | [] => none

/-- Reads a quoted key to its closing mark; it has at most `fuel` characters. -/
def readQuoted : (fuel : Nat) → (acc : List Char) → List Char → Option (List Char × List Char)
  | 0, _, _ => none
  | _, _, [] => none
  | fuel + 1, acc, c :: cs =>
    if c == quoteMark then some (acc.reverse, cs)
    else if c == '\\' then do
      let (c, rest) ← readEscape cs
      readQuoted fuel (c :: acc) rest
    else if inComment c then readQuoted fuel (c :: acc) cs
    else none

/-- Reads a key; the second part is what follows it. -/
def readKey (cs : List Char) : Option (String × List Char) :=
  match cs with
  | [] => none
  | c :: rest =>
    if c == quoteMark then
      (readQuoted (rest.length + 1) [] rest).map fun (key, rest) => (String.ofList key, rest)
    else if c == literalMark then
      match rest.dropWhile (· != literalMark) with
      | _ :: after => some (String.ofList (rest.takeWhile (· != literalMark)), after)
      | [] => none
    else if isBare c then
      some (String.ofList (cs.takeWhile isBare), cs.dropWhile isBare)
    else
      none

/-- Whether the rest of a line says nothing: blanks, and perhaps a comment. -/
def isSilent (cs : List Char) : Bool :=
  match skipBlanks cs with
  | [] => true
  | '#' :: comment => comment.all inComment
  | _ => false

/-- The characters of a value end at a blank or a comment. -/
def inValue (c : Char) : Bool := !isBlank c && c != '#'

def readSetting (cs : List Char) : Option (String × Value) := do
  let (key, rest) ← readKey (skipBlanks cs)
  match skipBlanks rest with
  | '=' :: rest =>
    let rest := skipBlanks rest
    let value ← readValue (rest.takeWhile inValue)
    guard (isSilent (rest.dropWhile inValue))
    return (key, value)
  | _ => none

/-- Reads a line, which may set an option or say nothing. -/
def readLine (cs : List Char) : Option (Option (String × Value)) :=
  if isSilent cs then some none else (readSetting cs).map some

/-- The lines of a text. A carriage return before a line feed belongs to the end
of the line. -/
def lines : List Char → List (List Char)
  | [] => [[]]
  | '\n' :: cs => [] :: lines cs
  | '\r' :: '\n' :: cs => [] :: lines cs
  | c :: cs =>
    match lines cs with
    | line :: rest => (c :: line) :: rest
    | [] => [[c]]

/-- Gives an option its value, if there is such an option with such values. -/
def assign (o : Options) (key : String) (value : Value) : Option Options :=
  match key, value with
  | "ring_capacity", .number n => some { o with ringCapacity := n }
  | "ring_growable", .truth b => some { o with ringGrowable := b }
  | "initial_scratch_pages", .number n => some { o with initialScratchPages := n }
  | "poll_timeout_ms", .number n => some { o with pollTimeout := n }
  | "max_consecutive_interrupts", .number n =>
    if n < halfWordBound then some { o with maxInterrupts := n } else none
  | "concurrency", .number n => some { o with concurrency := n }
  | "high_water_mark_bytes", .number n => some { o with highWaterMark := some n }
  | "low_water_mark_bytes", .number n => some { o with lowWaterMark := some n }
  | _, _ => none

/-- Reads the lines one after the other; no key may come twice. -/
def readLines : (seen : List String) → Options → List (List Char) → Option Options
  | _, o, [] => some o
  | seen, o, line :: rest => do
    match ← readLine line with
    | none => readLines seen o rest
    | some (key, value) =>
      guard (!seen.contains key)
      readLines (key :: seen) (← assign o key value) rest

def byteOrderMark : Char := Char.ofNat 0xfeff

/-- A text without the mark of its byte order. -/
def dropByteOrderMark : List Char → List Char
  | c :: cs => if c == byteOrderMark then cs else c :: cs
  | [] => []

end Settings

/-- Reads options from a text, and normalizes them. -/
def Options.parse? (text : String) : Option Options :=
  (Settings.readLines [] {} (Settings.lines (Settings.dropByteOrderMark text.toList))).map
    Options.normalize

inductive LoadError
  /-- The file could not be read. -/
  | host (cause : IoCause)
  /-- The content sets no options. -/
  | malformed
deriving DecidableEq, Repr

/-- Reads options from the content of a file, if the file exists. -/
def Options.load : Option ByteArray → Except LoadError Options
  | none => .error (.host (.code Errno.absent))
  | some content =>
    match String.fromUTF8? content with
    | none => .error (.host (.text "stream did not contain valid UTF-8"))
    | some text =>
      match Options.parse? text with
      | some o => .ok o
      | none => .error .malformed

end DemandPager
