import TemplateLayout.Value

/-! # Reading tree data from JSON
A reader of JSON text that says exactly what it missed and where. It takes three more words for
numbers, `NaN`, `Infinity` and `-Infinity`, and of two fields with one name the later value counts.

Reading goes from the left. A part that was read comes with the rest of the text, which is shorter
than what was there before, and a failure comes with the rest of the text from the place it names,
so that no position has to be carried along.

* `ReadProblem`, `ReadError` — what was missed, and where;
* `Taken` — something read from the start of a text;
* `Value.takeValue` — one value;
* `Value.read` — a whole text.
-/

namespace TemplateLayout

/-! ## Failures -/

/-- What the reader missed. -/
inductive ReadProblem where
  /-- The text begins with a byte order mark. -/
  | byteOrderMark
  /-- No value begins here. -/
  | value
  /-- Something follows the value. -/
  | endOfText
  /-- No quoted name begins here. -/
  | name
  /-- No colon follows a name. -/
  | colon
  /-- Neither a comma nor the closing bracket follows an item. -/
  | comma
  /-- A string holds a control character. -/
  | controlCharacter
  /-- A string has no closing quote. -/
  | closingQuote
  /-- No escape begins with this backslash. -/
  | escape
  /-- Four hexadecimal digits do not follow. -/
  | codeUnit
  deriving DecidableEq, Repr

/-- The wording of a problem. -/
def ReadProblem.message : ReadProblem → Text
  | .byteOrderMark => "Unexpected UTF-8 BOM (decode using utf-8-sig)".toText
  | .value => "Expecting value".toText
  | .endOfText => "Extra data".toText
  | .name => "Expecting property name enclosed in double quotes".toText
  | .colon => "Expecting ':' delimiter".toText
  | .comma => "Expecting ',' delimiter".toText
  | .controlCharacter => "Invalid control character at".toText
  | .closingQuote => "Unterminated string starting at".toText
  | .escape => "Invalid \\escape".toText
  | .codeUnit => "Invalid \\uXXXX escape".toText

/-- A **failure to read**: the problem, and the text from the place of the problem on. -/
structure ReadError where
  /-- What was missed. -/
  problem : ReadProblem
  /-- What was left of the text at the place of the problem. -/
  rest : Text
  deriving DecidableEq, Repr

namespace ReadError

/-- The part of a text before the place of the problem. -/
def before (e : ReadError) (text : Text) : Text := text.take (text.length - e.rest.length)

/-- The line of the problem, counted from one; only a line feed ends a line. -/
def line (e : ReadError) (text : Text) : Nat := (e.before text).count (.char '\n') + 1

/-- The number of characters between the last line feed before the problem and the problem. -/
def column (e : ReadError) (text : Text) : Nat :=
  ((e.before text).reverse.takeWhile (· != .char '\n')).length

end ReadError

/-! ## Parts of a text -/

/-- Something **taken** from the start of the text `s`, with the shorter text that is left. -/
structure Taken (s : Text) (α : Type) where
  /-- What was taken. -/
  value : α
  /-- What is left. -/
  rest : Text
  /-- Something was taken. -/
  shorter : rest.length < s.length

namespace Taken

variable {α β : Type} {s t : Text}

/-- The same part with another value. -/
def map (f : α → β) (x : Taken s α) : Taken s β := ⟨f x.value, x.rest, x.shorter⟩

/-- A part of a text that is left over from a longer one, as a part of the longer one. -/
def widen (x : Taken t α) (h : t.length ≤ s.length) : Taken s α :=
  ⟨x.value, x.rest, Nat.lt_of_lt_of_le x.shorter h⟩

end Taken

namespace Value

/-- A text without the blanks of JSON at its start. -/
def skipBlanks (s : Text) : Text :=
  s.dropWhile fun c => c == .char ' ' || c == .char '\t' || c == .char '\n' || c == .char '\r'

/-- Skipping never makes a text longer. -/
theorem length_skipBlanks_le (s : Text) : (skipBlanks s).length ≤ s.length :=
  (List.dropWhile_suffix _).length_le

/-- After a skip that ends at `c`, the rest is shorter than the text was. -/
theorem length_of_skipBlanks {s r : Text} {c : CodePoint} (h : skipBlanks s = c :: r) :
    r.length < s.length := by
  have := length_skipBlanks_le s
  rw [h, List.length_cons] at this
  omega

/-! ## Strings -/

/-- The value of a hexadecimal digit. -/
def hexDigit (c : CodePoint) : Option Nat :=
  let n := c.toNat
  if 0x30 ≤ n && n ≤ 0x39 then some (n - 0x30)
  else if 0x61 ≤ n && n ≤ 0x66 then some (n - 0x61 + 10)
  else if 0x41 ≤ n && n ≤ 0x46 then some (n - 0x41 + 10)
  else none

/-- The code unit of four hexadecimal digits that are not the end of the text. -/
def codeUnit : Text → Option Nat
  | a :: b :: c :: d :: _ :: _ => do
    let a ← hexDigit a
    let b ← hexDigit b
    let c ← hexDigit c
    let d ← hexDigit d
    pure (((a * 16 + b) * 16 + c) * 16 + d)
  | _ => none

/-- The code point of the escape `\u…` whose text after the `u` is `r`, and how many characters of
`r` it takes. Two escapes that make a surrogate pair are one character; half a pair alone stays a
surrogate. -/
def unicodeEscape (r : Text) : Except ReadError (CodePoint × Nat) :=
  match codeUnit r with
  | none => throw ⟨.codeUnit, .char 'u' :: r⟩
  | some high =>
    match r.drop 4 with
    | .char '\\' :: .char 'u' :: r' =>
      if 0xD800 ≤ high && high ≤ 0xDBFF && 4 < r'.length then
        match codeUnit r' with
        | none => throw ⟨.codeUnit, .char 'u' :: r'⟩
        | some low =>
          if 0xDC00 ≤ low && low ≤ 0xDFFF then
            pure (.ofNat (0x10000 + (high - 0xD800) * 0x400 + (low - 0xDC00)), 10)
          else pure (.ofNat high, 4)
      else pure (.ofNat high, 4)
    | _ => pure (.ofNat high, 4)

/-- The character of a one-letter escape. -/
def letterEscape : CodePoint → Option CodePoint
  | .char '"' => some (.char '"')
  | .char '\\' => some (.char '\\')
  | .char '/' => some (.char '/')
  | .char 'b' => some (.char '\x08')
  | .char 'f' => some (.char '\x0c')
  | .char 'n' => some (.char '\n')
  | .char 'r' => some (.char '\r')
  | .char 't' => some (.char '\t')
  | _ => none

/-- The characters of a string up to its closing quote; `start` is the text from its opening
quote. -/
def takeString (start s : Text) : Except ReadError (Taken s Text) :=
  match s with
  | [] => throw ⟨.closingQuote, start⟩
  | .char '"' :: r => pure ⟨[], r, by simp⟩
  | [.char '\\'] => throw ⟨.closingQuote, start⟩
  | .char '\\' :: .char 'u' :: r => do
    let (c, n) ← unicodeEscape r
    let t ← takeString start (r.drop n)
    pure ((t.map (c :: ·)).widen (by simp; omega))
  | .char '\\' :: e :: r =>
    match letterEscape e with
    | none => throw ⟨.escape, .char '\\' :: e :: r⟩
    | some c => do
      let t ← takeString start r
      pure ((t.map (c :: ·)).widen (by simp; omega))
  | c :: r =>
    if c.toNat < 0x20 then throw ⟨.controlCharacter, c :: r⟩
    else do
      let t ← takeString start r
      pure ((t.map (c :: ·)).widen (by simp))
termination_by s.length
decreasing_by all_goals simp; try omega

/-! ## Numbers -/

/-- The natural number of some decimal digits. -/
def natOfDigits (ds : Text) : Nat := ds.foldl (fun n c => n * 10 + (c.toNat - 48)) 0

/-- The digits before the point: a lone zero, or digits that begin with another one. -/
def wholeDigits : Text → Text
  | .char '0' :: _ => [.char '0']
  | s => s.takeWhile CodePoint.isDigit

/-- The digits after a point that stands at the start, if there are any. -/
def fractionDigits : Text → Text
  | .char '.' :: s => s.takeWhile CodePoint.isDigit
  | _ => []

/-- Sign, digits and length of an exponent at the start of a text. -/
def exponentPart : Text → Option (Bool × Text × Nat)
  | e :: s =>
    if e == .char 'e' || e == .char 'E' then
      let (negative, sign, r) :=
        match s with
        | .char '-' :: r => (true, 1, r)
        | .char '+' :: r => (false, 1, r)
        | r => (false, 0, r)
      let ds := r.takeWhile CodePoint.isDigit
      if ds.isEmpty then none else some (negative, ds, 1 + sign + ds.length)
    else none
  | [] => none

/-- The number without a sign at the start of a text, and its length. A fraction or an exponent
without digits is not part of it. -/
def takeMagnitude (negative : Bool) (s : Text) : Option (Value × Nat) :=
  let whole := wholeDigits s
  if whole.isEmpty then none
  else
    let fraction := fractionDigits (s.drop whole.length)
    let dotted := if fraction.isEmpty then 0 else 1 + fraction.length
    let used := whole.length + dotted
    match exponentPart (s.drop used) with
    | some (down, ds, n) =>
      let power : Int := natOfDigits ds
      some (.real (.finite ⟨negative, natOfDigits (whole ++ fraction),
        (if down then -power else power) - fraction.length⟩), used + n)
    | none =>
      if fraction.isEmpty then
        let n : Int := natOfDigits whole
        some (.int (if negative then -n else n), used)
      else
        some (.real (.finite ⟨negative, natOfDigits (whole ++ fraction), -fraction.length⟩), used)

/-- The number at the start of a text, and its length. -/
def takeNumber : Text → Option (Value × Nat)
  | .char '-' :: s => (takeMagnitude true s).map fun (v, n) => (v, n + 1)
  | s => takeMagnitude false s

/-! ## Values -/

/-- The words that stand for a value. -/
def wordValues : List (Text × Value) :=
  [("null".toText, .null), ("true".toText, .bool true), ("false".toText, .bool false),
    ("NaN".toText, .real .nan), ("Infinity".toText, .real (.infinite false)),
    ("-Infinity".toText, .real (.infinite true))]

/-- A word or a number at the start of a text. -/
def takeScalar (s : Text) : Except ReadError (Taken s Value) :=
  let found :=
    match wordValues.find? fun w => w.1.isPrefixOf s with
    | some (word, v) => some (v, word.length)
    | none => takeNumber s
  match found with
  | some (v, n) =>
    if h : 0 < n ∧ s ≠ [] then
      pure ⟨v, s.drop n, by
        have := List.length_pos_iff.mpr h.2
        simp only [List.length_drop]
        omega⟩
    else throw ⟨.value, s⟩
  | none => throw ⟨.value, s⟩

mutual

/-- **One value** at the start of a text that begins with no blank. -/
def takeValue (s : Text) : Except ReadError (Taken s Value) :=
  match s with
  | .char '"' :: r => do
    let t ← takeString (.char '"' :: r) r
    pure ((t.map Value.string).widen (by simp))
  | .char '[' :: r =>
    match h : skipBlanks r with
    | .char ']' :: r' => pure ⟨.list [], r', Nat.lt_succ_of_lt (length_of_skipBlanks h)⟩
    | _ => do
      let t ← takeItems (skipBlanks r)
      pure ((t.map Value.list).widen (Nat.le_succ_of_le (length_skipBlanks_le r)))
  | .char '{' :: r =>
    match h : skipBlanks r with
    | .char '}' :: r' => pure ⟨.mapping [], r', Nat.lt_succ_of_lt (length_of_skipBlanks h)⟩
    | _ => do
      let t ← takeFields (skipBlanks r)
      let collected := t.value.foldl (fun fields (name, v) => put fields name v) []
      pure ((t.map fun _ => Value.mapping collected).widen
        (Nat.le_succ_of_le (length_skipBlanks_le r)))
  | s => takeScalar s
termination_by (s.length, 0)
decreasing_by
  all_goals
    have := length_skipBlanks_le r
    simp only [List.length_cons]
    omega

/-- The items of a list, one or more, and the bracket after them. -/
def takeItems (s : Text) : Except ReadError (Taken s (List Value)) := do
  let t ← takeValue s
  match h : skipBlanks t.rest with
  | .char ']' :: r => pure ⟨[t.value], r, Nat.lt_trans (length_of_skipBlanks h) t.shorter⟩
  | .char ',' :: r => do
    let u ← takeItems (skipBlanks r)
    pure ((u.map (t.value :: ·)).widen (Nat.le_trans (length_skipBlanks_le r)
      (Nat.le_of_lt (Nat.lt_trans (length_of_skipBlanks h) t.shorter))))
  | r => throw ⟨.comma, r⟩
termination_by (s.length, 1)
decreasing_by
  · omega
  · have := length_skipBlanks_le r
    have := length_of_skipBlanks h
    have := t.shorter
    omega

/-- The fields of a mapping, one or more, and the brace after them. -/
def takeFields (s : Text) : Except ReadError (Taken s (List (Text × Value))) :=
  match s with
  | .char '"' :: s' => do
    let name ← takeString (.char '"' :: s') s'
    match hc : skipBlanks name.rest with
    | .char ':' :: r => do
      let t ← takeValue (skipBlanks r)
      match hd : skipBlanks t.rest with
      | .char '}' :: r' =>
        pure ⟨[(name.value, t.value)], r', by
          have := length_of_skipBlanks hd
          have := t.shorter
          have := length_skipBlanks_le r
          have := length_of_skipBlanks hc
          have := name.shorter
          simp only [List.length_cons]
          omega⟩
      | .char ',' :: r' => do
        let u ← takeFields (skipBlanks r')
        pure ((u.map ((name.value, t.value) :: ·)).widen (by
          have := length_skipBlanks_le r'
          have := length_of_skipBlanks hd
          have := t.shorter
          have := length_skipBlanks_le r
          have := length_of_skipBlanks hc
          have := name.shorter
          simp only [List.length_cons]
          omega))
      | r' => throw ⟨.comma, r'⟩
    | r => throw ⟨.colon, r⟩
  | s => throw ⟨.name, s⟩
termination_by (s.length, 1)
decreasing_by
  · have := length_skipBlanks_le r
    have := length_of_skipBlanks hc
    have := name.shorter
    simp only [List.length_cons]
    omega
  · have := length_skipBlanks_le r'
    have := length_of_skipBlanks hd
    have := t.shorter
    have := length_skipBlanks_le r
    have := length_of_skipBlanks hc
    have := name.shorter
    simp only [List.length_cons]
    omega

end

/-- **The value of a whole text**, blanks around it apart. Numbers may have any number of digits and
values may nest to any depth; a limit on either, which a host program may have, is left out. -/
def read (text : Text) : Except ReadError Value :=
  if [.char '\uFEFF'].isPrefixOf text then throw ⟨.byteOrderMark, text⟩
  else do
    let t ← takeValue (skipBlanks text)
    match skipBlanks t.rest with
    | [] => pure t.value
    | rest => throw ⟨.endOfText, rest⟩

end Value

end TemplateLayout
