import SqlConsole.Text.Blank
/-!
# Text

Text is a list of characters.  Everything this library reads or writes is text, it is read from
the left one character at a time, and positions inside it are counted in bytes of its UTF-8
encoding.  A string literal stands for the text it spells.

The functions below trim, split and search text.  `slice` cuts a part out between two byte
offsets and answers nothing when an offset falls inside a character.
-/

namespace SqlConsole

/-- Text, read from the left one character at a time. -/
abbrev Text := List Char

instance : Coe String Text := ⟨String.toList⟩

namespace Text

/-- The number of bytes of the UTF-8 encoding of a text. -/
def byteLength : Text → Nat
  | [] => 0
  | c :: r => c.utf8Size + byteLength r

@[simp] theorem byteLength_nil : byteLength [] = 0 := rfl

@[simp] theorem byteLength_cons (c : Char) (t : Text) :
    byteLength (c :: t) = c.utf8Size + byteLength t := rfl

@[simp] theorem byteLength_append (s t : Text) :
    byteLength (s ++ t) = byteLength s + byteLength t := by
  induction s with
  | nil => simp
  | cons c s ih => simp [ih, Nat.add_assoc]

/-! ## Trimming -/

/-- Drop the longest suffix whose characters all satisfy `p`. -/
def dropEndWhile (p : Char → Bool) (t : Text) : Text := (t.reverse.dropWhile p).reverse

theorem dropEndWhile_append (p : Char → Bool) (t : Text) :
    dropEndWhile p t ++ (t.reverse.takeWhile p).reverse = t := by
  rw [dropEndWhile, ← List.reverse_append, List.takeWhile_append_dropWhile, List.reverse_reverse]

/-- Drop the longest prefix and then the longest suffix whose characters all satisfy `p`. -/
def dropAround (p : Char → Bool) (t : Text) : Text := dropEndWhile p (t.dropWhile p)

/-- Drop the leading blanks. -/
def trimStart (t : Text) : Text := t.dropWhile isBlank

/-- Drop the trailing blanks. -/
def trimEnd (t : Text) : Text := dropEndWhile isBlank t

/-- Drop the leading and the trailing blanks. -/
def trim (t : Text) : Text := dropAround isBlank t

/-- Drop every trailing `;`. -/
def dropTerminators (t : Text) : Text := dropEndWhile (· == ';') t

/-! ## Letter case -/

/-- Capitals for the letters `a` to `z`; all other characters stay. -/
def upper (t : Text) : Text := t.map Char.toUpper

/-- Small letters for the letters `A` to `Z`; all other characters stay. -/
def lower (t : Text) : Text := t.map Char.toLower

/-- Two texts are the same word when they differ at most in the case of the letters `a` to `z`. -/
def sameWord (s t : Text) : Bool := upper s == upper t

/-! ## Splitting and joining -/

/-- The parts between the characters that satisfy `p`, always at least one. -/
def fieldsBy (p : Char → Bool) : Text → List Text
  | [] => [[]]
  | c :: r =>
    if p c then [] :: fieldsBy p r
    else match fieldsBy p r with
      | [] => [[c]]
      | part :: parts => (c :: part) :: parts

/-- The parts between the occurrences of a separator, always at least one. -/
def fields (sep : Char) (t : Text) : List Text := fieldsBy (· == sep) t

/-- The words of a text: its longest runs of characters that are not blank. -/
def words (t : Text) : List Text := (fieldsBy isBlank t).filter fun w => !w.isEmpty

/-- The parts of a list with a separator between each two of them. -/
def join (sep : Text) (parts : List Text) : Text := sep.intercalate parts

/-- The text before and the text after the first occurrence of a separator. -/
def cutFirst? (sep : Char) : Text → Option (Text × Text)
  | [] => none
  | c :: r => if c = sep then some ([], r) else (cutFirst? sep r).map fun (a, b) => (c :: a, b)

/-- The text before and the text after the last occurrence of a separator. -/
def cutLast? (sep : Char) (t : Text) : Option (Text × Text) :=
  (cutFirst? sep t.reverse).map fun (b, a) => (a.reverse, b.reverse)

/-- The lines of a text.  A line ends with `\n` or with `\r\n`; what follows the last line end is
a line of its own unless it is empty. -/
def lines (t : Text) : List Text :=
  let parts := fields '\n' t
  let ended := parts.dropLast.map fun line =>
    if line.getLast? = some '\r' then line.dropLast else line
  match parts.getLast? with
  | none | some [] => ended
  | some last => ended ++ [last]

/-! ## Numbers -/

/-- A natural number in decimal digits. -/
def ofNat (n : Nat) : Text := Nat.toDigits 10 n

/-- An integer in decimal digits, with `-` in front of a negative one. -/
def ofInt (i : Int) : Text := if i < 0 then '-' :: ofNat i.natAbs else ofNat i.natAbs

/-- A natural number in small hexadecimal digits, with zeros in front up to a width. -/
def ofNatHex (width n : Nat) : Text :=
  let digits := Nat.toDigits 16 n
  List.replicate (width - digits.length) '0' ++ digits

/-- The number that decimal digits spell; every character counts as a digit. -/
def decimalValue (digits : Text) : Nat :=
  digits.foldl (fun n c => 10 * n + (c.toNat - '0'.toNat)) 0

/-- Whether a text is one or more of the digits `0` to `9`. -/
def isDigits (t : Text) : Bool := !t.isEmpty && t.all Char.isDigit

/-! ## Padding and quoting -/

/-- A text with blanks behind it up to a width in characters. -/
def padEnd (width : Nat) (t : Text) : Text := t ++ List.replicate (width - t.length) ' '

/-- A text with blanks in front of it up to a width in characters. -/
def padStart (width : Nat) (t : Text) : Text := List.replicate (width - t.length) ' ' ++ t

/-- Every occurrence of a quote character written twice, and all other characters once. -/
def double (quote : Char) (t : Text) : Text :=
  t.flatMap fun c => if c = quote then [c, c] else [c]

/-! ## Byte offsets -/

/-- What is left of a text after its first `n` bytes, if they end between two characters. -/
def dropBytes? : Nat → Text → Option Text
  | 0, t => some t
  | _ + 1, [] => none
  | n + 1, c :: r => if c.utf8Size ≤ n + 1 then dropBytes? (n + 1 - c.utf8Size) r else none

/-- The first `n` bytes of a text, if they end between two characters. -/
def takeBytes? : Nat → Text → Option Text
  | 0, _ => some []
  | _ + 1, [] => none
  | n + 1, c :: r =>
    if c.utf8Size ≤ n + 1 then (takeBytes? (n + 1 - c.utf8Size) r).map (c :: ·) else none

/-- The part of a text between two byte offsets, if both lie between two characters and in
order. -/
def slice? (start stop : Nat) (t : Text) : Option Text :=
  if start ≤ stop then (dropBytes? start t).bind (takeBytes? (stop - start)) else none

theorem dropBytes?_byteLength (s t : Text) : dropBytes? (byteLength s) (s ++ t) = some t := by
  induction s with
  | nil => simp [dropBytes?]
  | cons c s ih =>
    have hpos := c.utf8Size_pos
    obtain ⟨n, hn⟩ : ∃ n, byteLength (c :: s) = n + 1 := ⟨byteLength (c :: s) - 1, by simp; omega⟩
    rw [hn, List.cons_append, dropBytes?, if_pos (by simp at hn; omega)]
    rw [show n + 1 - c.utf8Size = byteLength s by simp at hn; omega, ih]

theorem takeBytes?_byteLength (s t : Text) : takeBytes? (byteLength s) (s ++ t) = some s := by
  induction s with
  | nil => simp [takeBytes?]
  | cons c s ih =>
    have hpos := c.utf8Size_pos
    obtain ⟨n, hn⟩ : ∃ n, byteLength (c :: s) = n + 1 := ⟨byteLength (c :: s) - 1, by simp; omega⟩
    rw [hn, List.cons_append, takeBytes?, if_pos (by simp at hn; omega)]
    rw [show n + 1 - c.utf8Size = byteLength s by simp at hn; omega, ih]
    rfl

/-- The part between the ends of a first and of a second piece of a text is the second piece. -/
theorem slice?_append (a b c : Text) :
    slice? (byteLength a) (byteLength a + byteLength b) (a ++ (b ++ c)) = some b := by
  simp [slice?, dropBytes?_byteLength, takeBytes?_byteLength]

end Text

end SqlConsole
