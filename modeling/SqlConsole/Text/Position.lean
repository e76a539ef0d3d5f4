import SqlConsole.Text.Basic
/-!
# Positions and spans

A position inside a text is a byte offset together with the line and the column of the character
there, both counted from one.  The position after a text is found by stepping over its characters,
so positions add up along a text that is cut into pieces (`Position.after_append`).
-/

namespace SqlConsole

/-- A place between two characters of a text. -/
structure Position where
  /-- Bytes before the place. -/
  offset : Nat
  /-- One more than the number of line feeds before the place. -/
  line : Nat
  /-- One more than the number of characters since the last line feed. -/
  column : Nat
  deriving DecidableEq, Repr, Inhabited

namespace Position

/-- The beginning of a text. -/
def start : Position := ⟨0, 1, 1⟩

def step (p : Position) (c : Char) : Position :=
  if c = '\n' then ⟨p.offset + c.utf8Size, p.line + 1, 1⟩
  else ⟨p.offset + c.utf8Size, p.line, p.column + 1⟩

/-- The place behind a text that begins at `p`. -/
def after (p : Position) (t : Text) : Position := t.foldl step p

@[simp] theorem after_nil (p : Position) : p.after [] = p := rfl

@[simp] theorem after_cons (p : Position) (c : Char) (t : Text) :
    p.after (c :: t) = (p.step c).after t := rfl

@[simp] theorem after_append (p : Position) (s t : Text) :
    p.after (s ++ t) = (p.after s).after t := by
  simp [after]

@[simp] theorem offset_step (p : Position) (c : Char) :
    (p.step c).offset = p.offset + c.utf8Size := by
  unfold step; split <;> rfl

@[simp] theorem offset_after (p : Position) (t : Text) :
    (p.after t).offset = p.offset + Text.byteLength t := by
  induction t generalizing p with
  | nil => simp
  | cons c t ih => simp [ih, Nat.add_assoc]

end Position

/-- A part of a text: where it begins and the byte offset of its end. -/
structure Span where
  /-- Where the part begins. -/
  start : Position
  /-- Byte offset behind its last character. -/
  stop : Nat
  deriving DecidableEq, Repr, Inhabited

def Position.span (p : Position) : Span := ⟨p, p.offset⟩

end SqlConsole
