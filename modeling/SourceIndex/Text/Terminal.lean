import SourceIndex.Text.Utf8

/-! Text without the sequences that steer a terminal. What a user typed may come back
in a message, so control characters other than ASCII blanks are dropped, and so is
everything from an escape character to the end of the sequence it opens.

There are two ways to do so. As a text, a line break or a tab inside a sequence ends it
and is kept. On a stream, such a break is kept too, but only interrupts the sequence:
visible characters are written on from there, and the next control character goes back
to where the sequence was left. -/
namespace SourceIndex.Text.Terminal

/-- Where in a control sequence a text stands. -/
inductive Mode where
  | plain
  /-- Behind an escape character, and behind what may follow it before the last one. -/
  | escape
  | escapeMiddle
  /-- A control sequence, up to a letter or a mark above `?`. -/
  | control
  /-- A device string: at its start, in its parameters, behind them, malformed, and its
  body. -/
  | deviceStart
  | deviceParameters
  | deviceMiddle
  | deviceBroken
  | deviceBody
  /-- An operating-system command, ended by a bell. -/
  | command
  /-- A string nobody reads. -/
  | ignored
  deriving DecidableEq, Repr

def isBreak (n : Nat) : Bool := n == 0x09 || n == 0x0A || n == 0x0C || n == 0x0D

/-- What an escape character opens. -/
def afterEscape (n : Nat) : Mode :=
  if n ≤ 0x2F then .escapeMiddle
  else if n = 0x5B then .control
  else if n = 0x5D then .command
  else if n = 0x50 then .deviceStart
  else if n = 0x58 ∨ n = 0x5E ∨ n = 0x5F then .ignored
  else .plain

/-- The next mode for a visible ASCII character inside a sequence. -/
def visible (mode : Mode) (n : Nat) : Mode :=
  match mode with
  | .plain => .plain
  | .escape => afterEscape n
  | .escapeMiddle => if n ≤ 0x2F then .escapeMiddle else .plain
  | .control => if n ≤ 0x3F then .control else .plain
  | .deviceStart =>
    if n ≤ 0x2F then .deviceMiddle else if n ≤ 0x3F then .deviceParameters else .deviceBody
  | .deviceParameters =>
    if n ≤ 0x2F then .deviceMiddle
    else if n ≤ 0x3B then .deviceParameters
    else if n ≤ 0x3F then .deviceBroken
    else .deviceBody
  | .deviceMiddle =>
    if n ≤ 0x2F then .deviceMiddle else if n ≤ 0x3F then .deviceBroken else .deviceBody
  | .deviceBroken => .deviceBroken
  | .deviceBody => .deviceBody
  | .command => .command
  | .ignored => .ignored

/-- The modes in which a control character has its usual effect. -/
def obeysControls : Mode → Bool
  | .plain | .escape | .escapeMiddle | .control => true
  | _ => false

/-- The modes that the eight-bit string terminator ends. -/
def endsAtTerminator : Mode → Bool
  | .deviceBroken | .deviceBody | .ignored => true
  | _ => false

/-- The eight-bit string terminator. Inside a sequence bytes count one by one, so it also
ends a string as a part of some character. -/
def terminator : UInt8 := 0x9C

/-- The mode after a character, and whether the character is kept. A sequence consists of
ASCII characters; others inside it are dropped. -/
def step (mode : Mode) (char : Char) : Mode × Bool :=
  let n := char.toNat
  if n = 0x18 ∨ n = 0x1A then (.plain, false)
  else if n = 0x1B then (.escape, false)
  else if n < 0x20 then
    if isBreak n && obeysControls mode then (.plain, true)
    else if mode = .command ∧ n = 0x07 then (.plain, false)
    else (mode, false)
  else if n = 0x7F then (mode, false)
  else if n < 0x7F then (visible mode n, mode == .plain)
  else if endsAtTerminator mode && (Utf8.encodeChar char).contains terminator then
    (.plain, false)
  else (mode, mode == .plain)

def plainFrom (mode : Mode) : Text → Text
  | [] => []
  | char :: rest =>
    let (next, kept) := step mode char
    if kept then char :: plainFrom next rest else plainFrom next rest

/-- The text without its control sequences. -/
def plain (text : Text) : Text := plainFrom .plain text

/-- The same on a stream, where `showing` says that the character before was kept. -/
def streamStep (mode : Mode) (showing : Bool) (char : Char) : Mode × Bool :=
  let n := char.toNat
  if isBreak n && obeysControls mode then (mode, true)
  else if showing && 0x20 ≤ n && n < 0x7F then (mode, true)
  else if showing && 0x7F < n then (.plain, true)
  else step mode char

def streamedFrom (mode : Mode) (showing : Bool) : Text → Text
  | [] => []
  | char :: rest =>
    let (next, kept) := streamStep mode showing char
    if kept then char :: streamedFrom next kept rest else streamedFrom next kept rest

/-- What a stream that is no terminal gets of a text. -/
def streamed (text : Text) : Text := streamedFrom .plain false text

end SourceIndex.Text.Terminal
